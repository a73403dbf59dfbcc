import Scriptling.Braced.Syntax

/-!
# Records of syntax trees

What can be told from the record of a node. Tokens and expressions can be told from their records in full;
of a statement, only a type that was announced and not found looks like one that is absent.
-/

namespace Scriptling.Braced

theorem Kind.ofName?_name (k : Kind) : Kind.ofName? k.name = some k := by
  cases k <;> decide

theorem Token.toDatum_injective {t u : Token} (h : t.toDatum = u.toDatum) : t = u := by
  cases t with
  | mk kind lexeme literal line =>
    cases u with
    | mk kind' lexeme' literal' line' =>
      simp only [Token.toDatum, Datum.token.injEq] at h
      obtain ⟨hName, rfl, rfl, rfl⟩ := h
      have hKind : some kind = some kind' := by
        rw [← Kind.ofName?_name kind, ← Kind.ofName?_name kind', hName]
      cases hKind
      rfl

theorem LiteralKind.name_injective {k k' : LiteralKind} (h : k.name = k'.name) : k = k' := by
  revert h
  cases k <;> cases k' <;> decide

-- What it takes to compare two records.
attribute [local simp] Expr.toDatum Stmt.toDatum record

mutual

/-- An expression can be told from its record. -/
theorem Expr.toDatum_injective : ∀ {e e' : Expr}, e.toDatum = e'.toDatum → e = e'
  | .literal kind value, e', h => by
      cases e' <;> simp at h
      rw [h.1, LiteralKind.name_injective h.2]
  | .variable name, e', h => by
      cases e' <;> simp at h
      rw [h]
  | .assign name value, e', h => by
      cases e' <;> simp at h
      rw [h.1, Expr.toDatum_injective h.2]
  | .logical left operator right, e', h | .binary left operator right, e', h => by
      cases e' <;> simp at h
      rw [Expr.toDatum_injective h.1, Token.toDatum_injective h.2.1, Expr.toDatum_injective h.2.2]
  | .unary operator right, e', h => by
      cases e' <;> simp at h
      rw [Token.toDatum_injective h.1, Expr.toDatum_injective h.2]
  | .call callee arguments paren, e', h => by
      cases e' <;> simp at h
      rw [Expr.toDatum_injective h.1, exprData_injective h.2.1, Token.toDatum_injective h.2.2]
  | .grouping inner, e', h => by
      cases e' <;> simp at h
      rw [Expr.toDatum_injective h]

theorem exprData_injective : ∀ {es es' : List Expr}, exprData es = exprData es' → es = es'
  | [], es', h => by
      cases es' with
      | nil => rfl
      | cons => cases h
  | e :: es, es', h => by
      cases es' with
      | nil => cases h
      | cons e' es' =>
        simp only [exprData, List.cons.injEq] at h
        rw [Expr.toDatum_injective h.1, exprData_injective h.2]

end

theorem Expr.toDatum_ne_none (e : Expr) : e.toDatum ≠ .none := by
  cases e <;> simp

theorem Stmt.toDatum_ne_none (s : Stmt) : s.toDatum ≠ .none := by
  cases s <;> simp

theorem optionalDatum_injective {o o' : Option Expr} (h : optionalDatum o = optionalDatum o') : o = o' := by
  cases o with
  | none =>
    cases o' with
    | none => rfl
    | some e' => exact absurd h.symm e'.toDatum_ne_none
  | some e =>
    cases o' with
    | none => exact absurd h e.toDatum_ne_none
    | some e' => rw [Expr.toDatum_injective h]

end Scriptling.Braced
