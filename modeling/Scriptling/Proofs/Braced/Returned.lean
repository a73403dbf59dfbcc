import Scriptling.Proofs.Braced.Fit
import Scriptling.Proofs.Braced.Part

/-!
# Returned scripts are fit for running

The literals of a script hold values of their kind, since they come from tokens that were scanned. This is so after an
error as well, since parsing goes on and what it returns is run (`returned_fit`). A script without errors is fit under
the conditions that it names itself (`parsed_fit`).
-/

namespace Scriptling.Braced

open Grammar

variable {tokens : List Token} {e : Expr}

/-! ## Expressions -/

/-- The literal of a scanned number or string is of that kind. -/
theorem Token.Scanned.literal_number {t : Token} (h : t.Scanned) (hKind : t.kind = .number) :
    ∃ x, t.literal = .float x := by
  cases h with
  | sign hText =>
    simp only at hKind
    simp [hKind, Kind.text?] at hText
  | number => exact ⟨_, rfl⟩
  | identifier | string => cases hKind

theorem Token.Scanned.literal_string {t : Token} (h : t.Scanned) (hKind : t.kind = .string) :
    ∃ s, t.literal = .str s := by
  cases h with
  | sign hText =>
    simp only at hKind
    simp [hKind, Kind.text?] at hText
  | string => exact ⟨_, rfl⟩
  | identifier | number => cases hKind

theorem toDatum_mem_exprData {es : List Expr} (h : e ∈ es) : e.toDatum ∈ exprData es := by
  induction h with
  | head => exact .head _
  | tail _ _ ih => exact .tail _ ih

section Inversion

-- What it takes to compare two records.
attribute [local simp] Expr.toDatum Stmt.toDatum elseDatum optionalDatum record LiteralKind.name

/-- A returned expression is fit: the value of a number or a string is the one of its token. -/
theorem IsExpression.fit {d : Datum} (h : IsExpression tokens d)
    (hScanned : ∀ t ∈ tokens, t.kind ≠ .endOfFile → t.Scanned) : ∀ e : Expr, e.toDatum = d → e.Fit True := by
  induction h with
    (intro e hd)
  | @number t ht hKind =>
    have hLiteral := (hScanned t ht (by simp [hKind])).literal_number hKind
    cases e with
    | literal kind value => cases kind <;> simp at hd; exact hd ▸ hLiteral
    | _ => simp at hd
  | @string t ht hKind =>
    have hLiteral := (hScanned t ht (by simp [hKind])).literal_string hKind
    cases e with
    | literal kind value => cases kind <;> simp at hd; exact hd ▸ hLiteral
    | _ => simp at hd
  | @boolean b =>
    cases e with
    | literal kind value => cases kind <;> simp at hd; exact ⟨b, hd⟩
    | _ => simp at hd
  | «variable» =>
    cases e with
    | «variable» name => exact fun _ => trivial
    | _ => simp at hd
  | assign _ ih =>
    cases e with
    | assign name value =>
      obtain ⟨-, hValue⟩ : _ ∧ value.toDatum = _ := by simpa using hd
      exact ih value hValue
    | _ => simp at hd
  | logical _ _ _ ihl ihr =>
    cases e with
    | logical l op r =>
      obtain ⟨hl, -, hr⟩ : l.toDatum = _ ∧ _ ∧ r.toDatum = _ := by simpa using hd
      exact ⟨ihl l hl, ihr r hr⟩
    | _ => simp at hd
  | binary _ _ _ ihl ihr =>
    cases e with
    | binary l op r =>
      obtain ⟨hl, -, hr⟩ : l.toDatum = _ ∧ _ ∧ r.toDatum = _ := by simpa using hd
      exact ⟨ihl l hl, ihr r hr⟩
    | _ => simp at hd
  | unary _ _ ih =>
    cases e with
    | unary op r =>
      obtain ⟨-, hr⟩ : _ ∧ r.toDatum = _ := by simpa using hd
      exact ih r hr
    | _ => simp at hd
  | call _ _ _ ihc iha =>
    cases e with
    | call callee arguments paren =>
      obtain ⟨hCallee, rfl, -⟩ : callee.toDatum = _ ∧ exprData arguments = _ ∧ _ := by simpa using hd
      refine ⟨ihc callee hCallee, allFit_iff.mpr fun a ha => ?_⟩
      exact iha a.toDatum (toDatum_mem_exprData ha) a rfl
    | _ => simp at hd
  | grouping _ ih =>
    cases e with
    | grouping inner => exact ih inner (by simpa using hd)
    | _ => simp at hd

/-- The expressions that stand in a statement itself. -/
def Stmt.expressions : Stmt → List Expr
  | .var _ _ initial _ => initial.toList
  | .branch condition _ _ => [condition]
  | .ret _ value => value.toList
  | .expression e => [e]
  | _ => []

theorem isExpression_of_orNone {o : Option Expr} (h : OrNone (IsExpression tokens) (optionalDatum o))
    (he : e ∈ o.toList) : IsExpression tokens e.toDatum := by
  obtain rfl : o = some e := by simpa using he
  generalize hd : optionalDatum (some e) = d at h
  cases h with
  | none => exact absurd hd e.toDatum_ne_none
  | some h =>
    rw [← hd] at h
    exact h

/-- The expressions in what parsing returns follow the schema. -/
theorem isExpression_part {s : Stmt} {n : Nat} (h : Clause.IsRecord tokens .declaration n s.toDatum)
    (he : e ∈ s.expressions) : IsExpression tokens e.toDatum := by
  generalize hd : s.toDatum = d at h
  cases s with
  | var name type initial isConst =>
    cases h with
    | var _ hInitial =>
      obtain ⟨-, -, rfl, -⟩ : _ ∧ _ ∧ optionalDatum initial = _ ∧ _ := by simpa using hd
      exact isExpression_of_orNone hInitial he
    | function | struct => simp at hd
    | plain h => cases h <;> simp at hd
  | branch condition yes no =>
    obtain rfl : e = condition := by simpa [Stmt.expressions] using he
    cases h with
    | plain h =>
      cases h with
      | ifThen hCondition | ifElse hCondition =>
        obtain ⟨rfl, -⟩ : e.toDatum = _ ∧ _ := by simpa using hd
        exact hCondition
      | _ => simp at hd
    | _ => simp at hd
  | ret keyword value =>
    cases h with
    | plain h =>
      cases h with
      | ret _ hValue =>
        obtain ⟨-, rfl⟩ : _ ∧ optionalDatum value = _ := by simpa using hd
        exact isExpression_of_orNone hValue he
      | _ => simp at hd
    | _ => simp at hd
  | expression inner =>
    obtain rfl : e = inner := by simpa [Stmt.expressions] using he
    cases h with
    | plain h =>
      cases h with
      | expression hInner =>
        obtain rfl : e.toDatum = _ := by simpa using hd
        exact hInner
      | _ => simp at hd
    | _ => simp at hd
  | _ => cases he

end Inversion

/-! ## Statements -/

mutual

theorem Stmt.fit_of_isRecord (hScanned : ∀ t ∈ tokens, t.kind ≠ .endOfFile → t.Scanned) :
    ∀ {s : Stmt} {n : Nat}, Clause.IsRecord tokens .declaration n s.toDatum → s.Fit True True
  | .function _ _ _ body, _, h => allStmtFit_of_isRecord hScanned fun s hs => isRecord_part h (.function hs)
  | .struct .., _, _ => trivial
  | .var _ _ (some e) _, _, h => (isExpression_part h (e := e) (by simp [Stmt.expressions])).fit hScanned e rfl
  | .var _ _ none _, _, _ => trivial
  | .branch c _ none, _, h => by
      obtain ⟨_, hYes⟩ := isRecord_part h .yes
      have hCondition := (isExpression_part h (e := c) (by simp [Stmt.expressions])).fit hScanned c rfl
      exact ⟨hCondition, Stmt.fit_of_isRecord hScanned (.plain hYes), trivial⟩
  | .branch c _ (some _), _, h => by
      obtain ⟨_, hYes⟩ := isRecord_part h .yes
      obtain ⟨_, hNo⟩ := isRecord_part h .no
      have hCondition := (isExpression_part h (e := c) (by simp [Stmt.expressions])).fit hScanned c rfl
      exact ⟨hCondition, Stmt.fit_of_isRecord hScanned (.plain hYes), Stmt.fit_of_isRecord hScanned (.plain hNo)⟩
  | .loop body, _, h => allStmtFit_of_isRecord hScanned fun s hs => isRecord_part h (.loop hs)
  | .ret _ (some e), _, h => (isExpression_part h (e := e) (by simp [Stmt.expressions])).fit hScanned e rfl
  | .ret _ none, _, _ => trivial
  | .block body, _, h => allStmtFit_of_isRecord hScanned fun s hs => isRecord_part h (.block hs)
  | .expression e, _, h => (isExpression_part h (e := e) (by simp [Stmt.expressions])).fit hScanned e rfl

theorem allStmtFit_of_isRecord (hScanned : ∀ t ∈ tokens, t.kind ≠ .endOfFile → t.Scanned) :
    ∀ {ss : List Stmt}, (∀ s ∈ ss, ∃ n, Clause.IsRecord tokens .declaration n s.toDatum) → AllStmtFit True True ss
  | [], _ => trivial
  | s :: ss, h => ⟨(h s (by simp)).elim fun _ hs => Stmt.fit_of_isRecord hScanned hs,
      allStmtFit_of_isRecord hScanned fun t ht => h t (by simp [ht])⟩

end

/-- **What parsing returns is fit for running,** whatever diagnostics there were. -/
theorem returned_fit {source : String} (hStopped : (scan source).stopped = none) {stmts : List Stmt}
    {rest : List Token} {ds : List Diagnostic} (hParse : parse (scan source).tokens = ⟨.ok stmts, rest, ds⟩) :
    AllStmtFit True True stmts := by
  obtain ⟨body, last, hTokens, hBody⟩ := scan_tokens hStopped
  have hScanned : ∀ t ∈ (scan source).tokens, t.kind ≠ .endOfFile → t.Scanned := by
    intro t ht hKind
    rw [hTokens, List.mem_append, List.mem_singleton] at ht
    rcases ht with ht | rfl
    · exact hBody t ht
    · exact absurd rfl hKind
  exact allStmtFit_of_isRecord hScanned fun s hs => occursIn_isRecord hParse (.here hs)

/-- **A parsed script is fit under the conditions that it names itself.** -/
theorem parsed_fit {source : String} (hStopped : (scan source).stopped = none)
    (hQuiet : (parse (scan source).tokens).diagnostics = []) :
    ∃ stmts rest, parse (scan source).tokens = ⟨.ok stmts, rest, []⟩ ∧
      AllStmtFit (anyStmtReads "len" stmts = true) (anyOmits stmts = true) stmts := by
  obtain ⟨body, last, stmts, ds, -, -, hParse⟩ := exists_parse_scan hStopped
  rw [hParse] at hQuiet
  obtain rfl : ds = [] := hQuiet
  exact ⟨stmts, _, hParse, (returned_fit hStopped hParse).narrow id id⟩

end Scriptling.Braced
