import Scriptling.Proofs.Braced.Fuel

/-!
# Parsing and lines

Parsing never looks at the line of a token. It only passes lines on, into the tokens that statements keep and
into diagnostics. So if every token is moved to another line, what parsing gives is moved with it and is
otherwise the same: `parse_relocate`. With every token left on its line, the same congruence says that more fuel keeps
every answer but the lack of fuel: `program_below`.
-/

namespace Scriptling.Braced

open Braced.Parser

variable {α β : Type} {g : Int → Int}

/-! ## Tokens left on their lines -/

mutual

theorem Expr.relocate_id : (e : Expr) → e.relocate id = e
  | .literal .. | .variable .. => rfl
  | .assign _ value => by rw [Expr.relocate, value.relocate_id]
  | .logical l _ r | .binary l _ r => by
    rw [Expr.relocate, l.relocate_id, r.relocate_id]
    rfl
  | .unary _ r => by
    rw [Expr.relocate, r.relocate_id]
    rfl
  | .call callee arguments _ => by
    rw [Expr.relocate, callee.relocate_id, relocateExprs_id arguments]
    rfl
  | .grouping inner => by rw [Expr.relocate, inner.relocate_id]

theorem relocateExprs_id : (es : List Expr) → relocateExprs id es = es
  | [] => rfl
  | e :: es => by rw [relocateExprs, e.relocate_id, relocateExprs_id es]

end

theorem map_relocate_id (initial : Option Expr) : initial.map (Expr.relocate id) = initial := by
  rw [show Expr.relocate id = id from funext Expr.relocate_id, Option.map_id, id]

mutual

theorem Stmt.relocate_id : (s : Stmt) → s.relocate id = s
  | .function _ _ _ body => by rw [Stmt.relocate, relocateStmts_id body]
  | .struct .. => rfl
  | .var _ _ initial _ => by rw [Stmt.relocate, map_relocate_id initial]
  | .branch condition yes no => by rw [Stmt.relocate, condition.relocate_id, yes.relocate_id, relocateElse_id no]
  | .loop body => by rw [Stmt.relocate, relocateStmts_id body]
  | .ret _ value => by
    rw [Stmt.relocate, map_relocate_id value]
    rfl
  | .block body => by rw [Stmt.relocate, relocateStmts_id body]
  | .expression e => by rw [Stmt.relocate, e.relocate_id]

theorem relocateElse_id : (no : Option Stmt) → relocateElse id no = no
  | none => rfl
  | some s => by rw [relocateElse, s.relocate_id]

theorem relocateStmts_id : (ss : List Stmt) → relocateStmts id ss = ss
  | [] => rfl
  | s :: ss => by rw [relocateStmts, s.relocate_id, relocateStmts_id ss]

end

theorem Reply.relocate_id (r : Reply (List Stmt)) : r.relocate id (List.map (Stmt.relocate id)) = r := by
  have hStmts : Stmt.relocate id = id := funext Stmt.relocate_id
  have hTokens : Token.relocate id = id := rfl
  have hDiagnostics : Diagnostic.relocate id = id := rfl
  rcases r with ⟨_ | _ | _ | _, rest, ds⟩ <;> simp [relocate, Ending.map, hStmts, hTokens, hDiagnostics]

/-! ## Parsers that pass lines on -/

namespace Parser

/-- On tokens that were moved to other lines, `q` replies what `p` replies on the tokens themselves, moved
to other lines, unless `p` lacks fuel; `f` moves the result. -/
def Follows (g : Int → Int) (f : α → α) (p q : Parser α) : Prop :=
  ∀ ts : List Token, (p ts).ending = .outOfFuel ∨ q (ts.map (Token.relocate g)) = (p ts).relocate g f

namespace Follows

variable {f : α → α} {p q : Parser α}

theorem bind {h : β → β} {k l : α → Parser β} (hp : Follows g f p q) (hk : ∀ a, Follows g h (k a) (l (f a))) :
    Follows g h (p >>= k) (q >>= l) := by
  intro ts
  have hFirst := hp ts
  rcases hReply : p ts with ⟨a | _ | _ | _, mid, ds⟩ <;> rw [hReply] at hFirst
  · rw [bind_of_ok hReply, bind_of_ok (hFirst.resolve_left (by simp))]
    refine (hk a mid).imp_right fun hNext => ?_
    rw [hNext]
    simp [Reply.relocate]
  · rw [bind_of_failed hReply, bind_of_failed (hFirst.resolve_left (by simp))]
    exact .inr rfl
  · rw [bind_of_offEnd hReply, bind_of_offEnd (hFirst.resolve_left (by simp))]
    exact .inr rfl
  · exact .inl (by rw [bind_of_outOfFuel hReply])

theorem accept (kinds : List Kind) : Follows g (Option.map (Token.relocate g)) (accept kinds) (accept kinds)
  | [] => .inr rfl
  | t :: ts => .inr (by
    show (if kinds.contains t.kind then _ else _) = Reply.relocate g _ (if kinds.contains t.kind then _ else _)
    split <;> rfl)

theorem skipFrom (previous : Token) (ts : List Token) :
    skipFrom (previous.relocate g) (ts.map (Token.relocate g)) = (skipFrom previous ts).relocate g id := by
  induction ts generalizing previous with
  | nil => rfl
  | cons t ts ih =>
    show (if t.kind = .endOfFile ∨ previous.kind = .semicolon ∨ t.kind ∈ restarts then _ else _) =
      Reply.relocate g id
        (if t.kind = .endOfFile ∨ previous.kind = .semicolon ∨ t.kind ∈ restarts then _ else _)
    split
    · rfl
    · exact ih t

theorem synchronize : (ts : List Token) → synchronize (ts.map (Token.relocate g)) = (synchronize ts).relocate g id
  | [] => rfl
  | t :: ts => by
    show (if t.kind = .endOfFile then _ else _) = Reply.relocate g id (if t.kind = .endOfFile then _ else _)
    split
    · rfl
    · exact skipFrom t ts

theorem recover (h : Follows g f p q) : Follows g (Option.map f) (recover p) (recover q) := by
  intro ts
  have hFirst := h ts
  unfold Parser.recover
  rcases hReply : p ts with ⟨a | _ | _ | _, mid, ds⟩ <;> rw [hReply] at hFirst
  · exact .inr (by rw [hFirst.resolve_left (by simp)]; rfl)
  · right
    have hSecond := synchronize (g := g) mid
    rw [hFirst.resolve_left (by simp)]
    simp only [Reply.relocate, Ending.map] at hSecond ⊢
    rw [hSecond]
    cases (Parser.synchronize mid).ending <;> simp
  · exact .inr (by rw [hFirst.resolve_left (by simp)]; rfl)
  · exact .inl rfl

end Follows

theorem follows_congruence (g : Int → Int) : Congruence g (Follows g) where
  spent _ _ _ := .inl rfl
  pure h _ := .inr (by rw [h]; rfl)
  bind hp hk := hp.bind hk
  peek ts := .inr (by cases ts <;> rfl)
  complain _ _ _ := .inr rfl
  refuse _ _ ts := .inr (by cases ts <;> rfl)
  accept _ := .accept _
  recover hp := hp.recover

end Parser

/-- **More fuel keeps every answer but the lack of fuel.** -/
theorem program_below {n m : Nat} (hnm : n ≤ m) (ts : List Token) :
    (program n ts).ending = .outOfFuel ∨ program n ts = program m ts := by
  refine ((follows_congruence id).program hnm ts).imp_right fun h => ?_
  rw [Reply.relocate_id, show Token.relocate id = id from rfl, List.map_id] at h
  exact h.symm

/-- **Parsing only passes lines on.** If every token is moved to another line, the statements and the
diagnostics are moved with them and are otherwise the same. -/
theorem parse_relocate (g : Int → Int) (tokens : List Token) :
    parse (tokens.map (Token.relocate g)) = (parse tokens).relocate g (List.map (Stmt.relocate g)) := by
  have hFuel : Fed (program (fuelFor tokens.length)) tokens.length 0 := program_fed (by unfold fuelFor; omega)
  unfold parse
  rw [List.length_map]
  exact ((follows_congruence g).program (Nat.le_refl _) tokens).resolve_left (hFuel tokens (Nat.le_refl _)).1

end Scriptling.Braced
