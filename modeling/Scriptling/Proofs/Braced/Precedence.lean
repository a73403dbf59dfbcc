import Scriptling.Proofs.Braced.Writing

/-!
# Precedence

How the trees of written expressions are layered. An operator of two operands joins from the left what binds
at least as tightly as itself with what binds strictly more tightly; signs apply to signed expressions and
calls, and only calls and what needs no parentheses can be called. So an assignment is never an operand.
Between statements, an `ELSE` belongs to the nearest `IF` that lacks one.
-/

namespace Scriptling.Braced

open Grammar

/-- How tightly an expression binds: 0 for an assignment, 1 to 6 for the operators of two operands by their
level, 7 for signs and negations, and 8 for calls and for what stands alone or in parentheses. -/
def Expr.rank : Expr → Nat
  | .assign .. => 0
  | .logical _ operator _ | .binary _ operator _ => operator.kind.level?.getD 0 + 1
  | .unary .. => 7
  | .call .. | .literal .. | .variable _ | .grouping _ => 8

/-- The operands of every operator bind tightly enough to stand there without parentheses. -/
inductive Expr.Layered : Expr → Prop where
  | literal {kind value} : Layered (.literal kind value)
  | variable {name} : Layered (.variable name)
  | assign {name v} : Layered v → Layered (.assign name v)
  | logical {l r op level} : op.kind.level? = some level → level < 2 → Layered l → level + 1 ≤ l.rank → Layered r →
      level + 1 < r.rank → Layered (.logical l op r)
  | binary {l r op level} : op.kind.level? = some level → 2 ≤ level → Layered l → level + 1 ≤ l.rank → Layered r →
      level + 1 < r.rank → Layered (.binary l op r)
  | unary {op r} : op.kind = .bang ∨ op.kind = .minus → Layered r → 7 ≤ r.rank → Layered (.unary op r)
  | call {callee arguments paren} : Layered callee → callee.rank = 8 → (∀ a ∈ arguments, Layered a) →
      Layered (.call callee arguments paren)
  | grouping {inner} : Layered inner → Layered (.grouping inner)

theorem Expr.rank_le (e : Expr) : e.rank ≤ 8 := by
  cases e with
  | logical l op r | binary l op r =>
    simp only [rank]
    cases op.kind <;> decide
  | _ => simp [rank]

theorem joinLevel_rank {level : Nat} {op : Token} (h : op.kind.level? = some level) (l r : Expr) :
    (joinLevel level l op r).rank = level + 1 := by
  unfold joinLevel
  split <;> simp [Expr.rank, h]

theorem joinLevel_layered {level : Nat} {op : Token} (h : op.kind.level? = some level) {l r : Expr}
    (hl : l.Layered) (hlRank : level + 1 ≤ l.rank) (hr : r.Layered) (hrRank : level + 1 < r.rank) :
    (joinLevel level l op r).Layered := by
  unfold joinLevel
  split
  · exact .logical h ‹_› hl hlRank hr hrRank
  · exact .binary h (Nat.le_of_not_lt ‹_›) hl hlRank hr hrRank

/-- What holds of each written tree holds of each tree. -/
theorem forall_trees {α : Type} {P : α → Prop} {parts : List (α × List Token)}
    (h : ∀ p ∈ parts, P p.1) : ∀ a ∈ parts.map Prod.fst, P a := by
  intro a ha
  obtain ⟨p, hp, rfl⟩ := List.mem_map.mp ha
  exact h p hp

/-- The least rank of the trees of a part. -/
def Grammar.Part.rank : Part → Nat
  | .expression => 0
  | .operand level | .chain level _ => level + 1
  | .unary => 7
  | .calls _ | .primary => 8

/-- The tree that a part extends, if it extends one, is layered and binds tightly enough for the part. -/
def Grammar.Part.Extends : Part → Prop
  | .chain level left => left.Layered ∧ level + 1 ≤ left.rank
  | .calls callee => callee.Layered ∧ 8 ≤ callee.rank
  | _ => True

/-- **Written expressions respect precedence and associativity.** -/
theorem Grammar.Part.Writes.layered {part : Part} {e : Expr} {ts : List Token}
    (h : part.Writes e ts) (hExtends : part.Extends) : e.Layered ∧ part.rank ≤ e.rank := by
  induction h with
  | assign _ _ _ _ ihv => exact ⟨.assign (ihv trivial).1, Nat.zero_le _⟩
  | plain _ ih => exact ⟨(ih trivial).1, Nat.zero_le _⟩
  | joined _ _ _ ihl ihc =>
    -- An operand of the next level binds more tightly than a chain asks for.
    obtain ⟨hLayered, hRank⟩ := ihl trivial
    exact ihc ⟨hLayered, Nat.le_of_succ_le hRank⟩
  | single _ ih => exact ih trivial
  | chainEnd => exact hExtends
  | chainMore hop _ _ ihr ihc =>
    obtain ⟨hRight, hRank⟩ := ihr trivial
    have hJoined := joinLevel_layered hop hExtends.1 hExtends.2 hRight hRank
    exact ihc ⟨hJoined, Nat.le_of_eq (joinLevel_rank hop _ _).symm⟩
  | signed hop _ ih =>
    obtain ⟨hRight, hRank⟩ := ih trivial
    exact ⟨.unary hop hRight hRank, Nat.le_refl 7⟩
  | called _ _ ihp ihc =>
    obtain ⟨hLayered, hRank⟩ := ihc (ihp trivial)
    exact ⟨hLayered, Nat.le_of_succ_le hRank⟩
  | callsEnd => exact hExtends
  | @callsMore c _ _ _ parts _ _ _ _ _ _ _ _ ihParts ihc =>
    have hArguments : ∀ a ∈ parts.map Prod.fst, a.Layered := forall_trees fun p hp => (ihParts p hp trivial).1
    have hCallee : c.rank = 8 := Nat.le_antisymm c.rank_le hExtends.2
    exact ihc ⟨.call hExtends.1 hCallee hArguments, Nat.le_refl 8⟩
  | boolean | number | string => exact ⟨.literal, Nat.le_refl 8⟩
  | «variable» => exact ⟨.variable, Nat.le_refl 8⟩
  | group _ _ _ ih => exact ⟨.grouping (ih trivial).1, Nat.le_refl 8⟩

/-- All expressions of a statement are layered, and each `ELSE` has the nearest `IF`. -/
inductive Stmt.Arranged : Stmt → Prop where
  | function {name params result body} : (∀ s ∈ body, Arranged s) → Arranged (.function name params result body)
  | struct {name fields} : Arranged (.struct name fields)
  | var {name type initial isConst} : (∀ e, initial = some e → e.Layered) → Arranged (.var name type initial isConst)
  | ifThen {c yes} : c.Layered → Arranged yes → Arranged (.branch c yes none)
  | ifElse {c yes no} : c.Layered → Arranged yes → lacksElse yes = false → Arranged no →
      Arranged (.branch c yes (some no))
  | loop {body} : (∀ s ∈ body, Arranged s) → Arranged (.loop body)
  | ret {keyword value} : (∀ e, value = some e → e.Layered) → Arranged (.ret keyword value)
  | block {body} : (∀ s ∈ body, Arranged s) → Arranged (.block body)
  | expression {e} : e.Layered → Arranged (.expression e)

theorem Grammar.Clause.Writes.arranged {clause : Clause} {s : Stmt} {ts : List Token}
    (h : clause.Writes s ts) : s.Arranged := by
  induction h with
  | function _ _ _ _ _ _ _ _ _ _ _ ih => exact .function (forall_trees ih)
  | struct => exact .struct
  | «variable» _ _ _ hInitial =>
    refine .var fun e he => ?_
    cases hInitial with
    | absent => cases he
    | present _ hWrites =>
      cases he
      exact (hWrites.layered trivial).1
  | plain _ ih => exact ih
  | ifThen _ _ hc _ _ ih => exact .ifThen (hc.layered trivial).1 ih
  | ifElse _ _ hc _ _ hClosed _ _ ihYes ihNo => exact .ifElse (hc.layered trivial).1 ihYes hClosed ihNo
  | loop _ _ _ _ ih => exact .loop (forall_trees ih)
  | leave => exact .ret fun _ h => by cases h
  | leaveWith _ he =>
    refine .ret fun e heq => ?_
    cases heq
    exact (he.layered trivial).1
  | block _ _ _ ih => exact .block (forall_trees ih)
  | expression he => exact .expression (he.layered trivial).1

end Scriptling.Braced
