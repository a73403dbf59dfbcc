import Scriptling.Proofs.Braced.Fit
import Scriptling.Proofs.Script.Course

/-!
# Where the values of a script come from

Between its operations a script makes no values: what an operation is given came out of an earlier one. So a
property of values that every operation hands on from those it is given to the one it gives belongs to all values
of a run (`Plan.Fed.course`). And a script adds few signals of its own to those that its operations end with.
-/

namespace Scriptling.Script

open Braced List Plan

/-! ## What operations are given -/

/-- The values that an operation is given. -/
def Op.values : Op → List Datum
  | assign _ v | declare _ v _ => [v]
  | sum left right => [left, right]
  | truth v => [v]
  | call f args => f :: args
  | _ => []

/-- The expression or declaration that an operation carries out is fit. -/
def Op.Fit (counting omitting : Prop) : Op → Prop
  | literal kind value => (Expr.literal kind value).Fit counting
  | lookup name => (Expr.variable name).Fit counting
  | function name params result body => (Stmt.function name params result body).Fit counting omitting
  | _ => True

/-- The signals with which a script ends by itself, and not because an operation does. -/
inductive OwnSignal (omitting : Prop) : Signal → Prop where
  | trouble {t} : OwnSignal omitting (.trouble t)
  | returned {v} : OwnSignal omitting (.returned v)
  | outOfFuel : OwnSignal omitting .outOfFuel
  | omitted : omitting → OwnSignal omitting (.fault (.notSubscriptable "NoneType"))

/-- When a script may count and leave something out, and the signals that it or an operation of it may end with. -/
structure Terms where
  counting : Prop
  omitting : Prop
  mayEnd : Signal → Prop
  own : ∀ s, OwnSignal omitting s → mayEnd s

/-- A script may do what it likes. -/
def Terms.any : Terms := ⟨True, True, fun _ => True, fun _ _ => trivial⟩

namespace Plan

variable {α β : Type}

/-- If these values are there at first, each operation is fit and given such values as are there by then, a result is
as `Q` says, and the plan ends with no other signals than it may. -/
def Fed (T : Terms) (Q : List Datum → α → Prop) : Plan α → List Datum → Prop
  | done (.ok a), given => Q given a
  | done (.error s), _ => T.mayEnd s
  | step o next, given => o.Fit T.counting T.omitting ∧ (∀ v ∈ o.values, v ∈ given) ∧
      (∀ v, (next (.ok v)).Fed T Q (v :: given)) ∧ ∀ s, T.mayEnd s → (next (.error s)).Fed T Q given

/-- The result is one of the values that are there. -/
def Given (given : List Datum) (v : Datum) : Prop := v ∈ given

namespace Fed

variable {T : Terms} {Q : List Datum → α → Prop} {R : List Datum → β → Prop} {given : List Datum}

theorem fail {s : Signal} (h : OwnSignal T.omitting s) : (fail s : Plan α).Fed T Q given := T.own s h

theorem op {o : Op} (hFit : o.Fit T.counting T.omitting) (hValues : ∀ v ∈ o.values, v ∈ given) :
    (op o).Fed T Given given :=
  ⟨hFit, hValues, fun _ => .head _, fun _ hs => hs⟩

theorem weaken {P : List Datum → α → Prop} {p : Plan α} (h : p.Fed T P given) (hPQ : ∀ g a, P g a → Q g a) :
    p.Fed T Q given := by
  induction p generalizing given with
  | done outcome =>
    cases outcome with
    | ok a => exact hPQ given a h
    | error s => exact h
  | step o next ih =>
    obtain ⟨hFit, hValues, hOk, hError⟩ := h
    exact ⟨hFit, hValues, fun v => ih (.ok v) (hOk v), fun s hs => ih (.error s) (hError s hs)⟩

theorem observe {p : Plan α} {k : Except Signal α → Plan β} (h : p.Fed T Q given)
    (hOk : ∀ g a, given ⊆ g → Q g a → (k (.ok a)).Fed T R g)
    (hError : ∀ g s, T.mayEnd s → (k (.error s)).Fed T R g) : (p.observe k).Fed T R given := by
  induction p generalizing given with
  | done outcome =>
    cases outcome with
    | ok a => exact hOk given a (List.Subset.refl _) h
    | error s => exact hError given s h
  | step o next ih =>
    obtain ⟨hFit, hValues, hNextOk, hNextError⟩ := h
    refine ⟨hFit, hValues, fun v => ?_, fun s => ?_⟩
    · have hMore : given ⊆ v :: given := subset_cons_self v given
      have hAll : ∀ {g : List Datum}, v :: given ⊆ g → given ⊆ g := fun hg _ ha => hg (hMore ha)
      exact ih (.ok v) (hNextOk v) fun g a hg => hOk g a (hAll hg)
    · exact fun hs => ih (.error s) (hNextError s hs) hOk

theorem bind {p : Plan α} {f : α → Plan β} (h : p.Fed T Q given)
    (hf : ∀ g a, given ⊆ g → Q g a → (f a).Fed T R g) : (p.bind f).Fed T R given :=
  h.observe hf fun _ _ hs => hs

theorem inside {p : Plan α} (h : ∀ g, p.Fed T Q g) (hQ : ∀ g v a, Q g a → Q (v :: g) a) :
    p.inside.Fed T Q given := by
  have hBody : ∀ g, (p.observe fun r => .step .leave fun _ => .done r).Fed T Q g := by
    intro g
    refine (h g).observe (fun g a _ hQa => ?_) fun g s hs => ?_
    · exact ⟨trivial, by simp [Op.values], fun v => hQ g v a hQa, fun _ _ => hQa⟩
    · exact ⟨trivial, by simp [Op.values], fun _ => hs, fun _ _ => hs⟩
  exact ⟨trivial, by simp [Op.values], fun v => hBody _, fun _ _ => hBody _⟩

/-- **Values come from operations.** An operation in the course of the plan is given values that were there at first
or that came out of an earlier operation. -/
theorem course [Size.Room] {p : Plan α} (h : p.Fed .any Q given) {m : Machine} {past rest : List Step} {s : Step}
    (hCourse : p.course m = past ++ s :: rest) :
    s.op.Fit True True ∧ ∀ v ∈ s.op.values, v ∈ given ∨ ∃ t ∈ past, t.outcome = .ok v := by
  induction p generalizing given m past with
  | done outcome => simp [course] at hCourse
  | step o next ih =>
    obtain ⟨hFit, hValues, hOk, hError⟩ := h
    cases past with
    | nil =>
      obtain ⟨rfl, -⟩ := List.cons.inj hCourse
      exact ⟨hFit, fun v hv => .inl (hValues v hv)⟩
    | cons t past =>
      obtain ⟨rfl, hRest⟩ := List.cons.inj hCourse
      -- what the first operation gives is there for the rest
      rcases hFirst : (o.run m).1 with signal | w
      · rw [hFirst] at hRest
        obtain ⟨hFitRest, hFrom⟩ := ih _ (hError signal trivial) hRest
        refine ⟨hFitRest, fun v hv => (hFrom v hv).imp id ?_⟩
        rintro ⟨t, ht, hOutcome⟩
        exact ⟨t, mem_cons_of_mem _ ht, hOutcome⟩
      · rw [hFirst] at hRest
        obtain ⟨hFitRest, hFrom⟩ := ih _ (hOk w) hRest
        refine ⟨hFitRest, fun v hv => ?_⟩
        rcases hFrom v hv with hGiven | ⟨t, ht, hOutcome⟩
        · rcases mem_cons.mp hGiven with rfl | hGiven
          · exact .inr ⟨_, mem_cons_self, hFirst⟩
          · exact .inl hGiven
        · exact .inr ⟨t, mem_cons_of_mem _ ht, hOutcome⟩

end Fed

end Plan

/-! ## Plans of fit scripts -/

/-- With this fuel, the plan of each fit part of a script is fed. -/
structure PlansFed (T : Terms) (n : Nat) : Prop where
  expr : ∀ {e : Expr}, e.Fit T.counting → ∀ given, (ofExpr n e).Fed T Plan.Given given
  arguments : ∀ {es : List Expr}, AllFit T.counting es → ∀ given,
    (ofArguments n es).Fed T (fun g vs => ∀ v ∈ vs, v ∈ g) given
  stmt : ∀ {s : Stmt}, s.Fit T.counting T.omitting → ∀ given, (ofStmt n s).Fed T (fun _ _ => True) given
  block : ∀ {ss : List Stmt}, AllStmtFit T.counting T.omitting ss → ∀ given,
    (ofBlock n ss).Fed T (fun _ _ => True) given
  stmts : ∀ {ss : List Stmt}, AllStmtFit T.counting T.omitting ss → ∀ last given,
    (ofStmts n ss last).Fed T (fun _ _ => True) given
  loop : ∀ {ss : List Stmt}, AllStmtFit T.counting T.omitting ss → ∀ given,
    (ofLoop n ss).Fed T (fun _ _ => True) given

/-- Nothing may stand in the place of a part where something may be left out. -/
theorem Plan.nothing_fed {α : Type} {T : Terms} (h : T.omitting) (n : Nat) {Q : List Datum → α → Prop}
    (given : List Datum) : (nothing n : Plan α).Fed T Q given := by
  refine .fail ?_
  split
  · exact .outOfFuel
  · exact .omitted h

namespace PlansFed

variable {T : Terms} {n : Nat} (h : PlansFed T n) {ss : List Stmt} (given : List Datum)

include h

theorem expr_succ {e : Expr} (he : e.Fit T.counting) : (ofExpr (n + 1) e).Fed T Plan.Given given := by
  match e, he with
  | .literal kind value, hLiteral => exact .op (o := .literal kind value) hLiteral (by simp [Op.values])
  | .variable name, hName => exact .op (o := .lookup name) hName (by simp [Op.values])
  | .assign name value, hValue =>
    refine (h.expr (e := value) hValue given).bind fun g v _ hv => ?_
    exact .op (o := .assign name v) trivial (forall_mem_singleton.mpr hv)
  | .binary l operator r, ⟨hl, hr⟩ =>
    refine (h.expr hl given).bind fun g left _ hLeft => (h.expr hr g).bind fun g' right hMore hRight => ?_
    split
    · refine .op (o := .sum left right) trivial ?_
      simpa [Op.values] using ⟨hMore hLeft, hRight⟩
    · exact .fail .trouble
  | .call callee arguments paren, ⟨hCallee, hArguments⟩ =>
    refine (h.expr hCallee given).bind fun g f _ hf => ?_
    refine (h.arguments hArguments g).bind fun g' args hMore hArgs => ?_
    unfold ofCall
    split
    · exact .fail .outOfFuel
    · exact .op (o := .call f args) trivial (forall_mem_cons.mpr ⟨hMore hf, hArgs⟩)
  | .logical .., _ | .unary .., _ | .grouping _, _ => exact .fail .trouble

theorem arguments_succ {es : List Expr} (hes : AllFit T.counting es) :
    (ofArguments (n + 1) es).Fed T (fun g vs => ∀ v ∈ vs, v ∈ g) given := by
  match es, hes with
  | [], _ => exact fun v hv => absurd hv not_mem_nil
  | e :: es, ⟨he, hes⟩ =>
    refine (h.expr he given).bind fun g v _ hv => (h.arguments hes g).bind fun g' vs hMore hvs => ?_
    exact forall_mem_cons.mpr ⟨hMore hv, hvs⟩

theorem branch {condition : Expr} (hCondition : condition.Fit T.counting) {yes other : Plan Datum}
    (hYes : ∀ g, yes.Fed T (fun _ _ => True) g) (hOther : ∀ g, other.Fed T (fun _ _ => True) g) :
    ((ofExpr n condition).bind fun c => (op (.truth c)).bind fun t =>
      if isTruthy t then yes else other).Fed T (fun _ _ => True) given := by
  refine (h.expr hCondition given).bind fun g c _ hc => ?_
  have hTruth : (op (.truth c)).Fed T Plan.Given g := .op trivial (forall_mem_singleton.mpr hc)
  refine hTruth.bind fun g' t _ _ => ?_
  split
  · exact hYes g'
  · exact hOther g'

theorem stmt_succ {s : Stmt} (hs : s.Fit T.counting T.omitting) :
    (ofStmt (n + 1) s).Fed T (fun _ _ => True) given := by
  have hDeclare : ∀ {initial : Plan Datum} (name : String) (isConst : Bool), initial.Fed T Plan.Given given →
      (initial.bind fun v => op (.declare name v isConst)).Fed T (fun _ _ => True) given := by
    intro initial name isConst hInitial
    refine hInitial.bind fun g v _ hv => Plan.Fed.weaken (P := Plan.Given) ?_ fun _ _ _ => trivial
    exact .op (o := .declare name v isConst) trivial (forall_mem_singleton.mpr hv)
  match s, hs with
  | .expression e, he => exact (h.expr (e := e) he given).weaken fun _ _ _ => trivial
  | .var name type (some initial) isConst, hInitial =>
    exact hDeclare name isConst (h.expr (e := initial) hInitial given)
  | .var name type none isConst, hOmitting => exact hDeclare name isConst (Plan.nothing_fed hOmitting n given)
  | .block body, hBody => exact h.block hBody given
  | .branch condition yes none, ⟨hCondition, hYes, hOmitting⟩ =>
    exact h.branch given hCondition (h.stmt hYes) (Plan.nothing_fed hOmitting n)
  | .branch condition yes (some no), ⟨hCondition, hYes, hNo⟩ =>
    exact h.branch given hCondition (h.stmt hYes) (h.stmt hNo)
  | .loop body, hBody => exact h.loop hBody given
  | .function name params result body, hBody =>
    refine Plan.Fed.weaken (P := Plan.Given) ?_ fun _ _ _ => trivial
    exact .op (o := .function name params result body) hBody (by simp [Op.values])
  | .ret keyword (some value), hValue => exact (h.expr (e := value) hValue given).bind fun _ _ _ _ => .fail .returned
  | .ret keyword none, hOmitting =>
    exact (Plan.nothing_fed (Q := Plan.Given) hOmitting n given).bind fun _ _ _ _ => .fail .returned
  | .struct name fields, _ => exact .fail .trouble

theorem stmts_succ (hss : AllStmtFit T.counting T.omitting ss) (last : Datum) :
    (ofStmts (n + 1) ss last).Fed T (fun _ _ => True) given := by
  match ss, hss with
  | [], _ => trivial
  | s :: ss, ⟨hs, hss⟩ => exact (h.stmt hs given).bind fun g v _ _ => h.stmts hss v g

theorem loop_succ (hss : AllStmtFit T.counting T.omitting ss) :
    (ofLoop (n + 1) ss).Fed T (fun _ _ => True) given := by
  refine (h.block hss given).observe (fun g _ _ _ => h.loop hss g) fun g s hs => ?_
  cases s with
  | broken => trivial
  | fault | trouble | returned | outOfFuel => exact hs

end PlansFed

theorem plans_fed (T : Terms) (n : Nat) : PlansFed T n := by
  induction n with
  | zero => constructor <;> intros <;> exact .fail .outOfFuel
  | succ n ih =>
    refine ⟨fun he given => ih.expr_succ given he, fun hes given => ih.arguments_succ given hes,
      fun hs given => ih.stmt_succ given hs, fun hss given => ?_, fun hss last given => ih.stmts_succ given hss last,
      fun hss given => ih.loop_succ given hss⟩
    exact .inside (fun g => ih.stmts hss .null g) fun _ _ _ _ => trivial

end Scriptling.Script
