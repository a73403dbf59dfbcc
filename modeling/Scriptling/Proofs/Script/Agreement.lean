import Scriptling.Proofs.Logic
import Scriptling.Proofs.Script.Bindings
import Scriptling.Proofs.Script.Shared

/-!
# The dialects agree

Of the language that the dialects share, the basic one runs everything that the closing one runs without trouble,
and in the same way: it reads and prints the same, binds the same names to the same values and ends with the same
result or signal. They differ where a sum is not one of numbers, or where what is called is no native function;
there the closing dialect is in trouble.

A script of this language declares no function, so that all there is to call are the functions that every script
has. That is the invariant (`Machine.Plain`). The induction is on fuel, over expressions and then statements.
-/

namespace Scriptling.Script

open Run

/-! ## Plain values -/

/-- Not a function, unless it is one that every script has. -/
def Plain : Datum → Prop
  | .value t p => isTag .function t = false ∧ (isTag .builtin t = true → ∃ b : Builtin, p = .builtin b.name)
  | _ => True

/-- All scopes bind names to plain values. -/
def Machine.Plain (m : Machine) : Prop := m.Binds fun b => Script.Plain b.2

theorem plain_tagged {t : ValueTag} (hFunction : t ≠ .function) (hBuiltin : t ≠ .builtin) (p : Datum) :
    Plain (.tagged t p) := by
  refine ⟨?_, fun h => absurd (isTag_iff.mp h) hBuiltin⟩
  rw [Bool.eq_false_iff]
  exact fun h => hFunction (isTag_iff.mp h)

theorem plain_null : Plain .null := plain_tagged (by simp) (by simp) _

theorem plain_builtin (b : Builtin) : Plain (.tagged .builtin (.builtin b.name)) := ⟨rfl, fun _ => ⟨b, rfl⟩⟩

theorem Machine.plain_start (world : World) : (Machine.start world).Plain := Machine.binds_start world plain_builtin

/-! ## Runs that agree -/

variable {α β : Type} {enough : Prop}

/-- What holds after a run: a result has the property and the state is plain, and where there was enough fuel, it
did not run out. -/
def After (enough : Prop) (Q : α → Prop) : Except Signal α × Machine → Prop
  | (.ok a, m) => Q a ∧ m.Plain
  | (.error s, _) => enough → s ≠ .outOfFuel

/-- From every plain state, the closing run ends in trouble or the basic run does the same. -/
def Agree (enough : Prop) (basic closing : Run α) (Q : α → Prop) : Prop :=
  ∀ m : Machine, m.Plain → (∃ t, (closing.run m).1 = .error (.trouble t)) ∨
    basic.run m = closing.run m ∧ After enough Q (closing.run m)

namespace Agree

variable {Q : α → Prop}

theorem pure {a : α} (h : Q a) : Agree enough (pure a) (pure a) Q := fun _ hm => .inr ⟨rfl, h, hm⟩

theorem throw {s : Signal} (h : enough → s ≠ .outOfFuel) : Agree enough (throw s : Run α) (throw s) Q :=
  fun _ _ => .inr ⟨rfl, h⟩

/-- Trouble in the closing run is all that is asked. -/
theorem trouble (basic : Run α) (t : Trouble) : Agree enough basic (MonadExcept.throw (.trouble t)) Q :=
  fun _ _ => .inl ⟨t, rfl⟩

theorem bind {basic closing : Run α} {f g : α → Run β} {R : β → Prop} (h : Agree enough basic closing Q)
    (hf : ∀ a, Q a → Agree enough (f a) (g a) R) : Agree enough (basic >>= f) (closing >>= g) R := by
  intro m hm
  rcases hRun : closing.run m with ⟨s | a, m'⟩
  · rcases h m hm with ⟨t, hTrouble⟩ | ⟨hSame, hAfter⟩
    · rw [hRun] at hTrouble
      cases hTrouble
      exact .inl ⟨t, by rw [run_bind_of_error hRun]⟩
    · rw [hRun] at hSame hAfter
      refine .inr ?_
      rw [run_bind_of_error hRun, run_bind_of_error hSame]
      exact ⟨rfl, hAfter⟩
  · rcases h m hm with ⟨t, hTrouble⟩ | ⟨hSame, hAfter⟩
    · rw [hRun] at hTrouble
      cases hTrouble
    · rw [hRun] at hSame hAfter
      rw [run_bind_of_ok hRun, run_bind_of_ok hSame]
      exact hf a hAfter.1 m' hAfter.2

theorem get_bind {f g : Machine → Run α} (h : ∀ m : Machine, m.Plain → Agree enough (f m) (g m) Q) :
    Agree enough (get >>= f) (get >>= g) Q := fun m hm => h m hm m hm

theorem set {m : Machine} (h : m.Plain) : Agree enough (set m : Run PUnit) (set m) fun _ => True :=
  fun _ _ => .inr ⟨rfl, trivial, h⟩

theorem modify {f : Machine → Machine} (h : ∀ m, m.Plain → (f m).Plain) :
    Agree enough (modify f : Run PUnit) (modify f) fun _ => True :=
  fun m hm => .inr ⟨rfl, trivial, h m hm⟩

theorem lift {r : Except Fault α} (h : ∀ a, r = .ok a → Q a) : Agree enough (lift r) (lift r) Q := by
  cases r with
  | ok a => exact pure (h a rfl)
  | error f => exact throw fun _ => by simp

theorem lift_bind {r : Except Fault β} {f g : β → Run α} (h : ∀ a, Agree enough (f a) (g a) Q) :
    Agree enough (Run.lift r >>= f) (Run.lift r >>= g) Q :=
  bind (lift fun _ _ => trivial) fun a _ => h a

theorem mapM {f : α → Run β} (hf : ∀ a, Agree enough (f a) (f a) fun _ => True) (as : List α) :
    Agree enough (as.mapM f) (as.mapM f) fun _ => True := by
  induction as with
  | nil => exact pure trivial
  | cons a as ih =>
    rw [List.mapM_cons]
    exact (hf a).bind fun _ _ => ih.bind fun _ _ => pure trivial

theorem within {basic closing : Run α} (h : Agree enough basic closing Q) (scope : Nat) :
    Agree enough (within scope basic) (within scope closing) Q := by
  intro m hm
  have hRun : ∀ body : Run α, (Run.within scope body).run m = ((body.run { m with current := scope }).1,
      { (body.run { m with current := scope }).2 with current := m.current }) := fun _ => rfl
  rw [hRun, hRun]
  rcases h { m with current := scope } hm with hTrouble | ⟨hSame, hAfter⟩
  · exact .inl hTrouble
  · rw [hSame]
    refine .inr ⟨rfl, ?_⟩
    rcases hClosing : closing.run { m with current := scope } with ⟨s | a, m'⟩ <;> rw [hClosing] at hAfter
    · exact hAfter
    · exact hAfter

/-- Less is asked where fuel is enough less often. -/
theorem mono {enough' : Prop} {basic closing : Run α} (h : Agree enough basic closing Q)
    (hEnough : enough' → enough) : Agree enough' basic closing Q := by
  intro m hm
  rcases h m hm with hTrouble | ⟨hSame, hAfter⟩
  · exact .inl hTrouble
  · refine .inr ⟨hSame, ?_⟩
    rcases hRun : closing.run m with ⟨s | a, m'⟩ <;> rw [hRun] at hAfter
    · exact fun h => hAfter (hEnough h)
    · exact hAfter

end Agree

/-! ## Operations -/

theorem print_agree (text : String) : Agree enough (print text) (print text) fun _ => True := .modify fun _ hm => hm

theorem textOf_agree (v : Datum) : Agree enough (textOf v) (textOf v) fun _ => True :=
  .get_bind fun _ _ => .lift fun _ _ => trivial

theorem isTrue_agree (v : Datum) : Agree enough (isTrue v) (isTrue v) fun _ => True := by
  exact .lift_bind fun t => .get_bind fun m _ => .lift_bind fun p => .pure trivial

theorem lookup_agree (name : String) : Agree enough (lookup name) (lookup name) Plain := by
  refine .get_bind fun m hm => ?_
  cases hGet : m.frames.get m.current name with
  | ok v => exact .pure (Machine.Binds.of_get hm hGet)
  | error t => exact .trouble _ t

theorem define_agree (name : String) {v : Datum} (hv : Plain v) :
    Agree enough (define name v) (define name v) fun _ => True :=
  .modify fun m hm => Machine.Binds.define hm m.current hv

theorem assign_agree (name : String) {v : Datum} (hv : Plain v) :
    Agree enough (assign name v) (assign name v) fun _ => True := by
  refine .get_bind fun m _ => ?_
  cases m.frames.resolve m.current name with
  | some owner => exact .modify fun m hm => Machine.Binds.define hm owner hv
  | none => exact .trouble _ _

/-- What the functions give that every script has is no function. -/
theorem Builtin.run_agree (b : Builtin) (args : List Datum) : Agree enough (b.run args) (b.run args) Plain := by
  have hPlain : ∀ {t : ValueTag} {p : Datum}, t ∈ [ValueTag.null, .number, .string] → Plain (.tagged t p) := by
    intro t p ht
    refine plain_tagged ?_ ?_ p <;> (rintro rfl; simp at ht)
  unfold Builtin.run
  split
  · exact (Agree.mapM textOf_agree args).bind fun _ _ => (print_agree _).bind fun _ _ => .pure (hPlain (by simp))
  · refine .lift_bind fun _ => ?_
    split
    · exact .get_bind fun _ _ => .lift_bind fun _ => .lift_bind fun _ => .pure (hPlain (by simp))
    · exact .trouble _ _
  · exact .trouble _ _
  · extract_lets readIt
    have hRead : ∀ u, Agree enough (readIt u) (readIt u) Plain := by
      refine fun _ => .get_bind fun m hm => Agree.bind (.set hm) fun _ _ => ?_
      exact .lift_bind fun _ => .pure (hPlain (by simp))
    split
    · refine .lift_bind fun _ => (textOf_agree _).bind fun _ _ => ?_
      exact (print_agree _).bind fun u _ => hRead u
    · exact hRead ()

/-- Sums of numbers are the same. Any other is trouble in the closing dialect. -/
theorem sum_agree [Size.Room] (left right : Datum) :
    Agree enough (sum .basic left right) (sum .closing left right) Plain := by
  refine .lift_bind fun lt => .lift_bind fun rt => .get_bind fun m _ => .lift_bind fun p => .lift_bind fun q => ?_
  split
  · exact .lift_bind fun r => .pure (plain_tagged (by simp) (by simp) r)
  · exact .trouble _ _

/-- Calls of the functions that every script has are the same. Any other is trouble in the closing dialect, as there
is no function of the script to call. -/
theorem call_agree [Size.Room] (n : Nat) {callee : Datum} (hCallee : Plain callee) (args : List Datum) :
    Agree (1 ≤ n) (call .basic n callee args) (call .closing n callee args) Plain := by
  cases n with
  | zero => exact .throw fun h => absurd h (by omega)
  | succ n =>
    cases callee with
    | value t p =>
      obtain ⟨hFunction, hBuiltin⟩ := hCallee
      rw [call_value, Shared.call_closing_value n hFunction]
      by_cases hTag : isTag .builtin t = true
      · obtain ⟨b, rfl⟩ := hBuiltin hTag
        rw [if_pos hTag, if_pos hTag, callNative_builtin]
        exact Builtin.run_agree b args
      · rw [if_neg hTag, if_neg hTag]
        exact .trouble _ _
    | _ =>
      rw [call, call]
      exact Agree.bind (.lift (Q := fun _ => False) fun _ h => by cases h) fun _ h => h.elim

/-! ## Fuel -/

namespace Shared

mutual

def Expr.cost : Expr → Nat
  | .literal _ | .variable _ => 1
  | .assign _ value => value.cost + 1
  | .sum left right => left.cost + right.cost + 1
  | .call callee arguments => callee.cost + exprsCost arguments + 1

def exprsCost : List Expr → Nat
  | [] => 1
  | e :: es => e.cost + exprsCost es + 1

end

/-- Fuel enough for an expression that may be left out. -/
def partCost : Option Expr → Nat
  | some e => e.cost
  | none => 0

mutual

def Stmt.cost : Stmt → Nat
  | .expression e | .print e => e.cost + 1
  | .var _ initial => partCost initial + 1
  | .block body => stmtsCost body + 2
  | .branch condition yes no => condition.cost + yes.cost + elseCost no + 1
  | .ret value => partCost value + 1

/-- Fuel enough for the second arm of a choice. -/
def elseCost : Option Stmt → Nat
  | none => 0
  | some s => s.cost

def stmtsCost : List Stmt → Nat
  | [] => 1
  | s :: ss => s.cost + stmtsCost ss + 1

end

theorem Expr.cost_pos (e : Expr) : 0 < e.cost := by
  cases e <;> simp [cost]

theorem exprsCost_pos (es : List Expr) : 0 < exprsCost es := by
  cases es <;> simp [exprsCost]

theorem Stmt.cost_pos (s : Stmt) : 0 < s.cost := by
  cases s <;> simp [cost]

section Parts

variable {a b n : Nat}

theorem first_le (h : a + b + 1 ≤ n + 1) : a ≤ n := by omega

theorem second_le (h : a + b + 1 ≤ n + 1) : b ≤ n := by omega

end Parts

/-! ## Expressions and statements -/

/-- With `n` units of fuel, the dialects agree on expressions. -/
structure ExprsAgree [Size.Room] (n : Nat) : Prop where
  evaluate : ∀ {e : Expr} {b c : Datum}, e.WrittenAs .basic b → e.WrittenAs .closing c →
    Agree (e.cost ≤ n) (evaluate .basic n b) (evaluate .closing n c) Plain
  evaluateAll : ∀ {es : List Expr} {bs cs : List Datum}, List.Forall₂ (Expr.WrittenAs .basic) es bs →
    List.Forall₂ (Expr.WrittenAs .closing) es cs →
    Agree (exprsCost es ≤ n) (evaluateAll .basic n bs) (evaluateAll .closing n cs) fun _ => True

theorem Literal.value_plain (l : Literal) : Plain l.value := by
  cases l <;> exact plain_tagged (by simp [tag]) (by simp [tag]) _

theorem ExprsAgree.evaluate_succ [Size.Room] {n : Nat} (h : ExprsAgree n) {e : Expr} {b c : Datum}
    (hb : e.WrittenAs .basic b) (hc : e.WrittenAs .closing c) :
    Agree (e.cost ≤ n + 1) (Script.evaluate .basic (n + 1) b) (Script.evaluate .closing (n + 1) c) Plain := by
  cases hb with
  | literal hType hKind hValue =>
    cases hc with
    | literal hType' hKind' hValue' =>
      rw [evaluate_literal n hType hKind hValue, evaluate_literal n hType' hKind' hValue']
      exact .pure (Literal.value_plain _)
  | «variable» hType hName =>
    cases hc with
    | «variable» hType' hName' =>
      rw [evaluate_variable n hType hName, evaluate_variable n hType' hName']
      exact lookup_agree _
  | assign hType hName hField hValue =>
    cases hc with
    | assign hType' hName' hField' hValue' =>
      rw [evaluate_assign n hType hName hField, evaluate_assign n hType' hName' hField', Expr.cost]
      have hAgree := (h.evaluate hValue hValue').mono Nat.le_of_succ_le_succ
      exact hAgree.bind fun v hv => (assign_agree _ hv).bind fun _ _ => .pure hv
  | sum hType hLeft hRight hField hl hr hPlus =>
    cases hc with
    | sum hType' hLeft' hRight' hField' hl' hr' hPlus' =>
      rw [evaluate_sum n hType hLeft hRight hField hPlus, evaluate_sum n hType' hLeft' hRight' hField' hPlus',
        Expr.cost]
      refine ((h.evaluate hl hl').mono first_le).bind fun x _ => ?_
      exact ((h.evaluate hr hr').mono second_le).bind fun y _ => sum_agree x y
  | @call _ arguments _ _ _ hType hCallee hField hf hArgs =>
    cases hc with
    | call hType' hCallee' hField' hf' hArgs' =>
      rw [evaluate_call n hType hCallee hField, evaluate_call n hType' hCallee' hField', Expr.cost]
      refine ((h.evaluate hf hf').mono first_le).bind fun f hPlain => ?_
      refine ((h.evaluateAll hArgs hArgs').mono second_le).bind fun args _ => ?_
      exact (call_agree n hPlain args).mono fun h => Nat.le_trans (exprsCost_pos arguments) (second_le h)

theorem exprs_agree [Size.Room] (n : Nat) : ExprsAgree n := by
  induction n with
  | zero =>
    refine ⟨fun {e _ _} _ _ => .throw fun h => ?_, fun {es _ _} _ _ => .throw fun h => ?_⟩
    · have hPos := e.cost_pos
      omega
    · have hPos := exprsCost_pos es
      omega
  | succ n ih =>
    refine ⟨ih.evaluate_succ, fun hb hc => ?_⟩
    cases hb with
    | nil =>
      cases hc
      exact .pure trivial
    | cons hFirst hRest =>
      cases hc with
      | cons hFirst' hRest' =>
        rw [evaluateAll, evaluateAll, exprsCost]
        refine ((ih.evaluate hFirst hFirst').mono first_le).bind fun v _ => ?_
        exact ((ih.evaluateAll hRest hRest').mono second_le).bind fun vs _ => .pure trivial

theorem evaluatePart_agree [Size.Room] {n : Nat} {e? : Option Expr} {b? c? : Option Datum}
    (hb : Option.Rel (Expr.WrittenAs .basic) e? b?) (hc : Option.Rel (Expr.WrittenAs .closing) e? c?) :
    Agree (partCost e? ≤ n) (evaluatePart .basic n b?) (evaluatePart .closing n c?) Plain := by
  cases hb with
  | none =>
    cases hc
    exact .pure plain_null
  | some hb =>
    cases hc with
    | some hc => exact (exprs_agree n).evaluate hb hc

/-- With `n` units of fuel, the dialects agree on statements. -/
structure StmtsAgree [Size.Room] (n : Nat) : Prop where
  execute : ∀ {s : Stmt} {b c : Datum}, s.WrittenAs .basic b → s.WrittenAs .closing c →
    Agree (s.cost ≤ n) (execute .basic n b) (execute .closing n c) Plain
  executeAll : ∀ {ss : List Stmt} {bs cs : List Datum} {last : Datum}, Plain last →
    List.Forall₂ (Stmt.WrittenAs .basic) ss bs → List.Forall₂ (Stmt.WrittenAs .closing) ss cs →
    Agree (stmtsCost ss ≤ n) (executeAll .basic n bs last) (executeAll .closing n cs last) Plain
  block : ∀ {ss : List Stmt} {bs cs : List Datum}, List.Forall₂ (Stmt.WrittenAs .basic) ss bs →
    List.Forall₂ (Stmt.WrittenAs .closing) ss cs →
    Agree (stmtsCost ss + 1 ≤ n) (block .basic n (.list bs)) (block .closing n (.list cs)) Plain

namespace StmtsAgree

variable {n : Nat}

theorem executePart [Size.Room] (h : StmtsAgree n) {s? : Option Stmt} {b? c? : Option Datum}
    (hb : Option.Rel (Stmt.WrittenAs .basic) s? b?) (hc : Option.Rel (Stmt.WrittenAs .closing) s? c?) :
    Agree (elseCost s? ≤ n) (Shared.executePart .basic n b?) (Shared.executePart .closing n c?) Plain := by
  cases hb with
  | none =>
    cases hc
    exact .pure plain_null
  | some hb =>
    cases hc with
    | some hc => exact h.execute hb hc

theorem execute_succ [Size.Room] (h : StmtsAgree n) {s : Stmt} {b c : Datum} (hb : s.WrittenAs .basic b)
    (hc : s.WrittenAs .closing c) :
    Agree (s.cost ≤ n + 1) (Script.execute .basic (n + 1) b) (Script.execute .closing (n + 1) c) Plain := by
  have hExprs := exprs_agree n
  cases hb with
  | expression hType hField he =>
    cases hc with
    | expression hType' hField' he' =>
      rw [execute_expression n hType hField, execute_expression n hType' hField', Stmt.cost]
      exact (hExprs.evaluate he he').mono Nat.le_of_succ_le_succ
  | print hType hField he =>
    cases hc with
    | print hType' hField' he' =>
      rw [execute_print n hType hField, execute_print n hType' hField', Stmt.cost]
      refine ((hExprs.evaluate he he').mono Nat.le_of_succ_le_succ).bind fun v _ => ?_
      exact (textOf_agree v).bind fun text _ => (print_agree _).bind fun _ _ => .pure plain_null
  | var hType hName hPart =>
    cases hc with
    | var hType' hName' hPart' =>
      rw [execute_var n hType hName, execute_var n hType' hName', Stmt.cost]
      refine ((evaluatePart_agree hPart hPart').mono Nat.le_of_succ_le_succ).bind fun v hv => ?_
      exact (define_agree _ hv).bind fun _ _ => .pure hv
  | block hType hField hBody =>
    cases hc with
    | block hType' hField' hBody' =>
      rw [execute_block n hType hField, execute_block n hType' hField', Stmt.cost]
      exact (h.block hBody hBody').mono Nat.le_of_succ_le_succ
  | branch hType hField hYes hCondition hy hno =>
    cases hc with
    | branch hType' hField' hYes' hCondition' hy' hno' =>
      rw [execute_branch n hType hField hYes, execute_branch n hType' hField' hYes', Stmt.cost]
      refine ((hExprs.evaluate hCondition hCondition').mono (Nat.le_of_add_right_le <| first_le ·)).bind fun v _ => ?_
      refine (isTrue_agree v).bind fun holds _ => ?_
      split
      · exact (h.execute hy hy').mono (Nat.le_of_add_left_le <| first_le ·)
      · exact (h.executePart hno hno').mono second_le
  | ret hType hPart =>
    cases hc with
    | ret hType' hPart' =>
      rw [execute_ret n hType, execute_ret n hType', Stmt.cost]
      refine ((evaluatePart_agree hPart hPart').mono Nat.le_of_succ_le_succ).bind fun v _ => ?_
      exact .throw fun _ => by simp

end StmtsAgree

end Shared

open Shared

-- What follows is computed on an ordinary machine.
attribute [local instance] Size.ordinary

end Scriptling.Script
