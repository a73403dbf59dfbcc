import Scriptling.Proofs.Logic
import Scriptling.Proofs.Scope.Forest
import Scriptling.Scope.Request

/-!
# Operations on scopes, one at a time

Everything that can be done with environments is an `Operation`. `Step` lists what each of them does to a forest, and
`Refused` the reasons for which one fails; `step` says that the lists are complete. A failed operation is one step
that leaves the forest alone, so nothing has to be said about what it had done before it failed: every check comes
before the first change.

## Main results

* `step`: each operation takes one of the steps.
* `Forest.Sound.after`: in every forest that operations lead to, bound names have variables.
* `refusals_change_nothing`: an operation fails exactly for one of the listed reasons, and changes nothing then.
-/

namespace Scriptling.Scope

open Forest

variable {answer : Except ScopeError Datum}

/-- What can be done with environments, which are given by their numbers. -/
inductive Operation where
  /-- A new environment, around which another one may be. -/
  | create (enclosing : Option Nat) (label : Option String)
  | child (id : Nat) (label : Option String)
  | fork (id : Nat)
  | define (id : Nat) (name : String) (value : Datum) (kind : ScopeKind) (isConstant : Bool)
  | assign (id : Nat) (name : String) (value : Datum) (isNonlocal : Bool)
  | get (id : Nat) (name : String)
  | getAt (id : Nat) (distance : Int) (name : String)
  | assignAt (id : Nat) (distance : Int) (name : String) (value : Datum)
  | getItem (id : Nat) (name : String)
  | setItem (id : Nat) (name : String) (value : Datum)
  | deleteItem (id : Nat) (name : String)

namespace Operation

/-- Adds an environment and answers nothing. -/
def adding (make : Forest → Nat × Forest) : Action Datum := do
  modify fun f => (make f).2
  return .none

def act : Operation → Action Datum
  | create enclosing label => adding fun f => f.add enclosing label
  | child id label => adding fun f => f.add (some id) label
  | fork id => adding fun f => f.fork id
  | define id name value kind isConstant => .silently (.define id name value (.kind kind) isConstant)
  | assign id name value isNonlocal => .silently (.assign id name value isNonlocal)
  | get id name => .lookup id name
  | getAt id distance name => .lookupAt id distance name
  | assignAt id distance name value => .silently (.assignAt id distance name value)
  | getItem id name => .lookup id name
  | setItem id name value => .silently (.assign id name value false)
  | deleteItem id name => .silently (.delete id name)

/-- The answer to an operation, and the forest after it. -/
def run (op : Operation) (f : Forest) : Except ScopeError Datum × Forest := op.act.run f

end Operation

namespace Forest

/-- The environment has the name already, with this kind of scope, and no closure has captured it. -/
def Taken (f : Forest) (id : Nat) (name : String) (kind : ScopeKind) : Prop :=
  ∃ v x, f.bound? id name = some v ∧ f.stored? v = some x ∧ x.scope = .kind kind ∧ x.isCaptured = false

end Forest

namespace Operation

/-- The operation is refused, and why. -/
inductive Refused (f : Forest) : Operation → ScopeError → Prop
  | duplicate {id name value kind isConstant} (h : f.Taken id name kind) :
      Refused f (define id name value kind isConstant) (.duplicate name kind)
  | globalConstant {id name value} (h : ¬ f.Taken id name .global) :
      Refused f (define id name value .global true) .globalConstant
  | constant {id e v name value isNonlocal x} (hFind : f.find? id name = some (e, v)) (hStored : f.stored? v = some x)
      (hConstant : x.isConstant = true) : Refused f (assign id name value isNonlocal) (.constant name)
  | noNonlocal {id name value} (hFind : f.find? id name = none) :
      Refused f (assign id name value true) (.noNonlocal name)
  | undefined {id name} (hFind : f.find? id name = none) : Refused f (get id name) (.undefined name)
  | getBeyond {id distance name} (h : f.ancestor? id distance.toNat = none) :
      Refused f (getAt id distance name) .badDistance
  | getMissing {id e distance name} (h : f.ancestor? id distance.toNat = some e) (hBound : f.bound? e name = none) :
      Refused f (getAt id distance name) (.missing name)
  | assignBeyond {id distance name value} (h : f.ancestor? id distance.toNat = none) :
      Refused f (assignAt id distance name value) .badDistance
  | assignMissing {id e distance name value} (h : f.ancestor? id distance.toNat = some e)
      (hBound : f.bound? e name = none) : Refused f (assignAt id distance name value) (.missing name)
  | getItem {id name error} (h : Refused f (get id name) error) : Refused f (getItem id name) error
  | setItem {id name value error} (h : Refused f (assign id name value false) error) :
      Refused f (setItem id name value) error
  | notHere {id name} (hBound : f.bound? id name = none) : Refused f (deleteItem id name) (.notHere name)

/-- What an operation answers, and what becomes of the forest. -/
inductive Step (f : Forest) : Operation → Except ScopeError Datum → Forest → Prop
  | refused {op error} (h : Refused f op error) : Step f op (.error error) f
  | create {enclosing label} : Step f (create enclosing label) (.ok .none) (f.add enclosing label).2
  | child {id label} : Step f (child id label) (.ok .none) (f.add (some id) label).2
  | fork {id} : Step f (fork id) (.ok .none) (f.fork id).2
  | define {id name value kind isConstant} (hNew : ¬ f.Taken id name kind)
      (hKind : ¬ (kind = .global ∧ isConstant = true)) :
      Step f (define id name value kind isConstant) (.ok .none)
        (f.bindNew id name ⟨value, .kind kind, isConstant, false, false⟩)
  /-- A name that is bound nowhere becomes a global one, here. -/
  | assignNew {id name value} (hFind : f.find? id name = none) :
      Step f (assign id name value false) (.ok .none) (f.bindNew id name ⟨value, .kind .global, false, false, false⟩)
  | assign {id e v name value isNonlocal x} (hFind : f.find? id name = some (e, v)) (hStored : f.stored? v = some x)
      (hConstant : x.isConstant = false) :
      Step f (assign id name value isNonlocal) (.ok .none)
        (f.updateVariable v fun x => { x with value := value, isUsed := true })
  | get {id e v name x} (hFind : f.find? id name = some (e, v)) (hStored : f.stored? v = some x) :
      Step f (get id name) (.ok x.value) (f.updateVariable v fun x => { x with isUsed := true })
  | getAt {id e v distance name x} (h : f.ancestor? id distance.toNat = some e) (hBound : f.bound? e name = some v)
      (hStored : f.stored? v = some x) : Step f (getAt id distance name) (.ok x.value) f
  /-- Constant or not, a variable at a distance is overwritten. -/
  | assignAt {id e v distance name value} (h : f.ancestor? id distance.toNat = some e)
      (hBound : f.bound? e name = some v) :
      Step f (assignAt id distance name value) (.ok .none) (f.updateVariable v fun x => { x with value := value })
  | getItem {id name answer f'} (h : Step f (get id name) answer f') : Step f (getItem id name) answer f'
  | setItem {id name value answer f'} (h : Step f (assign id name value false) answer f') :
      Step f (setItem id name value) answer f'
  | deleteItem {id v name} (hBound : f.bound? id name = some v) :
      Step f (deleteItem id name) (.ok .none) (f.unbind id name)

/-! ## Each operation takes one of the steps -/

variable {f f' : Forest} {id e v : Nat} {name : String} {value : Datum} {kind : ScopeKind}
    {isConstant isNonlocal : Bool} {distance : Int} {op : Operation} {error : ScopeError}

theorem run_silently_ok {a : Action Unit} (h : a.run f = (.ok (), f')) :
    (Action.silently a).run f = (.ok .none, f') := run_bind_of_ok h

theorem run_silently_error {a : Action Unit} {e : ScopeError} (h : a.run f = (.error e, f')) :
    (Action.silently a).run f = (.error e, f') := run_bind_of_error h

theorem checkNew_of_taken (h : f.Taken id name kind) :
    Action.checkNew f id name (.kind kind) = .error (.duplicate name kind) := by
  obtain ⟨v, x, hBound, hStored, hScope, hCaptured⟩ := h
  simp [Action.checkNew, hBound, hStored, hScope, hCaptured]

theorem checkNew_of_not_taken (h : ¬ f.Taken id name kind) : Action.checkNew f id name (.kind kind) = .ok () := by
  unfold Action.checkNew
  cases hBound : f.bound? id name with
  | none => rfl
  | some v =>
    cases hStored : f.stored? v with
    | none => simp [hStored]
    | some x =>
      have hFree : x.scope = .kind kind → x.isCaptured = true := by
        intro hScope
        by_cases hCaptured : x.isCaptured = true
        · exact hCaptured
        · exact absurd ⟨v, x, hBound, hStored, hScope, by simpa using hCaptured⟩ h
      simpa [hStored] using hFree

theorem run_define_of_taken (h : f.Taken id name kind) :
    (Action.define id name value (.kind kind) isConstant).run f = (.error (.duplicate name kind), f) := by
  unfold Action.define
  rw [run_get_bind]
  refine run_bind_of_error ?_
  rw [checkNew_of_taken h]
  rfl

/-- A name that is not taken is defined, unless as a global constant. -/
theorem run_define_of_not_taken (h : ¬ f.Taken id name kind) :
    (Action.define id name value (.kind kind) isConstant).run f =
      if kind = .global ∧ isConstant = true then (.error .globalConstant, f)
      else (.ok (), f.bindNew id name ⟨value, .kind kind, isConstant, false, false⟩) := by
  have hCheck : (Action.define.liftExcept (Action.checkNew f id name (.kind kind))).run f = (.ok (), f) := by
    rw [checkNew_of_not_taken h]
    rfl
  unfold Action.define
  rw [run_get_bind, run_bind_of_ok hCheck]
  by_cases hKind : kind = .global ∧ isConstant = true
  · rw [if_pos hKind, if_pos (by simpa using hKind)]
    rfl
  · rw [if_neg hKind, if_neg (by simpa using hKind)]
    rfl

/-- A name that is bound nowhere is not taken in the environment itself. -/
theorem not_taken_of_find?_none (h : f.find? id name = none) : ¬ f.Taken id name kind := by
  rintro ⟨v, x, hBound, -⟩
  rw [bound?_of_find?_none h] at hBound
  cases hBound

theorem run_assign_of_none (h : f.find? id name = none) : (Action.assign id name value isNonlocal).run f =
      if isNonlocal then (.error (.noNonlocal name), f)
      else (.ok (), f.bindNew id name ⟨value, .kind .global, false, false, false⟩) := by
  unfold Action.assign
  rw [run_get_bind]
  simp only [h]
  cases isNonlocal with
  | true => rfl
  | false =>
    have hDefine : (Action.define id name value (.kind .global) false).run f = _ :=
      run_define_of_not_taken (not_taken_of_find?_none h)
    rw [if_neg (by simp)] at hDefine
    simpa using hDefine

theorem run_lookup_of_none (h : f.find? id name = none) :
    (Action.lookup id name).run f = (.error (.undefined name), f) := by
  unfold Action.lookup
  rw [run_get_bind]
  simp only [h, Option.bind_none]
  rfl

section Found

variable {x : Variable} (h : f.find? id name = some (e, v)) (hStored : f.stored? v = some x)

include h hStored

theorem run_assign_of_some : (Action.assign id name value isNonlocal).run f =
      if x.isConstant then (.error (.constant name), f)
      else (.ok (), f.updateVariable v fun x => { x with value := value, isUsed := true }) := by
  unfold Action.assign
  rw [run_get_bind]
  simp only [h, hStored, Option.any_some]
  cases x.isConstant <;> rfl

theorem run_assign_of_variable (hConstant : x.isConstant = false) : (assign id name value isNonlocal).run f =
      (.ok .none, f.updateVariable v fun x => { x with value := value, isUsed := true }) :=
  run_silently_ok ((run_assign_of_some h hStored).trans (if_neg (by simp [hConstant])))

theorem run_lookup_of_some :
    (Action.lookup id name).run f = (.ok x.value, f.updateVariable v fun x => { x with isUsed := true }) := by
  unfold Action.lookup
  rw [run_get_bind]
  simp only [h, hStored, Option.bind_some, Option.map_some]
  rfl

end Found

theorem run_variableAt_of_beyond (h : f.ancestor? id distance.toNat = none) :
    (Action.variableAt id distance name).run f = (.error .badDistance, f) := by
  unfold Action.variableAt
  rw [run_get_bind]
  simp only [h]
  rfl

section Reached

variable (h : f.ancestor? id distance.toNat = some e)

include h

theorem run_variableAt_of_missing (hBound : f.bound? e name = none) :
    (Action.variableAt id distance name).run f = (.error (.missing name), f) := by
  unfold Action.variableAt
  rw [run_get_bind]
  simp only [h, hBound]
  rfl

theorem run_variableAt_of_bound (hBound : f.bound? e name = some v) :
    (Action.variableAt id distance name).run f = (.ok v, f) := by
  unfold Action.variableAt
  rw [run_get_bind]
  simp only [h, hBound]
  rfl

theorem run_getAt_of_bound {x : Variable} (hBound : f.bound? e name = some v) (hStored : f.stored? v = some x) :
    (getAt id distance name).run f = (.ok x.value, f) := by
  refine (run_bind_of_ok (run_variableAt_of_bound h hBound)).trans ?_
  rw [run_get_bind, hStored]
  rfl

end Reached

theorem run_delete_of_none (h : f.bound? id name = none) :
    (Action.delete id name).run f = (.error (.notHere name), f) := by
  unfold Action.delete
  rw [run_get_bind]
  simp only [h]
  rfl

theorem run_delete_of_some (h : f.bound? id name = some v) :
    (Action.delete id name).run f = (.ok (), f.unbind id name) := by
  unfold Action.delete
  rw [run_get_bind]
  simp only [h]
  rfl

/-- An operation that is refused says why, and leaves the forest alone. -/
theorem Refused.run_eq (h : Refused f op error) : op.run f = (.error error, f) := by
  induction h with
  | duplicate h => exact run_silently_error (run_define_of_taken h)
  | globalConstant h =>
    refine run_silently_error ?_
    rw [run_define_of_not_taken h, if_pos ⟨rfl, rfl⟩]
  | constant hFind hStored hConstant =>
    refine run_silently_error ?_
    rw [run_assign_of_some hFind hStored, if_pos hConstant]
  | noNonlocal hFind =>
    refine run_silently_error ?_
    rw [run_assign_of_none hFind, if_pos rfl]
  | undefined hFind => exact run_lookup_of_none hFind
  | getBeyond h => exact run_bind_of_error (run_variableAt_of_beyond h)
  | getMissing h hBound => exact run_bind_of_error (run_variableAt_of_missing h hBound)
  | assignBeyond h => exact run_silently_error (run_bind_of_error (run_variableAt_of_beyond h))
  | assignMissing h hBound => exact run_silently_error (run_bind_of_error (run_variableAt_of_missing h hBound))
  | getItem _ ih | setItem _ ih => exact ih
  | notHere hBound => exact run_silently_error (run_delete_of_none hBound)

theorem Step.of_run (hRun : op.run f = (answer, f')) (h : Step f op answer f') :
    Step f op (op.run f).1 (op.run f).2 := by
  rw [hRun]
  exact h

theorem Refused.step (h : Refused f op error) : Step f op (op.run f).1 (op.run f).2 := .of_run h.run_eq (.refused h)

theorem step_define : Step f (.define id name value kind isConstant) ((define id name value kind isConstant).run f).1
      ((define id name value kind isConstant).run f).2 := by
  by_cases hTaken : f.Taken id name kind
  · exact (Refused.duplicate hTaken).step
  by_cases hKind : kind = .global ∧ isConstant = true
  · obtain ⟨rfl, rfl⟩ := hKind
    exact (Refused.globalConstant hTaken).step
  exact .of_run (run_silently_ok ((run_define_of_not_taken hTaken).trans (if_neg hKind))) (.define hTaken hKind)

theorem step_assign (hf : f.Sound) :
    Step f (.assign id name value isNonlocal) ((assign id name value isNonlocal).run f).1
      ((assign id name value isNonlocal).run f).2 := by
  cases hFind : f.find? id name with
  | none =>
    cases isNonlocal with
    | true => exact (Refused.noNonlocal hFind).step
    | false => exact .of_run (run_silently_ok (run_assign_of_none hFind)) (.assignNew hFind)
  | some found =>
    obtain ⟨e, v⟩ := found
    obtain ⟨x, hStored⟩ := hf.exists_stored (bound?_of_find? hFind)
    cases hConstant : x.isConstant with
    | true => exact (Refused.constant hFind hStored hConstant).step
    | false => exact .of_run (run_assign_of_variable hFind hStored hConstant) (.assign hFind hStored hConstant)

theorem step_get (hf : f.Sound) : Step f (.get id name) ((get id name).run f).1 ((get id name).run f).2 := by
  cases hFind : f.find? id name with
  | none => exact (Refused.undefined hFind).step
  | some found =>
    obtain ⟨e, v⟩ := found
    obtain ⟨x, hStored⟩ := hf.exists_stored (bound?_of_find? hFind)
    exact .of_run (run_lookup_of_some hFind hStored) (.get hFind hStored)

/-- An operation takes one of the steps, in a forest whose bound names have variables. -/
theorem step (hf : f.Sound) (op : Operation) : Step f op (op.run f).1 (op.run f).2 := by
  cases op with
  | create enclosing label => exact .create
  | child id label => exact .child
  | fork id => exact .fork
  | define id name value kind isConstant => exact step_define
  | assign id name value isNonlocal => exact step_assign hf
  | get id name => exact step_get hf
  | getItem id name => exact .getItem (step_get hf)
  | setItem id name value => exact .setItem (step_assign hf)
  | getAt id distance name =>
    cases hAncestor : f.ancestor? id distance.toNat with
    | none => exact (Refused.getBeyond hAncestor).step
    | some e =>
      cases hBound : f.bound? e name with
      | none => exact (Refused.getMissing hAncestor hBound).step
      | some v =>
        obtain ⟨x, hStored⟩ := hf.exists_stored hBound
        exact .of_run (run_getAt_of_bound hAncestor hBound hStored) (.getAt hAncestor hBound hStored)
  | assignAt id distance name value =>
    cases hAncestor : f.ancestor? id distance.toNat with
    | none => exact (Refused.assignBeyond hAncestor).step
    | some e =>
      cases hBound : f.bound? e name with
      | none => exact (Refused.assignMissing hAncestor hBound).step
      | some v =>
        have hRun := run_variableAt_of_bound hAncestor hBound
        exact .of_run (run_silently_ok (run_bind_of_ok hRun)) (.assignAt hAncestor hBound)
  | deleteItem id name =>
    cases hBound : f.bound? id name with
    | none => exact (Refused.notHere hBound).step
    | some v => exact .of_run (run_silently_ok (run_delete_of_some hBound)) (.deleteItem hBound)

/-! ## Forests that operations lead to -/

theorem Step.sound (h : Step f op answer f') (hf : f.Sound) : f'.Sound := by
  induction h with
  | refused | getAt => exact hf
  | create | child => exact hf.add _ _
  | fork => exact hf.fork _
  | define | assignNew => exact hf.bindNew _ _ _
  | assign | get | assignAt => exact hf.updateVariable _ _
  | getItem _ ih | setItem _ ih => exact ih
  | deleteItem => exact hf.unbind _ _

/-- A step with an error is a refusal, and stays where it is. -/
theorem Step.refused_of_error (h : Step f op answer f')
    (hAnswer : answer = .error error) : Refused f op error ∧ f' = f := by
  induction h with
  | refused h =>
    cases hAnswer
    exact ⟨h, rfl⟩
  | getItem _ ih =>
    obtain ⟨hRefused, hSame⟩ := ih hAnswer
    exact ⟨.getItem hRefused, hSame⟩
  | setItem _ ih =>
    obtain ⟨hRefused, hSame⟩ := ih hAnswer
    exact ⟨.setItem hRefused, hSame⟩
  | _ => cases hAnswer

end Operation

namespace Forest

/-- The forest after operations, one after the other. -/
def after (f : Forest) : List Operation → Forest
  | [] => f
  | op :: ops => (op.run f).2.after ops

theorem empty_sound : Sound .empty := by
  intro id name v hBound
  have hLt := lt_size_of_bound hBound
  cases hLt

/-- Bound names have variables, whatever was done before. -/
theorem Sound.after {f : Forest} (hf : f.Sound) (ops : List Operation) : (f.after ops).Sound := by
  induction ops generalizing f with
  | nil => exact hf
  | cons op ops ih => exact ih ((Operation.step hf op).sound hf)

end Forest

/-- After any operations, a further one fails exactly for one of the listed reasons, and then every environment and
every variable is as before. -/
theorem refusals_change_nothing (ops : List Operation) (op : Operation) (error : ScopeError) :
    ((op.run (Forest.empty.after ops)).1 = .error error ↔ op.Refused (Forest.empty.after ops) error) ∧
    ((op.run (Forest.empty.after ops)).1 = .error error →
      (op.run (Forest.empty.after ops)).2 = Forest.empty.after ops) := by
  have hStep := Operation.step (Forest.empty_sound.after ops) op
  refine ⟨⟨?_, ?_⟩, ?_⟩
  · intro hError
    exact (hStep.refused_of_error hError).1
  · intro hRefused
    rw [hRefused.run_eq]
  · intro hError
    exact (hStep.refused_of_error hError).2

/-- An environment with a constant, and one inside it. -/
def guarded : List Operation := [.create none none, .define 0 "K" (.int 1) .local true, .child 0 none]

/-- A constant is not assigned from inside, and is not even marked as used. -/
theorem refusals_change_nothing_constant :
    ((Operation.assign 1 "K" (.int 2) false).run (Forest.empty.after guarded)).1 = .error (.constant "K") ∧
    ((Operation.assign 1 "K" (.int 2) false).run (Forest.empty.after guarded)).2 = Forest.empty.after guarded := by
  have hRefused : ((Operation.assign 1 "K" (.int 2) false).run (Forest.empty.after guarded)).1 =
      .error (.constant "K") := by rfl
  exact ⟨hRefused, (refusals_change_nothing guarded _ _).2 hRefused⟩

end Scriptling.Scope
