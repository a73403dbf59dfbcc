import Scriptling.Proofs.Scope.Operation

/-!
# Constants

A variable that was defined as a constant is not changed by name: whoever finds it, from any depth of the chain or
through a fork, is refused. Storing at a distance makes no such check (`constant_overwritten_at_distance`), and it is
the only way to change a constant that is neither removed nor defined anew.

## Main results

* `Operation.Step.keeps_constant`: one step keeps a constant, unless it disturbs it.
* `constants_kept`: so does every run of operations, and at its end the constant still cannot be assigned.
-/

namespace Scriptling.Scope

open Forest

variable {f : Forest} {id v : Nat} {name : String} {x : Variable}

/-- The operations that can undo what an environment binds to a name: defining or removing it there, and storing at
a distance into its variable. -/
inductive Operation.Disturbs (f : Forest) (id : Nat) (name : String) : Operation → Prop
  | define {value kind isConstant} : Disturbs f id name (.define id name value kind isConstant)
  | deleteItem : Disturbs f id name (.deleteItem id name)
  | assignAt {origin e distance key value} (h : f.ancestor? origin distance.toNat = some e)
      (hBound : f.bound? e key = f.bound? id name) : Disturbs f id name (.assignAt origin distance key value)

/-- An environment binds a name to a variable, which holds a constant; the mark of use aside, this is it. -/
structure Forest.HoldsConstant (f : Forest) (id : Nat) (name : String) (v : Nat) (x : Variable) : Prop where
  bound : f.bound? id name = some v
  stored : ∃ used, f.stored? v = some { x with isUsed := used }
  constant : x.isConstant = true

namespace Forest.HoldsConstant

variable (h : f.HoldsConstant id name v x)

include h

theorem isConstant_of_stored {y : Variable} (hy : f.stored? v = some y) : y.isConstant = true := by
  obtain ⟨used, hStored⟩ := h.stored
  rw [hStored] at hy
  cases hy
  exact h.constant

/-- Binding another name, or a name in another environment, keeps a constant. -/
theorem bindNew {other : Nat} {key : String} (y : Variable) (hOther : ¬ (other = id ∧ key = name)) :
    (f.bindNew other key y).HoldsConstant id name v x := by
  obtain ⟨used, hStored⟩ := h.stored
  have hNew : v ≠ f.slots.size := by
    intro hv
    subst hv
    have hNone : f.stored? f.slots.size = none := Array.getElem?_size
    rw [hNone] at hStored
    cases hStored
  refine ⟨?_, ⟨used, ?_⟩, h.constant⟩
  · rw [bound?_bindNew, if_neg, h.bound]
    rintro ⟨-, hId, hKey⟩
    exact hOther ⟨hId, hKey.symm⟩
  · rw [stored?_bindNew, if_neg hNew, hStored]

/-- Changing another variable, or no more than the mark of use, keeps a constant. -/
theorem updateVariable {w : Nat} {g : Variable → Variable}
    (hUpdate : w = v → ∀ used, ∃ used', g { x with isUsed := used } = { x with isUsed := used' }) :
    (f.updateVariable w g).HoldsConstant id name v x := by
  obtain ⟨used, hStored⟩ := h.stored
  refine ⟨?_, ?_, h.constant⟩
  · rw [bound?_updateVariable, h.bound]
  · rw [stored?_updateVariable, hStored]
    by_cases hw : w = v
    · obtain ⟨used', hg⟩ := hUpdate hw used
      exact ⟨used', by rw [if_pos hw, Option.map_some, hg]⟩
    · exact ⟨used, by rw [if_neg hw]⟩

/-- Whoever finds a constant by name is refused. -/
theorem assign_refused {origin e : Nat} {key : String} (hFind : f.find? origin key = some (e, v)) (value : Datum)
    (isNonlocal : Bool) : Operation.Refused f (.assign origin key value isNonlocal) (.constant key) := by
  obtain ⟨used, hStored⟩ := h.stored
  exact .constant hFind hStored h.constant

end Forest.HoldsConstant

/-- One step keeps a constant, unless it succeeds in disturbing it. -/
theorem Operation.Step.keeps_constant {op : Operation} {answer : Except ScopeError Datum} {f' : Forest}
    (hStep : Step f op answer f') (h : f.HoldsConstant id name v x)
    (hSpared : op.Disturbs f id name → ∀ d, answer ≠ .ok d) : f'.HoldsConstant id name v x := by
  induction hStep with
  | refused => exact h
  | create | child =>
    refine ⟨?_, ?_, h.constant⟩
    · rw [bound?_add, h.bound]
    · simpa only [stored?_add] using h.stored
  | fork =>
    have hOld := Nat.ne_of_lt (lt_size_of_bound h.bound)
    refine ⟨?_, ?_, h.constant⟩
    · rw [bound?_fork, if_neg hOld, h.bound]
    · simpa only [stored?_fork] using h.stored
  | define =>
    apply h.bindNew
    rintro ⟨rfl, rfl⟩
    exact hSpared .define _ rfl
  | assignNew hFind =>
    -- A name that is found nowhere is not the bound one.
    apply h.bindNew
    rintro ⟨rfl, rfl⟩
    have hBound := bound?_of_find?_none hFind
    rw [h.bound] at hBound
    cases hBound
  | assign _ hStored hConstant =>
    -- The variable that was found passed the check, so it is another one.
    apply h.updateVariable
    rintro rfl
    rw [h.isConstant_of_stored hStored] at hConstant
    cases hConstant
  | get =>
    apply h.updateVariable
    intro _ _
    exact ⟨true, rfl⟩
  | getAt => exact h
  | assignAt hAncestor hBound =>
    apply h.updateVariable
    rintro rfl
    exact absurd rfl (hSpared (.assignAt hAncestor (hBound.trans h.bound.symm)) _)
  | getItem _ ih | setItem _ ih =>
    apply ih
    intro hDisturbs
    cases hDisturbs
  | deleteItem =>
    refine ⟨?_, ?_, h.constant⟩
    · rw [bound?_unbind, if_neg, h.bound]
      rintro ⟨rfl, rfl⟩
      exact hSpared .deleteItem _ rfl
    · simpa only [stored?_unbind] using h.stored

/-- None of the operations, done one after the other, succeeds in disturbing what an environment binds to a name. -/
def Spared (id : Nat) (name : String) : Forest → List Operation → Prop
  | _, [] => True
  | f, op :: ops =>
    (op.Disturbs f id name → ∀ d, (op.run f).1 ≠ .ok d) ∧ Spared id name (op.run f).2 ops

theorem Forest.HoldsConstant.after (h : f.HoldsConstant id name v x) (hf : f.Sound) {ops : List Operation}
    (hSpared : Spared id name f ops) : (f.after ops).HoldsConstant id name v x := by
  induction ops generalizing f with
  | nil => exact h
  | cons op ops ih =>
    have hStep := Operation.step hf op
    exact ih (hStep.keeps_constant h hSpared.1) (hStep.sound hf) hSpared.2

/-- In a forest that operations have led to, an environment binds a name to a constant. As long as no operation
defines the name there anew, removes it or stores into its variable at a distance, the name stays bound to this
variable and the variable keeps all but its mark of use; and every assignment by name that finds the variable, from
wherever it is made, is refused and changes nothing. -/
theorem constants_kept (past ops : List Operation) (hBound : (Forest.empty.after past).bound? id name = some v)
    (hStored : (Forest.empty.after past).stored? v = some x) (hConstant : x.isConstant = true)
    (hSpared : Spared id name (Forest.empty.after past) ops) :
    ((Forest.empty.after past).after ops).bound? id name = some v ∧
    (∃ used, ((Forest.empty.after past).after ops).stored? v = some { x with isUsed := used }) ∧
    ∀ (origin e : Nat) (key : String) (value : Datum) (isNonlocal : Bool),
      ((Forest.empty.after past).after ops).find? origin key = some (e, v) →
      (Operation.assign origin key value isNonlocal).run ((Forest.empty.after past).after ops) =
        (.error (.constant key), (Forest.empty.after past).after ops) ∧
      (Operation.setItem origin key value).run ((Forest.empty.after past).after ops) =
        (.error (.constant key), (Forest.empty.after past).after ops) := by
  have hHolds : (Forest.empty.after past).HoldsConstant id name v x := ⟨hBound, ⟨x.isUsed, hStored⟩, hConstant⟩
  have hAfter := hHolds.after (Forest.empty_sound.after past) hSpared
  refine ⟨hAfter.bound, hAfter.stored, ?_⟩
  intro origin e key value isNonlocal hFind
  have hRefused := hAfter.assign_refused hFind value
  exact ⟨(hRefused isNonlocal).run_eq, (Operation.Refused.setItem (hRefused false)).run_eq⟩

/-- A constant is read, assigned from inside, shadowed there, and defined again in its own environment: the first
and the third succeed, and it is still the same. -/
theorem constants_kept_inside :
    ∃ used, ((Forest.empty.after guarded).after [.get 1 "K", .assign 1 "K" (.int 2) false,
      .define 1 "K" (.int 3) .local false, .define 0 "K" (.int 4) .local false]).stored? 0 =
        some ⟨.int 1, .kind .local, true, false, used⟩ := by
  have hSpared : Spared 0 "K" (Forest.empty.after guarded) [.get 1 "K", .assign 1 "K" (.int 2) false,
      .define 1 "K" (.int 3) .local false, .define 0 "K" (.int 4) .local false] := by
    refine ⟨?_, ?_, ?_, ?_, trivial⟩
    · intro h
      cases h
    · intro h
      cases h
    · intro h
      cases h
    · intro _ d hOk
      cases hOk
  exact (constants_kept guarded _ rfl rfl rfl hSpared).2.1

/-- Storing at a distance overwrites a constant. -/
theorem constant_overwritten_at_distance :
    (Forest.empty.after guarded).bound? 0 "K" = some 0 ∧
    (Forest.empty.after guarded).stored? 0 = some ⟨.int 1, .kind .local, true, false, false⟩ ∧
    ((Operation.assignAt 1 1 "K" (.int 77)).run (Forest.empty.after guarded)).1 = .ok .none ∧
    ((Operation.assignAt 1 1 "K" (.int 77)).run (Forest.empty.after guarded)).2.stored? 0 =
      some ⟨.int 77, .kind .local, true, false, false⟩ :=
  ⟨rfl, rfl, rfl, rfl⟩

end Scriptling.Scope
