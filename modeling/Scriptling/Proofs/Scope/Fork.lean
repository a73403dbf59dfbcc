import Scriptling.Proofs.Scope.Chain

/-!
# Forks

A fork begins with the bindings of its origin, and both are inside the same environment. Defining and removing names
on one side is never seen from the other. Assigning is, as long as both sides bind the name to one variable: that is
from the fork until one side defines or removes the name (`assignment_reaches_origin`).

## Main results

* `Forest.Twins.seen?_update`: what one update on one side changes of what is seen from the other.
* `fork_isolated_but_for_shared_stores`: after any updates on one side, each name seen from the other has the value
  that was stored last in a shared variable, and without such a store the value from before the fork.
-/

namespace Scriptling.Scope

open Option Operation Forest

/-- What is done to a name of an environment. -/
inductive Update where
  | define (name : String) (value : Datum) (kind : ScopeKind) (isConstant : Bool)
  | assign (name : String) (value : Datum) (isNonlocal : Bool)
  | delete (name : String)

namespace Update

def name : Update → String
  | define name .. | assign name .. | delete name => name

/-- The operation that an update of an environment is. -/
def on (id : Nat) : Update → Operation
  | define name value kind isConstant => .define id name value kind isConstant
  | assign name value isNonlocal => .assign id name value isNonlocal
  | delete name => .deleteItem id name

/-- What an update of `a` stores in the variable that `a` and `b` share under a name: the value of an assignment to
this name that is not refused. -/
def sharedStore? (f : Forest) (a b : Nat) (name : String) : Update → Option Datum
  | assign key value isNonlocal =>
    if key = name ∧ f.bound? a name = f.bound? b name ∧ ((Operation.assign a key value isNonlocal).run f).1.isOk
    then some value else none
  | define .. | delete _ => none

end Update

/-- What updates of `a`, one after the other, store last in the variable that `a` and `b` share under a name. -/
def lastSharedStore? (a b : Nat) (name : String) : Forest → List Update → Option Datum
  | _, [] => none
  | f, u :: us => (lastSharedStore? a b name ((u.on a).run f).2 us).or (u.sharedStore? f a b name)

/-! ## Environments side by side -/

variable {f f' : Forest} {a b : Nat} {name : String}

/-- Two environments inside the same one. -/
structure Forest.Twins (f : Forest) (a b : Nat) : Prop where
  distinct : a ≠ b
  outer : f.outer? a = f.outer? b

namespace Forest.Twins

theorem assign_cases (hf : f.Sound) (id : Nat) (key : String) (value : Datum) (isNonlocal : Bool) :
    (∃ error, (assign id key value isNonlocal).run f = (.error error, f)) ∨
    (f.find? id key = none ∧ (assign id key value isNonlocal).run f =
      (.ok .none, f.bindNew id key ⟨value, .kind .global, false, false, false⟩)) ∨
    ∃ e v, f.find? id key = some (e, v) ∧ (assign id key value isNonlocal).run f =
      (.ok .none, f.updateVariable v fun x => { x with value := value, isUsed := true }) := by
  have hStep := step hf (.assign id key value isNonlocal)
  rcases hRun : (assign id key value isNonlocal).run f with ⟨answer, f1⟩
  rw [hRun] at hStep
  cases hStep with
  | refused => exact .inl ⟨_, rfl⟩
  | assignNew hFind => exact .inr (.inl ⟨hFind, rfl⟩)
  | assign hFind => exact .inr (.inr ⟨_, _, hFind, rfl⟩)

variable (h : f.Twins a b) (hf : f.Regular)

include h hf

/-- What happens to one of the two does not concern where the other one's names are found. -/
theorem find?_eq (hf' : f'.Regular) (hOuter : ∀ i, f'.outer? i = f.outer? i)
    (hBound : ∀ i, i ≠ a → ∀ n, f'.bound? i n = f.bound? i n) : f'.find? b name = f.find? b name := by
  have hHere : f'.bound? b name = f.bound? b name := hBound b h.distinct.symm name
  rw [hf.find?_eq b, hf'.find?_eq b, hHere, hOuter b]
  cases f.bound? b name with
  | some v => rfl
  | none =>
    cases hOut : f.outer? b with
    | none => rfl
    | some p =>
      -- The environment around both is older than either.
      have hOlder : p < a := hf.older (h.outer.trans hOut)
      exact hf.find?_congr hf' (fun i _ => hOuter i) fun i hi => hBound i (by omega) name

/-- A new variable on one side is not seen from the other. -/
theorem seen?_bindNew (key : String) (x : Variable) : (f.bindNew a key x).seen? b name = f.seen? b name := by
  have hFind : (f.bindNew a key x).find? b name = f.find? b name := by
    refine h.find?_eq hf (hf.bindNew a key x) (fun i => outer?_bindNew a key x) fun i hi n => ?_
    rw [bound?_bindNew, if_neg]
    rintro ⟨-, rfl, -⟩
    exact hi rfl
  unfold seen?
  rw [hFind]
  cases hFound : f.find? b name with
  | none => rfl
  | some found =>
    have hOld := hf.sound _ _ _ (bound?_of_find? hFound)
    rw [bind_some, bind_some, stored?_bindNew, if_neg (Nat.ne_of_lt hOld)]

theorem seen?_unbind (key : String) : (f.unbind a key).seen? b name = f.seen? b name := by
  have hFind : (f.unbind a key).find? b name = f.find? b name := by
    refine h.find?_eq hf (hf.unbind a key) (fun i => outer?_unbind a key) fun i hi n => ?_
    rw [bound?_unbind, if_neg]
    rintro ⟨rfl, -⟩
    exact hi rfl
  unfold seen?
  rw [hFind]
  rfl

/-- If `b` itself binds a name, then what is found under it from `a` is the variable that is seen from `b` under some
name exactly if it is the same name, and both bind it to one variable. -/
theorem same_variable_iff {key : String} {e v e' v' w : Nat}
    (hKey : f.bound? b key = some w) (hFind : f.find? a key = some (e, v)) (hFind' : f.find? b name = some (e', v')) :
    v = v' ↔ key = name ∧ f.bound? a name = f.bound? b name := by
  have hBound := bound?_of_find? hFind
  constructor
  · rintro rfl
    obtain ⟨rfl, hSame⟩ := hf.sharing hBound (bound?_of_find? hFind')
    obtain ⟨rfl, rfl⟩ : b = e' ∧ w = v := by
      rw [find?_of_bound hKey] at hFind'
      simpa using hFind'
    refine ⟨rfl, hKey ▸ ?_⟩
    cases hHere : f.bound? a key with
    | some u =>
      rw [find?_of_bound hHere] at hFind
      cases hFind
      rfl
    | none =>
      -- Otherwise it would be found further out, where nothing is inside the same environment as `b`.
      rw [hf.find?_of_unbound hHere] at hFind
      obtain ⟨p, hOuter, hFurther⟩ := bind_eq_some_iff.mp hFind
      have hFar := hf.le_of_find? hFurther
      have hOlder := hf.older (hSame.trans (h.outer.symm.trans hOuter))
      omega
  · rintro ⟨rfl, hSame⟩
    rw [find?_of_bound hKey] at hFind'
    rw [find?_of_bound (hSame.trans hKey)] at hFind
    cases hFind
    cases hFind'
    rfl

/-- Changing the variable that is found on one side is seen from the other exactly if it is shared. -/
theorem seen?_assign {key : String} {value : Datum} {e v w : Nat}
    (hKey : f.bound? b key = some w) (hFind : f.find? a key = some (e, v)) :
    (f.updateVariable v fun x => { x with value := value, isUsed := true }).seen? b name =
      if key = name ∧ f.bound? a name = f.bound? b name then some value else f.seen? b name := by
  have hFind' : (f.updateVariable v fun x => { x with value := value, isUsed := true }).find? b name = f.find? b name :=
    hf.find?_congr (hf.updateVariable v _) (fun _ _ => rfl) fun _ _ => rfl
  unfold seen?
  rw [hFind']
  cases hFound : f.find? b name with
  | none =>
    rw [if_neg]
    · rfl
    · rintro ⟨rfl, -⟩
      rw [find?_of_bound hKey] at hFound
      cases hFound
  | some found =>
    obtain ⟨e', v'⟩ := found
    obtain ⟨x, hStored⟩ := hf.sound.exists_stored (bound?_of_find? hFound)
    rw [bind_some, bind_some, stored?_updateVariable, hStored]
    by_cases hSame : v = v'
    · rw [if_pos hSame, if_pos ((h.same_variable_iff hf hKey hFind hFound).mp hSame)]
      rfl
    · rw [if_neg hSame, if_neg (mt (h.same_variable_iff hf hKey hFind hFound).mpr hSame)]

/-- **One update on one side.** Only the assignment to a shared variable is seen from the other side. -/
theorem seen?_update {u : Update} (hName : (f.bound? b u.name).isSome) :
    ((u.on a).run f).2.seen? b name = (u.sharedStore? f a b name).or (f.seen? b name) := by
  obtain ⟨w, hKey⟩ := isSome_iff_exists.mp hName
  cases u with
  | define key value kind isConstant =>
    have hStep := step hf.sound (.define a key value kind isConstant)
    rw [Update.on]
    rcases hRun : (define a key value kind isConstant).run f with ⟨answer, f1⟩
    rw [hRun] at hStep
    cases hStep with
    | refused => rfl
    | define => exact h.seen?_bindNew hf _ _
  | delete key =>
    have hStep := Operation.step hf.sound (.deleteItem a key)
    rw [Update.on]
    rcases hRun : (deleteItem a key).run f with ⟨answer, f1⟩
    rw [hRun] at hStep
    cases hStep with
    | refused => rfl
    | deleteItem => exact h.seen?_unbind hf _
  | assign key value isNonlocal =>
    rw [Update.on, Update.sharedStore?]
    rcases assign_cases hf.sound a key value isNonlocal with ⟨error, hRun⟩ | ⟨hFind, hRun⟩ | ⟨e, v, hFind, hRun⟩
    · rw [hRun]
      simp [Except.isOk, Except.toBool]
    · rw [hRun, h.seen?_bindNew hf, if_neg]
      · rfl
      · rintro ⟨rfl, hSame, -⟩
        rw [bound?_of_find?_none hFind] at hSame
        exact absurd (hSame.trans hKey) (by simp)
    · have hKey : f.bound? b key = some w := hKey
      rw [hRun, h.seen?_assign hf hKey hFind]
      simp only [Except.isOk, Except.toBool, and_true]
      split <;> rfl

/-- An update of one side leaves the two side by side, and the bindings of the other one as they are. -/
theorem update (u : Update) : ((u.on a).run f).2.Twins a b ∧ ∀ n, ((u.on a).run f).2.bound? b n = f.bound? b n := by
  have hNew : ∀ (key : String) (x : Variable),
      (f.bindNew a key x).Twins a b ∧ ∀ n, (f.bindNew a key x).bound? b n = f.bound? b n := by
    refine fun key x => ⟨⟨h.distinct, by rw [outer?_bindNew, outer?_bindNew, h.outer]⟩, fun n => ?_⟩
    rw [bound?_bindNew, if_neg]
    rintro ⟨-, hEq, -⟩
    exact h.distinct hEq
  have hStep := step hf.sound (u.on a)
  generalize (u.on a).run f = outcome at hStep
  obtain ⟨answer, f1⟩ := outcome
  cases u with
  | define key value kind isConstant =>
    cases hStep with
    | refused => exact ⟨h, fun _ => rfl⟩
    | define => exact hNew _ _
  | assign key value isNonlocal =>
    cases hStep with
    | refused => exact ⟨h, fun _ => rfl⟩
    | assignNew => exact hNew _ _
    | assign => exact ⟨⟨h.distinct, h.outer⟩, fun _ => rfl⟩
  | delete key =>
    cases hStep with
    | refused => exact ⟨h, fun _ => rfl⟩
    | deleteItem =>
      refine ⟨⟨h.distinct, ?_⟩, fun n => ?_⟩
      · exact (outer?_unbind a key).trans (h.outer.trans (outer?_unbind a key).symm)
      · refine (bound?_unbind a key).trans (if_neg ?_)
        rintro ⟨hEq, -⟩
        exact h.distinct hEq

omit h hf in
/-- **Any updates on one side.** The induction is on the updates; the two stay side by side all along. -/
theorem seen?_after (h : f.Twins a b) (hf : f.Built) {us : List Update}
    (hNames : ∀ u ∈ us, (f.bound? b u.name).isSome) :
    (f.after (us.map (Update.on a))).seen? b name = (lastSharedStore? a b name f us).or (f.seen? b name) := by
  induction us generalizing f with
  | nil => rfl
  | cons u us ih =>
    obtain ⟨hFirst, hOthers⟩ := List.forall_mem_cons.mp hNames
    obtain ⟨hTwins, hBound⟩ := h.update hf.regular u
    have hWithin : (u.on a).Within f := by cases u <;> trivial
    have hBuilt := (step hf.regular.sound (u.on a)).built hf hWithin
    rw [List.map_cons, after, ih hTwins hBuilt fun u' hu' => hBound u'.name ▸ hOthers u' hu',
      h.seen?_update hf.regular hFirst, lastSharedStore?, Option.or_assoc]

end Forest.Twins

/-! ## A fork and its origin -/

/-- From a fork as from its origin the same values are seen as before. -/
theorem seen?_fork (hf : f.Regular) {id : Nat} (hId : id < f.environments.size) {side : Nat}
    (hSide : side = id ∨ side = (f.fork id).1) (name : String) : (f.fork id).2.seen? side name = f.seen? id name := by
  have hFork := hf.fork id
  have hOld : ∀ i < f.environments.size, (f.fork id).2.find? i name = f.find? i name := by
    refine fun i hi => hf.find?_congr hFork (fun j hj => ?_) fun j hj => ?_
    · rw [outer?_fork, if_neg (by omega)]
    · rw [bound?_fork, if_neg (by omega)]
  rcases hSide with rfl | rfl
  · unfold seen?
    rw [hOld side hId]
    rfl
  · -- The fork binds what its origin binds, and goes on with the environment around that.
    have hBound : (f.fork id).2.bound? (f.fork id).1 name = f.bound? id name := (bound?_fork id).trans (if_pos rfl)
    have hOuter : (f.fork id).2.outer? (f.fork id).1 = f.outer? id := (outer?_fork id).trans (if_pos rfl)
    unfold seen?
    rw [hFork.find?_eq, hf.find?_eq, hBound, hOuter]
    cases f.bound? id name with
    | some v => rfl
    | none =>
      cases hOut : f.outer? id with
      | none => rfl
      | some p =>
        have hOlder := hf.older hOut
        simp only [bind_some, hOld p (by omega), stored?_fork]

theorem twins_fork {id : Nat} (hId : id < f.environments.size) :
    (f.fork id).2.Twins (f.fork id).1 id ∧ (f.fork id).2.Twins id (f.fork id).1 := by
  have hDistinct : (f.fork id).1 ≠ id := Nat.ne_of_gt hId
  have hNew : (f.fork id).2.outer? (f.fork id).1 = f.outer? id := (outer?_fork id).trans (if_pos rfl)
  have hOld : (f.fork id).2.outer? id = f.outer? id := (outer?_fork id).trans (if_neg (Nat.ne_of_lt hId))
  exact ⟨⟨hDistinct, hNew.trans hOld.symm⟩, ⟨hDistinct.symm, hOld.trans hNew.symm⟩⟩

/-- **What is seen from the other side of a fork.** Take any environment of a forest that was built step by step, fork
it, and define, assign and remove names of it on either side in any order. Looking a name up from the other side then
answers what it would have answered before the fork, unless an assignment was made to the variable that both sides
have under this name: it then answers what was assigned last in this way. -/
theorem fork_isolated_but_for_shared_stores (hf : f.Built) {id : Nat} (hId : id < f.environments.size)
    (hSides : (a = (f.fork id).1 ∧ b = id) ∨ (a = id ∧ b = (f.fork id).1)) {us : List Update}
    (hNames : ∀ u ∈ us, (f.bound? id u.name).isSome) (name : String) :
    ((Operation.get b name).run ((f.fork id).2.after (us.map (Update.on a)))).1 =
      match lastSharedStore? a b name (f.fork id).2 us with
      | some value => .ok value
      | none => ((Operation.get id name).run f).1 := by
  have hBuilt := hf.fork id
  have hSound := hBuilt.regular.sound.after (us.map (Update.on a))
  obtain ⟨hTwins, hSide, hBound⟩ : (f.fork id).2.Twins a b ∧ (b = id ∨ b = (f.fork id).1) ∧
      ∀ n, (f.fork id).2.bound? b n = f.bound? id n := by
    rcases hSides with ⟨rfl, rfl⟩ | ⟨rfl, rfl⟩
    · refine ⟨(twins_fork hId).1, .inl rfl, fun n => ?_⟩
      rw [Forest.bound?_fork, if_neg (Nat.ne_of_lt hId)]
    · exact ⟨(twins_fork hId).2, .inr rfl, fun n => (Forest.bound?_fork _).trans (if_pos rfl)⟩
  have hSeen : ((f.fork id).2.after (us.map (Update.on a))).seen? b name = _ :=
    hTwins.seen?_after hBuilt fun u hu => hBound u.name ▸ hNames u hu
  rw [hSound.get_answer, hSeen, seen?_fork hf.regular hId hSide, hf.regular.sound.get_answer]
  cases lastSharedStore? a b name (f.fork id).2 us <;> rfl

/-- An environment that binds `x` and `y`, inside one that binds `x`. -/
def nested : Forest :=
  let outside := (empty.add none none).2.bindNew 0 "x" ⟨.int 0, .kind .local, false, false, false⟩
  let inside := (outside.add (some 0) none).2.bindNew 1 "x" ⟨.int 1, .kind .local, false, false, false⟩
  inside.bindNew 1 "y" ⟨.int 2, .kind .local, false, false, false⟩

theorem nested_built : nested.Built :=
  (((Forest.Built.empty.add (by simp) none).bindNew 0 "x" _).add (by decide) none).bindNew 1 "x" _ |>.bindNew 1 "y" _

/-- On the fork `y` is assigned, `x` is removed and then assigned outside, and `y` is defined anew and assigned again:
of all this the origin sees the first assignment only. -/
theorem fork_isolated_but_for_shared_stores_crossing :
    let updates : List Update := [.assign "y" (.int 5) false, .delete "x", .assign "x" (.int 7) false,
      .define "y" (.int 8) .free false, .assign "y" (.int 9) false]
    (∀ u ∈ updates, (nested.bound? 1 u.name).isSome) ∧
    ((Operation.get 1 "x").run ((nested.fork 1).2.after (updates.map (Update.on 2)))).1 = .ok (.int 1) ∧
    ((Operation.get 1 "y").run ((nested.fork 1).2.after (updates.map (Update.on 2)))).1 = .ok (.int 5) := by
  intro updates
  have hNames : ∀ u ∈ updates, (nested.bound? 1 u.name).isSome := by
    simp only [updates, List.forall_mem_cons]
    decide
  have hId : 1 < nested.environments.size := by decide
  have hSeen := fork_isolated_but_for_shared_stores nested_built hId (.inl ⟨rfl, rfl⟩) hNames
  exact ⟨hNames, (hSeen "x").trans rfl, (hSeen "y").trans rfl⟩

/-- A name that a fork has from its origin is assigned on the fork, and the origin has another value. -/
theorem assignment_reaches_origin :
    (nested.bound? 1 "y").isSome ∧
    ((Operation.get 1 "y").run nested).1 = .ok (.int 2) ∧
    ((Operation.get 1 "y").run ((nested.fork 1).2.after [(Update.assign "y" (.int 5) false).on 2])).1 =
      .ok (.int 5) :=
  ⟨rfl, rfl, rfl⟩

end Scriptling.Scope
