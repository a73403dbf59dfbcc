import Scriptling.Scope.Forest

/-!
# What environments bind and variables hold

Every operation on a forest is one of a few changes: an environment is added, with no bindings or with those of
another; a name is bound to a new variable; a variable is changed; a name is removed. For each of them this module
says what environments bind (`bound?`) and what variables hold (`stored?`) afterwards, so that later proofs never
look into the arrays.
-/

namespace Scriptling.Scope

variable (other : Nat) (enclosing : Option Nat)

/-! ## Tables of names -/

section Tables

variable {α : Type} (key other : String) (x : α) (table : List (String × α))

theorem lookup_cons_eq : ((key, x) :: table).lookup other = if other = key then some x else table.lookup other := by
  by_cases hOther : other = key
  · subst hOther
    simp
  · have hBeq : (other == key) = false := by simpa using hOther
    simp [List.lookup_cons, hBeq, hOther]

theorem lookup_setKey : (setKey key x table).lookup other = if other = key then some x else table.lookup other := by
  induction table with
  | nil => rw [setKey, lookup_cons_eq]
  | cons entry table ih =>
    obtain ⟨k, old⟩ := entry
    by_cases hk : k = key
    · rw [setKey, if_pos hk, lookup_cons_eq, lookup_cons_eq, hk]
      by_cases hOther : other = key <;> simp [hOther]
    · rw [setKey, if_neg hk, lookup_cons_eq, lookup_cons_eq, ih]
      by_cases hOther : other = k
      · simp [hOther, hk]
      · simp [hOther]

theorem lookup_filter_ne :
    (table.filter (·.1 ≠ key)).lookup other = if other = key then none else table.lookup other := by
  induction table with
  | nil => simp
  | cons entry table ih =>
    obtain ⟨k, x⟩ := entry
    by_cases hk : k = key
    · rw [List.filter_cons_of_neg (by simpa using hk), ih, lookup_cons_eq, hk]
      by_cases hOther : other = key <;> simp [hOther]
    · rw [List.filter_cons_of_pos (by simpa using hk), lookup_cons_eq, lookup_cons_eq, ih]
      by_cases hOther : other = k
      · simp [hOther, hk]
      · simp [hOther]

end Tables

namespace Forest

variable {f : Forest} {id v : Nat} {name : String}

/-! ## Reading -/

theorem environment_of_le (h : f.environments.size ≤ id) : f.environment id = default := by
  simp [environment, Nat.not_lt.mpr h]

theorem bound?_of_le (h : f.environments.size ≤ id) : f.bound? id name = none := by
  rw [bound?, environment_of_le h]
  rfl

/-- Only an environment of the forest binds anything. -/
theorem lt_size_of_bound (h : f.bound? id name = some v) : id < f.environments.size := by
  by_cases hLt : id < f.environments.size
  · exact hLt
  · rw [bound?_of_le (Nat.not_lt.mp hLt)] at h
    cases h

/-- The nearest environment is the one asked, if that binds the name. -/
theorem bound?_of_find?_none (h : f.find? id name = none) : f.bound? id name = none := by
  rw [find?, chain, chainWithin, List.findSome?_cons] at h
  cases hBound : f.bound? id name with
  | none => rfl
  | some v => simp [hBound] at h

/-- A name is found in an environment that binds it. -/
theorem bound?_of_find? {e : Nat} (h : f.find? id name = some (e, v)) : f.bound? e name = some v := by
  obtain ⟨e', -, he'⟩ := List.exists_of_findSome?_eq_some h
  cases hBound : f.bound? e' name with
  | none => simp [hBound] at he'
  | some v' =>
    simp only [hBound, Option.map_some, Option.some.injEq, Prod.mk.injEq] at he'
    obtain ⟨rfl, rfl⟩ := he'
    exact hBound

/-! ## Adding environments -/

theorem environment_push (e : Environment) :
    ({ f with environments := f.environments.push e } : Forest).environment id =
      if id = f.environments.size then e else f.environment id := by
  simp only [environment, Array.getD_eq_getD_getElem?, Array.getElem?_push]
  split <;> rfl

@[simp] theorem bound?_add (label : Option String) : (f.add enclosing label).2.bound? id name = f.bound? id name := by
  by_cases hNew : id = f.environments.size
  · rw [bound?_of_le (Nat.le_of_eq hNew.symm)]
    simp only [add, bound?, environment_push, if_pos hNew]
    rfl
  · simp only [add, bound?, environment_push, if_neg hNew]

theorem bound?_fork (origin : Nat) :
    (f.fork origin).2.bound? id name = if id = f.environments.size then f.bound? origin name else f.bound? id name := by
  by_cases hNew : id = f.environments.size
  · simp only [fork, bound?, environment_push, if_pos hNew]
  · simp only [fork, bound?, environment_push, if_neg hNew]

@[simp] theorem stored?_add (label : Option String) : (f.add enclosing label).2.stored? v = f.stored? v := rfl

@[simp] theorem stored?_fork (origin : Nat) : (f.fork origin).2.stored? v = f.stored? v := rfl

/-! ## Binding and removing names -/

/-- The forest with a name bound to a new variable. -/
def bindNew (f : Forest) (id : Nat) (name : String) (x : Variable) : Forest :=
  { f with slots := f.slots.push x }.updateEnvironment id
    fun e => { e with bindings := setKey name f.slots.size e.bindings }

/-- The forest with a name removed from an environment. -/
def unbind (f : Forest) (id : Nat) (name : String) : Forest :=
  f.updateEnvironment id fun e => { e with bindings := e.bindings.filter (·.1 ≠ name) }

theorem environment_updateEnvironment (g : Environment → Environment)
    (h : id < f.environments.size) :
    (f.updateEnvironment other g).environment id = if other = id then g (f.environment id) else f.environment id := by
  simp only [updateEnvironment, environment, Array.getD_eq_getD_getElem?, Array.getElem?_modify,
    Array.getElem?_eq_getElem h]
  split <;> rfl

theorem size_updateEnvironment (g : Environment → Environment) :
    (f.updateEnvironment other g).environments.size = f.environments.size := Array.size_modify

/-- A name is bound anew in the environment itself; every other binding is as before. -/
theorem bound?_bindNew (key : String) (x : Variable) :
    (f.bindNew other key x).bound? id name =
      if id < f.environments.size ∧ other = id ∧ name = key then some f.slots.size else f.bound? id name := by
  by_cases hLt : id < f.environments.size
  · simp only [bindNew, bound?]
    rw [environment_updateEnvironment (f := { f with slots := f.slots.push x }) _ _ hLt]
    by_cases hOther : other = id
    · simp only [hLt, hOther, true_and, if_true, lookup_setKey]
      rfl
    · simp only [hOther, false_and, and_false, if_false]
      rfl
  · have hLe := Nat.not_lt.mp hLt
    rw [if_neg (fun h => hLt h.1), bound?_of_le hLe, bound?_of_le]
    rw [bindNew, size_updateEnvironment]
    exact hLe

theorem bound?_unbind (key : String) :
    (f.unbind other key).bound? id name = if other = id ∧ name = key then none else f.bound? id name := by
  by_cases hLt : id < f.environments.size
  · simp only [unbind, bound?]
    rw [environment_updateEnvironment _ _ hLt]
    by_cases hOther : other = id
    · simp only [hOther, true_and, if_true, lookup_filter_ne]
    · simp only [hOther, false_and, if_false]
  · have hLe := Nat.not_lt.mp hLt
    have hNone : (f.unbind other key).bound? id name = none := by
      apply bound?_of_le
      rw [unbind, size_updateEnvironment]
      exact hLe
    rw [hNone, bound?_of_le hLe]
    simp

theorem bound?_of_unbind {other : Nat} {key : String} (h : (f.unbind other key).bound? id name = some v) :
    f.bound? id name = some v := by
  rw [bound?_unbind] at h
  split at h
  · cases h
  · exact h

@[simp] theorem size_slots_bindNew (key : String) (x : Variable) :
    (f.bindNew other key x).slots.size = f.slots.size + 1 := Array.size_push ..

theorem stored?_bindNew (key : String) (x : Variable) :
    (f.bindNew other key x).stored? v = if v = f.slots.size then some x else f.stored? v :=
  Array.getElem?_push

@[simp] theorem stored?_unbind (key : String) : (f.unbind other key).stored? v = f.stored? v := rfl

/-! ## Changing variables -/

@[simp] theorem bound?_updateVariable (w : Nat) (g : Variable → Variable) :
    (f.updateVariable w g).bound? id name = f.bound? id name := rfl

theorem stored?_updateVariable (w : Nat) (g : Variable → Variable) :
    (f.updateVariable w g).stored? v = if w = v then (f.stored? v).map g else f.stored? v :=
  Array.getElem?_modify

@[simp] theorem size_slots_updateVariable (w : Nat) (g : Variable → Variable) :
    (f.updateVariable w g).slots.size = f.slots.size := Array.size_modify

/-! ## Bindings that hold something -/

/-- Every bound name has a variable of the forest. -/
def Sound (f : Forest) : Prop := ∀ (id : Nat) (name : String) (v : Nat), f.bound? id name = some v → v < f.slots.size

namespace Sound

variable (hf : f.Sound)

include hf

theorem exists_stored (h : f.bound? id name = some v) : ∃ x, f.stored? v = some x :=
  ⟨_, Array.getElem?_eq_getElem (hf id name v h)⟩

theorem add (label : Option String) : (f.add enclosing label).2.Sound := by
  intro id name v hBound
  rw [bound?_add] at hBound
  exact hf id name v hBound

theorem fork (origin : Nat) : (f.fork origin).2.Sound := by
  intro id name v hBound
  rw [bound?_fork] at hBound
  split at hBound <;> exact hf _ name v hBound

theorem bindNew (key : String) (x : Variable) : (f.bindNew other key x).Sound := by
  intro id name v hBound
  rw [size_slots_bindNew]
  rw [bound?_bindNew] at hBound
  split at hBound
  · cases hBound
    omega
  · have := hf id name v hBound
    omega

theorem updateVariable (w : Nat) (g : Variable → Variable) : (f.updateVariable w g).Sound := by
  intro id name v hBound
  rw [size_slots_updateVariable]
  exact hf id name v hBound

theorem unbind (key : String) : (f.unbind other key).Sound := by
  intro id name v hBound
  exact hf id name v (bound?_of_unbind hBound)

/-- The new variable is one that nobody else binds. -/
theorem same_or_before {other i j : Nat} {key n n' : String} {x : Variable}
    (hi : (f.bindNew other key x).bound? i n = some v) (hj : (f.bindNew other key x).bound? j n' = some v) :
    i = j ∧ n = n' ∨ f.bound? i n = some v ∧ f.bound? j n' = some v := by
  rw [bound?_bindNew] at hi hj
  split at hi
  next hHere =>
    cases hi
    split at hj
    next hThere => exact .inl ⟨hHere.2.1.symm.trans hThere.2.1, hHere.2.2.trans hThere.2.2.symm⟩
    · exact absurd (hf _ _ _ hj) (Nat.lt_irrefl _)
  · split at hj
    · cases hj
      exact absurd (hf _ _ _ hi) (Nat.lt_irrefl _)
    · exact .inr ⟨hi, hj⟩

end Sound

/-! ## Forests only grow

Defining, assigning and looking up names removes no environment and puts none inside another one, so a number stands for
the same environment for good. -/

variable (f : Forest)

/-- Every environment of `before` is there, inside the same one. -/
def Extends (before after : Forest) : Prop :=
  ∀ (id : Nat) (e : Environment), before.environments[id]? = some e →
    ∃ e', after.environments[id]? = some e' ∧ e'.enclosing = e.enclosing

theorem Extends.refl : f.Extends f := fun _ e h => ⟨e, h, rfl⟩

theorem Extends.trans {a b c : Forest} (hab : a.Extends b) (hbc : b.Extends c) : a.Extends c := by
  intro id e h
  obtain ⟨e', he', hOuter⟩ := hab id e h
  obtain ⟨e'', he'', hOuter'⟩ := hbc id e' he'
  exact ⟨e'', he'', hOuter'.trans hOuter⟩

theorem extends_add (enclosing : Option Nat) (name : Option String) : f.Extends (f.add enclosing name).2 := by
  intro id e h
  have hLt : id < f.environments.size := (Array.getElem?_eq_some_iff.mp h).1
  refine ⟨e, ?_, rfl⟩
  show (f.environments.push _)[id]? = some e
  rw [Array.getElem?_push_lt hLt, ← Array.getElem?_eq_getElem hLt, h]

theorem extends_updateEnvironment (id : Nat) {g : Environment → Environment}
    (hg : ∀ e, (g e).enclosing = e.enclosing) : f.Extends (f.updateEnvironment id g) := by
  intro other e h
  unfold updateEnvironment
  rw [Array.getElem?_modify, h]
  split
  · exact ⟨g e, rfl, hg e⟩
  · exact ⟨e, rfl, rfl⟩

theorem extends_updateVariable (v : Nat) (g : Variable → Variable) : f.Extends (f.updateVariable v g) := .refl f

theorem extends_bindNew (id : Nat) (name : String) (x : Variable) : f.Extends (f.bindNew id name x) :=
  extends_updateEnvironment { f with slots := f.slots.push x } id fun _ => rfl

theorem Extends.size_le {f f' : Forest} (h : f.Extends f') : f.environments.size ≤ f'.environments.size := by
  by_cases hEmpty : f.environments.size = 0
  · omega
  · have hLast : f.environments.size - 1 < f.environments.size := by omega
    obtain ⟨e, he, -⟩ := h _ _ (Array.getElem?_eq_getElem hLast)
    have hThere := (Array.getElem?_eq_some_iff.mp he).1
    omega

end Forest

end Scriptling.Scope
