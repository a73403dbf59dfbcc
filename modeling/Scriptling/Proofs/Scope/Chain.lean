import Scriptling.Proofs.Scope.Operation

/-!
# What is found along a chain

An environment is younger than the one around it, so that a search for a name outwards comes to an end, and what it
finds is given by an equation (`Regular.find?_eq`). Two names never stand for one variable, and two environments that
bind a name to one variable are forks of each other, inside the same environment. All this holds of every forest that
comes about by adding and forking environments, binding and removing names and changing variables (`Built.regular`),
and so of what operations lead to.
-/

namespace Scriptling.Scope

variable (other : Nat)

namespace Forest

variable {f f' : Forest} {id v : Nat} {name : String}

/-- The environment around an environment. -/
def outer? (f : Forest) (id : Nat) : Option Nat := (f.environment id).enclosing

theorem lt_size_of_outer {p : Nat} (h : f.outer? id = some p) : id < f.environments.size := by
  by_cases hLt : id < f.environments.size
  · exact hLt
  · rw [outer?, environment_of_le (Nat.not_lt.mp hLt)] at h
    cases h

theorem find?_of_bound (h : f.bound? id name = some v) : f.find? id name = some (id, v) := by
  rw [find?, chain, chainWithin, List.findSome?_cons, h]
  rfl

theorem outer?_add (enclosing : Option Nat) (label : Option String) :
    (f.add enclosing label).2.outer? id = if id = f.environments.size then enclosing else f.outer? id := by
  by_cases hNew : id = f.environments.size
  · simp only [add, outer?, environment_push, if_pos hNew]
  · simp only [add, outer?, environment_push, if_neg hNew]

theorem outer?_fork (origin : Nat) :
    (f.fork origin).2.outer? id = if id = f.environments.size then f.outer? origin else f.outer? id := by
  by_cases hNew : id = f.environments.size
  · simp only [fork, outer?, environment_push, if_pos hNew]
  · simp only [fork, outer?, environment_push, if_neg hNew]

theorem outer?_updateEnvironment {g : Environment → Environment}
    (hg : ∀ e, (g e).enclosing = e.enclosing) : (f.updateEnvironment other g).outer? id = f.outer? id := by
  by_cases hLt : id < f.environments.size
  · rw [outer?, environment_updateEnvironment _ _ hLt]
    split
    · exact hg _
    · rfl
  · have hLe := Nat.not_lt.mp hLt
    rw [outer?, outer?, environment_of_le hLe, environment_of_le]
    rw [size_updateEnvironment]
    exact hLe

@[simp] theorem outer?_bindNew (key : String) (x : Variable) : (f.bindNew other key x).outer? id = f.outer? id :=
  outer?_updateEnvironment (f := { f with slots := f.slots.push x }) other fun _ => rfl

@[simp] theorem outer?_unbind (key : String) : (f.unbind other key).outer? id = f.outer? id :=
  outer?_updateEnvironment other fun _ => rfl

/-! ## Forests that are built step by step -/

/-- A forest that comes about by these changes. A new environment is put inside one that is there already. -/
inductive Built : Forest → Prop
  | empty : Built .empty
  | add {f : Forest} (h : Built f) {enclosing : Option Nat} (hThere : ∀ p ∈ enclosing, p < f.environments.size)
      (label : Option String) : Built (f.add enclosing label).2
  | fork {f : Forest} (h : Built f) (origin : Nat) : Built (f.fork origin).2
  | bindNew {f : Forest} (h : Built f) (id : Nat) (name : String) (x : Variable) : Built (f.bindNew id name x)
  | updateVariable {f : Forest} (h : Built f) (v : Nat) (g : Variable → Variable) : Built (f.updateVariable v g)
  | unbind {f : Forest} (h : Built f) (id : Nat) (name : String) : Built (f.unbind id name)

/-- What is known of a forest that was built step by step. -/
structure Regular (f : Forest) : Prop where
  sound : f.Sound
  /-- An environment is younger than the one around it. -/
  older : ∀ {id p : Nat}, f.outer? id = some p → p < id
  /-- A variable has one name, and the environments that bind it are inside the same one. -/
  sharing : ∀ {i j v : Nat} {n n' : String}, f.bound? i n = some v → f.bound? j n' = some v →
    n = n' ∧ f.outer? i = f.outer? j

namespace Regular

variable (hf : f.Regular)

include hf

theorem add {enclosing : Option Nat} (hThere : ∀ p ∈ enclosing, p < f.environments.size)
    (label : Option String) : (f.add enclosing label).2.Regular where
  sound := hf.sound.add enclosing label
  older {id p} hOuter := by
    rw [outer?_add] at hOuter
    split at hOuter
    next hNew => exact hNew ▸ hThere p hOuter
    · exact hf.older hOuter
  sharing {i j v n n'} hi hj := by
    rw [bound?_add] at hi hj
    rw [outer?_add, outer?_add, if_neg (Nat.ne_of_lt (lt_size_of_bound hi)),
      if_neg (Nat.ne_of_lt (lt_size_of_bound hj))]
    exact hf.sharing hi hj

theorem fork (origin : Nat) : (f.fork origin).2.Regular where
  sound := hf.sound.fork origin
  older {id p} hOuter := by
    rw [outer?_fork] at hOuter
    split at hOuter
    next hNew =>
      have hOrigin := lt_size_of_outer hOuter
      have hOlder := hf.older hOuter
      omega
    · exact hf.older hOuter
  sharing {i j v n n'} hi hj := by
    -- The fork counts as its origin.
    rw [bound?_fork, ← apply_ite fun e => f.bound? e n] at hi
    rw [bound?_fork, ← apply_ite fun e => f.bound? e n'] at hj
    rw [outer?_fork, outer?_fork, ← apply_ite f.outer?, ← apply_ite f.outer?]
    exact hf.sharing hi hj

theorem bindNew (key : String) (x : Variable) : (f.bindNew other key x).Regular where
  sound := hf.sound.bindNew other key x
  older hOuter := hf.older (by rwa [outer?_bindNew] at hOuter)
  sharing {i j v n n'} hi hj := by
    rw [outer?_bindNew, outer?_bindNew]
    rcases hf.sound.same_or_before hi hj with ⟨rfl, rfl⟩ | ⟨hi, hj⟩
    · exact ⟨rfl, rfl⟩
    · exact hf.sharing hi hj

theorem updateVariable (w : Nat) (g : Variable → Variable) : (f.updateVariable w g).Regular where
  sound := hf.sound.updateVariable w g
  older hOuter := hf.older hOuter
  sharing hi hj := hf.sharing hi hj

theorem unbind (key : String) : (f.unbind other key).Regular where
  sound := hf.sound.unbind other key
  older hOuter := hf.older (by rwa [outer?_unbind] at hOuter)
  sharing hi hj := by
    rw [outer?_unbind, outer?_unbind]
    exact hf.sharing (bound?_of_unbind hi) (bound?_of_unbind hj)

/-! ## Searching outwards -/

/-- Fuel beyond the number of an environment is enough for its chain. -/
theorem chainWithin_eq {m n : Nat} (hm : id < m) (hn : id < n) : f.chainWithin m id = f.chainWithin n id := by
  induction id using Nat.strongRecOn generalizing m n with
  | _ id ih =>
    obtain ⟨m, rfl⟩ := Nat.exists_eq_add_of_lt hm
    obtain ⟨n, rfl⟩ := Nat.exists_eq_add_of_lt hn
    rw [chainWithin, chainWithin]
    cases hOuter : (f.environment id).enclosing with
    | none => rfl
    | some p =>
      have hOlder : p < id := hf.older hOuter
      exact congrArg (id :: ·) (ih p hOlder (by omega) (by omega))

/-- The chain of an environment is itself and the chain of the one around it. -/
theorem chain_eq (id : Nat) : f.chain id = id :: ((f.outer? id).map f.chain).getD [] := by
  rw [chain, chainWithin]
  cases hOuter : f.outer? id with
  | none =>
    rw [outer?] at hOuter
    simp only [hOuter]
    rfl
  | some p =>
    have hLt := lt_size_of_outer hOuter
    have hOlder := hf.older hOuter
    rw [outer?] at hOuter
    simp only [hOuter, Option.map_some, Option.getD_some, chain]
    exact congrArg (id :: ·) (hf.chainWithin_eq (by omega) (by omega))

/-- A name is looked for in the environment itself, and then in the one around it. -/
theorem find?_eq (id : Nat) (name : String) :
    f.find? id name = match f.bound? id name with
      | some v => some (id, v)
      | none => (f.outer? id).bind fun p => f.find? p name := by
  rw [find?, hf.chain_eq, List.findSome?_cons]
  cases f.bound? id name with
  | some v => rfl
  | none => cases f.outer? id <;> rfl

theorem find?_of_unbound (h : f.bound? id name = none) :
    f.find? id name = (f.outer? id).bind fun p => f.find? p name := by
  rw [hf.find?_eq, h]

/-- What is found is not younger than where the search began. -/
theorem le_of_find? {e : Nat} (h : f.find? id name = some (e, v)) : e ≤ id := by
  induction id using Nat.strongRecOn with
  | _ id ih =>
    rw [hf.find?_eq] at h
    split at h
    · cases h
      exact Nat.le_refl _
    · obtain ⟨p, hOuter, hFind⟩ := Option.bind_eq_some_iff.mp h
      have hOlder := hf.older hOuter
      exact Nat.le_trans (ih p hOlder hFind) (Nat.le_of_lt hOlder)

/-- A search sees only environments that are not younger than where it begins. -/
theorem find?_congr (hf' : f'.Regular) (hOuter : ∀ i ≤ id, f'.outer? i = f.outer? i)
    (hBound : ∀ i ≤ id, f'.bound? i name = f.bound? i name) : f'.find? id name = f.find? id name := by
  induction id using Nat.strongRecOn with
  | _ id ih =>
    rw [hf.find?_eq, hf'.find?_eq, hBound id (Nat.le_refl _), hOuter id (Nat.le_refl _)]
    cases f.bound? id name with
    | some v => rfl
    | none =>
      cases hOut : f.outer? id with
      | none => rfl
      | some p =>
        have hOlder := hf.older hOut
        exact ih p hOlder (fun i hi => hOuter i (by omega)) fun i hi => hBound i (by omega)

end Regular

theorem Built.regular (h : f.Built) : f.Regular := by
  induction h with
  | empty =>
    refine ⟨empty_sound, fun {id p} hOuter => ?_, fun {i j v n n'} hi _ => ?_⟩
    · cases lt_size_of_outer hOuter
    · cases lt_size_of_bound hi
  | add _ hThere label ih => exact ih.add hThere label
  | fork _ origin ih => exact ih.fork origin
  | bindNew _ id name x ih => exact ih.bindNew id name x
  | updateVariable _ v g ih => exact ih.updateVariable v g
  | unbind _ id name ih => exact ih.unbind id name

/-! ## Values that are seen -/

/-- The value of a name seen from an environment. -/
def seen? (f : Forest) (id : Nat) (name : String) : Option Datum :=
  ((f.find? id name).bind fun found => f.stored? found.2).map (·.value)

theorem seen?_of_find? {e : Nat} {x : Variable} (h : f.find? id name = some (e, v)) (hStored : f.stored? v = some x) :
    f.seen? id name = some x.value := by
  simp [seen?, h, hStored]

theorem Sound.get_answer (hf : f.Sound) (id : Nat) (name : String) :
    ((Operation.get id name).run f).1 = match f.seen? id name with
      | some value => .ok value
      | none => .error (.undefined name) := by
  cases hFind : f.find? id name with
  | none =>
    have hRun : (Operation.get id name).run f = _ := Operation.run_lookup_of_none hFind
    rw [hRun, seen?, hFind]
    rfl
  | some found =>
    obtain ⟨e, v⟩ := found
    obtain ⟨x, hStored⟩ := hf.exists_stored (bound?_of_find? hFind)
    have hRun : (Operation.get id name).run f = _ := Operation.run_lookup_of_some hFind hStored
    rw [hRun, seen?_of_find? hFind hStored]

end Forest

/-- The environments that an operation puts another one into are there. -/
def Operation.Within (f : Forest) : Operation → Prop
  | .create enclosing _ => ∀ p ∈ enclosing, p < f.environments.size
  | .child id _ => id < f.environments.size
  | _ => True

theorem Operation.Step.built {f f' : Forest} {op : Operation} {answer : Except ScopeError Datum}
    (h : Step f op answer f') (hf : f.Built) (hWithin : op.Within f) : f'.Built := by
  induction h with
  | refused | getAt => exact hf
  | create => exact hf.add hWithin _
  | child => exact hf.add (by simpa [Within] using hWithin) _
  | fork => exact hf.fork _
  | define | assignNew => exact hf.bindNew _ _ _
  | assign | get | assignAt => exact hf.updateVariable _ _
  | getItem _ ih | setItem _ ih => exact ih trivial
  | deleteItem => exact hf.unbind _ _

end Scriptling.Scope
