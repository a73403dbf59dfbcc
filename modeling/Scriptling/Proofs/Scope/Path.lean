import Scriptling.Proofs.Scope.Chain

/-!
# Values along the way outwards

A forest is tidy if every bound name has a variable of its own, as in every forest without forks. Then what an
environment holds under a name (`held?`) changes only where that environment and that name are meant. `Path` is the
way from an environment out to the global one; it stays what it is as long as environments are only added, and both
the chain of an environment and the environment at a distance are read off it.
-/

namespace Scriptling.Scope.Forest

variable {f f' : Forest} {id v : Nat} {name : String} {g : Variable → Variable}

/-! ## Variables of their own -/

/-- Every bound name has a variable, which no other binding has. -/
structure Tidy (f : Forest) : Prop where
  sound : f.Sound
  alone : ∀ {i j v : Nat} {n n' : String}, f.bound? i n = some v → f.bound? j n' = some v → i = j ∧ n = n'

namespace Tidy

variable (hf : f.Tidy)

include hf

theorem add (enclosing : Option Nat) (label : Option String) : (f.add enclosing label).2.Tidy where
  sound := hf.sound.add enclosing label
  alone hi hj := by
    rw [bound?_add] at hi hj
    exact hf.alone hi hj

theorem bindNew (other : Nat) (key : String) (x : Variable) : (f.bindNew other key x).Tidy where
  sound := hf.sound.bindNew other key x
  alone hi hj := by
    rcases hf.sound.same_or_before hi hj with hSame | ⟨hi, hj⟩
    · exact hSame
    · exact hf.alone hi hj

theorem updateVariable (w : Nat) (g : Variable → Variable) : (f.updateVariable w g).Tidy where
  sound := hf.sound.updateVariable w g
  alone hi hj := hf.alone hi hj

theorem unbind (other : Nat) (key : String) : (f.unbind other key).Tidy where
  sound := hf.sound.unbind other key
  alone hi hj := hf.alone (bound?_of_unbind hi) (bound?_of_unbind hj)

end Tidy

theorem empty_tidy : Tidy .empty := by
  refine ⟨empty_sound, ?_⟩
  intro i j v n n' hi _
  cases lt_size_of_bound hi

/-! ## Values that environments hold -/

/-- The value that an environment itself holds under a name. -/
def held? (f : Forest) (id : Nat) (name : String) : Option Datum := ((f.bound? id name).bind f.stored?).map (·.value)

theorem held?_of_bound {x : Variable} (hBound : f.bound? id name = some v) (hStored : f.stored? v = some x) :
    f.held? id name = some x.value := by
  simp [held?, hBound, hStored]

theorem held?_of_unbound (hBound : f.bound? id name = none) : f.held? id name = none := by
  simp [held?, hBound]

@[simp] theorem held?_add (enclosing : Option Nat) (label : Option String) :
    (f.add enclosing label).2.held? id name = f.held? id name := by
  rw [held?, bound?_add]
  rfl

theorem Sound.held?_bindNew (hf : f.Sound) (other : Nat) (key : String) (x : Variable) :
    (f.bindNew other key x).held? id name =
      if id < f.environments.size ∧ other = id ∧ name = key then some x.value else f.held? id name := by
  rw [held?, bound?_bindNew]
  split
  · simp [stored?_bindNew]
  · cases hBound : f.bound? id name with
    | none =>
      rw [held?_of_unbound hBound]
      rfl
    | some v =>
      have hOld : v ≠ f.slots.size := Nat.ne_of_lt (hf id name v hBound)
      simp [held?, hBound, stored?_bindNew, hOld]

/-- Two changes of a variable that give it the same value look the same. -/
theorem held?_updateVariable_congr (w : Nat) {g' : Variable → Variable} (hg : ∀ x, (g x).value = (g' x).value) :
    (f.updateVariable w g).held? id name = (f.updateVariable w g').held? id name := by
  simp only [held?, bound?_updateVariable]
  cases f.bound? id name with
  | none => rfl
  | some v =>
    simp only [Option.bind_some, stored?_updateVariable]
    split
    · cases f.stored? v with
      | none => rfl
      | some x => exact congrArg some (hg x)
    · rfl

/-- A change that leaves values alone does not show. -/
theorem held?_updateVariable (w : Nat) (hg : ∀ x, (g x).value = x.value) :
    (f.updateVariable w g).held? id name = f.held? id name := by
  have hSame : (f.updateVariable w fun x => x).stored? = f.stored? := by
    funext v
    simp [stored?_updateVariable]
  rw [held?_updateVariable_congr w hg, held?, hSame]
  rfl

/-- A change of the variable of one binding does not show in any other. -/
theorem Tidy.held?_updateVariable_other (hf : f.Tidy) {e : Nat} {key : String} (hBound : f.bound? e key = some v)
    (g : Variable → Variable) (hOther : ¬ (id = e ∧ name = key)) :
    (f.updateVariable v g).held? id name = f.held? id name := by
  cases hHere : f.bound? id name with
  | none =>
    rw [held?_of_unbound hHere]
    exact held?_of_unbound hHere
  | some w =>
    have hNe : v ≠ w := by
      intro hEq
      exact hOther (hf.alone hHere (hEq ▸ hBound))
    simp only [held?, bound?_updateVariable, hHere, Option.bind_some, stored?_updateVariable, if_neg hNe]

theorem Sound.held?_updateVariable_self (hf : f.Sound) (hBound : f.bound? id name = some v) (value : Datum)
    (hg : ∀ x, (g x).value = value) : (f.updateVariable v g).held? id name = some value := by
  obtain ⟨x, hStored⟩ := hf.exists_stored hBound
  simp only [held?, bound?_updateVariable, hBound, Option.bind_some, stored?_updateVariable, if_true, hStored,
    Option.map_some, hg]

/-! ## The way outwards -/

theorem Extends.outer?_eq (h : f.Extends f') (hLt : id < f.environments.size) : f'.outer? id = f.outer? id := by
  obtain ⟨e, he, hOuter⟩ := h id _ (Array.getElem?_eq_getElem hLt)
  simp only [outer?, environment, Array.getD_eq_getD_getElem?, he, Array.getElem?_eq_getElem hLt, Option.getD_some]
  exact hOuter

/-- The environments from one out to the global one, which is that of number 0. -/
inductive Path (f : Forest) : Nat → List Nat → Prop
  | global (hOuter : f.outer? 0 = none) : Path f 0 [0]
  | inner {id p es} (hOuter : f.outer? id = some p) (hOlder : p < id) (hp : Path f p es) :
      Path f id (id :: es)

namespace Path

variable {es : List Nat} (h : f.Path id es)

include h

theorem le : ∀ e ∈ es, e ≤ id := by
  induction h with
  | global => simp
  | inner _ hOlder _ ih =>
    intro e he
    rcases List.mem_cons.mp he with rfl | he
    · exact Nat.le_refl _
    · exact Nat.le_trans (ih e he) (Nat.le_of_lt hOlder)

/-- Only environments outside of the first one come after it. -/
theorem eq_cons : ∃ rest, es = id :: rest ∧ ∀ e ∈ rest, e < id := by
  cases h with
  | global => exact ⟨[], rfl, by simp⟩
  | inner _ hOlder hp => exact ⟨_, rfl, fun e he => Nat.lt_of_le_of_lt (hp.le e he) hOlder⟩

theorem getLast? : es.getLast? = some 0 := by
  induction h with
  | global => rfl
  | inner _ _ hp ih =>
    rw [List.getLast?_cons, ih]
    rfl

theorem nodup : es.Nodup := by
  induction h with
  | global => simp
  | inner _ hOlder hp ih =>
    refine List.nodup_cons.mpr ⟨fun hMem => ?_, ih⟩
    exact Nat.lt_irrefl _ (Nat.lt_of_le_of_lt (hp.le _ hMem) hOlder)

theorem ancestor?_eq (n : Nat) : f.ancestor? id n = es[n]? := by
  induction h generalizing n with
  | global hOuter =>
    cases n with
    | zero => rfl
    | succ n =>
      rw [outer?] at hOuter
      simp [ancestor?, hOuter]
  | inner hOuter _ _ ih =>
    cases n with
    | zero => rfl
    | succ n =>
      rw [outer?] at hOuter
      simp only [ancestor?, hOuter, List.getElem?_cons_succ]
      exact ih n

theorem chainWithin_eq {depth : Nat} (hDepth : id < depth) : f.chainWithin depth id = es := by
  induction h generalizing depth with
  | global hOuter =>
    obtain ⟨depth, rfl⟩ := Nat.exists_eq_add_of_lt hDepth
    rw [outer?] at hOuter
    simp [chainWithin, hOuter]
  | @inner id p es hOuter hOlder _ ih =>
    obtain ⟨depth, rfl⟩ := Nat.exists_eq_add_of_lt hDepth
    rw [outer?] at hOuter
    simp only [chainWithin, hOuter]
    rw [ih (by omega)]

theorem chain_eq (hThere : id < f.environments.size) : f.chain id = es := h.chainWithin_eq (Nat.lt_succ_of_lt hThere)

theorem outer?_zero : f.outer? 0 = none := by
  induction h with
  | global hOuter => exact hOuter
  | inner _ _ _ ih => exact ih

theorem find?_zero (name : String) : f.find? 0 name = (f.bound? 0 name).map fun v => (0, v) := by
  have hChain : f.chain 0 = [0] := (global h.outer?_zero).chainWithin_eq (Nat.zero_lt_succ _)
  rw [find?, hChain, List.findSome?_cons]
  cases f.bound? 0 name <;> rfl

/-- Environments that come later do not matter. -/
theorem of_extends (hExtends : f.Extends f') (hThere : id < f.environments.size) : f'.Path id es := by
  induction h with
  | global hOuter => exact .global (by rw [hExtends.outer?_eq hThere, hOuter])
  | inner hOuter hOlder _ ih => exact .inner (by rw [hExtends.outer?_eq hThere, hOuter]) hOlder (ih (by omega))

theorem outward {p : Nat} (hOuter : f.outer? id = some p) : ∃ rest, es = id :: rest ∧ f.Path p rest := by
  cases h with
  | global hNone =>
    rw [hOuter] at hNone
    cases hNone
  | inner hSome _ hp =>
    rw [hOuter] at hSome
    cases hSome
    exact ⟨_, rfl, hp⟩

end Path

end Scriptling.Scope.Forest
