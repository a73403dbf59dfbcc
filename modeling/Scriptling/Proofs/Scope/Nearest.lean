import Scriptling.Proofs.Scope.Path

/-!
# The nearest binding of a name

A name means its nearest binding, going outwards. There are two ways to it: a search for the first environment that
binds the name, and a given number of steps; both come to the same binding (`lookup_by_name_is_by_distance`). An
assignment goes to the nearest binding and nowhere else, as long as no fork shares it (`assignment_touches_nearest`).
A name that is bound nowhere has none, and is then bound in the environment that the assignment is made from, which
need not be the outermost one (`unbound_name_bound_where_assigned`, `assigned_name_not_outermost`).
-/

namespace Scriptling.Scope

open Option Operation

variable {f f' : Forest} {id e v d : Nat} {name : String} {ops : List Operation} {value : Datum}

/-! ## Forests that operations lead to -/

/-- The operations, one after the other, put environments only into ones that are there. -/
def Forest.Admits : Forest → List Operation → Prop
  | _, [] => True
  | f, op :: ops => op.Within f ∧ (op.run f).2.Admits ops

theorem Forest.Built.after (hf : f.Built) (hOps : f.Admits ops) : (f.after ops).Built := by
  induction ops generalizing f with
  | nil => exact hf
  | cons op ops ih => exact ih ((step hf.regular.sound op).built hf hOps.1) hOps.2

theorem Operation.Step.tidy {op : Operation} {answer : Except ScopeError Datum} (h : Step f op answer f')
    (hf : f.Tidy) (hFork : ∀ origin, op ≠ .fork origin) : f'.Tidy := by
  induction h with
  | refused | getAt => exact hf
  | create | child => exact hf.add _ _
  | fork => exact absurd rfl (hFork _)
  | define | assignNew => exact hf.bindNew _ _ _
  | assign | get | assignAt => exact hf.updateVariable _ _
  | getItem _ ih | setItem _ ih => exact ih (by simp)
  | deleteItem => exact hf.unbind _ _

/-- Without forks, no two bindings ever share a variable. -/
theorem Forest.Tidy.after (hf : f.Tidy) (hFork : ∀ origin, Operation.fork origin ∉ ops) : (f.after ops).Tidy := by
  induction ops generalizing f with
  | nil => exact hf
  | cons op ops ih =>
    refine ih ((Operation.step hf.sound op).tidy hf ?_) fun origin hMem => hFork origin (by simp [hMem])
    rintro origin rfl
    exact hFork origin (by simp)

namespace Forest

/-! ## The way outwards does not lead through variables -/

@[simp] theorem chain_updateVariable (w : Nat) (g : Variable → Variable) (id : Nat) :
    (f.updateVariable w g).chain id = f.chain id := by
  have hWithin : ∀ depth id, (f.updateVariable w g).chainWithin depth id = f.chainWithin depth id := by
    intro depth
    induction depth with
    | zero => exact fun _ => rfl
    | succ depth ih =>
      intro id
      have hSame : (f.updateVariable w g).environment id = f.environment id := rfl
      simp only [chainWithin, hSame, ih]
  exact hWithin _ id

@[simp] theorem find?_updateVariable (w : Nat) (g : Variable → Variable) :
    (f.updateVariable w g).find? id name = f.find? id name := by
  simp only [find?, chain_updateVariable, bound?_updateVariable]

theorem ancestor?_succ (f : Forest) (id n : Nat) :
    f.ancestor? id (n + 1) = (f.outer? id).bind fun p => f.ancestor? p n := by
  rw [ancestor?, outer?]
  cases (f.environment id).enclosing <;> rfl

@[simp] theorem ancestor?_updateVariable (w : Nat) (g : Variable → Variable) (id n : Nat) :
    (f.updateVariable w g).ancestor? id n = f.ancestor? id n := by
  induction n generalizing id with
  | zero => rfl
  | succ n ih =>
    have hSame : (f.updateVariable w g).outer? id = f.outer? id := rfl
    simp only [ancestor?_succ, hSame, ih]

/-! ## Answers from what environments hold -/

theorem seen?_eq_held? : f.seen? id name = (f.find? id name).bind fun found => f.held? found.1 name := by
  unfold seen?
  cases hFind : f.find? id name with
  | none => rfl
  | some found => simp [held?, bound?_of_find? hFind]

theorem Sound.get_eq_ok_iff (hf : f.Sound) :
    ((get id name).run f).1 = .ok value ↔ f.seen? id name = some value := by
  rw [hf.get_answer]
  cases f.seen? id name <;> simp

/-- Where the value of a name has changed under a condition, so has the answer. -/
theorem Sound.get_of_seen? (hf : f.Sound) (hf' : f'.Sound) {p : Prop} [Decidable p]
    (h : f'.seen? id name = if p then some value else f.seen? id name) :
    ((get id name).run f').1 = if p then .ok value else ((get id name).run f).1 := by
  rw [hf'.get_answer, hf.get_answer, h]
  by_cases hp : p
  · rw [if_pos hp, if_pos hp]
  · rw [if_neg hp, if_neg hp]

theorem Sound.getAt_answer (hf : f.Sound) (id : Nat) (distance : Int) (name : String) :
    ((getAt id distance name).run f).1 =
      (f.ancestor? id distance.toNat).elim (.error .badDistance) fun e =>
        (f.held? e name).elim (.error (.missing name)) .ok := by
  cases hAncestor : f.ancestor? id distance.toNat with
  | none =>
    rw [(Operation.Refused.getBeyond hAncestor).run_eq]
    rfl
  | some e =>
    cases hBound : f.bound? e name with
    | none =>
      rw [(Operation.Refused.getMissing hAncestor hBound).run_eq, elim_some, held?_of_unbound hBound]
      rfl
    | some v =>
      obtain ⟨x, hStored⟩ := hf.exists_stored hBound
      rw [run_getAt_of_bound hAncestor hBound hStored, elim_some, held?_of_bound hBound hStored]
      rfl

theorem Sound.getAt_eq_ok_iff (hf : f.Sound) :
    ((getAt id d name).run f).1 = .ok value ↔ ∃ e, f.ancestor? id d = some e ∧ f.held? e name = some value := by
  rw [hf.getAt_answer, Int.toNat_natCast]
  cases f.ancestor? id d with
  | none => simp
  | some e => cases hHeld : f.held? e name <;> simp [hHeld]

/-- A name is found exactly if it has a value. -/
theorem Sound.contains_iff (hf : f.Sound) : f.contains id name = true ↔ ∃ value, f.seen? id name = some value := by
  rw [contains, seen?]
  cases hFind : f.find? id name with
  | none => simp
  | some found =>
    obtain ⟨x, hStored⟩ := hf.exists_stored (bound?_of_find? hFind)
    simp [hStored]

/-! ## Stores into a variable -/

/-- Without shared variables, a store into the variable of a binding is seen under its name, from where this is the
nearest binding. -/
theorem Tidy.seen?_store (hf : f.Tidy) (hBound : f.bound? e name = some v) {g : Variable → Variable}
    (hg : ∀ x, (g x).value = value) (i : Nat) (n : String) :
    (f.updateVariable v g).seen? i n =
      if n = name ∧ (f.find? i n).map Prod.fst = some e then some value else f.seen? i n := by
  rw [seen?_eq_held?, seen?_eq_held?, find?_updateVariable]
  cases f.find? i n with
  | none => simp
  | some found =>
    simp only [bind_some, map_some, Option.some.injEq]
    by_cases hHere : found.1 = e ∧ n = name
    · obtain ⟨rfl, rfl⟩ := hHere
      rw [if_pos ⟨rfl, rfl⟩, hf.sound.held?_updateVariable_self hBound value hg]
    · rw [if_neg (mt And.symm hHere), hf.held?_updateVariable_other hBound g hHere]

/-- Stores of one value into a variable are answered the same, whatever else they change of it. -/
theorem Sound.answers_of_store (hf : f.Sound) (v : Nat) {g g' : Variable → Variable}
    (hg : ∀ x, (g x).value = (g' x).value) (i k : Nat) (n : String) :
    ((getAt i k n).run (f.updateVariable v g)).1 = ((getAt i k n).run (f.updateVariable v g')).1 ∧
    ((get i n).run (f.updateVariable v g)).1 = ((get i n).run (f.updateVariable v g')).1 := by
  have hHeld : ∀ e, (f.updateVariable v g).held? e n = (f.updateVariable v g').held? e n := fun e =>
    held?_updateVariable_congr v hg
  constructor
  · simp only [(hf.updateVariable v _).getAt_answer, ancestor?_updateVariable, hHeld]
  · simp only [(hf.updateVariable v _).get_answer, seen?_eq_held?, find?_updateVariable, hHeld]

/-! ## Search and distance -/

/-- A name is bound at a distance from an environment, and not before. -/
structure BoundFirstAt (f : Forest) (id d : Nat) (name : String) (e v : Nat) : Prop where
  there : f.ancestor? id d = some e
  bound : f.bound? e name = some v
  before : ∀ k < d, ∃ e', f.ancestor? id k = some e' ∧ f.bound? e' name = none

/-- What the search finds is bound at some distance, and not before. The induction follows the search outwards. -/
theorem Regular.exists_boundFirstAt (hf : f.Regular) (h : f.find? id name = some (e, v)) :
    ∃ d, f.BoundFirstAt id d name e v := by
  induction id using Nat.strongRecOn with
  | _ id ih =>
    rw [hf.find?_eq] at h
    split at h
    next hBound =>
      cases h
      exact ⟨0, rfl, hBound, by simp⟩
    next hBound =>
      obtain ⟨p, hOuter, hFind⟩ := bind_eq_some_iff.mp h
      obtain ⟨d, hd⟩ := ih p (hf.older hOuter) hFind
      refine ⟨d + 1, ?_, hd.bound, fun k hk => ?_⟩
      · rw [ancestor?_succ, hOuter]
        exact hd.there
      · cases k with
        | zero => exact ⟨id, rfl, hBound⟩
        | succ k =>
          rw [ancestor?_succ, hOuter]
          exact hd.before k (by omega)

/-- Where the search finds nothing, nothing is bound at any distance. -/
theorem Regular.bound?_ancestor (hf : f.Regular) (h : f.find? id name = none)
    (hThere : f.ancestor? id d = some e) : f.bound? e name = none := by
  induction d generalizing id with
  | zero =>
    cases hThere
    exact bound?_of_find?_none h
  | succ d ih =>
    rw [ancestor?_succ] at hThere
    obtain ⟨p, hOuter, hp⟩ := bind_eq_some_iff.mp hThere
    rw [hf.find?_of_unbound (bound?_of_find?_none h), hOuter] at h
    exact ih h hp

/-- **Least distance.** If a name has a value at a distance and at no smaller one, the search finds its binding
there. -/
theorem Regular.boundFirstAt_of_least (hf : f.Regular)
    (hHere : ((getAt id d name).run f).1 = .ok value)
    (hLeast : ∀ k < d, ∀ value, ((getAt id k name).run f).1 ≠ .ok value) :
    ∃ e v, f.find? id name = some (e, v) ∧ f.BoundFirstAt id d name e v := by
  obtain ⟨e, hThere, hHeld⟩ := hf.sound.getAt_eq_ok_iff.mp hHere
  cases hFind : f.find? id name with
  | none =>
    rw [held?_of_unbound (hf.bound?_ancestor hFind hThere)] at hHeld
    cases hHeld
  | some found =>
    obtain ⟨d', hFirst⟩ := hf.exists_boundFirstAt (e := found.1) (v := found.2) hFind
    -- A smaller distance would contradict the leastness of one or the other.
    have hEq : d' = d := by
      rcases Nat.lt_trichotomy d' d with hLt | hEq | hLt
      · obtain ⟨x, hStored⟩ := hf.sound.exists_stored hFirst.bound
        exact absurd (hf.sound.getAt_eq_ok_iff.mpr ⟨_, hFirst.there, held?_of_bound hFirst.bound hStored⟩)
          (hLeast d' hLt _)
      · exact hEq
      · obtain ⟨e', hThere', hFree⟩ := hFirst.before d hLt
        cases hThere.symm.trans hThere'
        rw [held?_of_unbound hFree] at hHeld
        cases hHeld
    exact ⟨found.1, found.2, rfl, hEq ▸ hFirst⟩

/-! ## New bindings -/

/-- A name that is bound nowhere from an environment outwards and then in this environment is found there, from every
environment inside it that has no other binding of it. -/
theorem Regular.find?_bindNew (hf : f.Regular) (hId : id < f.environments.size) (hFree : f.find? id name = none)
    (x : Variable) (i : Nat) (n : String) :
    (f.bindNew id name x).find? i n =
      if n = name ∧ id ∈ f.chain i ∧ f.find? i name = none then some (id, f.slots.size) else f.find? i n := by
  induction i using Nat.strongRecOn with
  | _ i ih =>
    rw [(hf.bindNew id name x).find?_eq, bound?_bindNew, outer?_bindNew]
    by_cases hHere : i < f.environments.size ∧ id = i ∧ n = name
    · obtain ⟨-, rfl, rfl⟩ := hHere
      rw [if_pos ⟨hId, rfl, rfl⟩, if_pos ⟨rfl, by rw [hf.chain_eq]; simp, hFree⟩]
    · rw [if_neg hHere]
      cases hBound : f.bound? i n with
      | some w =>
        rw [find?_of_bound hBound, if_neg]
        rintro ⟨rfl, -, hNone⟩
        rw [find?_of_bound hBound] at hNone
        cases hNone
      | none =>
        have hElsewhere : n = name → id ≠ i := fun hName hEq => hHere ⟨hEq ▸ hId, hEq, hName⟩
        rw [hf.find?_of_unbound hBound]
        cases hOuter : f.outer? i with
        | none =>
          rw [if_neg]
          · rfl
          · rintro ⟨hName, hMem, -⟩
            rw [hf.chain_eq, hOuter] at hMem
            exact hElsewhere hName (by simpa using hMem)
        | some p =>
          rw [bind_some, bind_some, ih p (hf.older hOuter)]
          by_cases hName : n = name
          · subst hName
            have hMem : id ∈ f.chain i ↔ id ∈ f.chain p := by simp [hf.chain_eq i, hOuter, hElsewhere rfl]
            simp only [hMem, hf.find?_of_unbound hBound, hOuter, bind_some]
          · simp only [hName, false_and, if_false]

theorem Sound.held?_bindNew_of_lt (hf : f.Sound) (hId : id < f.environments.size) (x : Variable) (i : Nat)
    (n : String) :
    (f.bindNew id name x).held? i n = if i = id ∧ n = name then some x.value else f.held? i n := by
  rw [hf.held?_bindNew]
  by_cases hHere : i = id ∧ n = name
  · rw [if_pos hHere, if_pos ⟨hHere.1 ▸ hId, hHere.1.symm, hHere.2⟩]
  · rw [if_neg hHere, if_neg fun h => hHere ⟨h.2.1.symm, h.2.2⟩]

theorem Regular.seen?_bindNew (hf : f.Regular) (hId : id < f.environments.size) (hFree : f.find? id name = none)
    (x : Variable) (i : Nat) (n : String) :
    (f.bindNew id name x).seen? i n =
      if n = name ∧ id ∈ f.chain i ∧ f.find? i name = none then some x.value else f.seen? i n := by
  rw [seen?_eq_held?, seen?_eq_held?, hf.find?_bindNew hId hFree]
  by_cases hNew : n = name ∧ id ∈ f.chain i ∧ f.find? i name = none
  · rw [if_pos hNew, if_pos hNew, bind_some, hf.sound.held?_bindNew_of_lt hId, if_pos ⟨rfl, hNew.1⟩]
  · rw [if_neg hNew, if_neg hNew]
    cases hFind : f.find? i n with
    | none => rfl
    | some found =>
      rw [bind_some, bind_some, hf.sound.held?_bindNew_of_lt hId, if_neg]
      -- What was found before is bound, and the new name was not.
      rintro ⟨hEq, rfl⟩
      have hBound := bound?_of_find? (e := found.1) (v := found.2) hFind
      rw [hEq, bound?_of_find?_none hFree] at hBound
      cases hBound

end Forest

/-! ## Assignments and lookups -/

/-- **An assignment touches the nearest binding only.** After operations without forks, let the nearest binding of a
name be in `e` and not constant. Assigning to the name gives its value to lookups of this name from wherever the
nearest binding is in `e`; all other lookups answer as before, and every environment binds the same names. -/
theorem assignment_touches_nearest (hFork : ∀ origin, Operation.fork origin ∉ ops) {x : Variable}
    (hFind : (Forest.empty.after ops).find? id name = some (e, v))
    (hStored : (Forest.empty.after ops).stored? v = some x) (hConstant : x.isConstant = false) (value : Datum)
    (isNonlocal : Bool) :
    let f := Forest.empty.after ops
    let assigned := (Operation.assign id name value isNonlocal).run f
    assigned.1 = .ok .none ∧
    (∀ i n, assigned.2.bound? i n = f.bound? i n) ∧
    ∀ i n, ((Operation.get i n).run assigned.2).1 =
      if n = name ∧ (f.find? i n).map Prod.fst = some e then .ok value else ((Operation.get i n).run f).1 := by
  have hf := Forest.empty_tidy.after hFork
  generalize Forest.empty.after ops = f at hf hFind hStored ⊢
  simp only [Operation.run_assign_of_variable hFind hStored hConstant]
  refine ⟨trivial, fun _ _ => rfl, fun i n => ?_⟩
  refine hf.sound.get_of_seen? (hf.sound.updateVariable v _) (hf.seen?_store (Forest.bound?_of_find? hFind) ?_ i n)
  exact fun _ => rfl

/-- Two environments that bind `x`, one inside the other, and one more inside each. -/
def shadowed : List Operation :=
  [.create none none, .define 0 "x" (.int 1) .local false, .child 0 none, .define 1 "x" (.int 2) .local false,
    .child 1 none, .child 0 none]

/-- The inner binding is assigned from inside; the environment beside it sees the outer one as before. -/
theorem assignment_touches_nearest_shadowed :
    let assigned := (Operation.assign 2 "x" (.int 9) false).run (Forest.empty.after shadowed)
    ((Operation.get 1 "x").run assigned.2).1 = .ok (.int 9) ∧
      ((Operation.get 3 "x").run assigned.2).1 = .ok (.int 1) := by
  have hFork : ∀ origin, Operation.fork origin ∉ shadowed := by simp [shadowed]
  have hFind : (Forest.empty.after shadowed).find? 2 "x" = some (1, 1) := rfl
  obtain ⟨-, -, hGet⟩ := assignment_touches_nearest hFork hFind rfl rfl (.int 9) false
  exact ⟨(hGet 1 "x").trans rfl, (hGet 3 "x").trans rfl⟩

/-- **Lookup by name and by distance agree.** After any operations, a name is known exactly if looking it up gives a
value, and exactly if some distance does. At the least such distance the value is the same, every smaller distance
lacks the name, and if the binding is not constant then storing there and assigning by name leave the same values,
whatever is looked up from whichever environment. -/
theorem lookup_by_name_is_by_distance (hOps : Forest.empty.Admits ops) (id : Nat) (name : String) :
    let f := Forest.empty.after ops
    let byName := ((Operation.get id name).run f).1
    let byDistance := fun d : Nat => ((Operation.getAt id d name).run f).1
    (f.contains id name = true ↔ ∃ value, byName = .ok value) ∧
    (f.contains id name = true ↔ ∃ d value, byDistance d = .ok value) ∧
    ∀ d : Nat, (∃ value, byDistance d = .ok value) → (∀ k < d, ∀ value, byDistance k ≠ .ok value) →
      byName = byDistance d ∧ (∀ k < d, byDistance k = .error (.missing name)) ∧
      ∀ (e v : Nat) (x : Variable), f.find? id name = some (e, v) → f.stored? v = some x → x.isConstant = false →
      ∀ (value : Datum) (isNonlocal : Bool),
        let near := (Operation.assign id name value isNonlocal).run f
        let far := (Operation.assignAt id d name value).run f
        near.1 = .ok .none ∧ far.1 = .ok .none ∧
        ∀ (i k : Nat) (n : String),
          ((Operation.getAt i k n).run near.2).1 = ((Operation.getAt i k n).run far.2).1 ∧
          ((Operation.get i n).run near.2).1 = ((Operation.get i n).run far.2).1 := by
  intro f byName byDistance
  have hf : f.Regular := (Forest.Built.empty.after hOps).regular
  refine ⟨?_, ⟨?_, ?_⟩, ?_⟩
  · simp only [byName, hf.sound.contains_iff, hf.sound.get_eq_ok_iff]
  · intro hContains
    obtain ⟨value, hSeen⟩ := hf.sound.contains_iff.mp hContains
    rw [Forest.seen?_eq_held?] at hSeen
    obtain ⟨found, hFind, hHeld⟩ := Option.bind_eq_some_iff.mp hSeen
    obtain ⟨d, hFirst⟩ := hf.exists_boundFirstAt (e := found.1) (v := found.2) hFind
    exact ⟨d, value, hf.sound.getAt_eq_ok_iff.mpr ⟨_, hFirst.there, hHeld⟩⟩
  · rintro ⟨d, value, hValue⟩
    obtain ⟨e, hThere, hHeld⟩ := hf.sound.getAt_eq_ok_iff.mp hValue
    rw [Forest.contains, Option.isSome_iff_ne_none]
    intro hFind
    rw [Forest.held?_of_unbound (hf.bound?_ancestor hFind hThere)] at hHeld
    cases hHeld
  · rintro d ⟨value, hValue⟩ hLeast
    obtain ⟨e, v, hFind, hFirst⟩ := hf.boundFirstAt_of_least hValue hLeast
    obtain ⟨e', hThere, hHeld⟩ := hf.sound.getAt_eq_ok_iff.mp hValue
    cases hFirst.there.symm.trans hThere
    refine ⟨?_, fun k hk => ?_, ?_⟩
    · have hSeen : f.seen? id name = some value := by rw [Forest.seen?_eq_held?, hFind, Option.bind_some, hHeld]
      exact (hf.sound.get_eq_ok_iff.mpr hSeen).trans hValue.symm
    · obtain ⟨e', hThere', hFree⟩ := hFirst.before k hk
      exact congrArg Prod.fst (Operation.Refused.getMissing hThere' hFree).run_eq
    · intro e' v' x hFind' hStored hConstant value isNonlocal near far
      cases hFind.symm.trans hFind'
      have hNear : near = _ := Operation.run_assign_of_variable hFind hStored hConstant
      have hFar : far = _ := Operation.run_silently_ok
        (run_bind_of_ok (Operation.run_variableAt_of_bound hFirst.there hFirst.bound))
      rw [hNear, hFar]
      exact ⟨rfl, rfl, hf.sound.answers_of_store v fun _ => rfl⟩

theorem shadowed_admitted : Forest.empty.Admits shadowed :=
  ⟨by simp [Operation.Within], trivial, Nat.zero_lt_one, trivial, Nat.one_lt_two, Nat.zero_lt_succ 2, trivial⟩

/-- From the innermost environment `x` is at distance 1, and not at 0. -/
theorem lookup_by_name_is_by_distance_shadowed :
    let f := Forest.empty.after shadowed
    ((Operation.getAt 2 0 "x").run f).1 = .error (.missing "x") ∧
    ((Operation.get 2 "x").run f).1 = ((Operation.getAt 2 1 "x").run f).1 := by
  obtain ⟨-, -, hLeast⟩ := lookup_by_name_is_by_distance shadowed_admitted 2 "x"
  obtain ⟨hSame, hBefore, -⟩ := hLeast 1 ⟨.int 2, rfl⟩ (by
    intro k hk value
    obtain rfl : k = 0 := by omega
    exact fun h => by cases h)
  exact ⟨hBefore 0 (by decide), hSame⟩

/-- **A name that is bound nowhere is bound where it is assigned.** After any operations, let a name be unknown in an
environment. Assigning to it from there binds it there and nowhere else, so in the outermost environment only if that
is where the assignment is made. It is then seen from every environment inside that has no binding of its own or in
between, and all other lookups answer as before. -/
theorem unbound_name_bound_where_assigned (hOps : Forest.empty.Admits ops)
    (hId : id < (Forest.empty.after ops).environments.size)
    (hFree : (Forest.empty.after ops).contains id name = false) (value : Datum) :
    let f := Forest.empty.after ops
    let assigned := (Operation.assign id name value false).run f
    assigned.1 = .ok .none ∧
    (∀ i n, assigned.2.held? i n = if i = id ∧ n = name then some value else f.held? i n) ∧
    (∀ outermost, (f.chain id).getLast? = some outermost →
      (assigned.2.held? outermost name = some value ↔ outermost = id)) ∧
    ∀ i n, ((Operation.get i n).run assigned.2).1 =
      if n = name ∧ id ∈ f.chain i ∧ f.contains i name = false then .ok value else ((Operation.get i n).run f).1 := by
  have hf := (Forest.Built.empty.after hOps).regular
  generalize Forest.empty.after ops = f at hf hId hFree ⊢
  have hContains : ∀ i, f.contains i name = false ↔ f.find? i name = none := fun i => by simp [Forest.contains]
  rw [hContains] at hFree
  have hRun : (Operation.assign id name value false).run f = _ :=
    Operation.run_silently_ok (Operation.run_assign_of_none hFree)
  simp only [hRun, hContains]
  refine ⟨trivial, hf.sound.held?_bindNew_of_lt hId _, fun outermost hLast => ?_, fun i n => ?_⟩
  · have hUnbound : f.bound? outermost name = none := by
      have hNone := List.findSome?_eq_none_iff.mp hFree outermost (List.mem_of_getLast? hLast)
      simpa using hNone
    rw [hf.sound.held?_bindNew_of_lt hId, Forest.held?_of_unbound hUnbound]
    simp
  · exact hf.sound.get_of_seen? (hf.sound.bindNew id name _) (hf.seen?_bindNew hId hFree _ i n)

/-- `y` is assigned in the innermost environment, and is not seen from the one around it. -/
theorem unbound_name_bound_where_assigned_inside :
    let assigned := (Operation.assign 2 "y" (.int 9) false).run (Forest.empty.after shadowed)
    ((Operation.get 2 "y").run assigned.2).1 = .ok (.int 9) ∧
    ((Operation.get 1 "y").run assigned.2).1 = .error (.undefined "y") := by
  have hFree : (Forest.empty.after shadowed).contains 2 "y" = false := rfl
  obtain ⟨-, -, -, hGet⟩ := unbound_name_bound_where_assigned shadowed_admitted (by decide) hFree (.int 9)
  exact ⟨(hGet 2 "y").trans rfl, (hGet 1 "y").trans rfl⟩

/-- A name that is unknown all the way out is assigned, and the outermost environment does not have it. -/
theorem assigned_name_not_outermost :
    let f := Forest.empty.after shadowed
    let assigned := (Operation.assign 2 "y" (.int 9) false).run f
    f.chain 2 = [2, 1, 0] ∧ f.contains 2 "y" = false ∧ assigned.1 = .ok .none ∧
    ((Operation.get 0 "y").run assigned.2).1 = .error (.undefined "y") :=
  ⟨rfl, rfl, rfl, rfl⟩

end Scriptling.Scope
