import Scriptling.Proofs.Script.LibraryTwin

/-!
# Static scope

A call of a function sees what can be reached from the function and its arguments: the scope it was closed over and
the scopes around that one, what these bind, and so on. Where two machines agree on all that, the call does the same
in both, wherever they are at the time, and it changes no other scope of either (`call_statically_scoped`).

That parts of scripts run alike in twins is proved by induction on fuel, over all forms of expression and statement
at once (`runs_twin`). A call may start anywhere, since it goes on in a scope of its own; the other parts start in
scopes that are a pair.
-/

namespace Scriptling.Script

open List
open Datum (ok_of_bind within_null within_of_nil)
open Braced (record)

variable {v : Datum}

/-! ## Parts of scripts -/

theorem field?_within {R : Address → Prop} {r : Datum} {key : String} (h : r.Within R)
    (hField : field? r key = some v) : v.Within R := by
  unfold field? at hField
  rcases hFound : field r key with f | u <;> rw [hFound] at hField <;> cases hField
  exact field_within h hFound

theorem literalValue_within {R : Address → Prop} {d : Dialect} {e : Datum} (he : e.Within R)
    (h : literalValue d (field e "value_type") (field e "value") = .ok v) : v.Within R := by
  cases d with
  | closing =>
    obtain ⟨t, ht, h⟩ := ok_of_bind h
    obtain ⟨p, hp, h⟩ := ok_of_bind h
    cases h
    exact Datum.within_value.mpr ⟨field_within he ht, field_within he hp⟩
  | basic =>
    obtain ⟨t, -, h⟩ := ok_of_bind h
    split at h
    · obtain ⟨p, -, h⟩ := ok_of_bind h
      obtain ⟨x, -, h⟩ := ok_of_bind h
      cases h
      exact Datum.within_of_nil rfl
    · obtain ⟨p, hp, h⟩ := ok_of_bind h
      cases h
      exact Datum.within_tagged.mpr (field_within he hp)
    · obtain ⟨p, hp, h⟩ := ok_of_bind h
      cases h
      exact Datum.within_tagged.mpr (field_within he hp)
    · cases h
      exact within_null

namespace Sharing

variable {K : Sharing} {d : Dialect} {n c1 c2 least : Nat}

/-- A shared scope, or none, may be the scope around new ones. -/
theorem pairedParents_scopeOf {m1 m2 : Machine} (h : K.Twin c1 c2 least m1 m2) (hv : v.Within K.shared) :
    K.PairedParents m1.frames.size m2.frames.size (scopeOf v) (scopeOf v) := by
  unfold scopeOf
  split
  next id =>
    have hId := Datum.within_frame.mp hv
    obtain ⟨hOld1, hOld2⟩ := h.frames.old id hId
    have hLe := h.frames.size_le
    have hSizes := h.frames.sizes
    exact ⟨.inl ⟨rfl, hId⟩, by omega, by omega⟩
  · trivial

variable (K d n) in
/-- With `n` units of fuel, parts of scripts that lead only to what is shared run alike in twins. -/
structure RunsTwin [Size.Room] : Prop where
  evaluate : ∀ {c1 c2 least : Nat}, K.Here c1 c2 least → ∀ {e : Datum}, e.Within K.shared →
    K.Gives c1 c2 least (evaluate d n e)
  evaluateAll : ∀ {c1 c2 least : Nat}, K.Here c1 c2 least → ∀ {es : List Datum}, (∀ e ∈ es, e.Within K.shared) →
    K.RunsSame c1 c2 least (fun vs => ∀ v ∈ vs, v.Within K.shared) (evaluateAll d n es)
  call : ∀ {c1 c2 least : Nat} {callee : Datum} {args : List Datum}, callee.Within K.shared →
    (∀ v ∈ args, v.Within K.shared) → K.Gives c1 c2 least (call d n callee args)
  execute : ∀ {c1 c2 least : Nat}, K.Here c1 c2 least → ∀ {s : Datum}, s.Within K.shared →
    K.Gives c1 c2 least (execute d n s)
  block : ∀ {c1 c2 least : Nat}, K.Here c1 c2 least → ∀ {ss : Datum}, ss.Within K.shared →
    K.Gives c1 c2 least (block d n ss)
  executeAll : ∀ {c1 c2 least : Nat}, K.Here c1 c2 least → ∀ {ss : List Datum} {last : Datum},
    (∀ s ∈ ss, s.Within K.shared) → last.Within K.shared → K.Gives c1 c2 least (executeAll d n ss last)
  loop : ∀ {c1 c2 least : Nat}, K.Here c1 c2 least → ∀ {s : Datum}, s.Within K.shared → K.Gives c1 c2 least (loop d n s)
  whileLoop : ∀ {c1 c2 least : Nat}, K.Here c1 c2 least → ∀ {s : Datum}, s.Within K.shared →
    K.Gives c1 c2 least (whileLoop d n s)

namespace RunsTwin

variable [Size.Room] {s : Datum} (h : RunsTwin K d n)

include h

/-- A function of a script goes on in a scope of its own, so the current scopes do not matter. -/
theorem call_succ {callee : Datum} {args : List Datum} (hCallee : callee.Within K.shared)
    (hArgs : ∀ v ∈ args, v.Within K.shared) : K.Gives c1 c2 least (Script.call d (n + 1) callee args) := by
  rw [Script.call]
  refine lift_bind_alike fun tag _ => lift_bind_alike fun payload hPayload => ?_
  have hWithin := payloadOf_within hCallee hPayload
  split
  · exact callNative_alike hWithin hArgs
  · split
    · exact .throw trivial
    · split
      · exact .throw trivial
      · refine lift_bind_alike fun _ _ => lift_bind_alike fun params _ => ?_
        extract_lets enter
        have hEnter : ∀ u, K.Gives c1 c2 least (enter u) := by
          refine fun _ => lift_bind_alike fun closure hClosure => ?_
          have hScope := field_within hWithin hClosure
          refine newFrame_bind_alike (fun _ _ hm => pairedParents_scopeOf hm hScope) fun s1 s2 hs => ?_
          refine (bindParams_alike hs params hArgs).bind fun _ _ => lift_bind_alike fun body hBody => ?_
          refine lift_bind_alike fun ss hss => ?_
          have hStatements := Datum.items_within (field_within hWithin hBody) hss
          refine Alike.tryCatch (G := K.SignalWithin) (within_alike ?_) fun s hSignal => ?_
          · exact h.executeAll ⟨hs, Nat.lt_succ_self s1⟩ hStatements within_null
          · split
            · exact .pure hSignal
            · exact .throw hSignal
        split
        · exact .throw trivial
        · exact hEnter ()

variable (hHere : K.Here c1 c2 least)

include hHere

theorem evaluate_succ {e : Datum} (he : e.Within K.shared) : K.Gives c1 c2 least (Script.evaluate d (n + 1) e) := by
  rw [Script.evaluate]
  refine lift_bind_alike fun kind _ => ?_
  split
  · exact lift_alike fun v hv => literalValue_within he hv
  · exact lift_bind_alike fun _ _ => lift_bind_alike fun name _ => lookup_alike hHere name
  · refine lift_bind_alike fun value hValue => ?_
    refine (h.evaluate hHere (field_within he hValue)).bind fun v hv => lift_bind_alike fun _ _ => ?_
    exact lift_bind_alike fun name _ => (assign_alike hHere name hv).bind fun _ _ => .pure hv
  · refine lift_bind_alike fun l hl => (h.evaluate hHere (field_within he hl)).bind fun left hLeft => ?_
    refine lift_bind_alike fun r hr => (h.evaluate hHere (field_within he hr)).bind fun right hRight => ?_
    exact applyOperator_alike d e hLeft hRight
  · refine lift_bind_alike fun f hf => (h.evaluate hHere (field_within he hf)).bind fun callee hCallee => ?_
    refine lift_bind_alike fun as has => lift_bind_alike fun es hes => ?_
    have hWithin := Datum.items_within (field_within he has) hes
    exact (h.evaluateAll hHere hWithin).bind fun args hArgs => h.call hCallee hArgs
  · exact .throw trivial

theorem evaluateAll_succ {es : List Datum} (hes : ∀ e ∈ es, e.Within K.shared) :
    K.RunsSame c1 c2 least (fun vs => ∀ v ∈ vs, v.Within K.shared) (Script.evaluateAll d (n + 1) es) := by
  cases es with
  | nil => exact .pure hes
  | cons e es =>
    obtain ⟨he, hes⟩ := forall_mem_cons.mp hes
    refine (h.evaluate hHere he).bind fun v hv => (h.evaluateAll hHere hes).bind fun vs hvs => ?_
    exact .pure (forall_mem_cons.mpr ⟨hv, hvs⟩)

theorem block_succ {ss : Datum} (hss : ss.Within K.shared) : K.Gives c1 c2 least (Script.block d (n + 1) ss) := by
  rw [Script.block]
  refine Alike.get_bind fun m1 m2 hm => ?_
  rw [hm.current1, hm.current2]
  refine newFrame_bind_alike (fun m1 m2 hm => ?_) fun s1 s2 hs => within_alike (lift_bind_alike fun items hItems => ?_)
  · have hSize : c1 < m1.frames.size := Nat.lt_of_lt_of_le hHere.there hm.least_le
    exact ⟨hHere.pair, hSize, hm.frames.lt_size hHere.pair hSize⟩
  · exact h.executeAll ⟨hs, Nat.lt_succ_self s1⟩ (Datum.items_within hss hItems) within_null

theorem execute_succ (hs : s.Within K.shared) : K.Gives c1 c2 least (Script.execute d (n + 1) s) := by
  rw [Script.execute]
  refine lift_bind_alike fun kind _ => ?_
  split
  · exact lift_bind_alike fun e he => h.evaluate hHere (field_within hs he)
  · refine lift_bind_alike fun e he => (h.evaluate hHere (field_within hs he)).bind fun v hv => ?_
    exact (textOf_alike hv).bind fun text _ => (print_alike _).bind fun _ _ => .pure within_null
  · extract_lets bindIt
    have hBind : ∀ v, v.Within K.shared → K.Gives c1 c2 least (bindIt v) := fun v hv =>
      lift_bind_alike fun _ _ => lift_bind_alike fun name _ =>
        (define_alike hHere name hv).bind fun _ _ => .pure hv
    split
    next e he => exact (h.evaluate hHere (field?_within hs he)).bind hBind
    · exact (Alike.pure (Q := Datum.Within K.shared) within_null).bind hBind
  · exact lift_bind_alike fun ss hss => h.block hHere (field_within hs hss)
  · refine lift_bind_alike fun c hc => (h.evaluate hHere (field_within hs hc)).bind fun v hv => ?_
    refine (isTrue_alike hv).bind fun holds _ => ?_
    split
    · exact lift_bind_alike fun t ht => h.execute hHere (field_within hs ht)
    · split
      next other hOther => exact h.execute hHere (field?_within hs hOther)
      · exact .pure within_null
  · exact h.loop hHere hs
  · exact h.whileLoop hHere hs
  · have hValue : (Datum.tagged .function s).Within K.shared := Datum.within_tagged.mpr hs
    refine lift_bind_alike fun _ _ => lift_bind_alike fun name _ => ?_
    exact (define_alike hHere name hValue).bind fun _ _ => .pure hValue
  · split
    next e he => exact (h.evaluate hHere (field?_within hs he)).bind fun v hv => .throw hv
    · exact .throw within_null
  · exact .throw trivial

theorem executeAll_succ {ss : List Datum} {last : Datum} (hss : ∀ s ∈ ss, s.Within K.shared)
    (hLast : last.Within K.shared) : K.Gives c1 c2 least (Script.executeAll d (n + 1) ss last) := by
  cases ss with
  | nil => exact .pure hLast
  | cons s ss =>
    obtain ⟨hs, hss⟩ := forall_mem_cons.mp hss
    exact (h.execute hHere hs).bind fun v hv => h.executeAll hHere hss hv

theorem loop_succ (hs : s.Within K.shared) : K.Gives c1 c2 least (Script.loop d (n + 1) s) := by
  rw [Script.loop]
  refine Alike.bind (Q := fun _ => True) (Alike.tryCatch (G := K.SignalWithin) ?_ fun signal hSignal => ?_) ?_
  · refine lift_bind_alike fun body hBody => ?_
    exact (h.block hHere (field_within hs hBody)).bind fun _ _ => .pure trivial
  · split
    · exact .pure trivial
    · exact .throw hSignal
  · intro left _
    split
    · exact .pure within_null
    · exact h.loop hHere hs

theorem whileLoop_succ (hs : s.Within K.shared) : K.Gives c1 c2 least (Script.whileLoop d (n + 1) s) := by
  rw [Script.whileLoop]
  refine lift_bind_alike fun c hc => (h.evaluate hHere (field_within hs hc)).bind fun v hv => ?_
  refine (isTrue_alike hv).bind fun holds _ => ?_
  split
  · refine lift_bind_alike fun body hBody => (h.execute hHere (field_within hs hBody)).bind fun _ _ => ?_
    exact h.whileLoop hHere hs
  · exact .pure within_null

end RunsTwin

/-- **Scripts run alike in twins**, if they lead only to what the twins share. -/
theorem runs_twin [Size.Room] (K : Sharing) (d : Dialect) (n : Nat) : RunsTwin K d n := by
  induction n with
  | zero => constructor <;> intros <;> exact .throw trivial
  | succ n ih =>
    constructor
    case evaluate => exact fun hHere _ => ih.evaluate_succ hHere
    case evaluateAll => exact fun hHere _ => ih.evaluateAll_succ hHere
    case call => exact ih.call_succ
    case execute => exact fun hHere _ => ih.execute_succ hHere
    case block => exact fun hHere _ => ih.block_succ hHere
    case executeAll => exact fun hHere _ _ => ih.executeAll_succ hHere
    case loop => exact fun hHere _ => ih.loop_succ hHere
    case whileLoop => exact fun hHere _ => ih.whileLoop_succ hHere

end Sharing

/-! ## What can be reached -/

namespace Machine

/-- All that values lead to in a machine: what they name, the scopes around scopes, what scopes bind and cells hold. -/
inductive Reaches (m : Machine) (roots : List Datum) : Address → Prop where
  | root {d a} : d ∈ roots → a ∈ d.addresses → Reaches m roots a
  | around {id p f} : Reaches m roots (.frame id) → m.frames[id]? = some f → f.parent = some p →
      Reaches m roots (.frame p)
  | bound {id f b a} : Reaches m roots (.frame id) → m.frames[id]? = some f → b ∈ f.bindings → a ∈ b.2.addresses →
      Reaches m roots a
  | held {id a} : Reaches m roots (.cell id) → a ∈ (m.world.store.getD id .none).addresses → Reaches m roots a

/-- What can be reached from addresses with the property has it too. -/
structure Closed (m : Machine) (R : Address → Prop) : Prop where
  around : ∀ (id : Nat) (f : Frame) (p : Nat), R (.frame id) → m.frames[id]? = some f → f.parent = some p → R (.frame p)
  bound : ∀ (id : Nat) (f : Frame), R (.frame id) → m.frames[id]? = some f → ∀ b ∈ f.bindings, b.2.Within R
  held : m.world.store.Holds R

theorem closed_reaches (m : Machine) (roots : List Datum) : m.Closed (m.Reaches roots) where
  around := fun _ _ _ hId hf hp => .around hId hf hp
  bound := fun _ _ hId hf _ hb _ ha => .bound hId hf hb ha
  held := fun _ hId _ ha => .held hId ha

/-- What is reached is the least that nothing leads out of. -/
theorem Closed.of_reaches {m : Machine} {R : Address → Prop} (h : m.Closed R) {roots : List Datum}
    (hRoots : ∀ d ∈ roots, d.Within R) {a : Address} (ha : m.Reaches roots a) : R a := by
  induction ha with
  | root hd ha => exact hRoots _ hd _ ha
  | around _ hf hp ih => exact h.around _ _ _ ih hf hp
  | bound _ hf hb ha ih => exact h.bound _ _ ih hf _ hb _ ha
  | held _ ha ih => exact h.held _ ih _ ha

/-- If it is a scope, the machine has it. -/
def Present (m : Machine) : Address → Prop
  | .frame id => id < m.frames.size
  | _ => True

/-- All scopes that are named are there, and the scope around each is older. -/
structure Formed (m : Machine) : Prop where
  closed : m.Closed m.Present
  older : ∀ (id : Nat) (f : Frame) (p : Nat), m.frames[id]? = some f → f.parent = some p → p < id

/-- What is the same in two machines. Where a function of the library is told, so are the files and random numbers it
may touch, and a new cell has the same number in both. -/
structure AgreeOn (R : Address → Prop) (m1 m2 : Machine) : Prop where
  frames : ∀ id, R (.frame id) → m1.frames[id]? = m2.frames[id]?
  cells : Store.AgreeOn R m1.world.store m2.world.store
  countdowns : ∀ index, R (.countdown index) → m1.countdowns[index]? = m2.countdowns[index]?
  input : m1.world.console.input = m2.world.console.input
  library : ∀ n : Native, R (.native n.name) → m1.world.store.size = m2.world.store.size ∧
    m1.world.files = m2.world.files ∧ m1.world.dice = m2.world.dice

end Machine

namespace Sharing

/-! ## Machines that agree are twins -/

/-- The machines share what is told and, if a function of the library is among it, all cells to come. -/
def between (R : Address → Prop) (m1 m2 : Machine) : Sharing where
  shared a := R a ∨ (∃ n : Native, R (.native n.name)) ∧ ∃ id, a = .cell id ∧ m1.world.store.size ≤ id
  first := m1
  second := m2

variable {R : Address → Prop} {m1 m2 : Machine}

theorem between_frame_iff {id : Nat} : (between R m1 m2).shared (.frame id) ↔ R (.frame id) := by simp [between]

theorem between_countdown_iff {index : Nat} : (between R m1 m2).shared (.countdown index) ↔ R (.countdown index) := by
  simp [between]

theorem between_native_iff {name : String} : (between R m1 m2).shared (.native name) ↔ R (.native name) := by
  simp [between]

theorem within_between (h : v.Within R) : v.Within (between R m1 m2).shared := fun a ha => .inl (h a ha)

theorem library_between_iff : (between R m1 m2).Library ↔ ∃ n : Native, R (.native n.name) := by
  simp only [Library, between_native_iff]

variable (hClosed : m1.Closed R) (hThere : ∀ id, R (.frame id) → id < m1.frames.size)
  (hOlder : ∀ (id : Nat) (f : Frame) (p : Nat), R (.frame id) → m1.frames[id]? = some f → f.parent = some p → p < id)
  (hAgree : Machine.AgreeOn R m1 m2)

include hClosed hAgree

include hThere hOlder in
theorem framesTwin_between : (between R m1 m2).FramesTwin m1.frames m2.frames where
  old := by
    intro id hId
    have hSize := hThere id (between_frame_iff.mp hId)
    have hSame := hAgree.frames id (between_frame_iff.mp hId)
    rw [Array.getElem?_eq_getElem hSize] at hSame
    exact ⟨hSize, (Array.getElem?_eq_some_iff.mp hSame.symm).1⟩
  size_le := Nat.le_refl _
  sizes := Nat.add_comm _ _
  alike := by
    rintro s1 s2 (⟨rfl, hs⟩ | ⟨hNew, -⟩) hSize
    · have hReached := between_frame_iff.mp hs
      have hf : m1.frames[s1]? = some m1.frames[s1] := Array.getElem?_eq_getElem hSize
      refine ⟨_, _, hf, (hAgree.frames s1 hReached).symm.trans hf, rfl, ?_, ?_⟩
      · exact fun b hb => within_between (hClosed.bound s1 _ hReached hf b hb)
      · cases hp : m1.frames[s1].parent with
        | none => trivial
        | some p =>
          have hLess := hOlder s1 _ p hReached hf hp
          exact ⟨.inl ⟨rfl, between_frame_iff.mpr (hClosed.around s1 _ p hReached hf hp)⟩, hLess, hLess⟩
    · exact absurd hSize (Nat.not_lt.mpr hNew)
  kept := fun _ _ => ⟨fun _ => rfl, fun _ => rfl⟩

theorem worldTwin_between : (between R m1 m2).WorldTwin m1.world m2.world where
  holds := by
    rintro id (hId | ⟨-, other, hOther, hSize⟩)
    · exact within_between (hClosed.held id hId)
    · cases hOther
      rw [Array.getD_eq_getD_getElem?, Array.getElem?_eq_none hSize]
      exact Datum.within_of_nil rfl
  agree := by
    rintro id (hId | ⟨⟨n, hn⟩, other, hOther, hSize⟩)
    · exact hAgree.cells id hId
    · cases hOther
      have hSize2 : m2.world.store.size ≤ id := (hAgree.library n hn).1 ▸ hSize
      simp only [Array.getD_eq_getD_getElem?, Array.getElem?_eq_none hSize, Array.getElem?_eq_none hSize2]
  console := by
    refine ⟨"", m1.world.console.input, ?_, ?_⟩
    · simp [between]
    · simp [between, hAgree.input]
  library := by
    intro hLib
    obtain ⟨n, hn⟩ := library_between_iff.mp hLib
    obtain ⟨hSize, hFiles, hDice⟩ := hAgree.library n hn
    exact ⟨hSize, hFiles, hDice, fun id hId => .inr ⟨⟨n, hn⟩, id, rfl, hId⟩⟩

include hThere hOlder

theorem twin_between : (between R m1 m2).Twin m1.current m2.current m1.frames.size m1 m2 where
  frames := framesTwin_between hClosed hThere hOlder hAgree
  world := worldTwin_between hClosed hAgree
  countdowns := fun index hIndex => hAgree.countdowns index (between_countdown_iff.mp hIndex)
  current1 := rfl
  current2 := rfl
  least_le := Nat.le_refl _

omit hClosed hThere hOlder hAgree in
theorem Twin.agreeOn {c1 c2 least : Nat} {n1 n2 : Machine} (h : (between R m1 m2).Twin c1 c2 least n1 n2) :
    Machine.AgreeOn R n1 n2 where
  frames := by
    intro id hId
    have hShared : (between R m1 m2).shared (.frame id) := between_frame_iff.mpr hId
    obtain ⟨hOld, -⟩ := h.frames.old id hShared
    have hSize : id < n1.frames.size := Nat.lt_of_lt_of_le hOld h.frames.size_le
    obtain ⟨⟨bs1, p1⟩, ⟨bs2, p2⟩, hf1, hf2, hBindings, -, hParents⟩ :=
      h.frames.alike id id (.inl ⟨rfl, hShared⟩) hSize
    obtain rfl : bs1 = bs2 := hBindings
    -- the scope around a shared one is older, so it is no new one
    have hSame : p1 = p2 := by
      rcases p1 with _ | p1 <;> rcases p2 with _ | p2
      · rfl
      · exact hParents.elim
      · exact hParents.elim
      · obtain ⟨⟨rfl, -⟩ | ⟨hNew, -⟩, hLess, -⟩ := hParents
        · rfl
        · omega
    rw [hf1, hf2, hSame]
  cells := fun id hId => h.world.agree id (.inl hId)
  countdowns := fun index hIndex => h.countdowns index (.inl hIndex)
  input := by
    obtain ⟨text, input, h1, h2⟩ := h.world.console
    rw [h1, h2]
  library := by
    intro n hn
    obtain ⟨hSize, hFiles, hDice, -⟩ := h.world.library (library_between_iff.mpr ⟨n, hn⟩)
    exact ⟨hSize, hFiles, hDice⟩

end Sharing

open Sharing

/-! ## Scopes stay well formed -/

namespace Machine

theorem AgreeOn.refl (R : Address → Prop) (m : Machine) : AgreeOn R m m :=
  ⟨fun _ _ => rfl, fun _ _ => rfl, fun _ _ => rfl, rfl, fun _ _ => ⟨rfl, rfl, rfl⟩⟩

namespace Formed

variable {m : Machine}

theorem twin (h : m.Formed) : (between m.Present m m).Twin m.current m.current m.frames.size m m :=
  twin_between h.closed (fun _ hId => hId) (fun id f p _ => h.older id f p) (.refl _ m)

theorem of_twin {n : Machine} {c least : Nat} (h : (between m.Present m m).Twin c c least n n) : n.Formed := by
  have hPresent : ∀ a, (between m.Present m m).shared a → n.Present a := by
    rintro (id | id | name | index) ha
    · exact Nat.lt_of_lt_of_le (between_frame_iff.mp ha) h.frames.size_le
    all_goals trivial
  -- every scope is paired with itself, so it is known what it binds and what is around it
  have hScope : ∀ (id : Nat) (f : Frame), n.frames[id]? = some f → (between m.Present m m).FrameTwin id id f f := by
    intro id f hf
    have hPair : (between m.Present m m).Pair id id := by
      rcases Nat.lt_or_ge id m.frames.size with hOld | hNew
      · exact .inl ⟨rfl, .inl hOld⟩
      · exact .inr ⟨hNew, rfl⟩
    obtain ⟨f1, f2, hf1, hf2, hTwin⟩ := h.frames.alike id id hPair (Array.getElem?_eq_some_iff.mp hf).1
    rw [hf] at hf1 hf2
    cases hf1
    cases hf2
    exact hTwin
  have hOlder : ∀ (id : Nat) (f : Frame) (p : Nat), n.frames[id]? = some f → f.parent = some p → p < id := by
    intro id f p hf hp
    have hParents := (hScope id f hf).parents
    rw [hp] at hParents
    exact hParents.2.1
  refine ⟨⟨fun id f p hId hf hp => ?_, fun id f _ hf b hb a ha => ?_, fun id _ a ha => ?_⟩, hOlder⟩
  · exact Nat.lt_trans (hOlder id f p hf hp) hId
  · exact hPresent a ((hScope id f hf).within b hb a ha)
  · exact hPresent a (h.world.holds id (.inl trivial) a ha)

/-- Whatever statements do, scopes stay well formed. -/
theorem executeAll [Size.Room] (h : m.Formed) (hHere : m.current < m.frames.size) (d : Dialect) (fuel : Nat)
    {ss : List Datum} {last : Datum} (hss : ∀ s ∈ ss, s.Within m.Present) (hLast : last.Within m.Present) :
    ((Script.executeAll d fuel ss last).run m).2.Formed := by
  have hPair : (between m.Present m m).Pair m.current m.current := .inl ⟨rfl, .inl hHere⟩
  have hShared : ∀ s ∈ ss, s.Within (between m.Present m m).shared := fun s hs => within_between (hss s hs)
  have hRun := (runs_twin _ d fuel).executeAll ⟨hPair, hHere⟩ hShared (within_between hLast)
  exact of_twin (hRun m m h.twin).2.2

end Formed

theorem formed_start (console : Console) (files : FileTree) : (Machine.start (.start console files)).Formed := by
  refine ⟨⟨fun id f p _ hf hp => ?_, fun id f _ hf b hb => ?_, fun id _ => ?_⟩, fun id f p hf hp => ?_⟩
  · cases eq_of_start hf
    cases hp
  · cases eq_of_start hf
    obtain ⟨c, -, rfl⟩ := mem_map.mp hb
    exact within_of_nil rfl
  · exact within_of_nil rfl
  · cases eq_of_start hf
    cases hp

end Machine

/-! ## Calls -/

/-- **Functions are statically scoped.** Take two machines that agree on all that can be reached from a function and
its arguments, and on the input. Wherever the machines are, a call ends the same in both and prints the same; they
still agree on all that could be reached, and each is where it was. No other scope of either has changed. -/
theorem call_statically_scoped [Size.Room] (d : Dialect) (fuel : Nat) (callee : Datum) (args : List Datum)
    (m₁ m₂ : Machine) (hFormed : m₁.Formed) (hRoots : ∀ v ∈ callee :: args, v.Within m₁.Present)
    (hAgree : Machine.AgreeOn (m₁.Reaches (callee :: args)) m₁ m₂) :
    ∃ outcome n₁ n₂, (call d fuel callee args).run m₁ = (outcome, n₁) ∧
      (call d fuel callee args).run m₂ = (outcome, n₂) ∧
      (∃ text, n₁.world.console.out = m₁.world.console.out ++ text ∧
        n₂.world.console.out = m₂.world.console.out ++ text) ∧
      Machine.AgreeOn (m₁.Reaches (callee :: args)) n₁ n₂ ∧ n₁.current = m₁.current ∧ n₂.current = m₂.current ∧
      ∀ (id : Nat) (f : Frame), ¬ m₁.Reaches (callee :: args) (.frame id) →
        (m₁.frames[id]? = some f → n₁.frames[id]? = some f) ∧ (m₂.frames[id]? = some f → n₂.frames[id]? = some f) := by
  have hClosed := m₁.closed_reaches (callee :: args)
  have hThere : ∀ id, m₁.Reaches (callee :: args) (.frame id) → id < m₁.frames.size :=
    fun _ hId => hFormed.closed.of_reaches hRoots hId
  have hTwin := twin_between hClosed hThere (fun id f p _ => hFormed.older id f p) hAgree
  have hReached : ∀ v ∈ callee :: args, v.Within (between (m₁.Reaches (callee :: args)) m₁ m₂).shared :=
    fun v hv => within_between fun _ ha => .root hv ha
  obtain ⟨hCallee, hArgs⟩ := forall_mem_cons.mp hReached
  obtain ⟨hSame, -, hAfter⟩ := (runs_twin _ d fuel).call hCallee hArgs m₁ m₂ hTwin
  rcases hRun₁ : (call d fuel callee args).run m₁ with ⟨outcome, n₁⟩
  rcases hRun₂ : (call d fuel callee args).run m₂ with ⟨outcome₂, n₂⟩
  rw [hRun₁, hRun₂] at hSame hAfter
  obtain rfl : outcome = outcome₂ := hSame
  obtain ⟨text, input, h₁, h₂⟩ := hAfter.world.console
  refine ⟨outcome, n₁, n₂, rfl, rfl, ⟨text, congrArg Console.out h₁, congrArg Console.out h₂⟩, hAfter.agreeOn,
    hAfter.current1, hAfter.current2, fun id f hId => ?_⟩
  have hOwn : ¬ (between (m₁.Reaches (callee :: args)) m₁ m₂).shared (.frame id) := mt between_frame_iff.mp hId
  exact (hAfter.frames.kept id hOwn).imp (fun hKept hf => (hKept (Array.getElem?_eq_some_iff.mp hf).1).trans hf)
    fun hKept hf => (hKept (Array.getElem?_eq_some_iff.mp hf).1).trans hf

/-! A counter that is closed over a scope of its own, called from the global scope and from a scope with a variable
of the same name. -/

def counterBlock : Datum :=
  record [("type", .str "block"), ("statements", .list [record [("type", .str "var"), ("name", .str "x"),
    ("initializer", record [("type", .str "literal"), ("value_type", .tag .number), ("value", .int 1)])]])]

/-- Adds its argument to the variable and returns the sum. -/
def counter : Datum :=
  let x := record [("type", .str "variable"), ("name", .str "x")]
  let y := record [("type", .str "variable"), ("name", .str "y")]
  let sum := record [("type", .str "binary"), ("operator", .str "+"), ("left", x), ("right", y)]
  let store := record [("type", .str "assign"), ("name", .str "x"), ("value", sum)]
  .tagged .function (record [("params", .list [.str "y"]), ("closure", .frame 1),
    ("body", .list [record [("type", .str "return"), ("value", store)]])])

-- What follows is computed on an ordinary machine.
attribute [local instance] Size.ordinary

def counterHome : Machine := ((executeAll .closing 9 [counterBlock] .null).run (.start (.start default default))).2

/-- The machine in another scope, which binds the same name. -/
def counterAway : Machine :=
  { counterHome with
    frames := counterHome.frames.push ⟨[("x", .tagged .number (.int 99))], some 0⟩
    current := counterHome.frames.size }

theorem call_statically_scoped_counter :
    counterHome.Formed ∧ (∀ v ∈ [counter, .tagged .number (.int 2)], v.Within counterHome.Present) ∧
    Machine.AgreeOn (counterHome.Reaches [counter, .tagged .number (.int 2)]) counterHome counterAway ∧
    ∃ n₁ n₂, (call .closing 9 counter [.tagged .number (.int 2)]).run counterHome =
        (.ok (.tagged .number (.int 3)), n₁) ∧
      (call .closing 9 counter [.tagged .number (.int 2)]).run counterAway = (.ok (.tagged .number (.int 3)), n₂) ∧
      n₂.frames[counterHome.frames.size]? = some ⟨[("x", .tagged .number (.int 99))], some 0⟩ := by
  have hSize : counterHome.frames.size = 2 := by with_unfolding_all rfl
  have hOutcome : ((call .closing 9 counter [.tagged .number (.int 2)]).run counterHome).1 =
      .ok (.tagged .number (.int 3)) := by with_unfolding_all rfl
  have hFormed : counterHome.Formed :=
    (Machine.formed_start _ _).executeAll Nat.one_pos _ _ (forall_mem_singleton.mpr (Datum.within_of_nil rfl))
      Datum.within_null
  have hRoots : ∀ v ∈ [counter, .tagged .number (.int 2)], v.Within counterHome.Present := by
    have hCounter : counter.Within counterHome.Present := by
      have hNames : counter.addresses = [.frame 1] := rfl
      intro a ha
      rw [hNames, mem_singleton] at ha
      subst ha
      show 1 < counterHome.frames.size
      omega
    exact forall_mem_cons.mpr ⟨hCounter, forall_mem_singleton.mpr (Datum.within_of_nil rfl)⟩
  have hThere : ∀ id, counterHome.Reaches [counter, .tagged .number (.int 2)] (.frame id) →
      id < counterHome.frames.size := fun _ hId => hFormed.closed.of_reaches hRoots hId
  have hAgree : Machine.AgreeOn (counterHome.Reaches [counter, .tagged .number (.int 2)]) counterHome counterAway := by
    refine { Machine.AgreeOn.refl _ counterHome with frames := fun id hId => ?_ }
    have hOld := hThere id hId
    rw [counterAway, Array.getElem?_push, if_neg (Nat.ne_of_lt hOld)]
  obtain ⟨outcome, n₁, n₂, h₁, h₂, -, -, -, -, hKept⟩ :=
    call_statically_scoped .closing 9 counter [.tagged .number (.int 2)] counterHome counterAway hFormed hRoots hAgree
  obtain rfl : outcome = .ok (.tagged .number (.int 3)) := by rw [← hOutcome, h₁]
  refine ⟨hFormed, hRoots, hAgree, n₁, n₂, h₁, h₂, (hKept _ _ fun hId => Nat.lt_irrefl _ (hThere _ hId)).2 ?_⟩
  rw [counterAway, Array.getElem?_push, if_pos rfl]

end Scriptling.Script
