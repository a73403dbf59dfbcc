import Scriptling.Proofs.Script.Address
import Scriptling.Proofs.Script.Bindings
import Scriptling.Proofs.Script.Restore
import Scriptling.Proofs.TwoRuns

/-!
# Machines side by side

Two machines share some scopes, cells and functions, and have others of their own. A run that is started in both of
them, on values that lead only to what they share, makes new scopes in both; these have different numbers, but stand
in the same order. So the scopes of the two runs come in pairs: a shared one with itself, and a new one with the one
that is as far behind the scopes that were there at first (`Sharing.Pair`). The machines are twins as long as paired
scopes bind the same names to the same values, which lead only to what is shared, and no other scope has changed.
-/

namespace Scriptling.Script

open Frames Alike Console

/-- What two machines share, and the machines as they were at first. -/
structure Sharing where
  shared : Address → Prop
  first : Machine
  second : Machine

namespace Sharing

variable (K : Sharing)

/-! ## Scopes in pairs -/

/-- The scopes are one that is shared, or both new and equally far behind the old ones. -/
def Pair (s1 s2 : Nat) : Prop :=
  s1 = s2 ∧ K.shared (.frame s1) ∨ K.first.frames.size ≤ s1 ∧ s1 + K.second.frames.size = s2 + K.first.frames.size

/-- The scopes around two scopes are a pair of older ones, or both have none. -/
def PairedParents (s1 s2 : Nat) : Option Nat → Option Nat → Prop
  | none, none => True
  | some p1, some p2 => K.Pair p1 p2 ∧ p1 < s1 ∧ p2 < s2
  | _, _ => False

/-- Scopes with the same bindings and parents in pairs. -/
structure FrameTwin (s1 s2 : Nat) (f1 f2 : Frame) : Prop where
  bindings : f1.bindings = f2.bindings
  within : ∀ b ∈ f1.bindings, b.2.Within K.shared
  parents : K.PairedParents s1 s2 f1.parent f2.parent

/-- All scopes in pairs; the scopes that are not shared have not changed. -/
structure FramesTwin (fs1 fs2 : Frames) : Prop where
  old : ∀ id, K.shared (.frame id) → id < K.first.frames.size ∧ id < K.second.frames.size
  size_le : K.first.frames.size ≤ fs1.size
  sizes : fs1.size + K.second.frames.size = fs2.size + K.first.frames.size
  alike : ∀ s1 s2, K.Pair s1 s2 → s1 < fs1.size →
    ∃ f1 f2, fs1[s1]? = some f1 ∧ fs2[s2]? = some f2 ∧ K.FrameTwin s1 s2 f1 f2
  kept : ∀ id, ¬ K.shared (.frame id) → (id < K.first.frames.size → fs1[id]? = K.first.frames[id]?) ∧
    (id < K.second.frames.size → fs2[id]? = K.second.frames[id]?)

variable {K}

namespace FramesTwin

variable {fs1 fs2 : Frames} {s1 s2 t1 t2 : Nat}

theorem bindings_define_congr {f1 f2 : Frame} (h : f1.bindings = f2.bindings) (name : String) (v : Datum) :
    (f1.define name v).bindings = (f2.define name v).bindings := by
  obtain ⟨bs1, p1⟩ := f1
  obtain ⟨bs2, p2⟩ := f2
  obtain rfl : bs1 = bs2 := h
  unfold Frame.define
  by_cases hName : Frame.binds ⟨bs1, p1⟩ name = true
  · rw [if_pos hName, if_pos (show Frame.binds ⟨bs1, p2⟩ name = true from hName)]
  · rw [if_neg hName, if_neg (show ¬ Frame.binds ⟨bs1, p2⟩ name = true from hName)]

theorem getElem?_define (fs : Frames) (s id : Nat) (name : String) (v : Datum) :
    (fs.define s name v)[id]? = if s = id then fs[id]?.map (·.define name v) else fs[id]? := by
  rw [define, Array.getElem?_modify]

theorem getElem?_add (fs : Frames) (parent : Option Nat) (id : Nat) :
    (fs.add parent).2[id]? = if id = fs.size then some ⟨[], parent⟩ else fs[id]? := by
  rw [add, Array.getElem?_push]

variable (h : K.FramesTwin fs1 fs2)

include h

theorem pair_size : K.Pair fs1.size fs2.size := .inr ⟨h.size_le, h.sizes⟩

/-- From paired scopes a name leads to paired scopes. The induction is on the depth; a parent is older than its
child, so any depth beyond the number of the scope will do. -/
theorem resolveWithin (name : String) (n1 : Nat) :
    ∀ n2 s1 s2, K.Pair s1 s2 → s1 < fs1.size → s1 < n1 → s2 < n2 →
      (fs1.resolveWithin name n1 s1 = none ∧ fs2.resolveWithin name n2 s2 = none) ∨
        ∃ o1 o2, fs1.resolveWithin name n1 s1 = some o1 ∧ fs2.resolveWithin name n2 s2 = some o2 ∧
          K.Pair o1 o2 ∧ o1 < fs1.size := by
  induction n1 with
  | zero => intro n2 s1 s2 _ _ hn; omega
  | succ n1 ih =>
    intro n2 s1 s2 hs hSize hn1 hn2
    cases n2 with
    | zero => omega
    | succ n2 =>
      obtain ⟨f1, f2, hf1, hf2, hTwin⟩ := h.alike s1 s2 hs hSize
      have hBinds : f1.binds name = f2.binds name := by
        simp only [Frame.binds, Frame.names, hTwin.bindings]
      simp only [Frames.resolveWithin, hf1, hf2, ← hBinds]
      by_cases hName : f1.binds name = true
      · simp only [hName, if_true]
        exact .inr ⟨s1, s2, rfl, rfl, hs, hSize⟩
      · simp only [hName, Bool.false_eq_true, if_false]
        have hParents := hTwin.parents
        rcases hp1 : f1.parent with _ | p1 <;> rcases hp2 : f2.parent with _ | p2 <;> rw [hp1, hp2] at hParents
        · exact .inl ⟨rfl, rfl⟩
        · exact hParents.elim
        · exact hParents.elim
        · obtain ⟨hp, hOlder1, hOlder2⟩ := hParents
          exact ih n2 p1 p2 hp (by omega) (by omega) (by omega)

variable (hs : K.Pair s1 s2)

include hs

theorem pair_inj (ht : K.Pair t1 t2) : s1 = t1 ↔ s2 = t2 := by
  rcases hs with ⟨rfl, hs⟩ | ⟨hs, hs'⟩ <;> rcases ht with ⟨rfl, ht⟩ | ⟨ht, ht'⟩
  · rfl
  · have hOld := h.old _ hs
    omega
  · have hOld := h.old _ ht
    omega
  · omega

theorem lt_size (hSize : s1 < fs1.size) : s2 < fs2.size := by
  have hLe := h.size_le
  have hSizes := h.sizes
  rcases hs with ⟨rfl, hs⟩ | ⟨hs, hs'⟩
  · have hOld := h.old _ hs
    omega
  · omega

/-- A scope of the one machine that is not paired is an old one that is not shared. -/
theorem not_pair {id : Nat} (hId : ¬ K.shared (.frame id)) :
    (id < K.first.frames.size → id ≠ s1) ∧ (id < K.second.frames.size → id ≠ s2) := by
  have hSizes := h.sizes
  rcases hs with ⟨rfl, hs⟩ | ⟨hs, hs'⟩
  · have hNe : id ≠ s1 := fun hEq => hId (hEq ▸ hs)
    exact ⟨fun _ => hNe, fun _ => hNe⟩
  · exact ⟨fun _ => by omega, fun _ => by omega⟩

theorem resolve (hSize : s1 < fs1.size) (name : String) :
    (fs1.resolve s1 name = none ∧ fs2.resolve s2 name = none) ∨
      ∃ o1 o2, fs1.resolve s1 name = some o1 ∧ fs2.resolve s2 name = some o2 ∧ K.Pair o1 o2 ∧ o1 < fs1.size :=
  h.resolveWithin name fs1.size fs2.size s1 s2 hs hSize hSize (h.lt_size hs hSize)

/-- From paired scopes a name has the same value. -/
theorem get (hSize : s1 < fs1.size) (name : String) :
    fs1.get s1 name = fs2.get s2 name ∧ ∀ v, fs1.get s1 name = .ok v → v.Within K.shared := by
  rcases h.resolve hs hSize name with ⟨h1, h2⟩ | ⟨o1, o2, h1, h2, ho, hOwner⟩
  · simp [Frames.get, h1, h2]
  · obtain ⟨f1, f2, hf1, hf2, hTwin⟩ := h.alike o1 o2 ho hOwner
    have hSame : f2.bindings.lookup name = f1.bindings.lookup name := by rw [hTwin.bindings]
    simp only [Frames.get, h1, h2, hf1, hf2, Option.bind_some, hSame]
    refine ⟨trivial, fun v hv => ?_⟩
    cases hLookup : f1.bindings.lookup name with
    | none => simp [hLookup] at hv
    | some u =>
      obtain rfl : u = v := by simpa [hLookup] using hv
      obtain ⟨before, after, hBindings, -⟩ := List.lookup_eq_some_iff.mp hLookup
      exact hTwin.within (name, u) (by simp [hBindings])

theorem define (name : String) {v : Datum} (hv : v.Within K.shared) :
    K.FramesTwin (fs1.define s1 name v) (fs2.define s2 name v) where
  old := h.old
  size_le := by simpa [Frames.define] using h.size_le
  sizes := by simpa [Frames.define] using h.sizes
  alike := by
    intro t1 t2 ht hSize
    rw [Frames.define, Array.size_modify] at hSize
    obtain ⟨f1, f2, hf1, hf2, hTwin⟩ := h.alike t1 t2 ht hSize
    rw [getElem?_define, getElem?_define, hf1, hf2]
    by_cases hSame : s1 = t1
    · rw [if_pos hSame, if_pos ((h.pair_inj hs ht).mp hSame)]
      refine ⟨_, _, rfl, rfl, ?_, fun b hb => ?_, ?_⟩
      · exact bindings_define_congr hTwin.bindings name v
      · rcases Frame.mem_define hb with rfl | hb
        · exact hv
        · exact hTwin.within b hb
      · rw [parent_define, parent_define]
        exact hTwin.parents
    · rw [if_neg hSame, if_neg (mt (h.pair_inj hs ht).mpr hSame)]
      exact ⟨f1, f2, rfl, rfl, hTwin⟩
  kept := by
    intro id hOwn
    obtain ⟨hOld1, hOld2⟩ := h.not_pair hs hOwn
    refine (h.kept id hOwn).imp (fun hKept hId => ?_) fun hKept hId => ?_
    · rw [getElem?_define, if_neg (hOld1 hId).symm, hKept hId]
    · rw [getElem?_define, if_neg (hOld2 hId).symm, hKept hId]

omit hs in
/-- A scope may be added to both, if the scopes around them are a pair. -/
theorem add {p1 p2 : Option Nat} (hp : K.PairedParents fs1.size fs2.size p1 p2) :
    K.FramesTwin (fs1.add p1).2 (fs2.add p2).2 where
  old := h.old
  size_le := Nat.le_trans h.size_le (by simp [Frames.add])
  sizes := by
    have hSizes := h.sizes
    simp only [Frames.add, Array.size_push]
    omega
  alike := by
    intro t1 t2 ht hSize
    rw [getElem?_add, getElem?_add]
    by_cases hNew : t1 = fs1.size
    · rw [if_pos hNew, if_pos ((h.pair_inj ht h.pair_size).mp hNew), hNew, (h.pair_inj ht h.pair_size).mp hNew]
      exact ⟨_, _, rfl, rfl, rfl, fun b hb => absurd hb List.not_mem_nil, hp⟩
    · rw [if_neg hNew, if_neg (mt (h.pair_inj ht h.pair_size).mpr hNew)]
      rw [Frames.add, Array.size_push] at hSize
      exact h.alike t1 t2 ht (by omega)
  kept := by
    intro id hOwn
    have hLe := h.size_le
    have hSizes := h.sizes
    refine (h.kept id hOwn).imp (fun hKept hId => ?_) fun hKept hId => ?_ <;>
      rw [getElem?_add, if_neg (by omega), hKept hId]

end FramesTwin

/-! ## Worlds -/

variable (K)

/-- A function of the library is shared. -/
def Library : Prop := ∃ n : Native, K.shared (.native n.name)

/-- The worlds of twins. Since they were taken up, the same has been printed and read. If a function of the library
can be called, the files and the random numbers are the same, and a new cell will have the same number. -/
structure WorldTwin (w1 w2 : World) : Prop where
  holds : w1.store.Holds K.shared
  agree : Store.AgreeOn K.shared w1.store w2.store
  console : ∃ text input,
    w1.console = ⟨K.first.world.console.out ++ text, K.first.world.console.err, input⟩ ∧
    w2.console = ⟨K.second.world.console.out ++ text, K.second.world.console.err, input⟩
  library : K.Library → w1.store.size = w2.store.size ∧ w1.files = w2.files ∧ w1.dice = w2.dice ∧
    ∀ id, w1.store.size ≤ id → K.shared (.cell id)

variable {K}

namespace WorldTwin

variable {w1 w2 : World}

/-- What is read depends on the input alone, and reading leaves the rest of the console as it is. -/
theorem readLine_eq (c : Console) : c.readLine =
    ((ofInput c.input).readLine.1, { c with input := (ofInput c.input).readLine.2.input }) := by
  obtain ⟨out, err, input⟩ := c
  cases input with
  | text rest =>
    cases rest with
    | nil => rfl
    | cons first rest =>
      simp only [readLine, readText, ofInput]
      split <;> rfl
  | bytes bs =>
    simp only [readLine, ofInput]
    cases Text.decodeUtf8 bs with
    | error f => rfl
    | ok s =>
      simp only [readText]
      cases Text.unifyNewlines s.toList with
      | nil => rfl
      | cons first rest =>
        simp only
        split <;> rfl

variable (h : K.WorldTwin w1 w2)

include h

theorem freeze {d : Datum} (hd : d.Within K.shared) :
    (w1.store.freeze d).Within K.shared ∧ w1.store.freeze d = w2.store.freeze d :=
  Store.freeze_congr h.holds h.agree hd

theorem contents {d : Datum} (hd : d.Within K.shared) :
    (w1.store.contents d).Within K.shared ∧ w1.store.contents d = w2.store.contents d := by
  unfold Store.contents
  split
  · exact ⟨h.holds _ (Datum.within_cell.mp hd), h.agree _ (Datum.within_cell.mp hd)⟩
  · exact ⟨hd, rfl⟩

theorem print (s : String) :
    K.WorldTwin { w1 with console := w1.console.print s } { w2 with console := w2.console.print s } := by
  obtain ⟨text, input, h1, h2⟩ := h.console
  refine ⟨h.holds, h.agree, ⟨text ++ s, input, ?_, ?_⟩, h.library⟩
  · simp [h1, Console.print, String.append_assoc]
  · simp [h2, Console.print, String.append_assoc]

theorem readLine : w1.console.readLine.1 = w2.console.readLine.1 ∧
    K.WorldTwin { w1 with console := w1.console.readLine.2 } { w2 with console := w2.console.readLine.2 } := by
  obtain ⟨text, input, h1, h2⟩ := h.console
  have hInput1 : w1.console.input = input := by rw [h1]
  have hInput2 : w2.console.input = input := by rw [h2]
  rw [readLine_eq w1.console, readLine_eq w2.console, hInput1, hInput2]
  refine ⟨rfl, h.holds, h.agree, ⟨text, (ofInput input).readLine.2.input, ?_, ?_⟩, h.library⟩
  · simp [h1]
  · simp [h2]

end WorldTwin

/-! ## Machines -/

variable (K)

/-- Twins, with these as the current scopes and so many scopes at least. -/
structure Twin (c1 c2 least : Nat) (m1 m2 : Machine) : Prop where
  frames : K.FramesTwin m1.frames m2.frames
  world : K.WorldTwin m1.world m2.world
  countdowns : ∀ index, K.shared (.countdown index) → m1.countdowns[index]? = m2.countdowns[index]?
  current1 : m1.current = c1
  current2 : m2.current = c2
  least_le : least ≤ m1.frames.size

/-- What a signal carries leads only to what is shared. -/
def SignalWithin : Signal → Prop
  | .returned v => v.Within K.shared
  | _ => True

abbrev RunsAlike {α : Type} (c1 c2 least : Nat) (Q : α → Prop) (r1 r2 : Run α) : Prop :=
  Alike (K.Twin c1 c2 least) Q K.SignalWithin r1 r2

abbrev RunsSame {α : Type} (c1 c2 least : Nat) (Q : α → Prop) (r : Run α) : Prop := K.RunsAlike c1 c2 least Q r r

/-- The run gives the same value in twins, which leads only to what is shared. -/
abbrev Gives (c1 c2 least : Nat) (r : Run Datum) : Prop := K.RunsSame c1 c2 least (Datum.Within K.shared) r

/-- The current scopes are a pair, and there. -/
structure Here (c1 c2 least : Nat) : Prop where
  pair : K.Pair c1 c2
  there : c1 < least

variable {K}

section Runs

variable {α β : Type} {c1 c2 least s1 s2 : Nat} {Q : α → Prop} {R : β → Prop} {v : Datum}

theorem lift_alike {r : Except Fault α} (h : ∀ a, r = .ok a → Q a) : K.RunsSame c1 c2 least Q (Run.lift r) := by
  cases r with
  | ok a => exact .pure (h a rfl)
  | error f => exact .throw trivial

theorem lift_bind_alike {r : Except Fault α} {f1 f2 : α → Run β}
    (h : ∀ a, r = .ok a → K.RunsAlike c1 c2 least R (f1 a) (f2 a)) :
    K.RunsAlike c1 c2 least R (Run.lift r >>= f1) (Run.lift r >>= f2) :=
  (lift_alike fun _ ha => ha).bind h

theorem print_alike (s : String) : K.RunsSame c1 c2 least (fun _ => True) (Run.print s) :=
  modify trivial fun _ _ h => { h with world := h.world.print s }

theorem textOf_alike (hv : v.Within K.shared) : K.RunsSame c1 c2 least (fun _ => True) (Run.textOf v) := by
  refine get_bind fun m1 m2 h => ?_
  rw [(h.world.freeze hv).2]
  exact lift_alike fun _ _ => trivial

theorem payloadOf_within {p : Datum} (hv : v.Within K.shared) (h : payloadOf v = .ok p) : p.Within K.shared := by
  unfold payloadOf at h
  split at h <;> cases h
  exact (Datum.within_value.mp hv).2

theorem isTrue_alike (hv : v.Within K.shared) : K.RunsSame c1 c2 least (fun _ => True) (Run.isTrue v) := by
  refine lift_bind_alike fun t _ => get_bind fun m1 m2 h => lift_bind_alike fun p hp => ?_
  rw [(h.world.freeze (payloadOf_within hv hp)).2]
  exact .pure trivial

theorem lookup_alike (hHere : K.Here c1 c2 least) (name : String) : K.Gives c1 c2 least (Run.lookup name) := by
  refine get_bind fun m1 m2 h => ?_
  have hSize : c1 < m1.frames.size := Nat.lt_of_lt_of_le hHere.there h.least_le
  obtain ⟨hSame, hWithin⟩ := h.frames.get hHere.pair hSize name
  rw [h.current1, h.current2, ← hSame]
  cases hGet : m1.frames.get c1 name with
  | ok v => exact .pure (hWithin v hGet)
  | error t => exact .throw trivial

/-! ### Scopes -/

theorem Twin.define {m1 m2 : Machine} (h : K.Twin c1 c2 least m1 m2) (hs : K.Pair s1 s2) (name : String)
    (hv : v.Within K.shared) :
    K.Twin c1 c2 least { m1 with frames := m1.frames.define s1 name v }
      { m2 with frames := m2.frames.define s2 name v } where
  frames := h.frames.define hs name hv
  world := h.world
  countdowns := h.countdowns
  current1 := h.current1
  current2 := h.current2
  least_le := by simpa [Frames.define] using h.least_le

theorem define_alike (hHere : K.Here c1 c2 least) (name : String) (hv : v.Within K.shared) :
    K.RunsSame c1 c2 least (fun _ => True) (Run.define name v) := by
  refine modify trivial fun m1 m2 h => ?_
  rw [h.current1, h.current2]
  exact { h.define hHere.pair name hv with current1 := rfl, current2 := rfl }

theorem assign_alike (hHere : K.Here c1 c2 least) (name : String) (hv : v.Within K.shared) :
    K.RunsSame c1 c2 least (fun _ => True) (Run.assign name v) := by
  intro m1 m2 h
  have hFind : ∀ m, (modifyGet (fun m => (m.frames.resolve m.current name, m)) : Run (Option Nat)).run m =
      (.ok (m.frames.resolve m.current name), m) := fun _ => rfl
  have hSize : c1 < m1.frames.size := Nat.lt_of_lt_of_le hHere.there h.least_le
  unfold Run.assign
  rw [run_bind_of_ok (hFind m1), run_bind_of_ok (hFind m2), h.current1, h.current2]
  rcases h.frames.resolve hHere.pair hSize name with ⟨h1, h2⟩ | ⟨o1, o2, h1, h2, ho, -⟩
  · rw [h1, h2]
    exact ⟨rfl, trivial, h⟩
  · rw [h1, h2]
    exact ⟨rfl, trivial, h.define ho name hv⟩

/-- What is done with new scopes may rely on their being a pair. -/
theorem newFrame_bind_alike {p1 p2 : Option Nat}
    (hp : ∀ m1 m2, K.Twin c1 c2 least m1 m2 → K.PairedParents m1.frames.size m2.frames.size p1 p2)
    {f1 f2 : Nat → Run β} (hf : ∀ s1 s2, K.Pair s1 s2 → K.RunsAlike c1 c2 (s1 + 1) R (f1 s1) (f2 s2)) :
    K.RunsAlike c1 c2 least R (Run.newFrame p1 >>= f1) (Run.newFrame p2 >>= f2) := by
  intro m1 m2 h
  have hNew : K.Twin c1 c2 (m1.frames.size + 1) { m1 with frames := (m1.frames.add p1).2 }
      { m2 with frames := (m2.frames.add p2).2 } :=
    { h with frames := h.frames.add (hp m1 m2 h), least_le := by simp [add] }
  obtain ⟨hSame, hMeets, hAfter⟩ := hf _ _ h.frames.pair_size _ _ hNew
  have hLeast := h.least_le
  exact ⟨hSame, hMeets, { hAfter with least_le := Nat.le_trans (by omega) hAfter.least_le }⟩

theorem within_alike {r1 r2 : Run α} (h : K.RunsAlike s1 s2 least Q r1 r2) :
    K.RunsAlike c1 c2 least Q (Run.within s1 r1) (Run.within s2 r2) := by
  intro m1 m2 hm
  have hInside : K.Twin s1 s2 least { m1 with current := s1 } { m2 with current := s2 } :=
    { hm with current1 := rfl, current2 := rfl }
  obtain ⟨hSame, hMeets, hAfter⟩ := h _ _ hInside
  exact ⟨hSame, hMeets, { hAfter with current1 := hm.current1, current2 := hm.current2 }⟩

theorem bindParams_alike (hs : K.Pair s1 s2) (params : List Datum) {args : List Datum}
    (hArgs : ∀ v ∈ args, v.Within K.shared) :
    K.RunsAlike c1 c2 least (fun _ => True) (bindParams s1 params args) (bindParams s2 params args) := by
  induction params generalizing args with
  | nil => exact .pure trivial
  | cons p ps ih =>
    cases args with
    | nil => exact .pure trivial
    | cons a as =>
      obtain ⟨ha, has⟩ := List.forall_mem_cons.mp hArgs
      refine lift_bind_alike fun name _ => bind (Q := fun _ => True) ?_ fun _ _ => ih has
      exact modify trivial fun _ _ h => h.define hs name ha

/-! ### Functions every script has, and operators -/

theorem builtin_alike (b : Builtin) {args : List Datum} (hArgs : ∀ v ∈ args, v.Within K.shared) :
    K.Gives c1 c2 least (b.run args) := by
  unfold Builtin.run
  split
  · refine (mapM fun v hv => textOf_alike (hArgs v hv)).bind fun texts _ => ?_
    exact (print_alike _).bind fun _ _ => .pure Datum.within_null
  · refine lift_bind_alike fun t _ => ?_
    split
    · refine get_bind fun m1 m2 h => lift_bind_alike fun p hp => ?_
      rw [(h.world.freeze (payloadOf_within (hArgs _ List.mem_cons_self) hp)).2]
      exact lift_bind_alike fun n _ => .pure (Datum.within_of_nil rfl)
    · exact .throw trivial
  · exact .throw trivial
  · extract_lets readIt
    have hRead : ∀ u, K.Gives c1 c2 least (readIt u) := by
      refine fun _ => get_bind fun m1 m2 h => ?_
      obtain ⟨hLine, hWorld⟩ := h.world.readLine
      rcases h1 : m1.world.console.readLine with ⟨line, console1⟩
      rcases h2 : m2.world.console.readLine with ⟨line2, console2⟩
      rw [h1, h2] at hLine hWorld
      obtain rfl : line = line2 := hLine
      refine (set (Q := fun _ => True) trivial { h with world := hWorld }).bind fun _ _ => ?_
      exact lift_bind_alike fun _ _ => .pure (Datum.within_of_nil rfl)
    split
    · refine lift_bind_alike fun p hp => ?_
      refine (textOf_alike (payloadOf_within (hArgs _ List.mem_cons_self) hp)).bind fun text _ => ?_
      exact (print_alike text).bind fun u _ => hRead u
    · exact hRead ()

theorem countDown_alike {index : Nat} (hIndex : K.shared (.countdown index)) :
    K.Gives c1 c2 least (countDown index) := by
  refine get_bind fun m1 m2 h => ?_
  rw [← h.countdowns index hIndex]
  cases hCount : m1.countdowns[index]? with
  | none => exact .pure Datum.within_null
  | some c =>
    have hThere1 := (Array.getElem?_eq_some_iff.mp hCount).1
    have hThere2 := (Array.getElem?_eq_some_iff.mp ((h.countdowns index hIndex).symm.trans hCount)).1
    have hDown : ∀ other, K.shared (.countdown other) →
        (m1.countdowns.setIfInBounds index { c with left := c.left - 1 })[other]? =
          (m2.countdowns.setIfInBounds index { c with left := c.left - 1 })[other]? := by
      intro other hOther
      simp only [Array.getElem?_setIfInBounds, hThere1, hThere2, h.countdowns other hOther]
    refine (set (Q := fun _ => True) trivial { h with countdowns := hDown }).bind fun _ _ => ?_
    split
    · exact .throw trivial
    · exact .pure Datum.within_null

theorem sum_alike [Size.Room] (d : Dialect) {left right : Datum} (hLeft : left.Within K.shared)
    (hRight : right.Within K.shared) : K.Gives c1 c2 least (sum d left right) := by
  refine lift_bind_alike fun lt _ => lift_bind_alike fun rt _ => get_bind fun m1 m2 h => ?_
  refine lift_bind_alike fun p hp => lift_bind_alike fun q hq => ?_
  obtain ⟨hpWithin, hpSame⟩ := h.world.freeze (payloadOf_within hLeft hp)
  obtain ⟨hqWithin, hqSame⟩ := h.world.freeze (payloadOf_within hRight hq)
  rw [← hpSame, ← hqSame]
  have hAdd : ∀ t, K.Gives c1 c2 least
      (do return .tagged t (← Run.lift (Datum.operate .add (m1.world.store.freeze p) (m1.world.store.freeze q)))) :=
    fun t => lift_bind_alike fun r hr =>
      pure (Datum.within_tagged.mpr (Datum.add_within hr hpWithin hqWithin))
  split
  · exact hAdd .number
  · cases d with
    | basic =>
      dsimp only
      split
      · exact hAdd .string
      · exact .throw trivial
    | closing => exact .throw trivial

theorem applyOperator_alike [Size.Room] (d : Dialect) (record : Datum) {left right : Datum}
    (hLeft : left.Within K.shared) (hRight : right.Within K.shared) :
    K.Gives c1 c2 least (applyOperator d record left right) := by
  refine lift_bind_alike fun operator _ => ?_
  cases d with
  | basic =>
    refine lift_bind_alike fun lexeme _ => ?_
    split
    · exact sum_alike _ hLeft hRight
    · exact .throw trivial
  | closing =>
    dsimp only
    split
    · exact sum_alike _ hLeft hRight
    · exact .throw trivial

end Runs

end Sharing

end Scriptling.Script
