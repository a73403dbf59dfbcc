import Scriptling.Proofs.Script.Natives
import Scriptling.Proofs.Script.Twin

/-!
# The library side by side

If twins share a function of the library, their files and random numbers are the same, and their stores have the same
size. Then the function does the same in both, and what it gives leads only to what is shared (`Sharing.native_alike`).
Cells it makes are new in both and have the same number.
-/

namespace Scriptling.Script

open List Act Native Alike

namespace Sharing

variable (K : Sharing)

/-- In the worlds of twins, values lead only to what is shared. -/
def contract : Contract where
  Near := K.WorldTwin
  Known _ := Datum.Within K.shared
  Outcome _ _ := Datum.Within K.shared

variable {K}

theorem WorldTwin.withStore {w1 w2 : World} (h : K.WorldTwin w1 w2) {store1 store2 : Store}
    (hHolds : store1.Holds K.shared) (hAgree : Store.AgreeOn K.shared store1 store2) (hSize : store1.size = store2.size)
    (hNew : ∀ id, store1.size ≤ id → K.shared (.cell id)) :
    K.WorldTwin { w1 with store := store1 } { w2 with store := store2 } where
  holds := hHolds
  agree := hAgree
  console := h.console
  library := fun hLib => ⟨hSize, (h.library hLib).2.1, (h.library hLib).2.2.1, hNew⟩

theorem isReal_within {d : Datum} (h : isReal d = true) : d.Within K.shared := by
  cases d with
  | int n => exact Datum.within_of_nil rfl
  | float x => exact Datum.within_of_nil rfl
  | _ => cases h

section Library

variable (hLib : K.Library) {cells : Nat}

include hLib

/-- A new list has the same number in both worlds, and is shared. -/
theorem alloc_handles {xs : List Datum} (hxs : ∀ x ∈ xs, x.Within K.shared) :
    K.contract.Handles cells (fun _ d => d.Within K.shared)
      (do let (d, store) := (← get).store.alloc (.list xs)
          modify fun w => { w with store }
          return d) := by
  rintro w1 w2 ⟨h, hCells⟩
  obtain ⟨hSize, -, -, hNew⟩ := h.library hLib
  refine ⟨congrArg (fun id => Except.ok (Datum.cell id)) hSize, ⟨?_, ?_⟩,
    Datum.within_cell.mpr (hNew _ (Nat.le_refl _))⟩
  · refine h.withStore (h.holds.push (Datum.within_list.mpr hxs)) (h.agree.push hSize _) (by simp [hSize]) ?_
    intro id hId
    rw [Array.size_push] at hId
    exact hNew id (by omega)
  · have hMore : w1.store.size ≤ (w1.store.push (.list xs)).size := by simp
    exact Nat.le_trans hCells hMore

theorem cut_handles {p : Datum} (hp : p.Within K.shared) (start stop : Int) :
    K.contract.Handles cells (fun _ d => d.Within K.shared) (cut p start stop) := by
  have hSlice {xs : List Datum} (h : ∀ x ∈ xs, x.Within K.shared) :
      ∀ x ∈ Datum.slice xs start stop, x.Within K.shared :=
    fun x hx => h x (mem_of_mem_drop (mem_of_mem_take hx))
  refine .get_bind fun w1 w2 h => ?_
  obtain ⟨hWithin, hSame⟩ := h.1.contents hp
  rw [← hSame]
  refine ⟨rfl, ?_⟩
  dsimp only [pure_bind]
  split
  next xs hList =>
    rw [hList] at hWithin
    exact alloc_handles hLib (hSlice (Datum.within_list.mp hWithin))
  next xs hTuple =>
    rw [hTuple] at hWithin
    exact .pure fun _ _ => Datum.within_tuple.mpr (hSlice (Datum.within_tuple.mp hWithin))
  · exact .pure fun _ _ => Datum.within_of_nil rfl
  · exact .pure fun _ _ => Datum.within_of_nil rfl
  · exact .pure fun _ _ => Datum.within_of_nil rfl
  · exact .throw _
  · exact .throw _
  · exact .throw _

/-- **A function of the library does the same in twins**, and gives what leads only to what is shared. -/
theorem contract_lawful [Size.Room] : K.contract.Lawful where
  mono h _ := h
  real h := Datum.within_tagged.mpr (isReal_within h)
  string := Datum.within_of_nil rfl
  boolean := Datum.within_of_nil rfl
  null := Datum.within_null
  outcome h := h
  choice _ hv hp := Datum.within_tagged.mpr (payloadOf_within hv hp)
  power _ hp := Datum.within_tagged.mpr hp.within
  freeze h hv hp := (h.freeze (payloadOf_within hv hp)).2
  contents h hv hp := (h.contents (payloadOf_within hv hp)).2
  items h hp := Datum.items_within (h.contents (Datum.within_tagged.mp hp)).1
  letters h hp hItems x hx :=
    Datum.within_tagged.mpr (Datum.items_within (h.contents (Datum.within_tagged.mp hp)).1 hItems x hx)
  part start stop _ hp :=
    (cut_handles hLib (Datum.within_tagged.mp hp) start stop).mono fun _ _ => Datum.within_tagged.mpr
  newList h := ((alloc_handles hLib h).mono fun _ _ => Datum.within_tagged.mpr).map
  replaced id h hxs := by
    obtain ⟨hSize, -, -, hNew⟩ := h.library hLib
    refine h.withStore (h.holds.set id (Datum.within_list.mpr hxs)) (h.agree.set hSize id _) (by simp [hSize]) ?_
    intro other hOther
    rw [Array.size_setIfInBounds] at hOther
    exact hNew other hOther
  print s h := h.print s
  readLine h := h.readLine
  files h := by
    obtain ⟨hSize, hFiles, hDice, hNew⟩ := h.library hLib
    exact ⟨hFiles, fun _ => ⟨h.holds, h.agree, h.console, fun _ => ⟨hSize, rfl, hDice, hNew⟩⟩⟩
  dice h := by
    obtain ⟨hSize, hFiles, hDice, hNew⟩ := h.library hLib
    exact ⟨hDice, fun _ => ⟨h.holds, h.agree, h.console, fun _ => ⟨hSize, hFiles, rfl, hNew⟩⟩⟩

end Library

/-! ## Calls -/

variable {c1 c2 least : Nat}

theorem native_alike [Size.Room] {n : Native} (hn : K.shared (.native n.name)) {args : List Datum}
    (hArgs : ∀ v ∈ args, v.Within K.shared) : K.Gives c1 c2 least (Run.native n args) := by
  unfold Run.native
  extract_lets act
  have hAct : ∀ u, K.Gives c1 c2 least (act u) := by
    refine fun _ => get_bind fun m1 m2 h => ?_
    obtain ⟨hSame, ⟨hWorld, -⟩, hMeets⟩ := (contract_lawful ⟨n, hn⟩).act n hArgs _ _ ⟨h.world, Nat.zero_le _⟩
    rcases h1 : n.act args m1.world with ⟨r, world1⟩
    rcases h2 : n.act args m2.world with ⟨r2, world2⟩
    rw [show (n.act args).run m1.world = _ from h1] at hSame hWorld hMeets
    rw [show (n.act args).run m2.world = _ from h2] at hSame hWorld
    obtain rfl : r = r2 := hSame
    refine (set (Q := fun _ => True) trivial { h with world := hWorld }).bind fun _ _ => ?_
    cases r with
    | ok v => exact .pure hMeets
    | error refusal =>
      dsimp only
      split <;> exact .throw trivial
  split
  · split
    · exact .throw trivial
    · exact hAct ()
  · exact hAct ()

theorem callNative_alike [Size.Room] {payload : Datum} (hPayload : payload.Within K.shared) {args : List Datum}
    (hArgs : ∀ v ∈ args, v.Within K.shared) : K.Gives c1 c2 least (callNative payload args) := by
  unfold callNative
  split
  · split
    · exact builtin_alike _ hArgs
    · exact .throw trivial
  · split
    next name _ n hName =>
      have hn : n.name = name := by simpa using List.find?_some hName
      exact native_alike (hn ▸ Datum.within_function.mp hPayload) hArgs
    · exact .throw trivial
  · exact countDown_alike (Datum.within_object.mp hPayload)
  · exact .throw trivial

end Sharing

end Scriptling.Script
