import Scriptling.Braced.Syntax
import Scriptling.Proofs.Logic
import Scriptling.Script.Run

/-!
# Payloads that suit their tags

A value is well tagged if its payload is of the kind that its tag tells. A list is a cell of the store, and the cells
hold lists of such values in turn. `KeepsTags` says of a run that it leaves the store so, with rules that follow the
ways in which runs are put together.
-/

namespace Scriptling.Script

open Braced

/-! ## Well-tagged values -/

/-- Whether a payload suits the tag of numbers. -/
def isReal : Datum → Bool
  | .int _ | .float _ => true
  | _ => false

/-- The payload of a value suits its tag, where the store has so many cells. If things are `loose`, the tag of numbers
may stand with any payload. -/
inductive WellTagged (loose : Prop) (cells : Nat) : Datum → Prop where
  | int {n} : WellTagged loose cells (.tagged .number (.int n))
  | float {x} : WellTagged loose cells (.tagged .number (.float x))
  | string {s} : WellTagged loose cells (.tagged .string (.str s))
  | boolean {b} : WellTagged loose cells (.tagged .boolean (.bool b))
  | null : WellTagged loose cells .null
  | list {id} : id < cells → WellTagged loose cells (.tagged .list (.cell id))
  | function {name params result body} :
      WellTagged loose cells (.tagged .function (Stmt.function name params result body).toDatum)
  | builtin (b : Builtin) : WellTagged loose cells (.tagged .builtin (.builtin b.name))
  | native (n : Native) : WellTagged loose cells (.tagged .builtin (.function n.name))
  | stray {p} : loose → WellTagged loose cells (.tagged .number p)

namespace WellTagged

variable {loose loose' : Prop} {cells cells' : Nat} {v p : Datum}

/-- Cells may be added, and things may get looser. -/
theorem mono (h : WellTagged loose cells v) (hLoose : loose → loose') (hCells : cells ≤ cells') :
    WellTagged loose' cells' v := by
  cases h with
  | int => exact .int
  | float => exact .float
  | string => exact .string
  | boolean => exact .boolean
  | null => exact .null
  | list hId => exact .list (Nat.lt_of_lt_of_le hId hCells)
  | function => exact .function
  | builtin b => exact .builtin b
  | native n => exact .native n
  | stray h => exact .stray (hLoose h)

theorem exists_parts (h : WellTagged loose cells v) : ∃ t p, v = .tagged t p := by
  cases h <;> exact ⟨_, _, rfl⟩

theorem of_isReal (h : isReal p = true) : WellTagged loose cells (.tagged .number p) := by
  unfold isReal at h
  split at h
  · exact .int
  · exact .float
  · cases h

theorem exists_cell (h : WellTagged loose cells (.tagged .list p)) : ∃ id, p = .cell id ∧ id < cells := by
  cases h with
  | list hId => exact ⟨_, rfl, hId⟩

theorem exists_text (h : WellTagged loose cells (.tagged .string p)) : ∃ s, p = .str s := by
  cases h with
  | string => exact ⟨_, rfl⟩

end WellTagged

/-- Every cell holds a list of well-tagged values. -/
def HoldsLists (loose : Prop) (store : Store) : Prop :=
  ∀ (id : Nat) (d : Datum), store[id]? = some d → ∃ xs, d = .list xs ∧ ∀ x ∈ xs, WellTagged loose store.size x

namespace HoldsLists

variable {loose : Prop} {store : Store} (h : HoldsLists loose store)

include h

theorem contents {id : Nat} (hId : id < store.size) :
    ∃ xs, store.contents (.cell id) = .list xs ∧ ∀ x ∈ xs, WellTagged loose store.size x := by
  obtain ⟨xs, hList, hItems⟩ := h id store[id] (Array.getElem?_eq_getElem hId)
  refine ⟨xs, ?_, hItems⟩
  show store.getD id .none = .list xs
  rw [Array.getD_eq_getD_getElem?, Array.getElem?_eq_getElem hId, Option.getD_some, hList]

variable {xs : List Datum} (hItems : ∀ x ∈ xs, WellTagged loose store.size x)

include hItems

theorem push : HoldsLists loose (store.push (.list xs)) := by
  have hMore : ∀ {v : Datum}, WellTagged loose store.size v → WellTagged loose (store.push (.list xs)).size v :=
    fun hv => hv.mono id (by simp)
  intro id d hd
  rw [Array.getElem?_push] at hd
  split at hd
  · cases hd
    exact ⟨xs, rfl, fun x hx => hMore (hItems x hx)⟩
  · obtain ⟨ys, hList, hOld⟩ := h id d hd
    exact ⟨ys, hList, fun y hy => hMore (hOld y hy)⟩

theorem set (place : Nat) : HoldsLists loose (store.setIfInBounds place (.list xs)) := by
  intro id d hd
  rw [Array.size_setIfInBounds]
  rw [Array.getElem?_setIfInBounds] at hd
  split at hd
  · split at hd <;> cases hd
    exact ⟨xs, rfl, hItems⟩
  · exact h id d hd

end HoldsLists

/-- A store with at least as many cells, all of which hold lists of well-tagged values. -/
structure Onward (loose : Prop) (before after : Store) : Prop where
  lists : HoldsLists loose after
  grows : before.size ≤ after.size

namespace Onward

variable {loose : Prop} {a b : Store}

theorem refl (h : HoldsLists loose a) : Onward loose a a := ⟨h, Nat.le_refl _⟩

theorem wellTagged (h : Onward loose a b) {v : Datum} (hv : WellTagged loose a.size v) : WellTagged loose b.size v :=
  hv.mono id h.grows

end Onward

/-! ## Runs that keep tags right -/

section KeepsTags

variable {σ ε α β : Type}

/-- Run in a state whose store comes after the given one, it leaves such a state, and its result is as `Q` says of
the number of cells by then. -/
def KeepsTags (storeOf : σ → Store) (loose : Prop) (store : Store) (r : ExceptT ε (StateM σ) α)
    (Q : Nat → α → Prop) : Prop :=
  Ensures (fun s => Onward loose store (storeOf s)) r
    (fun a s => Onward loose store (storeOf s) ∧ Q (storeOf s).size a) fun _ s => Onward loose store (storeOf s)

def LeavesStore (storeOf : σ → Store) (r : ExceptT ε (StateM σ) α) : Prop :=
  Keeps (fun s s' => storeOf s' = storeOf s) r

namespace KeepsTags

variable {storeOf : σ → Store} {loose : Prop} {store : Store} {Q : Nat → α → Prop} {R : Nat → β → Prop}

theorem pure {a : α} (h : ∀ after, Onward loose store after → Q after.size a) :
    KeepsTags storeOf loose store (pure a : ExceptT ε (StateM σ) α) Q :=
  Ensures.pure fun s hs => ⟨hs, h (storeOf s) hs⟩

theorem throw (e : ε) : KeepsTags storeOf loose store (throw e : ExceptT ε (StateM σ) α) Q :=
  Ensures.throw fun _ hs => hs

theorem mono {P : Nat → α → Prop} {r : ExceptT ε (StateM σ) α} (hr : KeepsTags storeOf loose store r P)
    (h : ∀ cells a, P cells a → Q cells a) : KeepsTags storeOf loose store r Q :=
  Ensures.conseq hr (fun _ hs => hs) (fun a _ hs => ⟨hs.1, h _ a hs.2⟩) fun _ _ hs => hs

/-- A run that leaves the store alone does not matter. -/
theorem quiet {r : ExceptT ε (StateM σ) α} {f : α → ExceptT ε (StateM σ) β} (hr : LeavesStore storeOf r)
    (hf : ∀ a, KeepsTags storeOf loose store (f a) R) : KeepsTags storeOf loose store (r >>= f) R := by
  intro s hs
  have hStore : storeOf (r.run s).2 = storeOf s := hr s s rfl
  have hAfter : Onward loose store (storeOf (r.run s).2) := hStore.symm ▸ hs
  rcases hRun : r.run s with ⟨e | a, s'⟩
  · rw [hRun] at hAfter
    rw [run_bind_of_error hRun]
    exact hAfter
  · rw [hRun] at hAfter
    rw [run_bind_of_ok hRun]
    exact hf a s' hAfter

end KeepsTags

end KeepsTags

end Scriptling.Script
