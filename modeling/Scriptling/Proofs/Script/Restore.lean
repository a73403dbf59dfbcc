import Scriptling.Proofs.Script.Effect

/-!
# Scripts come back to their scope

Whatever part of a script is run, in either dialect, the scope that was current before is current again
afterwards: with a result, a fault, a trouble, a returned value or a loop left. Scopes are known by their
numbers, so it is also told that no scope goes away or gets another one around it (`runs_restore`).
-/

namespace Scriptling.Script

open Run

/-! ## Scopes that are kept -/

/-- Every scope of `before` is there, with the same scope around it. -/
def Frames.Extends (before after : Frames) : Prop :=
  ∀ (id : Nat) (f : Frame), before[id]? = some f → ∃ f', after[id]? = some f' ∧ f'.parent = f.parent

namespace Frames

theorem Extends.refl (frames : Frames) : frames.Extends frames := fun _ f h => ⟨f, h, rfl⟩

theorem Extends.trans {a b c : Frames} (hab : a.Extends b) (hbc : b.Extends c) : a.Extends c := by
  intro id f h
  obtain ⟨g, hg, hParent⟩ := hab id f h
  obtain ⟨k, hk, hParent'⟩ := hbc id g hg
  exact ⟨k, hk, hParent'.trans hParent⟩

theorem parent_define (f : Frame) (name : String) (v : Datum) : (f.define name v).parent = f.parent := by
  unfold Frame.define
  split <;> rfl

theorem extends_define (frames : Frames) (scope : Nat) (name : String) (v : Datum) :
    frames.Extends (frames.define scope name v) := by
  intro id f h
  unfold define
  rw [Array.getElem?_modify, h]
  split
  · exact ⟨f.define name v, rfl, parent_define f name v⟩
  · exact ⟨f, rfl, rfl⟩

theorem extends_add (frames : Frames) (parent : Option Nat) : frames.Extends (frames.add parent).2 := by
  intro id f h
  have hLt : id < frames.size := (Array.getElem?_eq_some_iff.mp h).1
  refine ⟨f, ?_, rfl⟩
  rw [add, Array.getElem?_push_lt hLt, ← Array.getElem?_eq_getElem hLt, h]

end Frames

/-- The current scope is the one of `before`, and no scope is lost. -/
structure Machine.Kept (before after : Machine) : Prop where
  current : after.current = before.current
  frames : before.frames.Extends after.frames

namespace Machine.Kept

theorem refl (m : Machine) : m.Kept m := ⟨rfl, .refl _⟩

/-- A state with the same current scope and more frames. -/
theorem step {m0 m m' : Machine} (h : m0.Kept m) (hCurrent : m'.current = m.current)
    (hFrames : m.frames.Extends m'.frames) : m0.Kept m' :=
  ⟨hCurrent.trans h.current, h.frames.trans hFrames⟩

end Machine.Kept

/-- Every operation on scopes comes back and loses none. -/
theorem kept_effect : Effect Machine.Kept Machine.Kept where
  ofSame h := ⟨h.current, h.frames ▸ .refl _⟩
  inner_trans h h' := h.step h'.current h'.frames
  outer_trans h h' := h.step h'.current h'.frames
  outer_of_inner h := h
  size_le h := Frames.size_le_of_found fun id f hf => (h.frames id f hf).imp fun _ hf' => hf'.1
  assign _ v := ⟨rfl, Frames.extends_define _ _ _ v⟩
  define m name v := ⟨rfl, m.frames.extends_define _ name v⟩
  newFrame m parent := ⟨rfl, m.frames.extends_add parent⟩
  defineNew h _ name v := h.step rfl (Frames.extends_define _ _ name v)
  within h _ hBody := h.step rfl hBody.frames

/-- Every run of a part of a script comes back to its scope, however it ends. -/
theorem runs_restore [Size.Room] (d : Dialect) (n : Nat) : RunsKeep Machine.Kept Machine.Kept d n :=
  runs_keep kept_effect d n

end Scriptling.Script
