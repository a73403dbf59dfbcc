import Scriptling.Script.Run

/-!
# What scopes hold

A property of all bindings of all scopes holds as long as what is bound has it: it holds of what is looked up, and
a machine has it at first if the functions do that every script has.
-/

namespace Scriptling.Script

variable {v : Datum} {name : String}

theorem Frame.mem_define {f : Frame} {b : String × Datum}
    (h : b ∈ (f.define name v).bindings) : b = (name, v) ∨ b ∈ f.bindings := by
  unfold Frame.define at h
  split at h
  · obtain ⟨c, hc, rfl⟩ := List.mem_map.mp h
    split
    · exact .inl rfl
    · exact .inr hc
  · rcases List.mem_append.mp h with h | h
    · exact .inr h
    · exact .inl (by simpa using h)

namespace Machine

/-- Every binding of every scope has the property. -/
def Binds (P : String × Datum → Prop) (m : Machine) : Prop :=
  ∀ (id : Nat) (f : Frame), m.frames[id]? = some f → ∀ b ∈ f.bindings, P b

variable {P : String × Datum → Prop} {m : Machine}

theorem Binds.define (hm : m.Binds P) (id : Nat) (hv : P (name, v)) :
    { m with frames := m.frames.define id name v }.Binds P := by
  intro id' f hf b hb
  simp only [Frames.define, Array.getElem?_modify] at hf
  split at hf
  · obtain ⟨g, hg, rfl⟩ := Option.map_eq_some_iff.mp hf
    rcases Frame.mem_define hb with rfl | hb
    · exact hv
    · exact hm id' g hg b hb
  · exact hm id' f hf b hb

theorem Binds.add (hm : m.Binds P) (parent : Option Nat) : { m with frames := (m.frames.add parent).2 }.Binds P := by
  intro id f hf b hb
  simp only [Frames.add, Array.getElem?_push] at hf
  split at hf
  · cases hf
    cases hb
  · exact hm id f hf b hb

theorem Binds.of_get (hm : m.Binds P) {id : Nat} (h : m.frames.get id name = .ok v) :
    P (name, v) := by
  unfold Frames.get at h
  split at h
  · cases h
  · split at h
    next owner _ _ w hw =>
      cases h
      obtain ⟨f, hf, hLookup⟩ := Option.bind_eq_some_iff.mp hw
      obtain ⟨before, after, hBindings, -⟩ := List.lookup_eq_some_iff.mp hLookup
      exact hm owner f hf (name, v) (by simp [hBindings])
    · cases h

/-- At first there is one scope, with the functions that every script has. -/
theorem eq_of_start {world : World} {id : Nat} {f : Frame} (h : (Machine.start world).frames[id]? = some f) :
    f = ⟨Builtin.all.map fun b => (b.name, .tagged .builtin (.builtin b.name)), none⟩ := by
  have hStart : (Machine.start world).frames =
      #[⟨Builtin.all.map fun b => (b.name, .tagged .builtin (.builtin b.name)), none⟩] := rfl
  rw [hStart, List.getElem?_toArray, List.getElem?_singleton] at h
  split at h <;> cases h
  rfl

theorem binds_start (world : World) (h : ∀ b : Builtin, P (b.name, .tagged .builtin (.builtin b.name))) :
    (Machine.start world).Binds P := by
  intro id f hf b hb
  cases eq_of_start hf
  obtain ⟨native, -, rfl⟩ := List.mem_map.mp hb
  exact h native

end Machine

end Scriptling.Script
