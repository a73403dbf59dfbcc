import Scriptling.Proofs.Logic

/-!
# Runs side by side

Two runs from two states that are related in some way. They are alike if they end the same, with the same result or
the same signal, and leave states that are related again. The rules follow the ways in which runs are put together.
-/

namespace Scriptling

variable {σ ε α β : Type}

/-- The result is as `Q` says, or the signal is as `F` says. -/
def Meets (Q : α → Prop) (F : ε → Prop) : Except ε α → Prop
  | .ok a => Q a
  | .error e => F e

/-- From related states both runs end the same, in related states, with a result or a signal as told. -/
def Alike (I : σ → σ → Prop) (Q : α → Prop) (F : ε → Prop) (r1 r2 : ExceptT ε (StateM σ) α) : Prop :=
  ∀ s1 s2, I s1 s2 → (r1.run s1).1 = (r2.run s2).1 ∧ Meets Q F (r1.run s1).1 ∧ I (r1.run s1).2 (r2.run s2).2

/-- Runs that end the same are both followed by the same, or both by nothing. -/
theorem run_bind_cases {r1 r2 : ExceptT ε (StateM σ) α} {s1 s2 : σ} (hSame : (r1.run s1).1 = (r2.run s2).1)
    (f1 f2 : α → ExceptT ε (StateM σ) β) :
    (∃ a, (r1.run s1).1 = .ok a ∧ (r1 >>= f1).run s1 = (f1 a).run (r1.run s1).2 ∧
      (r2 >>= f2).run s2 = (f2 a).run (r2.run s2).2) ∨
    ∃ e, (r1.run s1).1 = .error e ∧ (r1 >>= f1).run s1 = (.error e, (r1.run s1).2) ∧
      (r2 >>= f2).run s2 = (.error e, (r2.run s2).2) := by
  rcases h1 : r1.run s1 with ⟨o, t1⟩
  rcases h2 : r2.run s2 with ⟨o2, t2⟩
  rw [h1, h2] at hSame
  obtain rfl : o = o2 := hSame
  cases o with
  | ok a => exact .inl ⟨a, rfl, run_bind_of_ok h1, run_bind_of_ok h2⟩
  | error e => exact .inr ⟨e, rfl, run_bind_of_error h1, run_bind_of_error h2⟩

namespace Alike

variable {I : σ → σ → Prop} {Q : α → Prop} {F : ε → Prop}

theorem pure {a : α} (h : Q a) : Alike I Q F (pure a : ExceptT ε (StateM σ) α) (Pure.pure a) :=
  fun _ _ hs => ⟨rfl, h, hs⟩

theorem throw {e : ε} (h : F e) : Alike I Q F (throw e : ExceptT ε (StateM σ) α) (MonadExcept.throw e) :=
  fun _ _ hs => ⟨rfl, h, hs⟩

/-- Whatever comes first hands on the same result. -/
theorem bind {R : β → Prop} {r1 r2 : ExceptT ε (StateM σ) α} {f1 f2 : α → ExceptT ε (StateM σ) β}
    (hr : Alike I Q F r1 r2) (hf : ∀ a, Q a → Alike I R F (f1 a) (f2 a)) : Alike I R F (r1 >>= f1) (r2 >>= f2) := by
  intro s1 s2 hs
  obtain ⟨hSame, hMeets, hStates⟩ := hr s1 s2 hs
  rcases run_bind_cases hSame f1 f2 with ⟨a, hOk, h1, h2⟩ | ⟨e, hError, h1, h2⟩
  · rw [hOk] at hMeets
    rw [h1, h2]
    exact hf a hMeets _ _ hStates
  · rw [hError] at hMeets
    rw [h1, h2]
    exact ⟨rfl, hMeets, hStates⟩

theorem tryCatch {G : ε → Prop} {r1 r2 : ExceptT ε (StateM σ) α} {h1 h2 : ε → ExceptT ε (StateM σ) α}
    (hr : Alike I Q G r1 r2) (hHandle : ∀ e, G e → Alike I Q F (h1 e) (h2 e)) :
    Alike I Q F (tryCatch r1 h1) (MonadExcept.tryCatch r2 h2) := by
  intro s1 s2 hs
  obtain ⟨hSame, hMeets, hStates⟩ := hr s1 s2 hs
  rcases hRun1 : r1.run s1 with ⟨o1, t1⟩
  rcases hRun2 : r2.run s2 with ⟨o2, t2⟩
  rw [hRun1, hRun2] at hSame hStates
  rw [hRun1] at hMeets
  obtain rfl : o1 = o2 := hSame
  cases o1 with
  | ok a =>
    rw [run_tryCatch_of_ok hRun1, run_tryCatch_of_ok hRun2]
    exact ⟨rfl, hMeets, hStates⟩
  | error e =>
    rw [run_tryCatch_of_error hRun1, run_tryCatch_of_error hRun2]
    exact hHandle e hMeets t1 t2 hStates

/-- What is done with a state that was read may rely on its being related to the other one. -/
theorem get_bind {R : β → Prop} {f1 f2 : σ → ExceptT ε (StateM σ) β}
    (h : ∀ s1 s2, I s1 s2 → Alike I R F (f1 s1) (f2 s2)) : Alike I R F (get >>= f1) (MonadState.get >>= f2) :=
  fun s1 s2 hs => h s1 s2 hs s1 s2 hs

theorem modify {Q : PUnit → Prop} (hQ : Q ⟨⟩) {f1 f2 : σ → σ} (h : ∀ s1 s2, I s1 s2 → I (f1 s1) (f2 s2)) :
    Alike I Q F (modify f1 : ExceptT ε (StateM σ) PUnit) (modify f2) :=
  fun s1 s2 hs => ⟨rfl, hQ, h s1 s2 hs⟩

theorem set {Q : PUnit → Prop} (hQ : Q ⟨⟩) {t1 t2 : σ} (h : I t1 t2) :
    Alike I Q F (set t1 : ExceptT ε (StateM σ) PUnit) (MonadStateOf.set t2) :=
  fun _ _ _ => ⟨rfl, hQ, h⟩

theorem mapM {R : β → Prop} {f : α → ExceptT ε (StateM σ) β} {as : List α} (hf : ∀ a ∈ as, Alike I R F (f a) (f a)) :
    Alike I (fun bs => ∀ b ∈ bs, R b) F (as.mapM f) (as.mapM f) := by
  induction as with
  | nil => exact pure (by simp)
  | cons a as ih =>
    rw [List.mapM_cons]
    have hRest := ih fun b hb => hf b (List.mem_cons_of_mem a hb)
    refine (hf a List.mem_cons_self).bind fun b hb => hRest.bind fun bs hbs => pure ?_
    exact List.forall_mem_cons.mpr ⟨hb, hbs⟩

end Alike

end Scriptling
