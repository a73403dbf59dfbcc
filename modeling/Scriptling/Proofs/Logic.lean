/-!
# Reasoning about runs

A run acts on a state and ends with a result or with a signal; scripts, the tree walker and the operations on
scopes all are such runs, over states of their own. `Ensures` says what holds of the state afterwards in
either case, and `Keeps` what then relates it to the state before. Their rules follow the ways in which runs are
put together, so that a proof about a run has the shape of the run and never looks into the monad.
-/

namespace Scriptling

variable {σ ε α β : Type} {r : ExceptT ε (StateM σ) α} {f : α → ExceptT ε (StateM σ) β}
  {handle : ε → ExceptT ε (StateM σ) α} {as : List α} {s s' : σ}

/-! ## Runs put together -/

theorem run_bind_of_ok {a : α} (h : r.run s = (.ok a, s')) : (r >>= f).run s = (f a).run s' := by
  show (ExceptT.bindCont f (r.run s).1) (r.run s).2 = _
  rw [h]
  rfl

theorem run_bind_of_error {e : ε} (h : r.run s = (.error e, s')) : (r >>= f).run s = (.error e, s') := by
  show (ExceptT.bindCont f (r.run s).1) (r.run s).2 = _
  rw [h]
  rfl

/-- What came out of a run that was put together came out of its parts. -/
theorem exists_of_run_bind_ok {b : β} (h : (r >>= f).run s = (.ok b, s')) :
    ∃ a t, r.run s = (.ok a, t) ∧ (f a).run t = (.ok b, s') := by
  rcases hRun : r.run s with ⟨e | a, t⟩
  · rw [run_bind_of_error hRun] at h
    cases h
  · rw [run_bind_of_ok hRun] at h
    exact ⟨a, t, rfl, h⟩

theorem run_get_bind {f : σ → ExceptT ε (StateM σ) β} : (MonadState.get >>= f).run s = (f s).run s := rfl

theorem run_tryCatch_of_ok {a : α} (h : r.run s = (.ok a, s')) : (tryCatch r handle).run s = (.ok a, s') := by
  show (match (r.run s).1 with
    | .ok a => (Pure.pure (.ok a) : StateM σ (Except ε α))
    | .error e => handle e) (r.run s).2 = _
  rw [h]
  rfl

theorem run_tryCatch_of_error {e : ε} (h : r.run s = (.error e, s')) :
    (tryCatch r handle).run s = (handle e).run s' := by
  show (match (r.run s).1 with
    | .ok a => (Pure.pure (.ok a) : StateM σ (Except ε α))
    | .error e => handle e) (r.run s).2 = _
  rw [h]
  rfl

/-! ## What a run ensures -/

/-- From a state with `pre`, the run ends with a result as `post` says, or with a signal as `fail` says. -/
def Ensures (pre : σ → Prop) (r : ExceptT ε (StateM σ) α) (post : α → σ → Prop)
    (fail : ε → σ → Prop) : Prop :=
  ∀ s, pre s → match r.run s with
    | (.ok a, s') => post a s'
    | (.error e, s') => fail e s'

namespace Ensures

variable {pre : σ → Prop} {post : α → σ → Prop} {fail : ε → σ → Prop}

theorem pure {a : α} (h : ∀ s, pre s → post a s) : Ensures pre (pure a : ExceptT ε (StateM σ) α) post fail := h

theorem throw {e : ε} (h : ∀ s, pre s → fail e s) : Ensures pre (throw e : ExceptT ε (StateM σ) α) post fail := h

/-- A run in front hands its result and its state on; its signals are those of the whole. -/
theorem bind {mid : α → σ → Prop} {post : β → σ → Prop} (hr : Ensures pre r mid fail)
    (hf : ∀ a, Ensures (mid a) (f a) post fail) : Ensures pre (r >>= f) post fail := by
  intro s hs
  have hRun := hr s hs
  rcases h : r.run s with ⟨e | a, s'⟩ <;> rw [h] at hRun
  · rw [run_bind_of_error h]
    exact hRun
  · rw [run_bind_of_ok h]
    exact hf a s' hRun

theorem tryCatch
    {caught : ε → σ → Prop} (hr : Ensures pre r post caught)
    (hHandle : ∀ e, Ensures (caught e) (handle e) post fail) : Ensures pre (tryCatch r handle) post fail := by
  intro s hs
  have hRun := hr s hs
  rcases h : r.run s with ⟨e | a, s'⟩ <;> rw [h] at hRun
  · rw [run_tryCatch_of_error h]
    exact hHandle e s' hRun
  · rw [run_tryCatch_of_ok h]
    exact hRun

theorem set {t : σ} {post : PUnit → σ → Prop} (h : ∀ s, pre s → post ⟨⟩ t) :
    Ensures pre (set t : ExceptT ε (StateM σ) PUnit) post fail := h

theorem modify {f : σ → σ} {post : PUnit → σ → Prop} (h : ∀ s, pre s → post ⟨⟩ (f s)) :
    Ensures pre (modify f : ExceptT ε (StateM σ) PUnit) post fail := h

theorem conseq {pre' : σ → Prop} {post' : α → σ → Prop}
    {fail' : ε → σ → Prop} (h : Ensures pre' r post' fail') (hPre : ∀ s, pre s → pre' s)
    (hPost : ∀ a s, post' a s → post a s) (hFail : ∀ e s, fail' e s → fail e s) : Ensures pre r post fail := by
  intro s hs
  have hRun := h s (hPre s hs)
  rcases hr : r.run s with ⟨e | a, s'⟩ <;> rw [hr] at hRun
  · exact hFail e s' hRun
  · exact hPost a s' hRun

end Ensures

/-! ## What a run keeps of its first state -/

/-- From any state, and however it ends, the run keeps what relates later states to the first one. -/
def Keeps (K : σ → σ → Prop) (r : ExceptT ε (StateM σ) α) : Prop := ∀ s₀ s, K s₀ s → K s₀ (r.run s).2

/-- However the run ends, the property of states is kept. -/
abbrev Preserves (I : σ → Prop) (r : ExceptT ε (StateM σ) α) : Prop := Keeps (fun _ => I) r

namespace Keeps

variable {K : σ → σ → Prop}

theorem pure (a : α) : Keeps K (pure a : ExceptT ε (StateM σ) α) := fun _ _ h => h

theorem throw (e : ε) : Keeps K (throw e : ExceptT ε (StateM σ) α) := fun _ _ h => h

theorem bind (hr : Keeps K r) (hf : ∀ a, Keeps K (f a)) : Keeps K (r >>= f) := by
  intro s₀ s hs
  have hMid := hr s₀ s hs
  rcases h : r.run s with ⟨e | a, s'⟩ <;> rw [h] at hMid
  · rw [run_bind_of_error h]
    exact hMid
  · rw [run_bind_of_ok h]
    exact hf a s₀ s' hMid

theorem tryCatch (hr : Keeps K r) (hHandle : ∀ e, Keeps K (handle e)) : Keeps K (tryCatch r handle) := by
  intro s₀ s hs
  have hMid := hr s₀ s hs
  rcases h : r.run s with ⟨e | a, s'⟩ <;> rw [h] at hMid
  · rw [run_tryCatch_of_error h]
    exact hHandle e s₀ s' hMid
  · rw [run_tryCatch_of_ok h]
    exact hMid

theorem get : Keeps K (get : ExceptT ε (StateM σ) σ) := fun _ _ h => h

/-- What is done with the state that was read may rely on what is known of it. -/
theorem get_bind {f : σ → ExceptT ε (StateM σ) β} (hf : ∀ s₀ s, K s₀ s → Preserves (K s₀) (f s)) :
    Keeps K (MonadState.get >>= f) := fun s₀ s hs => hf s₀ s hs s s hs

theorem set {t : σ} (h : ∀ s₀, K s₀ t) : Keeps K (set t : ExceptT ε (StateM σ) PUnit) := fun s₀ _ _ => h s₀

theorem modify {f : σ → σ} (h : ∀ s₀ s, K s₀ s → K s₀ (f s)) :
    Keeps K (modify f : ExceptT ε (StateM σ) PUnit) := h

theorem modifyGet {f : σ → α × σ} (h : ∀ s₀ s, K s₀ s → K s₀ (f s).2) :
    Keeps K (modifyGet f : ExceptT ε (StateM σ) α) := h

theorem mapM_mem (hf : ∀ a ∈ as, Keeps K (f a)) : Keeps K (as.mapM f) := by
  induction as with
  | nil => exact pure []
  | cons a as ih =>
    rw [List.mapM_cons]
    have hRest := ih fun b hb => hf b (List.mem_cons_of_mem a hb)
    exact (hf a List.mem_cons_self).bind fun b => hRest.bind fun bs => pure (b :: bs)

theorem mapM (hf : ∀ a, Keeps K (f a)) (as : List α) : Keeps K (as.mapM f) := mapM_mem fun a _ => hf a

theorem forM_mem {f : α → ExceptT ε (StateM σ) PUnit} (hf : ∀ a ∈ as, Keeps K (f a)) : Keeps K (as.forM f) := by
  induction as with
  | nil => exact pure PUnit.unit
  | cons a as ih => exact (hf a List.mem_cons_self).bind fun _ => ih fun b hb => hf b (List.mem_cons_of_mem a hb)

theorem forM {f : α → ExceptT ε (StateM σ) PUnit} (hf : ∀ a, Keeps K (f a)) (as : List α) :
    Keeps K (as.forM f) := forM_mem fun a _ => hf a

end Keeps

end Scriptling
