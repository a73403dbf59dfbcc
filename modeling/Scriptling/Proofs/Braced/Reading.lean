import Scriptling.Proofs.Braced.Parser

/-!
# How parsers read

Two congruences: a parser does not run off a list with an end token, and does not look behind it (`StopsAtEnd`); what
is left is a tail of what was there, and a failure is always told (`Orderly`).
-/

namespace Scriptling.Braced

open List

/-- The same reply when more tokens follow. -/
def Reply.before {α : Type} (r : Reply α) (later : List Token) : Reply α := { r with rest := r.rest ++ later }

namespace Parser

variable {α β : Type} {p : Parser α} {f : α → Parser β} {t : Token} {ts rest : List Token} {ds : List Diagnostic}

/-! ## Nothing behind the end is read -/

def HasEnd (ts : List Token) : Prop := ∃ t ∈ ts, t.kind = .endOfFile

theorem HasEnd.tail (h : HasEnd (t :: ts)) (ht : t.kind ≠ .endOfFile) : HasEnd ts := by
  obtain ⟨u, hu, hKind⟩ := h
  rcases mem_cons.mp hu with rfl | hu
  · exact absurd hKind ht
  · exact ⟨u, hu, hKind⟩

theorem HasEnd.ne_nil (h : HasEnd ts) : ∃ t rest, ts = t :: rest := by
  cases ts with
  | nil => simp [HasEnd] at h
  | cons t rest => exact ⟨t, rest, rfl⟩

/-- On a list with an end token, a parser neither runs off it nor reads on behind the first one, and its
reply does not depend on what stands there. -/
def StopsAtEnd (p : Parser α) : Prop :=
  ∀ ts, HasEnd ts → (p ts).ending ≠ .offEnd ∧ HasEnd (p ts).rest ∧ ∀ later, p (ts ++ later) = (p ts).before later

theorem StopsAtEnd.bind (hp : StopsAtEnd p) (hf : ∀ a, StopsAtEnd (f a)) : StopsAtEnd (p >>= f) := by
  intro ts hEnd
  obtain ⟨hOff, hMid, hLater⟩ := hp ts hEnd
  rcases h : p ts with ⟨a | _ | _ | _, mid, ds⟩ <;> rw [h] at hOff hMid hLater
  · obtain ⟨hOff', hRest, hLater'⟩ := hf a mid hMid
    rw [bind_of_ok h]
    refine ⟨hOff', hRest, fun later => ?_⟩
    rw [bind_of_ok (hLater later), hLater' later]
    rfl
  · rw [bind_of_failed h]
    exact ⟨by simp, hMid, fun later => bind_of_failed (hLater later)⟩
  · exact absurd rfl hOff
  · rw [bind_of_outOfFuel h]
    exact ⟨by simp, hMid, fun later => bind_of_outOfFuel (hLater later)⟩

theorem stopsAtEnd_of_head
    (hp : ∀ t ts, (p (t :: ts)).ending ≠ .offEnd ∧ (HasEnd (t :: ts) → HasEnd (p (t :: ts)).rest) ∧
      ∀ later, p (t :: ts ++ later) = (p (t :: ts)).before later) :
    StopsAtEnd p := by
  intro ts hEnd
  obtain ⟨t, rest, rfl⟩ := hEnd.ne_nil
  exact ⟨(hp t rest).1, (hp t rest).2.1 hEnd, (hp t rest).2.2⟩

theorem accept_stopsAtEnd {kinds : List Kind} (hKinds : .endOfFile ∉ kinds) : StopsAtEnd (accept kinds) := by
  refine stopsAtEnd_of_head fun t ts => ?_
  by_cases hMem : t.kind ∈ kinds
  · have ht : t.kind ≠ .endOfFile := fun hKind => hKinds (hKind ▸ hMem)
    simp only [accept, contains_eq_mem, hMem, decide_true, if_true, cons_append]
    exact ⟨by simp, fun hEnd => hEnd.tail ht, fun later => rfl⟩
  · simp only [accept, contains_eq_mem, hMem, decide_false, cons_append]
    exact ⟨by simp, id, fun later => rfl⟩

/-- Skipping ends well if there is an end token, and says nothing. -/
theorem skipFrom_of_hasEnd (previous : Token) (ts : List Token) (hEnd : HasEnd ts) :
    ∃ rest, HasEnd rest ∧ ∀ later, skipFrom previous (ts ++ later) = ⟨.ok (), rest ++ later, []⟩ := by
  induction ts generalizing previous with
  | nil => simp [HasEnd] at hEnd
  | cons t ts ih =>
    by_cases hStop : t.kind = .endOfFile ∨ previous.kind = .semicolon ∨ t.kind ∈ restarts
    · exact ⟨t :: ts, hEnd, fun later => by rw [cons_append, skipFrom, if_pos hStop]⟩
    · have ht : t.kind ≠ .endOfFile := fun hKind => hStop (.inl hKind)
      obtain ⟨rest, hRest, hLater⟩ := ih t (hEnd.tail ht)
      refine ⟨rest, hRest, fun later => ?_⟩
      rw [cons_append, skipFrom, if_neg hStop, hLater later]

theorem synchronize_of_hasEnd (ts : List Token) (hEnd : HasEnd ts) :
    ∃ rest, HasEnd rest ∧ ∀ later, synchronize (ts ++ later) = ⟨.ok (), rest ++ later, []⟩ := by
  obtain ⟨t, rest, rfl⟩ := hEnd.ne_nil
  by_cases ht : t.kind = .endOfFile
  · exact ⟨t :: rest, hEnd, fun later => by rw [cons_append, synchronize, if_pos ht]⟩
  · obtain ⟨left, hLeft, hLater⟩ := skipFrom_of_hasEnd t rest (hEnd.tail ht)
    exact ⟨left, hLeft, fun later => by
      rw [cons_append, synchronize, if_neg ht, hLater later]⟩

theorem StopsAtEnd.recover (hp : StopsAtEnd p) : StopsAtEnd (recover p) := by
  intro ts hEnd
  obtain ⟨hOff, hMid, hLater⟩ := hp ts hEnd
  rcases h : p ts with ⟨a | _ | _ | _, mid, ds⟩ <;> rw [h] at hOff hMid hLater
  · simp only [Parser.recover, h, hLater]
    exact ⟨by simp, hMid, fun later => rfl⟩
  · obtain ⟨rest, hRest, hSkip⟩ := synchronize_of_hasEnd mid hMid
    have hAlone := hSkip []
    simp only [append_nil] at hAlone
    simp only [Parser.recover, h, hLater, hAlone, Reply.before, hSkip]
    exact ⟨by simp, hRest, fun _ => trivial⟩
  · exact absurd rfl hOff
  · simp only [Parser.recover, h, hLater]
    exact ⟨by simp, hMid, fun later => rfl⟩

theorem stopsAtEnd_congruence : Congruence id fun _ p _ => StopsAtEnd p where
  spent _ _ ts hEnd := ⟨by simp [spent], hEnd, fun _ => rfl⟩
  pure _ ts hEnd := ⟨by simp [pure_apply], hEnd, fun _ => rfl⟩
  bind hp hf := hp.bind hf
  peek := stopsAtEnd_of_head fun _ _ => ⟨by simp [peek], id, fun _ => rfl⟩
  complain _ _ ts hEnd := ⟨by simp [complain], hEnd, fun _ => rfl⟩
  refuse _ _ := stopsAtEnd_of_head fun _ _ => ⟨by simp [refuse], id, fun _ => rfl⟩
  accept hKinds := accept_stopsAtEnd hKinds
  recover hp := hp.recover

/-! ## What is left, and failures -/

/-- What a parser leaves is a tail of what it was given, and it does not fail in silence. -/
def Orderly (p : Parser α) : Prop := ∀ ts, (p ts).rest <:+ ts ∧ ((p ts).ending = .failed → (p ts).diagnostics ≠ [])

theorem Orderly.bind (hp : Orderly p) (hf : ∀ a, Orderly (f a)) : Orderly (p >>= f) := by
  intro ts
  obtain ⟨hMid, hTold⟩ := hp ts
  rcases h : p ts with ⟨a | _ | _ | _, mid, ds⟩ <;> rw [h] at hMid hTold
  · obtain ⟨hRest, hTold'⟩ := hf a mid
    rw [bind_of_ok h]
    refine ⟨hRest.trans hMid, fun hFailed => ?_⟩
    exact append_ne_nil_of_right_ne_nil ds (hTold' hFailed)
  · rw [bind_of_failed h]
    exact ⟨hMid, fun _ => hTold rfl⟩
  · rw [bind_of_offEnd h]
    exact ⟨hMid, fun h => by cases h⟩
  · rw [bind_of_outOfFuel h]
    exact ⟨hMid, fun h => by cases h⟩

theorem skipFrom_orderly (previous : Token) : Orderly (skipFrom previous) := by
  intro ts
  induction ts generalizing previous with
  | nil => exact ⟨suffix_rfl, fun h => by cases h⟩
  | cons t ts ih =>
    rw [skipFrom]
    split
    · exact ⟨suffix_rfl, fun h => by cases h⟩
    · exact ⟨(ih t).1.trans (suffix_cons t ts), (ih t).2⟩

theorem synchronize_orderly : Orderly synchronize := by
  intro ts
  cases ts with
  | nil => exact ⟨suffix_rfl, fun h => by cases h⟩
  | cons t ts =>
    rw [synchronize]
    split
    · exact ⟨suffix_rfl, fun h => by cases h⟩
    · exact ⟨(skipFrom_orderly t ts).1.trans (suffix_cons t ts), (skipFrom_orderly t ts).2⟩

theorem Orderly.recover (hp : Orderly p) : Orderly (recover p) := by
  intro ts
  obtain ⟨hMid, hTold⟩ := hp ts
  rcases h : p ts with ⟨a | _ | _ | _, mid, ds⟩ <;> rw [h] at hMid hTold
  · simp only [Parser.recover, h]
    exact ⟨hMid, fun h => by cases h⟩
  · obtain ⟨hRest, -⟩ := synchronize_orderly mid
    rcases hSkip : synchronize mid with ⟨_ | _ | _ | _, rest, more⟩ <;> rw [hSkip] at hRest <;>
      simp only [Parser.recover, h, hSkip]
    · exact ⟨hRest.trans hMid, fun h => by cases h⟩
    · exact ⟨hRest.trans hMid, fun _ => append_ne_nil_of_left_ne_nil (hTold rfl) more⟩
    · exact ⟨hRest.trans hMid, fun h => by cases h⟩
    · exact ⟨hRest.trans hMid, fun h => by cases h⟩
  · simp only [Parser.recover, h]
    exact ⟨hMid, fun h => by cases h⟩
  · simp only [Parser.recover, h]
    exact ⟨hMid, fun h => by cases h⟩

theorem accept_orderly (kinds : List Kind) : Orderly (accept kinds) := by
  intro ts
  cases ts with
  | nil => exact ⟨suffix_rfl, fun h => by cases h⟩
  | cons t ts =>
    rw [accept]
    split
    · exact ⟨suffix_cons t ts, fun h => by cases h⟩
    · exact ⟨suffix_rfl, fun h => by cases h⟩

theorem orderly_congruence : Congruence id fun _ p _ => Orderly p where
  spent _ _ ts := ⟨suffix_rfl, fun h => by cases h⟩
  pure _ ts := ⟨suffix_rfl, fun h => by cases h⟩
  bind hp hf := hp.bind hf
  peek ts := by cases ts <;> exact ⟨suffix_rfl, fun h => by cases h⟩
  complain _ _ ts := ⟨suffix_rfl, fun h => by cases h⟩
  refuse _ _ ts := by
    cases ts with
    | nil => exact ⟨suffix_rfl, fun h => by cases h⟩
    | cons t ts => exact ⟨suffix_rfl, fun _ => cons_ne_nil _ _⟩
  accept _ := accept_orderly _
  recover hp := hp.recover

theorem Orderly.length_le (hp : Orderly p) {e : Ending α} (h : p ts = ⟨e, rest, ds⟩) : rest.length ≤ ts.length := by
  have hRest := (hp ts).1
  rw [h] at hRest
  exact hRest.length_le

theorem skipFrom_ending (previous : Token) (ts : List Token) :
    (skipFrom previous ts).ending = .ok () ∨ (skipFrom previous ts).ending = .offEnd := by
  induction ts generalizing previous with
  | nil => exact .inr rfl
  | cons t ts ih =>
    rw [skipFrom]
    split
    · exact .inl rfl
    · exact ih t

/-- Skipping finds a place to go on, or runs off the end. -/
theorem synchronize_ending (ts : List Token) :
    (synchronize ts).ending = .ok () ∨ (synchronize ts).ending = .offEnd := by
  cases ts with
  | nil => exact .inr rfl
  | cons t ts =>
    rw [synchronize]
    split
    · exact .inl rfl
    · exact skipFrom_ending t ts

end Parser

open Braced.Parser

/-- What a declaration is before it is made up for. -/
theorem declarationBody_orderly (n : Nat) : Orderly (accept [.fn, .struct, .let, .const] >>= fun
    | none => statement n
    | some t => keywordDeclaration n (declarations n) t) := by
  have hO := orderly_congruence.statements (Nat.le_refl n)
  refine (accept_orderly _).bind fun found => ?_
  cases found with
  | none => exact hO.statement
  | some t => exact orderly_congruence.keywordDeclaration (q := declarations n) (Nat.le_refl n) hO.declarations t

end Scriptling.Braced
