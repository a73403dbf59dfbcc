import Scriptling.Proofs.Braced.Relocation
import Scriptling.Proofs.Braced.Scanned

/-!
# Parsing goes on to the end

Whatever the tokens are, parsing reads them all, up to the first end token. It has fuel enough, it does not
run off the list, and no failure gets out of a declaration: so it can only end with a result, and only before
an end token.
-/

namespace Scriptling.Braced

open List

variable {before : List Token} {e : Token}

open Braced.Parser

variable {α : Type}

/-! ## No failure gets out -/

theorem recover_ne_failed (p : Parser α) (ts : List Token) : (recover p ts).ending ≠ .failed := by
  rcases h : p ts with ⟨a | _ | _ | _, mid, ds⟩ <;> simp only [recover, h]
  · simp
  · have hSkip := synchronize_ending mid
    rcases hSync : synchronize mid with ⟨u | _ | _ | _, rest, more⟩ <;> rw [hSync] at hSkip
    · simp
    · simp at hSkip
    · simp
    · simp
  · simp
  · simp

theorem declaration_ne_failed (n : Nat) (ts : List Token) : (declaration n ts).ending ≠ .failed := by
  cases n with
  | zero => simp [declaration, spent]
  | succ n =>
    rw [declaration]
    exact recover_ne_failed _ ts

/-- A program is read up to an end token, if it does not run off the tokens or out of fuel. -/
theorem program_ending (n : Nat) (ts : List Token) :
    (∃ stmts e more ds, e.kind = .endOfFile ∧ program n ts = ⟨.ok stmts, e :: more, ds⟩) ∨
      (program n ts).ending = .offEnd ∨ (program n ts).ending = .outOfFuel := by
  induction n generalizing ts with
  | zero => exact .inr (.inr rfl)
  | succ n ih =>
    cases ts with
    | nil => exact .inr (.inl rfl)
    | cons t ts =>
      rw [program]
      by_cases hEnd : t.kind ∈ [Kind.endOfFile]
      · rw [unlessSees_of_mem hEnd]
        exact .inl ⟨[], t, ts, [], by simpa using hEnd, rfl⟩
      · rw [unlessSees_of_notMem hEnd]
        have hRun := declaration_ne_failed n (t :: ts)
        rcases h : declaration n (t :: ts) with ⟨found | _ | _ | _, mid, ds⟩ <;> rw [h] at hRun
        · rw [bind_of_ok h]
          rcases ih mid with ⟨stmts, e, more, ds', he, hMore⟩ | hOff | hSpent
          · rw [bind_of_ok hMore]
            exact .inl ⟨found.toList ++ stmts, e, more, _, he, rfl⟩
          · rcases hMore : program n mid with ⟨_ | _ | _ | _, rest, ds'⟩ <;>
              rw [hMore] at hOff <;> cases hOff
            rw [bind_of_offEnd hMore]
            exact .inr (.inl rfl)
          · rcases hMore : program n mid with ⟨_ | _ | _ | _, rest, ds'⟩ <;>
              rw [hMore] at hSpent <;> cases hSpent
            rw [bind_of_outOfFuel hMore]
            exact .inr (.inr rfl)
        · exact absurd rfl hRun
        · rw [bind_of_offEnd h]
          exact .inr (.inl rfl)
        · rw [bind_of_outOfFuel h]
          exact .inr (.inr rfl)

/-! ## The whole list -/

/-- A tail that begins with an end token begins with the first one, if there is no other before it. -/
theorem suffix_eq_singleton {more : List Token} {e' : Token} (hBefore : ∀ t ∈ before, t.kind ≠ .endOfFile)
    (he' : e'.kind = .endOfFile) (h : e' :: more <:+ before ++ [e]) : e' :: more = [e] := by
  induction before with
  | nil => exact h.eq_of_length_le (by simp)
  | cons t before ih =>
    rcases suffix_cons_iff.mp h with hSame | hTail
    · obtain ⟨rfl, -⟩ := List.cons.inj hSame
      exact absurd he' (hBefore e' (by simp))
    · exact ih (fun u hu => hBefore u (by simp [hu])) hTail

/-- **Parsing reads all tokens before the first end token and none behind it.** The result and the
complaints are the same for all fuel that is enough and for all that follows the end token. -/
theorem program_eq_ok (hBefore : ∀ t ∈ before, t.kind ≠ .endOfFile) (he : e.kind = .endOfFile) :
    ∃ stmts ds, ∀ n later, fuelFor (before.length + 1) ≤ n →
      program n (before ++ e :: later) = ⟨.ok stmts, e :: later, ds⟩ := by
  have hEnd : HasEnd (before ++ [e]) := ⟨e, by simp, he⟩
  have hFuel : Fed (program (fuelFor (before.length + 1))) (before.length + 1) 0 :=
    program_fed (by unfold fuelFor; omega)
  have hStops : StopsAtEnd (program (fuelFor (before.length + 1))) := stopsAtEnd_congruence.program (Nat.le_refl _)
  obtain ⟨hOff, hMore, hLater⟩ := hStops _ hEnd
  have hSpent := (hFuel (before ++ [e]) (by simp)).1
  rcases program_ending (fuelFor (before.length + 1)) (before ++ [e]) with
    ⟨stmts, e', more, ds, he', hRun⟩ | hOff' | hSpent'
  · have hOrderly : Orderly (program (fuelFor (before.length + 1))) :=
      orderly_congruence.program (Nat.le_refl _)
    have hTail : e' :: more <:+ before ++ [e] := by
      have hRest := (hOrderly (before ++ [e])).1
      rwa [hRun] at hRest
    -- The end token it stopped at is the first, so the answer is known for one amount of fuel; more
    -- fuel and more tokens behind the end change nothing.
    rw [suffix_eq_singleton hBefore he' hTail] at hRun
    refine ⟨stmts, ds, fun n later hn => ?_⟩
    have hThere : program (fuelFor (before.length + 1)) (before ++ e :: later) = ⟨.ok stmts, e :: later, ds⟩ := by
      rw [append_cons, hLater later, hRun]
      rfl
    rcases program_below hn (before ++ e :: later) with hNone | hSame
    · rw [hThere] at hNone
      cases hNone
    · rw [← hSame, hThere]
  · exact absurd hOff' hOff
  · exact absurd hSpent' hSpent

theorem parse_eq_ok (hBefore : ∀ t ∈ before, t.kind ≠ .endOfFile) (he : e.kind = .endOfFile) :
    ∃ stmts ds, ∀ later, parse (before ++ e :: later) = ⟨.ok stmts, e :: later, ds⟩ := by
  obtain ⟨stmts, ds, hRun⟩ := program_eq_ok hBefore he
  refine ⟨stmts, ds, fun later => hRun _ later ?_⟩
  simp only [fuelFor, length_append, length_cons]
  omega

/-- A text that is scanned to its end is parsed to its end token. -/
theorem exists_parse_scan {source : String} (h : (scan source).stopped = none) :
    ∃ body last stmts ds, (scan source).tokens = body ++ [.eof last] ∧ (∀ t ∈ body, t.Scanned) ∧
      parse (scan source).tokens = ⟨.ok stmts, [.eof last], ds⟩ := by
  obtain ⟨body, last, hTokens, hScanned⟩ := scan_tokens h
  obtain ⟨stmts, ds, hParse⟩ := parse_eq_ok (fun t ht => (hScanned t ht).kind_ne) (e := .eof last) rfl
  exact ⟨body, last, stmts, ds, hTokens, hScanned, hTokens ▸ hParse []⟩

def endIndex (tokens : List Token) : Nat := tokens.findIdx (·.kind == .endOfFile)

theorem Parser.HasEnd.split {tokens : List Token} (h : HasEnd tokens) :
    ∃ before e later, tokens = before ++ e :: later ∧ (∀ t ∈ before, t.kind ≠ .endOfFile) ∧
      e.kind = .endOfFile ∧ endIndex tokens = before.length := by
  induction tokens with
  | nil => simp [HasEnd] at h
  | cons t ts ih =>
    by_cases ht : t.kind = .endOfFile
    · exact ⟨[], t, ts, rfl, by simp, ht, by simp [endIndex, findIdx_cons, ht]⟩
    · obtain ⟨before, e, later, rfl, hBefore, he, hIndex⟩ := ih (h.tail ht)
      refine ⟨t :: before, e, later, rfl, ?_, he, ?_⟩
      · intro u hu
        rcases mem_cons.mp hu with rfl | hu
        · exact ht
        · exact hBefore u hu
      · have hNot : (t.kind == .endOfFile) = false := by simpa using ht
        simpa [endIndex, findIdx_cons, hNot] using hIndex

end Scriptling.Braced
