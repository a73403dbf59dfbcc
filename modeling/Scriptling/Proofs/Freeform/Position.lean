import Mathlib.Data.Prod.Lex
import Scriptling.Proofs.Freeform.Segmentation

/-!
# Lines and columns

The place of a token is counted while reading. A line feed sets the column back and is then counted itself, so from
the second line on all columns are one too high (`lex_columns`). Lines are right everywhere, and the places of the
tokens ascend (`lex_lines`).
-/

namespace Scriptling.Freeform

open List

/-! ## The place behind a text -/

def lineBehind (past : List Char) : Nat := past.count '\n' + 1

/-- The column that a text leads to, counted from its last line feed. -/
def columnBehind (past : List Char) : Nat := (past.reverse.takeWhile (· != '\n')).length + 1

/-- By how much the column behind a text is counted too high: line feeds are counted as part of the next line. -/
def lateness (past : List Char) : Nat := if '\n' ∈ past then 1 else 0

/-- The line is counted and the column set back before the line feed is passed, so the next line begins at two. -/
theorem Cursor.skip_lineFeed (place : Cursor) : place.skip '\n' = ⟨place.pos + 1, place.line + 1, 2⟩ := rfl

theorem placeBehind_eq (past : List Char) :
    placeBehind past = ⟨past.length, lineBehind past, columnBehind past + lateness past⟩ := by
  induction past using List.reverseRecOn with
  | nil => rfl
  | append_singleton past c ih =>
    have hStep : placeBehind (past ++ [c]) = (placeBehind past).skip c := placeBehind_append past [c]
    rw [hStep, ih]
    by_cases hLine : c = '\n'
    · subst hLine
      simp [Cursor.skip_lineFeed, lineBehind, columnBehind, lateness]
    · have hColumn : columnBehind (past ++ [c]) = columnBehind past + 1 := by simp [columnBehind, hLine]
      have hLate : lateness (past ++ [c]) = lateness past := by simp [lateness, Ne.symm hLine]
      rw [hColumn, hLate, Nat.add_right_comm]
      simp [Cursor.skip, Cursor.advance, lineBehind, hLine]

/-! ## Places ascend -/

/-- The line and the column of a place; the line is compared first. -/
def Cursor.spot (place : Cursor) : Nat ×ₗ Nat := toLex (place.line, place.column)

/-- The line and the column of a token; the line is compared first. -/
def Token.spot (t : Token) : Nat ×ₗ Nat := toLex (t.line, t.column)

theorem Cursor.spot_lt_skip (place : Cursor) (c : Char) : place.spot < (place.skip c).spot := by
  unfold Cursor.skip
  split
  · exact Prod.Lex.toLex_lt_toLex.mpr (.inl (Nat.lt_succ_self place.line))
  · exact Prod.Lex.toLex_lt_toLex.mpr (.inr ⟨rfl, Nat.lt_succ_self place.column⟩)

theorem Cursor.spot_lt_foldl_skip (place : Cursor) (c : Char) (text : List Char) :
    place.spot < ((c :: text).foldl Cursor.skip place).spot := by
  induction text generalizing place c with
  | nil => exact place.spot_lt_skip c
  | cons d text ih => exact (place.spot_lt_skip c).trans (ih (place.skip c) d)

/-- The other token begins further on in the text. -/
def Beginning.Ahead (b b' : Beginning) : Prop := ∃ more, more ≠ [] ∧ b'.past = b.past ++ more

theorem Beginning.Ahead.spot_lt {b b' : Beginning} (h : b.Ahead b') : b.token.spot < b'.token.spot := by
  obtain ⟨more, hMore, hPast⟩ := h
  obtain ⟨c, cs, rfl⟩ := exists_cons_of_ne_nil hMore
  have hBefore := (placeBehind b.past).spot_lt_foldl_skip c cs
  rw [← placeBehind_append, ← hPast] at hBefore
  exact hBefore

theorem past_of_mem_beginnings {past : List Char} {pieces : List Piece} {b : Beginning}
    (h : b ∈ beginnings past pieces) : past <+: b.past := by
  induction pieces generalizing past with
  | nil => simp [beginnings] at h
  | cons p later ih =>
    rw [beginnings, mem_append, Option.mem_toList, Option.map_eq_some_iff] at h
    rcases h with ⟨m, -, rfl⟩ | hLater
    · exact prefix_rfl
    · exact (prefix_append past p.text).trans (ih hLater)

/-- Tokens begin one ahead of the other, up to one at the end of the text. -/
theorem pairwise_beginnings {past : List Char} {pieces : List Piece} (hText : ∀ p ∈ pieces, p.text ≠ [])
    {last : Option Beginning} (hLast : ∀ b ∈ last, b.past = past ++ pieces.flatMap Piece.text) :
    (beginnings past pieces ++ last.toList).Pairwise Beginning.Ahead := by
  induction pieces generalizing past with
  | nil => cases last <;> simp [beginnings]
  | cons p later ih =>
    obtain ⟨hFirst, hLater⟩ := forall_mem_cons.mp hText
    have hLast' : ∀ b ∈ last, b.past = past ++ p.text ++ later.flatMap Piece.text := by
      intro b hb
      rw [hLast b hb, flatMap_cons, append_assoc]
    have hTail := ih hLater hLast'
    rw [beginnings, append_assoc]
    cases hMade : p.made with
    | none => simpa using hTail
    | some m =>
      -- every later token begins behind the text of the piece, which is not empty
      have hCons : ∀ b ∈ beginnings (past ++ p.text) later ++ last.toList, Beginning.Ahead ⟨past, m.1, m.2⟩ b := by
        intro b hb
        have hPast : past ++ p.text <+: b.past := by
          rcases mem_append.mp hb with hb | hb
          · exact past_of_mem_beginnings hb
          · rw [hLast' b (by simpa using hb)]
            exact prefix_append _ _
        obtain ⟨more, hMore⟩ := hPast
        refine ⟨p.text ++ more, by simp [hFirst], ?_⟩
        rw [← hMore, append_assoc]
      exact pairwise_cons.mpr ⟨hCons, hTail⟩

theorem Cuts.text_ne_nil {text rest : List Char} {pieces : List Piece} (h : Cuts text pieces rest) :
    ∀ p ∈ pieces, p.text ≠ [] := by
  intro p hp
  obtain ⟨before, after, hSplit⟩ := append_of_mem hp
  exact (h.stands hSplit).text_ne_nil

theorem Segmentation.pairwise_beginnings {source : List Char} (s : Segmentation source) :
    s.beginnings.Pairwise Beginning.Ahead := by
  have hSource := s.source_eq
  by_cases hRest : s.rest = []
  · rw [hRest, append_nil] at hSource
    have hPairwise := @Freeform.pairwise_beginnings [] s.pieces s.cuts.text_ne_nil
      (some ⟨source, .endOfText, .none⟩) (by simpa using hSource)
    simpa [Segmentation.beginnings, hRest] using hPairwise
  · have hPairwise := @Freeform.pairwise_beginnings [] s.pieces s.cuts.text_ne_nil none (by simp)
    simpa [Segmentation.beginnings, hRest] using hPairwise

/-! ## The places of tokens -/

/-- What is true of each beginning and its token is true of all tokens that are read. -/
theorem Segmentation.forall₂_tokens {source : String} (s : Segmentation source.toList) {r : Beginning → Token → Prop}
    (h : ∀ b : Beginning, r b b.token) : List.Forall₂ r s.beginnings (lex source).tokens := by
  rw [lex, s.tokens_eq, forall₂_map_right_iff, forall₂_same]
  exact fun b _ => h b

/-- **Columns are right on the first line and one too high on all others.** The column of a failure at an unexpected
character is counted in the same way, and its line is right. -/
theorem lex_columns (source : String) :
    ∃ s : Segmentation source.toList,
      List.Forall₂ (fun (b : Beginning) (t : Token) => t.kind = b.kind ∧ t.value = b.value ∧
        t.column = columnBehind b.past + lateness b.past) s.beginnings (lex source).tokens ∧
      ∀ f c, (lex source).failure? = some f → f.cause = .unexpected c →
        let past := s.pieces.flatMap Piece.text
        s.rest.head? = some c ∧ f.place.line = lineBehind past ∧
          f.place.column = columnBehind past + lateness past := by
  obtain ⟨s⟩ : Nonempty (Segmentation source.toList) := inferInstance
  refine ⟨s, s.forall₂_tokens fun b => ⟨rfl, rfl, ?_⟩, fun f c hFailure hCause => ?_⟩
  · exact congrArg Cursor.column (placeBehind_eq b.past)
  · have hRefused : Refused s.rest := by
      refine s.rest_ne_nil_iff.mp fun hRest => ?_
      cases hFailure.symm.trans (s.failure?_eq_none_iff.mpr hRest)
    obtain ⟨g, hRead, hUnexpected⟩ := s.lexFrom_refused hRefused
    obtain rfl : g = f := by
      rw [lex, hRead] at hFailure
      exact Option.some.inj hFailure
    obtain ⟨hHead, hPlace⟩ := hUnexpected c hCause
    rw [placeBehind_eq] at hPlace
    exact ⟨hHead, congrArg Cursor.line hPlace, congrArg Cursor.column hPlace⟩

/-- An unexpected character on the second line. -/
theorem lex_columns_stray :
    let source := "let x\n  @"
    ∃ (s : Segmentation source.toList) (f : Failure), (lex source).failure? = some f ∧ f.cause = .unexpected '@' ∧
      let past := s.pieces.flatMap Piece.text
      s.rest.head? = some '@' ∧ f.place.line = lineBehind past ∧
        f.place.column = columnBehind past + lateness past := by
  intro source
  have hCause : (lex source).failure?.map Failure.cause = some (.unexpected '@') := by decide +kernel
  obtain ⟨f, hFailure, hCause⟩ := Option.map_eq_some_iff.mp hCause
  obtain ⟨s, -, hPlace⟩ := lex_columns source
  exact ⟨s, f, hFailure, hCause, hPlace f '@' hFailure hCause⟩

/-- The first character of the second line is in column one but is counted in column two. -/
theorem second_line_late :
    columnBehind ['\n'] = 1 ∧ (lex "\nx").failure? = none ∧
      (lex "\nx").tokens.map (fun t => (t.line, t.column)) = [(2, 2), (2, 3)] := by
  decide +kernel

/-- **Lines are right, strings stay on their line, and places ascend.** This holds of all tokens that are found,
whether or not reading fails behind them. -/
theorem lex_lines (source : String) :
    ∃ s : Segmentation source.toList,
      List.Forall₂ (fun (b : Beginning) (t : Token) => t.kind = b.kind ∧ t.value = b.value ∧
        t.line = lineBehind b.past) s.beginnings (lex source).tokens ∧
      (∀ p ∈ s.pieces, ∀ value, p.made = some (.string, value) → '\n' ∉ p.text) ∧
      (lex source).tokens.Pairwise fun t u => t.spot < u.spot := by
  obtain ⟨s⟩ : Nonempty (Segmentation source.toList) := inferInstance
  refine ⟨s, s.forall₂_tokens fun b => ⟨rfl, rfl, ?_⟩, fun p hp value hMade => ?_, ?_⟩
  · exact congrArg Cursor.line (placeBehind_eq b.past)
  · obtain ⟨before, after, hSplit⟩ := append_of_mem hp
    rcases (s.cuts.stands hSplit).inline with ⟨c, rfl, -⟩ | hInline
    · cases hMade
    · exact hInline
  · rw [lex, s.tokens_eq, pairwise_map]
    exact s.pairwise_beginnings.imp Beginning.Ahead.spot_lt

end Scriptling.Freeform
