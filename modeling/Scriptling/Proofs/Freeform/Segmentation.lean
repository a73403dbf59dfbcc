import Scriptling.Proofs.Freeform.Piece

/-!
# Cutting a text into pieces

A text is cut by taking the piece in front again and again, up to its end or to the first thing that is refused.
There is exactly one way to do so (`Segmentation`), and reading follows it: a text is read to its end exactly if
nothing is refused, and otherwise the tokens are those of the text cut before what is refused (`lex_fails_iff`).
The texts of the pieces make up the whole text, so what makes no token is all that is lost: blanks, and lines from a
slash on, whether or not a second slash follows it (`lex_drops`).
-/

namespace Scriptling.Freeform

open Text List Piece

/-! ## The cut -/

/-- The text is these pieces, each one where a token can begin, and the rest. -/
inductive Cuts : List Char → List Piece → List Char → Prop where
  | nil {rest} : Cuts rest [] rest
  | cons {p later following rest} : p.Stands following →
      Cuts following later rest → Cuts (p.text ++ following) (p :: later) rest

/-- A text cut into pieces, up to its end or to the first thing that is refused. -/
structure Segmentation (source : List Char) where
  pieces : List Piece
  rest : List Char
  cuts : Cuts source pieces rest
  final : rest = [] ∨ Refused rest

namespace Piece.Stands

variable {p p' : Piece} {following following' : List Char} (h : p.Stands following)

include h

theorem text_ne_nil : p.text ≠ [] := by
  obtain ⟨c, cs, hText, -⟩ := h.step .start
  simp [hText]

/-- With less behind it, a piece is still one. -/
theorem cut {front : List Char} (hFront : front <+: following) : p.Stands front := by
  cases h with
  | blank hBlank => exact .blank hBlank
  | slash hRun => exact .slash (hRun.cut hFront)
  | word hFirst hRun => exact .word hFirst (hRun.cut hFront)
  | number hFirst hRun hValue => exact .number hFirst (hRun.cut hFront) hValue
  | string hQuote hSpells => exact .string hQuote hSpells
  | operator hFirst hSlash hRun => exact .operator hFirst hSlash (hRun.cut hFront)
  | delimiter hFirst => exact .delimiter hFirst

/-- There is only one piece in front of a text. -/
theorem unique (h' : p'.Stands following') (hText : p.text ++ following = p'.text ++ following') :
    p = p' ∧ following = following' := by
  obtain ⟨c, cs, hFirst, hStep⟩ := h.step .start
  obtain ⟨c', cs', hFirst', hStep'⟩ := h'.step .start
  rw [hFirst, hFirst', cons_append, cons_append] at hText
  obtain ⟨rfl, hLater⟩ := List.cons.inj hText
  rw [hLater, hStep'] at hStep
  obtain ⟨hToken, -, rfl⟩ := Lexeme.mk.inj (Except.ok.inj hStep)
  have hSame : p.text = p'.text := by rw [hFirst, hFirst', append_cancel_right hLater]
  have hMade : p.made = p'.made := by
    refine Option.map_injective (fun m m' hEq => ?_) hToken.symm
    exact Prod.ext (congrArg Token.kind hEq) (congrArg Token.value hEq)
  obtain ⟨text, made⟩ := p
  obtain ⟨text', made'⟩ := p'
  exact ⟨mk.injEq .. ▸ ⟨hSame, hMade⟩, rfl⟩

/-- No piece is in front of a text that is refused. -/
theorem not_refused : ¬ Refused (p.text ++ following) := by
  intro hRefused
  obtain ⟨c, cs, hText, hStep⟩ := h.step .start
  rw [hText] at hRefused
  obtain ⟨f, hFails, -⟩ := hRefused.step .start
  cases hStep.symm.trans hFails

end Piece.Stands

theorem not_refused_nil : ¬ Refused [] := by
  intro h
  cases h

namespace Cuts

variable {text rest : List Char} {pieces : List Piece} (h : Cuts text pieces rest)

include h

theorem text_eq : text = pieces.flatMap Piece.text ++ rest := by
  induction h with
  | nil => rfl
  | cons _ _ ih => rw [flatMap_cons, append_assoc, ← ih]

/-- A text that ends behind some pieces is cut into the same pieces. -/
theorem truncate : Cuts (pieces.flatMap Piece.text) pieces [] := by
  induction h with
  | nil => exact .nil
  | cons hStands hLater ih =>
    have hFront := hLater.text_eq ▸ prefix_append _ _
    exact .cons (hStands.cut hFront) ih

theorem stands {before after : List Piece} {p : Piece} (hSplit : pieces = before ++ p :: after) :
    p.Stands (after.flatMap Piece.text ++ rest) := by
  induction h generalizing before with
  | nil => simp at hSplit
  | cons hStands hLater ih =>
    cases before with
    | nil =>
      obtain ⟨rfl, rfl⟩ := List.cons.inj hSplit
      rwa [← hLater.text_eq]
    | cons b before => exact ih (List.cons.inj hSplit).2

theorem unique (hFinal : rest = [] ∨ Refused rest) {pieces' : List Piece}
    {rest' : List Char} (h' : Cuts text pieces' rest') (hFinal' : rest' = [] ∨ Refused rest') :
    pieces = pieces' ∧ rest = rest' := by
  -- a finished rest has no piece in front
  have hStop {p : Piece} {following : List Char} (hStands : p.Stands following)
      (hEnd : p.text ++ following = [] ∨ Refused (p.text ++ following)) : False := by
    rcases hEnd with hNil | hRefused
    · exact hStands.text_ne_nil (append_eq_nil_iff.mp hNil).1
    · exact hStands.not_refused hRefused
  induction h generalizing pieces' with
  | nil =>
    cases h' with
    | nil => exact ⟨rfl, rfl⟩
    | cons hStands => exact (hStop hStands hFinal).elim
  | @cons p later following rest hStands hLater ih =>
    generalize hText : p.text ++ following = text at h'
    cases h' with
    | nil =>
      rw [← hText] at hFinal'
      exact (hStop hStands hFinal').elim
    | cons hStands' hLater' =>
      obtain ⟨rfl, rfl⟩ := hStands.unique hStands' hText
      obtain ⟨rfl, rfl⟩ := ih hFinal hLater'
      exact ⟨rfl, rfl⟩

end Cuts

theorem exists_cuts (text : List Char) : ∃ pieces rest, Cuts text pieces rest ∧ (rest = [] ∨ Refused rest) := by
  induction hLength : text.length using Nat.strongRecOn generalizing text with
  | ind n ih =>
    cases text with
    | nil => exact ⟨[], [], .nil, .inl rfl⟩
    | cons c cs =>
      rcases stands_or_refused c cs with ⟨p, following, hText, hStands⟩ | hRefused
      · have hShorter : following.length < n := by
          have := length_pos_iff.mpr hStands.text_ne_nil
          rw [← hLength, hText, length_append]
          omega
        obtain ⟨pieces, rest, hCuts, hFinal⟩ := ih _ hShorter following rfl
        rw [hText]
        exact ⟨p :: pieces, rest, .cons hStands hCuts, hFinal⟩
      · exact ⟨[], c :: cs, .nil, .inr hRefused⟩

instance (source : List Char) : Nonempty (Segmentation source) := by
  obtain ⟨pieces, rest, hCuts, hFinal⟩ := exists_cuts source
  exact ⟨⟨pieces, rest, hCuts, hFinal⟩⟩

instance (source : List Char) : Subsingleton (Segmentation source) where
  allEq s s' := by
    obtain ⟨hPieces, hRest⟩ := s.cuts.unique s.final s'.cuts s'.final
    obtain ⟨pieces, rest, hCuts, hFinal⟩ := s
    obtain ⟨pieces', rest', hCuts', hFinal'⟩ := s'
    obtain rfl : pieces = pieces' := hPieces
    obtain rfl : rest = rest' := hRest
    rfl

/-! ## Reading follows the cut -/

def placeBehind (past : List Char) : Cursor := past.foldl Cursor.skip .start

/-- Where a token begins: the text before it, its kind and its value. -/
structure Beginning where
  past : List Char
  kind : Kind
  value : Datum

def Beginning.token (b : Beginning) : Token := .ofCursor b.kind b.value (placeBehind b.past)

/-- Where the tokens of pieces begin, if these stand behind a text. -/
def beginnings (past : List Char) : List Piece → List Beginning
  | [] => []
  | p :: later => (p.made.map fun m => ⟨past, m.1, m.2⟩).toList ++ beginnings (past ++ p.text) later

/-- Where the tokens of a text begin. A text that is cut to its end has the end token there. -/
def Segmentation.beginnings {source : List Char} (s : Segmentation source) : List Beginning :=
  Freeform.beginnings [] s.pieces ++ if s.rest = [] then [⟨source, .endOfText, .none⟩] else []

theorem placeBehind_append (past text : List Char) :
    placeBehind (past ++ text) = text.foldl Cursor.skip (placeBehind past) :=
  foldl_append

/-- **Pieces are read one after another.** Reading makes their tokens and goes on with the rest. -/
theorem Cuts.lexFrom {text rest : List Char} {pieces : List Piece} (h : Cuts text pieces rest) (past : List Char) :
    let later := lexFrom (placeBehind (past ++ pieces.flatMap Piece.text)) rest
    lexFrom (placeBehind past) text =
      { later with tokens := (beginnings past pieces).map Beginning.token ++ later.tokens } := by
  induction h generalizing past with
  | nil => simp [beginnings]
  | @cons p later following rest hStands _ ih =>
    obtain ⟨c, cs, hText, hStep⟩ := hStands.step (placeBehind past)
    have hTokens : (p.token? (placeBehind past)).toList =
        (p.made.map fun m => (⟨past, m.1, m.2⟩ : Beginning)).toList.map Beginning.token := by
      cases hMade : p.made with
      | none => simp [token?, hMade]
      | some m => simp [token?, hMade, Beginning.token]
    have hLater := ih (past ++ p.text)
    rw [placeBehind_append past p.text] at hLater
    rw [hText, cons_append, lexFrom_of_step hStep, hLater]
    simp only [flatMap_cons, ← append_assoc, beginnings, map_append, hTokens]

namespace Segmentation

variable {source : List Char} (s : Segmentation source)

theorem source_eq : source = s.pieces.flatMap text ++ s.rest := s.cuts.text_eq

/-- A text that is cut to its end is read to its end. -/
theorem lexFrom_finished (h : s.rest = []) :
    lexFrom .start source = ⟨s.beginnings.map Beginning.token, none, placeBehind source, []⟩ := by
  have hSource : s.pieces.flatMap text = source := by
    rw [← append_nil (List.flatMap _ _), ← h, ← s.source_eq]
  have hRead := s.cuts.lexFrom []
  rw [h, nil_append, hSource, lexFrom_nil] at hRead
  rw [show Cursor.start = placeBehind [] from rfl, hRead]
  simp [Segmentation.beginnings, h, Beginning.token]

/-- Reading fails at what is refused, for an unexpected character at the place behind the pieces. -/
theorem lexFrom_refused (h : Refused s.rest) :
    ∃ f, lexFrom .start source = ⟨s.beginnings.map Beginning.token, some f, f.place, f.rest⟩ ∧
      ∀ c, f.cause = .unexpected c → s.rest.head? = some c ∧ f.place = placeBehind (s.pieces.flatMap text) := by
  have hRead := s.cuts.lexFrom []
  have hMore : s.rest ≠ [] := fun hNil => not_refused_nil (hNil ▸ h)
  obtain ⟨c, cs, hRest⟩ := exists_cons_of_ne_nil hMore
  rw [hRest] at h
  obtain ⟨f, hFails, hCause⟩ := h.step (placeBehind (s.pieces.flatMap text))
  rw [hRest, nil_append, lexFrom_of_error hFails] at hRead
  refine ⟨f, ?_, fun d hd => ?_⟩
  · rw [show Cursor.start = placeBehind [] from rfl, hRead]
    simp [Segmentation.beginnings, hMore]
  · obtain ⟨rfl, hPlace⟩ := hCause d hd
    exact ⟨by rw [hRest]; rfl, hPlace⟩

/-- **The tokens of a text are those of its pieces.** -/
theorem tokens_eq : (lexFrom .start source).tokens = s.beginnings.map Beginning.token := by
  rcases s.final with hFinished | hRefused
  · rw [s.lexFrom_finished hFinished]
  · obtain ⟨f, hRead, -⟩ := s.lexFrom_refused hRefused
    rw [hRead]

theorem failure?_eq_none_iff : (lexFrom .start source).failure? = none ↔ s.rest = [] := by
  constructor
  · intro hNone
    refine s.final.resolve_right fun hRefused => ?_
    obtain ⟨f, hRead, -⟩ := s.lexFrom_refused hRefused
    rw [hRead] at hNone
    cases hNone
  · intro hFinished
    rw [s.lexFrom_finished hFinished]

theorem rest_ne_nil_iff : s.rest ≠ [] ↔ Refused s.rest := by
  constructor
  · exact s.final.resolve_left
  · exact fun hRefused hNil => not_refused_nil (hNil ▸ hRefused)

/-- The text up to what is refused, with the same pieces. -/
def truncated : Segmentation (s.pieces.flatMap text) := ⟨s.pieces, [], s.cuts.truncate, .inl rfl⟩

end Segmentation

/-- **Exactly when reading fails.** Every text has exactly one segmentation, with finitely many pieces. Reading fails
if and only if the segmentation ends at something that is refused, and comes to the end of the text otherwise. The
tokens found before a failure are those of the text cut at what is refused, but for the end token. -/
theorem lex_fails_iff (source : String) :
    ∃ s : Segmentation source.toList, (∀ other : Segmentation source.toList, other = s) ∧
      source.toList = s.pieces.flatMap Piece.text ++ s.rest ∧
      ((lex source).failure? ≠ none ↔ Refused s.rest) ∧ ((lex source).failure? = none ↔ s.rest = []) ∧
      (Refused s.rest → ∃ place, lex (String.ofList (s.pieces.flatMap Piece.text)) =
        ⟨(lex source).tokens ++ [.ofCursor .endOfText .none place], none, place, []⟩) := by
  obtain ⟨s⟩ : Nonempty (Segmentation source.toList) := inferInstance
  have hAccepts := s.failure?_eq_none_iff
  refine ⟨s, fun other => Subsingleton.elim other s, s.source_eq, ?_, hAccepts, fun hRefused => ?_⟩
  · exact (not_congr hAccepts).trans s.rest_ne_nil_iff
  · have hRest : s.rest ≠ [] := s.rest_ne_nil_iff.mpr hRefused
    refine ⟨placeBehind (s.pieces.flatMap Piece.text), ?_⟩
    rw [lex, lex, String.toList_ofList, s.truncated.lexFrom_finished rfl, s.tokens_eq]
    simp [Segmentation.beginnings, Segmentation.truncated, hRest, Beginning.token]

/-- A wrong escape on the fourth line, behind a comment, a lone slash and strings with escaped quotes. -/
theorem lex_fails_iff_escape :
    let source := "let x = 1.5; // \\q\nx += \"\\\\\" / 2..3\n\t'\\'' x\n\"ab\\'\""
    (lex source).failure? ≠ none ∧
    ∃ s : Segmentation source.toList, (∀ other : Segmentation source.toList, other = s) ∧
      source.toList = s.pieces.flatMap Piece.text ++ s.rest ∧ Refused s.rest ∧
      ∃ place, lex (String.ofList (s.pieces.flatMap Piece.text)) =
        ⟨(lex source).tokens ++ [.ofCursor .endOfText .none place], none, place, []⟩ := by
  intro source
  have hFails : (lex source).failure?.isSome = true := by decide +kernel
  have hFails : (lex source).failure? ≠ none := Option.isSome_iff_ne_none.mp hFails
  obtain ⟨s, hUnique, hSource, hRefused, -, hTokens⟩ := lex_fails_iff source
  exact ⟨hFails, s, hUnique, hSource, hRefused.mp hFails, hTokens (hRefused.mp hFails)⟩

/-! ## What makes no token -/

namespace Piece

variable (p : Piece) (following : List Char)

def IsBlank : Prop := ∃ c, p.text = [c] ∧ isBlank c = true

/-- Two slashes with the rest of their line. -/
def IsComment : Prop := ∃ body, p.text = '/' :: '/' :: body ∧ Run (· != '\n') body following

/-- A slash that no second one follows, with the rest of its line. -/
def IsLoneSlash : Prop := ∃ body, p.text = '/' :: body ∧ body.head? ≠ some '/' ∧ Run (· != '\n') body following

end Piece

/-- The text of this piece makes no token, and this follows it. -/
def Segmentation.Drops {source : List Char} (s : Segmentation source) (p : Piece) (following : List Char) : Prop :=
  p.made = none ∧ ∃ before after, s.pieces = before ++ p :: after ∧ following = after.flatMap text ++ s.rest

namespace Piece

variable {p : Piece} {following : List Char}

theorem Stands.dropped (h : p.Stands following) (hMade : p.made = none) :
    p.IsBlank ∨ p.IsComment following ∨ p.IsLoneSlash following := by
  cases h with
  | @blank c _ hBlank => exact .inl ⟨c, rfl, hBlank⟩
  | @slash body _ hRun =>
    by_cases hSecond : body.head? = some '/'
    · obtain ⟨body, rfl⟩ := List.head?_eq_some_iff.mp hSecond
      exact .inr (.inl ⟨body, rfl, fun c hc => hRun.inside c (mem_cons_of_mem _ hc), hRun.ends⟩)
    · exact .inr (.inr ⟨body, rfl, hSecond, hRun⟩)
  | _ => cases hMade

theorem IsLoneSlash.not_blank (h : p.IsLoneSlash following) : ¬ p.IsBlank := by
  rintro ⟨c, hText, hBlank⟩
  obtain ⟨body, hSlash, -⟩ := h
  obtain ⟨rfl, -⟩ := List.cons.inj (hText.symm.trans hSlash)
  exact absurd hBlank (by decide)

theorem IsLoneSlash.not_comment (h : p.IsLoneSlash following) : ¬ p.IsComment following := by
  rintro ⟨comment, hText, -⟩
  obtain ⟨body, hSlash, hSecond, -⟩ := h
  obtain ⟨-, rfl⟩ := List.cons.inj (hText.symm.trans hSlash)
  exact hSecond rfl

/-- A slash in a token is part of a string, or stands behind another operator character. -/
theorem Stands.slash_mem (h : p.Stands following) {kind : Kind} {value : Datum} (hMade : p.made = some (kind, value))
    (hSlash : '/' ∈ p.text) : kind = .string ∨ kind = .operator ∧ p.text.head? ≠ some '/' := by
  cases h with
  | blank | slash => cases hMade
  | word hFirst hRun | number hFirst hRun => exact absurd hSlash (hRun.not_mem_cons hFirst (by decide))
  | string => exact .inl (congrArg Prod.fst (Option.some.inj hMade)).symm
  | operator _ hFirst _ => exact .inr ⟨(congrArg Prod.fst (Option.some.inj hMade)).symm, by simpa using hFirst⟩
  | @delimiter c _ hFirst =>
    obtain rfl : '/' = c := by simpa using hSlash
    exact absurd hFirst (by decide)

end Piece

/-- The tokens of pieces are those of the pieces that make one, in order. -/
theorem forall₂_beginnings (past : List Char) (pieces : List Piece) :
    List.Forall₂ (fun (p : Piece) (t : Token) => p.made = some (t.kind, t.value))
      (pieces.filter (·.made.isSome)) ((beginnings past pieces).map Beginning.token) := by
  induction pieces generalizing past with
  | nil => exact .nil
  | cons p later ih =>
    cases hMade : p.made with
    | none => simpa [beginnings, hMade] using ih (past ++ p.text)
    | some m => simpa [beginnings, hMade, Beginning.token, Token.ofCursor] using ih (past ++ p.text)

/-- **Nothing is dropped but blanks and lines from a slash on.** The pieces of a text that is read to its end make up
the whole text, and its tokens are those of the pieces that make one, in order. Every other piece is a blank, a comment
or a lone slash with the rest of its line. So only blanks and comments are dropped exactly if there is no lone slash
where a token can begin; and a slash is in a token only as part of a string or behind another operator character. -/
theorem lex_drops (source : String) (hAccepted : (lex source).failure? = none) :
    ∃ (s : Segmentation source.toList) (ts : List Token) (finish : Cursor),
      source.toList = s.pieces.flatMap Piece.text ∧
      (lex source).tokens = ts ++ [.ofCursor .endOfText .none finish] ∧
      List.Forall₂ (fun (p : Piece) (t : Token) => p.made = some (t.kind, t.value))
        (s.pieces.filter (·.made.isSome)) ts ∧
      (∀ p following, s.Drops p following → p.IsBlank ∨ p.IsComment following ∨ p.IsLoneSlash following) ∧
      ((∀ p following, s.Drops p following → p.IsBlank ∨ p.IsComment following) ↔
        ∀ p following, s.Drops p following → ¬ p.IsLoneSlash following) ∧
      ∀ p ∈ s.pieces, ∀ kind value, p.made = some (kind, value) → '/' ∈ p.text →
        kind = .string ∨ kind = .operator ∧ p.text.head? ≠ some '/' := by
  obtain ⟨s⟩ : Nonempty (Segmentation source.toList) := inferInstance
  have hRest : s.rest = [] := s.failure?_eq_none_iff.mp hAccepted
  have hDropped : ∀ p following, s.Drops p following →
      p.IsBlank ∨ p.IsComment following ∨ p.IsLoneSlash following := by
    rintro p following ⟨hMade, before, after, hSplit, rfl⟩
    exact (s.cuts.stands hSplit).dropped hMade
  refine ⟨s, (beginnings [] s.pieces).map Beginning.token, placeBehind source.toList, ?_, ?_,
    forall₂_beginnings [] s.pieces, hDropped, ⟨?_, ?_⟩, ?_⟩
  · have hSource := s.source_eq
    rwa [hRest, append_nil] at hSource
  · rw [lex, s.tokens_eq]
    simp [Segmentation.beginnings, hRest, Beginning.token]
  · intro hOnly p following hDrops hLone
    rcases hOnly p following hDrops with hBlank | hComment
    · exact hLone.not_blank hBlank
    · exact hLone.not_comment hComment
  · intro hNone p following hDrops
    rcases hDropped p following hDrops with hBlank | hComment | hLone
    · exact Or.inl hBlank
    · exact Or.inr hComment
    · exact absurd hLone (hNone p following hDrops)
  · intro p hp kind value hMade hSlash
    obtain ⟨before, after, hSplit⟩ := append_of_mem hp
    exact (s.cuts.stands hSplit).slash_mem hMade hSlash

/-- A comment, a lone slash, slashes in a string and behind another operator character. -/
theorem lex_drops_mixed :
    let source := "a +/ b / c\n'x/y' // d"
    (lex source).failure? = none ∧
    ∃ (s : Segmentation source.toList) (ts : List Token) (finish : Cursor),
      source.toList = s.pieces.flatMap Piece.text ∧
      (lex source).tokens = ts ++ [.ofCursor .endOfText .none finish] ∧
      List.Forall₂ (fun (p : Piece) (t : Token) => p.made = some (t.kind, t.value))
        (s.pieces.filter (·.made.isSome)) ts ∧
      (∀ p following, s.Drops p following → p.IsBlank ∨ p.IsComment following ∨ p.IsLoneSlash following) := by
  intro source
  have hAccepted : (lex source).failure? = none := by decide +kernel
  obtain ⟨s, ts, finish, hSource, hTokens, hMade, hDropped, -⟩ := lex_drops source hAccepted
  exact ⟨hAccepted, s, ts, finish, hSource, hTokens, hMade, hDropped⟩

/-- A division has no operator among its tokens, and its second operand is lost. -/
theorem lex_loses_division :
    (lex "a / b").failure? = none ∧ (lex "a / b").tokens.map Token.kind = [.identifier, .endOfText] := by
  decide +kernel

end Scriptling.Freeform
