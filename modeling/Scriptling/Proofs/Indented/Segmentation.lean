import Scriptling.Datum.Argument
import Scriptling.Proofs.Indented.Reading

/-!
# Cutting indented text into pieces

A text is cut by taking the piece in front again and again, up to its end, to a string that is not closed, or to what
stops the lexer (`Segmentation`). Reading follows the cut (`Cuts.follows`), so the way it ends is known from what the
cut comes to (`tokenize_outcome`), and the tokens are those of the pieces (`Segmentation.outlines_eq`).
-/

namespace Scriptling.Indented

open List

variable {p : Piece} {following text rest : List Char} {ws ws' : List Nat}

open Text

/-! ## The cut -/

/-- With these indentations open, the text is these pieces, each one where a token can begin, and the rest, at which
those indentations are open. -/
inductive Cuts : List Nat → List Char → List Piece → List Nat → List Char → Prop where
  | nil {ws : List Nat} {rest : List Char} : Cuts ws rest [] ws rest
  | cons {ws ws' ws'' : List Nat} {p : Piece} {later : List Piece} {following rest : List Char} : p.Stands following →
      p.indents? ws following = some ws' → Cuts ws' following later ws'' rest →
      Cuts ws (p.text ++ following) (p :: later) ws'' rest

/-- A text cut into pieces, as far as the lexer reads it piece by piece. -/
structure Segmentation (source : List Char) where
  pieces : List Piece
  /-- The indentations that are open behind the pieces. -/
  indents : List Nat
  /-- What is left behind the pieces. -/
  rest : List Char
  cuts : Cuts [0] source pieces indents rest
  final : rest = [] ∨ Unclosed rest ∨ (∃ complaint, Complains indents rest complaint) ∨ ∃ kind, Faults rest kind

theorem Piece.Stands.text_ne_nil (h : p.Stands following) : p.text ≠ [] := by
  cases h with
  | blank | comment | word | string => simp [Piece.text]
  | lineEnd hBreak => simp [Piece.text, hBreak.ne_nil]
  | number hNumeral => exact hNumeral.text_ne_nil
  | sign hSign => cases hSign <;> simp [Piece.text]

theorem Complains.ne_nil {complaint : Complaint} (h : Complains ws text complaint) : text ≠ [] := by
  cases h with
  | stray | unterminated => simp
  | indentation hBreak => simp [hBreak.ne_nil]

theorem Faults.ne_nil {kind : FaultKind} (h : Faults text kind) : text ≠ [] := by
  cases h with
  | percent => simp
  | number hNumeral => simp [hNumeral.text_ne_nil]

theorem exists_cuts (ws : List Nat) (text : List Char) : ∃ pieces ws' rest, Cuts ws text pieces ws' rest ∧
    (rest = [] ∨ Unclosed rest ∨ (∃ complaint, Complains ws' rest complaint) ∨ ∃ kind, Faults rest kind) := by
  induction hLength : text.length using Nat.strongRecOn generalizing ws text with
  | ind n ih =>
    cases text with
    | nil => exact ⟨[], ws, [], .nil, .inl rfl⟩
    | cons c cs =>
      rcases piece_or_stop ws c cs with ⟨p, following, ws', hText, hStands, hFits⟩ | hStop
      · have hShorter : following.length < n := by
          have := length_pos_iff.mpr hStands.text_ne_nil
          rw [← hLength, hText, length_append]
          omega
        obtain ⟨pieces, ws'', rest, hCuts, hFinal⟩ := ih _ hShorter ws' following rfl
        rw [hText]
        exact ⟨p :: pieces, ws'', rest, .cons hStands hFits hCuts, hFinal⟩
      · exact ⟨[], ws, c :: cs, .nil, .inr hStop⟩

instance (source : List Char) : Nonempty (Segmentation source) := by
  obtain ⟨pieces, ws, rest, hCuts, hFinal⟩ := exists_cuts [0] source
  exact ⟨⟨pieces, ws, rest, hCuts, hFinal⟩⟩

/-! ## Where tokens begin -/

/-- The text of pieces. -/
def textOf (pieces : List Piece) : List Char := pieces.flatMap Piece.text

/-- Where the last step of a token begins. -/
structure Beginning where
  /-- The pieces before the token. -/
  before : List Piece
  /-- What of the token is read before that step. -/
  opening : List Char
  /-- Its kind, its text and its value. -/
  made : Kind × String × Datum

/-- The line that is counted behind pieces. -/
def lineAfter : List Piece → Int
  | [] => 1
  | p :: later => lineAfter later + p.toll

theorem lineAfter_concat (before : List Piece) (p : Piece) : lineAfter (before ++ [p]) = lineAfter before + p.toll := by
  induction before with
  | nil => rfl
  | cons q before ih => rw [cons_append, lineAfter, ih, lineAfter, Int.add_right_comm]

/-- The line of the token. -/
def Beginning.line (b : Beginning) : Int := lineAfter b.before + b.opening.countP isLineEnd

def Beginning.outline (b : Beginning) : Kind × String × Datum × Int := (b.made.1, b.made.2.1, b.made.2.2, b.line)

/-- Where the tokens of pieces begin, with these before and the rest behind them. -/
def beginnings (before : List Piece) (rest : List Char) : List Piece → List Beginning
  | [] => []
  | p :: later => ((p.made? (textOf later ++ rest)).map fun t => ⟨before, p.opening, t⟩).toList ++
      beginnings (before ++ [p]) rest later

/-- What of the last piece is read before its last step. -/
def lastOpening (pieces : List Piece) : List Char := (pieces.getLast?.map Piece.opening).getD []

namespace Segmentation

variable {source : List Char} (s : Segmentation source)

/-- Where the last step begins: at the last piece, or at the last character of a string that is not closed. -/
def last : List Piece × List Char :=
  if s.rest = [] then (s.pieces.dropLast, lastOpening s.pieces) else (s.pieces, s.rest.dropLast)

/-- Where the tokens of a text begin. The token of the end is placed where the last step begins. -/
def beginnings : List Beginning :=
  Indented.beginnings [] s.rest s.pieces ++ [⟨s.last.1, s.last.2, .endMarker, "", .none⟩]

end Segmentation

/-! ## Reading follows the cut -/

theorem Cuts.text_eq {pieces : List Piece} (h : Cuts ws text pieces ws' rest) : text = textOf pieces ++ rest := by
  induction h with
  | nil => rfl
  | cons _ _ _ ih => rw [textOf, flatMap_cons, append_assoc, ← textOf, ← ih]

theorem reindent?_stacked {blanks : List Char} (hStacked : Stacked ws) (h : reindent? ws blanks following = some ws') :
    Stacked ws' := by
  unfold reindent? fit? at h
  split at h
  · exact Option.some.inj h ▸ hStacked
  split at h
  next hOpen => exact Option.some.inj h ▸ hStacked.push hOpen
  split at h
  · exact Option.some.inj h ▸ hStacked.close _
  · cases h

theorem Piece.indents?_stacked (hStacked : Stacked ws) (h : p.indents? ws following = some ws') : Stacked ws' := by
  cases p with
  | lineEnd => exact reindent?_stacked hStacked h
  | blank | comment | word | number | string | sign => exact Option.some.inj h ▸ hStacked

namespace Lexer

/-- From `l`, steps lead over pieces, with these before them. -/
structure Follows (l : Lexer) (before pieces : List Piece) (ws : List Nat) (left : List Char) (m : Lexer) : Prop where
  reaches : ∃ n, l.Reaches n m
  rest : m.rest = left
  state : left ≠ [] → m.state = .start
  indents : m.indents = ws
  stacked : Stacked ws
  line : m.line = lineAfter (before ++ pieces)
  startLine : m.startLine = if pieces = [] then l.startLine else
    lineAfter (before ++ pieces.dropLast) + (lastOpening pieces).countP isLineEnd
  outlines : m.outlines = l.outlines ++ (beginnings before left pieces).map Beginning.outline

end Lexer

/-- **Reading follows the cut.** -/
theorem Cuts.follows {pieces : List Piece} (h : Cuts ws text pieces ws' rest) {l : Lexer} {before : List Piece}
    (hState : text ≠ [] → l.state = .start) (hStacked : Stacked ws) (hRest : l.rest = text) (hIndents : l.indents = ws)
    (hLine : l.line = lineAfter before) : ∃ m, l.Follows before pieces ws' rest m := by
  induction h generalizing l before with
  | nil =>
    refine ⟨l, ⟨0, .refl⟩, hRest, hState, hIndents, hStacked, ?_, rfl, ?_⟩
    · rw [append_nil, hLine]
    · exact (append_nil _).symm
  | @cons ws ws' ws'' p later following rest hStands hFits hLater ih =>
    subst hIndents
    have hNext := hState (by simp [hStands.text_ne_nil])
    obtain ⟨k, hPassed⟩ := Lexer.passed hNext hStands hStacked hRest hFits
    obtain ⟨n, hReach⟩ := hPassed.reaches
    have hWidths : k.indents = ws' := Option.some.inj (hPassed.indents.symm.trans hFits)
    have hCount : k.line = lineAfter (before ++ [p]) := by rw [lineAfter_concat, hPassed.line, hLine]
    obtain ⟨m, hFollows⟩ := ih hPassed.state (p.indents?_stacked hStacked hFits) hPassed.rest hWidths hCount
    obtain ⟨n', hReach'⟩ := hFollows.reaches
    refine ⟨m, ⟨n + n', hReach.trans hReach'⟩, hFollows.rest, hFollows.state, hFollows.indents, hFollows.stacked, ?_,
      ?_, ?_⟩
    · rw [hFollows.line, append_assoc, singleton_append]
    · rw [hFollows.startLine, if_neg (cons_ne_nil p later)]
      cases later with
      | nil => simp [hPassed.startLine, hLine, lastOpening]
      | cons q later => simp [lastOpening]
    · rw [hFollows.outlines, hPassed.outlines, beginnings, map_append, append_assoc, ← hLater.text_eq, hLine]
      cases p.made? following <;> rfl

namespace Segmentation

variable {source : String} (s : Segmentation source.toList) (filename : String)

theorem follows : ∃ m, (Lexer.start filename source).Follows [] s.pieces s.indents s.rest m := by
  have hStacked : Stacked [0] := ⟨rfl, pairwise_singleton _ _⟩
  exact s.cuts.follows (fun _ => rfl) hStacked rfl rfl rfl

theorem complains {complaint : Complaint} (h : Complains s.indents s.rest complaint) :
    ∃ line column, (tokenize filename source).1 = .error (.complaint complaint line column) := by
  obtain ⟨m, hFollows⟩ := s.follows filename
  obtain ⟨n, hReach⟩ := hFollows.reaches
  have hSome := h.ne_nil
  rw [← hFollows.rest, ← hFollows.indents] at h
  obtain ⟨n', k, line, column, hReach', hEnd, hStop⟩ :=
    Lexer.stops_of_complains (hFollows.state hSome) h (hFollows.indents ▸ hFollows.stacked)
  exact ⟨line, column, (Lexer.plain_start filename source).tokenize_of_stop (hReach.trans hReach') hEnd hStop⟩

theorem faults {kind : FaultKind} (h : Faults s.rest kind) : (tokenize filename source).1 = .error (.fault kind) := by
  obtain ⟨m, hFollows⟩ := s.follows filename
  obtain ⟨n, hReach⟩ := hFollows.reaches
  have hSome := h.ne_nil
  rw [← hFollows.rest] at h
  obtain ⟨n', k, hReach', hEnd, hStop⟩ := Lexer.stops_of_faults (hFollows.state hSome) h
  exact (Lexer.plain_start filename source).tokenize_of_stop (hReach.trans hReach') hEnd hStop

/-- A text whose cut comes to its end is read, with the tokens of its pieces and that of the end. -/
theorem accepts (h : s.rest = [] ∨ Unclosed s.rest) : ∃ m : Lexer, tokenize filename source =
    (.ok (), m.add .endMarker "" .none) ∧
      (m.add .endMarker "" .none).outlines = s.beginnings.map Beginning.outline := by
  obtain ⟨m, hFollows⟩ := s.follows filename
  obtain ⟨n, hReach⟩ := hFollows.reaches
  have hPlain := Lexer.plain_start filename source
  have hMade : m.outlines = (Indented.beginnings [] s.rest s.pieces).map Beginning.outline := hFollows.outlines
  -- the token of the end is added at the place where the last step begins
  have hLast : ∀ {n : Nat} {k : Lexer}, (Lexer.start filename source).Reaches n k → k.rest = [] →
      k.outlines = m.outlines → k.startLine = lineAfter s.last.1 + s.last.2.countP isLineEnd →
      ∃ m : Lexer, tokenize filename source = (.ok (), m.add .endMarker "" .none) ∧
        (m.add .endMarker "" .none).outlines = s.beginnings.map Beginning.outline := by
    intro n k hReach hEnd hSame hStart
    refine ⟨k, hPlain.tokenize_of_atEnd hReach (by simp [Lexer.atEnd, hEnd]), ?_⟩
    rw [Lexer.outlines_add (by decide), hSame, hMade, hStart, beginnings, map_append]
    rfl
  by_cases hEnd : s.rest = []
  · refine hLast hReach (hFollows.rest.trans hEnd) rfl ?_
    rw [hFollows.startLine, last, if_pos hEnd]
    split
    next hNone =>
      simp [hNone, lastOpening]
      rfl
    · rfl
  · rw [← hFollows.rest] at h
    have hUnclosed := h.resolve_left (hFollows.rest ▸ hEnd)
    obtain ⟨k, hSpelled, hNone⟩ := Lexer.spelled_of_unclosed (hFollows.state hEnd) hUnclosed
    obtain ⟨n', hReach'⟩ := hSpelled.reaches
    refine hLast (hReach.trans hReach') hNone (Lexer.outlines_of_tokens hSpelled.tokens) ?_
    rw [hSpelled.startLine (hFollows.rest ▸ hEnd), hFollows.line, hFollows.rest, last, if_neg hEnd]
    rfl

/-- One of three things happens, as the cut tells. -/
theorem outcome : (∃ m : Lexer, tokenize filename source = (.ok (), m.add .endMarker "" .none)) ∧
      (s.rest = [] ∨ Unclosed s.rest) ∨
    (∃ complaint line column, (tokenize filename source).1 = .error (.complaint complaint line column) ∧
      Complains s.indents s.rest complaint) ∨
    ∃ kind, (tokenize filename source).1 = .error (.fault kind) ∧ Faults s.rest kind := by
  have hAccepts : s.rest = [] ∨ Unclosed s.rest →
      ∃ m : Lexer, tokenize filename source = (.ok (), m.add .endMarker "" .none) :=
    fun h => (s.accepts filename h).imp fun _ => And.left
  rcases s.final with hEnd | hUnclosed | ⟨complaint, hComplains⟩ | ⟨kind, hFaults⟩
  · exact .inl ⟨hAccepts (.inl hEnd), .inl hEnd⟩
  · exact .inl ⟨hAccepts (.inr hUnclosed), .inr hUnclosed⟩
  · obtain ⟨line, column, hError⟩ := s.complains filename hComplains
    exact .inr (.inl ⟨complaint, line, column, hError, hComplains⟩)
  · exact .inr (.inr ⟨kind, s.faults filename hFaults, hFaults⟩)

end Segmentation

section Accepted

variable {filename source : String} {l : Lexer} (hRun : tokenize filename source = (.ok (), l))
  (s : Segmentation source.toList)

include hRun

theorem Segmentation.final_of_ok : s.rest = [] ∨ Unclosed s.rest := by
  rcases s.outcome filename with ⟨-, hEnd⟩ | ⟨_, _, _, hError, -⟩ | ⟨_, hError, -⟩
  · exact hEnd
  · simp [hRun] at hError
  · simp [hRun] at hError

/-- The tokens of a text that is read to its end are those of its pieces and that of the end. -/
theorem Segmentation.outlines_eq : l.outlines = s.beginnings.map Beginning.outline := by
  obtain ⟨m, hAccepts, hOutlines⟩ := s.accepts filename (s.final_of_ok hRun)
  obtain rfl : m.add .endMarker "" .none = l := congrArg Prod.snd (hAccepts.symm.trans hRun)
  exact hOutlines

end Accepted

/-- **How reading ends.** Every text is cut in some way. However it is cut, the lexer gives tokens up to that of the end
exactly if the cut comes to the end or to a string that is not closed; it complains exactly if there is something to
complain of; and a primitive operation fails exactly at a percent sign before another character and at a number that is
not written as a float. -/
theorem tokenize_outcome (filename source : String) : Nonempty (Segmentation source.toList) ∧
    ∀ s : Segmentation source.toList,
      ((∃ l t, tokenize filename source = (.ok (), l) ∧ l.tokens.back? = some t ∧ t.kind = .endMarker) ↔
        s.rest = [] ∨ Unclosed s.rest) ∧
      (∀ complaint, (∃ line column l, tokenize filename source = (.error (.complaint complaint line column), l)) ↔
        Complains s.indents s.rest complaint) ∧
      ∀ kind, (∃ l, tokenize filename source = (.error (.fault kind), l)) ↔ Faults s.rest kind := by
  refine ⟨inferInstance, fun s => ⟨⟨?_, fun h => ?_⟩, fun complaint => ⟨?_, fun h => ?_⟩,
    fun kind => ⟨?_, fun h => ?_⟩⟩⟩
  · rintro ⟨l, t, hRun, -⟩
    exact s.final_of_ok hRun
  · obtain ⟨m, hRun, -⟩ := s.accepts filename h
    exact ⟨_, _, hRun, Array.back?_push, rfl⟩
  · rintro ⟨line, column, l, hRun⟩
    rcases s.outcome filename with ⟨⟨m, hOk⟩, -⟩ | ⟨_, _, _, hError, hComplains⟩ | ⟨_, hError, -⟩
    · simp [hRun] at hOk
    · simp only [hRun, Except.error.injEq, Stop.complaint.injEq] at hError
      exact hError.1 ▸ hComplains
    · simp [hRun] at hError
  · obtain ⟨line, column, hError⟩ := s.complains filename h
    exact ⟨line, column, _, Prod.ext hError rfl⟩
  · rintro ⟨l, hRun⟩
    rcases s.outcome filename with ⟨⟨m, hOk⟩, -⟩ | ⟨_, _, _, hError, -⟩ | ⟨_, hError, hFaults⟩
    · simp [hRun] at hOk
    · simp [hRun] at hError
    · simp only [hRun, Except.error.injEq, Stop.fault.injEq] at hError
      exact hError ▸ hFaults
  · exact ⟨_, Prod.ext (s.faults filename h) rfl⟩

/-- A remainder, a number with two points and a superscript are no complaints. -/
theorem percent_and_numbers_fault : (tokenize "" "a %= b").1 = .error (.fault .wrongType) ∧
    (tokenize "" "1.2.3").1 = .error (.fault .wrongValue) ∧ (tokenize "" "²").1 = .error (.fault .wrongValue) := by
  decide +kernel

/-! ## Words and strings -/

/-- The kinds of words: names, and the keywords. -/
def wordKinds : List Kind := .identifier :: keywords.map (·.2)

namespace Piece

variable {following : List Char}

def word? : Piece → Option (List Char)
  | word text => some text
  | _ => none

/-- The quote and the text between the quotes of a string. -/
def string? : Piece → Option (Char × List Char)
  | string quote body => some (quote, body)
  | _ => none

theorem sign_apart {kind : Kind} {text : List Char} (h : Sign text kind following) :
    kind ∉ wordKinds ∧ kind ≠ .string := by
  have hSingles : ∀ entry ∈ singles, entry.2 ∉ wordKinds ∧ entry.2 ≠ .string := by decide
  have hDoubles : ∀ entry ∈ doubles, entry.2 ∉ wordKinds ∧ entry.2 ≠ .string := by decide
  cases h with
  | double hKind => exact hDoubles _ (mem_of_lookup hKind)
  | single hKind => exact hSingles _ (mem_of_lookup hKind)

/-- The token of a word, if there is one, is an empty name. -/
theorem Stands.filter_word {p : Piece} (h : p.Stands following) :
    (p.made? following).toList.filter (fun t => t.1 ∈ wordKinds) =
      if following = [] then [] else p.word?.toList.map fun _ => (.identifier, "", .none) := by
  have hOther : ∀ kind ∈ [Kind.newline, .number, .string], kind ∉ wordKinds := by decide
  cases h with
  | blank | comment => simp [made?, word?]
  | lineEnd => simp [made?, word?, hOther]
  | word => by_cases hNil : following = [] <;> simp [made?, word?, hNil, wordKinds]
  | @number n =>
    simp only [made?, word?]
    cases Number.readFloat? (String.ofList (n.text.filter (· != '_'))) <;> simp [hOther]
  | string => simp [made?, word?, hOther]
  | sign hSign => simp [made?, word?, sign_apart hSign]

/-- The token of a string holds its closing quote and an empty text. -/
theorem Stands.filter_string {p : Piece} (h : p.Stands following) :
    (p.made? following).toList.filter (fun t => t.1 = .string) =
      p.string?.toList.map fun b => (.string, String.singleton b.1, .str "") := by
  cases h with
  | blank | comment | lineEnd | string => simp [made?, string?]
  | word => by_cases hNil : following = [] <;> simp [made?, string?, hNil]
  | @number n =>
    simp only [made?, string?]
    cases Number.readFloat? (String.ofList (n.text.filter (· != '_'))) <;> simp
  | sign hSign => simp [made?, string?, sign_apart hSign]

end Piece

/-- The pieces that something follows. -/
def followed (pieces : List Piece) (rest : List Char) : List Piece := if rest = [] then pieces.dropLast else pieces

theorem followed_cons {later : List Piece} (h : ¬(later = [] ∧ rest = [])) :
    followed (p :: later) rest = p :: followed later rest := by
  unfold followed
  split
  next hNil => exact dropLast_cons_of_ne_nil fun hLater => h ⟨hLater, hNil⟩
  · rfl

theorem filter_beginnings (q : Kind × String × Datum → Bool) (before : List Piece) (p : Piece) (later : List Piece)
    (rest : List Char) : ((beginnings before rest (p :: later)).map Beginning.made).filter q =
      (p.made? (textOf later ++ rest)).toList.filter q ++
        ((beginnings (before ++ [p]) rest later).map Beginning.made).filter q := by
  rw [beginnings, map_append, filter_append]
  cases p.made? (textOf later ++ rest) <;> rfl

namespace Cuts

variable {ws ws' : List Nat} {text rest : List Char} {pieces : List Piece}

/-- Only a text that is not empty is cut into pieces. -/
theorem eq_nil (h : Cuts ws text pieces ws' rest) (hText : text = []) : pieces = [] ∧ rest = [] := by
  cases h with
  | nil => exact ⟨rfl, hText⟩
  | cons hStands => exact absurd (append_eq_nil_iff.mp hText).1 hStands.text_ne_nil

theorem filter_words (h : Cuts ws text pieces ws' rest) (before : List Piece) :
    ((beginnings before rest pieces).map Beginning.made).filter (fun t => t.1 ∈ wordKinds) =
      ((followed pieces rest).filterMap Piece.word?).map fun _ => (.identifier, "", .none) := by
  induction h generalizing before with
  | nil => simp [beginnings, followed]
  | @cons _ _ _ p later following rest hStands _ hLater ih =>
    rw [filter_beginnings, ih, ← hLater.text_eq, hStands.filter_word]
    by_cases hLast : later = [] ∧ rest = []
    · -- nothing follows the last piece
      obtain ⟨rfl, rfl⟩ := hLast
      simp [hLater.text_eq, textOf, followed]
    · rw [if_neg fun hNil => hLast (hLater.eq_nil hNil), followed_cons hLast, filterMap_cons]
      cases p.word? <;> rfl

theorem filter_strings (h : Cuts ws text pieces ws' rest) (before : List Piece) :
    ((beginnings before rest pieces).map Beginning.made).filter (fun t => t.1 = .string) =
      (pieces.filterMap Piece.string?).map fun b => (.string, String.singleton b.1, .str "") := by
  induction h generalizing before with
  | nil => rfl
  | @cons _ _ _ p later following rest hStands _ hLater ih =>
    rw [filter_beginnings, ih, ← hLater.text_eq, hStands.filter_string, filterMap_cons]
    cases p.string? <;> rfl

end Cuts

/-- The tokens of some kinds, if those of indentation are not among them. -/
theorem Lexer.filter_tokens (l : Lexer) {q : Kind → Bool} (hq : q .indent = false ∧ q .dedent = false) :
    ((l.tokens.toList.filter fun t => q t.kind).map fun t => (t.kind, t.lexeme, t.literal)) =
      (l.outlines.map fun o => (o.1, o.2.1, o.2.2.1)).filter fun t => q t.1 := by
  have hKinds : ∀ t : Token, q t.kind = (q t.kind && (t.kind != .indent && t.kind != .dedent)) := by
    intro t
    by_cases hIndent : t.kind = .indent
    · simp [hIndent, hq]
    by_cases hDedent : t.kind = .dedent
    · simp [hDedent, hq]
    · simp [hIndent, hDedent]
  rw [outlines, map_map, filter_map, filter_filter]
  exact congrArg (List.map _) (filter_congr fun t _ => hKinds t)

/-- **Words and strings lose their text.** In a text that is read to its end, the words that something follows have
one token each, in order: a name without text, also where the word is a keyword. A word at the end has none. Strings
have one token each, in order, with their closing quote as text and an empty value. -/
theorem words_and_strings_lose_their_text (filename source : String) (l : Lexer)
    (hRun : tokenize filename source = (.ok (), l)) (s : Segmentation source.toList) :
    ((l.tokens.toList.filter fun t => t.kind ∈ wordKinds).map fun t => (t.kind, t.lexeme, t.literal)) =
      ((followed s.pieces s.rest).filterMap Piece.word?).map (fun _ => (.identifier, "", .none)) ∧
    ((l.tokens.toList.filter fun t => t.kind = .string).map fun t => (t.kind, t.lexeme, t.literal)) =
      (s.pieces.filterMap Piece.string?).map fun b => (.string, String.singleton b.1, .str "") := by
  have hOutlines := s.outlines_eq hRun
  have hMade : l.outlines.map (fun o => (o.1, o.2.1, o.2.2.1)) = s.beginnings.map Beginning.made := by
    rw [hOutlines, map_map]
    rfl
  constructor
  · rw [l.filter_tokens (q := fun kind => kind ∈ wordKinds) (by decide), hMade, Segmentation.beginnings,
      map_append, filter_append, s.cuts.filter_words]
    exact append_nil _
  · rw [l.filter_tokens (q := fun kind => kind = .string) (by decide), hMade, Segmentation.beginnings, map_append,
      filter_append, s.cuts.filter_strings]
    exact append_nil _

theorem run_of_all {p : Char → Bool} {cs : List Char} (hAll : cs.all p = true)
    (hEnds : following.head?.all (fun c => !p c) = true) : Freeform.Run p cs following :=
  ⟨all_eq_true.mp hAll, by simpa [Option.all_eq_true] using hEnds⟩

/-- The cut of a keyword, a string and a word at the end. -/
def headerCut : Segmentation "if 'a' b".toList where
  pieces := [.word ['i', 'f'], .blank [' '], .string '\x27' ['a'], .blank [' '], .word ['b']]
  indents := [0]
  rest := []
  cuts := by
    have hText : "if 'a' b".toList = ['i', 'f'] ++ ([' '] ++ (['\x27', 'a', '\x27'] ++ ([' '] ++ (['b'] ++ [])))) := by
      decide
    rw [hText]
    exact .cons (.word rfl (run_of_all rfl rfl)) rfl (.cons (.blank rfl (run_of_all rfl rfl)) rfl
      (.cons (.string (.inr rfl) (.plain (by decide) (by decide) (by decide) .nil)) rfl
        (.cons (.blank rfl (run_of_all rfl rfl)) rfl (.cons (.word rfl (run_of_all rfl rfl)) rfl .nil))))
  final := .inl rfl

theorem words_and_strings_lose_their_text_header : let source := "if 'a' b"
    ∃ l, tokenize "" source = (.ok (), l) ∧
      ((l.tokens.toList.filter fun t => t.kind ∈ wordKinds).map fun t => (t.kind, t.lexeme, t.literal)) =
        [(.identifier, "", .none)] ∧
      ((l.tokens.toList.filter fun t => t.kind = .string).map fun t => (t.kind, t.lexeme, t.literal)) =
        [(.string, "'", .str "")] := by
  intro source
  have hRun : tokenize "" source = (.ok (), (tokenize "" source).2) := Prod.ext (by decide +kernel) rfl
  exact ⟨_, hRun, words_and_strings_lose_their_text "" source _ hRun headerCut⟩

/-- Neither a keyword nor a string keeps its text, and a word at the end has no token. -/
theorem texts_lost : (tokenize "" "def f").2.tokens.toList.map (fun t => (t.kind, t.lexeme)) =
      [(.identifier, ""), (.endMarker, "")] ∧
    (tokenize "" "'ab'").2.tokens.toList.map (fun t => (t.kind, t.lexeme)) = [(.string, "'"), (.endMarker, "")] ∧
    (tokenize "" "'ab'").2.tokens.toList.map (fun t => t.literal.text?) = [some "", none] ∧
    (tokenize "" "def f").1 = .ok () ∧ (tokenize "" "'ab'").1 = .ok () := by
  decide +kernel

end Scriptling.Indented
