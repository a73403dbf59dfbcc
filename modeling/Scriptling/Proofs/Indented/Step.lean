import Mathlib.Data.List.TakeWhile
import Scriptling.Indented.Step

/-!
# What a step of the lexer does

Outside strings with expressions, a step of the lexer is one of a few: it skips text within a line, adds a token,
enters a state, reads a character of a longer token, reads a line end with the blanks after it, or stops
(`step_takes`). All that later modules say about runs of the lexer is derived from this list; the step functions
are not opened again.
-/

namespace Scriptling.Indented

open List
open String (ofList singleton)

variable {c : Char} {p : Char → Bool}

open Text

/-- The states outside strings with expressions, but for one that no step enters. -/
def plainStates : List State := [.start, .identifier, .number, .string, .escape]

/-- The kinds of token that tell of lines and their indentation. -/
def layoutKinds : List Kind := [.newline, .indent, .dedent]

def IsQuote (c : Char) : Prop := c = '"' ∨ c = '\x27'

def Inline (text : List Char) : Prop := text ≠ [] ∧ ∀ c ∈ text, isLineEnd c = false

/-- A line end as it is written, in front of what follows it. -/
inductive LineBreak : List Char → List Char → Prop where
  | pair {after} : LineBreak ['\r', '\n'] after
  | feed {after} : LineBreak ['\n'] after
  | back {after} : after.head? ≠ some '\n' → LineBreak ['\r'] after

theorem LineBreak.ne_nil {ending after : List Char} (h : LineBreak ending after) : ending ≠ [] := by
  cases h <;> exact cons_ne_nil _ _

/-- The line is neither blank nor a comment only. -/
def Substantial (line : List Char) : Prop := ∃ c ∈ (line.dropWhile isSpace).head?, isLineEnd c = false ∧ c ≠ '#'

/-! ## Characters -/

theorem isLineEnd_iff : isLineEnd c = true ↔ c = '\n' ∨ c = '\r' := by
  simp [isLineEnd]

/-- Nothing that holds of neither line end holds of a line end. -/
theorem isLineEnd_eq_false (hFeed : p '\n' = false) (hBack : p '\r' = false) (h : p c = true) :
    isLineEnd c = false := by
  rw [Bool.eq_false_iff, Ne, isLineEnd_iff]
  rintro (rfl | rfl)
  · simp [hFeed] at h
  · simp [hBack] at h

theorem isLineEnd_of_isSpace (h : isSpace c = true) : isLineEnd c = false :=
  isLineEnd_eq_false (by decide) (by decide) h

theorem isLineEnd_of_isDigitOrBar (h : Lexer.isDigitOrBar c = true) : isLineEnd c = false :=
  isLineEnd_eq_false (by decide) (by decide) h

theorem countP_isLineEnd {text : List Char} (h : ∀ c ∈ text, isLineEnd c = false) : text.countP isLineEnd = 0 :=
  countP_eq_zero.mpr fun c hc => by simp [h c hc]

theorem isWordChar_of_isWordStart (h : isWordStart c = true) : isWordChar c = true := by
  rcases (by simpa [isWordStart] using h : isLetter c = true ∨ c = '_') with hLetter | rfl
  · simp [isWordChar, isAlphanumeric_of_isLetter hLetter]
  · simp [isWordChar]

theorem inline_singleton (h : isLineEnd c = false) : Inline [c] := by
  simp [Inline, h]

theorem mem_of_lookup {α β : Type} [BEq α] [LawfulBEq α] {a : α} {b : β} {entries : List (α × β)}
    (h : entries.lookup a = some b) : (a, b) ∈ entries := by
  obtain ⟨before, after, rfl, -⟩ := lookup_eq_some_iff.mp h
  simp

theorem singles_spec {kind : Kind} (h : singles.lookup c = some kind) : kind ∉ layoutKinds := by
  have hAll : ∀ entry ∈ singles, entry.2 ∉ layoutKinds := by decide
  exact hAll _ (mem_of_lookup h)

theorem doubles_spec {d : Char} {kind : Kind} (h : doubles.lookup (c, d) = some kind) :
    kind ∉ layoutKinds ∧ isLineEnd d = false := by
  have hAll : ∀ entry ∈ doubles, entry.2 ∉ layoutKinds ∧ isLineEnd entry.1.2 = false := by decide
  exact hAll _ (mem_of_lookup h)

namespace Lexer

variable {cs rest : List Char} {c : Char} {l : Lexer}

/-! ## Numbers -/

theorem exponentDigits_append (cs : List Char) : ∃ rest, exponentDigits cs ++ rest = cs := by
  unfold exponentDigits
  split
  next c rest =>
    split
    · exact ⟨rest.dropWhile isDigitOrBar, by rw [cons_append, takeWhile_append_dropWhile]⟩
    · exact ⟨_, takeWhile_append_dropWhile⟩
  · exact ⟨[], rfl⟩

theorem exponentText_append (cs : List Char) : ∃ rest, exponentText cs ++ rest = cs := by
  unfold exponentText
  split
  next c cs =>
    split
    · obtain ⟨rest, hRest⟩ := exponentDigits_append cs
      exact ⟨rest, by rw [cons_append, hRest]⟩
    · exact ⟨c :: cs, rfl⟩
  · exact ⟨[], rfl⟩

theorem imaginaryText_append (cs : List Char) : ∃ rest, imaginaryText cs ++ rest = cs := by
  cases cs with
  | nil => exact ⟨[], rfl⟩
  | cons c cs =>
    by_cases hMark : c = 'j' ∨ c = 'J'
    · exact ⟨cs, by simp [imaginaryText, hMark]⟩
    · exact ⟨c :: cs, by simp [imaginaryText, hMark]⟩

/-- The text of a number is what the text begins with. -/
theorem numberText_append (cs : List Char) : ∃ rest, numberText cs ++ rest = cs := by
  unfold numberText
  extract_lets body rest exponent
  obtain ⟨rest', hBody⟩ : ∃ rest', body ++ rest' = cs := ⟨_, takeWhile_append_dropWhile⟩
  have hRest : rest = rest' := by
    show cs.drop body.length = rest'
    rw [← hBody, drop_left]
  obtain ⟨rest'', hExponent⟩ : ∃ rest'', exponent ++ rest'' = rest := exponentText_append rest
  have hDrop : rest.drop exponent.length = rest'' := by
    rw [← hExponent, drop_left]
  obtain ⟨left, hImaginary⟩ := imaginaryText_append (rest.drop exponent.length)
  refine ⟨left, ?_⟩
  rw [append_assoc, hImaginary, hDrop, append_assoc, hExponent, hRest, hBody]

theorem exponentDigits_inline : ∀ c ∈ exponentDigits cs, isLineEnd c = false := by
  unfold exponentDigits
  split
  · split
    next c rest hSign =>
      intro d hd
      rcases mem_cons.mp hd with rfl | hd
      · exact isLineEnd_eq_false (p := fun c => c = '+' || c = '-') (by decide) (by decide) hSign
      · exact isLineEnd_of_isDigitOrBar (mem_takeWhile_imp hd)
    · exact fun d hd => isLineEnd_of_isDigitOrBar (mem_takeWhile_imp hd)
  · simp

theorem exponentText_inline : ∀ c ∈ exponentText cs, isLineEnd c = false := by
  unfold exponentText
  split
  · split
    next c rest hMark =>
      intro d hd
      rcases mem_cons.mp hd with rfl | hd
      · exact isLineEnd_eq_false (p := fun c => c = 'e' || c = 'E') (by decide) (by decide) hMark
      · exact exponentDigits_inline d hd
    · simp
  · simp

theorem numberText_inline : ∀ c ∈ numberText cs, isLineEnd c = false := by
  intro c hc
  simp only [numberText, mem_append] at hc
  rcases hc with (hc | hc) | hc
  · have hBody := mem_takeWhile_imp (p := fun c => isDigit c || c == '.' || c == '_') hc
    exact isLineEnd_eq_false (p := fun c => isDigit c || c == '.' || c == '_') (by decide) (by decide) hBody
  · exact exponentText_inline c hc
  · exact isLineEnd_eq_false (p := fun c => c = 'j' || c = 'J') (by decide) (by decide)
      (mem_filter.mp hc).2

/-! ## Moving -/

/-- The lexer once it has moved over a text and has come to a place. -/
def moved (l : Lexer) (text rest : List Char) (line column : Int) : Lexer :=
  { l with past := text.reverse ++ l.past, rest := rest, line := line, column := column }

/-- Moving passes text from what is left to what has been read; otherwise it changes only the place. Every character
of a line end in the text is counted as a line. -/
theorem advance_eq (l : Lexer) (n : Nat) : ∃ column, l.advance n =
    l.moved (l.rest.take n) (l.rest.drop n) (l.line + (l.rest.take n).countP isLineEnd) column := by
  induction n generalizing l with
  | zero => exact ⟨l.column, by simp [moved, advance]⟩
  | succ n ih =>
    obtain ⟨column, h⟩ := ih l.move
    rw [advance, h]
    refine ⟨column, ?_⟩
    cases hRest : l.rest with
    | nil => simp [moved, move, hRest]
    | cons c cs =>
      by_cases hLine : isLineEnd c = true
      · simp only [moved, move, hRest, hLine, take_succ_cons, countP_cons_of_pos, if_true]
        simp [Int.add_assoc, Int.add_comm 1]
      · simp [moved, move, hRest, hLine]

theorem advance_append (l : Lexer) (text rest : List Char) (h : l.rest = text ++ rest) :
    ∃ column, l.advance text.length = l.moved text rest (l.line + text.countP isLineEnd) column := by
  obtain ⟨column, hMove⟩ := l.advance_eq text.length
  refine ⟨column, ?_⟩
  rw [hMove, h, take_left, drop_left]

theorem moveWhile_eq (l : Lexer) (p : Char → Bool) : ∃ column, l.moveWhile p =
    l.moved (l.rest.takeWhile p) (l.rest.dropWhile p) (l.line + (l.rest.takeWhile p).countP isLineEnd) column :=
  l.advance_append _ _ takeWhile_append_dropWhile.symm

theorem move_eq (l : Lexer) (h : l.rest = c :: rest) :
    ∃ column, l.move = l.moved [c] rest (l.line + [c].countP isLineEnd) column :=
  l.advance_append [c] rest h

theorem current_cons (h : l.rest = c :: rest) : l.current = c := by
  simp [current, h]

/-! ## Line ends -/

/-- The lexer once it has read a line end and the blanks after it. -/
def toLine (l : Lexer) (ending after : List Char) (line column : Int) : Lexer :=
  (l.moved (ending ++ after.takeWhile isSpace) (after.dropWhile isSpace) line column).add .newline
    (ofList ending) .none

theorem exists_lineBreak (hLine : isLineEnd c = true) (rest : List Char) :
    ∃ ending after, c :: rest = ending ++ after ∧ LineBreak ending after := by
  rcases isLineEnd_iff.mp hLine with rfl | rfl
  · exact ⟨['\n'], rest, rfl, .feed⟩
  · by_cases hPair : rest.head? = some '\n'
    · obtain ⟨after, rfl⟩ := List.head?_eq_some_iff.mp hPair
      exact ⟨['\r', '\n'], after, rfl, .pair⟩
    · exact ⟨['\r'], rest, rfl, .back hPair⟩

theorem moved_moved (l : Lexer) (text text' rest rest' : List Char) (line column line' column' : Int) :
    (l.moved text rest line column).moved text' rest' line' column' = l.moved (text ++ text') rest' line' column' := by
  simp [moved]

/-- Reads the last character of a line end, and the blanks after it. -/
def endLine (l : Lexer) (text : String) : Lexer :=
  let m := (l.add .newline text .none).move
  ({ m with line := m.line + 1, column := 1 }).moveWhile isSpace

/-- Takes the width of a line for its indentation, unless the line is blank or holds a comment only. -/
def settle (l : Lexer) (width : Nat) : StepResult :=
  if isLineEnd l.current || l.current = '#' then l.goOn else l.indentTo width

theorem endLine_eq {after : List Char} (hRest : l.rest = c :: after) (hLine : isLineEnd c = true) (text : String) :
    ∃ column, l.endLine text = (l.moved (c :: after.takeWhile isSpace) (after.dropWhile isSpace)
      (l.line + 2) column).add .newline text .none := by
  obtain ⟨_, hMove⟩ := (l.add .newline text .none).move_eq hRest
  obtain ⟨column, hBlanks⟩ :=
    ((l.add .newline text .none).moved [c] after (l.line + [c].countP isLineEnd + 1) 1).moveWhile_eq isSpace
  have hCount : (after.takeWhile isSpace).countP isLineEnd = 0 :=
    countP_isLineEnd fun c hc => isLineEnd_of_isSpace (mem_takeWhile_imp hc)
  refine ⟨column, ?_⟩
  unfold endLine
  rw [hMove]
  refine hBlanks.trans ?_
  have hTwo : l.line + [c].countP isLineEnd + 1 + (after.takeWhile isSpace).countP isLineEnd = l.line + 2 := by
    rw [hCount, countP_singleton, if_pos hLine]
    omega
  rw [moved_moved, ← hTwo]
  rfl

/-- A line end is read with the blanks behind it. It is counted once more than it has characters. -/
theorem readLineEnd_eq {ending after : List Char} (hRest : l.rest = ending ++ after) (hBreak : LineBreak ending after) :
    ∃ column, l.readLineEnd = (l.toLine ending after (l.line + (ending.length + 1)) column).settle (widthOf after) := by
  -- a line end of one character
  have hOne : ∀ c, isLineEnd c = true → ¬(l.current = '\r' ∧ l.next = '\n') → l.rest = c :: after →
      ∃ column, l.readLineEnd = (l.toLine [c] after (l.line + 2) column).settle (widthOf after) := by
    intro c hLine hNoPair hRest
    obtain ⟨column, hEnd⟩ := endLine_eq hRest hLine (singleton c)
    obtain ⟨_, hMove⟩ := (l.add .newline (singleton c) .none).move_eq hRest
    refine ⟨column, ?_⟩
    have hRead : l.readLineEnd = (l.endLine (singleton c)).settle
        (widthOf (l.add .newline (singleton c) .none).move.rest) := by
      simp only [readLineEnd, if_neg hNoPair]
      rw [current_cons hRest]
      rfl
    rw [hRead, hEnd, hMove]
    rfl
  cases hBreak with
  | pair =>
    have hPair : l.current = '\r' ∧ l.next = '\n' := by simp [current, next, hRest]
    obtain ⟨column, hMove⟩ := l.move_eq hRest
    obtain ⟨column', hEnd⟩ := endLine_eq (l := l.moved ['\r'] ('\n' :: after) _ column) rfl rfl "\r\n"
    refine ⟨column', ?_⟩
    have hRead : l.readLineEnd =
        (l.move.endLine "\r\n").settle (widthOf (l.move.add .newline "\r\n" .none).move.rest) := by
      simp only [readLineEnd, if_pos hPair]
      rfl
    obtain ⟨_, hSecond⟩ := ((l.moved ['\r'] ('\n' :: after) _ column).add .newline "\r\n" .none).move_eq rfl
    rw [hRead, hMove]
    have hThree : l.line + ['\r'].countP isLineEnd + 2 = l.line + (['\r', '\n'].length + 1) := by
      rw [Int.add_assoc]
      rfl
    rw [show ['\n'].append after = '\n' :: after from rfl, hEnd, hSecond, moved_moved, ← hThree]
    rfl
  | feed => exact hOne '\n' rfl (by simp [current, hRest]) hRest
  | back hNext =>
    refine hOne '\r' rfl (fun hPair => hNext ?_) hRest
    cases after with
    | nil => simp [next, hRest] at hPair
    | cons d after => simpa [next, hRest] using hPair.2

/-! ## Steps -/

/-- The string that is being read, if there is one, is in one of the two quotes. -/
def Quoted (l : Lexer) : Prop := l.quote? ∈ [none, some "\"", some "\x27"]

/-- What a step can do that begins at `l`. -/
inductive Takes (l : Lexer) : StepResult → Prop where
  | skip {text rest line column} : l.state = .start → l.rest = text ++ rest → Inline text →
      Takes l (l.moved text rest line column).goOn
  | token {text rest line column kind lexeme literal s} : l.rest = text ++ rest → Inline text → kind ∉ layoutKinds →
      s = .start → Takes l (((l.moved text rest line column).add kind lexeme literal).enter s).goOn
  | wordEnd {kind lexeme literal} : l.state = .identifier → isWordChar l.current = false → kind ∉ layoutKinds →
      Takes l ((l.add kind lexeme literal).enter .start).goOn
  /-- It enters the state of a number or of a word without reading anything. -/
  | enter {s} : l.state = .start → s = .number ∨ s = .identifier ∧ isWordChar l.current = true →
      Takes l (l.enter s).goOn
  /-- It reads one character of a word or a string, the quote before it included. -/
  | letter {c rest line column s quote?} :
      l.rest = c :: rest → s ∈ [State.identifier, .string, .escape] → quote? ∈ [l.quote?, some "\"", some "\x27"] →
      l.state = .start ∧ IsQuote c ∨ l.state = .identifier ∧ s = .identifier ∧ isWordChar c = true ∨
        l.state ∈ [State.string, .escape] →
      Takes l ({ l.moved [c] rest line column with state := s, quote? := quote? }).goOn
  /-- It stops the lexer, perhaps after reading within the line. -/
  | stop {text rest line column s complaints} : l.rest = text ++ rest → s ≠ .outOfFuel →
      (∀ c ∈ text, isLineEnd c = false) →
      Takes l (.error s, { l.moved text rest line column with complaints := complaints })
  /-- It reads a line end before a line that is blank or holds a comment only. -/
  | blankLine {ending after line column} : l.state = .start → l.rest = ending ++ after → LineBreak ending after →
      after.dropWhile isSpace ≠ [] → ¬Substantial after → Takes l (l.toLine ending after line column).goOn
  /-- It reads a line end and the indentation of the line after it. The last line may be empty. -/
  | line {ending after line column} : l.state = .start → l.rest = ending ++ after → LineBreak ending after →
      after.dropWhile isSpace = [] ∨ Substantial after →
      Takes l ((l.toLine ending after line column).indentTo (widthOf after))

namespace Takes

variable {l : Lexer}

theorem stay {s : Stop} (complaints : List String) (h : s ≠ .outOfFuel) :
    Takes l (.error s, { l with complaints := complaints }) := by
  show Takes l (.error s, { l.moved [] l.rest l.line l.column with complaints := complaints })
  exact .stop rfl h (by simp)

end Takes

theorem readLineEnd_takes (hState : l.state = .start) (hRest : l.rest = c :: rest) (hLine : isLineEnd c = true) :
    Takes l l.readLineEnd := by
  obtain ⟨ending, after, hText, hBreak⟩ := exists_lineBreak hLine rest
  rw [← hRest] at hText
  obtain ⟨column, hRead⟩ := readLineEnd_eq hText hBreak
  have hCurrent : (l.toLine ending after (l.line + (ending.length + 1)) column).current =
    (after.dropWhile isSpace).headD '\x00' := rfl
  rw [hRead, settle, hCurrent]
  cases hFirst : after.dropWhile isSpace with
  | nil =>
    rw [if_neg (by decide)]
    exact .line hState hText hBreak (.inl hFirst)
  | cons d more =>
    have hNext : after.dropWhile isSpace ≠ [] := by simp [hFirst]
    rw [headD_cons]
    split
    next hBlank =>
      refine .blankLine hState hText hBreak hNext ?_
      rintro ⟨e, hHead, hInline, hNoComment⟩
      rw [hFirst] at hHead
      cases hHead
      simp [hInline, hNoComment] at hBlank
    next hFull =>
      have hFull : isLineEnd d = false ∧ d ≠ '#' := by simpa using hFull
      exact .line hState hText hBreak (.inr ⟨d, by simp [hFirst], hFull⟩)

theorem readSign_takes (hState : l.state = .start) (hRest : l.rest = c :: rest) (hLine : isLineEnd c = false) :
    Takes l l.readSign := by
  have hSingle : Takes l (readSign.single l c) := by
    unfold readSign.single
    split
    next kind hKind =>
      obtain ⟨column, hMove⟩ := (l.add kind (singleton c) .none).move_eq hRest
      rw [hMove]
      exact .token hRest (inline_singleton hLine) (singles_spec hKind) hState
    · exact .stay _ (by simp)
  unfold readSign
  rw [current_cons hRest, hRest, drop_one, tail_cons]
  cases rest with
  | nil => exact hSingle
  | cons d rest =>
    dsimp only
    split
    · exact .stay l.complaints (by simp)
    · split
      next kind hKind =>
        obtain ⟨hLayout, hSecond⟩ := doubles_spec hKind
        obtain ⟨column, hMove⟩ := l.advance_append [c, d] rest hRest
        have hText : Inline [c, d] := ⟨by simp, by simp [hLine, hSecond]⟩
        show Takes l (((l.advance [c, d].length).add _ _ _).goOn)
        rw [hMove]
        exact .token hRest hText hLayout hState
      · exact hSingle

/-- The blanks or the comment that a text begins with are not empty and stay within the line. -/
theorem inline_takeWhile (hLine : ∀ c, p c = true → isLineEnd c = false) (h : p c = true) :
    Inline ((c :: rest).takeWhile p) := by
  refine ⟨?_, fun d hd => hLine d (mem_takeWhile_imp hd)⟩
  rw [takeWhile_cons_of_pos h]
  exact cons_ne_nil _ _

theorem moveWhile_takes (hState : l.state = .start) (hLine : ∀ c, p c = true → isLineEnd c = false)
    (hRest : l.rest = c :: rest) (h : p c = true) : Takes l (l.moveWhile p).goOn := by
  obtain ⟨column, hMove⟩ := l.moveWhile_eq p
  have hText : Inline (l.rest.takeWhile p) := hRest ▸ inline_takeWhile hLine h
  rw [hMove]
  exact .skip hState takeWhile_append_dropWhile.symm hText

theorem readComment_eq (hState : l.state = .start) : l.readComment = (l.moveWhile fun c => !isLineEnd c).goOn := by
  obtain ⟨column, hMove⟩ := l.moveWhile_eq fun c => !isLineEnd c
  rw [readComment, hMove, ← hState]
  rfl

theorem stepStart_takes (hState : l.state = .start) (hRest : l.rest = c :: rest) : Takes l l.stepStart := by
  have hCurrent : l.current = c := current_cons hRest
  unfold stepStart
  rw [hCurrent]
  dsimp only
  split
  next hSpace => exact moveWhile_takes hState (fun _ => isLineEnd_of_isSpace) hRest hSpace
  split
  next hLine => exact readLineEnd_takes hState hRest hLine
  rename_i hSpace hLine
  rw [Bool.not_eq_true] at hLine
  split
  · rw [readComment_eq hState]
    exact moveWhile_takes hState (fun d hd => by simpa using hd) hRest (by simp [hLine])
  split
  next hQuote =>
    obtain ⟨column, hMove⟩ := l.move_eq hRest
    rw [hMove]
    have hQuote : IsQuote c := by simpa [IsQuote] using hQuote
    refine .letter hRest (by simp) ?_ (.inl ⟨hState, hQuote⟩)
    rcases hQuote with rfl | rfl
    · exact .tail _ (.head _)
    · exact .tail _ (.tail _ (.head _))
  split
  · exact .enter hState (.inl rfl)
  split
  next hWord =>
    refine .enter hState (.inr ⟨rfl, ?_⟩)
    rw [hCurrent]
    exact isWordChar_of_isWordStart hWord
  · exact readSign_takes hState hRest hLine

/-- At the beginning of a step nothing has been read in it. -/
theorem lexeme_mark (l : Lexer) : l.mark.lexeme = "" := by
  simp [lexeme, mark, pos]

theorem stepIdentifier_takes (hState : l.mark.state = .identifier) (hRest : l.mark.rest = c :: rest) :
    Takes l.mark l.mark.stepIdentifier := by
  unfold stepIdentifier
  rw [lexeme_mark]
  split
  next hWord =>
    obtain ⟨column, hMove⟩ := l.mark.move_eq hRest
    rw [current_cons hRest] at hWord
    rw [hMove]
    exact .letter hRest (by simp [hState]) (by simp) (.inr (.inl ⟨hState, hState, hWord⟩))
  next hWord => exact .wordEnd hState (by simpa using hWord) (by decide)

/-- A number is read or stops the lexer. Nothing at all is not read as a number. -/
theorem stepNumber_takes (l : Lexer) : Takes l l.stepNumber := by
  obtain ⟨rest, hRest⟩ := numberText_append l.rest
  obtain ⟨column, hMove⟩ := l.advance_append _ rest hRest.symm
  unfold stepNumber
  dsimp only
  rw [hMove]
  split
  next x hRead =>
    have hText : numberText l.rest ≠ [] := by
      intro hNone
      have hNothing : Number.readFloat? (ofList ((numberText l.rest).filter (· != '_'))) = none := by
        rw [hNone]
        rfl
      exact absurd (hRead.symm.trans hNothing) (by simp)
    exact .token hRest.symm ⟨hText, numberText_inline⟩ (by decide) rfl
  · exact .stop hRest.symm (by simp) numberText_inline

theorem Quoted.isLineEnd (h : l.Quoted) (hQuote : l.quote? = some (singleton c)) : isLineEnd c = false := by
  have hChar : ∀ d : Char, singleton c = singleton d → c = d := by
    intro d hEq
    simpa using congrArg String.toList hEq
  rw [Quoted, hQuote] at h
  simp only [mem_cons, reduceCtorEq, Option.some.injEq, not_mem_nil, false_or, or_false] at h
  rcases h with h | h
  · rw [hChar '"' h]
    decide
  · rw [hChar '\x27' h]
    decide

theorem stepString_takes (hState : l.state = .string) (hQuoted : l.Quoted) (hRest : l.rest = c :: rest) :
    Takes l l.stepString := by
  obtain ⟨column, hMove⟩ := l.move_eq hRest
  unfold stepString
  rw [current_cons hRest, hMove]
  dsimp only
  have hInside : l.state ∈ [State.string, .escape] := hState ▸ .head _
  split
  · exact .letter hRest (by simp) (.head _) (.inr (.inr hInside))
  split
  · exact .stay l.complaints (by simp)
  rename_i quote hQuote
  split
  next hClose => exact .token hRest (inline_singleton (hQuoted.isLineEnd (hClose ▸ hQuote))) (by decide) rfl
  split
  · exact .stay _ (by simp)
  · exact .letter hRest (by simp [hState]) (.head _) (.inr (.inr hInside))

/-- **What a step does.** Outside strings with expressions and before the end, a step is one of those listed. -/
theorem step_takes (hPlain : l.state ∈ plainStates) (hQuoted : l.Quoted) (hEnd : l.atEnd = false) :
    Takes l.mark l.step := by
  obtain ⟨c, rest, hRest⟩ : ∃ c rest, l.mark.rest = c :: rest := by
    have hSome : l.rest ≠ [] := by simpa [atEnd] using hEnd
    exact exists_cons_of_ne_nil hSome
  have hState : l.mark.state = l.state := rfl
  unfold step
  dsimp only
  rw [hState]
  cases hKind : l.state with
  | start => exact stepStart_takes hKind hRest
  | identifier => exact stepIdentifier_takes hKind hRest
  | number => exact stepNumber_takes l.mark
  | string => exact stepString_takes hKind hQuoted hRest
  | escape =>
    obtain ⟨column, hMove⟩ := l.mark.move_eq hRest
    dsimp only
    rw [hMove]
    exact .letter hRest (by simp) (.head _) (.inr (.inr (hKind ▸ .tail _ (.head _))))
  | _ => simp [hKind, plainStates] at hPlain

/-! ## Indentations -/

/-- Closing indentations adds a token for each. -/
theorem closeIndents_eq (l : Lexer) (width : Nat) : l.closeIndents width =
    { l with tokens := l.tokens ++ Array.replicate (l.indents.takeWhile (width < ·)).length
               ⟨.dedent, "", .none, l.startLine, l.startColumn⟩
             indents := l.indents.dropWhile (width < ·) } := by
  have hFold : ∀ (closed : List Nat) (m : Lexer), closed.foldl (fun m _ => m.add .dedent "" .none) m =
      { m with tokens := m.tokens ++
                 Array.replicate closed.length ⟨.dedent, "", .none, m.startLine, m.startColumn⟩ } := by
    intro closed
    induction closed with
    | nil => simp
    | cons _ closed ih =>
      intro m
      rw [foldl_cons, ih, length_cons, Array.replicate_succ']
      simp [add]
  rw [closeIndents, hFold]

/-- Indentation changes only what is known of it, the tokens and the complaints. -/
theorem indentTo_shape (l : Lexer) (width : Nat) : ∃ indents tokens complaints,
    (l.indentTo width).2 = { l with indents := indents, tokens := tokens, complaints := complaints } := by
  unfold indentTo
  dsimp only
  split
  · exact ⟨_, _, _, rfl⟩
  split
  · rw [closeIndents_eq]
    split <;> exact ⟨_, _, _, rfl⟩
  · exact ⟨_, _, _, rfl⟩

/-- Indentation adds tokens of its own kinds only. -/
theorem indentTo_tokens (l : Lexer) (width : Nat) {q : Token → Bool}
    (hq : ∀ t : Token, t.kind = .indent ∨ t.kind = .dedent → q t = false) :
    (l.indentTo width).2.tokens.toList.filter q = l.tokens.toList.filter q := by
  have hClose : (l.closeIndents width).tokens.toList.filter q = l.tokens.toList.filter q := by
    simp [closeIndents_eq, hq]
  unfold indentTo
  dsimp only
  split
  · simp [goOn, add, hq]
  split
  · split
    · exact hClose
    · exact hClose
  · rfl

/-- If indentation stops the lexer, it is with the complaint about it. -/
theorem indentTo_error {width : Nat} {s : Stop} (h : (l.indentTo width).1 = .error s) :
    ∃ line column, s = .complaint .indentation line column := by
  unfold indentTo at h
  dsimp only at h
  split at h
  · cases h
  split at h
  · split at h
    · cases h
    · cases h
      exact ⟨_, _, rfl⟩
  · cases h

theorem Takes.ne_outOfFuel {r : StepResult} (h : Takes l r) : r.1 ≠ .error .outOfFuel := by
  intro hFuel
  cases h with
  | stop _ hStop => exact hStop (Except.error.inj hFuel)
  | line =>
    obtain ⟨_, _, hStop⟩ := indentTo_error hFuel
    cases hStop
  | _ => cases hFuel

end Lexer

end Scriptling.Indented
