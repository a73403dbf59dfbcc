import Scriptling.Proofs.Indented.Segmentation

/-!
# Lines

Outside strings, there is a token for every line end that is read, with the line end as it is written, and no other
such token (`newlines_are_lineBreaks`). This holds at all times in the course of reading: no step ends between a
carriage return and the line feed behind it. The lines of tokens are another matter: a line end outside strings is
counted once more for each of its characters (`token_lines_overcount`).
-/

namespace Scriptling.Indented

open List
open String (ofList)

variable {c : Char} {cs text after before ending following : List Char} {p : Piece}

open Text

/-! ## The line ends of a text -/

/-- The line ends of a text, in order. A carriage return and the line feed behind it are one. -/
def lineBreaks : List Char → List (List Char)
  | '\r' :: '\n' :: cs => ['\r', '\n'] :: lineBreaks cs
  | c :: cs => if isLineEnd c then [c] :: lineBreaks cs else lineBreaks cs
  | [] => []

/-- The cut between two texts is not inside a line end. -/
def Unsplit (before after : List Char) : Prop := ¬(before.getLast? = some '\r' ∧ after.head? = some '\n')

theorem lineBreaks_cons (h : Unsplit [c] cs) :
    lineBreaks (c :: cs) = if isLineEnd c then [c] :: lineBreaks cs else lineBreaks cs := by
  refine lineBreaks.eq_2 c cs ?_
  rintro rest rfl rfl
  exact h ⟨rfl, rfl⟩

theorem unsplit_of_inline (h : ∀ c ∈ text, isLineEnd c = false) : Unsplit text after := by
  rintro ⟨hLast, -⟩
  exact absurd (h _ (mem_of_getLast? hLast)) (by decide)

theorem lineBreaks_of_inline (h : ∀ c ∈ text, isLineEnd c = false) : lineBreaks text = [] := by
  induction text with
  | nil => rfl
  | cons c text ih =>
    rw [forall_mem_cons] at h
    have hCut : Unsplit [c] text := unsplit_of_inline (by simpa using h.1)
    rw [lineBreaks_cons hCut, h.1, if_neg (by decide), ih h.2]

theorem Unsplit.tail (h : Unsplit (c :: cs) after) : Unsplit cs after := by
  rintro ⟨hLast, hHead⟩
  exact h ⟨by simp [List.getLast?_cons, hLast], hHead⟩

/-- Line ends are told apart wherever a text is cut, but for inside one of them. -/
theorem lineBreaks_append (h : Unsplit before after) :
    lineBreaks (before ++ after) = lineBreaks before ++ lineBreaks after := by
  -- a character that begins no pair begins none before more text
  have hCut : ∀ {c : Char} {cs : List Char}, (∀ rest, c = '\r' → cs = '\n' :: rest → False) →
      Unsplit (c :: cs) after → Unsplit [c] (cs ++ after) := by
    rintro c cs hPair hAfter ⟨hLast, hHead⟩
    obtain rfl : c = '\r' := by simpa using hLast
    cases cs with
    | nil => exact hAfter ⟨rfl, hHead⟩
    | cons d cs =>
      obtain rfl : d = '\n' := by simpa using hHead
      exact hPair cs rfl rfl
  fun_induction lineBreaks before with
  | case1 cs ih => rw [cons_append, cons_append, lineBreaks, ih h.tail.tail, cons_append]
  | case2 c cs hPair hLine ih => rw [cons_append, lineBreaks_cons (hCut hPair h), if_pos hLine, ih h.tail, cons_append]
  | case3 c cs hPair hLine ih => rw [cons_append, lineBreaks_cons (hCut hPair h), if_neg hLine, ih h.tail]
  | case4 => rfl

theorem LineBreak.lineBreaks_eq (h : LineBreak ending after) : lineBreaks ending = [ending] := by
  cases h <;> rfl

theorem LineBreak.unsplit (h : LineBreak ending after) : Unsplit ending after := by
  cases h with
  | pair | feed => exact fun hSplit => absurd hSplit.1 (by decide)
  | back hNext => exact fun hSplit => hNext hSplit.2

theorem Unsplit.left (h : Unsplit before (text ++ after)) : Unsplit before text := by
  rintro ⟨hLast, hHead⟩
  exact h ⟨hLast, by simp [hHead]⟩

theorem Unsplit.shift (h : Unsplit before (text ++ after)) (hText : Unsplit text after) :
    Unsplit (before ++ text) after := by
  rintro ⟨hLast, hHead⟩
  by_cases hNil : text = []
  · subst hNil
    rw [append_nil] at hLast
    exact h ⟨hLast, hHead⟩
  · rw [List.getLast?_append, List.getLast?_eq_some_getLast hNil, Option.some_or] at hLast
    exact hText ⟨(List.getLast?_eq_some_getLast hNil).trans hLast, hHead⟩

/-- A line end with blanks behind it is one line end. -/
theorem LineBreak.lineBreaks_append {blanks : List Char} (h : LineBreak ending (blanks ++ following))
    (hBlanks : ∀ c ∈ blanks, isLineEnd c = false) :
    lineBreaks (ending ++ blanks) = [ending] ∧ Unsplit (ending ++ blanks) following := by
  rw [Indented.lineBreaks_append h.unsplit.left, h.lineBreaks_eq, lineBreaks_of_inline hBlanks]
  exact ⟨rfl, h.unsplit.shift (unsplit_of_inline hBlanks)⟩

namespace Lexer

variable {l : Lexer}

/-! ## Tokens of line ends -/

/-- What has been read. -/
def consumed (l : Lexer) : List Char := l.past.reverse

/-- The line ends that there are tokens for. -/
def newlines (l : Lexer) : List String := (l.tokens.toList.filter (·.kind = .newline)).map Token.lexeme

theorem newlines_add (l : Lexer) (kind : Kind) (lexeme : String) (literal : Datum) :
    (l.add kind lexeme literal).newlines = l.newlines ++ if kind = .newline then [lexeme] else [] := by
  by_cases hKind : kind = .newline <;> simp [newlines, add, hKind]

theorem newlines_add_of_ne {kind : Kind} (h : kind ≠ .newline) (lexeme : String) (literal : Datum) :
    (l.add kind lexeme literal).newlines = l.newlines := by
  rw [newlines_add, if_neg h, append_nil]

theorem newlines_indentTo (l : Lexer) (width : Nat) : (l.indentTo width).2.newlines = l.newlines := by
  unfold newlines
  rw [indentTo_tokens]
  rintro t (hKind | hKind) <;> simp [hKind]

/-- The lexer is outside strings, none is ahead, and there is a token for each line end that was read. -/
structure Accounted (l : Lexer) : Prop where
  state : l.state ∈ [State.start, .identifier, .number]
  unquoted : ∀ c ∈ l.rest, ¬IsQuote c
  told : l.newlines = (lineBreaks l.consumed).map ofList
  unsplit : Unsplit l.consumed l.rest

namespace Accounted

variable {l l' : Lexer}

/-- Reading a text keeps accounts if the tokens of its line ends are added. -/
theorem read (h : l.Accounted) (text : List Char) (hRest : l.rest = text ++ l'.rest)
    (hPast : l'.past = text.reverse ++ l.past) (hState : l'.state ∈ [State.start, .identifier, .number])
    (hText : Unsplit text l'.rest) (hTold : l'.newlines = l.newlines ++ (lineBreaks text).map ofList) :
    l'.Accounted := by
  have hConsumed : l'.consumed = l.consumed ++ text := by simp [consumed, hPast]
  have hUnsplit := h.unsplit
  rw [hRest] at hUnsplit
  refine ⟨hState, fun c hc => h.unquoted c (by simp [hRest, hc]), ?_, ?_⟩
  · rw [hTold, h.told, hConsumed, lineBreaks_append hUnsplit.left, map_append]
  · rw [hConsumed]
    exact hUnsplit.shift hText

/-- Reading within a line keeps accounts if no token of a line end is added. -/
theorem inline (h : l.Accounted) (text : List Char) (hRest : l.rest = text ++ l'.rest)
    (hPast : l'.past = text.reverse ++ l.past) (hState : l'.state ∈ [State.start, .identifier, .number])
    (hText : ∀ c ∈ text, isLineEnd c = false) (hTold : l'.newlines = l.newlines) : l'.Accounted := by
  refine h.read text hRest hPast hState (unsplit_of_inline hText) ?_
  rw [hTold, lineBreaks_of_inline hText, map_nil, append_nil]

theorem toLine (h : l.Accounted) {ending after : List Char} (hRest : l.rest = ending ++ after)
    (hBreak : LineBreak ending after) (line column : Int) : (l.toLine ending after line column).Accounted := by
  have hAfter : after = after.takeWhile isSpace ++ after.dropWhile isSpace := takeWhile_append_dropWhile.symm
  have hEnd := LineBreak.lineBreaks_append (hAfter ▸ hBreak)
    fun c hc => isLineEnd_of_isSpace (mem_takeWhile_imp hc)
  refine h.read (ending ++ after.takeWhile isSpace) ?_ rfl h.state hEnd.2 ?_
  · show l.rest = ending ++ after.takeWhile isSpace ++ after.dropWhile isSpace
    rw [hRest, append_assoc, ← hAfter]
  · rw [hEnd.1]
    exact newlines_add _ _ _ _

end Accounted

/-- Every step keeps accounts, also one that stops the lexer. -/
theorem Takes.accounted {r : StepResult} (h : Takes l r) (hl : l.Accounted) : r.2.Accounted := by
  have hToken : ∀ {kind : Kind}, kind ∉ layoutKinds → kind ≠ .newline := fun hKind hEq => hKind (hEq ▸ .head _)
  have hStart : State.start ∈ [State.start, .identifier, .number] := .head _
  cases h with
  | skip _ hRest hText => exact hl.inline _ hRest rfl hl.state hText.2 rfl
  | @token text rest line column kind lexeme literal s hRest hText hKind hState =>
    subst hState
    exact hl.inline _ hRest rfl hStart hText.2 (newlines_add_of_ne (hToken hKind) lexeme literal)
  | wordEnd _ _ hKind => exact hl.inline [] rfl rfl hStart (by simp) (newlines_add_of_ne (hToken hKind) _ _)
  | @enter s _ hNew =>
    have hState : s ∈ [State.start, .identifier, .number] := by
      rcases hNew with rfl | ⟨rfl, -⟩ <;> decide
    exact hl.inline [] rfl rfl hState (by simp) rfl
  | @letter c rest _ _ s _ hRest _ _ hGuard =>
    -- only a letter of a word can be read: a quote is not ahead, and strings have not been entered
    rcases hGuard with ⟨-, hQuote⟩ | ⟨-, rfl, hWord⟩ | hString
    · exact absurd hQuote (hl.unquoted c (by simp [hRest]))
    · have hLine : isLineEnd c = false := isLineEnd_eq_false (by decide) (by decide) hWord
      exact hl.inline [c] hRest rfl (.tail _ (.head _)) (by simpa using hLine) rfl
    · have hApart : ∀ s ∈ [State.string, .escape], s ∉ [State.start, .identifier, .number] := by decide
      exact absurd hl.state (hApart _ hString)
  | stop hRest _ hText => exact hl.inline _ hRest rfl hl.state hText rfl
  | blankLine _ hRest hBreak _ _ => exact hl.toLine hRest hBreak _ _
  | @line ending after line column _ hRest hBreak _ =>
    have hLine := hl.toLine hRest hBreak line column
    obtain ⟨_, _, _, hShape⟩ := (l.toLine ending after line column).indentTo_shape (widthOf after)
    have hTold := (l.toLine ending after line column).newlines_indentTo (widthOf after)
    rw [hShape] at hTold ⊢
    exact hLine.inline [] rfl rfl hLine.state (by simp) hTold

theorem Moment.accounted {m : Lexer} (h : l.Moment m) (hPlain : l.Plain) (hl : l.Accounted) : m.Accounted := by
  refine (Moment.invariant (P := fun m => m.Plain ∧ m.Accounted) h ⟨hPlain, hl⟩ ?_ ?_ ?_).2
  · rintro m ⟨hm, hAccounted⟩ hEnd
    exact ⟨hm.step hEnd, (hm.takes hEnd).accounted ⟨hAccounted.state, hAccounted.unquoted, hAccounted.told,
      hAccounted.unsplit⟩⟩
  · rintro m ⟨hm, hAccounted⟩
    exact ⟨⟨hm.state, hm.quoted⟩, hAccounted.inline [] rfl rfl hAccounted.state (by simp)
      (newlines_add_of_ne (by decide) _ _)⟩
  · rintro m complaints ⟨hm, hAccounted⟩
    exact ⟨⟨hm.state, hm.quoted⟩, ⟨hAccounted.state, hAccounted.unquoted, hAccounted.told, hAccounted.unsplit⟩⟩

/-- **The tokens of line ends are the line ends.** At all times in the course of reading a text without quotes, also
when the lexer stops, there is one such token for each line end of what has been read, in order and as it is written;
and what has been read does not end inside a line end. -/
theorem newlines_are_lineBreaks (filename source : String) (hQuotes : ∀ c ∈ source.toList, c ≠ '"' ∧ c ≠ '\x27') :
    (∀ l, (start filename source).Moment l → source.toList = l.consumed ++ l.rest ∧
      l.newlines = (lineBreaks l.consumed).map String.ofList ∧
      lineBreaks source.toList = lineBreaks l.consumed ++ lineBreaks l.rest) ∧
    ∀ l, Indented.tokenize filename source = (.ok (), l) →
      l.newlines = (lineBreaks source.toList).map String.ofList := by
  have hPlain := plain_start filename source
  have hStart : (start filename source).Accounted := by
    refine ⟨.head _, fun c hc hQuote => ?_, rfl, fun hSplit => by simp [consumed, start] at hSplit⟩
    exact hQuote.elim (hQuotes c hc).1 (hQuotes c hc).2
  have hAll : ∀ l, (start filename source).Moment l → source.toList = l.consumed ++ l.rest ∧
      l.newlines = (lineBreaks l.consumed).map String.ofList ∧
      lineBreaks source.toList = lineBreaks l.consumed ++ lineBreaks l.rest := by
    intro l hMoment
    have hAccounted := hMoment.accounted hPlain hStart
    obtain ⟨text, hRest, hPast⟩ := (hPlain.moment hMoment).2.text
    have hSource : source.toList = l.consumed ++ l.rest := by
      have hText : l.consumed = text := by simp [consumed, hPast, start]
      rw [hText]
      exact hRest
    refine ⟨hSource, hAccounted.told, ?_⟩
    rw [hSource]
    exact lineBreaks_append hAccounted.unsplit
  refine ⟨hAll, fun l hRun => ?_⟩
  rcases hPlain.tokenize_cases with ⟨n, m, hReach, hEnd, hOk⟩ | ⟨n, m, s, hReach, hEnd, hStop, hError⟩
  · obtain rfl : m.add .endMarker "" .none = l := congrArg Prod.snd (hOk.symm.trans hRun)
    have hLast : (start filename source).Moment (m.add .endMarker "" .none) := by
      have := Moment.last (l := start filename source)
      rw [hOk] at this
      exact this
    have hNone : m.rest = [] := by simpa [atEnd] using hEnd
    obtain ⟨-, hTold, hBreaks⟩ := hAll _ hLast
    rw [show (m.add .endMarker "" .none).rest = [] from hNone] at hBreaks
    rw [hTold, hBreaks]
    simp [lineBreaks]
  · have hBoth : Except.error s = Except.ok () := hError.symm.trans (congrArg Prod.fst hRun)
    cases hBoth

/-- All three line ends, around blank lines, comments, blocks, words and numbers. -/
theorem newlines_are_lineBreaks_mixed :
    let source := "if x1:\r\n\t# note\r\r\n\ty 2.5 \r\n\n~\r"
    (∀ c ∈ source.toList, c ≠ '"' ∧ c ≠ '\x27') ∧ ∃ l, Indented.tokenize "" source = (.ok (), l) ∧
      l.newlines = ["\r\n", "\r", "\r\n", "\r\n", "\n", "\r"] := by
  intro source
  have hQuotes : ∀ c ∈ source.toList, c ≠ '"' ∧ c ≠ '\x27' := by
    have hAll : source.toList.all (fun c => c != '"' && c != '\x27') = true := by decide
    simpa using all_eq_true.mp hAll
  have hRun : Indented.tokenize "" source = (.ok (), (Indented.tokenize "" source).2) :=
    Prod.ext (by decide +kernel) rfl
  refine ⟨hQuotes, _, hRun, ?_⟩
  rw [(newlines_are_lineBreaks "" source hQuotes).2 _ hRun]
  decide

end Lexer

/-! ## Lines of tokens -/

/-- By how much a piece makes the lines behind it too high: by one for each character of a line end. -/
def Piece.surplus : Piece → Nat
  | lineEnd ending _ => ending.length
  | _ => 0

/-- By how much the lines behind pieces are counted too high. -/
def surplus : List Piece → Nat
  | [] => 0
  | p :: later => p.surplus + surplus later

/-- No carriage return of the text has a line feed behind it. -/
def Pairless (text : List Char) : Prop := ¬['\r', '\n'] <:+: text

/-- Line ends of one character each are counted right. -/
theorem length_lineBreaks (h : Pairless text) : (lineBreaks text).length = text.countP isLineEnd := by
  fun_induction lineBreaks text with
  | case1 cs => exact absurd (prefix_append ['\r', '\n'] cs).isInfix h
  | case2 c cs _ hLine ih => rw [length_cons, ih fun hMore => h (infix_cons hMore), countP_cons_of_pos hLine]
  | case3 c cs _ hLine ih => rw [ih fun hMore => h (infix_cons hMore), countP_cons_of_neg hLine]
  | case4 => rfl

theorem pairless_nil : Pairless [] := by simp [Pairless]

theorem pairless_singleton (c : Char) : Pairless [c] := fun hPair => absurd hPair.length_le (by simp)

theorem Pairless.cons (h : Pairless cs) (hCut : Unsplit [c] cs) : Pairless (c :: cs) := by
  unfold Pairless
  rw [infix_cons_iff]
  rintro (⟨rest, hPair⟩ | hMore)
  · obtain ⟨rfl, rfl⟩ := List.cons.inj hPair
    exact hCut ⟨rfl, rfl⟩
  · exact h hMore

/-- A line feed in a string stands behind a backslash, so that no pair of a line end is in it. -/
theorem Body.pairless {q : Char} {body tail : List Char} (h : Body q body) (hHead : tail.head? ≠ some '\n')
    (hTail : Pairless tail) : (body ++ tail).head? ≠ some '\n' ∧ Pairless (body ++ tail) := by
  induction h with
  | nil => exact ⟨hHead, hTail⟩
  | plain _ _ hLine _ ih => exact ⟨by simpa using hLine, ih.2.cons fun hSplit => ih.1 hSplit.2⟩
  | @escaped c body _ ih =>
    have hMore : Pairless (c :: (body ++ tail)) := ih.2.cons fun hSplit => ih.1 hSplit.2
    exact ⟨by simp, hMore.cons fun hSplit => absurd hSplit.1 (by decide)⟩

theorem pairless_string {q : Char} {body : List Char} (hq : IsQuote q) (h : Body q body) (tail : List Char)
    (hHead : tail.head? ≠ some '\n') (hTail : Pairless tail) : Pairless (q :: (body ++ tail)) := by
  refine (h.pairless hHead hTail).2.cons fun hSplit => ?_
  rcases hq with rfl | rfl <;> exact absurd hSplit.1 (by decide)

theorem Sign.inline {kind : Kind} (h : Sign text kind following) : ∀ c ∈ text, isLineEnd c = false := by
  have hSingles : ∀ entry ∈ singles, isLineEnd entry.1 = false := by decide
  have hDoubles : ∀ entry ∈ doubles, isLineEnd entry.1.1 = false ∧ isLineEnd entry.1.2 = false := by decide
  cases h with
  | double hKind => simpa using hDoubles _ (mem_of_lookup hKind)
  | single hKind => simpa using hSingles _ (mem_of_lookup hKind)

theorem Piece.Stands.lines (h : p.Stands following) :
    p.toll = (lineBreaks p.text).length + p.surplus ∧ Unsplit p.text following := by
  have hInline : (∀ c ∈ p.text, isLineEnd c = false) → p.toll = p.surplus →
      p.toll = (lineBreaks p.text).length + p.surplus ∧ Unsplit p.text following := by
    intro hText hToll
    rw [lineBreaks_of_inline hText, hToll]
    exact ⟨(Nat.zero_add _).symm, unsplit_of_inline hText⟩
  cases h with
  | blank hc hRun =>
    refine hInline (forall_mem_cons.mpr ⟨isLineEnd_of_isSpace hc, fun d hd => ?_⟩) rfl
    exact isLineEnd_of_isSpace (hRun.inside d hd)
  | comment hRun => exact hInline (forall_mem_cons.mpr ⟨rfl, by simpa using hRun.inside⟩) rfl
  | lineEnd hBreak hRun =>
    obtain ⟨hBreaks, hUnsplit⟩ := hBreak.lineBreaks_append fun c hc => isLineEnd_of_isSpace (hRun.inside c hc)
    refine ⟨?_, hUnsplit⟩
    rw [Piece.text, hBreaks]
    exact Nat.add_comm _ _
  | word hc hRun =>
    have hWord : ∀ d, isWordChar d = true → isLineEnd d = false := fun d => isLineEnd_eq_false (by decide) (by decide)
    refine hInline (forall_mem_cons.mpr ⟨hWord _ (isWordChar_of_isWordStart hc), fun d hd => ?_⟩) rfl
    exact hWord d (hRun.inside d hd)
  | @number n _ hNumeral =>
    have hText : ∀ c ∈ n.text, isLineEnd c = false := numberText_numeral hNumeral ▸ Lexer.numberText_inline
    exact hInline hText rfl
  | @string q body _ hq hBody =>
    have hPairless := pairless_string hq hBody [q] (by simpa using hq.spec.2.1) (pairless_singleton q)
    have hBreaks := length_lineBreaks hPairless
    refine ⟨?_, fun hSplit => ?_⟩
    · rw [Piece.text, hBreaks]
      simp [Piece.toll, Piece.opening, Piece.surplus, hq.spec.2.2]
    · have hLast : q = '\r' := by simpa [Piece.text, List.getLast?_cons] using hSplit.1
      exact absurd hq.spec.2.2 (by rw [hLast]; decide)
  | sign hSign => exact hInline hSign.inline rfl

namespace Cuts

variable {ws ws' : List Nat} {text rest : List Char}

/-- The count of lines behind pieces: one for each line end in them, and the surplus. -/
theorem lines {pieces : List Piece} (h : Cuts ws text pieces ws' rest) :
    lineAfter pieces = 1 + (lineBreaks (textOf pieces)).length + surplus pieces ∧ Unsplit (textOf pieces) rest := by
  induction h with
  | nil => exact ⟨rfl, fun hSplit => by simp [textOf] at hSplit⟩
  | @cons _ _ _ p later following rest hStands _ hLater ih =>
    obtain ⟨hToll, hUnsplit⟩ := hStands.lines
    have hText : textOf (p :: later) = p.text ++ textOf later := rfl
    rw [hLater.text_eq] at hUnsplit
    rw [hText]
    refine ⟨?_, hUnsplit.shift ih.2⟩
    rw [lineBreaks_append hUnsplit.left, length_append, lineAfter, ih.1, hToll, surplus]
    omega

theorem split {before later : List Piece} (h : Cuts ws text (before ++ later) ws' rest) : ∃ middle,
    Cuts ws text before middle (textOf later ++ rest) ∧ Cuts middle (textOf later ++ rest) later ws' rest := by
  induction before generalizing ws text with
  | nil => exact ⟨ws, h.text_eq ▸ .nil, h.text_eq ▸ h⟩
  | cons p before ih =>
    cases h with
    | cons hStands hFits hLater =>
      obtain ⟨middle, hBefore, hBehind⟩ := ih hLater
      exact ⟨middle, .cons hStands hFits hBefore, hBehind⟩

end Cuts

/-- The place is counted with all line ends before it, and the surplus. -/
def Placed (source : List Char) (before : List Piece) (opening : List Char) : Prop :=
  (∃ ahead, source = textOf before ++ opening ++ ahead) ∧ lineAfter before + opening.countP isLineEnd =
    1 + (lineBreaks (textOf before ++ opening)).length + surplus before

theorem Cuts.placed {ws ws' : List Nat} {source opening ahead : List Char} {before : List Piece}
    (h : Cuts ws source before ws' (opening ++ ahead)) (hOpening : Pairless opening) :
    Placed source before opening := by
  obtain ⟨hLine, hUnsplit⟩ := h.lines
  refine ⟨⟨ahead, by rw [h.text_eq, append_assoc]⟩, ?_⟩
  rw [lineBreaks_append hUnsplit.left, length_append, length_lineBreaks hOpening, hLine]
  omega

theorem Piece.Stands.opening (h : p.Stands following) : p.opening <+: p.text ∧ Pairless p.opening := by
  cases h with
  | @string q body _ hq hBody =>
    have hNone := pairless_string hq hBody [] (by simp) pairless_nil
    exact ⟨⟨[q], by simp [Piece.opening, Piece.text]⟩, by simpa [Piece.opening] using hNone⟩
  | blank | comment | lineEnd | word | number | sign => exact ⟨⟨_, rfl⟩, pairless_nil⟩

theorem mem_beginnings {before pieces : List Piece} {rest : List Char} {b : Beginning}
    (h : b ∈ beginnings before rest pieces) :
    ∃ middle p later, pieces = middle ++ p :: later ∧ b.before = before ++ middle ∧ b.opening = p.opening := by
  induction pieces generalizing before with
  | nil => simp [beginnings] at h
  | cons p later ih =>
    rw [beginnings, mem_append, Option.mem_toList, Option.map_eq_some_iff] at h
    rcases h with ⟨t, -, rfl⟩ | hLater
    · exact ⟨[], p, later, rfl, (append_nil _).symm, rfl⟩
    · obtain ⟨middle, q, behind, rfl, hBefore, hOpening⟩ := ih hLater
      exact ⟨p :: middle, q, behind, rfl, by rw [hBefore, append_assoc]; rfl, hOpening⟩

theorem Unclosed.pairless (h : Unclosed text) : Pairless text := by
  obtain ⟨q, body, hq, rfl, hBody | ⟨inner, rfl, hInner⟩⟩ := h
  · simpa using pairless_string hq hBody [] (by simp) pairless_nil
  · exact pairless_string hq hInner ['\\'] (by simp) (pairless_singleton _)

namespace Segmentation

variable {source : List Char} (s : Segmentation source)

theorem placed_piece {before later : List Piece} (h : s.pieces = before ++ p :: later) :
    Placed source before p.opening := by
  have hCuts := s.cuts
  rw [h] at hCuts
  obtain ⟨middle, hBefore, hBehind⟩ := hCuts.split
  generalize textOf (p :: later) ++ s.rest = text at hBefore hBehind
  cases hBehind with
  | cons hStands =>
    obtain ⟨⟨more, hMore⟩, hNone⟩ := hStands.opening
    rw [← hMore, append_assoc] at hBefore
    exact hBefore.placed hNone

theorem placed_last (h : s.rest = [] ∨ Unclosed s.rest) : Placed source s.last.1 s.last.2 := by
  unfold last
  split
  next hEnd =>
    rcases eq_nil_or_concat s.pieces with hNone | ⟨before, p, hPieces⟩
    · have hCuts := s.cuts
      rw [hNone] at hCuts ⊢
      exact @Cuts.placed _ _ _ [] s.rest _ hCuts pairless_nil
    · rw [concat_eq_append] at hPieces
      rw [hPieces]
      simpa [lastOpening] using s.placed_piece hPieces
  next hSome =>
    have hCuts := s.cuts
    rw [← dropLast_append_getLast hSome] at hCuts
    have hFront : s.rest.dropLast <+: s.rest := dropLast_prefix s.rest
    exact hCuts.placed fun hPair => (h.resolve_left hSome).pairless (hPair.trans hFront.isInfix)

end Segmentation

/-- **Lines are counted too high.** In a text that is read to its end, the line of every token but those of indentation
is counted from the line ends before it, and each of these outside strings is counted once more for each of its
characters. For a string, the line ends up to its closing quote count, and for the end of the text those before the
last step. -/
theorem token_lines_overcount (filename source : String) (l : Lexer) (hRun : tokenize filename source = (.ok (), l))
    (s : Segmentation source.toList) :
    List.Forall₂ (fun (b : Beginning) (t : Token) => t.kind = b.made.1 ∧
        (∃ ahead, source.toList = textOf b.before ++ b.opening ++ ahead) ∧
        t.line = 1 + (lineBreaks (textOf b.before ++ b.opening)).length + surplus b.before)
      s.beginnings (l.tokens.toList.filter fun t => t.kind != .indent && t.kind != .dedent) := by
  have hPlaced : ∀ b ∈ s.beginnings, Placed source.toList b.before b.opening := by
    intro b hb
    rcases mem_append.mp hb with hb | hb
    · obtain ⟨middle, p, later, hPieces, hBefore, hOpening⟩ := mem_beginnings hb
      rw [hBefore, hOpening]
      exact s.placed_piece hPieces
    · rw [mem_singleton.mp hb]
      exact s.placed_last (s.final_of_ok hRun)
  have hTokens : List.Forall₂ (fun (b : Beginning) (t : Token) => b.outline = (t.kind, t.lexeme, t.literal, t.line))
      s.beginnings (l.tokens.toList.filter fun t => t.kind != .indent && t.kind != .dedent) := by
    have hOutlines := s.outlines_eq hRun
    rw [Lexer.outlines, ← forall₂_eq_eq_eq, forall₂_map_left_iff, forall₂_map_right_iff] at hOutlines
    exact hOutlines.flip.imp fun b t hEq => hEq.symm
  refine ((forall₂_and_left _ _).mpr ⟨hPlaced, hTokens⟩).imp ?_
  rintro b t ⟨⟨hAhead, hLine⟩, hOutline⟩
  simp only [Beginning.outline, Prod.mk.injEq] at hOutline
  obtain ⟨hKind, -, -, hCount⟩ := hOutline
  exact ⟨hKind.symm, hAhead, by rw [← hCount, Beginning.line, hLine]⟩

/-- The cut of two line ends around an indented string with a line end in it. -/
def mixedCut : Segmentation "\r\n '\\\n'\n ".toList where
  pieces := [.lineEnd ['\r', '\n'] [' '], .string '\x27' ['\\', '\n'], .lineEnd ['\n'] [' ']]
  indents := [1, 0]
  rest := []
  cuts := by
    have hText : "\r\n '\\\n'\n ".toList =
        ['\r', '\n'] ++ [' '] ++ (['\x27', '\\', '\n', '\x27'] ++ (['\n'] ++ [' '] ++ [])) := by
      decide
    rw [hText]
    exact .cons (.lineEnd .pair (run_of_all rfl rfl)) rfl (.cons (.string (.inr rfl) (.escaped .nil)) rfl
      (.cons (.lineEnd .feed (run_of_all rfl rfl)) rfl .nil))
  final := .inl rfl

theorem token_lines_overcount_mixed : let source := "\r\n '\\\n'\n "
    ∃ l, tokenize "" source = (.ok (), l) ∧ List.Forall₂ (fun line (t : Token) => t.line = line) [1, 5, 5, 5]
      (l.tokens.toList.filter fun t => t.kind != .indent && t.kind != .dedent) := by
  intro source
  have hRun : tokenize "" source = (.ok (), (tokenize "" source).2) := Prod.ext (by decide +kernel) rfl
  have hLines : mixedCut.beginnings.map (fun b =>
      1 + ((lineBreaks (textOf b.before ++ b.opening)).length : Int) + surplus b.before) = [1, 5, 5, 5] := by
    decide
  refine ⟨_, hRun, ?_⟩
  rw [← hLines, forall₂_map_left_iff]
  exact (token_lines_overcount "" source _ hRun mixedCut).imp fun b t h => h.2.2

/-- What stands on the second line is counted on the third. -/
theorem second_line_counted_third : (lineBreaks ['\n']).length = 1 ∧ (tokenize "" "\na ").1 = .ok () ∧
    (tokenize "" "\na ").2.tokens.toList.map (fun t => (t.kind, t.line)) =
      [(.newline, 1), (.identifier, 3), (.endMarker, 3)] := by
  decide +kernel

end Scriptling.Indented
