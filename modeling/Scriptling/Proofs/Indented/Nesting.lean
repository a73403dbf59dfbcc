import Scriptling.Proofs.Indented.Run

/-!
# Indentations are nested

The open indentations get strictly wider from the outermost, which has no width and is never closed, and there is a
token for each that was opened and for each that was closed. A line that is neither blank nor a comment only either
has the width of the innermost indentation once its blanks are read, or stops the lexer.
-/

namespace Scriptling.Indented

open Text List

/-! ## Widths -/

/-- The columns that blanks at the front of a line take: a blank or a form feed takes one, and a tab goes on to the
next multiple of eight. -/
inductive Spans : List Char → Nat → Prop where
  | nil : Spans [] 0
  | blank {blanks width c} : Spans blanks width → c = ' ' ∨ c = '\x0c' →
      Spans (blanks ++ [c]) (width + 1)
  | tab {blanks width next} : Spans blanks width → width < next → next ≤ width + 8 →
      8 ∣ next → Spans (blanks ++ ['\t']) next

theorem Spans.widen {blanks : List Char} {width : Nat} (h : Spans blanks width) {c : Char} (hc : isSpace c = true) :
    Spans (blanks ++ [c]) (Lexer.widen width c) := by
  by_cases hTab : c = '\t'
  · subst hTab
    have hNext : Lexer.widen width '\t' = (width / 8 + 1) * 8 := if_pos rfl
    rw [hNext]
    exact .tab h (by omega) (by omega) (Nat.dvd_mul_left _ _)
  · have hOne : Lexer.widen width c = width + 1 := if_neg hTab
    have hBlank : c = ' ' ∨ c = '\x0c' := by simpa [isSpace, hTab] using hc
    rw [hOne]
    exact .blank h hBlank

/-- The width that is taken for a line is the width of its blanks. -/
theorem spans_widthOf (line : List Char) : Spans (line.takeWhile isSpace) (Lexer.widthOf line) := by
  -- by induction on the blanks read so far
  have hFold : ∀ blanks done : List Char, ∀ width, (∀ c ∈ blanks, isSpace c = true) → Spans done width →
      Spans (done ++ blanks) (blanks.foldl Lexer.widen width) := by
    intro blanks
    induction blanks with
    | nil =>
      intro done width _ h
      rw [append_nil]
      exact h
    | cons c blanks ih =>
      intro done width hBlanks h
      have hMore := ih (done ++ [c]) (Lexer.widen width c) (fun d hd => hBlanks d (.tail _ hd))
        (h.widen (hBlanks c (.head _)))
      rw [append_assoc] at hMore
      exact hMore
  exact hFold _ [] 0 (fun _ hc => mem_takeWhile_imp hc) .nil

/-! ## Stacks of widths -/

/-- Widths of indentations, innermost first: each is wider than those around it, and the outermost is 0. -/
structure Stacked (widths : List Nat) : Prop where
  bottom : widths.getLast? = some 0
  wider : widths.Pairwise (· > ·)

namespace Stacked

variable {widths : List Nat} {width : Nat}

theorem head?_eq (h : Stacked widths) : widths.head? = some (widths.headD 0) := by
  cases widths with
  | nil => cases h.bottom
  | cons w widths => rfl

theorem le_headD (h : Stacked widths) {w : Nat} (hw : w ∈ widths) : w ≤ widths.headD 0 := by
  cases widths with
  | nil => cases hw
  | cons top widths =>
    rcases mem_cons.mp hw with rfl | hw
    · exact Nat.le_refl _
    · exact Nat.le_of_lt ((pairwise_cons.mp h.wider).1 w hw)

theorem push (h : Stacked widths) (hWidth : widths.headD 0 < width) : Stacked (width :: widths) := by
  refine ⟨?_, pairwise_cons.mpr ⟨?_, h.wider⟩⟩
  · rw [List.getLast?_cons, h.bottom]
    rfl
  · intro w hw
    have hTop := h.le_headD hw
    show w < width
    omega

/-- Closing the indentations that are wider than a line does not close the outermost. -/
theorem close (h : Stacked widths) (width : Nat) : Stacked (widths.dropWhile (width < ·)) := by
  refine ⟨?_, h.wider.sublist (dropWhile_sublist _)⟩
  have hSome : widths.dropWhile (width < ·) ≠ [] := by
    intro hNone
    have hZero := dropWhile_eq_nil_iff.mp hNone 0 (mem_of_getLast? h.bottom)
    simp at hZero
  have hParts : widths.takeWhile (width < ·) ++ widths.dropWhile (width < ·) = widths := takeWhile_append_dropWhile
  have hLast := h.bottom
  rw [← hParts, List.getLast?_append, List.getLast?_eq_some_getLast hSome, Option.some_or] at hLast
  rw [List.getLast?_eq_some_getLast hSome, hLast]

/-- Closing stops at a line's width if it is that of an open indentation. -/
theorem headD_close (h : Stacked widths) (hWidth : width ∈ widths) :
    (widths.dropWhile (width < ·)).headD 0 = width := by
  induction widths with
  | nil => cases hWidth
  | cons top widths ih =>
    by_cases hTop : width < top
    · rw [dropWhile_cons_of_pos (by simpa using hTop)]
      have hRest : width ∈ widths := by
        rcases mem_cons.mp hWidth with rfl | hRest
        · omega
        · exact hRest
      have hNext : widths ≠ [] := ne_nil_of_mem hRest
      have hBottom : widths.getLast? = some 0 := by
        rw [← h.bottom, List.getLast?_cons_of_ne_nil hNext]
      exact ih ⟨hBottom, (pairwise_cons.mp h.wider).2⟩ hRest
    · rw [dropWhile_cons_of_neg (by simpa using hTop), headD_cons]
      have hLe : width ≤ top := h.le_headD hWidth
      omega

/-- Only the outermost indentation has no width. -/
theorem eq_of_head? (h : Stacked widths) (hHead : widths.head? = some 0) : widths = [0] := by
  obtain ⟨others, rfl⟩ := List.head?_eq_some_iff.mp hHead
  cases others with
  | nil => rfl
  | cons w others =>
    have hLess := (pairwise_cons.mp h.wider).1 w (.head _)
    omega

end Stacked

namespace Lexer

variable {l : Lexer} {r : StepResult} {c : Char}

/-- How many tokens of a kind there are. -/
def count (l : Lexer) (kind : Kind) : Nat := l.tokens.countP (·.kind == kind)

theorem count_add (l : Lexer) (kind k : Kind) (lexeme : String) (literal : Datum) :
    (l.add k lexeme literal).count kind = l.count kind + if k = kind then 1 else 0 := by
  simp [count, add, Array.countP_push]

theorem count_add_of_ne {kind k : Kind} {lexeme : String} {literal : Datum} (h : k ≠ kind) :
    (l.add k lexeme literal).count kind = l.count kind := by
  rw [count_add, if_neg h, Nat.add_zero]

theorem count_closeIndents (l : Lexer) (width : Nat) (kind : Kind) : (l.closeIndents width).count kind =
    l.count kind + if kind = .dedent then (l.indents.takeWhile (width < ·)).length else 0 := by
  rw [closeIndents_eq]
  simp only [count, Array.countP_append, Array.countP_replicate]
  by_cases hKind : kind = .dedent
  · simp [hKind]
  · simp [hKind, Ne.symm hKind]

/-- Indentations are stacked, and all but the outermost were opened by a token and have not been closed by one. -/
structure Nested (l : Lexer) : Prop extends Stacked l.indents where
  balance : l.count .indent + 1 = l.count .dedent + l.indents.length

/-- Nesting depends on the indentations and their tokens only. -/
theorem Nested.congr {l' : Lexer} (h : l.Nested) (hIndents : l'.indents = l.indents)
    (hIndent : l'.count .indent = l.count .indent) (hDedent : l'.count .dedent = l.count .dedent) : l'.Nested := by
  refine ⟨by rw [hIndents]; exact h.toStacked, ?_⟩
  rw [hIndents, hIndent, hDedent]
  exact h.balance

theorem Nested.add (h : l.Nested) {kind : Kind} (hKind : kind ∉ [Kind.indent, .dedent]) (lexeme : String)
    (literal : Datum) : (l.add kind lexeme literal).Nested := by
  simp only [mem_cons, not_mem_nil, or_false, not_or] at hKind
  exact h.congr rfl (count_add_of_ne hKind.1) (count_add_of_ne hKind.2)

theorem Nested.openIndent (h : l.Nested) {width : Nat} (hWidth : l.indents.headD 0 < width) (lexeme : String) :
    (({ l with indents := width :: l.indents }).add .indent lexeme .none).Nested := by
  have hBalance := h.balance
  refine ⟨h.push hWidth, ?_⟩
  rw [count_add, if_pos rfl, count_add_of_ne (by decide)]
  show l.count .indent + 1 + 1 = l.count .dedent + (l.indents.length + 1)
  omega

theorem Nested.closeIndents (h : l.Nested) (width : Nat) : (l.closeIndents width).Nested := by
  have hIndents : (l.closeIndents width).indents = l.indents.dropWhile (width < ·) := rfl
  refine ⟨by rw [hIndents]; exact h.close width, ?_⟩
  have hParts := congrArg List.length (takeWhile_append_dropWhile (p := (width < ·)) (l := l.indents))
  rw [length_append] at hParts
  have hBalance := h.balance
  rw [count_closeIndents, count_closeIndents, hIndents, if_pos rfl, if_neg (by decide)]
  omega

/-- **Indenting to a width.** Either the innermost indentation is then of this width, or the lexer stops because it
is narrower than the innermost and of the width of none. -/
theorem Nested.indentTo (h : l.Nested) (width : Nat) : (l.indentTo width).2.Nested ∧
    ((l.indentTo width).1 = .ok () ∧ (l.indentTo width).2.indents.head? = some width ∨
      (l.indentTo width).1 = .error (.complaint .indentation l.startLine l.startColumn) ∧
        width < l.indents.headD 0 ∧ width ∉ l.indents) := by
  unfold Lexer.indentTo
  dsimp only
  by_cases hOpen : l.indents.headD 0 < width
  · rw [if_pos hOpen]
    exact ⟨h.openIndent hOpen _, .inl ⟨rfl, rfl⟩⟩
  rw [if_neg hOpen]
  by_cases hClose : width < l.indents.headD 0
  · rw [if_pos hClose]
    have hClosed := h.closeIndents width
    by_cases hFound : (l.closeIndents width).indents.headD 0 = width
    · rw [if_pos hFound]
      exact ⟨hClosed, .inl ⟨rfl, hClosed.head?_eq.trans (congrArg some hFound)⟩⟩
    · rw [if_neg hFound]
      refine ⟨hClosed.congr rfl rfl rfl, .inr ⟨?_, hClose, fun hMem => hFound (h.headD_close hMem)⟩⟩
      rw [closeIndents_eq]
      rfl
  · rw [if_neg hClose]
    have hSame : l.indents.headD 0 = width := by omega
    exact ⟨h, .inl ⟨rfl, h.head?_eq.trans (congrArg some hSame)⟩⟩

/-! ## Steps and runs -/

theorem Nested.toLine (h : l.Nested) (ending after : List Char) (line column : Int) :
    (l.toLine ending after line column).Nested := by
  have hMoved : (l.moved (ending ++ after.takeWhile isSpace) (after.dropWhile isSpace) line column).Nested :=
    h.congr rfl rfl rfl
  exact hMoved.add (by decide) _ _

/-- Every step keeps indentations nested, also one that stops the lexer. -/
theorem Takes.nested (h : Takes l r) (hl : l.Nested) : r.2.Nested := by
  have hToken : ∀ {kind : Kind}, kind ∉ layoutKinds → kind ∉ [Kind.indent, .dedent] :=
    fun hKind hMem => hKind (.tail _ hMem)
  cases h with
  | skip | enter | letter | stop => exact hl.congr rfl rfl rfl
  | @token text rest line column kind lexeme literal s _ _ hKind _ =>
    have hMoved : (l.moved text rest line column).Nested := hl.congr rfl rfl rfl
    exact (hMoved.add (hToken hKind) lexeme literal).congr rfl rfl rfl
  | wordEnd _ _ hKind => exact (hl.add (hToken hKind) _ _).congr rfl rfl rfl
  | blankLine => exact hl.toLine _ _ _ _
  | line => exact ((hl.toLine _ _ _ _).indentTo _).1

theorem nested_start (filename source : String) : (start filename source).Nested := ⟨⟨rfl, pairwise_singleton _ _⟩, rfl⟩

theorem Moment.nested {filename source : String} (h : (start filename source).Moment l) : l.Nested := by
  refine (Moment.invariant (P := fun m => m.Plain ∧ m.Nested) h
    ⟨plain_start filename source, nested_start filename source⟩ ?_ ?_ ?_).2
  · rintro m ⟨hm, hNested⟩ hEnd
    exact ⟨hm.step hEnd, (hm.takes hEnd).nested (hNested.congr rfl rfl rfl)⟩
  · rintro m ⟨hm, hNested⟩
    exact ⟨⟨hm.state, hm.quoted⟩, hNested.add (by decide) _ _⟩
  · rintro m complaints ⟨hm, hNested⟩
    exact ⟨⟨hm.state, hm.quoted⟩, hNested.congr rfl rfl rfl⟩

/-- A step that adds a token of a line end has read a line end. -/
theorem Takes.exists_line (h : Takes l r) (hl : l.Nested) (hNew : r.2.count .newline ≠ l.count .newline) :
    ∃ ending line, l.rest = ending ++ line ∧
      LineBreak ending line ∧ (Substantial line →
        r.1 = .ok () ∧ r.2.indents.head? = some (widthOf line) ∨
        r.1 = .error (.complaint .indentation l.startLine l.startColumn) ∧
          widthOf line < l.indents.headD 0 ∧ widthOf line ∉ l.indents) := by
  have hToken : ∀ {kind : Kind}, kind ∉ layoutKinds → kind ≠ .newline := fun hKind hEq => hKind (hEq ▸ .head _)
  cases h with
  | @token text rest line column kind lexeme literal s _ _ hKind _ =>
    exact absurd (count_add_of_ne (l := l.moved text rest line column) (hToken hKind)) hNew
  | wordEnd _ _ hKind => exact absurd (count_add_of_ne (hToken hKind)) hNew
  | blankLine _ hRest hBreak _ hBlank => exact ⟨_, _, hRest, hBreak, fun hFull => absurd hFull hBlank⟩
  | @line ending after line column _ hRest hBreak _ =>
    exact ⟨ending, after, hRest, hBreak, fun _ => ((hl.toLine ending after line column).indentTo (widthOf after)).2⟩
  | _ => exact absurd rfl hNew

/-- What was read last, if it was within a line, does not end with a line end. -/
theorem not_isLineEnd_of_inline {text past : List Char} (hText : text ≠ []) (hInline : ∀ d ∈ text, isLineEnd d = false)
    (hLast : c ∈ (text.reverse ++ past).head?) : isLineEnd c = false := by
  obtain ⟨before, d, rfl⟩ := (eq_nil_or_concat text).resolve_left hText
  rw [concat_eq_append, reverse_concat] at hLast
  cases hLast
  exact hInline c (by simp)

/-- Once all is read between tokens and a line end was read last, only the outermost indentation is open: the text
ends with a line of no width. -/
theorem Takes.closed (h : Takes l r) (hl : l.Nested) (hSome : l.rest ≠ []) (hOk : r.1 = .ok ())
    (hState : r.2.state = .start) (hRest : r.2.rest = []) (hLast : c ∈ r.2.past.head?) (hLine : isLineEnd c = true) :
    r.2.indents = [0] := by
  -- text within a line cannot have been read last
  have hWithin : ∀ {text past : List Char}, Inline text → c ∈ (text.reverse ++ past).head? → False := by
    intro text past hText hMem
    have hNone := not_isLineEnd_of_inline hText.1 hText.2 hMem
    rw [hLine] at hNone
    cases hNone
  cases h with
  | skip _ _ hText | token _ hText => exact (hWithin hText hLast).elim
  | wordEnd | enter => exact absurd hRest hSome
  | @letter _ _ _ _ s _ _ hNew _ =>
    have hInside : s ≠ .start := by
      rintro rfl
      simp at hNew
    exact absurd hState hInside
  | stop => cases hOk
  | blankLine _ _ _ hMore => exact absurd hRest hMore
  | @line ending after line column _ _ _ _ =>
    have hIndent := (hl.toLine ending after line column).indentTo (widthOf after)
    obtain ⟨_, _, _, hShape⟩ := (l.toLine ending after line column).indentTo_shape (widthOf after)
    have hEnd : after.dropWhile isSpace = [] := by
      rw [hShape] at hRest
      exact hRest
    have hBlanks : after.takeWhile isSpace = after := by
      have hParts := takeWhile_append_dropWhile (p := isSpace) (l := after)
      rw [hEnd, append_nil] at hParts
      exact hParts
    have hEmpty : after = [] := by
      by_contra hAfter
      have hText : Inline after := ⟨hAfter, fun d hd => isLineEnd_of_isSpace (mem_takeWhile_imp (hBlanks.symm ▸ hd))⟩
      rw [hShape] at hLast
      have hPast : c ∈ ((ending ++ after.takeWhile isSpace).reverse ++ l.past).head? := hLast
      rw [hBlanks, reverse_append, append_assoc] at hPast
      exact hWithin hText hPast
    subst hEmpty
    rcases hIndent.2 with ⟨_, hTop⟩ | ⟨hStop, _⟩
    · exact hIndent.1.eq_of_head? hTop
    · rw [hOk] at hStop
      cases hStop

/-- Between tokens at the end of a text that ends with a line end, only the outermost indentation is open. -/
theorem Reaches.closed {filename source : String} {n : Nat} (h : (start filename source).Reaches n l)
    (hState : l.state = .start) (hEnd : l.atEnd = true) (hLast : c ∈ source.toList.getLast?)
    (hLine : isLineEnd c = true) : l.indents = [0] := by
  have hRest : l.rest = [] := by simpa [atEnd] using hEnd
  -- all of the text has been read
  have hPast : c ∈ l.past.head? := by
    obtain ⟨text, hText, hRead⟩ := ((plain_start filename source).moment (.reached h)).2.text
    have hAll : source.toList = text := by
      rw [hRest, append_nil] at hText
      exact hText
    have hNone : (start filename source).past = [] := rfl
    rw [hRead, hNone, append_nil, List.head?_reverse, ← hAll]
    exact hLast
  cases h with
  | refl => cases hPast
  | @next n m _ hReach hMore hStep =>
    have hPlain := ((plain_start filename source).moment (.reached hReach)).1
    have hNested : m.mark.Nested := (Moment.nested (.reached hReach)).congr rfl rfl rfl
    have hTakes := hPlain.takes hMore
    rw [hStep] at hTakes
    have hSome : m.rest ≠ [] := by simpa [atEnd] using hMore
    exact hTakes.closed hNested hSome rfl hState hRest hPast hLine

/-- **Indentations are nested.** At all times in the course of reading a text, also when the lexer stops, the open
indentations get strictly wider from the outermost, which has no width, and there is one more of them than tokens
that open and do not close one. A step that reads a line end before a line that is neither blank nor a comment only
leaves the width of the line's blanks as the innermost, or stops since they are narrower than the innermost and as
wide as none. If the text ends with a line end and reading it ends between tokens, all that was opened is closed. -/
theorem indentation_nested (filename source : String) :
    (∀ l, (start filename source).Moment l → l.indents.getLast? = some 0 ∧ l.indents.Pairwise (· > ·) ∧
      (l.count .indent : Int) - l.count .dedent = l.indents.length - 1) ∧
    (∀ n l, (start filename source).Reaches n l → l.atEnd = false → l.step.2.count .newline ≠ l.count .newline →
      ∃ ending line, l.rest = ending ++ line ∧ LineBreak ending line ∧ (Substantial line →
        ∃ width, Spans (line.takeWhile isSpace) width ∧
          (l.step.1 = .ok () ∧ l.step.2.indents.head? = some width ∨
            ∃ c, l.step.1 = .error (.complaint c l.line l.column) ∧ c.message = "Inconsistent indentation" ∧
              width < l.indents.headD 0 ∧ width ∉ l.indents))) ∧
    ∀ l, Indented.tokenize filename source = (.ok (), l) → l.state = .start →
      (∃ c ∈ source.toList.getLast?, c = '\n' ∨ c = '\r') →
      l.indents = [0] ∧ l.count .indent = l.count .dedent := by
  have hStart := plain_start filename source
  refine ⟨?_, ?_, ?_⟩
  · intro l hMoment
    have hNested := hMoment.nested
    have hBalance := hNested.balance
    exact ⟨hNested.bottom, hNested.wider, by omega⟩
  · intro n l hReach hEnd hNew
    have hPlain := (hStart.moment (.reached hReach)).1
    have hNested : l.mark.Nested := (Moment.nested (.reached hReach)).congr rfl rfl rfl
    obtain ⟨ending, line, hRest, hBreak, hWidth⟩ :=
      (hPlain.takes hEnd).exists_line hNested hNew
    refine ⟨ending, line, hRest, hBreak, fun hFull => ⟨widthOf line, spans_widthOf line, ?_⟩⟩
    rcases hWidth hFull with hOk | ⟨hStop, hNarrow⟩
    · exact .inl hOk
    · exact .inr ⟨.indentation, hStop, rfl, hNarrow⟩
  · rintro l hRun hState ⟨c, hLast, hLine⟩
    rcases hStart.tokenize_cases with ⟨n, m, hReach, hEnd, hOk⟩ | ⟨n, m, s, hReach, hEnd, hStop, hError⟩
    · obtain rfl : m.add .endMarker "" .none = l := congrArg Prod.snd (hOk.symm.trans hRun)
      have hClosed : m.indents = [0] := hReach.closed hState hEnd hLast (isLineEnd_iff.mpr hLine)
      have hBalance := (Moment.nested (.reached hReach)).balance
      rw [hClosed, length_singleton] at hBalance
      refine ⟨hClosed, ?_⟩
      rw [count_add_of_ne (by decide), count_add_of_ne (by decide)]
      omega
    · have hBoth : Except.error s = Except.ok () := hError.symm.trans (congrArg Prod.fst hRun)
      cases hBoth

/-- A block that is opened and closed at the end of the text. -/
theorem indentation_nested_block : ∃ l, Indented.tokenize "" ":\n\t~\n" = (.ok (), l) ∧ l.count .indent = 1 ∧
    l.indents = [0] ∧ l.count .indent = l.count .dedent := by
  have hRun : Indented.tokenize "" ":\n\t~\n" = (.ok (), (Indented.tokenize "" ":\n\t~\n").2) :=
    Prod.ext (by decide +kernel) rfl
  have hClosed := (indentation_nested "" ":\n\t~\n").2.2 _ hRun (by decide +kernel) ⟨'\n', by decide, .inl rfl⟩
  exact ⟨_, hRun, by decide +kernel, hClosed⟩

end Lexer

end Scriptling.Indented
