import Scriptling.Proofs.Indented.Piece

/-!
# Reading a piece

Where a token can begin, the lexer reads the piece in front in some steps and is then between tokens again
(`Lexer.passed`). Since the beginning of a step is noted anew each time, the token of a word is empty, the
token of a string holds its closing quote only, and a word that nothing follows has no token at all (`Piece.made?`).
Every character of a line end is counted as a line, and a line end outside strings is counted once more
(`Piece.toll`). What is no piece stops the lexer (`Lexer.stops_of_complains`, `Lexer.stops_of_faults`), and a string
that is not closed is read to the end without a token (`Lexer.spelled_of_unclosed`).
-/

namespace Scriptling.Indented

open Text List Piece
open Freeform (Run)
open String (ofList singleton)

variable {column : Int}

/-! ## What a piece adds -/

namespace Piece

/-- The kind, the text and the value of the token of a piece with this behind it. -/
def made? (following : List Char) : Piece → Option (Kind × String × Datum)
  | blank _ | comment _ => none
  | lineEnd ending _ => some (.newline, ofList ending, .none)
  | word _ => if following = [] then none else some (.identifier, "", .none)
  | number n => (Number.readFloat? (ofList (n.text.filter (· != '_')))).map fun x =>
    (.number, ofList n.text, .float x)
  | string quote _ => some (.string, singleton quote, .str "")
  | sign kind text => some (kind, ofList text, .none)

/-- What of a piece is read before its last step, as far as there may be line ends in it. -/
def opening : Piece → List Char
  | string quote body => quote :: body
  | _ => []

/-- By how much a piece raises the count of lines. -/
def toll : Piece → Nat
  | lineEnd ending _ => ending.length + 1
  | p => p.opening.countP isLineEnd

end Piece

theorem IsQuote.spec {q : Char} (h : IsQuote q) : q ≠ '\\' ∧ q ≠ '\n' ∧ isLineEnd q = false := by
  rcases h with rfl | rfl <;> decide

namespace Lexer

/-- The tokens that do not tell of indentation, without their columns. -/
def outlines (l : Lexer) : List (Kind × String × Datum × Int) :=
  (l.tokens.toList.filter fun t => t.kind != .indent && t.kind != .dedent).map
    fun t => (t.kind, t.lexeme, t.literal, t.line)

theorem outlines_add {l : Lexer} {kind : Kind} (h : kind ≠ .indent ∧ kind ≠ .dedent) (lexeme : String)
    (literal : Datum) :
    (l.add kind lexeme literal).outlines = l.outlines ++ [(kind, lexeme, literal, l.startLine)] := by
  simp [outlines, add, h]

theorem outlines_indentTo (l : Lexer) (width : Nat) : (l.indentTo width).2.outlines = l.outlines := by
  unfold outlines
  rw [indentTo_tokens]
  rintro t (hKind | hKind) <;> simp [hKind]

theorem outlines_of_tokens {l m : Lexer} (h : m.tokens = l.tokens) : m.outlines = l.outlines := by
  unfold outlines
  rw [h]

/-- From `l`, between tokens, steps lead over a piece. -/
structure Passed (l : Lexer) (p : Piece) (following : List Char) (m : Lexer) : Prop where
  reaches : ∃ n, l.Reaches n m
  rest : m.rest = following
  state : following ≠ [] → m.state = .start
  indents : p.indents? l.indents following = some m.indents
  line : m.line = l.line + p.toll
  startLine : m.startLine = l.line + p.opening.countP isLineEnd
  outlines : m.outlines = l.outlines ++
    ((p.made? following).map fun t => (t.1, t.2.1, t.2.2, l.line + (p.opening.countP isLineEnd : Int))).toList

/-! ## Steps of one character -/

/-- The lexer once a step has read one character. -/
def readOne (l : Lexer) (c : Char) (rest : List Char) (column : Int) (s : State) (quote? : Option String) : Lexer :=
  { l.mark.moved [c] rest (l.line + [c].countP isLineEnd) column with state := s, quote? := quote? }

/-- By steps of one character each, the lexer has read a text without adding a token. -/
structure Spelled (l : Lexer) (text : List Char) (m : Lexer) : Prop where
  reaches : ∃ n, l.Reaches n m
  rest : l.rest = text ++ m.rest
  line : m.line = l.line + text.countP isLineEnd
  startLine : text ≠ [] → m.startLine = l.line + text.dropLast.countP isLineEnd
  same : text = [] → m = l
  indents : m.indents = l.indents
  tokens : m.tokens = l.tokens

section Steps

variable {l m : Lexer} {c q : Char} {text rest following : List Char}

theorem atEnd_cons (hRest : l.rest = c :: rest) : l.atEnd = false := by simp [atEnd, hRest]

theorem atEnd_append (hRest : l.rest = text ++ following) (hSome : text ≠ []) : l.atEnd = false := by
  simp [atEnd, hRest, hSome]

theorem Spelled.refl (l : Lexer) : l.Spelled [] l :=
  ⟨⟨0, .refl⟩, rfl, by simp, fun h => absurd rfl h, fun _ => rfl, rfl, rfl⟩

theorem Spelled.trans {m' : Lexer} {text' : List Char} (h : l.Spelled text m) (h' : m.Spelled text' m') :
    l.Spelled (text ++ text') m' := by
  obtain ⟨n, hReach⟩ := h.reaches
  obtain ⟨k, hReach'⟩ := h'.reaches
  refine ⟨⟨n + k, hReach.trans hReach'⟩, ?_, ?_, fun hSome => ?_, fun hNil => ?_, h'.indents.trans h.indents,
    h'.tokens.trans h.tokens⟩
  · rw [h.rest, h'.rest, append_assoc]
  · rw [h'.line, h.line, countP_append, Int.natCast_add, Int.add_assoc]
  · by_cases hText : text' = []
    · rw [hText, append_nil] at hSome ⊢
      rw [h'.same hText]
      exact h.startLine hSome
    · rw [h'.startLine hText, h.line, dropLast_append_of_ne_nil hText, countP_append, Int.natCast_add, Int.add_assoc]
  · obtain ⟨hFront, hBack⟩ := append_eq_nil_iff.mp hNil
    rw [h'.same hBack, h.same hFront]

theorem Spelled.one {s : State} {quote? : Option String} (hRest : l.rest = c :: rest)
    (hStep : l.step = (l.readOne c rest column s quote?).goOn) : l.Spelled [c] (l.readOne c rest column s quote?) :=
  ⟨⟨1, .next .refl (atEnd_cons hRest) hStep⟩, hRest, rfl, fun _ => (Int.add_zero _).symm, fun h => absurd h (by simp),
    rfl, rfl⟩

theorem Spelled.cons {s : State} {quote? : Option String} (hRest : l.rest = c :: rest)
    (hStep : l.step = (l.readOne c rest column s quote?).goOn)
    (h : (l.readOne c rest column s quote?).Spelled text m) : l.Spelled (c :: text) m :=
  (Spelled.one hRest hStep).trans h

section Mark

variable {s : State} {quote? : Option String}

theorem mark_state (h : l.state = s) : l.mark.state = s := h

theorem mark_quote (h : l.quote? = quote?) : l.mark.quote? = quote? := h

theorem mark_rest (h : l.rest = text) : l.mark.rest = text := h

theorem mark_current (hRest : l.rest = c :: rest) : l.mark.current = c := current_cons hRest

end Mark

theorem move_eq_readOne (hRest : l.rest = c :: rest) :
    ∃ column, l.mark.move = l.readOne c rest column l.state l.quote? :=
  l.mark.move_eq hRest

/-- A step that has read one character holds that character. -/
theorem lexeme_readOne {s : State} {quote? : Option String} :
    (l.readOne c rest column s quote?).lexeme = singleton c := by
  simp [lexeme, readOne, mark, pos, moved]

/-! ### Words -/

theorem step_letter (hState : l.state = .identifier) (hRest : l.rest = c :: rest) (hWord : isWordChar c = true) :
    ∃ column, l.step = (l.readOne c rest column .identifier l.quote?).goOn := by
  obtain ⟨column, hMove⟩ := move_eq_readOne hRest
  refine ⟨column, ?_⟩
  simp only [step, mark_state hState, stepIdentifier, mark_current hRest, hWord, if_true, hMove, hState]

theorem step_wordEnd (hState : l.state = .identifier) (hRest : l.rest = c :: rest) (hWord : isWordChar c = false) :
    l.step = ((l.mark.add .identifier "" .none).enter .start).goOn := by
  have hKind : wordKind "" = .identifier := by decide
  simp [step, mark_state hState, stepIdentifier, mark_current hRest, hWord, hKind, lexeme_mark]

theorem spelled_word (hText : ∀ c ∈ text, isWordChar c = true) (hState : l.state = .identifier)
    (hRest : l.rest = text ++ following) : ∃ m, l.Spelled text m ∧ m.state = .identifier := by
  induction text generalizing l with
  | nil => exact ⟨l, .refl l, hState⟩
  | cons c text ih =>
    obtain ⟨hc, hText⟩ := forall_mem_cons.mp hText
    obtain ⟨column, hStep⟩ := step_letter hState hRest hc
    obtain ⟨m, hSpelled, hIn⟩ := @ih (l.readOne c (text ++ following) column .identifier l.quote?) hText rfl rfl
    exact ⟨m, .cons hRest hStep hSpelled, hIn⟩

/-! ### Strings -/

theorem singleton_ne (h : c ≠ q) : singleton c ≠ singleton q := fun hEq =>
  h (by simpa using congrArg String.toList hEq)

theorem step_quote (hState : l.state = .start) (hRest : l.rest = q :: rest) (hQuote : IsQuote q) :
    ∃ column, l.step = (l.readOne q rest column .string (some (singleton q))).goOn := by
  obtain ⟨column, hMove⟩ := move_eq_readOne hRest
  refine ⟨column, ?_⟩
  rcases hQuote with rfl | rfl <;>
    simp [step, mark_state hState, stepStart, mark_current hRest, isSpace, isLineEnd, hMove, readOne]

section Inside

variable (hState : l.state = .string) (hQuote : l.quote? = some (singleton q))

include hState hQuote

theorem step_plain (hRest : l.rest = c :: rest) (hBackslash : c ≠ '\\') (hOther : c ≠ q) (hLine : c ≠ '\n') :
    ∃ column, l.step = (l.readOne c rest column .string (some (singleton q))).goOn := by
  obtain ⟨column, hMove⟩ := move_eq_readOne hRest
  refine ⟨column, ?_⟩
  simp [step, mark_state hState, mark_quote hQuote, stepString, mark_current hRest,
    hBackslash, singleton_ne hOther, hLine, hMove, hState, hQuote]

theorem step_backslash (hRest : l.rest = '\\' :: rest) :
    ∃ column, l.step = (l.readOne '\\' rest column .escape (some (singleton q))).goOn := by
  obtain ⟨column, hMove⟩ := move_eq_readOne hRest
  refine ⟨column, ?_⟩
  simp [step, mark_state hState, stepString, mark_current hRest, hMove, hQuote, enter, readOne]

theorem step_close (hRest : l.rest = q :: rest) (hq : IsQuote q) : ∃ column,
    l.step = ((l.readOne q rest column .start (some (singleton q))).add .string (singleton q)
      (.str "")).goOn := by
  obtain ⟨column, hMove⟩ := move_eq_readOne hRest
  refine ⟨column, ?_⟩
  simp [step, mark_state hState, mark_quote hQuote, stepString, mark_current hRest,
    hq.spec, hMove, hQuote, lexeme_readOne, inner, stringMark, enter, add]
  simp [readOne]

/-- A line feed inside a string stops the lexer. -/
theorem step_broken (hRest : l.rest = '\n' :: rest) (hq : IsQuote q) :
    l.step.1 = .error (.complaint .unterminated l.mark.startLine l.mark.startColumn) := by
  have hOther : "\n" ≠ singleton q := by
    rcases hq with rfl | rfl <;> decide
  simp [step, mark_state hState, mark_quote hQuote, stepString, mark_current hRest, hOther, stop, complain]

end Inside

theorem step_escaped (hState : l.state = .escape) (hRest : l.rest = c :: rest) :
    ∃ column, l.step = (l.readOne c rest column .string l.quote?).goOn := by
  obtain ⟨column, hMove⟩ := move_eq_readOne hRest
  refine ⟨column, ?_⟩
  simp [step, mark_state hState, hMove, enter, readOne]

theorem spelled_body {body : List Char} (h : Body q body) (hState : l.state = .string)
    (hQuote : l.quote? = some (singleton q)) (hRest : l.rest = body ++ following) :
    ∃ m, l.Spelled body m ∧ m.state = .string ∧ m.quote? = some (singleton q) := by
  induction h generalizing l with
  | nil => exact ⟨l, .refl l, hState, hQuote⟩
  | plain hBackslash hOther hLine _ ih =>
    obtain ⟨column, hStep⟩ := step_plain hState hQuote hRest hBackslash hOther hLine
    obtain ⟨m, hSpelled, hIn⟩ := @ih (l.readOne _ _ column .string _) rfl rfl rfl
    exact ⟨m, .cons hRest hStep hSpelled, hIn⟩
  | @escaped c body _ ih =>
    obtain ⟨column, hStep⟩ := step_backslash hState hQuote hRest
    obtain ⟨column', hStep'⟩ := @step_escaped (l.readOne '\\' (c :: body ++ following) column .escape _) c _ rfl rfl
    obtain ⟨m, hSpelled, hIn⟩ := @ih (Lexer.readOne _ _ _ column' .string _) rfl rfl rfl
    exact ⟨m, .cons hRest hStep (.cons rfl hStep' hSpelled), hIn⟩

theorem spelled_string {body : List Char} (hState : l.state = .start) (hq : IsQuote q) (hBody : Body q body)
    (hRest : l.rest = q :: (body ++ following)) : ∃ m, l.Spelled (q :: body) m ∧ m.rest = following ∧
      m.state = .string ∧ m.quote? = some (singleton q) := by
  obtain ⟨column, hStep⟩ := step_quote hState hRest hq
  obtain ⟨m, hSpelled, hIn⟩ := @spelled_body (l.readOne q _ column .string _) q following body hBody rfl rfl rfl
  have hAll := Spelled.cons hRest hStep hSpelled
  refine ⟨m, hAll, ?_, hIn⟩
  have hSame := hAll.rest
  rw [hRest, cons_append] at hSame
  exact (append_cancel_left (List.cons.inj hSame).2).symm

/-! ### Other beginnings -/

/-- The characters at which blanks, line ends, comments and strings begin. -/
def openers : List Char := [' ', '\t', '\x0c', '\n', '\r', '#', '"', '\x27']

theorem not_mem_openers {p : Char → Bool} (hp : openers.all (fun c => !p c) = true) (h : p c = true) : c ∉ openers := by
  intro hMem
  have hNot := all_eq_true.mp hp c hMem
  simp [h] at hNot

theorem step_other (hState : l.state = .start) (hRest : l.rest = c :: rest) (hc : c ∉ openers) : l.step =
    if isDigit c || (c = '.' && isDigit (rest.headD '\x00')) then (l.mark.enter .number).goOn
    else if isWordStart c then (l.mark.enter .identifier).goOn else l.mark.readSign := by
  have hNext : l.mark.next = rest.headD '\x00' := by simp [next, mark_rest hRest]
  simp only [openers, mem_cons, not_mem_nil, or_false, not_or] at hc
  simp [step, mark_state hState, stepStart, mark_current hRest, hNext, isSpace, isLineEnd, hc]

/-! ### Numbers -/

section Numbers

variable {n : Numeral} (h : n.Stands following) (hRest : l.rest = n.text ++ following)

include h hRest

theorem step_number_first (hState : l.state = .start) : l.step = (l.mark.enter .number).goOn := by
  obtain ⟨c, cs, hBody, hFirst⟩ := h.first
  have hText : n.text ++ following = c :: (cs ++ (n.exponent ++ (n.mark ++ following))) := by simp [Numeral.text, hBody]
  rw [hText] at hRest
  have hOpener : c ∉ openers := by
    rcases hFirst with hDigit | ⟨rfl, -⟩
    · exact not_mem_openers (p := isDigit) (by decide) hDigit
    · decide
  rw [step_other hState hRest hOpener, if_pos]
  rcases hFirst with hDigit | ⟨rfl, d, hHead, hDigit⟩
  · simp [hDigit]
  · obtain ⟨ds, rfl⟩ := List.head?_eq_some_iff.mp hHead
    simp [hDigit]

theorem step_number (hState : l.state = .number) : ∃ column, l.step =
    match Number.readFloat? (ofList (n.text.filter (· != '_'))) with
    | some x => (((l.mark.moved n.text following l.line column).add .number (ofList n.text) (.float x)).enter
        .start).goOn
    | none => (l.mark.moved n.text following l.line column).fail .wrongValue := by
  obtain ⟨column, hMove⟩ := l.mark.advance_append n.text following hRest
  have hInline : n.text.countP isLineEnd = 0 := countP_isLineEnd (numberText_numeral h ▸ numberText_inline)
  rw [hInline, Int.natCast_zero, Int.add_zero] at hMove
  refine ⟨column, ?_⟩
  simp only [step, mark_state hState, stepNumber, mark_rest hRest, numberText_numeral h, hMove]
  cases Number.readFloat? (ofList (n.text.filter (· != '_'))) <;> rfl

end Numbers

/-! ### Signs -/

theorem single_apart {kind : Kind} (h : singles.lookup c = some kind) : c ∉ openers ∧ isDigit c = false ∧
    isWordStart c = false ∧ c ≠ '%' ∧ kind ≠ .indent ∧ kind ≠ .dedent ∧ ∀ d, doubles.lookup (c, d) = none := by
  have hAll : ∀ entry ∈ singles, entry.1 ∉ openers ∧ isDigit entry.1 = false ∧ isWordStart entry.1 = false ∧
      entry.1 ≠ '%' ∧ entry.2 ≠ .indent ∧ entry.2 ≠ .dedent ∧ ∀ other ∈ doubles, entry.1 ≠ other.1.1 := by decide
  obtain ⟨hOpener, hDigit, hWord, hPercent, hIndent, hDedent, hDoubles⟩ := hAll _ (mem_of_lookup h)
  refine ⟨hOpener, hDigit, hWord, hPercent, hIndent, hDedent, fun d => ?_⟩
  rw [Option.eq_none_iff_forall_ne_some]
  exact fun other hOther => hDoubles _ (mem_of_lookup hOther) rfl

/-- A character that begins neither layout nor a literal nor a word is taken for a sign. -/
theorem step_sign (hState : l.state = .start) (hRest : l.rest = c :: rest) (hc : c ∉ openers)
    (hDigit : isDigit c = false) (hWord : isWordStart c = false)
    (hPoint : c = '.' → ∀ d ∈ rest.head?, isDigit d = false) : l.step = l.mark.readSign := by
  have hNumber : (isDigit c || (c = '.' && isDigit (rest.headD '\x00'))) = false := by
    by_cases hc : c = '.'
    · cases rest with
      | nil => simp [hDigit, show isDigit '\x00' = false from by decide]
      | cons d rest => simp [hDigit, hPoint hc d rfl]
    · simp [hDigit, hc]
  rw [step_other hState hRest hc, hNumber, hWord]
  rfl

theorem readSign_single (hRest : l.rest = c :: rest)
    (h : ∀ d ∈ rest.head?, c ≠ '%' ∧ doubles.lookup (c, d) = none) : l.mark.readSign = readSign.single l.mark c := by
  unfold readSign
  rw [mark_current hRest, mark_rest hRest, drop_one, tail_cons]
  cases rest with
  | nil => rfl
  | cons d rest => simp [h d rfl]

theorem double_apart {d : Char} {kind : Kind} (h : doubles.lookup (c, d) = some kind) : c ∉ openers ∧
    isDigit c = false ∧ isWordStart c = false ∧ c ≠ '%' ∧ c ≠ '.' ∧ kind ≠ .indent ∧ kind ≠ .dedent ∧
    [c, d].countP isLineEnd = 0 := by
  have hAll : ∀ entry ∈ doubles, entry.1.1 ∉ openers ∧ isDigit entry.1.1 = false ∧ isWordStart entry.1.1 = false ∧
      entry.1.1 ≠ '%' ∧ entry.1.1 ≠ '.' ∧ entry.2 ≠ .indent ∧ entry.2 ≠ .dedent ∧
      [entry.1.1, entry.1.2].countP isLineEnd = 0 := by decide
  exact hAll _ (mem_of_lookup h)

end Steps

/-! ## Pieces are read -/

section Pieces

variable {l : Lexer} {following : List Char} {ws : List Nat}

/-! ### Indentation -/

theorem indentTo_of_fit {width : Nat} (hStacked : Stacked l.indents) (h : fit? l.indents width = some ws) :
    (l.indentTo width).1 = .ok () ∧ (l.indentTo width).2.indents = ws := by
  unfold fit? at h
  unfold indentTo
  dsimp only
  by_cases hOpen : l.indents.headD 0 < width
  · rw [if_pos hOpen] at h ⊢
    exact ⟨rfl, Option.some.inj h⟩
  rw [if_neg hOpen] at h ⊢
  by_cases hMem : width ∈ l.indents
  · rw [if_pos hMem] at h
    have hHead : (l.closeIndents width).indents.headD 0 = width := hStacked.headD_close hMem
    by_cases hClose : width < l.indents.headD 0
    · rw [if_pos hClose, if_pos hHead]
      exact ⟨rfl, Option.some.inj h⟩
    · rw [if_neg hClose]
      refine ⟨rfl, ?_⟩
      rw [← Option.some.inj h]
      cases hIndents : l.indents with
      | nil => exact hIndents
      | cons top ws =>
        rw [hIndents, headD_cons] at hClose
        rw [dropWhile_cons_of_neg (by simpa using hClose)]
        exact hIndents
  · rw [if_neg hMem] at h
    cases h

theorem indentTo_of_unfit {width : Nat} (hStacked : Stacked l.indents) (h : fit? l.indents width = none) :
    (l.indentTo width).1 = .error (.complaint .indentation l.startLine l.startColumn) := by
  unfold fit? at h
  split at h
  · cases h
  next hOpen =>
    split at h
    · cases h
    next hMem =>
      have hTop : l.indents.headD 0 ∈ l.indents := mem_of_mem_head? hStacked.head?_eq
      have hClose : width < l.indents.headD 0 := by
        have hOther : width ≠ l.indents.headD 0 := fun hEq => hMem (hEq ▸ hTop)
        omega
      have hHead : (l.closeIndents width).indents.headD 0 ≠ width := by
        have hLeft := mem_of_mem_head? (hStacked.close width).head?_eq
        exact fun hEq => hMem (hEq ▸ (dropWhile_sublist _).subset hLeft)
      unfold indentTo
      dsimp only
      rw [if_neg hOpen, if_pos hClose, if_neg hHead, closeIndents_eq]
      rfl

theorem settle_eq (following : List Char) (hRest : l.rest = following) (width : Nat) : l.settle width =
    if following.head?.any fun c => isLineEnd c || c == '#' then l.goOn else l.indentTo width := by
  unfold settle current
  rw [hRest]
  cases following with
  | nil => rfl
  | cons c cs => simp

/-- Settling changes only what is known of indentation. -/
theorem settle_shape (l : Lexer) (width : Nat) : ∃ indents tokens complaints,
    (l.settle width).2 = { l with indents := indents, tokens := tokens, complaints := complaints } := by
  unfold settle
  split
  · exact ⟨_, _, _, rfl⟩
  · exact l.indentTo_shape width

theorem outlines_settle (l : Lexer) (width : Nat) : (l.settle width).2.outlines = l.outlines := by
  unfold settle
  split
  · rfl
  · exact l.outlines_indentTo width

/-! ### Pieces of each kind -/

variable (hState : l.state = .start)

include hState

theorem passed_skip {p : Piece} {q : Char → Bool} (hRest : l.rest = p.text ++ following)
    (hSome : p.text ≠ []) (hRun : Run q p.text following) (hInline : ∀ c, q c = true → isLineEnd c = false)
    (hStep : l.step = (l.mark.moveWhile q).goOn) (hLayout : p.indents? l.indents following = some l.indents)
    (hMade : p.made? following = none ∧ p.toll = 0 ∧ p.opening = []) : ∃ m, l.Passed p following m := by
  obtain ⟨column, hMove⟩ := l.mark.moveWhile_eq q
  rw [mark_rest hRest, hRun.split.1, hRun.split.2, countP_isLineEnd fun c hc => hInline c (hRun.inside c hc)] at hMove
  rw [hMove] at hStep
  refine ⟨_, ⟨1, .next .refl (atEnd_append hRest hSome) hStep⟩, rfl, fun _ => hState, hLayout, ?_, ?_, ?_⟩
  · simp [hMade, moved, mark]
  · simp [hMade, moved, mark]
  · simp only [hMade, Option.map_none, Option.toList_none, append_nil]
    rfl

theorem passed_word {c : Char} {cs : List Char} (hc : isWordStart c = true) (hRun : Run isWordChar cs following)
    (hRest : l.rest = c :: cs ++ following) : ∃ m, l.Passed (.word (c :: cs)) following m := by
  have hText : ∀ d ∈ c :: cs, isWordChar d = true := forall_mem_cons.mpr ⟨isWordChar_of_isWordStart hc, hRun.inside⟩
  have hDigit : isDigit c = false := by
    by_contra hDigit
    simp [isWordStart_of_isDigit (by simpa using hDigit)] at hc
  have hPoint : c ≠ '.' := fun hEq => absurd hc (by rw [hEq]; decide)
  have hFirst : l.step = (l.mark.enter .identifier).goOn := by
    rw [step_other hState hRest (not_mem_openers (p := isWordStart) (by decide) hc)]
    simp [hDigit, hPoint, hc]
  obtain ⟨m, hSpelled, hIn⟩ := @spelled_word (l.mark.enter .identifier) (c :: cs) following hText rfl hRest
  obtain ⟨n, hReach⟩ := hSpelled.reaches
  have hReach := hReach.cons (atEnd_cons hRest) hFirst
  have hMore : m.rest = following := (append_cancel_left (hRest.symm.trans hSpelled.rest)).symm
  have hInline : ∀ d ∈ c :: cs, isLineEnd d = false :=
    fun d hd => isLineEnd_eq_false (p := isWordChar) (by decide) (by decide) (hText d hd)
  have hLine : m.line = l.line := by
    rw [hSpelled.line, countP_isLineEnd hInline]
    exact Int.add_zero _
  have hStart : m.startLine = l.line := by
    rw [hSpelled.startLine (by simp), countP_isLineEnd fun d hd => hInline d (dropLast_subset _ hd)]
    exact Int.add_zero _
  cases following with
  | nil =>
    refine ⟨m, ⟨_, hReach⟩, hMore, fun h => absurd rfl h, congrArg some hSpelled.indents.symm, ?_, ?_, ?_⟩
    · simp [hLine, toll, opening]
    · simp [hStart, opening]
    · rw [outlines_of_tokens hSpelled.tokens]
      exact (append_nil _).symm
  | cons d ds =>
    have hLast := step_wordEnd hIn hMore (hRun.ends d rfl)
    refine ⟨_, ⟨_, .next hReach (atEnd_cons hMore) hLast⟩, hMore, fun _ => rfl,
      congrArg some hSpelled.indents.symm, hLine.trans (Int.add_zero _).symm, hLine.trans (Int.add_zero _).symm, ?_⟩
    · refine (@outlines_add m.mark .identifier (by decide) "" .none).trans ?_
      rw [show m.mark.outlines = l.outlines from outlines_of_tokens hSpelled.tokens,
        show m.mark.startLine = l.line from hLine]
      simp [made?, opening]

theorem passed_number {n : Numeral} (h : n.Stands following) (hFormed : ¬n.Malformed)
    (hRest : l.rest = n.text ++ following) : ∃ m, l.Passed (.number n) following m := by
  obtain ⟨x, hRead⟩ := Option.isSome_iff_exists.mp (h.readFloat?_isSome_iff.mpr hFormed)
  have hEnd : l.atEnd = false := atEnd_append hRest h.text_ne_nil
  have hFirst := step_number_first h hRest hState
  obtain ⟨column, hNumber⟩ := @step_number (l.mark.enter .number) following n h hRest rfl
  rw [hRead] at hNumber
  refine ⟨_, ⟨2, .next (.next .refl hEnd hFirst) hEnd hNumber⟩, rfl, fun _ => rfl, rfl, (Int.add_zero _).symm,
    (Int.add_zero _).symm, ?_⟩
  refine (outlines_add (by decide) _ _).trans ?_
  simp only [made?, hRead, opening]
  simp [outlines, moved, mark, enter]

theorem passed_string {q : Char} {body : List Char} (hq : IsQuote q) (hBody : Body q body)
    (hRest : l.rest = q :: (body ++ [q]) ++ following) : ∃ m, l.Passed (.string q body) following m := by
  rw [cons_append, append_assoc, singleton_append] at hRest
  obtain ⟨m, hSpelled, hMore, hIn, hQuote⟩ := spelled_string hState hq hBody hRest
  obtain ⟨column, hStep⟩ := step_close hIn hQuote hMore hq
  obtain ⟨n, hReach⟩ := hSpelled.reaches
  have hCount : [q].countP isLineEnd = 0 := by simp [hq.spec.2.2]
  refine ⟨_, ⟨n + 1, .next hReach (atEnd_cons hMore) hStep⟩, rfl, fun _ => rfl, congrArg some hSpelled.indents.symm,
    ?_, hSpelled.line, ?_⟩
  · show m.line + [q].countP isLineEnd = l.line + (q :: body).countP isLineEnd
    rw [hCount, hSpelled.line]
    exact Int.add_zero _
  · refine (outlines_add (by decide) _ _).trans ?_
    rw [show (m.readOne q following column .start _).outlines = l.outlines from outlines_of_tokens hSpelled.tokens,
      show (m.readOne q following column .start _).startLine = _ from hSpelled.line]
    rfl

theorem passed_sign {kind : Kind} {text : List Char} (h : Sign text kind following)
    (hRest : l.rest = text ++ following) : ∃ m, l.Passed (.sign kind text) following m := by
  -- either way the sign is moved over and its token is added
  have hPassed : ∀ {column : Int}, text ≠ [] → kind ≠ .indent ∧ kind ≠ .dedent →
      l.step = ((l.mark.moved text following l.line column).add kind (ofList text) .none).goOn →
      ∃ m, l.Passed (.sign kind text) following m := by
    intro column hSome hKind hStep
    refine ⟨_, ⟨1, .next .refl (atEnd_append hRest hSome) hStep⟩, rfl, fun _ => hState, rfl, (Int.add_zero _).symm,
      (Int.add_zero _).symm, ?_⟩
    refine (outlines_add hKind _ _).trans ?_
    simp [made?, opening, outlines, moved, mark]
  cases h with
  | @double c d _ _ hDouble =>
    obtain ⟨hOpener, hDigit, hWord, hPercent, hPoint, hIndent, hDedent, hInline⟩ := double_apart hDouble
    obtain ⟨column, hMove⟩ := l.mark.advance_append [c, d] following hRest
    have hMove : l.mark.advance 2 = l.mark.moved [c, d] following l.line column := by
      rw [hInline] at hMove
      exact hMove.trans (by simp [mark])
    refine @hPassed column (by simp) ⟨hIndent, hDedent⟩ ?_
    rw [step_sign hState hRest hOpener hDigit hWord fun h => absurd h hPoint]
    simp [readSign, mark_current hRest, mark_rest hRest, hPercent, hDouble, hMove]
  | @single c _ _ hSingle hPoint =>
    obtain ⟨hOpener, hDigit, hWord, hPercent, hIndent, hDedent, hDoubles⟩ := single_apart hSingle
    have hInline : isLineEnd c = false := by
      simp only [openers, mem_cons, not_mem_nil, or_false, not_or] at hOpener
      simp [isLineEnd, hOpener]
    obtain ⟨column, hMove⟩ := (l.mark.add kind (singleton c) .none).move_eq hRest
    refine @hPassed column (by simp) ⟨hIndent, hDedent⟩ ?_
    rw [step_sign hState hRest hOpener hDigit hWord hPoint, readSign_single hRest fun d _ => ⟨hPercent, hDoubles d⟩]
    simp only [readSign.single, hSingle, hMove]
    simp [goOn, add, moved, mark, hInline]

/-- The lexer goes to the next line with a token of the line end, and then settles its indentation. -/
theorem step_lineEnd {ending blanks : List Char} (hBreak : LineBreak ending (blanks ++ following))
    (hRun : Run isSpace blanks following)
    (hRest : l.rest = ending ++ blanks ++ following) : ∃ column, l.step =
      ((l.mark.moved (ending ++ blanks) following (l.line + (ending.length + 1)) column).add .newline
        (ofList ending) .none).settle (widthOf blanks) := by
  rw [append_assoc] at hRest
  obtain ⟨column, hRead⟩ := @readLineEnd_eq l.mark ending (blanks ++ following) hRest hBreak
  have hWidth : widthOf (blanks ++ following) = widthOf blanks := by
    simp [widthOf, hRun.split.1, takeWhile_eq_self_iff.mpr hRun.inside]
  have hFirst : l.step = l.mark.readLineEnd := by
    cases hBreak <;> simp [step, mark_state hState, stepStart, mark_current hRest, isSpace, isLineEnd]
  refine ⟨column, ?_⟩
  rw [hFirst, hRead, toLine, hRun.split.1, hRun.split.2, hWidth]
  rfl

theorem passed_lineEnd {ending blanks : List Char} (hStacked : Stacked l.indents)
    (hBreak : LineBreak ending (blanks ++ following)) (hRun : Run isSpace blanks following)
    (hRest : l.rest = ending ++ blanks ++ following) (hFits : reindent? l.indents blanks following = some ws) :
    ∃ m, l.Passed (.lineEnd ending blanks) following m := by
  obtain ⟨column, hStep⟩ := step_lineEnd hState hBreak hRun hRest
  generalize hk : (l.mark.moved (ending ++ blanks) following (l.line + (ending.length + 1)) column).add .newline
    (ofList ending) .none = k at hStep
  have hSettled : (k.settle (widthOf blanks)).1 = .ok () ∧ (k.settle (widthOf blanks)).2.indents = ws := by
    rw [settle_eq (l := k) following (by rw [← hk]; rfl)]
    unfold reindent? at hFits
    split
    next hBlank =>
      rw [if_pos hBlank] at hFits
      exact ⟨rfl, by rw [← hk]; exact Option.some.inj hFits⟩
    next hFull =>
      rw [if_neg hFull] at hFits
      exact indentTo_of_fit (l := k) (by rw [← hk]; exact hStacked) (by rw [← hk]; exact hFits)
  have hEnd : l.atEnd = false := atEnd_append hRest (by simp [hBreak.ne_nil])
  have hLast : l.step = (.ok (), (k.settle (widthOf blanks)).2) := by rw [hStep]; exact Prod.ext hSettled.1 rfl
  obtain ⟨_, _, _, hShape⟩ := k.settle_shape (widthOf blanks)
  refine ⟨_, ⟨1, .next .refl hEnd hLast⟩, ?_, fun _ => ?_, ?_, ?_, ?_, ?_⟩
  · rw [hShape, ← hk]
    rfl
  · rw [hShape, ← hk]
    exact hState
  · rw [hSettled.2]
    exact hFits
  · rw [hShape, ← hk]
    simp [toll, moved, add]
  · rw [hShape, ← hk]
    simp [opening, moved, add, mark]
  · rw [outlines_settle, ← hk]
    refine (outlines_add (by decide) _ _).trans ?_
    simp [made?, opening, outlines, moved, mark]

/-- **A piece is read.** From between tokens, steps lead over the piece in front. -/
theorem passed {p : Piece} (h : p.Stands following) (hStacked : Stacked l.indents)
    (hRest : l.rest = p.text ++ following) (hFits : p.indents? l.indents following = some ws) :
    ∃ m, l.Passed p following m := by
  cases h with
  | @blank c cs _ hc hRun =>
    have hAll : Run isSpace (c :: cs) following := ⟨forall_mem_cons.mpr ⟨hc, hRun.inside⟩, hRun.ends⟩
    refine passed_skip hState hRest (by simp [text]) hAll (fun _ => isLineEnd_of_isSpace) ?_ rfl ⟨rfl, rfl, rfl⟩
    simp [step, mark_state hState, stepStart, mark_current hRest, hc]
  | @comment body _ hRun =>
    have hAll : Run (fun c => !isLineEnd c) ('#' :: body) following :=
      ⟨forall_mem_cons.mpr ⟨by decide, hRun.inside⟩, hRun.ends⟩
    refine passed_skip hState hRest (by simp [text]) hAll (fun c hc => by simpa using hc) ?_ rfl ⟨rfl, rfl, rfl⟩
    rw [← readComment_eq (l := l.mark) hState]
    simp [step, mark_state hState, stepStart, mark_current hRest, isSpace, isLineEnd]
  | lineEnd hBreak hRun => exact passed_lineEnd hState hStacked hBreak hRun hRest hFits
  | word hc hRun => exact passed_word hState hc hRun hRest
  | number hNumeral hFormed => exact passed_number hState hNumeral hFormed hRest
  | string hq hBody => exact passed_string hState hq hBody hRest
  | sign hSign => exact passed_sign hState hSign hRest

/-! ## What is no piece -/

theorem stops_of_complains {complaint : Complaint} (h : Complains l.indents l.rest complaint)
    (hStacked : Stacked l.indents) : ∃ n m line column, l.Reaches n m ∧ m.atEnd = false ∧
      m.step.1 = .error (.complaint complaint line column) := by
  generalize hRest : l.rest = text at h
  cases h with
  | @stray c cs hSpace hLine hComment hQuote hDigit hWord hSingle hDouble =>
    have hOpener : c ∉ openers := by
      simp only [isSpace, isLineEnd, IsQuote, Bool.or_eq_false_iff, beq_eq_false_iff_ne, not_or] at hSpace hLine hQuote
      simp [openers, hSpace, hLine, hComment, hQuote]
    have hPoint : c ≠ '.' := fun hEq => absurd hSingle (by rw [hEq]; decide)
    refine ⟨0, l, l.mark.startLine, l.mark.startColumn, .refl, atEnd_cons hRest, ?_⟩
    rw [step_sign hState hRest hOpener hDigit hWord fun h => absurd h hPoint, readSign_single hRest hDouble]
    simp only [readSign.single, hSingle]
    rfl
  | @unterminated q body later hq hBody =>
    obtain ⟨m, hSpelled, hMore, hIn, hQuote⟩ := spelled_string hState hq hBody hRest
    obtain ⟨n, hReach⟩ := hSpelled.reaches
    exact ⟨n, m, _, _, hReach, atEnd_cons hMore, step_broken hIn hQuote hMore hq⟩
  | @indentation ending blanks following hBreak hRun hUnfit =>
    obtain ⟨column, hStep⟩ := step_lineEnd hState hBreak hRun hRest
    have hEnd : l.atEnd = false := atEnd_append hRest (by simp [hBreak.ne_nil])
    refine ⟨0, l, l.mark.startLine, l.mark.startColumn, .refl, hEnd, ?_⟩
    unfold reindent? at hUnfit
    split at hUnfit
    · cases hUnfit
    next hFull =>
      rw [hStep, settle_eq following rfl, if_neg hFull]
      exact indentTo_of_unfit hStacked hUnfit

/-- A primitive operation that fails stops the lexer. -/
theorem stops_of_faults {kind : FaultKind} (h : Faults l.rest kind) :
    ∃ n m, l.Reaches n m ∧ m.atEnd = false ∧ m.step.1 = .error (.fault kind) := by
  generalize hRest : l.rest = text at h
  cases h with
  | percent =>
    refine ⟨0, l, .refl, atEnd_cons hRest, ?_⟩
    rw [step_sign hState hRest (by decide) (by decide) (by decide) fun h => absurd h (by decide)]
    simp [readSign, mark_current hRest, mark_rest hRest, fail]
  | @number n following hNumeral hMalformed =>
    have hEnd : l.atEnd = false := atEnd_append hRest hNumeral.text_ne_nil
    have hNone : Number.readFloat? (ofList (n.text.filter (· != '_'))) = none := by
      rw [← Option.not_isSome_iff_eq_none, hNumeral.readFloat?_isSome_iff]
      exact fun h => h hMalformed
    obtain ⟨column, hNumber⟩ := @step_number (l.mark.enter .number) following n hNumeral hRest rfl
    rw [hNone] at hNumber
    exact ⟨1, _, .next .refl hEnd (step_number_first hNumeral hRest hState), hEnd, by rw [hNumber]; rfl⟩

/-- A string that is not closed is read to the end of the text. -/
theorem spelled_of_unclosed (h : Unclosed l.rest) : ∃ m, l.Spelled l.rest m ∧ m.rest = [] := by
  obtain ⟨q, body, hq, hRest, hBody | ⟨inner, rfl, hInner⟩⟩ := h
  · obtain ⟨m, hSpelled, hMore, -⟩ := @spelled_string l q [] body hState hq hBody (by simpa using hRest)
    exact ⟨m, hRest ▸ hSpelled, hMore⟩
  · obtain ⟨m, hSpelled, hMore, hIn, hQuote⟩ := spelled_string hState hq hInner hRest
    obtain ⟨column, hStep⟩ := step_backslash hIn hQuote hMore
    have hAll := hSpelled.trans (.one hMore hStep)
    rw [hRest]
    exact ⟨_, hAll, rfl⟩

end Pieces

end Lexer

end Scriptling.Indented
