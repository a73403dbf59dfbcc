import Scriptling.Proofs.Braced.Boundary
import Scriptling.Proofs.Braced.Joined

/-!
# The mark before a return type

The text of a function, from its name, parameters, return type and body, with some mark before the return type.
One token is read as that mark, a minus or a greater sign. With either of them the text is read as that function.
An arrow is both of them, so it is one token too many: the greater sign is complained about twice, as a type and
as the brace before the body, and the head of the function is lost (`parse_return_mark`).
-/

namespace Scriptling.Braced

open List

variable {params : List Param} {name : String} {head : List Token}

open Text Braced.Parser Grammar

/-! ## Texts that are scanned as given tokens -/

/-- Before this rest, the text is scanned as these tokens, all on one line. -/
def Spells (line : Nat) (text : List Char) (ts : List Token) (rest : List Char) : Prop :=
  scanFrom line (text ++ rest) = (scanFrom line rest).behind ts []

variable {line : Nat} {rest : List Char}

theorem Spells.nil : Spells line [] [] rest := rfl

theorem Spells.append {text text' : List Char} {ts ts' : List Token} (h : Spells line text ts (text' ++ rest))
    (h' : Spells line text' ts' rest) : Spells line (text ++ text') (ts ++ ts') rest := by
  rw [Spells, append_assoc, h, h']
  simp [Scan.behind]

theorem spells_blank : Spells line [' '] [] rest := scanFrom_skipped (segment_gap rfl rest) line

theorem spells_sign {c : Char} {k : Kind} (h : singleKind? c = some k) :
    Spells line [c] [⟨k, String.ofList [c], .none, line⟩] rest := by
  have hSegment : segment c rest = ⟨.token k, [c], rest⟩ := by rw [segment, h]
  have hLines : newlines [c] = 0 := by
    unfold singleKind? at h
    split at h <;> first | rfl | cases h
  rw [Spells, singleton_append, scanFrom_yields hSegment rfl, hLines]
  rfl

theorem spells_greater (h : rest.head? ≠ some '=') : Spells line ['>'] [⟨.greater, ">", .none, line⟩] rest := by
  have hSegment : segment '>' rest = ⟨.token .greater, ['>'], rest⟩ := by
    show orEqual '>' .greater .greaterEqual rest = _
    unfold orEqual
    split
    · simp at h
    · rfl
  exact scanFrom_yields hSegment rfl

/-- A word: it begins with a letter or an underscore, and letters, numerics and underscores follow. -/
def isWord (w : String) : Bool :=
  match w.toList with
  | [] => false
  | c :: cs => isWordStart c && !isDigit c && cs.all isWordChar

def WordStops (rest : List Char) : Prop := ∀ c ∈ rest.head?, isWordChar c = false

theorem wordStops_cons {c : Char} (h : isWordChar c = false) (rest : List Char) : WordStops (c :: rest) := by
  simpa [WordStops] using h

theorem spells_word {w : String} (h : isWord w = true) (hRest : WordStops rest) :
    Spells line w.toList [⟨wordKind w, w, .none, line⟩] rest := by
  unfold isWord at h
  split at h
  · cases h
  next c cs hText =>
    simp only [Bool.and_eq_true, Bool.not_eq_true', all_eq_true] at h
    obtain ⟨⟨hStart, -⟩, hChars⟩ := h
    obtain ⟨hTake, hDrop⟩ := takeWhile_append_stop hChars hRest
    have hSegment : segment c (cs ++ rest) = ⟨.word, c :: cs, rest⟩ := by
      rw [segment_word hStart, hTake, hDrop]
    have hFeed : isWordStart '\n' = false := by decide
    have hFeed' : isWordChar '\n' = false := by decide
    have hLines : newlines (c :: cs) = 0 := by
      refine count_eq_zero.mpr fun hMem => ?_
      rcases mem_cons.mp hMem with hHead | hTail
      · simp [← hHead, hFeed] at hStart
      · simp [hChars _ hTail] at hFeed'
    have hWord : String.ofList (c :: cs) = w := by rw [← hText, String.ofList_toList]
    rw [Spells, hText, cons_append, scanFrom_yields hSegment rfl, hLines, hWord]
    rfl

/-! ## The text of a function -/

def isName (w : String) : Bool := isWord w && decide (wordKind w = .identifier)

def isTypeName (w : String) : Bool := isWord w && decide (wordKind w ∈ typeKinds)

/-- Its name, and its type if it has one. -/
def Param.text (p : Param) : String :=
  match p.typeMark with
  | .named type => p.name ++ ": " ++ type
  | _ => p.name

/-- Its name is one, and so is its type. -/
def Param.isPlain (p : Param) : Bool :=
  isName p.name &&
    match p.typeMark with
    | .absent => true
    | .named type => isTypeName type
    | .malformed => false

/-- The text of a function up to the mark before its return type. -/
def headText (name : String) (params : List Param) : String :=
  "fn " ++ name ++ "(" ++ ", ".intercalate (params.map Param.text) ++ ") "

/-- The text of a function on one line, with this mark before its return type. -/
def functionText (name : String) (params : List Param) (mark type body : String) : String :=
  headText name params ++ mark ++ " " ++ type ++ " \x7b " ++ body ++ " \x7d"

theorem writesType_of_isTypeName {w : String} (h : isTypeName w = true) (line : Int) :
    WritesType (.named w) ⟨wordKind w, w, .none, line⟩ := by
  simp only [isTypeName, Bool.and_eq_true, decide_eq_true_eq] at h
  have hText := wordKind_text w
  simp only [typeKinds, mem_cons, not_mem_nil, or_false] at h
  obtain ⟨-, hKind | hKind | hKind | hKind⟩ := h <;> rw [hKind] at hText ⊢
  · obtain rfl : w = "Number" := by simpa [Kind.text?, eq_comm] using hText
    exact .number rfl
  · obtain rfl : w = "String" := by simpa [Kind.text?, eq_comm] using hText
    exact .string rfl
  · obtain rfl : w = "Bool" := by simpa [Kind.text?, eq_comm] using hText
    exact .boolean rfl
  · exact @WritesType.named ⟨.identifier, w, .none, line⟩ rfl

/-- The text of a parameter is scanned as tokens that write it. -/
theorem Param.exists_spells {p : Param} (h : p.isPlain = true) (line : Nat) :
    ∃ ts, WritesParam p ts ∧ ∀ rest, WordStops rest → Spells line p.text.toList ts rest := by
  obtain ⟨name, type⟩ := p
  simp only [isPlain, isName, Bool.and_eq_true, decide_eq_true_eq] at h
  obtain ⟨⟨hWord, hKind⟩, hType⟩ := h
  have hName : ∀ rest, WordStops rest → Spells line name.toList [⟨.identifier, name, .none, line⟩] rest :=
    fun rest hRest => hKind ▸ spells_word hWord hRest
  cases type with
  | absent => exact ⟨_, @WritesParam.mk ⟨.identifier, name, .none, line⟩ _ _ rfl .absent, hName⟩
  | malformed => cases hType
  | named type =>
    have hMark : WritesMark [.colon] (.named type) _ :=
      .present (m := ⟨.colon, ":", .none, line⟩) (by simp) (writesType_of_isTypeName hType line)
    simp only [isTypeName, Bool.and_eq_true] at hType
    refine ⟨_, @WritesParam.mk ⟨.identifier, name, .none, line⟩ _ _ rfl hMark, fun rest hRest => ?_⟩
    simp only [text, String.toList_append, append_assoc]
    have hAnnotation : Spells line _ _ rest :=
      (spells_sign (c := ':') rfl).append (spells_blank.append (spells_word hType.1 hRest))
    exact (hName _ (wordStops_cons (by decide) _)).append hAnnotation

/-- The texts of parameters, with commas between them, are scanned as tokens that write them. -/
theorem exists_spells_params (h : ∀ p ∈ params, p.isPlain = true) (line : Nat) :
    ∃ (ps : List (Param × List Token)) (ts : List Token), ps.map Prod.fst = params ∧
      (∀ p ∈ ps, WritesParam p.1 p.2) ∧ Separated (ps.map Prod.snd) ts ∧
      ∀ rest, WordStops rest → Spells line (", ".intercalate (params.map Param.text)).toList ts rest := by
  rw [String.toList_intercalate]
  induction params with
  | nil => exact ⟨[], [], rfl, by simp, .none, fun _ _ => Spells.nil⟩
  | cons p params ih =>
    obtain ⟨hFirst, hOthers⟩ := forall_mem_cons.mp h
    obtain ⟨us, hus, hText⟩ := Param.exists_spells hFirst line
    obtain _ | ⟨q, params⟩ := params
    · refine ⟨[(p, us)], us, rfl, by simpa using hus, .one, ?_⟩
      simpa [List.intercalate] using hText
    · obtain ⟨_ | ⟨first, ps⟩, ts, hParams, hWrites, hSep, hSpells⟩ := ih hOthers
      · cases hParams
      refine ⟨(p, us) :: first :: ps, us ++ ⟨.comma, ",", .none, line⟩ :: ts, by rw [← hParams]; rfl,
        forall_mem_cons.mpr ⟨hus, hWrites⟩, .more rfl hSep, fun rest hRest => ?_⟩
      have hGap : Spells line _ _ rest := (spells_sign (c := ',') rfl).append (spells_blank.append (hSpells rest hRest))
      exact (hText _ (wordStops_cons (by decide) _)).append hGap

/-- The tokens of a function up to the mark before its return type. -/
def WritesHead (name : String) (params : List Param) (ts : List Token) : Prop :=
  ∃ (fn word opening closing : Token) (ps : List (Param × List Token)) (us : List Token),
    fn.kind = .fn ∧ word.kind = .identifier ∧ word.lexeme = name ∧ opening.kind = .leftParen ∧
    closing.kind = .rightParen ∧ ps.map Prod.fst = params ∧ (∀ p ∈ ps, WritesParam p.1 p.2) ∧
    Separated (ps.map Prod.snd) us ∧ ts = [fn, word, opening] ++ us ++ [closing]

theorem exists_spells_head (hName : isName name = true) (hParams : ∀ p ∈ params, p.isPlain = true) (line : Nat) :
    ∃ ts, WritesHead name params ts ∧ ∀ rest, Spells line (headText name params).toList ts rest := by
  simp only [isName, Bool.and_eq_true, decide_eq_true_eq] at hName
  have hFn : wordKind "fn" = .fn := by decide
  obtain ⟨ps, us, hMap, hWrites, hSep, hText⟩ := exists_spells_params hParams line
  refine ⟨_, ⟨⟨.fn, "fn", .none, line⟩, ⟨.identifier, name, .none, line⟩, ⟨.leftParen, "(", .none, line⟩,
    ⟨.rightParen, ")", .none, line⟩, ps, us, rfl, rfl, rfl, rfl, rfl, hMap, hWrites, hSep, rfl⟩, fun rest => ?_⟩
  have hClose : Spells line _ _ rest := (spells_sign (c := ')') rfl).append spells_blank
  have hList := (hText _ (wordStops_cons (by decide) _)).append hClose
  have hOpen := (spells_sign (c := '(') rfl).append hList
  have hWord := (spells_word hName.1 (wordStops_cons (by decide) _)).append hOpen
  have hWhole := (spells_word (w := "fn") (by decide) (wordStops_cons (by decide) _)).append (spells_blank.append hWord)
  simpa [headText, hFn, hName.2] using hWhole

/-- The text of a function is scanned as its head, the mark, its type, and its body between braces. -/
theorem scan_functionText {type body mark : String} {marks bodyTokens : List Token} {last : Int}
    (hName : isName name = true) (hParams : ∀ p ∈ params, p.isPlain = true) (hType : isTypeName type = true)
    (hMark : ∀ rest, Spells 1 mark.toList marks (' ' :: rest)) (hStopped : (scan body).stopped = none)
    (hOpen : endsOpen ' ' body.toList = false) (hBody : (scan body).tokens = bodyTokens ++ [.eof last]) :
    ∃ (head : List Token) (right e : Token) (before : List Token), WritesHead name params head ∧
      right.kind = .rightBrace ∧ e.kind = .endOfFile ∧
      before = head ++ marks ++ [⟨wordKind type, type, .none, 1⟩, ⟨.leftBrace, "\x7b", .none, 1⟩] ++ bodyTokens ++
        [right] ∧ (∀ t ∈ before, t.kind ≠ .endOfFile) ∧
      scan (functionText name params mark type body) = ⟨before ++ [e], (scan body).notices, none⟩ := by
  have hWord : isWord type = true := by
    simp only [isTypeName, Bool.and_eq_true] at hType
    exact hType.1
  have hJoin := scanFrom_append (g := ' ') rfl 1 body.toList ['\x7d'] hOpen hStopped
  have hClose : Spells (1 + newlines (body.toList ++ [' '])) ['\x7d'] _ [] := spells_sign rfl
  rw [Spells, append_nil] at hClose
  rw [hClose, scanFrom, ← scan, Scan.join, hBody, dropLast_concat] at hJoin
  obtain ⟨head, hHead, hText⟩ := exists_spells_head hName hParams 1
  have hBrace : Spells 1 _ _ (body.toList ++ [' ', '\x7d']) := (spells_sign (c := '\x7b') rfl).append spells_blank
  have hTyped := (spells_word hWord (wordStops_cons (by decide) _)).append (spells_blank.append hBrace)
  have hWhole := (hText _).append ((hMark _).append (spells_blank.append hTyped))
  rw [Spells, hJoin] at hWhole
  have hScan : scan (functionText name params mark type body) = ⟨head ++ marks ++ [⟨wordKind type, type, .none, 1⟩,
      ⟨.leftBrace, "\x7b", .none, 1⟩] ++ bodyTokens ++
      [⟨.rightBrace, "\x7d", .none, (1 + newlines (body.toList ++ [' ']) : Nat)⟩] ++
      [.eof (1 + newlines (body.toList ++ [' ']) : Nat)], (scan body).notices, none⟩ := by
    simpa [scan, functionText, Scan.behind] using hWhole
  refine ⟨head, _, _, _, hHead, rfl, rfl, rfl, ?_, hScan⟩
  obtain ⟨before, last', hTokens, hScanned⟩ := scan_tokens (congrArg Scan.stopped hScan)
  rw [hScan] at hTokens
  rw [(append_inj' hTokens rfl).1]
  exact fun t ht => (hScanned t ht).kind_ne

/-! ## One mark, and two -/

/-- A function with one token as the mark is read as it is written. -/
theorem WritesHead.writes (h : WritesHead name params head) (hCount : params.length ≤ 255) {result : TypeMark}
    {us bodyTokens : List Token} {stmts : List Stmt} (hResult : WritesMark [.minus, .greater] result us)
    (hBody : Grammar.Writes stmts bodyTokens) {left right : Token} (hLeft : left.kind = .leftBrace)
    (hRight : right.kind = .rightBrace) :
    Clause.Writes .declaration (.function name params result stmts)
      (head ++ us ++ [left] ++ bodyTokens ++ [right]) := by
  obtain ⟨fn, word, opening, closing, ps, ts, hFn, hWord, rfl, hOpening, hClosing, rfl, hPs, hSep, rfl⟩ := h
  obtain ⟨parts, rfl, rfl, hParts⟩ := hBody
  rw [length_map] at hCount
  exact .function hFn hWord hOpening hPs hCount hSep hClosing hResult hLeft hParts hRight

theorem typeName_replies {t : Token} (ht : t.kind ∉ typeKinds) (ts : List Token) :
    Replies typeName (t :: ts) ⟨.ok .malformed, t :: ts, [t.diagnose .typeName]⟩ := by
  have hNone : t.kind ∉ [Kind.numberType, .stringType, .boolType, .identifier] := ht
  exact (accept_yields_none (.cons hNone ts)).bind_replies (.inl rfl)

theorem typeMark_replies {marks : List Kind} {m t : Token} (hm : m.kind ∈ marks) (ht : t.kind ∉ typeKinds)
    (ts : List Token) : Replies (typeMark marks) (m :: t :: ts) ⟨.ok .malformed, t :: ts, [t.diagnose .typeName]⟩ := by
  have hMarked : Replies (ifMarked marks typeName) (m :: t :: ts)
      ⟨.ok (some .malformed), t :: ts, [t.diagnose .typeName]⟩ :=
    (accept_yields_some hm _).bind_replies ((typeName_replies ht ts).bind (.inl rfl))
  exact hMarked.bind (.inl rfl)

theorem WritesHead.begins (h : WritesHead name params head) : Begins (· ≠ .endOfFile) head := by
  obtain ⟨fn, word, opening, closing, ps, ts, hFn, -, -, -, -, -, -, -, rfl⟩ := h
  exact .cons (by simp [hFn]) _

/-- A function with an arrow fails at the second token of the arrow, after two complaints about it. -/
theorem WritesHead.declaration_replies (h : WritesHead name params head) (hCount : params.length ≤ 255)
    {minus greater : Token} (hMinus : minus.kind = .minus) (hGreater : greater.kind = .greater)
    {rest later : List Token} (hSkip : synchronize (greater :: rest) = ⟨.ok (), later, []⟩) (n : Nat) :
    Replies (declaration n) (head ++ minus :: greater :: rest)
      ⟨.ok none, later, [greater.diagnose .typeName, greater.diagnose .functionBody]⟩ := by
  obtain ⟨fn, word, opening, closing, ps, ts, hFn, hWord, rfl, hOpening, hClosing, rfl, hPs, hSep, rfl⟩ := h
  rw [length_map] at hCount
  cases n with
  | zero => exact .inr rfl
  | succ n =>
    rw [declaration]
    simp only [append_assoc, cons_append, nil_append]
    refine Replies.recover_failed ((accept_yields_some (by simp [hFn]) _).bind_replies ?_) hSkip
    simp only [keywordDeclaration, hFn]
    refine (expect_yields hWord _ _).bind_replies ((expect_yields hOpening _ _).bind_replies ?_)
    refine ((parameters_yields hPs hCount hSep n hClosing _).endedBy hClosing _).bind_replies ?_
    have hMark : Replies (typeMark [.minus, .greater]) (minus :: greater :: rest)
        ⟨.ok .malformed, greater :: rest, [greater.diagnose .typeName]⟩ :=
      typeMark_replies (by simp [hMinus]) (by simp [hGreater, typeKinds]) rest
    exact hMark.bind ((expect_refuses (by simp [hGreater])).bind _ rest)

theorem spells_minus (rest : List Char) : Spells 1 "-".toList [⟨.minus, "-", .none, 1⟩] (' ' :: rest) := spells_sign rfl

theorem spells_greater_blank (rest : List Char) : Spells 1 ">".toList [⟨.greater, ">", .none, 1⟩] (' ' :: rest) :=
  spells_greater (by simp)

/-- **One token marks a return type.** Take a name, at most 255 parameters, a type and a body that is read without
complaints. With `-` or `>` before the type, the text of the function is read as that function. With `->` it is
not: there are two complaints about the `>`, and what is read is what can be read of the body and its brace. -/
theorem parse_return_mark (name type body : String) (params : List Param) (hName : isName name = true)
    (hParams : ∀ p ∈ params, p.isPlain = true) (hCount : params.length ≤ 255) (hType : isTypeName type = true)
    (hStopped : (scan body).stopped = none) (hOpen : endsOpen ' ' body.toList = false)
    (hQuiet : (parse (scan body).tokens).diagnostics = []) :
    ∃ stmts last, parse (scan body).tokens = ⟨.ok stmts, [last], []⟩ ∧
      (∀ mark ∈ ["-", ">"], ∃ tokens e,
        scan (functionText name params mark type body) = ⟨tokens, (scan body).notices, none⟩ ∧
        parse tokens = ⟨.ok [.function name params (.named type) stmts], [e], []⟩) ∧
      ∃ tokens right later e more ds,
        scan (functionText name params "->" type body) = ⟨tokens, (scan body).notices, none⟩ ∧
        right.kind = .rightBrace ∧ later <:+ (scan body).tokens.dropLast ++ [right] ∧
        parse (later ++ [e]) = ⟨.ok more, [e], ds⟩ ∧
        parse tokens = ⟨.ok more, [e], ⟨1, ">", .typeName⟩ :: ⟨1, ">", .functionBody⟩ :: ds⟩ := by
  obtain ⟨bodyTokens, last, hTokens, hScanned⟩ := scan_tokens hStopped
  have hNoEnd : ∀ t ∈ bodyTokens, t.kind ≠ .endOfFile := fun t ht => (hScanned t ht).kind_ne
  have hEnd : (Token.eof last).kind = .endOfFile := rfl
  obtain ⟨stmts, hParse, hWrites⟩ := exists_writes_of_quiet hNoEnd hEnd (hTokens ▸ hQuiet)
  have hTypes : Passes [⟨wordKind type, type, .none, 1⟩, ⟨.leftBrace, "\x7b", .none, 1⟩] := by
    have hKinds : ∀ k ∈ typeKinds, k ∉ stopKinds := by decide
    exact .cons rfl (hKinds _ (writesType_of_isTypeName hType 1).mem_typeKinds) (.cons rfl (by decide) .nil)
  refine ⟨stmts, .eof last, hTokens ▸ hParse, ?_, ?_⟩
  · intro mark hMark
    obtain ⟨m, hKind, hSpells⟩ : ∃ m : Token, m.kind ∈ [Kind.minus, .greater] ∧
        ∀ rest, Spells 1 mark.toList [m] (' ' :: rest) := by
      obtain rfl | rfl : mark = "-" ∨ mark = ">" := by simpa using hMark
      · exact ⟨_, by simp, spells_minus⟩
      · exact ⟨_, by simp, spells_greater_blank⟩
    obtain ⟨head, right, e, before, hHead, hRight, he, hBefore, hNoEnd', hScan⟩ :=
      scan_functionText hName hParams hType hSpells hStopped hOpen hTokens
    have hResult : WritesMark [.minus, .greater] (.named type) _ := .present hKind (writesType_of_isTypeName hType 1)
    have hBrace : (⟨.leftBrace, "\x7b", .none, 1⟩ : Token).kind = .leftBrace := rfl
    have hFunction := hHead.writes hCount hResult hWrites hBrace hRight
    refine ⟨_, e, hScan, (parse_quiet_iff hNoEnd' he _).mpr ⟨[(_, before)], rfl, by simp, ?_⟩⟩
    rw [forall_mem_singleton, hBefore]
    simpa using hFunction
  · have hSpells : ∀ rest, Spells 1 "->".toList [⟨.minus, "-", .none, 1⟩, ⟨.greater, ">", .none, 1⟩] (' ' :: rest) :=
      fun rest => (spells_sign (c := '-') rfl).append (spells_greater_blank rest)
    obtain ⟨head, right, e, before, hHead, hRight, he, hBefore, hNoEnd', hScan⟩ :=
      scan_functionText hName hParams hType hSpells hStopped hOpen hTokens
    have hPassed : Passes (⟨.greater, ">", .none, 1⟩ ::
        [⟨wordKind type, type, .none, 1⟩, ⟨.leftBrace, "\x7b", .none, 1⟩]) :=
      .cons rfl (by decide) hTypes
    obtain ⟨later, hLater, hSkip⟩ := synchronize_within hPassed (bodyTokens ++ [right]) he
    have hLaterEnd : ∀ t ∈ later, t.kind ≠ .endOfFile := by
      intro t ht
      refine hNoEnd' t ?_
      rw [hBefore, append_assoc]
      exact mem_append_right _ (hLater.subset ht)
    obtain ⟨more, ds, hMore⟩ := parse_eq_ok hLaterEnd he
    have hRest := (programReplies_iff hLaterEnd he _).mpr (hMore [])
    have hMinus : (⟨.minus, "-", .none, 1⟩ : Token).kind = .minus := rfl
    have hWhole := ProgramReplies.cons (hHead.begins.append _) (hHead.declaration_replies hCount hMinus rfl hSkip) hRest
    refine ⟨_, right, later, e, more, ds, hScan, hRight, by rwa [hTokens, dropLast_concat], hMore [], ?_⟩
    refine (programReplies_iff hNoEnd' he _).mp ?_
    rw [hBefore]
    simpa [Token.diagnose] using hWhole

/-- A function of two parameters, one of them with a type. -/
theorem parse_return_mark_add :
    let params : List Param := [⟨"a", .named "Number"⟩, ⟨"b", .absent⟩]
    let body := "let c = a; return c;"
    isName "add" = true ∧ (∀ p ∈ params, p.isPlain = true) ∧ isTypeName "Number" = true ∧
    (parse (scan body).tokens).diagnostics = [] ∧
    ∃ stmts last, parse (scan body).tokens = ⟨.ok stmts, [last], []⟩ ∧
      (∀ mark ∈ ["-", ">"], ∃ tokens e,
        scan (functionText "add" params mark "Number" body) = ⟨tokens, (scan body).notices, none⟩ ∧
        parse tokens = ⟨.ok [.function "add" params (.named "Number") stmts], [e], []⟩) ∧
      ∃ tokens right later e more ds,
        scan (functionText "add" params "->" "Number" body) = ⟨tokens, (scan body).notices, none⟩ ∧
        right.kind = .rightBrace ∧ later <:+ (scan body).tokens.dropLast ++ [right] ∧
        parse (later ++ [e]) = ⟨.ok more, [e], ds⟩ ∧
        parse tokens = ⟨.ok more, [e], ⟨1, ">", .typeName⟩ :: ⟨1, ">", .functionBody⟩ :: ds⟩ := by
  intro params body
  have hName : isName "add" = true := by decide
  have hParams : ∀ p ∈ params, p.isPlain = true := by decide
  have hType : isTypeName "Number" = true := by decide
  have hStopped : (scan body).stopped = none := by decide +kernel
  have hOpen : endsOpen ' ' body.toList = false := by decide +kernel
  have hQuiet : (parse (scan body).tokens).diagnostics = [] := by decide +kernel
  exact ⟨hName, hParams, hType, hQuiet,
    parse_return_mark "add" "Number" body params hName hParams (by decide) hType hStopped hOpen hQuiet⟩

/-- A function without parameters and without statements. -/
theorem arrow_refused :
    functionText "f" [] "->" "Number" "" = "fn f() -> Number \x7b  \x7d" ∧
    (parse (scan "").tokens).diagnostics = [] ∧
    (parse (scan "fn f() -> Number \x7b  \x7d").tokens).diagnostics =
      [⟨1, ">", .typeName⟩, ⟨1, ">", .functionBody⟩] :=
  ⟨by decide, by decide +kernel, by decide +kernel⟩

end Scriptling.Braced
