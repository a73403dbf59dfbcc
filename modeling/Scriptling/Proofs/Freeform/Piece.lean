import Scriptling.Proofs.Freeform.Literal
import Scriptling.Proofs.Number.Reading

/-!
# What may stand where a token can begin

The lexical rules of free-form text, said without the reader. A piece is a blank, a slash with the rest of its line,
or the text of a token: a word, a number, a string, a run of operator characters or a delimiter (`Piece.Stands`).
What begins with none of these is refused (`Refused`): a character that begins nothing, digits and points that are no
number, and strings that are not closed on their line or have a backslash before a wrong character.

Whatever is in front of a text, it is either one piece or refused (`stands_or_refused`), and one step of reading takes
the piece (`Piece.Stands.step`) or fails (`Refused.step`).
-/

namespace Scriptling.Freeform

open List Number
open String (ofList singleton)

variable {c q : Char} {cs following : List Char}

open Text

/-! ## Runs -/

/-- A longest run of characters of a class: what follows does not begin with another one. -/
structure Run (p : Char → Bool) (run following : List Char) : Prop where
  inside : ∀ c ∈ run, p c = true
  ends : ∀ c ∈ following.head?, p c = false

namespace Run

variable {p : Char → Bool} {run following : List Char}

theorem of_takeWhile (p : Char → Bool) (cs : List Char) : Run p (cs.takeWhile p) (cs.dropWhile p) :=
  ⟨fun _ hc => mem_takeWhile hc, fun _ hc => of_head?_dropWhile hc⟩

theorem split (h : Run p run following) :
    (run ++ following).takeWhile p = run ∧ (run ++ following).dropWhile p = following :=
  takeWhile_append_stop h.inside h.ends

/-- With less behind it, a longest run is still one. -/
theorem cut (h : Run p run following) {front : List Char} (hFront : front <+: following) : Run p run front where
  inside := h.inside
  ends := fun c hc => h.ends c <| by
    obtain ⟨more, rfl⟩ := hFront
    rw [List.head?_append, Option.mem_def.mp hc]
    rfl

theorem not_mem (h : Run p run following) {c : Char} (hc : p c = false) : c ∉ run := fun hMem => by
  simp [h.inside c hMem] at hc

theorem not_mem_cons (h : Run p run following) {first : Char → Bool} {c d : Char} (hFirst : first c = true)
    (hd : first d = false ∧ p d = false) : d ∉ c :: run := by
  rw [mem_cons, not_or]
  exact ⟨fun hEq => by simp [hEq, hFirst] at hd, h.not_mem hd.2⟩

end Run

/-! ## Numbers -/

/-- The value of a number: whole without a point, a float with one. All digits are decimal, and whole numbers have
not too many of them. -/
inductive Denotes : List Char → Datum → Prop where
  | whole {ds : List Char} : (∀ d ∈ ds, isDecimal d = true) → ds.length ≤ 4300 → Denotes ds (.int (decimalNumber ds))
  | fraction {ds es : List Char} : (∀ d ∈ ds, isDecimal d = true) → (∀ e ∈ es, isDecimal e = true) →
      Denotes (ds ++ '.' :: es)
        (.float (floatOfDecimal false (decimalNumber (ds ++ es)) (-es.length)))

/-- Digits and points that are no number: two points or more, a digit that is not decimal, or too many digits
without a point. -/
def Malformed (run : List Char) : Prop :=
  2 ≤ run.count '.' ∨ (∃ d ∈ run, isDigit d = true ∧ isDecimal d = false) ∨ ('.' ∉ run ∧ 4300 < run.length)

theorem isNumberChar_iff : isNumberChar c = true ↔ isDigit c = true ∨ c = '.' := by
  simp [isNumberChar]

theorem denotes_or_malformed {run : List Char} (h : ∀ c ∈ run, isNumberChar c = true) :
    (∃ v, Denotes run v) ∨ Malformed run := by
  by_cases hDecimal : ∃ d ∈ run, isDigit d = true ∧ isDecimal d = false
  · exact .inr (.inr (.inl hDecimal))
  have hAll : ∀ c ∈ run, c ≠ '.' → isDecimal c = true := fun c hc hPoint => by
    have hDigit := (isNumberChar_iff.mp (h c hc)).resolve_right hPoint
    exact Bool.of_not_eq_false fun hNone => hDecimal ⟨c, hc, hDigit, hNone⟩
  by_cases hPoint : '.' ∈ run
  · obtain ⟨ds, es, rfl, hFirst⟩ := eq_append_cons_of_mem hPoint
    by_cases hSecond : '.' ∈ es
    · refine .inr (.inl ?_)
      have := count_pos_iff.mpr hSecond
      rw [count_append, count_cons_self]
      omega
    · refine .inl ⟨_, .fraction (fun d hd => ?_) fun e he => ?_⟩
      · exact hAll d (by simp [hd]) fun hEq => hFirst (hEq ▸ hd)
      · exact hAll e (by simp [he]) fun hEq => hSecond (hEq ▸ he)
  · by_cases hLong : 4300 < run.length
    · exact .inr (.inr (.inr ⟨hPoint, hLong⟩))
    · exact .inl ⟨_, .whole (fun d hd => hAll d hd fun hEq => hPoint (hEq ▸ hd)) (Nat.not_lt.mp hLong)⟩

theorem Denotes.numberValue? {v : Datum} (hFirst : isDigit c = true) (h : Denotes (c :: cs) v) :
    numberValue? (c :: cs) = some v := by
  generalize hRun : c :: cs = run at h
  cases h with
  | whole hDigits hShort =>
    have hPoint : '.' ∉ run := fun hMem => absurd (hDigits _ hMem) (by decide)
    have hSome : run ≠ [] := hRun ▸ cons_ne_nil c cs
    simp [Freeform.numberValue?, hPoint, readInt?_whole hDigits hSome hShort]
  | @fraction ds es hDigits hFraction =>
    have hSome : ds ≠ [] := by
      rintro rfl
      obtain ⟨rfl, -⟩ := List.cons.inj hRun
      exact absurd hFirst (by decide)
    rw [Freeform.numberValue?, if_pos (by simp), readFloat?_fraction hDigits hFraction hSome]
    rfl

theorem Malformed.numberValue? {run : List Char} (hRun : ∀ c ∈ run, isNumberChar c = true) (h : Malformed run) :
    numberValue? run = none := by
  have hNumeral : ∀ c ∈ run, isDigit c = true ∨ c = '.' := fun c hc => isNumberChar_iff.mp (hRun c hc)
  by_cases hPoint : '.' ∈ run
  · have hFloat : readFloat? (ofList run) = none := by
      rcases h with hPoints | ⟨d, hd, hDigit, hDecimal⟩ | ⟨hNone, -⟩
      · exact readFloat?_eq_none_of_points hNumeral hPoints
      · exact readFloat?_eq_none hNumeral hd hDigit hDecimal
      · exact absurd hPoint hNone
    simp [Freeform.numberValue?, hPoint, hFloat]
  · have hDigits : ∀ c ∈ run, isDigit c = true := fun c hc =>
      (hNumeral c hc).resolve_right fun hEq => hPoint (hEq ▸ hc)
    have hInt : readInt? 10 (ofList run) = none := by
      rcases h with hPoints | ⟨d, hd, hDigit, hDecimal⟩ | ⟨-, hLong⟩
      · rw [count_eq_zero.mpr hPoint] at hPoints
        omega
      · exact readInt?_eq_none hDigits hd hDecimal
      · have hSome : run ≠ [] := ne_nil_of_length_pos (by omega)
        exact (readInt?_digits hDigits hSome).trans (if_pos hLong)
    simp [Freeform.numberValue?, hPoint, hInt]

/-! ## Strings -/

/-- Whether the character behind a text is escaped: there is a backslash before it that is not escaped itself. -/
def escapesNext (text : List Char) : Bool := text.foldl (fun escaped c => c == '\\' && !escaped) false

/-- A string with this text behind its opening quote has no closing quote on the line. -/
def Unclosed (q : Char) (text : List Char) : Prop :=
  ∀ body later, text = body ++ q :: later → '\n' ∉ body → escapesNext body = true

/-- A string with this text behind its opening quote has a backslash before a character that it cannot stand before.
The backslash is not escaped, and up to it the string neither ends nor reaches the next line. -/
def Misescaped (q : Char) (text : List Char) : Prop :=
  ∃ body later, text = body ++ '\\' :: later ∧ '\n' ∉ body ∧ Unclosed q body ∧ escapesNext body = false ∧
    ∀ e ∈ later.head?, ∀ x, (e, x) ∉ escapes q

/-- A string with this text behind its opening quote is no string. -/
def Faulty (q : Char) (text : List Char) : Prop := Unclosed q text ∨ Misescaped q text

namespace Mark

variable {q x : Char} {mark cs : List Char}

theorem inline (hQuote : IsQuote q) (h : Mark q mark x) : '\n' ∉ mark := by
  cases h with
  | plain hLine => simpa using hLine.symm
  | @escaped e _ hMem =>
    have hLine : q ≠ '\n' := hQuote.plain.1
    have : e ≠ '\n' := by
      rintro rfl
      simp [escapes, hLine.symm] at hMem
    simpa using this.symm

theorem escapesNext_append (h : Mark q mark x) (text : List Char) : escapesNext (mark ++ text) = escapesNext text := by
  cases h with
  | plain _ _ hBackslash => simp [escapesNext, beq_false_of_ne hBackslash]
  | escaped => simp [escapesNext]

/-- A quote or backslash that is not escaped stands behind the mark, or is its own backslash. -/
theorem split (h : Mark q mark x) {y : Char} (hy : y = q ∨ y = '\\') {body later : List Char}
    (hText : mark ++ cs = body ++ y :: later) (hEscaped : escapesNext body = false) :
    (∃ body', body = mark ++ body' ∧ cs = body' ++ y :: later) ∨
      y = '\\' ∧ ∃ e, (e, x) ∈ escapes q ∧ later = e :: cs := by
  cases h with
  | plain _ hq hBackslash =>
    cases body with
    | nil =>
      obtain ⟨rfl, -⟩ := List.cons.inj hText
      exact absurd hy (not_or.mpr ⟨hq, hBackslash⟩)
    | cons b body =>
      obtain ⟨rfl, hRest⟩ := List.cons.inj hText
      exact .inl ⟨body, rfl, hRest⟩
  | @escaped e _ hMem =>
    rcases body with _ | ⟨b, _ | ⟨b', body⟩⟩
    · obtain ⟨rfl, hRest⟩ := List.cons.inj hText
      exact .inr ⟨rfl, e, hMem, hRest.symm⟩
    · obtain ⟨rfl, -⟩ := List.cons.inj hText
      exact absurd hEscaped (by decide)
    · obtain ⟨rfl, hSecond⟩ := List.cons.inj hText
      obtain ⟨rfl, hRest⟩ := List.cons.inj hSecond
      exact .inl ⟨body, rfl, hRest⟩

theorem unclosed_append_iff (hQuote : IsQuote q) (h : Mark q mark x) : Unclosed q (mark ++ cs) ↔ Unclosed q cs := by
  constructor
  · intro hOpen body later hText hLine
    rw [← h.escapesNext_append body]
    refine hOpen (mark ++ body) later (by rw [hText, append_assoc]) ?_
    simp [h.inline hQuote, hLine]
  · intro hOpen body later hText hLine
    refine Bool.of_not_eq_false fun hEscaped => ?_
    rcases h.split (.inl rfl) hText hEscaped with ⟨body, rfl, hRest⟩ | ⟨hBackslash, -⟩
    · rw [h.escapesNext_append, hOpen body later hRest fun hMem => hLine (by simp [hMem])] at hEscaped
      cases hEscaped
    · exact hQuote.plain.2.1 hBackslash

theorem misescaped_append_iff (hQuote : IsQuote q) (h : Mark q mark x) :
    Misescaped q (mark ++ cs) ↔ Misescaped q cs := by
  constructor
  · rintro ⟨body, later, hText, hLine, hOpen, hEscaped, hWrong⟩
    rcases h.split (.inr rfl) hText hEscaped with ⟨body, rfl, hRest⟩ | ⟨-, e, hMem, rfl⟩
    · rw [h.unclosed_append_iff hQuote] at hOpen
      rw [h.escapesNext_append] at hEscaped
      exact ⟨body, later, hRest, fun hMem => hLine (by simp [hMem]), hOpen, hEscaped, hWrong⟩
    · exact absurd hMem (hWrong e rfl x)
  · rintro ⟨body, later, rfl, hLine, hOpen, hEscaped, hWrong⟩
    refine ⟨mark ++ body, later, by rw [append_assoc], ?_, (h.unclosed_append_iff hQuote).mpr hOpen, ?_, hWrong⟩
    · simp [h.inline hQuote, hLine]
    · rw [h.escapesNext_append, hEscaped]

/-- What is wrong with a string is wrong with what follows a mark of it. -/
theorem faulty_append_iff (hQuote : IsQuote q) (h : Mark q mark x) : Faulty q (mark ++ cs) ↔ Faulty q cs :=
  or_congr (h.unclosed_append_iff hQuote) (h.misescaped_append_iff hQuote)

end Mark

theorem not_faulty_quote (hQuote : IsQuote q) (later : List Char) : ¬ Faulty q (q :: later) := by
  have hClosed (text : List Char) : ¬ Unclosed q (q :: text) := fun hOpen =>
    absurd (hOpen [] text rfl (by simp)) (by decide)
  rintro (hOpen | ⟨body, rest, hText, -, hOpen, -, -⟩)
  · exact hClosed later hOpen
  · cases body with
    | nil => exact hQuote.plain.2.1 (List.cons.inj hText).1
    | cons b body =>
      obtain ⟨rfl, -⟩ := List.cons.inj hText
      exact hClosed body hOpen

/-- **Every text behind a quote is a string or is faulty.** -/
theorem spells_or_faulty (hQuote : IsQuote q) (text : List Char) :
    (∃ body s later, text = body ++ q :: later ∧ Spells q body s) ∨ Faulty q text := by
  have hOnward {mark cs : List Char} {x : Char} (hMark : Mark q mark x)
      (h : (∃ body s later, cs = body ++ q :: later ∧ Spells q body s) ∨ Faulty q cs) :
      (∃ body s later, mark ++ cs = body ++ q :: later ∧ Spells q body s) ∨ Faulty q (mark ++ cs) := by
    rcases h with ⟨body, s, later, rfl, hSpells⟩ | hFaulty
    · exact .inl ⟨mark ++ body, x :: s, later, by rw [append_assoc], .cons hMark hSpells⟩
    · exact .inr ((hMark.faulty_append_iff hQuote).mpr hFaulty)
  -- the recursion is the reader's: one mark after another
  suffices h : ∀ (held : List Char) (place : Cursor),
      (∃ body s later, text = body ++ q :: later ∧ Spells q body s) ∨ Faulty q text from h [] .start
  intro held place
  fun_induction Freeform.readString q held place text with
  | case1 => exact .inr (.inl fun body later hText => by simp at hText)
  | case2 held place cs =>
    refine .inr (.inl fun body later hText hLine => ?_)
    cases body with
    | nil => exact absurd (List.cons.inj hText).1.symm hQuote.plain.1
    | cons b body =>
      obtain ⟨rfl, -⟩ := List.cons.inj hText
      exact absurd mem_cons_self hLine
  | case3 held place cs => exact .inl ⟨[], [], cs, rfl, .nil⟩
  | case4 =>
    refine .inr (.inl fun body later hText _ => ?_)
    cases body with
    | nil => exact absurd (List.cons.inj hText).1.symm hQuote.plain.2.1
    | cons b body => simp at hText
  | case5 held place e rest x hEscape _ _ ih => exact hOnward (.escaped ((unescape?_eq_some_iff hQuote).mp hEscape)) ih
  | case6 held place e rest hEscape =>
    refine .inr (.inr ⟨[], e :: rest, rfl, by simp, fun body later hText => by simp at hText, rfl, ?_⟩)
    intro e' he x hMem
    obtain rfl : e = e' := by simpa using he
    rw [(unescape?_eq_some_iff hQuote).mpr hMem] at hEscape
    cases hEscape
  | case7 held place c rest hLine hq hBackslash ih => exact hOnward (.plain hLine hq hBackslash) ih

theorem Faulty.readString (hQuote : IsQuote q) {text : List Char} (h : Faulty q text) (held : List Char)
    (place : Cursor) : ∃ f, readString q held place text = .error f ∧ ∀ c, f.cause ≠ .unexpected c := by
  fun_induction Freeform.readString q held place text with
  | case1 | case2 | case4 | case6 => exact ⟨_, rfl, by simp⟩
  | case3 held place cs => exact absurd h (not_faulty_quote hQuote cs)
  | case5 held place e rest x hEscape _ _ ih =>
    exact ih (((Mark.escaped ((unescape?_eq_some_iff hQuote).mp hEscape)).faulty_append_iff hQuote).mp h)
  | case7 held place c rest hLine hq hBackslash ih =>
    exact ih (((Mark.plain hLine hq hBackslash).faulty_append_iff hQuote).mp h)

/-! ## Pieces -/

/-- A piece of a text, with the kind and the value of the token that it makes, if it makes one. -/
structure Piece where
  text : List Char
  made : Option (Kind × Datum)

/-- The text is a piece where a token can begin and this follows. A slash there takes the rest of its line. -/
inductive Piece.Stands : Piece → List Char → Prop where
  | blank {c : Char} {following : List Char} : isBlank c = true → Stands ⟨[c], none⟩ following
  | slash {body following : List Char} : Run (· != '\n') body following → Stands ⟨'/' :: body, none⟩ following
  | word {c : Char} {cs following : List Char} : isWordStart c = true → Run isWordChar cs following →
      Stands ⟨c :: cs, some (wordKind (ofList (c :: cs)), .str (ofList (c :: cs)))⟩ following
  | number {c : Char} {cs following : List Char} {v : Datum} : isDigit c = true → Run isNumberChar cs following →
      Denotes (c :: cs) v → Stands ⟨c :: cs, some (.number, v)⟩ following
  | string {q : Char} {body s following : List Char} : IsQuote q → Spells q body s →
      Stands ⟨q :: (body ++ [q]), some (.string, .str (ofList s))⟩ following
  | operator {c : Char} {cs following : List Char} : isOperatorChar c = true → c ≠ '/' →
      Run isOperatorChar cs following → Stands ⟨c :: cs, some (.operator, .str (ofList (c :: cs)))⟩ following
  | delimiter {c : Char} {following : List Char} : isDelimiter c = true →
      Stands ⟨[c], some (.delimiter, .str (singleton c))⟩ following

/-- The text begins with something that is no piece. -/
inductive Refused : List Char → Prop where
  -- a character that begins nothing
  | stray {c : Char} {cs : List Char} : isBlank c = false → c ≠ '/' → isWordStart c = false → isDigit c = false →
      ¬ IsQuote c → isOperatorChar c = false → isDelimiter c = false → Refused (c :: cs)
  -- all digits and points that stand together count, even if the first of them are a number
  | number {c : Char} {cs following : List Char} : isDigit c = true → Run isNumberChar cs following →
      Malformed (c :: cs) → Refused (c :: (cs ++ following))
  | string {q : Char} {cs : List Char} : IsQuote q → Faulty q cs → Refused (q :: cs)

/-- **What is in front of a text is a piece or is refused.** -/
theorem stands_or_refused (c : Char) (cs : List Char) :
    (∃ (p : Piece) (following : List Char), c :: cs = p.text ++ following ∧ p.Stands following) ∨
      Refused (c :: cs) := by
  have hRun (p : Char → Bool) : c :: cs = c :: cs.takeWhile p ++ cs.dropWhile p := by simp
  by_cases hBlank : isBlank c = true
  · exact .inl ⟨_, cs, rfl, .blank hBlank⟩
  by_cases hSlash : c = '/'
  · subst hSlash
    exact .inl ⟨_, _, hRun _, .slash (.of_takeWhile _ cs)⟩
  by_cases hWord : isWordStart c = true
  · exact .inl ⟨_, _, hRun _, .word hWord (.of_takeWhile _ cs)⟩
  by_cases hDigit : isDigit c = true
  · have hNumeral : ∀ d ∈ c :: cs.takeWhile isNumberChar, isNumberChar d = true :=
      forall_mem_cons.mpr ⟨isNumberChar_iff.mpr (.inl hDigit), fun d hd => mem_takeWhile hd⟩
    rcases denotes_or_malformed hNumeral with ⟨v, hValue⟩ | hMalformed
    · exact .inl ⟨_, _, hRun _, .number hDigit (.of_takeWhile _ cs) hValue⟩
    · rw [hRun isNumberChar, cons_append]
      exact .inr (.number hDigit (.of_takeWhile _ cs) hMalformed)
  by_cases hQuote : IsQuote c
  · rcases spells_or_faulty hQuote cs with ⟨body, s, later, rfl, hSpells⟩ | hFaulty
    · exact .inl ⟨_, later, by simp, .string hQuote hSpells⟩
    · exact .inr (.string hQuote hFaulty)
  by_cases hOperator : isOperatorChar c = true
  · exact .inl ⟨_, _, hRun _, .operator hOperator hSlash (.of_takeWhile _ cs)⟩
  by_cases hDelimiter : isDelimiter c = true
  · exact .inl ⟨_, cs, rfl, .delimiter hDelimiter⟩
  · exact .inr (.stray (by simpa using hBlank) hSlash (by simpa using hWord) (by simpa using hDigit) hQuote
      (by simpa using hOperator) (by simpa using hDelimiter))

/-! ## One step of reading -/

/-- Behind text on one line, the place is so many characters further. -/
theorem foldl_skip_of_inline {text : List Char} (h : '\n' ∉ text) (place : Cursor) :
    text.foldl Cursor.skip place = place.advance text.length := by
  induction text generalizing place with
  | nil => rfl
  | cons c text ih =>
    simp only [mem_cons, not_or] at h
    rw [foldl_cons, Cursor.skip, if_neg (Ne.symm h.1), ih h.2, Cursor.advance_advance, length_cons, Nat.add_comm]

theorem Spells.inline (hQuote : IsQuote q) {body s : List Char} (h : Spells q body s) : '\n' ∉ body := by
  induction h with
  | nil => simp
  | cons hMark _ ih => simp [hMark.inline hQuote, ih]

/-- An operator character begins nothing else. -/
theorem isOperatorChar_plain (h : isOperatorChar c = true) :
    isBlank c = false ∧ isWordStart c = false ∧ isDigit c = false ∧ (c = '"' || c = '\x27') = false := by
  have hTable : "+-*/%=<>!&|^".toList.all (fun c => !isBlank c && !isWordStart c && !isDigit c &&
      !(c = '"' || c = '\x27')) = true := by decide
  simpa [and_assoc] using all_eq_true.mp hTable c (by simpa [isOperatorChar] using h)

theorem isDelimiter_plain (h : isDelimiter c = true) :
    isBlank c = false ∧ c ≠ '/' ∧ isWordStart c = false ∧ isDigit c = false ∧ (c = '"' || c = '\x27') = false ∧
      isOperatorChar c = false := by
  have hTable : "()\x7b\x7d[],:;".toList.all (fun c => !isBlank c && c != '/' && !isWordStart c && !isDigit c &&
      !(c = '"' || c = '\x27') && !isOperatorChar c) = true := by decide
  simpa [and_assoc] using all_eq_true.mp hTable c (by simpa [isDelimiter] using h)

theorem step_digit (h : isDigit c = true) (hRun : Run isNumberChar cs following) (place : Cursor) :
    step place c (cs ++ following) = (numberValue? (c :: cs)).elim
      (.error ⟨.badNumber (ofList (c :: cs)), place.advance (c :: cs).length, following⟩)
      fun v => .ok (readRun place (c :: cs) following .number v) := by
  have hSlash : c ≠ '/' := by
    rintro rfl
    exact absurd h (by decide)
  simp only [step, isBlank_of_isDigit h, hSlash, isWordStart_of_isDigit h, h, hRun.split, Bool.false_eq_true, if_false,
    if_true]
  cases numberValue? (c :: cs) with
  | none | some => rfl

/-- The token that a piece makes at a place. -/
def Piece.token? (p : Piece) (place : Cursor) : Option Token := p.made.map fun m => .ofCursor m.1 m.2 place

theorem Piece.Stands.inline {p : Piece} (h : p.Stands following) :
    (∃ c, p = ⟨[c], none⟩ ∧ isBlank c = true) ∨ '\n' ∉ p.text := by
  cases h with
  | blank hBlank => exact .inl ⟨_, rfl, hBlank⟩
  | slash hRun => exact .inr (by simpa using hRun.not_mem (c := '\n') (by decide))
  | word hFirst hRun | number hFirst hRun => exact .inr (hRun.not_mem_cons hFirst (by decide))
  | string hQuote hSpells => exact .inr (by simp [hQuote.plain.1.symm, hSpells.inline hQuote])
  | operator hFirst _ hRun => exact .inr (hRun.not_mem_cons hFirst (by decide))
  | @delimiter c _ hFirst =>
    refine .inr fun hMem => ?_
    obtain rfl : '\n' = c := by simpa using hMem
    exact absurd hFirst (by decide)

/-- **A step takes the piece in front.** It makes the piece's token and goes on behind its text. -/
theorem Piece.Stands.step {p : Piece} (h : p.Stands following) (place : Cursor) : ∃ c cs, p.text = c :: cs ∧
      step place c (cs ++ following) = .ok ⟨p.token? place, p.text.foldl Cursor.skip place, following⟩ := by
  rcases h.inline with ⟨c, rfl, hBlank⟩ | hInline
  · exact ⟨c, [], rfl, step_blank hBlank place following⟩
  cases h with
  | blank hBlank => exact ⟨_, [], rfl, step_blank hBlank place following⟩
  | @slash body _ hRun =>
    refine ⟨'/', body, rfl, ?_⟩
    rw [foldl_skip_of_inline hInline, Freeform.step, if_neg (by decide), if_pos rfl, hRun.split.1, hRun.split.2]
    rfl
  | @word c cs _ hFirst hRun =>
    have hSlash : c ≠ '/' := by
      rintro rfl
      exact absurd hFirst (by decide)
    refine ⟨c, cs, rfl, ?_⟩
    rw [foldl_skip_of_inline hInline]
    simp only [Freeform.step, isBlank_of_isWordStart hFirst, hSlash, hFirst, hRun.split, Bool.false_eq_true, if_false,
      if_true]
    rfl
  | @number c cs _ v hFirst hRun hValue =>
    refine ⟨c, cs, rfl, ?_⟩
    rw [foldl_skip_of_inline hInline, step_digit hFirst hRun, hValue.numberValue? hFirst]
    rfl
  | @string q body s _ hQuote hSpells =>
    refine ⟨q, body ++ [q], rfl, ?_⟩
    rw [foldl_skip_of_inline hInline, append_assoc, singleton_append, step_string hQuote hSpells]
    simp [Piece.token?]
  | @operator c cs _ hFirst hSlash hRun =>
    obtain ⟨hBlank, hWord, hDigit, hMark⟩ := isOperatorChar_plain hFirst
    refine ⟨c, cs, rfl, ?_⟩
    rw [foldl_skip_of_inline hInline]
    simp only [Freeform.step, hBlank, hSlash, hWord, hDigit, hMark, hFirst, hRun.split, Bool.false_eq_true, if_false,
      if_true]
    rfl
  | @delimiter c _ hFirst =>
    obtain ⟨hBlank, hSlash, hWord, hDigit, hMark, hOperator⟩ := isDelimiter_plain hFirst
    refine ⟨c, [], rfl, ?_⟩
    rw [foldl_skip_of_inline hInline]
    simp only [Freeform.step, hBlank, hSlash, hWord, hDigit, hMark, hOperator, hFirst, Bool.false_eq_true, if_false,
      if_true]
    rfl

/-- **A step fails at what is refused.** For an unexpected character, it does so at the place of that character. -/
theorem Refused.step (h : Refused (c :: cs)) (place : Cursor) :
    ∃ f, step place c cs = .error f ∧ ∀ d, f.cause = .unexpected d → d = c ∧ f.place = place := by
  generalize hText : c :: cs = text at h
  cases h with
  | stray hBlank hSlash hWord hDigit hQuote hOperator hDelimiter =>
    obtain ⟨rfl, rfl⟩ := List.cons.inj hText
    have hMark : (c = '"' || c = '\x27') = false := by simpa [IsQuote] using hQuote
    refine ⟨⟨.unexpected c, place, c :: cs⟩, ?_, ?_⟩
    · simp only [Freeform.step, hBlank, hSlash, hWord, hDigit, hMark, hOperator, hDelimiter, Bool.false_eq_true,
        if_false]
    · rintro d hCause
      exact ⟨(Cause.unexpected.inj hCause).symm, rfl⟩
  | @number _ run following hFirst hRun hMalformed =>
    obtain ⟨rfl, rfl⟩ := List.cons.inj hText
    have hNumeral : ∀ d ∈ c :: run, isNumberChar d = true :=
      forall_mem_cons.mpr ⟨isNumberChar_iff.mpr (.inl hFirst), hRun.inside⟩
    refine ⟨⟨.badNumber (ofList (c :: run)), place.advance (c :: run).length, following⟩, ?_, ?_⟩
    · rw [step_digit hFirst hRun, hMalformed.numberValue? hNumeral]
      rfl
    · rintro d hCause
      cases hCause
  | string hQuote hFaulty =>
    obtain ⟨rfl, rfl⟩ := List.cons.inj hText
    obtain ⟨f, hRead, hCause⟩ := hFaulty.readString hQuote [] (place.advance 1)
    refine ⟨f, ?_, fun d hd => absurd hd (hCause d)⟩
    rw [step_quote hQuote, hRead]
    rfl

end Scriptling.Freeform
