import Scriptling.Proofs.Freeform.Piece
import Scriptling.Proofs.Indented.Step

/-!
# Numbers in indented text

A number is read as far as its characters go: digits of any kind, points and underscores, then an exponent, then the
mark of an imaginary number (`Numeral.Stands`, `numberText_numeral`). Only afterwards it is taken for a float. It is one
unless a digit has no decimal value, there are two points, the exponent has no digit, or the mark is there
(`readFloat?_isSome_iff`).
-/

namespace Scriptling.Indented

open List Number Lexer

variable {c : Char} {cs exponent following mantissa scale : List Char}

open Text
open Freeform (Run)
open Number (plainDigit PlainNumeral Mantissa Scale)

/-! ## The parts of a number -/

/-- A number as it is read: digits, points and underscores, an exponent, and the mark of an imaginary number. -/
structure Numeral where
  /-- Digits, points and underscores. -/
  body : List Char
  /-- The exponent, or nothing. -/
  exponent : List Char
  /-- The mark of an imaginary number, or nothing. -/
  mark : List Char

/-- A character of the body of a number. -/
def isBodyChar (c : Char) : Bool := isDigit c || c == '.' || c == '_'

/-- An exponent with this behind it: its letter, perhaps a sign, and all digits and underscores there are. -/
inductive Exponent : List Char → List Char → Prop where
  | absent {following : List Char} : (∀ c ∈ following.head?, c ≠ 'e' ∧ c ≠ 'E') → Exponent [] following
  | unsigned {letter : Char} {ds following : List Char} : letter = 'e' ∨ letter = 'E' →
      Run isDigitOrBar ds following → (∀ c ∈ (ds ++ following).head?, c ≠ '+' ∧ c ≠ '-') →
      Exponent (letter :: ds) following
  | signed {letter sign : Char} {ds following : List Char} : letter = 'e' ∨ letter = 'E' → sign = '+' ∨ sign = '-' →
      Run isDigitOrBar ds following → Exponent (letter :: sign :: ds) following

namespace Numeral

/-- The whole text. -/
def text (n : Numeral) : List Char := n.body ++ n.exponent ++ n.mark

/-- The number stands where a token can begin, with this behind it. -/
structure Stands (n : Numeral) (following : List Char) : Prop where
  first : ∃ c cs, n.body = c :: cs ∧ (isDigit c = true ∨ c = '.' ∧ ∃ d ∈ cs.head?, isDigit d = true)
  body : Run isBodyChar n.body (n.exponent ++ (n.mark ++ following))
  exponent : Exponent n.exponent (n.mark ++ following)
  mark : n.mark = [] ∧ (∀ c ∈ following.head?, c ≠ 'j' ∧ c ≠ 'J') ∨ ∃ c, n.mark = [c] ∧ (c = 'j' ∨ c = 'J')

/-- The number is not written as a float: a digit of it has no decimal value, it has two points, its exponent has no
digit, or it is imaginary. -/
def Malformed (n : Numeral) : Prop :=
  (∃ d ∈ n.text, isDigit d = true ∧ isDecimal d = false) ∨ 2 ≤ n.body.count '.' ∨
    (n.exponent ≠ [] ∧ ∀ c ∈ n.exponent, isDigit c = false) ∨ n.mark ≠ []

theorem Stands.text_ne_nil {n : Numeral} {following : List Char} (h : n.Stands following) : n.text ≠ [] := by
  obtain ⟨c, cs, hBody, -⟩ := h.first
  simp [text, hBody]

end Numeral

/-- Every text begins with an exponent, if only with none. -/
theorem exists_exponent (cs : List Char) : ∃ exponent following, cs = exponent ++ following ∧
    Exponent exponent following := by
  cases cs with
  | nil => exact ⟨[], [], rfl, .absent (by simp)⟩
  | cons letter cs =>
    by_cases hLetter : letter = 'e' ∨ letter = 'E'
    · by_cases hSign : ∃ sign ∈ cs.head?, sign = '+' ∨ sign = '-'
      · obtain ⟨sign, hHead, hSign⟩ := hSign
        obtain ⟨rest, rfl⟩ := List.head?_eq_some_iff.mp hHead
        exact ⟨_, _, by simp, .signed hLetter hSign (.of_takeWhile _ rest)⟩
      · refine ⟨_, _, by simp, .unsigned hLetter (.of_takeWhile _ cs) ?_⟩
        rw [takeWhile_append_dropWhile]
        exact fun c hc => not_or.mp fun hc' => hSign ⟨c, hc, hc'⟩
    · exact ⟨[], _, rfl, .absent (by simpa using hLetter)⟩

theorem exists_mark (cs : List Char) : ∃ mark following, cs = mark ++ following ∧
    (mark = [] ∧ (∀ c ∈ following.head?, c ≠ 'j' ∧ c ≠ 'J') ∨ ∃ c, mark = [c] ∧ (c = 'j' ∨ c = 'J')) := by
  by_cases hMark : ∃ c ∈ cs.head?, c = 'j' ∨ c = 'J'
  · obtain ⟨c, hHead, hMark⟩ := hMark
    obtain ⟨rest, rfl⟩ := List.head?_eq_some_iff.mp hHead
    exact ⟨[c], rest, rfl, .inr ⟨c, rfl, hMark⟩⟩
  · exact ⟨[], cs, rfl, .inl ⟨rfl, fun c hc => not_or.mp fun hc' => hMark ⟨c, hc, hc'⟩⟩⟩

/-- A digit, or a point before a digit, begins a number. -/
theorem exists_numeral (h : isDigit c = true ∨ c = '.' ∧ ∃ d ∈ cs.head?, isDigit d = true) :
    ∃ (n : Numeral) (following : List Char), c :: cs = n.text ++ following ∧ n.Stands following := by
  have hFirst : isBodyChar c = true := by
    rcases h with hDigit | ⟨rfl, -⟩
    · simp [isBodyChar, hDigit]
    · rfl
  have hBody : c :: cs = c :: cs.takeWhile isBodyChar ++ cs.dropWhile isBodyChar := by simp
  obtain ⟨exponent, rest, hExponentText, hExponent⟩ := exists_exponent (cs.dropWhile isBodyChar)
  obtain ⟨mark, following, hMarkText, hMark⟩ := exists_mark rest
  subst hMarkText
  refine ⟨⟨c :: cs.takeWhile isBodyChar, exponent, mark⟩, following, ?_, ⟨c, _, rfl, ?_⟩, ⟨?_, ?_⟩, hExponent, hMark⟩
  · simp only [Numeral.text, append_assoc, ← hExponentText]
    exact hBody
  · refine h.imp_right ?_
    rintro ⟨hPoint, d, hHead, hDigit⟩
    obtain ⟨rest, rfl⟩ := List.head?_eq_some_iff.mp hHead
    exact ⟨hPoint, d, by simp [isBodyChar, hDigit], hDigit⟩
  · exact forall_mem_cons.mpr ⟨hFirst, fun d hd => mem_takeWhile hd⟩
  · rw [← hExponentText]
    exact fun d hd => of_head?_dropWhile hd

/-! ## The text that is read -/

theorem Exponent.exponentText (h : Exponent exponent following) : exponentText (exponent ++ following) = exponent := by
  cases h with
  | absent hNone =>
    cases following with
    | nil => rfl
    | cons c cs => simp [exponentText, hNone c rfl]
  | @unsigned letter ds _ hLetter hRun hNoSign =>
    have hDigits : exponentDigits (ds ++ following) = ds := by
      cases hText : ds ++ following with
      | nil => simp [exponentDigits, (append_eq_nil_iff.mp hText).1]
      | cons c cs =>
        have hSign := hNoSign c (by simp [hText])
        simp [exponentDigits, hSign, ← hText, hRun.split]
    simp [exponentText, hLetter, hDigits]
  | signed hLetter hSign hRun => simp [exponentText, exponentDigits, hLetter, hSign, hRun.split]

/-- Of a text that begins with a number, just the number is read as one. -/
theorem numberText_numeral {n : Numeral} (h : n.Stands following) : numberText (n.text ++ following) = n.text := by
  have hText : n.text ++ following = n.body ++ (n.exponent ++ (n.mark ++ following)) := by simp [Numeral.text]
  have hBody : (n.text ++ following).takeWhile (fun c => isDigit c || c == '.' || c == '_') = n.body := by
    rw [hText]
    exact h.body.split.1
  have hMark : imaginaryText (n.mark ++ following) = n.mark := by
    rcases h.mark with ⟨hNil, hNone⟩ | ⟨c, hMark, hLetter⟩
    · cases following with
      | nil => simp [hNil, imaginaryText]
      | cons c cs => simp [hNil, imaginaryText, hNone c rfl]
    · simp [hMark, imaginaryText, hLetter]
  rw [numberText, hBody, hText, drop_left, h.exponent.exponentText, drop_left, hMark]
  rfl

/-! ## Numbers that are floats -/

/-- A text as it is taken for a float: without underscores, and with decimal digits written in ASCII. -/
def clean (cs : List Char) : List Char := (cs.filter (· != '_')).map plainDigit

theorem clean_append (cs ds : List Char) : clean (cs ++ ds) = clean cs ++ clean ds := by simp [clean]

theorem clean_cons (h : clean [c] = [c]) (cs : List Char) : clean (c :: cs) = c :: clean cs := by
  rw [← singleton_append, clean_append, h, singleton_append]

theorem mem_clean {x : Char} : x ∈ clean cs ↔ ∃ c ∈ cs, c ≠ '_' ∧ plainDigit c = x := by
  simp [clean, and_assoc]

/-- The characters of a number that are neither digits nor points nor underscores. -/
def numberMarks : List Char := ['e', 'E', '+', '-', 'j', 'J']

theorem mark_spec (h : c ∈ numberMarks) : plainDigit c = c ∧ isDigit c = false ∧ c.isDigit = false ∧
    c ≠ '.' ∧ c ≠ '_' ∧ c.toLower ≠ 'n' ∧ isOuterBlank c = false := by
  simp only [numberMarks, mem_cons, not_mem_nil, or_false] at h
  rcases h with rfl | rfl | rfl | rfl | rfl | rfl <;> decide

theorem clean_mark (h : c ∈ numberMarks) : clean [c] = [c] := by
  simp [clean, mark_spec h]

theorem clean_marks (h : ∀ c ∈ cs, c ∈ numberMarks) : clean cs = cs := by
  induction cs with
  | nil => rfl
  | cons c cs ih =>
    obtain ⟨hc, hcs⟩ := forall_mem_cons.mp h
    rw [clean_cons (clean_mark hc), ih hcs]

/-- Decimal digits and underscores become digits. -/
theorem clean_digits (h : ∀ c ∈ cs, isDecimal c = true ∨ c = '_') : ∀ d ∈ clean cs, d.isDigit = true := by
  intro d hd
  obtain ⟨c, hc, hBar, rfl⟩ := mem_clean.mp hd
  obtain ⟨value, hValue⟩ := Option.isSome_iff_exists.mp ((h c hc).resolve_right hBar)
  exact (plainDigit_of_value hValue).1

theorem ne_underscore_of_isDigit (h : isDigit c = true) : c ≠ '_' := by
  rintro rfl
  exact absurd h (by decide)

theorem clean_ne_nil {d : Char} (hd : d ∈ cs) (h : isDigit d = true) : clean cs ≠ [] :=
  ne_nil_of_mem (mem_clean.mpr ⟨d, hd, ne_underscore_of_isDigit h, rfl⟩)

theorem Exponent.chars (h : Exponent exponent following) : ∀ c ∈ exponent, isDigitOrBar c = true ∨ c ∈ numberMarks := by
  cases h with
  | absent => simp
  | unsigned hLetter hRun =>
    refine forall_mem_cons.mpr ⟨.inr ?_, fun c hc => .inl (hRun.inside c hc)⟩
    rcases hLetter with rfl | rfl <;> decide
  | signed hLetter hSign hRun =>
    refine forall_mem_cons.mpr ⟨.inr ?_, forall_mem_cons.mpr ⟨.inr ?_, fun c hc => .inl (hRun.inside c hc)⟩⟩
    · rcases hLetter with rfl | rfl <;> decide
    · rcases hSign with rfl | rfl <;> decide

namespace Numeral.Stands

variable {n : Numeral} {following : List Char} (h : n.Stands following)

include h

theorem chars : ∀ c ∈ n.text, isBodyChar c = true ∨ c ∈ numberMarks := by
  intro c hc
  simp only [Numeral.text, mem_append] at hc
  rcases hc with (hc | hc) | hc
  · exact .inl (h.body.inside c hc)
  · refine (h.exponent.chars c hc).imp_left fun hDigit => ?_
    rcases (by simpa [isDigitOrBar] using hDigit : isDigit c = true ∨ c = '_') with hDigit | rfl
    · simp [isBodyChar, hDigit]
    · rfl
  · rcases h.mark with ⟨hNil, -⟩ | ⟨m, hMark, hLetter⟩
    · simp [hNil] at hc
    · obtain rfl : c = m := by simpa [hMark] using hc
      rcases hLetter with rfl | rfl <;> exact .inr (by decide)

theorem mem_clean_cases : ∀ c ∈ clean n.text, PlainNumeral c ∨ c ∈ numberMarks := by
  intro x hx
  obtain ⟨c, hc, hBar, rfl⟩ := mem_clean.mp hx
  rcases h.chars c hc with hBody | hMark
  · refine .inl (plainNumeral_plainDigit ?_)
    simpa [isBodyChar, hBar] using hBody
  · exact .inr ((mark_spec hMark).1.symm ▸ hMark)

theorem exists_digit : ∃ d ∈ n.body, isDigit d = true := by
  obtain ⟨c, cs, hBody, hDigit | ⟨-, d, hHead, hDigit⟩⟩ := h.first
  · exact ⟨c, by simp [hBody], hDigit⟩
  · exact ⟨d, by simp [hBody, mem_of_mem_head? hHead], hDigit⟩

/-- Nothing but its digits, points and marks has to do with whether a number is a float. -/
theorem readFloat?_eq : readFloat? (String.ofList (n.text.filter (· != '_'))) = readDecimal? false (clean n.text) := by
  have hMarks : ∀ {c : Char}, c ∈ numberMarks → c ≠ '_' ∧ c.toLower ≠ 'n' ∧ isOuterBlank c = false :=
    fun hMark => (mark_spec hMark).2.2.2.2
  refine readFloat?_eq_readDecimal? (fun c hc => ?_) (fun hBar => ?_) (fun c hc => ?_) fun hWord => ?_
  · obtain ⟨hText, hBar⟩ := mem_filter.mp hc
    have hBar : c ≠ '_' := by simpa using hBar
    rcases h.chars c hText with hBody | hMark
    · exact isOuterBlank_numeral (by simpa [isBodyChar, hBar] using hBody)
    · exact (hMarks hMark).2.2
  · rcases h.mem_clean_cases _ hBar with hPlain | hMark
    · exact hPlain.ne (by decide) rfl
    · exact (hMarks hMark).1 rfl
  · -- the first character is a digit or a point
    obtain ⟨d, ds, hBody, hFirst⟩ := h.first
    have hNumeral : isDigit d = true ∨ d = '.' := hFirst.imp_right And.left
    have hBar : d ≠ '_' := by
      rintro rfl
      exact hNumeral.elim (by decide) (by decide)
    have hHead : c = plainDigit d := by simpa [Numeral.text, hBody, hBar] using Eq.symm hc
    have hPlain : PlainNumeral c := hHead ▸ plainNumeral_plainDigit hNumeral
    exact ⟨hPlain.ne (by decide), hPlain.ne (by decide)⟩
  · obtain ⟨c, hc, hLower⟩ := mem_map.mp hWord
    rcases h.mem_clean_cases c hc with hPlain | hMark
    · rw [hPlain.toLower] at hLower
      exact hPlain.ne (by decide) hLower
    · exact (hMarks hMark).2.1 hLower

end Numeral.Stands

/-- A number that is written as a float does not end with marks. -/
theorem eq_nil_of_marks {front back : List Char} (hMantissa : Mantissa mantissa) (hScale : Scale scale)
    (hSplit : front ++ back = mantissa ++ scale) (hMarks : ∀ c ∈ back, c ∈ numberMarks) : back = [] := by
  by_contra hSome
  have hLast : (mantissa ++ scale).getLast? = some (back.getLast hSome) := by
    rw [← hSplit, List.getLast?_append, List.getLast?_eq_some_getLast hSome, Option.some_or]
  obtain ⟨-, -, hDigit, hPoint, -⟩ := mark_spec (hMarks _ (getLast_mem hSome))
  rcases hMantissa.last hScale _ hLast with h | h
  · simp [hDigit] at h
  · exact hPoint h

theorem Exponent.exists_letter (h : Exponent exponent following) (hSome : exponent ≠ []) : ∃ c ∈ exponent, c ≠ '_' := by
  cases h with
  | absent => exact absurd rfl hSome
  | unsigned hLetter | signed hLetter => exact ⟨_, .head _, by rcases hLetter with rfl | rfl <;> decide⟩

/-- An exponent without digits leaves its marks. -/
theorem Exponent.clean_eq_marks (h : Exponent exponent following) (hNoDigit : ∀ c ∈ exponent, isDigit c = false) :
    ∀ x ∈ clean exponent, x ∈ numberMarks := by
  intro x hx
  obtain ⟨c, hc, hBar, rfl⟩ := mem_clean.mp hx
  have hMark : c ∈ numberMarks := by simpa [isDigitOrBar, hNoDigit c hc, hBar] using h.chars c hc
  rwa [(mark_spec hMark).1]

/-- A digit of a number that is written as a float is decimal. -/
theorem isDecimal_of_mem_clean (hMantissa : Mantissa mantissa) (hScale : Scale scale)
    (hText : clean cs = mantissa ++ scale) {d : Char} (hd : d ∈ cs) (hDigit : isDigit d = true) :
    isDecimal d = true := by
  by_contra hDecimal
  rw [Bool.not_eq_true] at hDecimal
  have hMem : d ∈ mantissa ++ scale :=
    hText ▸ mem_clean.mpr ⟨d, hd, ne_underscore_of_isDigit hDigit, plainDigit_of_not_decimal hDecimal⟩
  have hAscii : d.isDigit ≠ true := fun hAscii => by simp [isDecimal_ascii hAscii] at hDecimal
  rcases mem_append.mp hMem with hMem | hMem
  · rw [(hMantissa.chars d hMem).resolve_left hAscii] at hDigit
    exact absurd hDigit (by decide)
  · have hMark : d ∈ numberMarks := mem_append_left ['j', 'J'] ((hScale.chars d hMem).resolve_left hAscii)
    simp [mark_spec hMark] at hDigit

namespace Numeral.Stands

variable {n : Numeral} {following : List Char}

theorem count_le_clean (n : Numeral) : n.body.count '.' ≤ (clean n.text).count '.' :=
  calc n.body.count '.' ≤ n.text.count '.' := by simp [Numeral.text, count_append]
    _ = (n.text.filter (· != '_')).count '.' := (count_filter (by decide)).symm
    _ ≤ (clean n.text).count (plainDigit '.') := count_le_count_map

theorem not_malformed (h : n.Stands following) (hMantissa : Mantissa mantissa)
    (hScale : Scale scale) (hText : clean n.text = mantissa ++ scale) : ¬n.Malformed := by
  have hParts : clean n.body ++ clean n.exponent ++ clean n.mark = mantissa ++ scale := by
    rw [← hText, Numeral.text, clean_append, clean_append]
  have hMark : n.mark = [] := by
    rcases h.mark with ⟨hNil, -⟩ | ⟨c, hMark, hLetter⟩
    · exact hNil
    · have hMarks : ∀ d ∈ n.mark, d ∈ numberMarks := by
        intro d hd
        obtain rfl : d = c := by simpa [hMark] using hd
        rcases hLetter with rfl | rfl <;> decide
      rw [clean_marks hMarks] at hParts
      exact eq_nil_of_marks hMantissa hScale hParts hMarks
  rintro (⟨d, hd, hDigit, hDecimal⟩ | hPoints | ⟨hSome, hNoDigit⟩ | hSome)
  · simp [isDecimal_of_mem_clean hMantissa hScale hText hd hDigit] at hDecimal
  · have hCount := count_le_clean n
    have hOne := hMantissa.count_le hScale
    rw [hText] at hCount
    omega
  · rw [hMark, show clean [] = [] from rfl, append_nil] at hParts
    have hNil := eq_nil_of_marks hMantissa hScale hParts (h.exponent.clean_eq_marks hNoDigit)
    obtain ⟨c, hc, hBar⟩ := h.exponent.exists_letter hSome
    exact ne_nil_of_mem (mem_clean.mpr ⟨c, hc, hBar, rfl⟩) hNil
  · exact hSome hMark

theorem mantissa_clean (h : n.Stands following) (hDecimal : ∀ d ∈ n.body, isDigit d = true → isDecimal d = true)
    (hPoints : n.body.count '.' < 2) : Mantissa (clean n.body) := by
  have hDigits : ∀ {part : List Char}, part ⊆ n.body → '.' ∉ part → ∀ d ∈ clean part, d.isDigit = true := by
    intro part hPart hNoPoint
    refine clean_digits fun c hc => ?_
    have hPoint : c ≠ '.' := ne_of_mem_of_not_mem hc hNoPoint
    have hBody : isDigit c = true ∨ c = '_' := by simpa [isBodyChar, hPoint] using h.body.inside c (hPart hc)
    exact hBody.imp_left (hDecimal c (hPart hc))
  obtain ⟨d, hd, hDigit⟩ := h.exists_digit
  by_cases hPoint : '.' ∈ n.body
  · obtain ⟨whole, part, hBody⟩ := append_of_mem hPoint
    rw [hBody, count_append, count_cons_self] at hPoints
    have hWhole : '.' ∉ whole := count_eq_zero.mp (by omega)
    have hPart : '.' ∉ part := count_eq_zero.mp (by omega)
    have hClean : clean n.body = clean whole ++ '.' :: clean part := by
      rw [hBody, clean_append, clean_cons (by decide)]
    have hSome : clean whole ++ clean part ≠ [] := by
      rw [← clean_append]
      refine clean_ne_nil ?_ hDigit
      have hOther : d ≠ '.' := fun hEq => absurd hDigit (by rw [hEq]; decide)
      simpa [hBody, hOther] using hd
    rw [hClean]
    exact .fraction hSome (hDigits (by simp [hBody]) hWhole) (hDigits (by simp [hBody]) hPart)
  · exact .whole (clean_ne_nil hd hDigit) (hDigits (List.Subset.refl _) hPoint)

theorem scale_clean {exponent : List Char} (h : Exponent exponent following)
    (hDecimal : ∀ d ∈ exponent, isDigit d = true → isDecimal d = true)
    (hSome : exponent ≠ [] → ∃ d ∈ exponent, isDigit d = true) : Scale (clean exponent) := by
  have hDigits : ∀ {ds : List Char}, Run isDigitOrBar ds following → ds ⊆ exponent →
      ∀ d ∈ clean ds, d.isDigit = true := by
    intro ds hRun hPart
    refine clean_digits fun c hc => ?_
    have hBar : isDigit c = true ∨ c = '_' := by simpa [isDigitOrBar] using hRun.inside c hc
    exact hBar.imp_left (hDecimal c (hPart hc))
  have hPower (sign : List Char) {letter : Char} {ds : List Char} (hLetter : letter = 'e' ∨ letter = 'E')
      (hSign : sign ∈ [[], ['+'], ['-']]) (hRun : Run isDigitOrBar ds following)
      (hText : exponent = letter :: sign ++ ds) : Scale (clean exponent) := by
    have hMarks : ∀ c ∈ letter :: sign, c ∈ numberMarks := by
      simp only [mem_cons, not_mem_nil, or_false] at hSign
      rcases hLetter with rfl | rfl <;> rcases hSign with rfl | rfl | rfl <;> simp [numberMarks]
    obtain ⟨d, hd, hDigit⟩ := hSome (by simp [hText])
    have hMem : d ∈ ds := (mem_append.mp (hText ▸ hd)).resolve_left fun hMark => by
      simp [mark_spec (hMarks d hMark)] at hDigit
    rw [hText, clean_append, clean_marks hMarks]
    exact .power hLetter hSign (clean_ne_nil hMem hDigit) (hDigits hRun (by simp [hText]))
  cases h with
  | absent => exact .unit
  | unsigned hLetter hRun => exact hPower [] hLetter (by simp) hRun rfl
  | signed hLetter hSign hRun => exact hPower [_] hLetter (by rcases hSign with rfl | rfl <;> simp) hRun rfl

/-- **A number is a float unless it is malformed.** -/
theorem readFloat?_isSome_iff (h : n.Stands following) :
    (readFloat? (String.ofList (n.text.filter (· != '_')))).isSome = true ↔ ¬n.Malformed := by
  rw [h.readFloat?_eq, readDecimal?_isSome_iff]
  constructor
  · rintro ⟨mantissa, scale, hText, hMantissa, hScale⟩
    exact h.not_malformed hMantissa hScale hText
  · intro hFormed
    simp only [Numeral.Malformed, not_or, not_exists, not_and, not_le, not_forall, not_not] at hFormed
    obtain ⟨hDecimal, hPoints, hSome, hMark⟩ := hFormed
    refine ⟨clean n.body, clean n.exponent, ?_, h.mantissa_clean ?_ hPoints, scale_clean h.exponent ?_ ?_⟩
    · rw [Numeral.text, hMark, append_nil, clean_append]
    · intro d hd hDigit
      simpa using hDecimal d (by simp [Numeral.text, hd]) hDigit
    · intro d hd hDigit
      simpa using hDecimal d (by simp [Numeral.text, hd]) hDigit
    · intro hExponent
      simpa using hSome hExponent

end Numeral.Stands

end Scriptling.Indented
