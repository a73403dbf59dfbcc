import Mathlib.Data.List.TakeWhile
import Scriptling.Number.Reading
import Scriptling.Proofs.Text.Class

/-!
# The value of digits and points

Numbers in a program are written with digits and points only. Of all the forms that a float may be read from,
blanks around it, signs, underscores, words and exponents included, such a text can have just one: digits and
perhaps a fraction. Its value is that of its decimal digits, of whatever script (`readFloat?_whole`,
`readFloat?_fraction`); with a digit that has no decimal value it is no number (`readFloat?_eq_none`). The same holds
of whole numbers, which must not have too many digits (`readInt?_whole`, `readInt?_eq_none`). In general a text is
read exactly if it is digits, perhaps with a point, and perhaps an exponent (`readDecimal?_isSome_iff`).
-/

namespace Scriptling.Number

open List Option
open String (ofList toList_ofList)

variable {c : Char} {cs rest ds es : List Char}

open Text

variable (negative : Bool)

/-! ## Plain characters -/

/-- What is left of digits and points once decimal digits are written in ASCII. -/
def PlainNumeral (c : Char) : Prop := c.isDigit = true ∨ c = '.' ∨ 0x80 ≤ c.toNat

theorem PlainNumeral.ne {x : Char} (h : PlainNumeral c) (hx : x.toNat < 0x80 ∧ x.isDigit = false ∧ x ≠ '.') :
    c ≠ x := by
  rintro rfl
  rcases h with hDigit | hPoint | hAbove
  · simp [hx.2.1] at hDigit
  · exact hx.2.2 hPoint
  · omega

theorem PlainNumeral.toLower (h : PlainNumeral c) : c.toLower = c := by
  unfold Char.toLower
  split
  next hUpper =>
    have hBounds : 65 ≤ c.toNat ∧ c.toNat ≤ 90 := by
      simpa [UInt32.le_iff_toNat_le] using hUpper
    rcases h with hDigit | rfl | hAbove
    · have := isDigit_ascii hDigit
      omega
    · exact absurd hBounds (by decide)
    · omega
  · rfl

theorem plainDigit_of_value {d : Nat} (h : decimalValue? c = some d) :
    (plainDigit c).isDigit = true ∧ digitValue? (plainDigit c) = some d := by
  have hAll : ∀ d < 10, (Char.ofNat (48 + d)).isDigit = true ∧ digitValue? (Char.ofNat (48 + d)) = some d := by
    decide
  rw [plainDigit, h]
  exact hAll d (decimalValue?_lt h)

theorem plainDigit_of_not_decimal (h : isDecimal c = false) : plainDigit c = c := by
  have hNone : decimalValue? c = none := by simpa [isDecimal] using h
  rw [plainDigit, hNone]

theorem plainNumeral_plainDigit (h : isDigit c = true ∨ c = '.') : PlainNumeral (plainDigit c) := by
  cases hDecimal : isDecimal c with
  | true =>
    obtain ⟨d, hValue⟩ := isSome_iff_exists.mp hDecimal
    exact .inl (plainDigit_of_value hValue).1
  | false =>
    rw [plainDigit_of_not_decimal hDecimal]
    rcases h with hDigit | hPoint
    · simp only [isDigit, hDecimal, Bool.false_or, Bool.and_eq_true, decide_eq_true_eq] at hDigit
      exact .inr (.inr hDigit.1)
    · exact .inr (.inl hPoint)

/-! ## Forms that digits and points do not have -/

theorem trimOuter_eq_self (h : ∀ c ∈ cs, isOuterBlank c = false) : trimOuter cs = cs := by
  have hKeep : ∀ {l : List Char}, (∀ c ∈ l, isOuterBlank c = false) → l.dropWhile isOuterBlank = l := by
    intro l hl
    cases l with
    | nil => rfl
    | cons c l => simp [hl c (by simp)]
  rw [trimOuter, hKeep h, hKeep (by simpa using h), reverse_reverse]

theorem isBlank_of_isOuterBlank (h : isOuterBlank c = true) : isBlank c = true := by
  unfold isOuterBlank at h
  split at h
  · simp only [Bool.or_eq_true, beq_iff_eq, Bool.and_eq_true, decide_eq_true_eq] at h
    rcases h with rfl | hBounds
    · rfl
    · simp [isBlank, hBounds]
  · exact h

theorem isOuterBlank_of_isDigit (h : isDigit c = true) : isOuterBlank c = false := by
  refine Bool.of_not_eq_true fun hOuter => ?_
  simpa [isBlank_of_isDigit h] using isBlank_of_isOuterBlank hOuter

theorem dropUnderscores_eq_self {isPart : Char → Bool} {before : Option Char} (h : '_' ∉ cs) :
    dropUnderscores isPart before cs = some cs := by
  induction cs generalizing before with
  | nil => rfl
  | cons c cs ih =>
    simp only [mem_cons, not_or] at h
    rw [dropUnderscores.eq_4 isPart before c cs fun hEq => h.1 hEq.symm, ih h.2]
    rfl

/-- The words for floats without digits all have an `n`. -/
theorem floatWord?_eq_none (h : 'n' ∉ cs.map Char.toLower) : floatWord? cs = none := by
  have hWord : ∀ word : String, 'n' ∈ word.toList → (ofList (cs.map Char.toLower) == word) = false := by
    intro word hWord
    rw [beq_eq_false_iff_ne]
    rintro rfl
    rw [toList_ofList] at hWord
    exact h hWord
  rw [floatWord?]
  simp [hWord "inf" (by decide), hWord "infinity" (by decide), hWord "nan" (by decide)]

theorem splitSign_eq_self (h : ∀ c ∈ cs.head?, c ≠ '+' ∧ c ≠ '-') : splitSign cs = (false, cs) := by
  unfold splitSign
  split
  · exact absurd rfl (h '-' rfl).2
  · exact absurd rfl (h '+' rfl).1
  · rfl

theorem PlainNumeral.unsigned (h : ∀ c ∈ cs, PlainNumeral c) : ∀ c ∈ cs.head?, c ≠ '+' ∧ c ≠ '-' :=
  fun c hc => have hPlain := h c (mem_of_mem_head? hc); ⟨hPlain.ne (by decide), hPlain.ne (by decide)⟩

theorem isOuterBlank_numeral (h : isDigit c = true ∨ c = '.') : isOuterBlank c = false := by
  rcases h with hDigit | rfl
  · exact isOuterBlank_of_isDigit hDigit
  · rfl

theorem plainNumeral_map (h : ∀ c ∈ cs, isDigit c = true ∨ c = '.') : ∀ c ∈ cs.map plainDigit, PlainNumeral c := by
  simpa using fun c hc => plainNumeral_plainDigit (h c hc)

theorem underscore_not_mem (h : ∀ c ∈ cs, PlainNumeral c) : '_' ∉ cs := fun hMem => (h _ hMem).ne (by decide) rfl

theorem prefixBase?_ne_ten {base : Nat} (h : prefixBase? cs = some (base, rest)) : base ≠ 10 := by
  unfold prefixBase? at h
  split at h <;> cases h <;> decide

theorem resolveBase?_ten (cs : List Char) : resolveBase? 10 cs = some (10, cs) := by
  unfold resolveBase?
  cases hPrefix : prefixBase? cs with
  | none => rfl
  | some found =>
    have hBase : 10 ≠ found.1 := (prefixBase?_ne_ten hPrefix).symm
    simp [hBase]

/-- A text is read as a decimal if it has no blank, no underscore, no sign in front and no word for a float. -/
theorem readFloat?_eq_readDecimal? (hBlank : ∀ c ∈ cs, isOuterBlank c = false) (hBar : '_' ∉ cs.map plainDigit)
    (hSign : ∀ c ∈ (cs.map plainDigit).head?, c ≠ '+' ∧ c ≠ '-') (hWord : 'n' ∉ (cs.map plainDigit).map Char.toLower) :
    readFloat? (ofList cs) = readDecimal? false (cs.map plainDigit) := by
  rw [readFloat?, toList_ofList, trimOuter_eq_self hBlank, dropUnderscores_eq_self hBar]
  simp only [splitSign_eq_self hSign, floatWord?_eq_none hWord]

theorem readFloat?_numeral (h : ∀ c ∈ cs, isDigit c = true ∨ c = '.') :
    readFloat? (ofList cs) = readDecimal? false (cs.map plainDigit) := by
  have hPlain := plainNumeral_map h
  refine readFloat?_eq_readDecimal? (fun c hc => isOuterBlank_numeral (h c hc)) (underscore_not_mem hPlain)
    (PlainNumeral.unsigned hPlain) fun hMem => ?_
  obtain ⟨c, hc, hLower⟩ := mem_map.mp hMem
  rw [(hPlain c hc).toLower] at hLower
  exact (hPlain c hc).ne (by decide) hLower

/-! ## Digits -/

def decimalDigit (d : Char) : Nat := (decimalValue? d).getD 0

/-- The whole number that decimal digits stand for. -/
def decimalNumber (ds : List Char) : Nat := ds.foldl (fun n d => n * 10 + decimalDigit d) 0

theorem valueOfDigits?_plain (h : ∀ d ∈ ds, isDecimal d = true) :
    valueOfDigits? 10 (ds.map plainDigit) = some (decimalNumber ds) := by
  unfold valueOfDigits? decimalNumber
  generalize 0 = n
  induction ds generalizing n with
  | nil => rfl
  | cons d ds ih =>
    obtain ⟨value, hValue⟩ := isSome_iff_exists.mp (h d (by simp))
    rw [map_cons, foldl_cons, foldl_cons, bind_some, (plainDigit_of_value hValue).2,
      bind_some, if_pos (decimalValue?_lt hValue), show value = decimalDigit d by simp [decimalDigit, hValue]]
    exact ih (fun e he => h e (by simp [he])) _

/-- A character that is no digit of the base makes a text no number. -/
theorem valueOfDigits?_eq_none {base : Nat} (hc : c ∈ cs) (h : digitValue? c = none) :
    valueOfDigits? base cs = none := by
  have hStart : ∀ (cs : List Char), cs.foldl (fun acc c => acc.bind fun n =>
      (digitValue? c).bind fun d => if d < base then some (n * base + d) else none) none = none := by
    intro cs
    induction cs with
    | nil => rfl
    | cons d cs ih => exact ih
  unfold valueOfDigits?
  generalize some 0 = acc
  induction cs generalizing acc with
  | nil => simp at hc
  | cons d cs ih =>
    rw [foldl_cons]
    rcases mem_cons.mp hc with rfl | hc
    · have hNone : (acc.bind fun n => (digitValue? c).bind fun d =>
          if d < base then some (n * base + d) else none) = none := by
        simp [h]
      rw [hNone, hStart]
    · exact ih hc _

theorem isDigit_of_isDecimal (h : isDecimal c = true) : isDigit c = true := by simp [isDigit, h]

theorem isDecimal_ascii (h : c.isDigit = true) : isDecimal c = true := by
  have hBounds := isDigit_ascii h
  rw [isDecimal, decimalValue?, if_pos (by omega), if_pos h]
  rfl

theorem isDigit_plainDigit (h : ∀ d ∈ ds, isDecimal d = true) : ∀ d ∈ ds.map plainDigit, d.isDigit = true := by
  intro d hd
  obtain ⟨c, hc, rfl⟩ := mem_map.mp hd
  obtain ⟨value, hValue⟩ := isSome_iff_exists.mp (h c hc)
  exact (plainDigit_of_value hValue).1

/-! ## Numbers with an exponent -/

/-- Digits, perhaps with a point among them. -/
inductive Mantissa : List Char → Prop where
  | whole {ds : List Char} : ds ≠ [] → (∀ d ∈ ds, d.isDigit = true) → Mantissa ds
  | fraction {ds es : List Char} : ds ++ es ≠ [] → (∀ d ∈ ds, d.isDigit = true) → (∀ e ∈ es, e.isDigit = true) →
      Mantissa (ds ++ '.' :: es)

inductive Scale : List Char → Prop where
  | unit : Scale []
  | power {mark : Char} {sign ds : List Char} : mark = 'e' ∨ mark = 'E' → sign ∈ [[], ['+'], ['-']] → ds ≠ [] →
      (∀ d ∈ ds, d.isDigit = true) → Scale (mark :: (sign ++ ds))

theorem plainDigit_ascii {d : Char} (h : d.isDigit = true) : plainDigit d = d := by
  have hBounds := isDigit_ascii h
  have hAll : ∀ n < 10, plainDigit (Char.ofNat (48 + n)) = Char.ofNat (48 + n) := by decide
  have hChar : d = Char.ofNat (48 + (d.toNat - 48)) := by
    rw [show 48 + (d.toNat - 48) = d.toNat by omega, Char.ofNat_toNat]
  rw [hChar]
  exact hAll _ (by omega)

theorem valueOfDigits?_ascii (h : ∀ d ∈ ds, d.isDigit = true) : valueOfDigits? 10 ds = some (decimalNumber ds) := by
  have hPlain : ds.map plainDigit = ds := (map_congr_left fun d hd => plainDigit_ascii (h d hd)).trans (map_id' ds)
  rw [← hPlain, valueOfDigits?_plain fun d hd => isDecimal_ascii (h d hd), hPlain]

theorem splitSign_append {sign : List Char} (hSign : sign ∈ [[], ['+'], ['-']]) (h : ∀ d ∈ ds, d.isDigit = true) :
    (splitSign (sign ++ ds)).2 = ds := by
  simp only [mem_cons, not_mem_nil, or_false] at hSign
  rcases hSign with rfl | rfl | rfl
  · rw [nil_append, splitSign_eq_self (PlainNumeral.unsigned fun d hd => .inl (h d hd))]
  · rfl
  · rfl

theorem exists_splitSign (cs : List Char) : ∃ sign ∈ [[], ['+'], ['-']], cs = sign ++ (splitSign cs).2 := by
  unfold splitSign
  split
  · exact ⟨['-'], by simp, rfl⟩
  · exact ⟨['+'], by simp, rfl⟩
  · exact ⟨[], by simp, rfl⟩

theorem scaleValue?_isSome_iff : (scaleValue? cs).isSome = true ↔ Scale cs := by
  constructor
  · intro h
    cases cs with
    | nil => exact .unit
    | cons mark rest =>
      obtain ⟨sign, hSign, hRest⟩ := exists_splitSign rest
      simp only [scaleValue?] at h
      split at h
      next hMark =>
        split at h
        · cases h
        next hDigits =>
          rw [hRest]
          simp only [Bool.or_eq_true, List.isEmpty_iff, Bool.not_eq_true', not_or, Bool.not_eq_false] at hDigits
          exact .power (by simpa using hMark) hSign hDigits.1 (by simpa using hDigits.2)
      · cases h
  · intro h
    cases h with
    | unit => rfl
    | @power mark sign ds hMark hSign hSome hDigits =>
      have hRest := splitSign_append hSign hDigits
      simp only [scaleValue?]
      rw [if_pos (by simpa using hMark), hRest, valueOfDigits?_ascii hDigits, if_neg]
      · rfl
      · simpa [hSome] using hDigits

/-- Digits and a fraction are read together with the exponent behind them. -/
theorem readDecimal?_append {tail : List Char} (hWhole : ∀ d ∈ ds, d.isDigit = true)
    (hTail : ∀ c ∈ tail.head?, c.isDigit = false) (hParts : splitFraction tail = (es, rest)) :
    readDecimal? negative (ds ++ tail) = if ds ++ es = [] then none else (scaleValue? rest).bind fun e =>
      (valueOfDigits? 10 (ds ++ es)).map fun m => floatOfDecimal negative m (e - es.length) := by
  obtain ⟨hTake, hDrop⟩ := takeWhile_append_stop hWhole hTail
  simp only [readDecimal?, hTake, hDrop, hParts]
  cases scaleValue? rest <;> cases valueOfDigits? 10 (ds ++ es) <;> simp

theorem readDecimal?_isSome_iff_parts {tail : List Char} (hWhole : ∀ d ∈ ds, d.isDigit = true)
    (hTail : ∀ c ∈ tail.head?, c.isDigit = false) (hParts : splitFraction tail = (es, rest))
    (hFraction : ∀ e ∈ es, e.isDigit = true) :
    (readDecimal? negative (ds ++ tail)).isSome = true ↔ ds ++ es ≠ [] ∧ Scale rest := by
  have hDigits : ∀ d ∈ ds ++ es, d.isDigit = true := fun d hd =>
    (mem_append.mp hd).elim (hWhole d) (hFraction d)
  rw [readDecimal?_append negative hWhole hTail hParts, valueOfDigits?_ascii hDigits, ← scaleValue?_isSome_iff]
  cases scaleValue? rest <;> simp [-not_and]

theorem splitFraction_point (hFraction : ∀ e ∈ es, e.isDigit = true) (hRest : ∀ c ∈ rest.head?, c.isDigit = false) :
    splitFraction ('.' :: (es ++ rest)) = (es, rest) := by
  obtain ⟨hTake, hDrop⟩ := takeWhile_append_stop hFraction hRest
  simp [splitFraction, hTake, hDrop]

theorem splitFraction_eq_self (h : ∀ c ∈ rest.head?, c ≠ '.') : splitFraction rest = ([], rest) := by
  unfold splitFraction
  split
  · exact absurd rfl (h '.' rfl)
  · rfl

theorem Scale.head_plain (h : Scale cs) : ∀ c ∈ cs.head?, c.isDigit = false ∧ c ≠ '.' := by
  cases h with
  | unit => simp
  | power hMark _ _ _ =>
    rcases hMark with rfl | rfl
    · simp
    · simp

/-- **A float is written as a mantissa with or without an exponent.** -/
theorem readDecimal?_isSome_iff (cs : List Char) :
    (readDecimal? negative cs).isSome = true ↔
      ∃ mantissa scale, cs = mantissa ++ scale ∧ Mantissa mantissa ∧ Scale scale := by
  constructor
  · intro h
    have hDigits : ∀ d ∈ cs.takeWhile Char.isDigit, d.isDigit = true := fun d hd => mem_takeWhile hd
    have hSplit : cs.takeWhile Char.isDigit ++ cs.dropWhile Char.isDigit = cs := takeWhile_append_dropWhile
    by_cases hPoint : (cs.dropWhile Char.isDigit).head? = some '.'
    · obtain ⟨tail, hTail⟩ := List.head?_eq_some_iff.mp hPoint
      have hFraction : ∀ e ∈ tail.takeWhile Char.isDigit, e.isDigit = true := fun e he => mem_takeWhile he
      have hParts : splitFraction ('.' :: tail) = (tail.takeWhile Char.isDigit, tail.dropWhile Char.isDigit) := rfl
      rw [← hSplit, hTail, readDecimal?_isSome_iff_parts negative hDigits (by simp) hParts hFraction] at h
      refine ⟨_, _, ?_, .fraction h.1 hDigits hFraction, h.2⟩
      rw [append_assoc, cons_append, takeWhile_append_dropWhile, ← hTail, hSplit]
    · have hNone : splitFraction (cs.dropWhile Char.isDigit) = ([], cs.dropWhile Char.isDigit) :=
        splitFraction_eq_self fun c hc hEq => hPoint (hEq ▸ hc)
      rw [← hSplit, readDecimal?_isSome_iff_parts negative hDigits (fun c hc => of_head?_dropWhile hc) hNone
        (by simp), append_nil] at h
      exact ⟨_, _, hSplit.symm, .whole h.1 hDigits, h.2⟩
  · rintro ⟨mantissa, scale, rfl, hMantissa, hScale⟩
    have hHead := hScale.head_plain
    cases hMantissa with
    | whole hSome hDigits =>
      rw [readDecimal?_isSome_iff_parts negative hDigits (fun c hc => (hHead c hc).1)
        (splitFraction_eq_self fun c hc => (hHead c hc).2) (by simp), append_nil]
      exact ⟨hSome, hScale⟩
    | fraction hSome hWhole hFraction =>
      rw [append_assoc, cons_append, readDecimal?_isSome_iff_parts negative hWhole (by simp)
        (splitFraction_point hFraction fun c hc => (hHead c hc).1) hFraction]
      exact ⟨hSome, hScale⟩

variable {mantissa scale : List Char}

theorem count_point_of_digits (h : ∀ d ∈ ds, d.isDigit = true) : ds.count '.' = 0 :=
  count_eq_zero.mpr fun hMem => absurd (h _ hMem) (by decide)

theorem Mantissa.chars (h : Mantissa mantissa) : ∀ c ∈ mantissa, c.isDigit = true ∨ c = '.' := by
  cases h with
  | whole _ hDigits => exact fun c hc => .inl (hDigits c hc)
  | fraction _ hDigits hFraction =>
    intro c hc
    rcases mem_append.mp hc with hc | hc
    · exact .inl (hDigits c hc)
    · exact (mem_cons.mp hc).elim .inr fun hc => .inl (hFraction c hc)

theorem Scale.chars (h : Scale scale) : ∀ c ∈ scale, c.isDigit = true ∨ c ∈ ['e', 'E', '+', '-'] := by
  cases h with
  | unit => simp
  | power hMark hSign _ hDigits =>
    refine forall_mem_cons.mpr ⟨.inr (by rcases hMark with rfl | rfl <;> decide), fun c hc => ?_⟩
    rcases mem_append.mp hc with hc | hc
    · simp only [mem_cons, not_mem_nil, or_false] at hSign
      rcases hSign with rfl | rfl | rfl <;> simp_all
    · exact .inl (hDigits c hc)

theorem Mantissa.count_le (h : Mantissa mantissa) (hScale : Scale scale) : (mantissa ++ scale).count '.' ≤ 1 := by
  have hNone : scale.count '.' = 0 := by
    refine count_eq_zero.mpr fun hMem => ?_
    rcases hScale.chars _ hMem with hDigit | hMark
    · exact absurd hDigit (by decide)
    · exact absurd hMark (by decide)
  rw [count_append, hNone]
  cases h with
  | whole _ hDigits => simp [count_point_of_digits hDigits]
  | fraction _ hDigits hFraction => simp [count_point_of_digits hDigits, count_point_of_digits hFraction]

theorem Mantissa.last (h : Mantissa mantissa) (hScale : Scale scale) :
    ∀ c ∈ (mantissa ++ scale).getLast?, c.isDigit = true ∨ c = '.' := by
  intro c hc
  cases hScale with
  | unit =>
    rw [append_nil] at hc
    exact h.chars c (mem_of_getLast? hc)
  | @power mark sign ds _ _ hSome hDigits =>
    rw [← cons_append, ← append_assoc, List.getLast?_append, List.getLast?_eq_some_getLast hSome,
      some_or, mem_some_iff] at hc
    exact .inl (hDigits c (hc ▸ getLast_mem hSome))

/-! ## Numbers of a program -/

/-- Decimal digits alone are read as their whole number. -/
theorem readFloat?_whole (hDigits : ∀ d ∈ ds, isDecimal d = true) (hSome : ds ≠ []) :
    readFloat? (ofList ds) = some (floatOfDecimal false (decimalNumber ds) 0) := by
  have hRead := readDecimal?_append false (isDigit_plainDigit hDigits)
    (show ∀ c ∈ [].head?, Char.isDigit c = false by simp) rfl
  rw [append_nil, if_neg (by simpa using hSome), valueOfDigits?_plain hDigits] at hRead
  rw [readFloat?_numeral fun d hd => .inl (isDigit_of_isDecimal (hDigits d hd)), hRead]
  rfl

/-- Decimal digits with a fraction are read as their whole number, scaled by the length of the fraction. -/
theorem readFloat?_fraction (hDigits : ∀ d ∈ ds, isDecimal d = true) (hFraction : ∀ e ∈ es, isDecimal e = true)
    (hSome : ds ≠ []) :
    readFloat? (ofList (ds ++ '.' :: es)) =
      some (floatOfDecimal false (decimalNumber (ds ++ es)) (-es.length)) := by
  have hNumeral : ∀ c ∈ ds ++ '.' :: es, isDigit c = true ∨ c = '.' := by
    intro c hc
    rcases mem_append.mp hc with hc | hc
    · exact .inl (isDigit_of_isDecimal (hDigits c hc))
    · exact (mem_cons.mp hc).elim .inr fun hc => .inl (isDigit_of_isDecimal (hFraction c hc))
  have hAll : ∀ d ∈ ds ++ es, isDecimal d = true := fun d hd =>
    (mem_append.mp hd).elim (hDigits d) (hFraction d)
  have hPoint : plainDigit '.' = '.' := rfl
  have hParts := splitFraction_point (isDigit_plainDigit hFraction)
    (show ∀ c ∈ [].head?, Char.isDigit c = false by simp)
  rw [append_nil] at hParts
  rw [readFloat?_numeral hNumeral, map_append, map_cons, hPoint,
    readDecimal?_append false (isDigit_plainDigit hDigits) (by simp) hParts, if_neg (by simp [hSome]),
    ← map_append, valueOfDigits?_plain hAll, length_map]
  simp [scaleValue?]

/-- Digits and points that can be read as a float are digits and perhaps a fraction. -/
theorem mantissa_of_readFloat? (h : ∀ c ∈ cs, isDigit c = true ∨ c = '.') {x : Float}
    (hRead : readFloat? (ofList cs) = some x) : Mantissa (cs.map plainDigit) := by
  have hPlain := plainNumeral_map h
  rw [readFloat?_numeral h] at hRead
  obtain ⟨mantissa, scale, hSplit, hMantissa, hScale⟩ :=
    (readDecimal?_isSome_iff false _).mp (isSome_iff_exists.mpr ⟨x, hRead⟩)
  cases hScale with
  | unit => rwa [hSplit, append_nil]
  | @power mark _ _ hMark =>
    have hMarkPlain := hPlain mark (by simp [hSplit])
    exact absurd hMark (not_or.mpr ⟨hMarkPlain.ne (by decide), hMarkPlain.ne (by decide)⟩)

/-- A digit without a decimal value makes a text no number. -/
theorem readFloat?_eq_none (h : ∀ c ∈ cs, isDigit c = true ∨ c = '.') (hc : c ∈ cs) (hDigit : isDigit c = true)
    (hDecimal : isDecimal c = false) : readFloat? (ofList cs) = none := by
  have hMem : c ∈ cs.map plainDigit := mem_map.mpr ⟨c, hc, plainDigit_of_not_decimal hDecimal⟩
  rw [eq_none_iff_forall_ne_some]
  intro x hRead
  rcases (mantissa_of_readFloat? h hRead).chars c hMem with hAscii | rfl
  · simp [isDecimal_ascii hAscii] at hDecimal
  · exact absurd hDigit (by decide)

theorem readFloat?_eq_none_of_points (h : ∀ c ∈ cs, isDigit c = true ∨ c = '.') (hPoints : 2 ≤ cs.count '.') :
    readFloat? (ofList cs) = none := by
  have hCount : 2 ≤ (cs.map plainDigit).count '.' := hPoints.trans (count_le_count_map (f := plainDigit))
  rw [eq_none_iff_forall_ne_some]
  intro x hRead
  have hOne := (mantissa_of_readFloat? h hRead).count_le .unit
  rw [append_nil] at hOne
  omega

/-! ## Whole numbers -/

/-- Digits are read in base ten as they stand, unless they are too many. -/
theorem readInt?_digits (h : ∀ c ∈ cs, isDigit c = true) (hSome : cs ≠ []) : readInt? 10 (ofList cs) =
      if maxDecimalDigits < cs.length then none else (valueOfDigits? 10 (cs.map plainDigit)).map Int.ofNat := by
  have hNumeral : ∀ c ∈ cs, isDigit c = true ∨ c = '.' := fun c hc => .inl (h c hc)
  have hPlain := plainNumeral_map hNumeral
  have hDigits : readDigits? 10 (cs.map plainDigit) =
      if maxDecimalDigits < cs.length then none else valueOfDigits? 10 (cs.map plainDigit) := by
    obtain ⟨d, ds, hMap⟩ := exists_cons_of_ne_nil (by simpa using hSome : cs.map plainDigit ≠ [])
    rw [readDigits?, dropUnderscores_eq_self (underscore_not_mem hPlain), ← length_map (f := plainDigit), hMap]
    simp [isBinaryBase]
  rw [readInt?, toList_ofList, trimOuter_eq_self fun c hc => isOuterBlank_numeral (hNumeral c hc)]
  simp only [splitSign_eq_self (PlainNumeral.unsigned hPlain), resolveBase?_ten, hDigits, Bool.false_eq_true, if_false]
  split
  · rfl
  · rfl

theorem readInt?_whole (hDigits : ∀ d ∈ ds, isDecimal d = true) (hSome : ds ≠ [])
    (hShort : ds.length ≤ maxDecimalDigits) : readInt? 10 (ofList ds) = some (decimalNumber ds : Int) := by
  rw [readInt?_digits (fun d hd => isDigit_of_isDecimal (hDigits d hd)) hSome, if_neg (Nat.not_lt.mpr hShort),
    valueOfDigits?_plain hDigits]
  rfl

theorem readInt?_eq_none (h : ∀ c ∈ cs, isDigit c = true) (hc : c ∈ cs) (hDecimal : isDecimal c = false) :
    readInt? 10 (ofList cs) = none := by
  have hMem : c ∈ cs.map plainDigit := mem_map.mpr ⟨c, hc, plainDigit_of_not_decimal hDecimal⟩
  have hAbove : 0x80 ≤ c.toNat := by
    have hDigit := h c hc
    simp only [isDigit, hDecimal, Bool.false_or, Bool.and_eq_true, decide_eq_true_eq] at hDigit
    exact hDigit.1
  have hValue : digitValue? c = none := by
    have hLater (x : Char) (hx : x.toNat < 0x80) : ¬ c ≤ x := fun hLe => by
      have : c.toNat ≤ x.toNat := hLe
      omega
    simp [digitValue?, hLater '9' (by decide), hLater 'z' (by decide), hLater 'Z' (by decide)]
  rw [readInt?_digits h (ne_nil_of_mem hc), valueOfDigits?_eq_none hMem hValue]
  exact ite_self none

end Scriptling.Number
