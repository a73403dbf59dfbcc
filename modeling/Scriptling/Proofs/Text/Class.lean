import Mathlib.Data.List.Chain
import Scriptling.Text.Class

/-!
# Character classes

A text is read by taking longest runs of a class; the first section has the facts about runs. The classes are given
by tables of ranges above ASCII. Two tables whose ranges lie apart give classes without a common character, and
comparing the tables settles it for all of Unicode: a digit is neither a letter (`isWordStart_of_isDigit`) nor a
blank (`isBlank_of_isDigit`), and no blank begins a word (`isBlank_of_isWordStart`).
-/

namespace Scriptling.Text

open List

variable {p : Char → Bool} {c : Char}

/-! ## Runs of a class -/

theorem mem_takeWhile {cs : List Char} (h : c ∈ cs.takeWhile p) : p c = true := all_eq_true.mp all_takeWhile c h

theorem of_head?_dropWhile {cs : List Char} (h : c ∈ (cs.dropWhile p).head?) : p c = false := by
  have hHead := List.head?_dropWhile_not p cs
  rw [Option.mem_def.mp h] at hHead
  exact hHead

theorem takeWhile_append_stop {l r : List Char} (hl : ∀ c ∈ l, p c = true) (hr : ∀ c ∈ r.head?, p c = false) :
    (l ++ r).takeWhile p = l ∧ (l ++ r).dropWhile p = r := by
  rw [takeWhile_append_of_pos hl, dropWhile_append_of_pos hl]
  cases r with
  | nil => simp
  | cons c r =>
    have hc : p c = false := hr c rfl
    simp [hc]

theorem takeWhile_append_ne {l : List Char} (hl : c ∉ l) (rest : List Char) :
    (l ++ c :: rest).takeWhile (· != c) = l ∧ (l ++ c :: rest).dropWhile (· != c) = c :: rest := by
  refine takeWhile_append_stop (fun d hd => ?_) (by simp)
  rw [bne_iff_ne]
  exact fun hEq => hl (hEq ▸ hd)

theorem not_mem_takeWhile_ne (c : Char) (cs : List Char) : c ∉ cs.takeWhile (· != c) := by
  have hAll := all_takeWhile (p := (· != c)) (l := cs)
  rw [all_eq_true] at hAll
  exact fun h => by simpa using hAll c h

theorem dropWhile_ne_cases (c : Char) (cs : List Char) :
    cs.dropWhile (· != c) = [] ∨ (cs.dropWhile (· != c)).head? = some c := by
  cases h : cs.dropWhile (· != c) with
  | nil => exact .inl rfl
  | cons d rest =>
    have hHead := List.head?_dropWhile_not (· != c) cs
    rw [h] at hHead
    exact .inr (by simpa using hHead)

/-! ## Ranges that lie apart -/

/-- A number lies in one of some closed ranges. -/
def InSome (ranges : List (Nat × Nat)) (n : Nat) : Prop := ∃ r ∈ ranges, r.1 ≤ n ∧ n ≤ r.2

/-- The ranges begin in ascending order. -/
def Ascending (ranges : List (Nat × Nat)) : Prop := (ranges.map Prod.fst).IsChain (· ≤ ·)

instance (ranges : List (Nat × Nat)) : Decidable (Ascending ranges) := inferInstanceAs (Decidable (List.IsChain _ _))

/-- No range of the one list meets a range of the other. Both are gone through once, so they must ascend. -/
def apart : List (Nat × Nat) → List (Nat × Nat) → Bool
  | [], _ => true
  | x :: xs, ys =>
    match ys.dropWhile fun y => Nat.blt y.2 x.1 with
    | [] => true
    | y :: later => Nat.blt x.2 y.1 && apart xs (y :: later)

theorem Ascending.pairwise {ranges : List (Nat × Nat)} (h : Ascending ranges) : ranges.Pairwise fun x y => x.1 ≤ y.1 :=
  pairwise_map.mp (isChain_iff_pairwise.mp h)

theorem lt_or_lt_of_apart {xs ys : List (Nat × Nat)} (hxs : xs.Pairwise fun x y => x.1 ≤ y.1)
    (hys : ys.Pairwise fun x y => x.1 ≤ y.1) (h : apart xs ys = true) : ∀ x ∈ xs, ∀ y ∈ ys, x.2 < y.1 ∨ y.2 < x.1 := by
  induction xs generalizing ys with
  | nil => simp
  | cons x xs ih =>
    obtain ⟨hLow, hxs⟩ := pairwise_cons.mp hxs
    -- what is dropped lies before `x`, and so before the later ranges of the first list
    have hDropped : ∀ y ∈ ys.takeWhile (fun y => Nat.blt y.2 x.1), y.2 < x.1 := fun y hy => by
      simpa using all_eq_true.mp all_takeWhile y hy
    have hSplit := takeWhile_append_dropWhile (p := fun y : Nat × Nat => Nat.blt y.2 x.1) (l := ys)
    have hKept : ∀ x' ∈ x :: xs, ∀ y ∈ ys.dropWhile (fun y => Nat.blt y.2 x.1), x'.2 < y.1 ∨ y.2 < x'.1 := by
      rw [apart] at h
      rw [← hSplit] at hys
      have hys := (pairwise_append.mp hys).2.1
      cases hDrop : ys.dropWhile (fun y => Nat.blt y.2 x.1) with
      | nil => simp
      | cons y0 later =>
        rw [hDrop] at h hys
        simp only [Bool.and_eq_true, Nat.blt_eq] at h
        have hFirst : ∀ y ∈ y0 :: later, y0.1 ≤ y.1 := by
          simpa using (pairwise_cons.mp hys).1
        rw [forall_mem_cons]
        exact ⟨fun y hy => .inl (Nat.lt_of_lt_of_le h.1 (hFirst y hy)), ih hxs hys h.2⟩
    intro x' hx' y hy
    rw [← hSplit] at hy
    rcases mem_append.mp hy with hy | hy
    · have hLe : x.1 ≤ x'.1 := by
        rcases mem_cons.mp hx' with rfl | hx'
        · exact Nat.le_refl _
        · exact hLow x' hx'
      exact .inr (Nat.lt_of_lt_of_le (hDropped y hy) hLe)
    · exact hKept x' hx' y hy

theorem InSome.not_of_apart {xs ys : List (Nat × Nat)} {n : Nat} (hn : InSome xs n)
    (h : Ascending xs ∧ Ascending ys ∧ apart xs ys = true) : ¬ InSome ys n := by
  obtain ⟨x, hx, hLow, hHigh⟩ := hn
  rintro ⟨y, hy, hLow', hHigh'⟩
  have := lt_or_lt_of_apart h.1.pairwise h.2.1.pairwise h.2.2 x hx y hy
  omega

theorem inRanges_iff {table : Array (Nat × Nat)} {n : Nat} : inRanges table n = true ↔ InSome table.toList n := by
  unfold inRanges InSome
  rw [Array.any_eq_true']
  simp only [Bool.and_eq_true, decide_eq_true_eq, Array.mem_toList_iff]

/-! ## Classes as ranges -/

def decimalRanges : List (Nat × Nat) := (48, 57) :: decimalZeros.toList.map fun z => (z, z + 9)

def allLetterRanges : List (Nat × Nat) := (65, 90) :: (97, 122) :: letterRanges.toList

def blankRanges : List (Nat × Nat) :=
  [(9, 13), (28, 32), (0x85, 0x85), (0xa0, 0xa0), (0x1680, 0x1680), (0x2000, 0x200a), (0x2028, 0x2028),
   (0x2029, 0x2029), (0x202f, 0x202f), (0x205f, 0x205f), (0x3000, 0x3000)]

theorem isDigit_ascii (h : c.isDigit = true) : 48 ≤ c.toNat ∧ c.toNat ≤ 57 := by
  simpa [Char.isDigit, UInt32.le_iff_toNat_le] using h

theorem isAlpha_ascii (h : c.isAlpha = true) : (65 ≤ c.toNat ∧ c.toNat ≤ 90) ∨ (97 ≤ c.toNat ∧ c.toNat ≤ 122) := by
  have hCase : (c.isUpper || c.isLower) = true := h
  rcases (Bool.or_eq_true _ _).mp hCase with hUpper | hLower
  · have hBounds : 65 ≤ c.val ∧ c.val ≤ 90 := of_decide_eq_true hUpper
    exact .inl hBounds
  · have hBounds : (decide (97 ≤ c.val) && decide (c.val ≤ 122)) = true := hLower
    rw [Bool.and_eq_true, decide_eq_true_eq, decide_eq_true_eq] at hBounds
    exact .inr hBounds

/-- A decimal digit stands in a run of ten, and its value is its place there. -/
theorem decimalValue?_cases {d : Nat} (h : decimalValue? c = some d) :
    ∃ z, (z, z + 9) ∈ decimalRanges ∧ z ≤ c.toNat ∧ c.toNat ≤ z + 9 ∧ d = c.toNat - z := by
  unfold decimalValue? at h
  split at h
  · split at h
    next hDigit =>
      have hBounds := isDigit_ascii hDigit
      exact ⟨48, mem_cons_self, hBounds.1, hBounds.2, (Option.some.inj h).symm⟩
    · cases h
  · obtain ⟨z, hFind, rfl⟩ := Option.map_eq_some_iff.mp h
    have hRun := Array.find?_some hFind
    simp only [Bool.and_eq_true, decide_eq_true_eq] at hRun
    have hZero := Array.mem_toList_iff.mpr (Array.mem_of_find?_eq_some hFind)
    exact ⟨z, mem_cons_of_mem _ (mem_map.mpr ⟨z, hZero, rfl⟩), hRun.1, by omega, rfl⟩

theorem decimalValue?_lt {d : Nat} (h : decimalValue? c = some d) : d < 10 := by
  obtain ⟨z, -, hLow, hHigh, rfl⟩ := decimalValue?_cases h
  omega

theorem isDigit_ranges (h : isDigit c = true) :
    InSome decimalRanges c.toNat ∨ InSome typographicDigitRanges.toList c.toNat := by
  simp only [isDigit, Bool.or_eq_true, Bool.and_eq_true, decide_eq_true_eq] at h
  rcases h with hDecimal | ⟨-, hTypographic⟩
  · obtain ⟨d, hValue⟩ := Option.isSome_iff_exists.mp hDecimal
    obtain ⟨z, hMem, hLow, hHigh, -⟩ := decimalValue?_cases hValue
    exact .inl ⟨_, hMem, hLow, hHigh⟩
  · exact .inr (inRanges_iff.mp hTypographic)

theorem isLetter_ranges (h : isLetter c = true) : InSome allLetterRanges c.toNat := by
  unfold isLetter at h
  split at h
  · rcases isAlpha_ascii h with hUpper | hLower
    · exact ⟨(65, 90), mem_cons_self, hUpper⟩
    · exact ⟨(97, 122), mem_cons_of_mem _ mem_cons_self, hLower⟩
  · obtain ⟨r, hMem, hBounds⟩ := inRanges_iff.mp h
    exact ⟨r, mem_cons_of_mem _ (mem_cons_of_mem _ hMem), hBounds⟩

theorem isBlank_ranges (h : isBlank c = true) : InSome blankRanges c.toNat := by
  simp only [isBlank, Bool.or_eq_true, Bool.and_eq_true, decide_eq_true_eq, beq_iff_eq] at h
  simp only [InSome, blankRanges, mem_cons, not_mem_nil, or_false, or_and_right, exists_or, exists_eq_left]
  omega

/-! ## Digits, letters and blanks -/

theorem isLetter_of_isDigit (h : isDigit c = true) : isLetter c = false := by
  refine Bool.of_not_eq_true fun hLetter => ?_
  rcases isDigit_ranges h with hRange | hRange
  · exact hRange.not_of_apart (by decide +kernel) (isLetter_ranges hLetter)
  · exact hRange.not_of_apart (by decide +kernel) (isLetter_ranges hLetter)

theorem isWordStart_of_isDigit (h : isDigit c = true) : isWordStart c = false := by
  have hUnderscore : c ≠ '_' := by
    rintro rfl
    revert h
    decide
  simp [isWordStart, isLetter_of_isDigit h, hUnderscore]

theorem isBlank_of_isDigit (h : isDigit c = true) : isBlank c = false := by
  refine Bool.of_not_eq_true fun hBlank => ?_
  rcases isDigit_ranges h with hRange | hRange
  · exact hRange.not_of_apart (by decide +kernel) (isBlank_ranges hBlank)
  · exact hRange.not_of_apart (by decide +kernel) (isBlank_ranges hBlank)

theorem isBlank_of_isWordStart (h : isWordStart c = true) : isBlank c = false := by
  refine Bool.of_not_eq_true fun hBlank => ?_
  simp only [isWordStart, Bool.or_eq_true, beq_iff_eq] at h
  rcases h with hLetter | rfl
  · exact (isLetter_ranges hLetter).not_of_apart (by decide +kernel) (isBlank_ranges hBlank)
  · exact absurd hBlank (by decide)

end Scriptling.Text
