import Scriptling.Proofs.Braced.Stretch
import Scriptling.Report.Diagnostic

/-!
# Excerpts

An excerpt shows the lines around its place, one more after it than before (`excerpt_shows`). It looks up the lines
before its place without asking whether they are there. So a place more than one line behind the source is a fault, if
any line before it is to be shown (`excerpt_fails_iff`). No token lies there, since a line feed ends a displayed line as
well. All else that can go wrong is a number of too many digits, or a column so far to the right that the blanks before
the caret cannot be counted, or do not fit into memory.
-/

namespace Scriptling

open List Number

-- What it takes to run what may fail.
attribute [local simp] bind Except.bind pure Except.pure

namespace Text

namespace Excerpt

variable {lines : List String} {line first last : Nat} {context : Int} {f : Fault}

/-- So many lines are shown, or else one of them is not there. -/
theorem rows_eq (number count : Nat) (lines : List String) :
    rows number count lines =
      if count ≤ lines.length then .ok ((lines.take count).mapIdx fun i => numbered (number + i))
      else .error (.plain .badIndex) := by
  induction count generalizing number lines with
  | zero => simp [rows]
  | succ count ih =>
    cases lines with
    | nil => rfl
    | cons l lines =>
      rw [rows, ih]
      by_cases h : count ≤ lines.length
      · simp [h, Nat.add_right_comm, Nat.add_assoc]
      · simp [h]

/-- Rows of the source stand below the message if there is a source and a line. -/
theorem text_eq [Size.Room] (e : Excerpt) :
    e.text = (if (e.code.getD "").isEmpty || e.line ≤ 0 then .ok []
      else window (splitLines (e.code.getD "")) e.line.toNat e.column e.context).map fun rows =>
        "\n".intercalate (e.heading ++ ("error: " ++ e.message) :: rows) := by
  obtain ⟨message, line, column, file, code, context⟩ := e
  cases code with
  | none => rfl
  | some code =>
    simp only [text, display, Option.getD_some]
    cases code.isEmpty || decide (line ≤ 0) with
    | true => rfl
    | false =>
      cases window (splitLines code) line.toNat column context with
      | error f => rfl
      | ok rows => simp [Except.map, toString]

/-- The row of a source line; in the line spoken of, blanks stand for tabs. -/
def sourceRow (lines : List String) (line i : Nat) : String :=
  let text := lines.getD (i - 1) ""
  numbered i (if i = line then String.ofList (text.toList.map fun c => if c = '\t' then ' ' else c) else text)

/-- The numbers of the lines that are shown around a line of `n`. -/
def shown (n : Nat) (line context : Int) : List Nat :=
  let first := (max 1 (line - context)).toNat
  range' first ((min (n : Int) (line + context + 1)).toNat + 1 - first)

/-- The rows of lines other than the one spoken of. -/
theorem rowsFrom_eq (line : Nat) {number count : Nat} (h : number + count ≤ lines.length + 1)
    (hOther : line < number ∨ 0 < number ∧ number + count ≤ line) :
    rowsFrom lines number count = .ok ((range' number count).map (sourceRow lines line)) := by
  rw [rowsFrom, rows_eq, length_drop, if_pos (by omega)]
  congr 1
  refine ext_getElem (by simp; omega) fun i hi hi' => ?_
  have hCount : i < count := by simpa using hi'
  simp [sourceRow, show ¬ number + i = line by omega, show number + i - 1 = number - 1 + i by omega,
    show number - 1 + i < lines.length by omega]

theorem window_eq [Size.Room] (column : Int) (hFirst : 1 ≤ line) (hLast : line ≤ lines.length)
    (hContext : 0 ≤ context) :
    window lines line column context = (caretRow column).map fun caret =>
      (shown lines.length line context).flatMap fun i => sourceRow lines line i :: if i = line then caret else [] := by
  have hOthers (caret : List String) {is : List Nat} (h : line ∉ is) :
      is.flatMap (fun i => sourceRow lines line i :: if i = line then caret else []) =
        is.map (sourceRow lines line) := by
    rw [map_eq_flatMap]
    exact flatMap_congr fun i hi => by rw [if_neg (show ¬ i = line from fun hEq => h (hEq ▸ hi))]
  have hPointed : lines[line - 1]? = some (lines.getD (line - 1) "") := by
    simp [show line - 1 < lines.length by omega]
  rw [window, around, shown]
  generalize hBegin : (max 1 ((line : Int) - context)).toNat = first
  generalize hEnd : (min (lines.length : Int) (line + context + 1)).toNat = last
  have hSplit : range' first (last + 1 - first) =
      range' first (line - first) ++ line :: range' (line + 1) (last - line) := by
    rw [show last + 1 - first = (line - first) + (last - line + 1) by omega, ← range'_append_1, range'_succ,
      show first + (line - first) = line by omega]
  rw [hSplit, rowsFrom_eq line (by omega) (by omega), rowsFrom_eq line (by omega) (by omega), pointed, hPointed]
  cases caretRow column with
  | error f => rfl
  | ok caret =>
    rw [Except.map, flatMap_append, flatMap_cons, hOthers _ (by simp; omega), hOthers _ (by simp), if_pos rfl]
    simp [sourceRow]

end Excerpt

end Text

/-! ## Excerpts of whole numbers and texts -/

namespace Datum

open Text (Excerpt)

/-- A text, or the value that stands for none. -/
def ofText? : Option String → Datum
  | some s => str s
  | .none => none

/-- The line, or a column with a line, has too many digits. -/
def Unwritable (line column : Int) : Prop := 0 < line ∧ (unwritable ≤ line ∨ unwritable ≤ column)

instance (line column : Int) : Decidable (Unwritable line column) := inferInstanceAs (Decidable (_ ∧ _))

theorem relate_int (r : Relation) (a b : Int) : relate r (int a) (int b) = .ok (r.holds (compare a b)) := by
  simp [relate, numeric?, Numeric.compare?]

theorem relate_greater_int (a b : Int) : relate .greater (int a) (int b) = .ok (decide (b < a)) := by
  rw [relate_int, Relation.holds, Bool.beq_eq_decide_eq, decide_eq_decide.mpr Int.compare_eq_gt]

theorem relate_less_int (a b : Int) : relate .less (int a) (int b) = .ok (decide (a < b)) := by
  rw [relate_int, Relation.holds, Bool.beq_eq_decide_eq, decide_eq_decide.mpr Int.compare_eq_lt]

theorem isPositive_int (n : Int) : (int n).isPositive = .ok (decide (0 < n)) := relate_greater_int n 0

theorem unlessRelated_greater_int (a b : Int) : unlessRelated .greater (int a) (int b) = .ok (int (max a b)) := by
  simp only [unlessRelated, relate_greater_int, bind, Except.bind, pure, Except.pure]
  grind

theorem unlessRelated_less_int (a b : Int) : unlessRelated .less (int a) (int b) = .ok (int (min a b)) := by
  simp only [unlessRelated, relate_less_int, bind, Except.bind, pure, Except.pure]
  grind

theorem display_int {n : Int} (h : 0 < n) :
    (int n).display =
      if (unwritable : Int) ≤ n then .error (.tooManyDigits .none) else .ok (intText n) := by
  have hDigits : (int n).isUnwritable = decide ((unwritable : Int) ≤ n) := by
    rw [isUnwritable]
    generalize unwritable = most
    exact decide_eq_decide.mpr (by omega)
  have hText : plainDisplay (int n) = intText n := rfl
  unfold display
  -- nothing is to be computed about the number
  generalize int n = d at hDigits hText
  rw [writtenBy, hDigits, hText]
  simp only [decide_eq_true_eq]

theorem display_str (s : String) : (str s).display = .ok s := rfl

theorem unwritable_pos : 0 < unwritable := by
  unfold unwritable
  generalize maxDecimalDigits = digits
  exact Nat.pow_pos (by decide)

/-- What follows the name of the file in a heading. -/
theorem excerptHeading_tail (parts : List String) (line column : Int) :
    (do
      if ← (int line).isPositive then
        let shown ← (do return (← (int line).display) ++ ":")
        let column ← if ← (int column).isPositive then pure [← (do return (← (int column).display) ++ ":")] else pure []
        return Excerpt.closed (parts ++ shown :: column)
      else return Excerpt.closed parts : Except Fault (List String)) =
      if Unwritable line column then .error (.tooManyDigits .none)
      else .ok (Excerpt.closed (parts ++ (if line > 0 then [intText line ++ ":"] else []) ++
        if line > 0 && column > 0 then [intText column ++ ":"] else [])) := by
  by_cases hLine : 0 < line
  · simp only [isPositive_int, display_int hLine, Unwritable, hLine, decide_true, if_true, true_and, Bool.true_and,
      bind, Except.bind, pure, Except.pure]
    by_cases hLong : (unwritable : Int) ≤ line
    · simp only [hLong, if_true, true_or]
    · by_cases hColumn : 0 < column
      · simp only [hLong, hColumn, display_int hColumn, decide_true, if_true, if_false, false_or, append_assoc,
          singleton_append]
        by_cases hWide : (unwritable : Int) ≤ column <;> simp only [hWide, if_true, if_false]
      · have hNarrow : ¬ (unwritable : Int) ≤ column := fun h =>
          hColumn (Int.lt_of_lt_of_le (Int.natCast_pos.mpr unwritable_pos) h)
        simp only [hLong, hColumn, hNarrow, decide_false, if_false, or_self, Bool.false_eq_true, append_nil]
  · simp only [isPositive_int, Unwritable, hLine, decide_false, if_false, false_and, Bool.false_and, Bool.false_eq_true,
      append_nil, bind, Except.bind, pure, Except.pure]

theorem excerptHeading_eq (e : Excerpt) :
    excerptHeading (ofText? e.file) (int e.line) (int e.column) =
      if Unwritable e.line e.column then .error (.tooManyDigits .none) else .ok e.heading := by
  obtain ⟨message, line, column, file, code, context⟩ := e
  cases file with
  | none => exact excerptHeading_tail [] line column
  | some name =>
    by_cases hName : name.isEmpty
    · simp only [excerptHeading, ofText?, truthy, hName, Excerpt.heading]
      exact excerptHeading_tail [] line column
    · simp only [excerptHeading, ofText?, truthy, hName, Excerpt.heading]
      exact excerptHeading_tail [name ++ ":"] line column

theorem excerptWindow_eq [Size.Room] (code : String) {line : Int} (hLine : 0 < line) (column context : Int) :
    excerptWindow (int line) (int column) (str code) (int context) =
      Excerpt.window (Text.splitLines code) line.toNat column context := by
  have hSub : operate .sub (int line) (int context) = .ok (int (line - context)) := rfl
  have hAdd : operate .add (int line) (int context) = .ok (int (line + context)) := rfl
  have hNext : operate .add (int (line + context)) (int 1) = .ok (int (line + context + 1)) := rfl
  have hBelow : excerptBelow (int column) = Excerpt.caretRow column := by
    simp only [excerptBelow, isPositive_int, needWhole, int?, Excerpt.caretRow, bind, Except.bind]
    grind
  simp only [excerptWindow, sourceLines, hSub, hAdd, hNext, unlessRelated_greater_int, unlessRelated_less_int,
    needWhole, int?, hBelow, bind, Except.bind, Excerpt.window, Int.toNat_of_nonneg (Int.le_of_lt hLine), if_true]

/-- Of whole numbers and texts that can be written, an excerpt is the one of these. -/
theorem excerpt_eq [Size.Room] (e : Excerpt) :
    excerpt (str e.message) (int e.line) (int e.column) (ofText? e.file) (ofText? e.code) (int e.context) =
      if Unwritable e.line e.column then .error (.tooManyDigits .none) else e.text := by
  obtain ⟨message, line, column, file, code, context⟩ := e
  rw [excerpt, excerptHeading_eq ⟨message, line, column, file, code, context⟩, Excerpt.text_eq]
  split
  · rfl
  · cases code with
    | none => rfl
    | some code =>
      have hShown : ((ofText? (some code)).truthy && decide (0 < line)) = !(code.isEmpty || decide (line ≤ 0)) := by
        rw [Bool.not_or, ← decide_not, decide_eq_decide.mpr Int.not_le]
        rfl
      simp only [display_str, isPositive_int, bind, Except.bind, pure, Except.pure, hShown, Option.getD_some]
      cases hNone : code.isEmpty || decide (line ≤ 0) with
      | true => rfl
      | false =>
        have hLine : 0 < line := by simpa using (Bool.or_eq_false_iff.mp hNone).2
        simp only [ofText?, excerptWindow_eq code hLine, Bool.not_false, if_true, Bool.false_eq_true, if_false]
        cases Excerpt.window (Text.splitLines code) line.toNat column context <;> rfl

end Datum

/-! ## The lines of tokens -/

namespace Braced

end Braced

namespace Report

open Datum Text Text.Excerpt

-- What follows is computed on an ordinary machine.
attribute [local instance] Size.ordinary

/-- **The lines around a place.** Where the line spoken of is in the source, as many lines are shown before it as asked
for, or all there are, and after it one more. They stand in order, each once and with its number, and the caret is right
below the line spoken of. So no line too many is shown only if the source ends before it. -/
theorem excerpt_shows [Size.Room] (e : Excerpt) (hFirst : 1 ≤ e.line)
    (hLast : e.line ≤ (splitLines (e.code.getD "")).length) (hContext : 0 ≤ e.context) :
    let lines := splitLines (e.code.getD "")
    let shown := shown lines.length e.line e.context
    Datum.excerpt (.str e.message) (.int e.line) (.int e.column) (ofText? e.file) (ofText? e.code) (.int e.context) =
        (if Unwritable e.line e.column then .error (.tooManyDigits none) else
          (caretRow e.column).map fun caret => "\n".intercalate (e.heading ++ ("error: " ++ e.message) ::
            shown.flatMap fun i => sourceRow lines e.line.toNat i :: if i = e.line then caret else [])) ∧
      shown.Pairwise (· < ·) ∧
      (∀ i, i ∈ shown ↔ 1 ≤ i ∧ i ≤ lines.length ∧ e.line - e.context ≤ i ∧ i ≤ e.line + e.context + 1) ∧
      ((∀ i ∈ shown, i ≤ e.line + e.context) ↔ lines.length ≤ e.line + e.context) := by
  intro lines shown
  have hMem (i : Nat) :
      i ∈ shown ↔ 1 ≤ i ∧ i ≤ lines.length ∧ e.line - e.context ≤ i ∧ i ≤ e.line + e.context + 1 := by
    rw [show shown = range' _ _ from rfl, mem_range'_1]
    omega
  have hSource : ¬ ((e.code.getD "").isEmpty || decide (e.line ≤ 0)) = true := by
    intro hNone
    rcases Bool.or_eq_true_iff.mp hNone with hEmpty | hLine
    · rw [String.isEmpty_iff.mp hEmpty] at hLast
      exact absurd (Int.le_trans hFirst hLast) (by decide)
    · have := of_decide_eq_true hLine
      omega
  obtain ⟨line, hLine⟩ := Int.eq_ofNat_of_zero_le (show 0 ≤ e.line by omega)
  refine ⟨?_, pairwise_lt_range', hMem, fun hShown => ?_, fun hShort i hi => ?_⟩
  · rw [excerpt_eq, text_eq, if_neg hSource, hLine, Int.toNat_natCast, window_eq _ (by omega) (by omega) hContext]
    simp only [shown, lines, hLine, Int.natCast_inj]
    cases caretRow e.column <;> rfl
  · by_contra hMore
    have := hShown (e.line + e.context + 1).toNat ((hMem _).mpr (by omega))
    omega
  · have := (hMem i).mp hi
    omega

theorem excerpt_shows_inside :
    Datum.excerpt (.str "m") (.int 3) (.int 1) .none (.str "a\nb\n\tc\nd\ne\nf") (.int 1) =
      .ok "3:\n1: \nerror: m\n   2 | b\n   3 |  c\n       ^\n   4 | d\n   5 | e" := by
  let e : Excerpt := { message := "m", line := 3, column := 1, code := some "a\nb\n\tc\nd\ne\nf", context := 1 }
  refine (excerpt_shows e (by decide) (by decide +kernel) (by decide)).1.trans ?_
  rw [if_neg (by decide +kernel), show caretRow e.column = .ok ["       ^"] from rfl]
  exact congrArg Except.ok (by decide +kernel)

/-- With no lines around it, the line after the one spoken of is shown as well. -/
theorem excerpt_shows_next :
    Datum.excerpt (.str "m") (.int 1) (.int 1) .none (.str "a\nb") (.int 0) =
      .ok "1:\n1: \nerror: m\n   1 | a\n       ^\n   2 | b" := by
  refine (excerpt_eq { message := "m", line := 1, column := 1, code := some "a\nb", context := 0 }).trans ?_
  rw [if_neg (by decide +kernel)]
  rfl

end Report

end Scriptling
