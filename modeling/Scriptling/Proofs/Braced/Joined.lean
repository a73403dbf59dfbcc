import Scriptling.Proofs.Braced.Layout

/-!
# Joined texts

A text that ends inside no string and no comment may be followed by a blank and any other text: its segments are
the same as before, so the scan of the whole is the scan of the one and then of the other (`scanFrom_append`).
Behind a line feed the second text is scanned as it is alone, only on later lines (`scan_append_line`).
-/

namespace Scriptling.Braced

open List

variable {g : Char} {cs : List Char}

open Text

/-! ## Scans one after another -/

/-- Whether a text ends inside a string or comment that takes in this character. -/
def endsOpen (next : Char) : List Char → Bool
  | [] => false
  | c :: cs => (segment c cs).reaches next || endsOpen next (segment c cs).rest
termination_by cs => cs.length
decreasing_by exact segment_rest_lt c cs

/-- A scan and then another: the end of the first text is no end any more. -/
def Scan.join (first later : Scan) : Scan := later.behind first.tokens.dropLast first.notices

theorem Scan.behind_join {ts : List Token} {notices : List Notice} {first : Scan} (h : first.tokens ≠ [])
    (later : Scan) : (first.behind ts notices).join later = (first.join later).behind ts notices := by
  simp [join, behind, dropLast_append_of_ne_nil h]

/-- **Scanning is compositional.** Behind a text that does not end inside a string or a comment, and a blank, any
text is scanned as it is from that line on. -/
theorem scanFrom_append (hGap : isGap g = true) (line : Nat) (cs rest : List Char) (hOpen : endsOpen g cs = false)
    (hStopped : (scanFrom line cs).stopped = none) :
    scanFrom line (cs ++ g :: rest) = (scanFrom line cs).join (scanFrom (line + newlines (cs ++ [g])) rest) := by
  induction hStopped using scanFrom_induction with
  | nil line =>
    rw [nil_append, scanFrom_skipped (segment_gap hGap rest), scanFrom]
    rfl
  | cons line c cs ts notices _ hLater hSome ih =>
    rw [endsOpen, Bool.or_eq_false_iff] at hOpen
    have hWhole := scanFrom_yields (segment_append hGap c hOpen.1 rest) hSome
    obtain ⟨later, last, hTokens, -⟩ := scanFrom_tokens _ _ hLater
    have hLines : newlines (c :: cs ++ [g]) = newlines (segment c cs).text + newlines ((segment c cs).rest ++ [g]) := by
      rw [← newlines_append, ← append_assoc, segment_text]
    rw [cons_append, hWhole, scanFrom_yields rfl hSome, Scan.behind_join (by simp [hTokens]), hLines,
      ← Nat.add_assoc, ← ih hOpen.2]
    rfl

/-! ## Texts that end inside a segment -/

/-- The segment is a string or a block comment without its end. -/
def Segment.Open (s : Segment) : Prop :=
  ∃ body, s.text = '"' :: body ∧ '"' ∉ body ∨ s.text = '/' :: '*' :: body ∧ ¬ ['*', '/'] <:+: body

/-- The text ends inside a string or a block comment: its last segment by longest match lacks its end. -/
def EndsInside (cs : List Char) : Prop :=
  ∃ (before : List Segment) (s : Segment), Segmentation cs (before ++ [s]) ∧ s.Open

/-- At the end of a text, a segment takes in a line feed exactly if it lacks its end. -/
theorem Segment.reaches_newline_iff {s : Segment} (h : Lexical s.content s.text) (hRest : s.rest = []) :
    s.reaches '\n' = true ↔ s.Open := by
  obtain ⟨content, text, rest⟩ := s
  obtain rfl : rest = [] := hRest
  constructor
  · intro hReaches
    simp only [Segment.reaches, isEmpty_nil, Bool.true_and, bne_self_eq_false, Bool.and_false, Bool.or_false,
      Bool.or_eq_true, Bool.and_eq_true, beq_iff_eq] at hReaches
    rcases hReaches with rfl | ⟨⟨rfl, hMark⟩, hEnd⟩
    · cases h with
      | openString hBody => exact ⟨_, .inl ⟨rfl, hBody⟩⟩
    · cases h with
      | blank | lineComment => simp at hMark
      | @blockComment body _ =>
        have hSuffix := suffix_append body ['*', '/']
        rw [← isSuffixOf_iff_suffix] at hSuffix
        simp [hSuffix] at hEnd
      | openComment hBody => exact ⟨_, .inr ⟨rfl, hBody⟩⟩
  · rintro ⟨body, ⟨hText, hBody⟩ | ⟨hText, hBody⟩⟩
    · obtain rfl : text = _ := hText
      obtain rfl : content = _ := h.content_unique (.openString hBody)
      rfl
    · obtain rfl : text = _ := hText
      obtain rfl : content = _ := h.content_unique (.openComment hBody)
      have hSuffix : List.isSuffixOf ['*', '/'] body = false := Bool.of_not_eq_true fun hEnd =>
        hBody (isSuffixOf_iff_suffix.mp hEnd).isInfix
      simp [Segment.reaches, hSuffix]

theorem Segment.rest_of_reaches {next : Char} (s : Segment) (h : s.reaches next = true) : s.rest = [] := by
  rw [Segment.reaches, Bool.and_eq_true] at h
  simpa using h.1

theorem segments_eq_nil (h : segments cs = []) : cs = [] := by
  cases cs with
  | nil => rfl
  | cons c cs =>
    rw [segments] at h
    cases h

theorem endsOpen_newline_iff (cs : List Char) : endsOpen '\n' cs = true ↔ EndsInside cs := by
  simp only [EndsInside, segmentation_iff]
  induction cs using segments.induct with
  | case1 => simp [endsOpen, segments]
  | case2 c cs ih =>
    rw [endsOpen, Bool.or_eq_true, ih, segments]
    constructor
    · rintro (hReaches | ⟨before, s, hLater, hOpen⟩)
      · have hRest : (segment c cs).rest = [] := (segment c cs).rest_of_reaches hReaches
        exact ⟨[], _, by rw [hRest, segments]; rfl,
          (Segment.reaches_newline_iff (segment_lexical c cs) hRest).mp hReaches⟩
      · exact ⟨_ :: before, s, by rw [← hLater]; rfl, hOpen⟩
    · rintro ⟨before, s, hSplit, hOpen⟩
      cases before with
      | nil =>
        obtain ⟨rfl, hLater⟩ := List.cons.inj hSplit
        exact .inl ((Segment.reaches_newline_iff (segment_lexical c cs) (segments_eq_nil hLater.symm)).mpr hOpen)
      | cons b before => exact .inr ⟨before, s, (List.cons.inj hSplit).2, hOpen⟩

/-! ## Scans on later lines -/

/-- A scan with its tokens on other lines. -/
def Scan.relocate (g : Int → Int) (r : Scan) : Scan := { r with tokens := r.tokens.map (Token.relocate g) }

theorem Segment.yield?_moved (s : Segment) (line n : Nat) :
    s.yield? (line + n) = (s.yield? line).map fun y => (y.1.map (Token.relocate (· + (n : Int))), y.2) := by
  obtain ⟨content, text, rest⟩ := s
  cases content with
  | number =>
    simp only [Segment.yield?, Option.map_map]
    congr 1
  | _ => simp [Segment.yield?, Token.relocate]

theorem scanFrom_moved (line n : Nat) (cs : List Char) :
    scanFrom (line + n) cs = (scanFrom line cs).relocate (· + (n : Int)) := by
  induction line, cs using scanFrom.induct with
  | case1 line =>
    rw [scanFrom, scanFrom]
    simp [Scan.relocate, Token.relocate, Token.eof]
  | case2 line c cs s line' hNone =>
    simp only [s, line'] at hNone
    have hMoved := (segment c cs).yield?_moved (line + newlines (segment c cs).text) n
    rw [hNone, Option.map_none, Nat.add_right_comm] at hMoved
    rw [scanFrom, scanFrom]
    simp only [hNone, hMoved]
    rfl
  | case3 line c cs s line' ts notices hSome ih =>
    simp only [s, line'] at hSome ih
    have hMoved := (segment c cs).yield?_moved (line + newlines (segment c cs).text) n
    rw [hSome, Option.map_some, Nat.add_right_comm] at hMoved
    rw [scanFrom_yields rfl hSome, scanFrom_yields rfl hMoved, Nat.add_right_comm, ih]
    simp [Scan.behind, Scan.relocate]

/-- **Scanning is compositional over lines.** Behind a text that scanning gets through and that does not end inside
a string or a block comment, and a line feed, any text is scanned as it is alone: its tokens are moved by the lines
of the first text, what is noticed is noticed in order, and scanning stops where it stops in the second text. -/
theorem scan_append_line (a b : String) (hStopped : (scan a).stopped = none) (hInside : ¬ EndsInside a.toList) :
    ∃ ts : List Token, (scan a).tokens = ts ++ [Token.eof (1 + newlines a.toList : Nat)] ∧
      scan (a ++ "\n" ++ b) =
        ⟨ts ++ (scan b).tokens.map (Token.relocate (· + (1 + newlines a.toList : Nat))),
          (scan a).notices ++ (scan b).notices, (scan b).stopped⟩ := by
  obtain ⟨stretches, hSplitting⟩ := scanFrom_splits 1 a.toList hStopped
  have hOpen : endsOpen '\n' a.toList = false :=
    Bool.of_not_eq_true fun h => hInside ((endsOpen_newline_iff a.toList).mp h)
  have hSource : (a ++ "\n" ++ b).toList = a.toList ++ '\n' :: b.toList := by simp
  have hLines : 1 + newlines (a.toList ++ ['\n']) = 1 + (1 + newlines a.toList) := by
    rw [newlines_append, Nat.add_comm 1 (newlines a.toList)]
    rfl
  refine ⟨_, hSplitting.tokens, ?_⟩
  rw [scan, hSource, scanFrom_append rfl 1 _ _ hOpen hStopped, hLines, scanFrom_moved, Scan.join, hSplitting.tokens,
    dropLast_concat]
  rfl

/-- A number that a point follows, a string over two lines and a line comment, and then a text that begins with
digits and has a character that begins nothing. -/
theorem scan_append_line_unfinished :
    let a := "x \"p\nq\" @ 1. //"
    let b := "5 /*\n*/ #"
    (scan a).stopped = none ∧ ¬ EndsInside a.toList ∧
    ∃ ts : List Token, (scan a).tokens = ts ++ [Token.eof (1 + newlines a.toList : Nat)] ∧
      scan (a ++ "\n" ++ b) =
        ⟨ts ++ (scan b).tokens.map (Token.relocate (· + (1 + newlines a.toList : Nat))),
          (scan a).notices ++ (scan b).notices, (scan b).stopped⟩ := by
  intro a b
  have hStopped : (scan a).stopped = none := by decide +kernel
  have hInside : ¬ EndsInside a.toList := by
    rw [← endsOpen_newline_iff]
    decide +kernel
  exact ⟨hStopped, hInside, scan_append_line a b hStopped hInside⟩

end Scriptling.Braced
