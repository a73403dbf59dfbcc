import Scriptling.Proofs.Braced.LongestMatch
import Scriptling.Proofs.Logic
import Scriptling.Script.Source

/-!
# When scanning stops

Scanning stops at one thing only: a number with a digit that has no decimal value, such as a superscript. Digits
like that are harmless in words, strings and comments. Up to the number everything is scanned as if the text ended
there, since cutting a text between two segments leaves the segments before the cut as they are.
-/

namespace Scriptling.Braced

variable {cs : List Char} {line : Nat}

open Text
open String (ofList toList_ofList)
open Segment (text yield?)

/-- A number without a value: one of its digits is no decimal digit. -/
def Segment.Valueless (s : Segment) : Prop := s.content = .number ∧ ∃ d ∈ s.text, isDigit d = true ∧ isDecimal d = false

theorem Segment.yield?_eq_none_iff {s : Segment} (h : Lexical s.content s.text) (line : Nat) :
    s.yield? line = none ↔ s.Valueless := by
  obtain ⟨content, text, rest⟩ := s
  cases content with
  | number =>
    simp only [yield?, Option.map_eq_none_iff, Segment.Valueless, true_and]
    rcases h.readFloat?_cases with ⟨hAll, x, hRead, -⟩ | ⟨hDigit, hNone⟩
    · refine ⟨fun hNone => by simp [hRead] at hNone, ?_⟩
      rintro ⟨d, hd, hDigit, hDecimal⟩
      simp [hAll d hd hDigit] at hDecimal
    · exact ⟨fun _ => hDigit, fun _ => hNone⟩
  | _ => simp [yield?, Segment.Valueless]

theorem not_valueless_of_yield? {c : Char} {y : List Token × List Notice}
    (h : (segment c cs).yield? line = some y) : ¬ (segment c cs).Valueless := by
  intro hValueless
  rw [← Segment.yield?_eq_none_iff (segment_lexical c cs) line, h] at hValueless
  cases hValueless

/-! ## Cutting a text between segments -/

/-- The text up to the number at which scanning stops is scanned to the same tokens and notices. -/
theorem scanFrom_stopped {lexeme : String} (h : (scanFrom line cs).stopped = some lexeme) :
    ∃ (before : List Segment) (s : Segment) (after : List Segment) (last : Int),
      segments cs = before ++ s :: after ∧ (∀ b ∈ before, ¬ b.Valueless) ∧ s.Valueless ∧
      lexeme = ofList s.text ∧ scanFrom line (before.flatMap text) =
        ⟨(scanFrom line cs).tokens ++ [Token.eof last], (scanFrom line cs).notices, none⟩ := by
  induction line, cs using scanFrom.induct with
  | case1 line =>
    rw [scanFrom] at h
    cases h
  | case2 line c cs s line' hNone =>
    simp only [s, line'] at hNone
    have hScan : scanFrom line (c :: cs) = ⟨[], [], some (ofList (segment c cs).text)⟩ := by
      rw [scanFrom]
      simp only [hNone]
    rw [hScan] at h ⊢
    refine ⟨[], segment c cs, _, line, by rw [segments]; rfl, by simp,
      (Segment.yield?_eq_none_iff (segment_lexical c cs) _).mp hNone, (Option.some.inj h).symm, ?_⟩
    rw [List.flatMap_nil, scanFrom]
    rfl
  | case3 line c cs s line' ts notices hSome ih =>
    simp only [s, line'] at hSome ih
    have hScan := scanFrom_yields rfl hSome
    rw [hScan] at h ⊢
    obtain ⟨before, s, after, last, hSegments, hBefore, hStop, hLexeme, hCut⟩ := ih h
    have hFront : before.flatMap text <+: (segment c cs).rest := by
      obtain ⟨-, hRest, -⟩ := (hSegments ▸ segmentation_segments (segment c cs).rest).split
      exact ⟨_, hRest.symm⟩
    obtain ⟨tail, hText, hSegment⟩ := segment_cut hFront
    refine ⟨segment c cs :: before, s, after, last, by rw [segments, hSegments]; rfl,
      List.forall_mem_cons.mpr ⟨not_valueless_of_yield? hSome, hBefore⟩, hStop, hLexeme, ?_⟩
    have hInput : (segment c cs :: before).flatMap text = c :: (tail ++ before.flatMap text) := by
      rw [List.flatMap_cons, hText, List.cons_append]
    rw [hInput, scanFrom_yields hSegment hSome, hCut]
    simp [Scan.behind]

theorem scanFrom_finished (h : (scanFrom line cs).stopped = none) : ∀ s ∈ segments cs, ¬ s.Valueless := by
  induction h using scanFrom_induction with
  | nil line => simp [segments]
  | cons line c cs ts notices _ _ hSome ih =>
    rw [segments, List.forall_mem_cons]
    exact ⟨not_valueless_of_yield? hSome, ih⟩

/-! ## The fault of a script that does not scan -/

theorem run_forM_print {α : Type} (text : α → String) (items : List α) (m : Script.Machine) :
    ∃ m', (items.forM fun item => Script.Run.print (text item)).run m = (.ok (), m') := by
  induction items generalizing m with
  | nil => exact ⟨m, rfl⟩
  | cons item items ih =>
    obtain ⟨m', hRun⟩ := ih _
    exact ⟨m', (run_bind_of_ok rfl).trans hRun⟩

/-- A text on which scanning stops is no script: what was noticed is printed, and the number is a wrong value. -/
theorem statementsOf_stopped {source lexeme : String} (h : (scan source).stopped = some lexeme)
    (m : Script.Machine) :
    ∃ m', (Script.statementsOf source).run m = (.error (.fault (.floatLiteral (Text.quoted lexeme))), m') := by
  obtain ⟨m', hRun⟩ := run_forM_print (fun n : Notice => n.message ++ "\n") (scan source).notices m
  refine ⟨m', (run_bind_of_ok hRun).trans ?_⟩
  rw [h]
  rfl

/-- **Exactly when scanning stops.** It stops if and only if some number of the segmentation by longest match has a
digit that is no decimal digit. It does so at the first such number, with the tokens and the notices of the text cut
before that number, and what is reported is a wrong value. -/
theorem scan_stops_iff (source : String) :
    ((scan source).stopped ≠ none ↔
      ∃ segments : List Segment, Segmentation source.toList segments ∧ ∃ s ∈ segments, s.Valueless) ∧
    ∀ lexeme, (scan source).stopped = some lexeme →
      ∃ (before : List Segment) (s : Segment) (after : List Segment),
        Segmentation source.toList (before ++ s :: after) ∧ (∀ b ∈ before, ¬ b.Valueless) ∧ s.Valueless ∧
        lexeme = String.ofList s.text ∧
        (∃ last : Int, scan (String.ofList (before.flatMap Segment.text)) =
          ⟨(scan source).tokens ++ [Token.eof last], (scan source).notices, none⟩) ∧
        ∃ fault : Fault, fault.kind = .wrongValue ∧
          ∀ machine, ∃ machine', (Script.statementsOf source).run machine = (.error (.fault fault), machine') := by
  constructor
  · constructor
    · intro hStopped
      obtain ⟨lexeme, hLexeme⟩ := Option.ne_none_iff_exists'.mp hStopped
      obtain ⟨before, s, after, -, hSegments, -, hValueless, -⟩ := scanFrom_stopped hLexeme
      exact ⟨_, segmentation_segments source.toList, s, by simp [hSegments], hValueless⟩
    · rintro ⟨ss, hSegmentation, s, hMem, hValueless⟩ hStopped
      rw [segmentation_iff.mp hSegmentation] at hMem
      exact scanFrom_finished hStopped s hMem hValueless
  · intro lexeme hLexeme
    obtain ⟨before, s, after, last, hSegments, hBefore, hValueless, hText, hCut⟩ := scanFrom_stopped hLexeme
    refine ⟨before, s, after, segmentation_iff.mpr hSegments.symm, hBefore, hValueless, hText, ⟨last, ?_⟩,
      .floatLiteral (Text.quoted lexeme), rfl, statementsOf_stopped hLexeme⟩
    rw [scan, String.toList_ofList]
    exact hCut

/-- A superscript is harmless in a string and a comment, but not in the fraction of a number. -/
theorem scan_stops_iff_superscript :
    let source := "x = \"²\"; @ // ²\n1.5 + 2.³4 ²"
    (scan source).stopped = some "2.³4" ∧
      ∃ (before : List Segment) (s : Segment) (after : List Segment),
        Segmentation source.toList (before ++ s :: after) ∧ (∀ b ∈ before, ¬ b.Valueless) ∧ s.Valueless ∧
        "2.³4" = String.ofList s.text ∧
        (∃ last : Int, scan (String.ofList (before.flatMap Segment.text)) =
          ⟨(scan source).tokens ++ [Token.eof last], (scan source).notices, none⟩) ∧
        ∃ fault : Fault, fault.kind = .wrongValue ∧
          ∀ machine, ∃ machine', (Script.statementsOf source).run machine = (.error (.fault fault), machine') := by
  intro source
  have hStopped : (scan source).stopped = some "2.³4" := by decide +kernel
  exact ⟨hStopped, (scan_stops_iff source).2 _ hStopped⟩

end Scriptling.Braced
