import Scriptling.Proofs.Braced.Recovery
import Scriptling.Proofs.Braced.Stretch

/-!
# Layout

What stands between the tokens of a text does not matter. The text of a token, followed by a blank or by the
end, is scanned as that token again, and blanks and comments in front of a text only move it to a later line.
So the tokens of a text may be laid out afresh, with anything between them that begins with a blank: the
tokens are the same up to their lines, and so are the statements and the diagnostics (`layout_irrelevant`).
-/

namespace Scriptling.Braced

open List

variable {w rest : List Char} {c : Char} {ts : List Token}

open Text Braced.Parser

/-! ## Blanks and comments -/

/-- Blanks, comments that end with their line, and closed block comments. -/
inductive Layout : List Char → Prop where
  | nil : Layout []
  | blank {c : Char} {w : List Char} : isGap c = true → Layout w → Layout (c :: w)
  | lineComment {body w : List Char} : '\n' ∉ body → Layout w → Layout ('/' :: '/' :: (body ++ '\n' :: w))
  | blockComment {body w : List Char} : ¬ ['*', '/'] <:+: body → Layout w →
      Layout ('/' :: '*' :: (body ++ '*' :: '/' :: w))

/-- A text is empty or begins with a blank. -/
def GapFirst (w : List Char) : Prop := ∀ c ∈ w.head?, isGap c = true

instance (w : List Char) : Decidable (GapFirst w) :=
  decidable_of_iff (w.head?.all isGap = true) (by simp [GapFirst, Option.all_eq_true])

/-- Blanks and comments that may follow a token. -/
structure Separator (w : List Char) : Prop where
  layout : Layout w
  gapFirst : GapFirst w

theorem Separator.of_blanks (h : w.all isGap = true) : Separator w := by
  rw [all_eq_true] at h
  refine ⟨?_, fun c hc => h c (mem_of_head? hc)⟩
  induction w with
  | nil => exact .nil
  | cons c w ih => exact .blank (h c (by simp)) (ih fun d hd => h d (by simp [hd]))

/-- What a segment that yields nothing leaves to scan. -/
theorem scanFrom_skipped {cs text : List Char} (h : segment c cs = ⟨.skipped, text, rest⟩) (line : Nat) :
    scanFrom line (c :: cs) = scanFrom (line + newlines text) rest := by
  rw [scanFrom]
  simp [h, Segment.yield?]

/-- **Layout only moves a text to a later line.** -/
theorem scanFrom_layout (h : Layout w) (line : Nat) (rest : List Char) :
    scanFrom line (w ++ rest) = scanFrom (line + newlines w) rest := by
  induction h generalizing line with
  | nil => rfl
  | @blank c w hGap _ ih =>
    rw [cons_append, scanFrom_skipped (segment_gap hGap _), ih, Nat.add_assoc, ← newlines_append]
    rfl
  | @lineComment body w hBody _ ih =>
    obtain ⟨hTake, hDrop⟩ := takeWhile_append_ne hBody (w ++ rest)
    have hSegment : segment '/' ('/' :: (body ++ '\n' :: (w ++ rest))) =
        ⟨.skipped, '/' :: '/' :: body, '\n' :: (w ++ rest)⟩ := by
      rw [segment_slash, afterSlash, hTake, hDrop]
    have hLines : newlines ('/' :: '/' :: (body ++ '\n' :: w)) =
        newlines ('/' :: '/' :: body) + (newlines ['\n'] + newlines w) := by
      rw [← newlines_append, ← newlines_append]
      rfl
    simp only [cons_append, append_assoc]
    rw [scanFrom_skipped hSegment, scanFrom_skipped (segment_gap rfl _), ih, hLines]
    simp only [Nat.add_assoc]
  | @blockComment body w hBody _ ih =>
    have hSegment : segment '/' ('*' :: (body ++ '*' :: '/' :: (w ++ rest))) =
        ⟨.skipped, '/' :: '*' :: (body ++ ['*', '/']), w ++ rest⟩ := by
      rw [segment_slash, afterSlash, closeComment_of_body hBody]
    have hLines : newlines ('/' :: '*' :: (body ++ '*' :: '/' :: w)) =
        newlines ('/' :: '*' :: (body ++ ['*', '/'])) + newlines w := by
      rw [← newlines_append]
      simp
    simp only [cons_append, append_assoc]
    rw [scanFrom_skipped hSegment, ih, hLines, Nat.add_assoc]

/-! ## The text of a token -/

/-- The text of the segment, followed by a blank or the end, is that segment again. -/
def Segment.Again (s : Segment) : Prop :=
  s.content.HasToken → ∀ rest, GapFirst rest →
    ∃ c cs, s.text = c :: cs ∧ segment c (cs ++ rest) = ⟨s.content, s.text, rest⟩

/-- **The text of a token, followed by a blank or the end, is that token again.** -/
theorem segment_again (c : Char) (cs : List Char) : (segment c cs).Again := by
  intro hToken rest hRest
  obtain ⟨tail, hText, hSegment⟩ := segment_cut ( nil_prefix (l := (segment c cs).rest))
  rw [append_nil] at hSegment
  refine ⟨c, tail, hText, ?_⟩
  cases rest with
  | nil => rw [append_nil, hSegment]
  | cons g rest =>
    have hClosed : (segment c tail).reaches g = false := by
      rw [hSegment, Segment.reaches]
      cases hContent : (segment c cs).content with
      | skipped | unexpected | unterminated => exact (hContent ▸ hToken).elim
      | token | word | number | string => rfl
    rw [segment_append (hRest g rfl) c hClosed, hSegment]
    rfl

/-! ## Tokens laid out afresh -/

/-- A scan with one more token in front. -/
def Scan.after (t : Token) (later : Scan) : Scan := { later with tokens := t :: later.tokens }

/-- The text of the token, followed by a blank or the end, is scanned as that token. -/
def Token.Rescans (t : Token) : Prop :=
  ∀ (line : Nat) (rest : List Char), GapFirst rest →
    ∃ moved : Int, scanFrom line (t.lexeme.toList ++ rest) =
      (scanFrom (line + newlines t.lexeme.toList) rest).after { t with line := moved }

theorem Segment.Again.rescans {s : Segment} (h : s.Again) {line : Nat} {notices : List Notice}
    (hYield : s.yield? line = some (ts, notices)) : ∀ t ∈ ts, t.Rescans := by
  by_cases hContent : s.content.HasToken
  · obtain ⟨t, rfl, -, hLexeme, -, hAgain⟩ := s.yield?_token hContent hYield
    rw [forall_mem_singleton]
    intro line' rest hRest
    obtain ⟨c, cs, hText, hSegment⟩ := h hContent rest hRest
    have hChars : t.lexeme.toList = c :: cs := by rw [hLexeme, String.toList_ofList, hText]
    refine ⟨(line' + newlines s.text : Nat), ?_⟩
    rw [hChars, cons_append, scanFrom, hSegment]
    simp only [hAgain]
    rw [hText]
    rfl
  · obtain ⟨content, text, rest⟩ := s
    cases content with
    | skipped | unexpected | unterminated =>
      cases hYield
      simp
    | _ => exact absurd trivial hContent

theorem scanFrom_rescans (line : Nat) (cs : List Char) :
    ∀ t ∈ (scanFrom line cs).tokens, t.kind ≠ .endOfFile → t.Rescans := by
  induction line, cs using scanFrom.induct with
  | case1 line =>
    rw [scanFrom]
    simp [Token.eof]
  | case2 line c cs s line' hNone =>
    simp only [s, line'] at hNone
    rw [scanFrom]
    simp [hNone]
  | case3 line c cs s line' ts notices hSome ih =>
    simp only [s, line'] at hSome ih
    rw [scanFrom]
    simp only [hSome]
    intro t ht hKind
    rcases mem_append.mp ht with ht | ht
    · exact (segment_again c cs).rescans hSome t ht
    · exact ih t ht hKind

/-- The texts of tokens, each followed by its separator. -/
def interleave : List Token → List (List Char) → List Char
  | t :: ts, w :: ws => t.lexeme.toList ++ (w ++ interleave ts ws)
  | _, _ => []

@[simp] theorem interleave_nil_left (ws : List (List Char)) : interleave [] ws = [] := by cases ws <;> rfl

@[simp] theorem interleave_nil_right (ts : List Token) : interleave ts [] = [] := by cases ts <;> rfl

/-- Tokens that are the same up to their lines. -/
def SameTokens (ts us : List Token) : Prop := ts.map (Token.relocate fun _ => 0) = us.map (Token.relocate fun _ => 0)

theorem SameTokens.signatures {us : List Token} (h : SameTokens ts us) :
    ts.map (fun t => (t.kind, t.lexeme, t.literal)) = us.map (fun t => (t.kind, t.lexeme, t.literal)) := by
  simpa [Function.comp_def, Token.relocate] using congrArg (List.map fun t => (t.kind, t.lexeme, t.literal)) h

theorem scanFrom_interleave {gaps : List (List Char)} (hTokens : ∀ t ∈ ts, t.Rescans) (hCount : gaps.length = ts.length)
    (hGaps : ∀ w ∈ gaps, Separator w) (hInner : ∀ w ∈ gaps.dropLast, w ≠ []) (line : Nat) :
    ∃ us last, scanFrom line (interleave ts gaps) = ⟨us ++ [.eof last], [], none⟩ ∧ SameTokens us ts := by
  induction ts generalizing gaps line with
  | nil => exact ⟨[], line, by rw [interleave_nil_left, scanFrom]; rfl, rfl⟩
  | cons t ts ih =>
    obtain _ | ⟨w, ws⟩ := gaps
    · cases hCount
    have hSeparator := hGaps w (by simp)
    have hGapFirst : GapFirst (w ++ interleave ts ws) := by
      cases ws with
      | nil =>
        rw [interleave_nil_right, append_nil]
        exact hSeparator.gapFirst
      | cons w' ws' =>
        obtain ⟨c, w, rfl⟩ := exists_cons_of_ne_nil (hInner w (by simp))
        exact hSeparator.gapFirst
    obtain ⟨moved, hFirst⟩ := hTokens t (by simp) line _ hGapFirst
    obtain ⟨us, last, hScan, hSame⟩ := @ih ws (fun u hu => hTokens u (by simp [hu]))
      (by simpa using hCount) (fun v hv => hGaps v (by simp [hv]))
      (fun v hv => hInner v (by cases ws <;> simp_all)) (line + newlines t.lexeme.toList + newlines w)
    refine ⟨{ t with line := moved } :: us, last, ?_, ?_⟩
    · rw [interleave, hFirst, scanFrom_layout hSeparator.layout, hScan]
      rfl
    · rw [SameTokens, map_cons, map_cons, hSame]
      rfl

/-! ## The same program -/

/-- Statements that are the same up to the lines of their tokens. -/
def SameStatements (ss us : List Stmt) : Prop := ss.map (Stmt.relocate fun _ => 0) = us.map (Stmt.relocate fun _ => 0)

/-- Diagnostics that are the same up to their lines. -/
def SameDiagnostics (ds es : List Diagnostic) : Prop :=
  ds.map (Diagnostic.relocate fun _ => 0) = es.map (Diagnostic.relocate fun _ => 0)

theorem parse_sameTokens {us rest : List Token} {ss : List Stmt} {ds : List Diagnostic} (h : SameTokens us ts)
    (hParse : parse ts = ⟨.ok ss, rest, ds⟩) :
    ∃ ss' rest' ds', parse us = ⟨.ok ss', rest', ds'⟩ ∧ SameStatements ss' ss ∧ SameDiagnostics ds' ds := by
  have hReply := parse_relocate (fun _ => 0) us
  rw [h, parse_relocate, hParse] at hReply
  rcases hOther : parse us with ⟨ss' | _ | _ | _, rest', ds'⟩ <;>
    simp only [hOther, Reply.relocate, Ending.map, Reply.mk.injEq, Ending.ok.injEq, reduceCtorEq, false_and]
      at hReply
  exact ⟨ss', rest', ds', rfl, hReply.1.symm, hReply.2.2.symm⟩

/-- **Layout never changes a program.** Take the tokens of a text, and lay their texts out afresh: blanks and
comments in front, and after each token a separator, which begins with a blank and may be missing after the
last. Scanning that gives the same kinds, texts and values, and parsing it gives the same statements and the
same diagnostics up to lines. -/
theorem layout_irrelevant (source : String) (h : (scan source).stopped = none) (first : List Char)
    (gaps : List (List Char)) (hFirst : Layout first) (hGaps : ∀ w ∈ gaps, Separator w)
    (hInner : ∀ w ∈ gaps.dropLast, w ≠ []) (hCount : gaps.length + 1 = (scan source).tokens.length) :
    let tokens := (scan source).tokens
    let relaid := scan (String.ofList (first ++ interleave tokens.dropLast gaps))
    relaid.stopped = none ∧
    relaid.tokens.map (fun t => (t.kind, t.lexeme, t.literal)) =
      tokens.map (fun t => (t.kind, t.lexeme, t.literal)) ∧
    ∃ ss ss' rest rest' ds ds', parse tokens = ⟨.ok ss, rest, ds⟩ ∧
      parse relaid.tokens = ⟨.ok ss', rest', ds'⟩ ∧ SameStatements ss' ss ∧ SameDiagnostics ds' ds := by
  intro tokens relaid
  obtain ⟨body, last, ss, ds, hTokens, hScanned, hParsed⟩ := exists_parse_scan h
  have hEnd : ∀ t ∈ body, t.kind ≠ .endOfFile := fun t ht => (hScanned t ht).kind_ne
  obtain ⟨us, last', hRelaid, hSame⟩ : ∃ us last', relaid = ⟨us ++ [.eof last'], [], none⟩ ∧
      SameTokens us body := by
    have hRescans : ∀ t ∈ body, t.Rescans := fun t ht =>
      scanFrom_rescans 1 source.toList t (by rw [← scan, hTokens]; simp [ht]) (hEnd t ht)
    obtain ⟨us, last', hScan, hSame⟩ := scanFrom_interleave hRescans (by simpa [hTokens] using hCount)
      hGaps hInner (1 + newlines first)
    refine ⟨us, last', ?_, hSame⟩
    simp only [relaid, tokens, scan, String.toList_ofList]
    rw [scanFrom_layout hFirst, ← scan, hTokens, dropLast_concat, hScan]
  have hSameAll : SameTokens relaid.tokens tokens := by
    simp only [SameTokens, tokens, hRelaid, hTokens, map_append]
    rw [hSame]
    rfl
  refine ⟨by rw [hRelaid], hSameAll.signatures, ?_⟩
  obtain ⟨ss', rest', ds', hOther, hStatements, hDiagnostics⟩ := parse_sameTokens hSameAll hParsed
  exact ⟨ss, ss', _, rest', ds, ds', hParsed, hOther, hStatements, hDiagnostics⟩

/-- A number with a point, slashes before comments, and an operator of two characters. -/
theorem layout_irrelevant_crowded :
    let source := "x=6/2.5!=y;"
    let tokens := (scan source).tokens
    let gaps := [" ", " /* ** */", "\t", " // a\n", "\r\n", " ", "\n", ""].map String.toList
    let relaid := scan (String.ofList ("// b\n".toList ++ interleave tokens.dropLast gaps))
    (scan source).stopped = none ∧ relaid.stopped = none ∧
    relaid.tokens.map (fun t => (t.kind, t.lexeme, t.literal)) =
      tokens.map (fun t => (t.kind, t.lexeme, t.literal)) ∧
    ∃ ss ss' rest rest' ds ds', parse tokens = ⟨.ok ss, rest, ds⟩ ∧
      parse relaid.tokens = ⟨.ok ss', rest', ds'⟩ ∧ SameStatements ss' ss ∧ SameDiagnostics ds' ds := by
  intro source tokens gaps relaid
  have hStopped : (scan source).stopped = none := by decide +kernel
  have hFirst : Layout "// b\n".toList := @Layout.lineComment [' ', 'b'] [] (by decide) .nil
  have hLine : Layout "// a\n".toList := @Layout.lineComment [' ', 'a'] [] (by decide) .nil
  have hBlock : Layout "/* ** */".toList := @Layout.blockComment [' ', '*', '*', ' '] [] (by decide) .nil
  have hGaps : ∀ w ∈ gaps, Separator w := by
    simp only [gaps, map_cons, map_nil, forall_mem_cons]
    refine ⟨.of_blanks (by decide), ⟨.blank rfl hBlock, by decide⟩, .of_blanks (by decide),
      ⟨.blank rfl hLine, by decide⟩, .of_blanks (by decide), .of_blanks (by decide), .of_blanks (by decide),
      .of_blanks (by decide), by simp⟩
  exact ⟨hStopped, layout_irrelevant source hStopped _ gaps hFirst hGaps (by decide) (by decide +kernel)⟩

end Scriptling.Braced
