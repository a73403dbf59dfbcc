import Scriptling.Proofs.Braced.Scanned

/-!
# Scanning loses nothing

A scanned text is its tokens and what stands between them. Both are stretches of the text: the text of a
token, a blank, a comment, a character that begins nothing, or a string that never ends. `scan_splits` says
that a text is its stretches in order, that the tokens and the notices of the scan are theirs, and that the
line of a token is the one on which its text ends.
-/

namespace Scriptling.Braced

open Text List

variable {rest : List Char} {line : Nat} {s : Segment}

inductive Stretch where
  | token (t : Token)
  | blank (c : Char)
  /-- A comment up to the end of its line, without the line feed. -/
  | lineComment (body : List Char)
  | blockComment (body : List Char)
  | openComment (body : List Char)
  | unexpected (c : Char)
  | openString (body : List Char)

namespace Stretch

def text : Stretch → List Char
  | token t => t.lexeme.toList
  | blank c => [c]
  | lineComment body => '/' :: '/' :: body
  | blockComment body => '/' :: '*' :: body ++ ['*', '/']
  | openComment body => '/' :: '*' :: body
  | unexpected c => [c]
  | openString body => '"' :: body

def token? : Stretch → Option Token
  | token t => some t
  | _ => none

def notice? : Stretch → Option Notice
  | unexpected c => some (.unexpected c)
  | openString _ => some .unterminated
  | _ => none

/-- A stretch that ends where it should, with `rest` after it. -/
inductive Before : Stretch → List Char → Prop where
  | token {t rest} : t.Scanned → t.lexeme.toList ≠ [] → Before (.token t) rest
  | blank {c rest} : c ∈ [' ', '\r', '\t', '\n'] → Before (.blank c) rest
  | lineComment {body rest} : '\n' ∉ body → rest = [] ∨ rest.head? = some '\n' → Before (.lineComment body) rest
  | blockComment {body rest} : ¬ ['*', '/'] <:+: body → Before (.blockComment body) rest
  | openComment {body} : ¬ ['*', '/'] <:+: body → Before (.openComment body) []
  | unexpected {c rest} : beginsNothing c → Before (.unexpected c) rest
  | openString {body} : '"' ∉ body → Before (.openString body) []

/-- Every stretch ends where it should, with the text of the later ones after it. -/
def Proper : List Stretch → Prop
  | [] => True
  | s :: later => s.Before (later.flatMap text) ∧ Proper later

end Stretch

/-! ## The stretch of a segment -/

/-- A longest match with one more character is of no class. -/
theorem Segment.Longest.not_lexical (h : s.Longest) {d : Char} {more : List Char}
    (hRest : s.rest = d :: more) (content : Content) : ¬ Lexical content (s.text ++ [d]) := by
  intro hLexical
  have hLength := h.longest hLexical ⟨more, by simp [hRest]⟩
  rw [length_append, length_singleton] at hLength
  omega

def Content.HasToken : Content → Prop
  | .skipped | .unexpected | .unterminated => False
  | _ => True

/-- A segment with a token yields that token, wherever the segment stands and whatever follows it. -/
theorem Segment.yield?_token {ts : List Token} {notices : List Notice}
    (hContent : s.content.HasToken) (hYield : s.yield? line = some (ts, notices)) :
    ∃ t : Token, ts = [t] ∧ notices = [] ∧ t.lexeme = String.ofList s.text ∧ t.line = line ∧
      ∀ (line' : Nat) (rest : List Char),
        Segment.yield? ⟨s.content, s.text, rest⟩ line' = some ([{ t with line := line' }], []) := by
  obtain ⟨content, text, rest⟩ := s
  cases content with
  | skipped | unexpected | unterminated => exact hContent.elim
  | token | word | string =>
    cases hYield
    exact ⟨_, rfl, rfl, rfl, rfl, fun _ _ => rfl⟩
  | number =>
    obtain ⟨value, hValue, hPair⟩ := Option.map_eq_some_iff.mp hYield
    cases hPair
    refine ⟨_, rfl, rfl, rfl, rfl, fun _ _ => ?_⟩
    rw [Segment.yield?, hValue]
    rfl

theorem Segment.Longest.lineComment_stops {body : List Char}
    (h : Segment.Longest ⟨.skipped, '/' :: '/' :: body, rest⟩) (hBody : '\n' ∉ body) :
    rest = [] ∨ rest.head? = some '\n' := by
  cases rest with
  | nil => exact .inl rfl
  | cons d more =>
    refine .inr (congrArg some (Decidable.byContradiction fun hFeed => h.not_lexical rfl .skipped ?_))
    have hMore : '\n' ∉ body ++ [d] := by simp [hBody, eq_comm, hFeed]
    exact .lineComment hMore

theorem Segment.Longest.openComment_rest {body : List Char}
    (h : Segment.Longest ⟨.skipped, '/' :: '*' :: body, rest⟩) (hBody : ¬ ['*', '/'] <:+: body) : rest = [] := by
  cases rest with
  | nil => rfl
  | cons d more =>
    by_cases hClosed : ['*', '/'] <:+: body ++ [d]
    · -- the end mark ends here
      obtain ⟨front, hFront⟩ := (infix_concat_iff.mp hClosed).resolve_right hBody
      obtain ⟨rfl, hEnd⟩ : front ++ ['*'] = body ∧ ['/'] = [d] := append_inj' (by simpa using hFront) rfl
      cases hEnd
      have hInner : ¬ ['*', '/'] <:+: front := fun hIn => hBody (hIn.trans (prefix_append _ _).isInfix)
      exact absurd (by simpa using Lexical.blockComment hInner) (h.not_lexical rfl .skipped)
    · exact absurd (.openComment hClosed) (h.not_lexical rfl .skipped)

theorem Segment.Longest.openString_rest {body : List Char}
    (h : Segment.Longest ⟨.unterminated, '"' :: body, rest⟩) (hBody : '"' ∉ body) : rest = [] := by
  cases rest with
  | nil => rfl
  | cons d more =>
    by_cases hQuote : d = '"'
    · subst hQuote
      exact absurd (.string hBody) (h.not_lexical rfl .string)
    · have hMore : '"' ∉ body ++ [d] := by simp [hBody, eq_comm, hQuote]
      exact absurd (.openString hMore) (h.not_lexical rfl .unterminated)

/-- The stretch of a segment has the token and the notice that the segment yields. -/
theorem Segment.Longest.exists_stretch {ts : List Token} {notices : List Notice}
    (h : s.Longest) (hText : s.text ≠ []) (hYield : s.yield? line = some (ts, notices)) :
    ∃ st : Stretch, st.text = s.text ∧ st.Before s.rest ∧ ts = st.token?.toList ∧
      notices = st.notice?.toList ∧ ∀ t ∈ ts, t.line = line := by
  by_cases hContent : s.content.HasToken
  · have hScanned := Segment.yield?_scanned h.lexical hYield
    obtain ⟨t, rfl, rfl, hLexeme, hLine, -⟩ := s.yield?_token hContent hYield
    have hChars : t.lexeme.toList = s.text := by rw [hLexeme, String.toList_ofList]
    exact ⟨.token t, hChars, .token (hScanned t (by simp)) (hChars ▸ hText), rfl, rfl, by simpa using hLine⟩
  · obtain ⟨content, text, rest⟩ := s
    have hLexical := h.lexical
    cases hLexical with
    | @blank c hGap =>
      cases hYield
      exact ⟨.blank c, rfl, .blank ((isGap_iff c).mp hGap), rfl, rfl, by simp⟩
    | @lineComment body hBody =>
      cases hYield
      exact ⟨.lineComment body, rfl, .lineComment hBody (h.lineComment_stops hBody), rfl, rfl, by simp⟩
    | @blockComment body hBody =>
      cases hYield
      exact ⟨.blockComment body, rfl, .blockComment hBody, rfl, rfl, by simp⟩
    | @openComment body hBody =>
      cases hYield
      exact ⟨.openComment body, rfl, h.openComment_rest hBody ▸ .openComment hBody, rfl, rfl, by simp⟩
    | @stray c hNothing =>
      cases hYield
      exact ⟨.unexpected c, rfl, .unexpected hNothing, rfl, rfl, by simp⟩
    | @openString body hBody =>
      cases hYield
      exact ⟨.openString body, rfl, h.openString_rest hBody ▸ .openString hBody, rfl, rfl, by simp⟩
    | _ => exact absurd trivial hContent

/-! ## The stretches of a text -/

theorem newlines_append (a b : List Char) : newlines (a ++ b) = newlines a + newlines b := count_append

/-- The stretches of a text that begins on `line`, and what scanning it gave. -/
structure Splitting (line : Nat) (cs : List Char) (result : Scan) (stretches : List Stretch) : Prop where
  text : stretches.flatMap Stretch.text = cs
  proper : Stretch.Proper stretches
  /-- The tokens are those of the stretches, and then the end token on the last line. -/
  tokens : result.tokens = stretches.filterMap Stretch.token? ++ [.eof ((line + newlines cs : Nat) : Int)]
  notices : result.notices = stretches.filterMap Stretch.notice?
  /-- The line of a token counts the line feeds up to the end of its text. -/
  lined : ∀ (before : List Stretch) (t : Token) (after : List Stretch),
    stretches = before ++ .token t :: after → t.line = line + newlines (before.flatMap Stretch.text ++ t.lexeme.toList)

namespace Splitting

theorem nil (line : Nat) : Splitting line [] ⟨[.eof line], [], none⟩ [] :=
  ⟨rfl, trivial, by simp [newlines], rfl, by simp⟩

/-- One more stretch in front, which ends on the line where the others begin. -/
theorem cons {s : Stretch} {cs : List Char} {result : Scan} {later : List Stretch}
    (h : Splitting (line + newlines s.text) cs result later) (hBefore : s.Before cs)
    (hLine : ∀ t ∈ s.token?, t.line = (line + newlines s.text : Nat)) (stopped : Option String) :
    Splitting line (s.text ++ cs)
      ⟨s.token?.toList ++ result.tokens, s.notice?.toList ++ result.notices, stopped⟩ (s :: later) where
  text := by rw [flatMap_cons, h.text]
  proper := ⟨h.text.symm ▸ hBefore, h.proper⟩
  tokens := by
    rw [h.tokens, newlines_append, Nat.add_assoc]
    cases hToken : s.token? <;> simp [hToken]
  notices := by
    rw [h.notices]
    cases hNotice : s.notice? <;> simp [hNotice]
  lined := by
    intro before t after hSplit
    cases before with
    | nil =>
      obtain ⟨rfl, rfl⟩ := cons_eq_cons.mp hSplit
      simpa [Stretch.text] using hLine t rfl
    | cons b before =>
      obtain ⟨rfl, hRest⟩ := cons_eq_cons.mp hSplit
      rw [h.lined before t after hRest]
      simp only [flatMap_cons, newlines_append]
      push_cast
      omega

end Splitting

theorem scanFrom_splits (line : Nat) (cs : List Char) (h : (scanFrom line cs).stopped = none) :
    ∃ stretches, Splitting line cs (scanFrom line cs) stretches := by
  induction h using scanFrom_induction with
  | nil line =>
    rw [scanFrom]
    exact ⟨[], .nil line⟩
  | cons line c cs ts notices _ _ hSome ih =>
    obtain ⟨later, hLater⟩ := ih
    rw [scanFrom_yields rfl hSome]
    obtain ⟨st, hText, hBefore, rfl, rfl, hLine⟩ :=
      (segment_longest c cs).exists_stretch (segment_text_ne_nil c cs) hSome
    rw [← segment_text c cs]
    rw [← hText] at hLater hLine ⊢
    exact ⟨st :: later, hLater.cons hBefore (by simpa using hLine) _⟩

/-! ## Notices -/

theorem Stretch.Before.notice_one_line {s : Stretch} (h : s.Before rest) :
    ∀ n ∈ s.notice?, '\n' ∉ n.message.toList := by
  cases h with
  | unexpected hNothing =>
    have hGap := hNothing.2.2.1
    rintro n ⟨⟩
    unfold Notice.message
    simp only [String.toList_append, String.toList_singleton, mem_append, mem_singleton, not_or]
    refine ⟨by decide, fun hc => ?_⟩
    rw [← hc] at hGap
    cases hGap
  | openString =>
    rintro n ⟨⟩
    decide
  | _ => simp [notice?]

theorem Stretch.Proper.notice_one_line {stretches : List Stretch} (h : Proper stretches) :
    ∀ n ∈ stretches.filterMap notice?, '\n' ∉ n.message.toList := by
  induction stretches with
  | nil => simp
  | cons s later ih =>
    intro n hn
    obtain ⟨st, hMem, hNotice⟩ := mem_filterMap.mp hn
    rcases mem_cons.mp hMem with rfl | hMem
    · exact h.1.notice_one_line n hNotice
    · exact ih h.2 n (mem_filterMap.mpr ⟨st, hMem, hNotice⟩)

/-- **Scanning loses nothing and counts lines.** A text on which scanning does not stop is a sequence of
stretches, each of which ends where it should. The tokens are those of the stretches, each with the line on
which its text ends, and then the end token on the last line. What scanning notices is the characters that
begin nothing and a string that never ends, one line for each. -/
theorem scan_splits (source : String) (h : (scan source).stopped = none) :
    ∃ stretches, Splitting 1 source.toList (scan source) stretches ∧
      ∀ n ∈ (scan source).notices, '\n' ∉ n.message.toList := by
  obtain ⟨stretches, hSplitting⟩ := scanFrom_splits 1 source.toList h
  refine ⟨stretches, hSplitting, ?_⟩
  rw [show (scan source).notices = _ from hSplitting.notices]
  exact hSplitting.proper.notice_one_line

/-- A string and a comment over two lines, a character that begins nothing, and a string that never ends. -/
theorem scan_splits_unfinished :
    let source := "x = \"a\nb\"; // c\n/* d\n */ @ \"e\n"
    (scan source).stopped = none ∧
      ∃ stretches, Splitting 1 source.toList (scan source) stretches ∧
        ∀ n ∈ (scan source).notices, '\n' ∉ n.message.toList := by
  intro source
  have hStopped : (scan source).stopped = none := by decide +kernel
  exact ⟨hStopped, scan_splits source hStopped⟩

end Scriptling.Braced
