import Scriptling.Proofs.Braced.Stretch
import Scriptling.Proofs.Number.Reading

/-!
# Longest match

Each token that the scanner makes of a text is the longest that its place allows, and its kind and literal are those of
its text (`scan_longest_match`).
-/

namespace Scriptling.Braced

open Number Text
open String (ofList toList_ofList)

/-! ## What a text stands for -/

/-- The float that a number stands for: that of its decimal digits, scaled by the length of its fraction. -/
inductive NumberValue : List Char → Float → Prop where
  | whole {ds} : (∀ d ∈ ds, isDecimal d = true) → NumberValue ds (floatOfDecimal false (decimalNumber ds) 0)
  | fraction {ds es} : (∀ d ∈ ds, isDecimal d = true) → (∀ e ∈ es, isDecimal e = true) →
      NumberValue (ds ++ '.' :: es) (floatOfDecimal false (decimalNumber (ds ++ es)) (-es.length))

/-- The kind and the literal of the token with a text of some class. -/
inductive Meaning : Content → List Char → Kind → Datum → Prop where
  | sign {text kind} : (text, kind) ∈ signs → Meaning (.token kind) text kind .none
  | keyword {text kind} : (ofList text, kind) ∈ keywords → Meaning .word text kind .none
  | identifier {text} : (∀ entry ∈ keywords, entry.1 ≠ ofList text) → Meaning .word text .identifier .none
  | number {text x} : NumberValue text x → Meaning .number text .number (.float x)
  | string {body} : Meaning .string ('"' :: body ++ ['"']) .string (.str (ofList body))

variable {c : Char} {cs text body : List Char} {content : Content} {s : Segment}

/-- A number whose digits are all decimal has a value, and no other has. -/
theorem Lexical.readFloat?_cases (h : Lexical .number text) : (∀ c ∈ text, isDigit c = true → isDecimal c = true) ∧
        (∃ x, readFloat? (ofList text) = some x ∧ NumberValue text x) ∨
      (∃ c ∈ text, isDigit c = true ∧ isDecimal c = false) ∧ readFloat? (ofList text) = none := by
  by_cases hAll : ∀ c ∈ text, isDigit c = true → isDecimal c = true
  · refine .inl ⟨hAll, ?_⟩
    cases h with
    | whole hSome hDigits =>
      have hDecimal := fun d hd => hAll d hd (hDigits d hd)
      exact ⟨_, readFloat?_whole hDecimal hSome, .whole hDecimal⟩
    | fraction hSome hDigits _ hFraction =>
      have hDecimal := fun d hd => hAll d (by simp [hd]) (hDigits d hd)
      have hDecimal' := fun e he => hAll e (by simp [he]) (hFraction e he)
      exact ⟨_, readFloat?_fraction hDecimal hDecimal' hSome, .fraction hDecimal hDecimal'⟩
  · obtain ⟨c, hc, hDigit, hDecimal⟩ : ∃ c ∈ text, isDigit c = true ∧ isDecimal c = false := by
      simpa using hAll
    exact .inr ⟨⟨c, hc, hDigit, hDecimal⟩, readFloat?_eq_none h.numeral hc hDigit hDecimal⟩

theorem wordKind_meaning (text : List Char) : Meaning .word text (wordKind (ofList text)) .none := by
  unfold wordKind
  cases hFind : keywords.find? (·.1 == ofList text) with
  | none =>
    refine .identifier fun entry hEntry => ?_
    simpa using List.find?_eq_none.mp hFind entry hEntry
  | some entry =>
    have hWord : entry.1 = ofList text := by simpa using List.find?_some hFind
    exact .keyword (hWord ▸ List.mem_of_find?_eq_some hFind)

/-- The token of a segment: its lexeme is the text, its kind and literal are what the text stands for, and the kind
is that of a keyword exactly when the lexeme is that keyword. -/
structure Segment.Makes (s : Segment) (t : Token) : Prop where
  lexeme : t.lexeme = ofList s.text
  meaning : Meaning s.content s.text t.kind t.literal
  keyword : ∀ entry ∈ keywords, t.kind = entry.2 ↔ t.lexeme = entry.1

/-- No two keywords have the same word or the same kind. -/
theorem keywords_distinct : ∀ a ∈ keywords, ∀ b ∈ keywords, a.2 = b.2 ↔ a.1 = b.1 := by decide +kernel

theorem keyword_lexical : ∀ entry ∈ keywords, Lexical .word entry.1.toList := by
  have hTable : ∀ entry ∈ keywords, entry.1.toList.head?.any isWordStart = true ∧
      entry.1.toList.tail.all isWordChar = true := by decide +kernel
  intro entry hEntry
  obtain ⟨hFirst, hLater⟩ := hTable entry hEntry
  cases hText : entry.1.toList with
  | nil => simp [hText] at hFirst
  | cons c cs => exact .word (by simpa [hText] using hFirst) (by simpa [hText] using hLater)

/-- Keywords are words, and no other text has the kind of a keyword. -/
theorem keyword_iff {kind : Kind} {literal : Datum} (hLexical : Lexical content text)
    (hMeaning : Meaning content text kind literal) :
    ∀ entry ∈ keywords, kind = entry.2 ↔ ofList text = entry.1 := by
  intro entry hEntry
  have hWord : ofList text = entry.1 → content = .word := fun hText => by
    have hKeyword := keyword_lexical entry hEntry
    rw [← hText, toList_ofList] at hKeyword
    exact hLexical.content_unique hKeyword
  have hNamed : entry.2 ≠ .identifier ∧ entry.2 ≠ .number ∧ entry.2 ≠ .string :=
    (show ∀ e ∈ keywords, e.2 ≠ .identifier ∧ e.2 ≠ .number ∧ e.2 ≠ .string by decide) entry hEntry
  cases hMeaning with
  | sign hSign =>
    have hKind := (show ∀ sign ∈ signs, ∀ e ∈ keywords, sign.2 ≠ e.2 by decide) _ hSign entry hEntry
    exact ⟨fun h => absurd h hKind, fun hText => by cases hWord hText⟩
  | keyword hMem => exact keywords_distinct _ hMem entry hEntry
  | identifier hNone => exact ⟨fun h => absurd h.symm hNamed.1, fun h => absurd h.symm (hNone entry hEntry)⟩
  | number => exact ⟨fun h => absurd h.symm hNamed.2.1, fun hText => by cases hWord hText⟩
  | string => exact ⟨fun h => absurd h.symm hNamed.2.2, fun hText => by cases hWord hText⟩

/-- The token that a segment yields is the one that its text stands for. -/
theorem Segment.yield?_makes {line : Nat} {ts : List Token} {notices : List Notice}
    (hLexical : Lexical s.content s.text) (hToken : s.content.HasToken) (hYield : s.yield? line = some (ts, notices)) :
    ∃ t, ts = [t] ∧ s.Makes t := by
  have hMeaning : ∃ t : Token, ts = [t] ∧ t.lexeme = ofList s.text ∧
      Meaning s.content s.text t.kind t.literal := by
    obtain ⟨content, text, rest⟩ := s
    cases content with
    | skipped | unexpected | unterminated => exact hToken.elim
    | token kind =>
      cases hYield
      cases hLexical with
      | sign hSign => exact ⟨_, rfl, rfl, .sign hSign⟩
    | word =>
      cases hYield
      exact ⟨_, rfl, rfl, wordKind_meaning text⟩
    | string =>
      cases hYield
      cases hLexical with
      | @string body _ => exact ⟨_, rfl, rfl, by simpa [unquote] using @Meaning.string body⟩
    | number =>
      obtain ⟨x, hRead, hPair⟩ := Option.map_eq_some_iff.mp hYield
      cases hPair
      rcases hLexical.readFloat?_cases with ⟨-, x', hRead', hValue⟩ | ⟨-, hNone⟩
      · obtain rfl : x = x' := Option.some.inj (hRead.symm.trans hRead')
        exact ⟨_, rfl, rfl, .number hValue⟩
      · cases hRead.symm.trans hNone
  obtain ⟨t, hts, hLexeme, hMeaning⟩ := hMeaning
  exact ⟨t, hts, hLexeme, hMeaning, by rw [hLexeme]; exact keyword_iff hLexical hMeaning⟩

/-! ## The tokens of a scan -/

instance : DecidablePred Content.HasToken
  | .token _ | .word | .number | .string => isTrue trivial
  | .skipped | .unexpected | .unterminated => isFalse id

theorem Segment.yield?_tokenless {line : Nat} {ts : List Token} {notices : List Notice} (hToken : ¬ s.content.HasToken)
    (hYield : s.yield? line = some (ts, notices)) : ts = [] := by
  obtain ⟨content, text, rest⟩ := s
  cases content with
  | skipped | unexpected | unterminated =>
    cases hYield
    rfl
  | _ => exact absurd trivial hToken

/-- **The tokens of a scan are those of the segments, one for each that has one.** -/
theorem scanFrom_makes (line : Nat) (cs : List Char) (h : (scanFrom line cs).stopped = none) :
    ∃ ts last, (scanFrom line cs).tokens = ts ++ [Token.eof last] ∧
      List.Forall₂ Segment.Makes ((segments cs).filter (·.content.HasToken)) ts := by
  induction h using scanFrom_induction with
  | nil line =>
    rw [scanFrom, segments]
    exact ⟨[], line, rfl, .nil⟩
  | cons line c cs ts notices _ _ hSome ih =>
    obtain ⟨us, last, hTokens, hMakes⟩ := ih
    rw [segments, scanFrom_yields rfl hSome, Scan.behind, hTokens]
    by_cases hToken : (segment c cs).content.HasToken
    · obtain ⟨t, rfl, hMade⟩ := Segment.yield?_makes (segment_lexical c cs) hToken hSome
      rw [List.filter_cons_of_pos (by simpa using hToken)]
      exact ⟨t :: us, last, rfl, .cons hMade hMakes⟩
    · obtain rfl := Segment.yield?_tokenless hToken hSome
      rw [List.filter_cons_of_neg (by simpa using hToken)]
      exact ⟨us, last, rfl, hMakes⟩

/-- The text of a token: a word, a number, a closed string, an operator or a delimiter. -/
def IsLexeme (text : List Char) : Prop := ∃ content : Content, content.HasToken ∧ Lexical content text

/-- The text is the longest text of a token in front of the input. -/
structure LongestLexeme (text input : List Char) : Prop where
  lexeme : IsLexeme text
  begins : text <+: input
  longest : ∀ other, IsLexeme other → other <+: input → other.length ≤ text.length

theorem Segment.Longest.lexeme (h : s.Longest) (hToken : s.content.HasToken) :
    LongestLexeme s.text (s.text ++ s.rest) where
  lexeme := ⟨s.content, hToken, h.lexical⟩
  begins := List.prefix_append s.text s.rest
  longest := by
    rintro other ⟨content, -, hLexical⟩ hBegins
    exact h.longest hLexical hBegins

/-- **Tokens are longest matches and are classified by their text.** A text on which scanning does not stop has a
segmentation by longest match, and its tokens are those of the segments that have one, with the end token last. The
text of a token is the longest word, number, closed string, operator or delimiter at its place. Its kind is that of
a keyword exactly when it is that keyword, and its literal is the value of a number, the text between the quotes of
a string, and nothing otherwise. -/
theorem scan_longest_match (source : String) (h : (scan source).stopped = none) :
    ∃ (segments : List Segment) (ts : List Token) (last : Int),
      Segmentation source.toList segments ∧ (scan source).tokens = ts ++ [Token.eof last] ∧
      List.Forall₂ Segment.Makes (segments.filter (·.content.HasToken)) ts ∧
      ∀ (before : List Segment) (s : Segment) (after : List Segment),
        segments = before ++ s :: after → s.content.HasToken →
        LongestLexeme s.text (source.toList.drop (before.flatMap Segment.text).length) := by
  obtain ⟨ts, last, hTokens, hMakes⟩ := scanFrom_makes 1 source.toList h
  refine ⟨_, ts, last, segmentation_segments source.toList, hTokens, hMakes, ?_⟩
  intro before s after hSplit hToken
  obtain ⟨hLongest, hSource, -⟩ := (hSplit ▸ segmentation_segments source.toList).split
  rw [hSource, List.drop_left]
  exact hLongest.lexeme hToken

/-- Points and digits, operators that run together, a keyword inside a word, and slashes. -/
theorem scan_longest_match_crowded :
    let source := "fnord=1..2!==\"//\"/3.4.x//fn"
    (scan source).stopped = none ∧
    ∃ (segments : List Segment) (ts : List Token) (last : Int),
      Segmentation source.toList segments ∧ (scan source).tokens = ts ++ [Token.eof last] ∧
      List.Forall₂ Segment.Makes (segments.filter (·.content.HasToken)) ts ∧
      ∀ (before : List Segment) (s : Segment) (after : List Segment),
        segments = before ++ s :: after → s.content.HasToken →
        LongestLexeme s.text (source.toList.drop (before.flatMap Segment.text).length) := by
  intro source
  have hStopped : (scan source).stopped = none := by decide +kernel
  exact ⟨hStopped, scan_longest_match source hStopped⟩

end Scriptling.Braced
