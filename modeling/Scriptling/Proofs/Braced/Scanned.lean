import Scriptling.Proofs.Braced.Lexical

/-!
# Scanned tokens

What a token is known by once it comes from a text: punctuation and keywords by their kind, since each such
kind has one text; an identifier by its text, which is no keyword; a literal by its value. A scan that does
not stop gives such tokens and then one end token (`scan_tokens`).
-/

namespace Scriptling.Braced

variable {t : Token} {c : Char} {line : Nat}

/-- The text of a kind that has only one. -/
def Kind.text? : Kind → Option String
  | .leftBrace => "\x7b"
  | .rightBrace => "\x7d"
  | .leftParen => "("
  | .rightParen => ")"
  | .comma => ","
  | .dot => "."
  | .minus => "-"
  | .plus => "+"
  | .semicolon => ";"
  | .slash => "/"
  | .star => "*"
  | .backtick => "\x60"
  | .colon => ":"
  | .bang => "!"
  | .bangEqual => "!="
  | .equal => "="
  | .equalEqual => "=="
  | .greater => ">"
  | .greaterEqual => ">="
  | .less => "<"
  | .lessEqual => "<="
  | .and => "and"
  | .async => "async"
  | .await => "await"
  | .break => "break"
  | .const => "const"
  | .else => "else"
  | .false => "false"
  | .fn => "fn"
  | .for => "for"
  | .if => "if"
  | .in => "in"
  | .let => "let"
  | .loop => "loop"
  | .mut => "mut"
  | .return => "return"
  | .struct => "struct"
  | .true => "true"
  | .numberType => "Number"
  | .stringType => "String"
  | .boolType => "Bool"
  | .identifier | .string | .number | .endOfFile | .or => none

/-- A token as scanning makes it, the end token apart. -/
inductive Token.Scanned : Token → Prop where
  | sign {kind text line} : kind.text? = some text → Scanned ⟨kind, text, .none, line⟩
  | identifier {name line} : wordKind name = .identifier → Scanned ⟨.identifier, name, .none, line⟩
  | number {text value line} : Number.readFloat? text = some value → Scanned ⟨.number, text, .float value, line⟩
  | string {text line} : Scanned ⟨.string, String.ofList text, .str (unquote text), line⟩

theorem Token.Scanned.kind_ne (h : t.Scanned) : t.kind ≠ .endOfFile := by
  cases h with
  | sign hText =>
    intro hKind
    simp only at hKind
    simp [hKind, Kind.text?] at hText
  | identifier | number | string => simp

/-- A token whose kind has one text is that text. -/
theorem Token.Scanned.of_text (h : t.Scanned) {text : String} (hText : t.kind.text? = some text) :
    t.lexeme = text ∧ t.literal = .none := by
  cases h with
  | sign hSign => exact ⟨Option.some.inj (hSign.symm.trans hText), rfl⟩
  | identifier | number | string => cases hText

theorem Token.Scanned.of_identifier (h : t.Scanned) (hKind : t.kind = .identifier) :
    wordKind t.lexeme = .identifier ∧ t.literal = .none := by
  cases h with
  | sign hSign =>
    simp only at hKind
    simp [hKind, Kind.text?] at hSign
  | identifier hName => exact ⟨hName, rfl⟩
  | number | string => cases hKind

/-! ## The tables of the scanner -/

theorem Lexical.text? {kind : Kind} {text : List Char} (h : Lexical (.token kind) text) :
    kind.text? = some (String.ofList text) := by
  have hTable : ∀ entry ∈ signs, entry.2.text? = some (String.ofList entry.1) := by decide
  cases h with
  | sign hSign => exact hTable _ hSign

/-- A word is an identifier or the one text of a keyword. -/
theorem wordKind_text (word : String) : wordKind word = .identifier ∨ (wordKind word).text? = some word := by
  have hTable : ∀ entry ∈ keywords, entry.2.text? = some entry.1 := by decide
  unfold wordKind
  cases hFind : keywords.find? (·.1 == word) with
  | none => exact .inl rfl
  | some entry =>
    have hWord : entry.1 = word := by simpa using List.find?_some hFind
    exact .inr (hWord ▸ hTable entry (List.mem_of_find?_eq_some hFind))

/-! ## Segments and scans -/

theorem Segment.yield?_scanned {s : Segment} (h : Lexical s.content s.text) {ts : List Token}
    {notices : List Notice} (hYield : s.yield? line = some (ts, notices)) : ∀ t ∈ ts, t.Scanned := by
  unfold Segment.yield? at hYield
  split at hYield
  next k hContent =>
    cases hYield
    simpa using .sign (hContent ▸ h).text?
  · cases hYield
    rw [List.forall_mem_singleton]
    rcases wordKind_text (String.ofList s.text) with hWord | hText
    · rw [hWord]
      exact .identifier hWord
    · exact .sign hText
  · cases hYield
    simpa using .string
  · obtain ⟨value, hValue, hPair⟩ := Option.map_eq_some_iff.mp hYield
    cases hPair
    simpa using .number hValue
  all_goals
    cases hYield
    simp

/-- A scan with more tokens and notices in front. -/
def Scan.behind (ts : List Token) (notices : List Notice) (later : Scan) : Scan :=
  ⟨ts ++ later.tokens, notices ++ later.notices, later.stopped⟩

theorem scanFrom_yields {s : Segment} {cs : List Char} {ts : List Token} {notices : List Notice}
    (hSegment : segment c cs = s) (hYield : s.yield? (line + newlines s.text) = some (ts, notices)) :
    scanFrom line (c :: cs) = (scanFrom (line + newlines s.text) s.rest).behind ts notices := by
  rw [scanFrom, hSegment]
  simp only [hYield]
  rfl

/-- Induction over a scan that does not stop: nothing is left, or a segment yields and the rest is scanned. -/
@[elab_as_elim]
theorem scanFrom_induction {motive : (line : Nat) → (cs : List Char) → (scanFrom line cs).stopped = none → Prop}
    (nil : ∀ line h, motive line [] h)
    (cons : ∀ line c cs ts notices h hLater,
      (segment c cs).yield? (line + newlines (segment c cs).text) = some (ts, notices) →
      motive (line + newlines (segment c cs).text) (segment c cs).rest hLater → motive line (c :: cs) h)
    {cs : List Char} (h : (scanFrom line cs).stopped = none) : motive line cs h := by
  induction line, cs using scanFrom.induct with
  | case1 line => exact nil line h
  | case2 line c cs s line' hNone =>
    have hStopped := h
    rw [scanFrom] at hStopped
    simp only [s, line'] at hNone
    simp [hNone] at hStopped
  | case3 line c cs s line' ts notices hSome ih =>
    have hLater := h
    rw [scanFrom_yields rfl hSome] at hLater
    exact cons line c cs ts notices h hLater hSome (ih hLater)

/-- **A scan that does not stop ends in its one end token.** -/
theorem scanFrom_tokens (line : Nat) (cs : List Char) (h : (scanFrom line cs).stopped = none) :
    ∃ body last, (scanFrom line cs).tokens = body ++ [.eof last] ∧ ∀ t ∈ body, t.Scanned := by
  induction h using scanFrom_induction with
  | nil line =>
    rw [scanFrom]
    exact ⟨[], line, rfl, by simp⟩
  | cons line c cs ts notices _ _ hSome ih =>
    obtain ⟨body, last, hTokens, hBody⟩ := ih
    have hFirst := Segment.yield?_scanned (segment_lexical c cs) hSome
    rw [scanFrom_yields rfl hSome]
    refine ⟨ts ++ body, last, by rw [Scan.behind, hTokens, List.append_assoc], fun t ht => ?_⟩
    rcases List.mem_append.mp ht with ht | ht
    · exact hFirst t ht
    · exact hBody t ht

theorem scan_tokens {source : String} (h : (scan source).stopped = none) :
    ∃ body last, (scan source).tokens = body ++ [.eof last] ∧ ∀ t ∈ body, t.Scanned :=
  scanFrom_tokens 1 source.toList h

end Scriptling.Braced
