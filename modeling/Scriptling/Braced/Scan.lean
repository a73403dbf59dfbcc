import Scriptling.Braced.Token

/-!
# Scanning braced scripts

A text is cut into segments from left to right. A segment is the text of one token, a blank, a comment, a
character that begins nothing, or a string that never ends. Scanning keeps the tokens and notices the rest;
it stops only at a number made of digits that have no decimal value.

`segment_text` says that nothing is lost: a segment's text followed by what is left is the input.
-/

namespace Scriptling.Braced

open Text

/-- What a piece of text is to the scanner. -/
inductive Content where
  | token (kind : Kind)
  | word
  | number
  | string
  | skipped
  | unexpected
  | unterminated
  deriving Repr, DecidableEq

/-- The piece of text in front, and the text behind it. -/
structure Segment where
  content : Content
  text : List Char
  rest : List Char
  deriving Repr

/-- A token of one character, or of two if `=` follows. -/
def orEqual (c : Char) (alone joined : Kind) : List Char → Segment
  | '=' :: rest => ⟨.token joined, [c, '='], rest⟩
  | rest => ⟨.token alone, [c], rest⟩

/-- The rest of a block comment, up to and with its end, and what follows. -/
def closeComment : List Char → List Char × List Char
  | [] => ([], [])
  | '*' :: '/' :: rest => (['*', '/'], rest)
  | c :: cs => let (text, rest) := closeComment cs; (c :: text, rest)

/-- A slash: a line comment, a block comment, or a token. -/
def afterSlash : List Char → Segment
  | '/' :: rest =>
    ⟨.skipped, '/' :: '/' :: rest.takeWhile (· != '\n'), rest.dropWhile (· != '\n')⟩
  | '*' :: rest =>
    let (text, rest) := closeComment rest
    ⟨.skipped, '/' :: '*' :: text, rest⟩
  | rest => ⟨.token .slash, ['/'], rest⟩

def afterQuote (cs : List Char) : Segment :=
  let text := cs.takeWhile (· != '"')
  match cs.dropWhile (· != '"') with
  | q :: rest => ⟨.string, '"' :: text ++ [q], rest⟩
  | [] => ⟨.unterminated, '"' :: text, []⟩

/-- A number, after its first digit: digits, and a fraction if the point is followed by a digit. -/
def afterDigit (c : Char) (cs : List Char) : Segment :=
  let whole := c :: cs.takeWhile isDigit
  match cs.dropWhile isDigit with
  | '.' :: d :: rest =>
    if isDigit d then
      ⟨.number, whole ++ '.' :: d :: rest.takeWhile isDigit, rest.dropWhile isDigit⟩
    else ⟨.number, whole, '.' :: d :: rest⟩
  | rest => ⟨.number, whole, rest⟩

/-- Tokens of one character that nothing can extend. -/
def singleKind? (c : Char) : Option Kind :=
  match c with
  | '(' => some .leftParen
  | ')' => some .rightParen
  | '\x7b' => some .leftBrace
  | '\x7d' => some .rightBrace
  | ',' => some .comma
  | '.' => some .dot
  | '-' => some .minus
  | '+' => some .plus
  | ';' => some .semicolon
  | '*' => some .star
  | '\x60' => some .backtick
  | ':' => some .colon
  | _ => none

/-- Tokens of one character that a following `=` extends. -/
def extensible? (c : Char) : Option (Kind × Kind) :=
  match c with
  | '!' => some (.bang, .bangEqual)
  | '=' => some (.equal, .equalEqual)
  | '<' => some (.less, .lessEqual)
  | '>' => some (.greater, .greaterEqual)
  | _ => none

def isGap (c : Char) : Bool := c == ' ' || c == '\r' || c == '\t' || c == '\n'

def segment (c : Char) (cs : List Char) : Segment :=
  match singleKind? c, extensible? c with
  | some k, _ => ⟨.token k, [c], cs⟩
  | none, some (alone, joined) => orEqual c alone joined cs
  | none, none =>
    if c = '/' then afterSlash cs
    else if isGap c then ⟨.skipped, [c], cs⟩
    else if c = '"' then afterQuote cs
    else if isDigit c then afterDigit c cs
    else if isWordStart c then ⟨.word, c :: cs.takeWhile isWordChar, cs.dropWhile isWordChar⟩
    else ⟨.unexpected, [c], cs⟩

theorem closeComment_append (cs : List Char) : (closeComment cs).1 ++ (closeComment cs).2 = cs := by
  fun_induction closeComment cs <;> simp_all

theorem orEqual_text (c : Char) (a j : Kind) (cs : List Char) :
    (orEqual c a j cs).text ++ (orEqual c a j cs).rest = c :: cs := by
  unfold orEqual; split <;> simp

theorem afterSlash_text (cs : List Char) : (afterSlash cs).text ++ (afterSlash cs).rest = '/' :: cs := by
  unfold afterSlash
  split
  · simp [List.takeWhile_append_dropWhile]
  · simp [closeComment_append]
  · simp

theorem afterQuote_text (cs : List Char) : (afterQuote cs).text ++ (afterQuote cs).rest = '"' :: cs := by
  have h := List.takeWhile_append_dropWhile (p := (· != '"')) (l := cs)
  unfold afterQuote
  split
  next q rest hq =>
    rw [hq] at h
    simp [h]
  next hq =>
    rw [hq] at h
    simpa using h

theorem afterDigit_text (c : Char) (cs : List Char) : (afterDigit c cs).text ++ (afterDigit c cs).rest = c :: cs := by
  have h := List.takeWhile_append_dropWhile (p := isDigit) (l := cs)
  unfold afterDigit
  split
  next d rest hd =>
    rw [hd] at h
    split
    · simp only [List.cons_append, List.append_assoc, List.takeWhile_append_dropWhile, h]
    · simp [h]
  · simp [h]

/-- A segment's text and what follows it make up the input. -/
theorem segment_text (c : Char) (cs : List Char) : (segment c cs).text ++ (segment c cs).rest = c :: cs := by
  unfold segment
  split
  · rfl
  · exact orEqual_text ..
  · split
    · subst_vars; exact afterSlash_text cs
    · split
      · rfl
      · split
        · subst_vars; exact afterQuote_text cs
        · split
          · exact afterDigit_text c cs
          · split
            · simp [List.takeWhile_append_dropWhile]
            · rfl

theorem segment_text_ne_nil (c : Char) (cs : List Char) : (segment c cs).text ≠ [] := by
  unfold segment
  split
  · simp
  · unfold orEqual; split <;> simp
  · split
    · unfold afterSlash; split <;> simp
    · split
      · simp
      · split
        · unfold afterQuote; split <;> simp
        · split
          · unfold afterDigit
            split
            · split <;> simp
            · simp
          · split <;> simp

/-- What follows a segment is shorter than the input. -/
theorem segment_rest_lt (c : Char) (cs : List Char) : (segment c cs).rest.length < (c :: cs).length := by
  have h := congrArg List.length (segment_text c cs)
  have hne := List.length_pos_iff.mpr (segment_text_ne_nil c cs)
  rw [List.length_append] at h
  omega

/-- Something scanning passes over and tells about. -/
inductive Notice where
  | unexpected (c : Char)
  | unterminated
  deriving Repr, DecidableEq

def Notice.message : Notice → String
  | unexpected c => "Unexpected character: " ++ String.singleton c
  | unterminated => "Unterminated string."

/-- What scanning a text gives. -/
structure Scan where
  /-- The tokens, with the end of the text last unless scanning stopped. -/
  tokens : List Token
  notices : List Notice
  /-- The number without a value at which scanning stopped, if it did. -/
  stopped : Option String
  deriving Inhabited

def unquote (text : List Char) : String := String.ofList (text.drop 1).dropLast

def newlines (text : List Char) : Nat := text.count '\n'

/-- What a segment adds to a scan: a token, a notice or nothing. `none` if it is a number without a value. -/
def Segment.yield? (s : Segment) (line : Nat) : Option (List Token × List Notice) :=
  let lexeme := String.ofList s.text
  match s.content with
  | .token k => some ([⟨k, lexeme, .none, line⟩], [])
  | .word => some ([⟨wordKind lexeme, lexeme, .none, line⟩], [])
  | .string => some ([⟨.string, lexeme, .str (unquote s.text), line⟩], [])
  | .number => (Number.readFloat? lexeme).map fun x => ([⟨.number, lexeme, .float x, line⟩], [])
  | .skipped => some ([], [])
  | .unexpected => some ([], [.unexpected (s.text.headD ' ')])
  | .unterminated => some ([], [.unterminated])

/-- Scans the rest of a text from a line on. A token's line is the one on which its text ends. -/
def scanFrom (line : Nat) : List Char → Scan
  | [] => ⟨[.eof line], [], none⟩
  | c :: cs =>
    let s := segment c cs
    let line := line + newlines s.text
    match s.yield? line with
    | none => ⟨[], [], some (String.ofList s.text)⟩
    | some (tokens, notices) =>
      let later := scanFrom line s.rest
      ⟨tokens ++ later.tokens, notices ++ later.notices, later.stopped⟩
termination_by cs => cs.length
decreasing_by exact segment_rest_lt c cs

def scan (source : String) : Scan := scanFrom 1 source.toList

end Scriptling.Braced
