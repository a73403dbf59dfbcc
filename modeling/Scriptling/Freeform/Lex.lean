import Scriptling.Freeform.Token

/-!
# Reading tokens from free-form text

The text is read from left to right. Blanks are skipped, and a slash where a token could begin skips the rest of
the line. The first thing that is no token ends the reading with a failure at the place reached.

`step_rest_lt` says that each step gets on.
-/

namespace Scriptling.Freeform

open Text
open String (ofList singleton)

/-- Why a text cannot be read on. -/
inductive Cause where
  | unexpected (c : Char)
  | badNumber (text : String)
  /-- A string without its closing quote on the line. -/
  | unterminated
  /-- A backslash before a character that it cannot stand before. -/
  | badEscape (c : Char)
  deriving Repr, DecidableEq

def Cause.message : Cause → String
  | unexpected c => "Unexpected character: " ++ singleton c
  | badNumber text => "Invalid number format: " ++ text
  | unterminated => "Unterminated string literal"
  | badEscape c => "Invalid escape sequence: \\" ++ singleton c

/-- A failure: its cause, the place reached and what is left there. -/
structure Failure where
  cause : Cause
  place : Cursor
  rest : List Char
  deriving Repr, DecidableEq

def Failure.message (f : Failure) : String :=
  "Line " ++ toString f.place.line ++ ", Column " ++ toString f.place.column ++ ": " ++ f.cause.message

/-- What one step reads: a token or nothing, the place after it, and the text from there on. -/
structure Lexeme where
  token? : Option Token
  place : Cursor
  rest : List Char

def isOperatorChar (c : Char) : Bool := "+-*/%=<>!&|^".toList.contains c

def isDelimiter (c : Char) : Bool := "()\x7b\x7d[],:;".toList.contains c

def isNumberChar (c : Char) : Bool := isDigit c || c == '.'

/-- The value of a number: whole without a point, a float with one. -/
def numberValue? (text : List Char) : Option Datum :=
  let s := ofList text
  if text.contains '.' then (Number.readFloat? s).map Datum.float
  else (Number.readInt? 10 s).map Datum.int

/-- What a backslash and a character stand for in a string with these quotes. -/
def unescape? (quote c : Char) : Option Char :=
  if c = 'n' then some '\n'
  else if c = 't' then some '\t'
  else if c = 'r' then some '\r'
  else if c = '\\' || c = quote then some c
  else none

/-- The rest of a string: what it holds, the place after it, and the text from there on. -/
def readString (quote : Char) (held : List Char) (place : Cursor) :
    List Char → Except Failure (List Char × Cursor × List Char)
  | [] => .error ⟨.unterminated, place, []⟩
  | c :: cs =>
    if c = '\n' then .error ⟨.unterminated, place, c :: cs⟩
    else if c = quote then .ok (held.reverse, place.advance 1, cs)
    else if c = '\\' then
      match cs with
      | [] => .error ⟨.unterminated, place.advance 1, []⟩
      | e :: rest =>
        match unescape? quote e with
        | some x => readString quote (x :: held) (place.advance 2) rest
        | none => .error ⟨.badEscape e, place.advance 1, e :: rest⟩
    else readString quote (c :: held) (place.advance 1) cs

/-- A token made of the longest run of some characters. -/
def readRun (place : Cursor) (text rest : List Char) (kind : Kind) (value : Datum) : Lexeme :=
  ⟨some (.ofCursor kind value place), place.advance text.length, rest⟩

def step (place : Cursor) (c : Char) (cs : List Char) : Except Failure Lexeme :=
  if isBlank c then .ok ⟨none, place.skip c, cs⟩
  else if c = '/' then
    let text := c :: cs.takeWhile (· != '\n')
    .ok ⟨none, place.advance text.length, cs.dropWhile (· != '\n')⟩
  else if isWordStart c then
    let text := c :: cs.takeWhile isWordChar
    let word := ofList text
    .ok (readRun place text (cs.dropWhile isWordChar) (wordKind word) (.str word))
  else if isDigit c then
    let text := c :: cs.takeWhile isNumberChar
    let rest := cs.dropWhile isNumberChar
    match numberValue? text with
    | some v => .ok (readRun place text rest .number v)
    | none => .error ⟨.badNumber (ofList text), place.advance text.length, rest⟩
  else if c = '"' || c = '\x27' then
    match readString c [] (place.advance 1) cs with
    | .ok (held, after, rest) =>
      .ok ⟨some (.ofCursor .string (.str (ofList held)) place), after, rest⟩
    | .error f => .error f
  else if isOperatorChar c then
    let text := c :: cs.takeWhile isOperatorChar
    .ok (readRun place text (cs.dropWhile isOperatorChar) .operator (.str (ofList text)))
  else if isDelimiter c then
    .ok (readRun place [c] cs .delimiter (.str (singleton c)))
  else .error ⟨.unexpected c, place, c :: cs⟩

theorem length_dropWhile_le (p : Char → Bool) (cs : List Char) : (cs.dropWhile p).length ≤ cs.length :=
  (List.dropWhile_sublist p).length_le

/-- What follows a string is no longer than the text it is read from. -/
theorem readString_rest_le {quote : Char} {held : List Char} {place : Cursor} {cs : List Char}
    {r : List Char × Cursor × List Char} (h : readString quote held place cs = .ok r) : r.2.2.length ≤ cs.length := by
  fun_induction readString quote held place cs with
  | case1 | case2 => simp at h
  | case3 => cases h; simp
  | case4 => simp at h
  | case5 _ _ _ _ _ _ _ _ ih => have := ih h; simp only [List.length_cons]; omega
  | case6 => simp at h
  | case7 _ _ _ _ _ _ _ ih => have := ih h; simp only [List.length_cons]; omega

/-- What follows a step is shorter than the text before it. -/
theorem step_rest_lt {place : Cursor} {c : Char} {cs : List Char} {l : Lexeme}
    (h : step place c cs = .ok l) : l.rest.length < (c :: cs).length := by
  have drop (p : Char → Bool) := length_dropWhile_le p cs
  unfold step at h
  split at h
  · cases h; simp
  split at h
  · cases h; simpa [Nat.lt_succ_iff] using drop (· != '\n')
  split at h
  · cases h; simpa [readRun, Nat.lt_succ_iff] using drop isWordChar
  split at h
  · dsimp only at h
    split at h
    · cases h; simpa [readRun, Nat.lt_succ_iff] using drop isNumberChar
    · cases h
  split at h
  · split at h
    · next heq => cases h; simpa [Nat.lt_succ_iff] using readString_rest_le heq
    · cases h
  split at h
  · cases h; simpa [readRun, Nat.lt_succ_iff] using drop isOperatorChar
  split at h
  · cases h; simp [readRun]
  · cases h

/-- What reading a text gives, and where it ended. -/
structure Lexed where
  /-- The tokens, with the end of the text last unless reading failed. -/
  tokens : List Token
  failure? : Option Failure
  place : Cursor
  rest : List Char

def lexFrom (place : Cursor) : List Char → Lexed
  | [] => ⟨[.ofCursor .endOfText .none place], none, place, []⟩
  | c :: cs =>
    match h : step place c cs with
    | .error f => ⟨[], some f, f.place, f.rest⟩
    | .ok l =>
      have := step_rest_lt h
      let later := lexFrom l.place l.rest
      { later with tokens := l.token?.toList ++ later.tokens }
termination_by cs => cs.length
decreasing_by exact this

def lex (source : String) : Lexed := lexFrom .start source.toList

end Scriptling.Freeform
