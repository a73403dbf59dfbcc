import Scriptling.Text.Class

/-!
# Patterns at a place in a text

Each pattern says how much of a text, from its front, is of one form.
-/

namespace Scriptling.Indented

open Text

inductive Pattern where
  /-- A word of ASCII letters, digits and underscores. -/
  | identifier
  /-- Digits with or without an exponent, and perhaps a mark for an imaginary number. -/
  | integer
  | float
  | literal
  | blank
  | lineEnd
  | comment
  deriving Repr, DecidableEq

def isPlainStart (c : Char) : Bool := c.isAlpha || c == '_'

def isSpace (c : Char) : Bool := c == ' ' || c == '\t' || c == '\x0c'

def isLineEnd (c : Char) : Bool := c == '\n' || c == '\r'

def takeSign : List Char → List Char × List Char
  | '+' :: cs => (['+'], cs)
  | '-' :: cs => (['-'], cs)
  | cs => ([], cs)

/-- An exponent: its mark, a sign, and digits, at least one if `needsDigit`. -/
def takeExponent? (needsDigit : Bool) : List Char → Option (List Char × List Char)
  | c :: cs =>
    if c = 'e' || c = 'E' then
      let (sign, cs) := takeSign cs
      let digits := cs.takeWhile isDecimal
      if needsDigit && digits.isEmpty then none
      else some (c :: sign ++ digits, cs.dropWhile isDecimal)
    else none
  | [] => none

/-- The mark of an imaginary number, if it is there. -/
def takeImaginary : List Char → List Char
  | c :: _ => if c = 'j' || c = 'J' then [c] else []
  | [] => []

def takeQuoted? (quote : Char) (cs : List Char) : Option (List Char) :=
  match cs.dropWhile (· != quote) with
  | q :: _ => some (cs.takeWhile (· != quote) ++ [q])
  | [] => none

/-- How much of a text is of a form, if anything is. -/
def Pattern.find? (p : Pattern) (cs : List Char) : Option (List Char) :=
  match p with
  | .identifier =>
    match cs with
    | c :: rest =>
      if isPlainStart c then some (c :: rest.takeWhile fun c => isPlainStart c || c.isDigit) else none
    | [] => none
  | .integer =>
    let digits := cs.takeWhile isDecimal
    let rest := cs.dropWhile isDecimal
    if digits.isEmpty then none
    else match takeExponent? true rest with
      | some (e, rest) => some (digits ++ e ++ takeImaginary rest)
      | none => some (digits ++ takeImaginary rest)
  | .float =>
    let digits := cs.takeWhile isDecimal
    let rest := cs.dropWhile isDecimal
    if digits.isEmpty then none
    else match rest with
      | '.' :: rest =>
        let places := rest.takeWhile isDecimal
        let rest := rest.dropWhile isDecimal
        match takeExponent? false rest with
        | some (e, rest) => some (digits ++ '.' :: places ++ e ++ takeImaginary rest)
        | none => some (digits ++ '.' :: places ++ takeImaginary rest)
      | rest =>
        match takeExponent? true rest with
        | some (e, rest) => some (digits ++ e ++ takeImaginary rest)
        | none => none
  | .literal =>
    let letters := cs.takeWhile "rRuUfF".toList.contains
    match cs.dropWhile "rRuUfF".toList.contains with
    | '"' :: rest => (takeQuoted? '"' rest).map fun t => letters ++ '"' :: t
    | '\x27' :: rest => (takeQuoted? '\x27' rest).map fun t => letters ++ '\x27' :: t
    | _ => none
  | .blank =>
    let t := cs.takeWhile isSpace
    if t.isEmpty then none else some t
  | .lineEnd =>
    match cs with
    | '\r' :: '\n' :: _ => some ['\r', '\n']
    | '\n' :: _ => some ['\n']
    | '\r' :: _ => some ['\r']
    | _ => none
  | .comment =>
    match cs with
    | '#' :: rest => some ('#' :: rest.takeWhile fun c => !isLineEnd c)
    | _ => none

end Scriptling.Indented
