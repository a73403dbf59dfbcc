import Scriptling.Text.ClassTable

/-!
# Character classes

What counts as a letter, a digit, a blank or a printable character. The classes cover all of Unicode;
below `0x80` each is spelled out, above it a table decides, so facts about ASCII characters need no table.
-/

namespace Scriptling.Text

/-- Whether `n` lies in one of the closed ranges of `table`. -/
def inRanges (table : Array (Nat × Nat)) (n : Nat) : Bool :=
  table.any fun (lo, hi) => decide (lo ≤ n) && decide (n ≤ hi)

def isLetter (c : Char) : Bool := if c.toNat < 0x80 then c.isAlpha else inRanges letterRanges c.toNat

def decimalValue? (c : Char) : Option Nat :=
  if c.toNat < 0x80 then
    if c.isDigit then some (c.toNat - 48) else none
  else
    (decimalZeros.find? fun z => decide (z ≤ c.toNat) && decide (c.toNat < z + 10)).map (c.toNat - ·)

/-- Decimal digits, of which numbers in positional notation are made. -/
def isDecimal (c : Char) : Bool := (decimalValue? c).isSome

/-- Digits: decimal digits, and typographic ones such as superscripts. -/
def isDigit (c : Char) : Bool := isDecimal c || (decide (0x80 ≤ c.toNat) && inRanges typographicDigitRanges c.toNat)

/-- Characters with a numeric value, fractions included; letters with one are left to `isLetter`. -/
def isNumeric (c : Char) : Bool := isDigit c || (decide (0x80 ≤ c.toNat) && inRanges numericRanges c.toNat)

/-- Characters with a numeric value, letters included. -/
def isNumeral (c : Char) : Bool := isNumeric c || inRanges numeralLetterRanges c.toNat

def isAlphanumeric (c : Char) : Bool := isLetter c || isNumeric c

/-- Characters that may stand inside a word: letters, numerics and the underscore. -/
def isWordChar (c : Char) : Bool := isAlphanumeric c || c == '_'

def isWordStart (c : Char) : Bool := isLetter c || c == '_'

/-- Blanks, the four information separators and the line separators among them. -/
def isBlank (c : Char) : Bool :=
  let n := c.toNat
  (9 ≤ n && n ≤ 13) || (28 ≤ n && n ≤ 32) || n == 0x85 || n == 0xa0 || n == 0x1680 ||
    (0x2000 ≤ n && n ≤ 0x200a) || n == 0x2028 || n == 0x2029 || n == 0x202f || n == 0x205f || n == 0x3000

/-- Characters that are written as themselves inside quotes. -/
def isPrintable (c : Char) : Bool :=
  if c.toNat < 0x80 then decide (32 ≤ c.toNat) && decide (c.toNat < 127)
  else isAlphanumeric c || inRanges identifierRestRanges c.toNat || inRanges signRanges c.toNat

theorem isAlphanumeric_of_isLetter {c : Char} (h : isLetter c = true) : isAlphanumeric c = true := by
  simp [isAlphanumeric, h]

/-! ## Identifiers

Names as Unicode knows them: a letter or an underscore, and then letters, digits, and marks that combine with
them. -/

def isIdentifierStart (c : Char) : Bool :=
  if c.toNat < 0x80 then c.isAlpha || c == '_'
  else (isLetter c && !inRanges barredLetterRanges c.toNat) || inRanges identifierStartRanges c.toNat

def isIdentifierRest (c : Char) : Bool :=
  isIdentifierStart c || isDecimal c || (decide (0x80 ≤ c.toNat) && inRanges identifierRestRanges c.toNat)

def isIdentifier : List Char → Bool
  | [] => false
  | c :: cs => isIdentifierStart c && cs.all isIdentifierRest

end Scriptling.Text
