import Scriptling.Number.Binary64
import Scriptling.Text.Class

/-!
# Reading numbers

Number texts may have blanks around them, digits of any script, and single underscores between digits. A
whole number may be given in a base up to 36; a float may have a fraction and an exponent, or be one of the
words for infinity and not-a-number.
-/

namespace Scriptling.Number

open Text

/-- Blanks that may surround a number: the usual ASCII ones, and every blank above ASCII. -/
def isOuterBlank (c : Char) : Bool := if c.toNat < 0x80 then c == ' ' || (9 ≤ c.toNat && c.toNat ≤ 13) else isBlank c

def trimOuter (cs : List Char) : List Char := ((cs.dropWhile isOuterBlank).reverse.dropWhile isOuterBlank).reverse

/-- A digit of any script as its ASCII digit; other characters stay. -/
def plainDigit (c : Char) : Char :=
  match decimalValue? c with
  | some d => Char.ofNat (48 + d)
  | none => c

/-- The value of a digit or letter in bases up to 36. -/
def digitValue? (c : Char) : Option Nat :=
  if '0' ≤ c ∧ c ≤ '9' then some (c.toNat - 48)
  else if 'a' ≤ c ∧ c ≤ 'z' then some (c.toNat - 87)
  else if 'A' ≤ c ∧ c ≤ 'Z' then some (c.toNat - 55)
  else none

/-- Removes single underscores that stand between two characters of a class; fails on any other. -/
def dropUnderscores (isPart : Char → Bool) : Option Char → List Char → Option (List Char)
  | _, [] => some []
  | before, '_' :: rest =>
    match before, rest with
    | some b, next :: _ =>
      if isPart b && isPart next then dropUnderscores isPart (some '_') rest else none
    | _, _ => none
  | _, c :: rest => (dropUnderscores isPart (some c) rest).map (c :: ·)

/-- The number that digits stand for in a base; fails on a character that is no digit of it. -/
def valueOfDigits? (base : Nat) (cs : List Char) : Option Nat :=
  cs.foldl (fun acc c => acc.bind fun n =>
    (digitValue? c).bind fun d => if d < base then some (n * base + d) else none) (some 0)

/-- Whether a text that starts with `0` and a base letter, such as `0x`, is in that letter's base. -/
def prefixBase? : List Char → Option (Nat × List Char)
  | '0' :: 'x' :: r | '0' :: 'X' :: r => some (16, r)
  | '0' :: 'o' :: r | '0' :: 'O' :: r => some (8, r)
  | '0' :: 'b' :: r | '0' :: 'B' :: r => some (2, r)
  | _ => none

def splitSign : List Char → Bool × List Char
  | '-' :: r => (true, r)
  | '+' :: r => (false, r)
  | cs => (false, cs)

/-- A whole number has at most this many decimal digits in a text. -/
def maxDecimalDigits : Nat := 4300

/-- The least natural number that has too many decimal digits to be written. -/
def unwritable : Nat := Nat.pow 10 maxDecimalDigits

/-- Bases in which a number may have any number of digits: every digit stands for some bits. -/
def isBinaryBase (base : Nat) : Bool := [2, 4, 8, 16, 32].contains base

/-- Unsigned digits in a base, underscores between them allowed. -/
def readDigits? (base : Nat) (cs : List Char) : Option Nat :=
  match dropUnderscores (fun c => (digitValue? c).isSome) none cs with
  | none | some [] => none
  | some ds =>
    if ds.length > maxDecimalDigits && !isBinaryBase base then none
    else valueOfDigits? base ds

/-- The base and the digits of an unsigned number text; base 0 lets the text choose. An underscore may
follow a base letter. -/
def resolveBase? (base : Nat) (cs : List Char) : Option (Nat × List Char) :=
  let afterLetter : List Char → List Char
    | '_' :: r | r => r
  match base, prefixBase? cs with
  | 0, some (b, r) => some (b, afterLetter r)
  | 0, none =>
    -- without a base letter a leading zero is allowed only in zero itself
    match cs with
    | '0' :: _ => if cs.all (fun c => c == '0' || c == '_') then some (10, cs) else none
    | _ => some (10, cs)
  | b, some (b', r) => some (if b = b' then (b, afterLetter r) else (b, cs))
  | b, none => some (b, cs)

/-- Reads a whole number in a base from 2 to 36, or 0. -/
def readInt? (base : Nat) (s : String) : Option Int :=
  let cs := (trimOuter s.toList).map plainDigit
  let (negative, cs) := splitSign cs
  match resolveBase? base cs with
  | none => none
  | some (b, ds) => (readDigits? b ds).map fun (n : Nat) => if negative then -(n : Int) else n

/-- How many digits a text begins with, if they are too many for a whole number. -/
def surplusDigits? (base : Nat) (s : String) : Option Nat := do
  let (_, cs) := splitSign ((trimOuter s.toList).map plainDigit)
  let (b, cs) ← resolveBase? base cs
  let isDigit (c : Char) : Bool := (digitValue? c).any fun d => decide (d < b)
  let ds ← dropUnderscores isDigit none (cs.takeWhile fun c => c == '_' || isDigit c)
  if ds.length > maxDecimalDigits && !isBinaryBase b then some ds.length else none

/-- The words that stand for a float without digits, in any case. -/
def floatWord? (cs : List Char) : Option Float :=
  let w := String.ofList (cs.map Char.toLower)
  if w == "inf" || w == "infinity" then some (1.0 / 0.0)
  else if w == "nan" then some (0.0 / 0.0)
  else none

/-- The fraction that a text begins with, and what is behind it. -/
def splitFraction : List Char → List Char × List Char
  | '.' :: r => (r.takeWhile Char.isDigit, r.dropWhile Char.isDigit)
  | r => ([], r)

/-- The value of the text behind a mantissa, if it is an exponent. -/
def scaleValue? : List Char → Option Int
  | [] => some 0
  | e :: r =>
    if e == 'e' || e == 'E' then
      let (neg, ds) := splitSign r
      if ds.isEmpty || !ds.all Char.isDigit then none
      else (valueOfDigits? 10 ds).map fun (n : Nat) => if neg then -(n : Int) else n
    else none

/-- Digits with an optional fraction and exponent, after the sign. -/
def readDecimal? (negative : Bool) (cs : List Char) : Option Float :=
  let whole := cs.takeWhile Char.isDigit
  let (fraction, rest) := splitFraction (cs.dropWhile Char.isDigit)
  if whole.isEmpty && fraction.isEmpty then none else
  match scaleValue? rest, valueOfDigits? 10 (whole ++ fraction) with
  | some e, some m => some (floatOfDecimal negative m (e - fraction.length))
  | _, _ => none

def readFloat? (s : String) : Option Float :=
  let cs := (trimOuter s.toList).map plainDigit
  match dropUnderscores Char.isDigit none cs with
  | none => none
  | some cs =>
    let (negative, cs) := splitSign cs
    match floatWord? cs with
    | some x => some (if negative then -x else x)
    | none => readDecimal? negative cs

end Scriptling.Number
