import Scriptling.Number.Shortest

/-!
# Written floats

How a float is laid out as text. A layout says which digits are taken (the shortest that read back, a set
number of places, or a set number of significant digits), where positional notation ends, and whether a
point is kept when no digit follows it.
-/

namespace Scriptling.Number

inductive Precision where
  | shortest
  | places (n : Nat)
  /-- A set number of significant digits, with an exponent. -/
  | exponential (n : Nat)
  /-- A set number of significant digits; trailing zeros are dropped, and positional notation ends where
  the digits do. -/
  | general (n : Nat)
  deriving Repr, DecidableEq

structure FloatLayout where
  precision : Precision
  /-- A whole number in positional notation ends in `.0`. -/
  pointZero : Bool
  /-- A point is written even if nothing follows it, and no trailing zero is dropped. -/
  alternate : Bool
  capitals : Bool
  deriving Repr, DecidableEq

/-- Numbers in scripts are written with the fewest digits that identify them, positionally while the point
stands at most sixteen digits to the right and three zeros to the left, and otherwise with a signed exponent
of at least two digits. -/
def FloatLayout.natural : FloatLayout := ⟨.shortest, true, false, false⟩

/-- The parts of complex numbers are written like other numbers, without a final `.0`. -/
def FloatLayout.complexPart : FloatLayout := ⟨.shortest, false, false, false⟩

/-- The decimal digits of a number, as characters. -/
def digitChars (n : Nat) : List Char := Nat.toDigits 10 n

def zeros (n : Nat) : List Char := List.replicate n '0'

/-- Digits `ds` with the point after `point` of them: the integer part and the fraction. -/
def splitAtPoint (ds : List Char) (point : Int) : List Char × List Char :=
  if point ≤ 0 then (['0'], zeros (-point).toNat ++ ds)
  else if point.toNat ≥ ds.length then (ds ++ zeros (point.toNat - ds.length), [])
  else (ds.take point.toNat, ds.drop point.toNat)

def dropTrailingZeros (ds : List Char) : List Char :=
  match (ds.reverse.dropWhile (· == '0')).reverse with
  | [] => ds.take 1
  | kept => kept

def exponentChars (e : Int) (capitals : Bool) : List Char :=
  let ds := digitChars e.natAbs
  (if capitals then 'E' else 'e') :: (if e < 0 then '-' else '+') :: (if ds.length < 2 then '0' :: ds else ds)

/-- `units * 2 ^ exponent` rounded to a whole number of `10 ^ e`, a half going to the even neighbour. -/
def roundOnGrid (units : Nat) (exponent e : Int) : Nat :=
  roundDiv (units * Nat.pow 2 exponent.toNat * Nat.pow 10 (-e).toNat) (Nat.pow 10 e.toNat * Nat.pow 2 (-exponent).toNat)

/-- The first `n` significant digits of a value that is not zero, rounded, and where the point stands. -/
def significant (units : Nat) (exponent : Int) (n : Nat) : List Char × Int :=
  let point := Decimal.scale units exponent
  let d := roundOnGrid units exponent (point - n)
  if d = Nat.pow 10 n then (digitChars (Nat.pow 10 (n - 1)), point + 1) else (digitChars d, point)

def positionalText (layout : FloatLayout) (ds : List Char) (point : Int) : List Char :=
  let (whole, fraction) := splitAtPoint ds point
  if fraction.isEmpty then
    if layout.pointZero then whole ++ ['.', '0']
    else if layout.alternate then whole ++ ['.'] else whole
  else whole ++ '.' :: fraction

def exponentialText (layout : FloatLayout) (ds : List Char) (point : Int) : List Char :=
  let mantissa : List Char := match ds with
    | [] => ['0']
    | [d] => if layout.alternate then [d, '.'] else [d]
    | d :: rest => d :: '.' :: rest
  mantissa ++ exponentChars (point - 1) layout.capitals

/-- No float has more decimal places, or more significant digits, than this: the digits beyond are zeros. -/
def maxPlaces : Nat := 1100

/-- The digits of a magnitude with `n` significant digits; all zeros for zero. -/
def significantOrZero (units : Nat) (exponent : Int) (n : Nat) : List Char × Int :=
  if units = 0 then (zeros n, 1)
  else
    let (ds, point) := significant units exponent (min n maxPlaces)
    (ds ++ zeros (n - maxPlaces), point)

def magnitudeText (layout : FloatLayout) (units : Nat) (exponent : Int) : List Char :=
  match layout.precision with
  | .shortest =>
    let d := Decimal.shortest units exponent
    let ds := digitChars d.digits
    let point : Int := ds.length + d.exponent
    if point ≤ -4 ∨ point > 16 then exponentialText layout ds point else positionalText layout ds point
  | .places n =>
    let near := min n maxPlaces
    let ds := digitChars (roundOnGrid units exponent (-(near : Int)))
    let ds := (if ds.length ≤ near then zeros (near + 1 - ds.length) ++ ds else ds) ++ zeros (n - near)
    let layout := { layout with pointZero := false }
    positionalText layout ds ((ds.length : Int) - n)
  | .exponential n =>
    let (ds, point) := significantOrZero units exponent (n + 1)
    exponentialText layout ds point
  | .general n =>
    let n := if n = 0 then 1 else n
    let (ds, point) := significantOrZero units exponent (if layout.alternate then n else min n maxPlaces)
    let ds := if layout.alternate then ds else dropTrailingZeros ds
    let limit : Int := if layout.pointZero then (n : Int) - 1 else n
    if point ≤ -4 ∨ point > limit then exponentialText layout ds point
    else positionalText layout ds point

/-- The text of a float's magnitude, infinities and not-a-number included. -/
def unsignedText (layout : FloatLayout) (x : Float) : List Char :=
  match Binary64.ofFloat x with
  | .nan => (if layout.capitals then "NAN" else "nan").toList
  | .infinite _ => (if layout.capitals then "INF" else "inf").toList
  | .finite _ units exponent => magnitudeText layout units exponent

/-- Whether a minus sign stands before a float's text. -/
def isNegative (x : Float) : Bool :=
  match Binary64.ofFloat x with
  | .nan => false
  | .infinite negative | .finite negative _ _ => negative

def writeFloat (layout : FloatLayout) (x : Float) : String :=
  String.ofList (if isNegative x then '-' :: unsignedText layout x else unsignedText layout x)

def floatText (x : Float) : String := writeFloat .natural x

/-- A complex number: in parentheses unless its real part is a positive zero. -/
def complexText (re im : Float) : String :=
  let imText := writeFloat .complexPart im
  if re == 0 && !isNegative re then imText ++ "j"
  else
    "(" ++ writeFloat .complexPart re ++ (if isNegative im then "" else "+") ++ imText ++ "j)"

def intText (n : Int) : String := String.ofList (if n < 0 then '-' :: digitChars n.natAbs else digitChars n.natAbs)

/-- A natural number in a base up to sixteen, in small letters. -/
def baseDigits (base n : Nat) : List Char := Nat.toDigits base n

end Scriptling.Number
