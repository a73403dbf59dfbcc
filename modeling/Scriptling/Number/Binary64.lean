/-!
# The exact value of a float

A finite float is a whole number of units times a power of two. Everything that has to be exact about a
float (its shortest decimal text, its comparison with a whole number, its integer part) goes through that
form and is then arithmetic on whole numbers.
-/

namespace Scriptling.Number

/-- The parts of a float. -/
inductive Binary64 where
  | nan
  | infinite (negative : Bool)
  /-- The number `± units * 2 ^ exponent`; zero keeps its sign. -/
  | finite (negative : Bool) (units : Nat) (exponent : Int)
  deriving Repr, DecidableEq

namespace Binary64

/-- Smallest exponent of a float, that of the subnormal numbers. -/
def minExponent : Int := -1074

def hiddenBit : Nat := Nat.pow 2 52

def ofBits (bits : Nat) : Binary64 :=
  let negative := decide (bits / Nat.pow 2 63 % 2 = 1)
  let biased := bits / Nat.pow 2 52 % 2048
  let fraction := bits % Nat.pow 2 52
  if biased = 2047 then
    if fraction = 0 then infinite negative else nan
  else if biased = 0 then finite negative fraction minExponent
  else finite negative (hiddenBit + fraction) (minExponent + (biased - 1 : Nat))

def ofFloat (x : Float) : Binary64 := ofBits x.toBits.toNat

end Binary64

/-- The float `± units * 2 ^ exponent`, exact for the units and exponents that a float has. -/
def floatOfUnits (negative : Bool) (units : Nat) (exponent : Int) : Float :=
  let bits : Nat :=
    if units < Binary64.hiddenBit then units
    else (exponent - Binary64.minExponent + 1).toNat * Nat.pow 2 52 + (units - Binary64.hiddenBit)
  Float.ofBits (UInt64.ofNat (if negative then bits + Nat.pow 2 63 else bits))

/-- `num / den` rounded to the nearest whole number, a half going to the even one. -/
def roundDiv (num den : Nat) : Nat :=
  let q := num / den
  let r := num % den
  if 2 * r < den then q
  else if 2 * r > den then q + 1
  else if q % 2 = 0 then q else q + 1

/-- The float nearest to `num / den`, ties to the even one; infinite when it is too large. -/
def floatOfRatio (negative : Bool) (num den : Nat) : Float :=
  if num = 0 then (if negative then -0.0 else 0.0) else
  -- an exponent that leaves 53 or 54 bits before the point
  let estimate : Int := (Nat.log2 num : Int) - (Nat.log2 den : Int) - 53
  let scaled (e : Int) : Nat :=
    if e ≥ 0 then roundDiv num (den * Nat.pow 2 e.toNat) else roundDiv (num * Nat.pow 2 (-e).toNat) den
  let fits (e : Int) : Bool :=
    if e ≥ 0 then num < den * Nat.pow 2 e.toNat * Nat.pow 2 53 else num * Nat.pow 2 (-e).toNat < den * Nat.pow 2 53
  let e := if fits estimate then estimate else estimate + 1
  let e := max e Binary64.minExponent
  let units := scaled e
  let (units, e) := if units = Nat.pow 2 53 then (Nat.pow 2 52, e + 1) else (units, e)
  if e > 971 then (if negative then -(1.0 / 0.0) else 1.0 / 0.0)
  else floatOfUnits negative units e

/-- The float nearest to a whole number, ties to the even one; infinite when it is too large. -/
def floatOfInt (n : Int) : Float := floatOfRatio (decide (n < 0)) n.natAbs 1

/-- The float `m * 10 ^ e` read correctly rounded. Exponents far outside the range of floats are decided
by the number of digits, so that no huge power of ten is formed. -/
def floatOfDecimal (negative : Bool) (m : Nat) (e : Int) : Float :=
  if m = 0 then (if negative then -0.0 else 0.0) else
  let magnitude : Int := (Nat.toDigits 10 m).length + e
  if magnitude > 310 then (if negative then -(1.0 / 0.0) else 1.0 / 0.0)
  else if magnitude < -330 then (if negative then -0.0 else 0.0)
  else if e ≥ 0 then floatOfRatio negative (m * Nat.pow 10 e.toNat) 1
  else floatOfRatio negative m (Nat.pow 10 (-e).toNat)

def isWhole (x : Float) : Bool :=
  match Binary64.ofFloat x with
  | .finite _ units exponent => exponent ≥ 0 || units % Nat.pow 2 (-exponent).toNat == 0
  | _ => false

def truncate? (x : Float) : Option Int :=
  match Binary64.ofFloat x with
  | .finite negative units exponent =>
    let n : Nat := if exponent ≥ 0 then units * Nat.pow 2 exponent.toNat else units / Nat.pow 2 (-exponent).toNat
    some (if negative then -(n : Int) else n)
  | _ => none

/-- The greatest whole number not above a finite float. -/
def floor? (x : Float) : Option Int :=
  match Binary64.ofFloat x with
  | .finite negative units exponent =>
    let n : Int := if negative then -(units : Int) else units
    some (if exponent ≥ 0 then n * Nat.pow 2 exponent.toNat else Int.fdiv n (Nat.pow 2 (-exponent).toNat))
  | _ => none

/-- The least whole number not below a finite float. -/
def ceiling? (x : Float) : Option Int := (floor? (-x)).map (- ·)

/-- The whole number nearest to a finite float, a half going to the even one. -/
def nearest? (x : Float) : Option Int :=
  match Binary64.ofFloat x with
  | .finite negative units exponent =>
    let n : Nat :=
      if exponent ≥ 0 then units * Nat.pow 2 exponent.toNat else roundDiv units (Nat.pow 2 (-exponent).toNat)
    some (if negative then -(n : Int) else n)
  | _ => none

/-- Compares a whole number with a float, exactly. `none` when the float is not a number. -/
def compareIntFloat (n : Int) (x : Float) : Option Ordering :=
  match Binary64.ofFloat x with
  | .nan => none
  | .infinite negative => some (if negative then .gt else .lt)
  | .finite negative units exponent =>
    let m : Int := if negative then -(units : Int) else units
    some <| if exponent ≥ 0 then compare n (m * Nat.pow 2 exponent.toNat)
      else compare (n * Nat.pow 2 (-exponent).toNat) m

end Scriptling.Number
