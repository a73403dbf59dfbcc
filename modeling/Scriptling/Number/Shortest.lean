import Scriptling.Number.Binary64

/-!
# The shortest decimal of a float

The reals that round to a given float form an interval. The shortest decimal is the one with the fewest
digits in that interval, and among those the nearest to the float. The search takes the grids of one, two,
three … digits in turn and tests the two neighbours of the value on each, in exact arithmetic.
-/

namespace Scriptling.Number

/-- The number `digits * 10 ^ exponent`. -/
structure Decimal where
  digits : Nat
  exponent : Int
  deriving Repr, DecidableEq

namespace Decimal

def compareScaled (a : Nat) (s : Int) (d : Nat) (e : Int) : Ordering :=
  compare (a * Nat.pow 2 s.toNat * Nat.pow 10 (-e).toNat) (d * Nat.pow 10 e.toNat * Nat.pow 2 (-s).toNat)

/-- Whether `d * 10 ^ e` is among the reals that round to the float `units * 2 ^ exponent`: from halfway to the
neighbour below to halfway to the neighbour above, the ends included when `units` is even. The gap below
a power of two is half as wide. -/
def readsBack (units : Nat) (exponent : Int) (d : Nat) (e : Int) : Bool :=
  let narrow := units = Binary64.hiddenBit && exponent > Binary64.minExponent
  let low := if narrow then 4 * units - 1 else 4 * units - 2
  let below := compareScaled low (exponent - 2) d e
  let above := compareScaled (4 * units + 2) (exponent - 2) d e
  if units % 2 = 0 then below != .gt && above != .lt else below == .lt && above == .gt

/-- `units * 2 ^ exponent / 10 ^ e`, rounded down. -/
def floorOnGrid (units : Nat) (exponent : Int) (e : Int) : Nat :=
  (units * Nat.pow 2 exponent.toNat * Nat.pow 10 (-e).toNat) / (Nat.pow 10 e.toNat * Nat.pow 2 (-exponent).toNat)

/-- The least `k` with `units * 2 ^ exponent < 10 ^ k`, found from an estimate that is too small by at most
`fuel`. -/
def scaleFrom (units : Nat) (exponent : Int) (k : Int) : Nat → Int
  | 0 => k
  | fuel + 1 =>
    if compareScaled units exponent 1 k == .lt then k else scaleFrom units exponent (k + 1) fuel

/-- The least `k` with `units * 2 ^ exponent < 10 ^ k`. -/
def scale (units : Nat) (exponent : Int) : Int :=
  let log2 : Int := Nat.log2 units + exponent
  -- 30103 / 100000 is the logarithm of two to base ten, to five places
  scaleFrom units exponent (Int.fdiv (log2 * 30103) 100000 - 1) 5

/-- The candidate on the grid `10 ^ e`, if one of the value's two neighbours reads back: of two the nearer,
of two equally near the even one. -/
def onGrid? (units : Nat) (exponent : Int) (e : Int) : Option Nat :=
  let d := floorOnGrid units exponent e
  let lower := readsBack units exponent d e
  let upper := readsBack units exponent (d + 1) e
  match lower, upper with
  | true, true =>
    match compareScaled (2 * units) exponent (2 * d + 1) e with
    | .lt => some d
    | .gt => some (d + 1)
    | .eq => some (if d % 2 = 0 then d else d + 1)
  | true, false => some d
  | false, true => some (d + 1)
  | false, false => none

/-- The first grid with a candidate, from `10 ^ e` on to finer ones. -/
def search (units : Nat) (exponent : Int) (e : Int) : Nat → Option Decimal
  | 0 => none
  | fuel + 1 =>
    match onGrid? units exponent e with
    | some d => some ⟨d, e⟩
    | none => search units exponent (e - 1) fuel

/-- Moves trailing zeros of the digits into the exponent. -/
def strip (digits : Nat) (exponent : Int) : Nat → Decimal
  | 0 => ⟨digits, exponent⟩
  | fuel + 1 =>
    if digits ≠ 0 ∧ digits % 10 = 0 then strip (digits / 10) (exponent + 1) fuel
    else ⟨digits, exponent⟩

/-- The shortest decimal that reads back as the float `units * 2 ^ exponent`. Seventeen digits always suffice;
the exact value stands where they would not. -/
def shortest (units : Nat) (exponent : Int) : Decimal :=
  if units = 0 then ⟨0, 0⟩ else
  match search units exponent (scale units exponent - 1) 18 with
  | some d => strip d.digits d.exponent 20
  | none => ⟨units * Nat.pow 2 exponent.toNat * Nat.pow 5 (-exponent).toNat, min exponent 0⟩

end Decimal

end Scriptling.Number
