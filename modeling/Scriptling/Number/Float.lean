import Scriptling.Number.Binary64

/-!
# Float arithmetic with stated results

Remainders, floor division, powers and rounding of floats, with the exact value decided by whole-number
arithmetic where the hardware operation does not fix it.
-/

namespace Scriptling.Number

def isNan (x : Float) : Bool := x != x

def isInfinite (x : Float) : Bool :=
  match Binary64.ofFloat x with
  | .infinite _ => true
  | _ => false

def infinity : Float := 1.0 / 0.0

def nan : Float := 0.0 / 0.0

/-- The magnitude of the first float with the sign of the second. -/
def copySign (x y : Float) : Float :=
  let magnitude := x.toBits.toNat % Nat.pow 2 63
  let sign := y.toBits.toNat / Nat.pow 2 63 * Nat.pow 2 63
  Float.ofBits (UInt64.ofNat (magnitude + sign))

/-- What is left of `x` after whole multiples of `y` toward zero, exactly; it has the sign of `x`. -/
def remainder (x y : Float) : Float :=
  match Binary64.ofFloat x, Binary64.ofFloat y with
  | .finite negative a p, .finite _ b q =>
    if b = 0 then nan else
    let low := min p q
    let r := (a * Nat.pow 2 (p - low).toNat) % (b * Nat.pow 2 (q - low).toNat)
    if low ≥ 0 then floatOfRatio negative (r * Nat.pow 2 low.toNat) 1
    else floatOfRatio negative r (Nat.pow 2 (-low).toNat)
  | .finite .., .infinite _ => x
  | _, _ => nan

/-- Quotient rounded down and the remainder that goes with it, which has the sign of the divisor. -/
def floorDivMod (x y : Float) : Float × Float :=
  let r := remainder x y
  let q := (x - r) / y
  let (r, q) :=
    if r == 0 then (copySign 0 y, q)
    else if decide (y < 0) != decide (r < 0) then (r + y, q - 1) else (r, q)
  let q :=
    if q == 0 then copySign 0 (x / y)
    else
      let down := q.floor
      if q - down > 0.5 then down + 1 else down
  (q, r)

def isOddWhole (x : Float) : Bool :=
  match truncate? x with
  | some n => isWhole x && n % 2 != 0
  | none => false

inductive PowerResult where
  | float (x : Float)
  /-- The base is negative and the exponent not whole, so the power is a complex number. -/
  | complex
  | zeroDivision
  | overflow

def power (x y : Float) : PowerResult :=
  if y == 0 then .float 1
  else if isNan x then .float x
  else if isNan y then .float (if x == 1 then 1 else y)
  else if isInfinite y then
    let a := x.abs
    .float (if a == 1 then 1 else if decide (y > 0) == decide (a > 1) then infinity else 0)
  else if isInfinite x then
    let odd := isOddWhole y
    .float (if y > 0 then (if odd then x else x.abs) else (if odd then copySign 0 x else 0))
  else if x == 0 then
    if y < 0 then .zeroDivision else .float (if isOddWhole y then x else 0)
  else if x < 0 && !isWhole y then .complex
  else
    let negate := x < 0 && isOddWhole y
    let a := x.abs
    if a == 1 then .float (if negate then -1 else 1)
    else
      let r := Float.pow a y
      if isInfinite r then .overflow else .float (if negate then -r else r)

/-- The root of a sum of squares `s * 4 ^ low`, correctly rounded. -/
def rootOfSquares (s : Nat) (low : Int) : Float :=
  -- 2 * 64 further bits of the square, so 64 of the root
  let root := Nat.sqrt (s * Nat.pow 2 128)
  let root := if root * root = s * Nat.pow 2 128 then 2 * root else 2 * root + 1
  let e := low - 65
  if e ≥ 0 then floatOfRatio false (root * Nat.pow 2 e.toNat) 1 else floatOfRatio false root (Nat.pow 2 (-e).toNat)

def finiteParts (xs : List Float) : List (Nat × Int) :=
  xs.filterMap fun x =>
    match Binary64.ofFloat x with
    | .finite _ units exponent => some (units, exponent)
    | _ => none

/-- The distance of a point from the origin: the sum of the squares of its coordinates is exact. An infinite
coordinate makes it infinite, whatever the others are. -/
def norm (xs : List Float) : Float :=
  if xs.any isInfinite then infinity
  else if xs.any isNan then nan
  else
    let parts := (finiteParts xs).filter (·.1 != 0)
    match parts with
    | [] => 0
    | (_, e) :: rest =>
      let low := rest.foldl (fun low (_, e) => min low e) e
      let squares := parts.map fun (u, e) => Nat.pow (u * Nat.pow 2 (e - low).toNat) 2
      rootOfSquares (squares.foldl (· + ·) 0) low

/-- The distance of a point of the plane from the origin. -/
def hypotenuse (x y : Float) : Float := norm [x, y]

/-- Rounds a finite float to a number of places after the point, or before it if negative; a half goes to
the even neighbour. `none` if the result is too large. -/
def roundPlaces? (x : Float) (places : Int) : Option Float :=
  match Binary64.ofFloat x with
  | .finite negative units exponent =>
    if places > 330 then some x
    else if places < -330 then some (copySign 0 x)
    else
      let num := units * Nat.pow 2 exponent.toNat * Nat.pow 10 places.toNat
      let den := Nat.pow 2 (-exponent).toNat * Nat.pow 10 (-places).toNat
      let n := roundDiv num den
      let r := if places ≥ 0 then floatOfRatio negative n (Nat.pow 10 places.toNat)
        else floatOfRatio negative (n * Nat.pow 10 (-places).toNat) 1
      if isInfinite r then none else some r
  | _ => some x

end Scriptling.Number
