import Scriptling.Datum.Format

/-!
# Loose comparison and plain text

The tree walker takes two numbers for equal when they are closer than a tolerance, takes every value for true
that is not nothing, zero or an empty list, text, tuple, set or dictionary, and writes whole floats without a
fraction.
-/

namespace Scriptling.Datum

def isTrue : Datum → Bool
  | none => false
  | bool b => b
  | int n => n != 0
  | float x => !(x == 0)
  | str s => !s.isEmpty
  | list xs | set xs | tuple xs => !xs.isEmpty
  | dict es => !es.isEmpty
  | _ => true

/-- The distance below which two numbers count as equal. -/
def tolerance : Float := 1e-10

/-- Whether two values are equal, numbers up to the tolerance. Their difference has to exist. -/
def looselyEq [Size.Room] (a b : Datum) : Except Fault Bool :=
  let isReal : Datum → Bool
    | bool _ | int _ | float _ => true
    | _ => false
  match a, b with
  | none, none => .ok true
  | none, _ | _, none => .ok false
  | a, b =>
    if isReal a && isReal b then do
      relate .less (← absolute (← operate .sub a b)) (float tolerance)
    else .ok (eq a b)

/-- The text of a value, without a fraction that is zero. -/
def plainText (d : Datum) : Except Fault String :=
  match d with
  | float x =>
    let text := Number.floatText x
    .ok (if text.endsWith ".0" then String.ofList (text.toList.take (text.length - 2)) else text)
  | d => d.display

/-- The text of a value, a float rounded to a number of places and then without trailing zeros. -/
def roundedText [Size.Room] (d precision : Datum) : Except Fault String :=
  match d with
  | float _ => do
    let text ← d.format ("." ++ (← precision.display) ++ "f")
    if text.contains '.' then
      let digits := text.toList.reverse.dropWhile (· == '0')
      .ok (String.ofList (digits.dropWhile (· == '.')).reverse)
    else .ok text
  | d => d.plainText

/-- The lesser of two values; the first if neither is less. -/
def lesser (a b : Datum) : Except Fault Datum := do
  if ← relate .less b a then .ok b else .ok a

/-- The greater of two values; the first if neither is greater. -/
def greater (a b : Datum) : Except Fault Datum := do
  if ← relate .greater b a then .ok b else .ok a

/-- Whether two numbers are close, relative to the greater of them or absolutely. -/
def isClose [Size.Room] (a b relative allowed : Datum) : Except Fault Bool := do
  let distance ← absolute (← operate .sub a b)
  let size ← greater (← absolute a) (← absolute b)
  relate .lessEqual distance (← greater (← operate .mul relative size) allowed)

def clamp (d low high : Datum) : Except Fault Datum := do greater low (← lesser high d)

end Scriptling.Datum
