import Scriptling.Datum.Order
import Scriptling.Number.Float
import Scriptling.Size

/-!
# Arithmetic on data

The operators of scripts on numbers and sequences. Whole numbers are exact; a float makes the result a
float, a complex number makes it complex. Lists, tuples, texts and bytes are joined by `+` and repeated
by `*`; sets are subtracted by `-`.
-/

namespace Scriptling.Datum

open Number

variable [Size.Room]

inductive Operator where
  | add
  | sub
  | mul
  | div
  | floorDiv
  | mod
  | pow
  deriving Repr, DecidableEq

def Operator.sign : Operator → String
  | .add => "+"
  | .sub => "-"
  | .mul => "*"
  | .div => "/"
  | .floorDiv => "//"
  | .mod => "%"
  | .pow => "** or pow()"

/-- A whole number as a float; too large a number is a fault. -/
def floatOfInt (n : Int) : Except Fault Float :=
  let x := Number.floatOfInt n
  if Number.isInfinite x then .error .intTooLarge else .ok x

/-- A float made whole by a way of rounding, which no number and infinities are not. -/
def wholeBy (round : Float → Option Int) (x : Float) : Except Fault Int :=
  match round x with
  | some n => .ok n
  | .none => .error (if isNan x then .nanToInt else .infinityToInt)

def zeroDivision : Fault := .plain .zeroDivision

/-- The quotient of whole numbers as the nearest float. Zero divided by a negative number is a negative zero. -/
def divideInts (a b : Int) : Except Fault Datum :=
  if b = 0 then .error zeroDivision else
  let x := floatOfRatio (decide (a < 0) != decide (b < 0)) a.natAbs b.natAbs
  if isInfinite x then .error (.plain .overflow) else .ok (float x)

def complexMul (a b : Float × Float) : Float × Float := (a.1 * b.1 - a.2 * b.2, a.1 * b.2 + a.2 * b.1)

def complexDiv (a b : Float × Float) : Option (Float × Float) :=
  if b.1.abs ≥ b.2.abs then
    if b.1.abs == 0 then .none
    else
      let ratio := b.2 / b.1
      let denom := b.1 + b.2 * ratio
      some ((a.1 + a.2 * ratio) / denom, (a.2 - a.1 * ratio) / denom)
  else if b.2.abs ≥ b.1.abs then
    let ratio := b.1 / b.2
    let denom := b.1 * ratio + b.2
    some ((a.1 * ratio + a.2) / denom, (a.2 * ratio - a.1) / denom)
  else some (nan, nan)

/-- A complex number to a natural power, by repeated squaring. -/
def complexPowNat (a : Float × Float) (n : Nat) : Float × Float :=
  let rec go (base acc : Float × Float) (n fuel : Nat) : Float × Float :=
    match fuel with
    | 0 => acc
    | fuel + 1 =>
      if n = 0 then acc
      else go (complexMul base base) (if n % 2 = 1 then complexMul acc base else acc) (n / 2) fuel
  go a (1, 0) n 64

/-- A complex number, unless a part of it is infinite. -/
def finiteComplex (r : Float × Float) : Except Fault Datum :=
  if isInfinite r.1 || isInfinite r.2 then .error (.plain .overflow) else .ok (complex r.1 r.2)

def complexPow (a b : Float × Float) : Except Fault Datum :=
  if b.1 == 0 && b.2 == 0 then .ok (complex 1 0)
  else if b.2 == 0 && isWhole b.1 && b.1.abs ≤ 100 then
    let n := ((truncate? b.1).getD 0)
    if n ≥ 0 then finiteComplex (complexPowNat a n.toNat)
    else match complexDiv (1, 0) (complexPowNat a n.natAbs) with
      | some r => finiteComplex r
      | .none => .error .zeroToNegativePower
  else if a.1 == 0 && a.2 == 0 then
    if b.2 != 0 || b.1 < 0 then .error .zeroToNegativePower else .ok (complex 0 0)
  else
    let size := hypotenuse a.1 a.2
    let angle := Float.atan2 a.2 a.1
    let len := Float.pow size b.1
    let phase := angle * b.1
    let (len, phase) :=
      if b.2 == 0 then (len, phase)
      else (len * Float.exp (-angle * b.2), phase + b.2 * Float.log size)
    finiteComplex (len * phase.cos, len * phase.sin)

def floatOperation (op : Operator) (x y : Float) : Except Fault Datum :=
  match op with
  | .add => .ok (float (x + y))
  | .sub => .ok (float (x - y))
  | .mul => .ok (float (x * y))
  | .div => if y == 0 then .error zeroDivision else .ok (float (x / y))
  | .floorDiv => if y == 0 then .error zeroDivision else .ok (float (floorDivMod x y).1)
  | .mod => if y == 0 then .error zeroDivision else .ok (float (floorDivMod x y).2)
  | .pow =>
    match power x y with
    | .float r => .ok (float r)
    | .zeroDivision => .error .zeroToNegativePower
    | .overflow => .error .resultOutOfRange
    | .complex => complexPow (x, 0) (y, 0)

def complexOperation (op : Operator) (a b : Float × Float) : Except Fault Datum :=
  match op with
  | .add => .ok (complex (a.1 + b.1) (a.2 + b.2))
  | .sub => .ok (complex (a.1 - b.1) (a.2 - b.2))
  | .mul => let r := complexMul a b; .ok (complex r.1 r.2)
  | .div => match complexDiv a b with
    | some r => .ok (complex r.1 r.2)
    | .none => .error zeroDivision
  | .pow => complexPow a b
  | .floorDiv | .mod => .error (.unsupported op.sign "complex" "complex")

/-- A whole number to a natural power, for which there has to be room. -/
def powerInt (a : Int) (n : Nat) : Except Fault Int := do
  if a.natAbs ≤ 1 then return if n = 0 then 1 else if n % 2 = 0 then a * a else a
  let _ ← Size.chars (Nat.log2 a.natAbs * n)
  return Int.pow a n

def intOperation (op : Operator) (a b : Int) : Except Fault Datum :=
  match op with
  | .add => .ok (int (a + b))
  | .sub => .ok (int (a - b))
  | .mul => .ok (int (a * b))
  | .div => divideInts a b
  | .floorDiv => if b = 0 then .error zeroDivision else .ok (int (Int.fdiv a b))
  | .mod => if b = 0 then .error zeroDivision else .ok (int (Int.fmod a b))
  | .pow =>
    if b ≥ 0 then do return int (← powerInt a b.toNat)
    else do floatOperation .pow (← floatOfInt a) (← floatOfInt b)

def Numeric.toComplex : Numeric → Except Fault (Float × Float)
  | .int n => do .ok (← floatOfInt n, 0)
  | .float x => .ok (x, 0)
  | .complex re im => .ok (re, im)

def numericOperation (op : Operator) : Numeric → Numeric → Except Fault Datum
  | .int a, .int b => intOperation op a b
  | .int a, .float y => do floatOperation op (← floatOfInt a) y
  | .float x, .int b => do floatOperation op x (← floatOfInt b)
  | .float x, .float y => floatOperation op x y
  | a, b => do complexOperation op (← a.toComplex) (← b.toComplex)

def repeatItems {α : Type} (n : Nat) (items : List α) : List α := (List.replicate n items).flatten

/-- `n` copies of a text one after the other, by doubling. -/
def repeatText (n : Nat) (s : String) : String :=
  if n = 0 then "" else
    let half := repeatText (n / 2) s
    if n % 2 = 0 then half ++ half else half ++ half ++ s
termination_by n

def repeatDatum (n : Int) : Datum → Option (Except Fault Datum)
  | str s => some do return str (repeatText (← Size.textCopies s.length n) s)
  | bytes bs => some do return bytes (repeatItems (← Size.textCopies bs.length n) bs)
  | byteArray bs => some do return byteArray (repeatItems (← Size.copies bs.length n) bs)
  | list items => some do return list (repeatItems (← Size.copies items.length n) items)
  | tuple items => some do return tuple (repeatItems (← Size.copies items.length n) items)
  | _ => .none

/-- An operator on values of which at least one is no number. -/
def sequenceOperation (op : Operator) (a b : Datum) : Except Fault Datum :=
  let fails : Except Fault Datum := .error (.unsupported op.sign a.typeName b.typeName)
  match op with
  | .add =>
    match a, b with
    | str x, str y => .ok (str (x ++ y))
    | bytes x, bytes y | bytes x, byteArray y => .ok (bytes (x ++ y))
    | byteArray x, bytes y | byteArray x, byteArray y => .ok (byteArray (x ++ y))
    | list x, list y => .ok (list (x ++ y))
    | tuple x, tuple y => .ok (tuple (x ++ y))
    | _, _ => fails
  | .sub =>
    match a, b with
    | set x, set y | set x, frozenset y => .ok (set (x.filter fun d => !member d y))
    | frozenset x, set y | frozenset x, frozenset y =>
      .ok (frozenset (x.filter fun d => !member d y))
    | _, _ => fails
  | .mul =>
    match a.int?, b.int? with
    | some n, .none => (repeatDatum n b).getD fails
    | .none, some n => (repeatDatum n a).getD fails
    | _, _ => fails
  | _ => fails

def operate (op : Operator) (a b : Datum) : Except Fault Datum :=
  match a.numeric?, b.numeric? with
  | some x, some y => numericOperation op x y
  | _, _ => sequenceOperation op a b

def negate (d : Datum) : Except Fault Datum :=
  match d.numeric? with
  | some (.int n) => .ok (int (-n))
  | some (.float x) => .ok (float (-x))
  | some (.complex re im) => .ok (complex (-re) (-im))
  | .none => .error (.badOperand "unary -" d.typeName)

def absolute (d : Datum) : Except Fault Datum :=
  match d.numeric? with
  | some (.int n) => .ok (int n.natAbs)
  | some (.float x) => .ok (float x.abs)
  | some (.complex re im) =>
    let r := hypotenuse re im
    if isInfinite r && !isInfinite re && !isInfinite im
    then .error (.plain .overflow) else .ok (float r)
  | .none => .error (.badOperand "abs()" d.typeName)

/-- Quotient rounded down and remainder, together. -/
def divMod (a b : Datum) : Except Fault Datum := do
  match a.numeric?, b.numeric? with
  | some (.complex ..), some _ | some _, some (.complex ..) =>
    .error (.unsupported "divmod()" a.typeName b.typeName)
  | some x, some y =>
    .ok (tuple [← numericOperation .floorDiv x y, ← numericOperation .mod x y])
  | _, _ => .error (.unsupported "divmod()" a.typeName b.typeName)

/-- A whole number rounded to a multiple of ten to the `k`, a half going to the even multiple. -/
def roundToTens (n : Int) (k : Nat) : Int :=
  let p := Nat.pow 10 k
  let m : Int := roundDiv n.natAbs p * p
  if n < 0 then -m else m

def roundWhole (d : Datum) : Except Fault Datum :=
  match d with
  | bool b => .ok (int (if b then 1 else 0))
  | int n => .ok (int n)
  | float x => (wholeBy nearest? x).map int
  | d => .error (.noRounding d.typeName)

def roundPlaces (d : Datum) (places : Int) : Except Fault Datum :=
  match d with
  | bool b => roundPlacesInt (if b then 1 else 0)
  | int n => roundPlacesInt n
  | float x =>
    match roundPlaces? x places with
    | some r => .ok (float r)
    | .none => .error (.plain .overflow)
  | d => .error (.noRounding d.typeName)
where
  /-- Whole numbers change only if the places are before the point. -/
  roundPlacesInt (n : Int) : Except Fault Datum :=
    if places ≥ 0 then .ok (int n)
    else if places < -5000 then .ok (int 0)
    else .ok (int (roundToTens n (-places).toNat))

end Scriptling.Datum
