import Scriptling.Builtin.Basic

/-!
# Routines on numbers

Conversions to numbers, rounding, powers, number texts in other bases, and code points.
-/

namespace Scriptling.Builtin

open Act

/-- `b ^ e` modulo `m`, by squaring; the fuel is the number of bits of `e`. -/
def powModFrom (m : Nat) : Nat → Nat → Nat → Nat → Nat
  | 0, _, _, acc => acc % m
  | fuel + 1, b, e, acc =>
    if e = 0 then acc % m
    else powModFrom m fuel (b * b % m) (e / 2) (if e % 2 = 1 then acc * b % m else acc)

def powMod (b e m : Nat) : Nat := powModFrom m (Nat.log2 e + 1) (b % m) e 1

/-- The inverse of a number modulo `m`, if it has one. The pairs are remainders and their multipliers. -/
def inverseFrom (m : Nat) : Nat → Int × Int → Int × Int → Option Nat
  | 0, _, _ => none
  | fuel + 1, (r, t), (r', t') =>
    if r' = 0 then (if r = 1 then some (t % m).toNat else none)
    else inverseFrom m fuel (r', t') (r - r / r' * r', t - r / r' * t')

/-- The inverse of a number modulo `m`, if it has one. -/
def inverseMod? (a m : Nat) : Option Nat :=
  if m = 1 then some 0 else inverseFrom m (2 * Nat.log2 m + 4) (m, 0) (a % m, 1)

/-- A power modulo a number; the result has the sign of the modulus. -/
def powerModulo (b e m : Int) : Except Fault Int :=
  if m = 0 then .error (.plain .wrongValue) else
  let base := (b % m).toNat
  let size := m.natAbs
  let residue? := if e ≥ 0 then some (powMod base e.toNat size)
    else (inverseMod? base size).map fun i => powMod i e.natAbs size
  match residue? with
  | none => .error (.plain .wrongValue)
  | some r => .ok (if m < 0 ∧ r ≠ 0 then (r : Int) - size else r)

/-- A power, modulo a number if one is given; then all three have to be whole. -/
def power [Size.Room] (x y : Datum) (modulus? : Option Datum) : Act Datum :=
  match modulus? with
  | none => lift (Datum.operate .pow x y)
  | some z =>
    match x.int?, y.int?, z.int? with
    | some a, some b, some m => do return .int (← lift (powerModulo a b m))
    | _, _, _ => wrongType

/-- A number rounded to a whole one, or to a number of places if one is given. -/
def round (x : Datum) (places? : Option Datum) : Act Datum := do
  match places? with
  | none => lift x.roundWhole
  | some p =>
    match x.numeric? with
    | some (.complex ..) | none => wrongType
    | _ => lift (x.roundPlaces (← whole p))

/-- A whole number in a base, with a mark before its digits. -/
def inBase (base : Nat) (mark : String) (d : Datum) : Act Datum := do
  let n ← whole d
  return .str ((if n < 0 then "-" else "") ++ mark ++ String.ofList (Number.baseDigits base n.natAbs))

def character (d : Datum) : Act Datum := do
  let n ← whole d
  if 0 ≤ n ∧ n < 0x110000 then return .str (String.singleton (Char.ofNat n.toNat))
  else
    let _ ← lift (Size.short n)
    wrongValue

/-- The code point of a text of one character, or the number of a single byte. -/
def codePoint (d : Datum) : Act Datum := do
  match ← look d with
  | .str s =>
    match s.toList with
    | [c] => return .int c.toNat
    | _ => wrongType
  | .bytes [b] | .byteArray [b] => return .int b
  | _ => wrongType

def toInt (d : Datum) : Act Datum := do return .int (← lift (← look d).toInt)

def toIntInBase (d base : Datum) : Act Datum := do
  let base ← whole base
  if base ≠ 0 ∧ (base < 2 ∨ base > 36) then wrongValue
  match ← look d with
  | .str s => return .int (← lift (Datum.textToInt s base))
  | .bytes bs | .byteArray bs =>
    return .int (← lift (Datum.textToInt (String.ofList (bs.map Char.ofNat)) base))
  | _ => wrongType

def toFloat (d : Datum) : Act Datum := do return .float (← lift (← look d).toFloat)

/-- A number made whole by a way of rounding. -/
def wholeBy (f : Float → Option Int) (d : Datum) : Act Datum :=
  match d.numeric? with
  | some (.int n) => return .int n
  | some (.float x) => return .int (← lift (Datum.wholeBy f x))
  | _ => wrongType

def truth (d : Datum) : Act Bool := return (← look d).truthy

def toBool (d : Datum) : Act Datum := return .bool (← truth d)

def something? : Datum → Option Datum
  | .none => none
  | d => some d

/-- Parameters that are never given by name and have to be given. -/
def unnamed (names : List String) : Signature := .inOrder (names.map required)

/-- The modulus of the numbers that stand for numbers among keys. -/
def keyModulus : Nat := Nat.pow 2 61 - 1

/-- A number that equal numbers share, made of a sign and a magnitude. Minus one is taken. -/
def keyOf (negative : Bool) (magnitude : Nat) : Int :=
  let n : Int := (magnitude % keyModulus : Nat)
  if negative then (if n = 1 then -2 else -n) else n

/-- A number that equal numbers share. Since `2 ^ 61` leaves one, exponents count up to 61. -/
def keyNumber (d : Datum) : Act Datum := do
  match ← look d with
  | .bool b => return .int (if b then 1 else 0)
  | .int n => return .int (keyOf (n < 0) n.natAbs)
  | .float x =>
    match Number.Binary64.ofFloat x with
    | .finite negative units exponent => return .int (keyOf negative (units * Nat.pow 2 (exponent % 61).toNat))
    | .infinite negative => return .int (if negative then -314159 else 314159)
    | .nan => beyond
  | d => if d.isHashable then beyond else wrongType

/-- The routines on numbers that come with the language. -/
def numericRoutines [Size.Room] : Library := [
  ("abs", .unary (unnamed ["x"]) fun d => lift d.absolute),
  ("divmod", .binary (unnamed ["x", "y"]) fun d e => lift (Datum.divMod d e)),
  ("pow", ⟨.of [required "base", required "exp", orNothing "mod"],
    fun _ b => power (b.value 0) (b.value 1) (something? (b.value 2))⟩),
  ("round", ⟨.of [required "number", orNothing "ndigits"], fun _ b => round (b.value 0) (something? (b.value 1))⟩),
  ("bin", .unary (unnamed ["number"]) (inBase 2 "0b")),
  ("oct", .unary (unnamed ["number"]) (inBase 8 "0o")),
  ("hex", .unary (unnamed ["number"]) (inBase 16 "0x")),
  ("chr", .unary (unnamed ["i"]) character),
  ("ord", .unary (unnamed ["c"]) codePoint),
  ("hash", .unary (unnamed ["obj"]) keyNumber),
  ("int", ⟨{ positional := [optional "x", optional "base"], unnamed := 1 }, fun _ b =>
    match b.given? 0, b.given? 1 with
    | none, none => return .int 0
    | some x, none => toInt x
    | some x, some base => toIntInBase x base
    | none, some _ => wrongType⟩),
  ("float", .unary (.inOrder [defaulting "x" (.float 0)]) toFloat),
  ("bool", .unary (.inOrder [defaulting "x" (.bool false)]) toBool)]

end Scriptling.Builtin
