import Scriptling.Builtin.Method.Bytes

/-!
# Methods of numbers

Whole numbers as bits and bytes, floats as fractions and in hexadecimal digits, and conjugates.
-/

namespace Scriptling.Builtin

open Act

/-! ## Whole numbers -/

/-- The bytes of a natural number, lowest first; the fuel is their number. -/
def lowBytes : Nat → Nat → List Nat
  | 0, _ => []
  | n + 1, value => value % 256 :: lowBytes n (value / 256)

/-- Whether the lowest byte comes first, by the name of the order. -/
def lowFirst (d : Datum) : Act Bool := do
  match ← textArg d with
  | "little" => return true
  | "big" => return false
  | _ => wrongValue

/-- The bits of a number that are set; the fuel is their number. -/
def setBits : Nat → Nat → Nat
  | 0, _ => 0
  | fuel + 1, n => if n = 0 then 0 else n % 2 + setBits fuel (n / 2)

def bitLength (n : Nat) : Nat := if n = 0 then 0 else Nat.log2 n + 1

/-- Whether a whole number fits into so many bytes. With a sign, one bit is taken by it. -/
def fitsBytes (n : Int) (size : Nat) (signed : Bool) : Bool :=
  if signed then n == 0 || decide (bitLength (if n < 0 then -n - 1 else n).toNat < 8 * size)
  else decide (0 ≤ n) && decide (bitLength n.toNat ≤ 8 * size)

/-- A whole number as so many bytes, lowest first. A negative one is counted down from the number above all that
the bytes express. -/
def toByteList (n : Int) (size : Nat) (signed : Bool) : Except Fault (List Nat) :=
  if fitsBytes n size signed then
    .ok (lowBytes size (if n < 0 then n + Nat.pow 256 size else n).toNat)
  else .error (.plain .overflow)

def ofByteList (signed : Bool) (bs : List Nat) : Int :=
  let n := bs.foldr (fun b n => b + 256 * n) 0
  let all := Nat.pow 256 bs.length
  if signed && decide (2 * n ≥ all) && !bs.isEmpty then (n : Int) - all else n

def intMethods [Size.Room] : Library := [
  ("bit_length", method [] fun _ b => do return .int (bitLength (← whole (b.value 0)).natAbs)),
  ("bit_count", method [] fun _ b => do
    let n := (← whole (b.value 0)).natAbs
    return .int (setBits (bitLength n) n)),
  ("conjugate", method [] fun _ b => return .int (← whole (b.value 0))),
  ("as_integer_ratio", method [] fun _ b => return .tuple [.int (← whole (b.value 0)), .int 1]),
  ("to_bytes", ⟨{ positional := [required "self", defaulting "length" (.int 1), defaulting "byteorder" (.str "big")],
                  unnamed := 1, named := [defaulting "signed" (.bool false)] }, fun _ b => do
    let size ← wordArg (b.value 1)
    let low ← lowFirst (b.value 2)
    if size < 0 then wrongValue
    let size ← lift (Size.chars size.toNat)
    let bs ← lift (toByteList (← whole (b.value 0)) size (← truth (b.value 3)))
    return .bytes (if low then bs else bs.reverse)⟩)]

/-- The methods of the class of whole numbers itself, or of a class below it, which makes its values by `make`. -/
def intClassMethods [Size.Room] (make : Int → Datum) : Library := [
  ("from_bytes", ⟨{ positional := [required "bytes", defaulting "byteorder" (.str "big")],
                    named := [defaulting "signed" (.bool false)] }, fun _ b => do
    let low ← lowFirst (b.value 1)
    let source ← look (b.value 0)
    if let .str _ := source then wrongType
    let bs ← bytesOf source
    return make (ofByteList (← truth (b.value 2)) (if low then bs else bs.reverse))⟩)]

/-! ## Floats -/

def ratio (x : Float) : Except Fault (Int × Nat) :=
  match Number.Binary64.ofFloat x with
  | .nan => .error .nanToInt
  | .infinite _ => .error .infinityToInt
  | .finite negative units exponent =>
    let sign (n : Nat) : Int := if negative then -n else n
    if exponent ≥ 0 then .ok (sign (units * Nat.pow 2 exponent.toNat), 1)
    else
      let den := Nat.pow 2 exponent.natAbs
      let common := Nat.gcd units den
      .ok (sign (units / common), den / common)

/-- A float in hexadecimal digits: one before the point and thirteen after it, and the exponent of two. -/
def hexFloat (x : Float) : String :=
  let signed (negative : Bool) (s : String) : String := if negative then "-" ++ s else s
  match Number.Binary64.ofFloat x with
  | .nan => "nan"
  | .infinite negative => signed negative "inf"
  | .finite negative units exponent =>
    if units = 0 then signed negative "0x0.0p+0"
    else
      let lead := units / Number.Binary64.hiddenBit
      let rest := String.ofList (Text.hexDigits 13 (units % Number.Binary64.hiddenBit))
      let power := exponent + 52
      let sign := if power < 0 then "-" else "+"
      signed negative ("0x" ++ toString lead ++ "." ++ rest ++ "p" ++ sign ++ toString power.natAbs)

def floatMethod (f : Float → Act Datum) : Routine := methodOf fun d =>
  match d with
  | .float x => f x
  | _ => wrongType

def floatMethods : Library := [
  ("is_integer", floatMethod fun x => return .bool (Number.isWhole x)),
  ("conjugate", methodOf pure),
  ("as_integer_ratio", floatMethod fun x => do
    let (n, d) ← lift (ratio x)
    return .tuple [.int n, .int d]),
  ("hex", floatMethod fun x => return .str (hexFloat x))]

def complexMethods : Library := [
  ("conjugate", method [] fun _ b =>
    match b.value 0 with
    | .complex re im => return .complex re (-im)
    | _ => wrongType)]

end Scriptling.Builtin
