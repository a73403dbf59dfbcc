import Scriptling.Builtin.Numeric
import Scriptling.Number.Special

/-!
# Mathematical routines

Functions of floats and of whole numbers. A function of a float fails with a wrong value where it is not
defined, and with an overflow where its result is too large.
-/

namespace Scriptling.Builtin

open Act Number Float

def real (d : Datum) : Act Float :=
  match d.numeric? with
  | some (.int n) => lift (Datum.floatOfInt n)
  | some (.float x) => return x
  | _ => wrongType

/-- The outcome of a function of a float: no number from a number is outside the domain, and an infinity from
a finite number is too large, or outside the domain of a function that does not grow without bound. -/
def checked (grows : Bool) (x r : Float) : Act Datum :=
  if isNan r && !isNan x then wrongValue
  else if isInfinite r && !isInfinite x && !isNan x then
    failPlain (if grows then .overflow else .wrongValue)
  else return .float r

/-- A routine that takes a real number as a float. -/
def ofReal (f : Float → Act Datum) : Routine := .unary (unnamed ["x"]) fun d => do f (← real d)

def ofFloat (f : Float → Float) (grows : Bool) : Routine := ofReal fun x => checked grows x (f x)

def ofSpecial (f : Float → Number.Special) : Routine := ofReal fun x =>
  match f x with
  | .value r => return .float r
  | .undefined => wrongValue
  | .tooLarge => failPlain .overflow

def ofTest (f : Float → Bool) : Routine := ofReal fun x => return .bool (f x)

def toWhole (f : Float → Option Int) : Routine := .unary (unnamed ["x"]) (wholeBy f)

/-- The logarithm of a positive float, and the infinity of an infinite one. -/
def logarithm (log : Float → Float) (x : Float) : Act Float :=
  if isNan x then return x
  else if x > 0 then return log x
  else wrongValue

/-- The logarithm of a number. A whole number beyond all floats is split into a fraction and a power of two. -/
def logarithmOf (log : Float → Float) (d : Datum) : Act Float := do
  match d.numeric? with
  | some (.int n) =>
    if n ≤ 0 then wrongValue
    else
      let x := floatOfInt n
      if isInfinite x then
        let e := Nat.log2 n.natAbs + 1
        return log (floatOfRatio false n.natAbs (Nat.pow 2 e)) + log 2 * floatOfInt e
      else return log x
  | some (.float x) => logarithm log x
  | _ => wrongType

/-- The factorial of a whole number that is not negative. -/
def factorial (d : Datum) : Act Datum := do
  let n ← whole d
  if n < 0 then wrongValue
  else return .int (Number.factorial (← lift (Size.word n)).toNat)

def overWhole (start : Nat) (f : Nat → Nat → Nat) : Routine :=
  ⟨{ more := true }, fun _ b => do
    let ns ← b.rest.mapM whole
    let total : Nat := ns.foldl (fun acc n => f acc n.natAbs) start
    return .int total⟩

def mathConstants : List (String × Datum) := [
  ("pi", .float Number.pi),
  ("e", .float 2.718281828459045),
  ("tau", .float 6.283185307179586),
  ("inf", .float infinity),
  ("nan", .float Number.nan)]

def mathRoutines [Size.Room] : Library := [
  ("ceil", toWhole ceiling?),
  ("floor", toWhole floor?),
  ("trunc", toWhole truncate?),
  ("factorial", .unary (unnamed ["x"]) factorial),
  ("gcd", overWhole 0 Nat.gcd),
  ("lcm", overWhole 1 Nat.lcm),
  ("exp", ofFloat exp true),
  ("log", ⟨.inOrder [required "x", optional "base"], fun _ b => do
    let num ← logarithmOf log (b.value 0)
    match b.given? 1 with
    | none => return .float num
    | some base => lift (Datum.operate .div (.float num) (.float (← logarithmOf log base)))⟩),
  ("log10", ⟨unnamed ["x"], fun _ b => return .float (← logarithmOf log10 (b.value 0))⟩),
  ("log2", ⟨unnamed ["x"], fun _ b => return .float (← logarithmOf log2 (b.value 0))⟩),
  ("sqrt", ofFloat sqrt false),
  ("sin", ofFloat sin false),
  ("cos", ofFloat cos false),
  ("tan", ofFloat tan false),
  ("asin", ofFloat asin false),
  ("acos", ofFloat acos false),
  ("atan", ofFloat atan false),
  ("atan2", ⟨unnamed ["y", "x"], fun _ b => do
    let y ← real (b.value 0)
    let x ← real (b.value 1)
    return .float (atan2 y x)⟩),
  ("hypot", ⟨{ more := true }, fun _ b => do
    let xs ← b.rest.mapM real
    return .float (norm xs)⟩),
  ("degrees", ofReal fun x => return .float (x * (180 / Number.pi))),
  ("radians", ofReal fun x => return .float (x * (Number.pi / 180))),
  ("sinh", ofFloat sinh true),
  ("cosh", ofFloat cosh true),
  ("tanh", ofFloat tanh false),
  ("asinh", ofFloat asinh false),
  ("acosh", ofFloat acosh false),
  ("atanh", ofFloat atanh false),
  ("erf", ofFloat erf false),
  ("erfc", ofFloat erfc false),
  ("gamma", ofSpecial gamma),
  ("lgamma", ofSpecial logGamma),
  ("isfinite", ofTest fun x => !isNan x && !isInfinite x),
  ("isinf", ofTest isInfinite),
  ("isnan", ofTest isNan)]

end Scriptling.Builtin
