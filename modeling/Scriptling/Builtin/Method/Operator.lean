import Scriptling.Builtin.Method.Collection
import Scriptling.Builtin.Method.Number
import Scriptling.Builtin.Object
import Scriptling.Datum.Template
import Scriptling.Number.Bits

/-!
# Operators as methods

Every operator is also a method of its left operand, and of its right one under another name. A method that does
not know the class of the other operand answers with the object that stands for a missing operation, where the
operator itself would be at fault.
-/

namespace Scriptling.Builtin

open Act Number
open Datum (notImplemented operate)

variable [Size.Room]

/-! ## Comparison -/

/-- Whether the class of the first value compares its values with the second; `ordered` asks for an order. -/
def comparesWith (ordered : Bool) (a b : Datum) : Bool :=
  match a, b with
  | .str _, .str _ | .bytes _, .bytes _ | .byteArray _, .bytes _ | .byteArray _, .byteArray _
  | .list _, .list _ | .tuple _, .tuple _ | .set _, .set _ | .set _, .frozenset _
  | .frozenset _, .set _ | .frozenset _, .frozenset _ => true
  | .dict _, .dict _ | .range .., .range .. => !ordered
  | .complex .., b => !ordered && b.numeric?.isSome
  | .float _, .float _ => true
  | .float _, b | .bool _, b | .int _, b => b.int?.isSome
  | _, _ => false

/-- Whether two values are one and the same thing. -/
def same (a b : Datum) : Bool :=
  match a, b with
  | .cell i, .cell j => i == j
  | .none, .none => true
  | .cls c, .cls d | .builtin c, .builtin d | .function c, .function d => c == d
  | _, _ => false

/-- A comparison for equality; `wanted` is the answer for equal values. -/
def equality (wanted : Bool) : Routine :=
  method [required "value"] fun _ b => do
    let x ← deep (b.value 0)
    let y ← deep (b.value 1)
    if comparesWith false x y then return .bool (Datum.eq x y == wanted)
    else if same (b.value 0) (b.value 1) then return .bool wanted
    else return notImplemented

def ordering (r : Datum.Relation) : Routine :=
  method [required "value"] fun _ b => do
    let x ← deep (b.value 0)
    let y ← deep (b.value 1)
    if comparesWith true x y then return .bool (← lift (Datum.relate r x y)) else return notImplemented

/-! ## Numbers -/

/-- Whether the class of the first number knows the second one. -/
def reckonsWith (a b : Datum) : Bool :=
  match a, b with
  | .complex .., b => b.numeric?.isSome
  | .float _, .float _ => true
  | _, b => b.int?.isSome

/-- An operator on numbers, as a method of its left operand, or of its right one if it is `turned`. -/
def reckoning (turned : Bool) (op : Datum → Datum → Except Fault Datum) : Routine :=
  method [required "value"] fun _ b => do
    let x := b.value 0
    let y ← look (b.value 1)
    if reckonsWith x y then lift (if turned then op y x else op x y) else return notImplemented

/-- An operator under its two names; the routine is told whether it is turned. -/
def bothWays (name : String) (r : Bool → Routine) : Library := [
  ("__" ++ name ++ "__", r false),
  ("__r" ++ name ++ "__", r true)]

def reckonings (name : String) (op : Datum → Datum → Except Fault Datum) : Library :=
  bothWays name (reckoning · op)

def arithmeticMethods : Library :=
  reckonings "add" (operate .add) ++ reckonings "sub" (operate .sub) ++
  reckonings "mul" (operate .mul) ++ reckonings "truediv" (operate .div) ++ [
  ("__pow__", method [required "value", orNothing "mod"] fun _ b => do
    let x := b.value 0
    let y ← look (b.value 1)
    match b.value 2 with
    | .none => if reckonsWith x y then lift (operate .pow x y) else return notImplemented
    | m =>
      if x.int?.isNone then wrongType
      else if y.int?.isSome && m.int?.isSome then power x y (some m)
      else return notImplemented),
  ("__rpow__", reckoning true (operate .pow)),
  ("__neg__", methodOf fun d => lift d.negate),
  ("__pos__", method [] fun _ b => return ((b.value 0).int?.map .int).getD (b.value 0)),
  ("__abs__", methodOf fun d => lift d.absolute)]

/-- The operators that whole numbers and floats have. -/
def realMethods : Library := arithmeticMethods ++
  reckonings "floordiv" (operate .floorDiv) ++ reckonings "mod" (operate .mod) ++
  reckonings "divmod" Datum.divMod ++ [
  ("__int__", methodOf (wholeBy truncate?)),
  ("__trunc__", methodOf (wholeBy truncate?)),
  ("__floor__", methodOf (wholeBy floor?)),
  ("__ceil__", methodOf (wholeBy ceiling?)),
  ("__float__", methodOf toFloat),
  ("__round__", method [optional "ndigits"] fun _ b =>
    match b.value 0, b.given? 1 with
    | .float x, some .none => round (.float x) none
    | d, places? => round d places?)]

/-- An operator on the bits of whole numbers. On two truth values it gives one, if `keepsTruth`. -/
def bitwise (keepsTruth : Bool) (op : Int → Int → Except Fault Int) (x y : Datum) : Except Fault Datum := do
  match x.int?, y.int? with
  | some a, some c =>
    let n ← op a c
    match keepsTruth, x, y with
    | true, .bool _, .bool _ => return .bool (n != 0)
    | _, _, _ => return .int n
  | _, _ => .error (.plain .wrongType)

/-- A number with its bits moved to the left; there has to be room for them. -/
def shiftLeft (a n : Int) : Except Fault Int := do
  if n < 0 then throw (.plain .wrongValue)
  if a = 0 then return 0
  if !Size.fits Size.maxCount n then throw (.plain .overflow)
  let n ← Size.chars n.toNat
  return a * Nat.pow 2 n

def shiftRight (a n : Int) : Except Fault Int := do
  if n < 0 then throw (.plain .wrongValue)
  if n.toNat > bitLength a.natAbs then return if a < 0 then -1 else 0
  return Int.fdiv a (Nat.pow 2 n.toNat)

def wholeMethods : Library := realMethods ++
  reckonings "and" (bitwise true fun a c => .ok (bitAnd a c)) ++
  reckonings "or" (bitwise true fun a c => .ok (bitOr a c)) ++
  reckonings "xor" (bitwise true fun a c => .ok (bitXor a c)) ++
  reckonings "lshift" (bitwise false shiftLeft) ++ reckonings "rshift" (bitwise false shiftRight) ++ [
  ("__invert__", method [] fun _ b => return .int (bitNot (← whole (b.value 0)))),
  ("__index__", method [] fun _ b => return .int (← whole (b.value 0)))]

/-! ## Collections -/

def containerMethods : Library := [
  ("__len__", methodOf length),
  ("__contains__", method [required "key"] fun _ b => do
    return .bool (← lift ((← deep (b.value 0)).contains (← deep (b.value 1))))),
  ("__reversed__", methodOf reversed)]

def itemAt : Routine := method [required "key"] fun _ b => do lift ((← self b).getItem (← deep (b.value 1)))

/-- What the value that a method belongs to is when it is repeated. -/
def repeated (b : Bound) : Act Datum := do
  let n ← whole (b.value 1)
  lift (operate .mul (← self b) (.int n))

def sequenceMethods : Library := containerMethods ++ [
  ("__getitem__", itemAt),
  ("__add__", methodWith "value" add)] ++
  bothWays "mul" fun _ => method [required "value"] fun _ b => do keep (← repeated b)

/-- A template filled with values; anything else is no template. -/
def filled (template values : Datum) : Act Datum := do
  match Datum.interpolate? (← look template) (← deep values) with
  | some r => keep (← lift r)
  | none => return notImplemented

/-- The template operator of texts and bytes. From the right it takes templates of its own class. -/
def templateMethods : Library := [
  ("__mod__", methodWith "value" filled),
  ("__rmod__", method [required "value"] fun _ b => do
    if (← typeName (b.value 0)) == (← typeName (b.value 1)) then filled (b.value 1) (b.value 0)
    else return notImplemented)]

def withoutItem (d key : Datum) : Except Fault Datum := do
  match d with
  | .dict entries =>
    if !key.isHashable then throw (.plain .wrongType)
    if (Datum.lookup? entries key).isNone then throw (.plain .missingKey)
    return .dict (Datum.eraseEntry entries key)
  | .list xs => return .list (xs.eraseIdx (← Datum.placeOf xs.length key))
  | .byteArray bs => return .byteArray (bs.eraseIdx (← Datum.placeOf bs.length key))
  | _ => throw (.plain .wrongType)

/-- The operators that change the items of a collection. -/
def itemMethods : Library := [
  ("__setitem__", method [required "key", required "value"] fun _ b => do
    become b (← lift ((← self b).setItem (← deep (b.value 1)) (b.value 2)))),
  ("__delitem__", method [required "key"] fun _ b => do
    become b (← lift (withoutItem (← self b) (← deep (b.value 1)))))]

/-- The operators that make a list or bytes longer in place. -/
def growingMethods : Library := [
  ("__iadd__", method [required "value"] fun _ b => do
    match ← self b with
    | .list xs =>
      let _ ← become b (.list (xs ++ (← items (b.value 1))))
    | .byteArray bs =>
      let _ ← become b (.byteArray (bs ++ (← bytesArg (b.value 1))))
    | _ => wrongType
    return b.value 0),
  ("__imul__", method [required "value"] fun _ b => do
    let _ ← become b (← repeated b)
    return b.value 0)]

/-- The members of a set, and how one like it is made. -/
def setKind? : Datum → Option (List Datum × (List Datum → Act Datum))
  | .set xs => some (xs, fun ys => make (.set ys))
  | .frozenset xs => some (xs, fun ys => return .frozenset ys)
  | _ => none

/-- A set operator, as a method of its left operand, or of its right one if it is `turned`. Only sets are taken. -/
def setOperator (turned : Bool) (op : List Datum → List Datum → List Datum) : Routine :=
  method [required "value"] fun _ b => do
    let x ← self b
    let y ← look (b.value 1)
    let (left, right) := if turned then (y, x) else (x, y)
    match setKind? left, setKind? right with
    | some (xs, make), some (ys, _) => make (op xs ys)
    | _, _ => return notImplemented

/-- A set operator that changes the set that it belongs to. -/
def setChange (op : List Datum → List Datum → List Datum) : Routine :=
  method [required "value"] fun _ b => do
    match setKind? (← look (b.value 1)) with
    | some (ys, _) =>
      let _ ← setMembers b (op (← selfItems b) ys)
      return b.value 0
    | none => return notImplemented

def setOperations : List (String × (List Datum → List Datum → List Datum)) :=
  [("and", intersection), ("or", union), ("sub", difference), ("xor", symmetricDifference)]

def setOperatorMethods : Library :=
  containerMethods ++ setOperations.flatMap fun (name, op) => bothWays name (setOperator · op)

def setChangeMethods : Library := setOperations.map fun (name, op) => ("__i" ++ name ++ "__", setChange op)

def merged (a c : Datum) : Act Datum := do
  match a, c with
  | .dict xs, .dict ys => make (.dict (ys.foldl (fun es (k, v) => Datum.insertEntry k v es) xs))
  | _, _ => return notImplemented

def dictOperatorMethods : Library := containerMethods ++ itemMethods ++ [
  ("__getitem__", itemAt),
  ("__or__", method [required "value"] fun _ b => do merged (← self b) (← look (b.value 1))),
  ("__ror__", method [required "value"] fun _ b => do merged (← look (b.value 1)) (← self b)),
  ("__ior__", method [required "value"] fun _ b => do
    updateEntries b (b.value 1)
    return b.value 0)]

/-! ## All values -/

def commonMethods : Library := [
  ("__eq__", equality true),
  ("__ne__", equality false),
  ("__lt__", ordering .less),
  ("__le__", ordering .lessEqual),
  ("__gt__", ordering .greater),
  ("__ge__", ordering .greaterEqual),
  ("__str__", methodOf displayed),
  ("__repr__", methodOf literal),
  ("__format__", methodWith "format_spec" formatted),
  ("__hash__", methodOf keyNumber),
  ("__bool__", methodOf toBool),
  ("__dir__", methodOf propertyList),
  ("__getattribute__", method [required "name"] fun _ b => getProperty (b.value 0) (b.value 1) none),
  ("__setattr__", method [required "name", required "value"] fun _ b =>
    setProperty (b.value 0) (b.value 1) (b.value 2)),
  ("__delattr__", methodWith "name" deleteProperty),
  ("__iter__", methodOf iterate),
  ("__next__", method [] fun _ b => next (b.value 0) none),
  ("__call__", methodOfMany fun apply b => apply (b.value 0) b.rest)]

end Scriptling.Builtin
