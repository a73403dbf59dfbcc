import Scriptling.Builtin.Library
import Scriptling.Datum.Loose

/-!
# The toolkit

Routines of the tree walker for checks, conversions, items and calls. They tell what goes wrong in words of
their own.
-/

namespace Scriptling.Builtin

open Act

variable [Size.Room]

def complain {α : Type} (c : Complaint) : Act α := throw (.complaint c)

def lengthOf (d : Datum) : Act Datum := do
  let d ← look d
  match d.length? with
  | some n => return .int (← lift (Size.count n))
  | none => complain (.noLength d.typeName)

/-- The collections whose classes can be marked with what they hold. -/
def markedClasses : List String := ["list", "dict", "tuple", "set", "frozenset"]

/-- A class of collections marked with what its collections hold. -/
def markedClass (cls : String) (mark : Datum) : Datum := .object "GenericAlias" (cls ++ "[" ++ mark.literal ++ "]") 0

def found (d key : Datum) : Except Fault Datum :=
  match d with
  | .cls c => if markedClasses.contains c then .ok (markedClass c key) else .error (.classNotSubscriptable c)
  | d => d.getItem key

/-- The item of a collection at a key, or a complaint. -/
def itemOf (d key : Datum) : Act Datum := do
  match found (← look d) (← deep key) with
  | .ok v => return v
  | .error f =>
    match f.kind with
    | .missingKey => complain (.keyNotFound (← display key))
    | .badIndex => complain .indexOutOfRange
    | .wrongType => complain .notSubscriptable
    | _ => fail f

/-- Sets the item of a collection at a key, or complains. -/
def setItemOf (d key v : Datum) : Act Datum := do
  match (← look d).setItem (← deep key) v with
  | .ok new =>
    update d new
    return .none
  | .error f =>
    match f.kind with
    | .badIndex => complain .indexOutOfRange
    | .wrongType => complain .noItemAssignment
    | _ => fail f

/-- How many arguments a function takes in order. The library's own routines tell; an object may have a function
`arity` that does; of others nothing is known. -/
def arityOf (f : Datum) : Act Datum := do
  match f with
  | .function name => return .int (((ownRoutines []).lookup name).elim 0 (·.signature.arity))
  | f =>
    match ← property? f "__code__" with
    | some code => fail (.missingAttribute (← typeName code) "co_argcount")
    | none =>
      match ← property? f "arity" with
      | some g => apply g []
      | none => return .int 0

/-- Calls a function with the items of a list as its arguments. -/
def callWith (f args : Datum) : Act Datum := do
  if f.isCallable then callWithin [("func", f), ("args", args)] callDepth f (← items args) []
  else complain (.notCallable (← typeName f))

/-- A message with the line and the place that it is about. -/
def placedMessage (message line location : Datum) : Act Datum := do
  let atLine ← match line with
    | .none => pure ""
    | line => do pure ("[line " ++ (← display line) ++ "]")
  let atPlace ← if ← truth location then do pure (" at '" ++ (← display location) ++ "'") else pure ""
  let place := atLine ++ atPlace
  match message with
  | .str m => return .str (if place.isEmpty then m else place ++ ": " ++ m)
  | _ => wrongType

def className (d : Datum) : Act String := do
  match d with
  | .cls c => return c
  | d => fail (.missingAttribute (← typeName d) "__name__")

def checkType (d expected name : Datum) : Act Datum := do
  let found ← typeName d
  if ← lift (Datum.isBelow (some found) expected) then return .none
  else complain (.typeMismatch (← display name) (← className expected) found)

/-- What a conversion to a class gives; `none` if there is no such conversion. -/
def conversion? (d : Datum) (target : String) : Act (Option (Act Datum)) := do
  let seen ← look d
  return match target with
  | "bool" => some do return .bool (← truth d)
  | "int" => some (toInt d)
  | "float" => some (toFloat d)
  | "str" => some (displayed d)
  | "list" => some do
    if seen.isIterable then make (.list (← lift seen.items)) else make (.list [d])
  | "dict" =>
    if seen.hasProperty "items" then some do
      let entries ← lift seen.toEntries
      make (.dict entries)
    else none
  | _ => none

/-- A value converted to a class. Nothing, and a value that belongs to the class, stay as they are. -/
def convertType (d target name : Datum) : Act Datum := do
  match d with
  | .none => return .none
  | d =>
    let found ← typeName d
    if ← lift (Datum.isBelow (some found) target) then return d
    else
      let targetName ← className target
      match ← conversion? d targetName with
      | none => complain (.noConversion found targetName)
      | some act =>
        tryCatch act fun failure => do
          match failure with
          | .fault f =>
            if f.kind == .wrongValue || f.kind == .wrongType then
              complain (.conversionFailed (← display name) targetName f.message)
            else throw failure
          | .complaint _ => throw failure

/-- A value, a class that it is held against, and the name to call it by. -/
def againstClass (cls : String) : Signature :=
  .of [required "value", required cls, defaulting "name" (.str "value")]

def test (name : String) (p : Datum → Bool) : Routine :=
  ⟨.exactly [name], fun _ b => do return .bool (p (← deep (b.value 0)))⟩

def toolkit : Library := [
  ("is_truthy", test "value" Datum.isTrue),
  ("is_equal", ⟨.exactly ["a", "b"], fun _ b => do
    return .bool (← lift (Datum.looselyEq (← deep (b.value 0)) (← deep (b.value 1))))⟩),
  ("is_callable", test "obj" Datum.isCallable),
  ("is_iterable", test "obj" Datum.isIterable),
  ("is_hashable", test "obj" Datum.isHashable),
  ("stringify", ⟨.exactly ["value"], fun _ b => do
    return .str (← lift (← deep (b.value 0)).plainText)⟩),
  ("format_value", ⟨.of [required "value", defaulting "precision" (.int 6)], fun _ b => do
    return .str (← lift (Datum.roundedText (← deep (b.value 0)) (← deep (b.value 1))))⟩),
  ("get_length", .unary (.exactly ["collection"]) lengthOf),
  ("get_item", .binary (.exactly ["collection", "key"]) itemOf),
  ("set_item", .ternary (.exactly ["collection", "key", "value"]) setItemOf),
  ("get_arity", .unary (.exactly ["func"]) arityOf),
  ("call_with_args", .binary (.exactly ["func", "args"]) callWith),
  ("format_error", .ternary (.of [required "message", orNothing "line", defaulting "where" (.str "")])
    placedMessage),
  ("check_type", .ternary (againstClass "expected_type") checkType),
  ("convert_type", .ternary (againstClass "target_type") convertType),
  ("is_close", ⟨.of [required "a", required "b", defaulting "rel_tol" (.float 1e-9),
                    defaulting "abs_tol" (.float 0)], fun _ b => do
    return .bool (← lift (Datum.isClose (b.value 0) (b.value 1) (b.value 2) (b.value 3)))⟩),
  ("clamp", ⟨.exactly ["value", "min_val", "max_val"], fun _ b => do
    let d ← deep (b.value 0)
    let low ← deep (b.value 1)
    let high ← deep (b.value 2)
    lift (Datum.clamp d low high)⟩)]

end Scriptling.Builtin
