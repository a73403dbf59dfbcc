import Scriptling.Builtin.Method.Basic

/-!
# Methods of sequences

Counting and finding items in lists, tuples and ranges, and the methods that change a list.
-/

namespace Scriptling.Builtin

open Act

variable [Size.Room]

def placeOf? (xs : List Datum) (d : Datum) : Act (Option Nat) := do
  let d ← deep d
  let xs ← xs.mapM deep
  return xs.findIdx? (Datum.eq · d)

/-- A method that gives the place of a value between two cuts, where it has to occur. -/
def indexOf : Routine :=
  method [required "value", defaulting "start" (.int 0), optional "stop"] fun _ b => do
    let xs ← selfItems b
    let start ← whole (b.value 2)
    let stop ← match b.given? 3 with
      | some d => whole d
      | none => pure (xs.length : Int)
    let found ← match between? xs.length start stop with
      | none => pure none
      | some (first, n) => do pure ((← placeOf? ((xs.drop first).take n) (b.value 1)).map (first + ·))
    match found with
    | some i => return .int i
    | none => wrongValue

def tupleMethods : Library := [
  ("count", method [required "value"] fun _ b => do
    let d ← deep (b.value 1)
    let xs ← (← selfItems b).mapM deep
    return .int (xs.filter (Datum.eq · d)).length),
  ("index", indexOf)]

/-- The place of a value in the range that a method belongs to. -/
def rangePlaceOf? (b : Bound) : Act (Option Nat) := do
  match b.value 0, (← deep (b.value 1)).wholeValue? with
  | .range start stop step, some n => return Datum.rangePlace? start stop step n
  | _, _ => return none

def rangeMethods : Library := [
  ("count", method [required "value"] fun _ b => do
    return .int (if (← rangePlaceOf? b).isSome then 1 else 0)),
  ("index", method [required "value"] fun _ b => do
    match ← rangePlaceOf? b with
    | some i => return .int i
    | none => wrongValue)]

def setItems (b : Bound) (xs : List Datum) : Act Datum := become b (.list xs)

/-- Sorts the list that a method belongs to. A sort that fails leaves the items in the order they had got to. -/
def sortItems (apply : Apply) (b : Bound) : Act Datum := do
  let reverse := (← shortArg (b.value 2)) != 0
  let keys ← (← selfItems b).mapM (keyed apply (b.value 1))
  let (xs, fault?) := Datum.arrange reverse keys
  let _ ← setItems b xs
  match fault? with
  | some f => fail f
  | none => return .none

def listMethods : Library := tupleMethods ++ [
  ("append", method [required "object"] fun _ b => do setItems b ((← selfItems b) ++ [b.value 1])),
  ("extend", method [required "iterable"] fun _ b => do setItems b ((← selfItems b) ++ (← items (b.value 1)))),
  ("insert", method [required "index", required "object"] fun _ b => do
    let xs ← selfItems b
    let i := Datum.cutPlace xs.length (← wordArg (b.value 1))
    setItems b (xs.take i ++ b.value 2 :: xs.drop i)),
  ("pop", method [defaulting "index" (.int (-1))] fun _ b => do
    let xs ← selfItems b
    match Datum.place? xs.length (← wordArg (b.value 1)) with
    | some i =>
      let _ ← setItems b (xs.eraseIdx i)
      return xs.getD i .none
    | none => failPlain .badIndex),
  ("remove", method [required "value"] fun _ b => do
    let xs ← selfItems b
    match ← placeOf? xs (b.value 1) with
    | some i => setItems b (xs.eraseIdx i)
    | none => wrongValue),
  ("reverse", method [] fun _ b => do setItems b (← selfItems b).reverse),
  ("sort", ⟨{ positional := [required "self"], unnamed := 1,
              named := [orNothing "key", defaulting "reverse" (.bool false)] }, sortItems⟩),
  ("clear", method [] fun _ b => setItems b []),
  ("copy", method [] fun _ b => do make (.list (← selfItems b)))]

end Scriptling.Builtin
