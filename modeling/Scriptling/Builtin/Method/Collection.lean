import Scriptling.Builtin.Method.Basic

/-!
# Methods of dictionaries and sets

Looking up and changing entries, and the set operations, which take any collection whose items can be members.
-/

namespace Scriptling.Builtin

open Act
open Datum (addItem eq insertEntry lookup? member)

variable [Size.Room]

/-! ## Dictionaries -/

/-- The entries of the dictionary that a method belongs to. -/
def selfEntries (b : Bound) : Act (List (Datum × Datum)) := do
  match ← self b with
  | .dict entries => return entries
  | _ => wrongType

/-- Changes the dictionary that a method belongs to. -/
def setEntries (b : Bound) (entries : List (Datum × Datum)) : Act Datum := become b (.dict entries)

/-- Puts entries from a dictionary or from pairs into the dictionary that a method belongs to. The pairs before one
that is none are put in. -/
def updateEntries (b : Bound) (d : Datum) : Act Unit := do
  match ← look d with
  | .dict new =>
    let _ ← setEntries b (new.foldl (fun es (k, v) => insertEntry k v es) (← selfEntries b))
  | d =>
    for pair in ← lift d.items do
      let _ ← setEntries b (← addPair (← selfEntries b) pair)

/-- Takes a key out of the dictionary that a method belongs to. An empty dictionary does not look at the key. -/
def popKey (b : Bound) : Act Datum := do
  let entries ← selfEntries b
  if entries.isEmpty then orFail .missingKey (b.given? 2)
  else
    let key ← keyArg (b.value 1)
    match lookup? entries key with
    | some v =>
      let _ ← setEntries b (Datum.eraseEntry entries key)
      return v
    | none => orFail .missingKey (b.given? 2)

def dictMethods : Library := [
  ("get", method [required "key", orNothing "default"] fun _ b => do
    return (lookup? (← selfEntries b) (← keyArg (b.value 1))).getD (b.value 2)),
  ("keys", method [] fun _ b => do iterator "dict_keys" ((← selfEntries b).map (·.1))),
  ("values", method [] fun _ b => do iterator "dict_values" ((← selfEntries b).map (·.2))),
  ("items", method [] fun _ b => do iterator "dict_items" ((← selfEntries b).map fun (k, v) => .tuple [k, v])),
  ("pop", method [required "key", optional "default"] fun _ b => popKey b),
  ("popitem", method [] fun _ b => do
    let entries ← selfEntries b
    match entries.getLast? with
    | some (k, v) =>
      let _ ← setEntries b entries.dropLast
      return .tuple [k, v]
    | none => failPlain .missingKey),
  ("setdefault", method [required "key", orNothing "default"] fun _ b => do
    let entries ← selfEntries b
    let key ← keyArg (b.value 1)
    match lookup? entries key with
    | some v => return v
    | none =>
      let _ ← setEntries b (insertEntry key (b.value 2) entries)
      return b.value 2),
  ("update", ⟨{ positional := [required "self", optional "other"], unnamed := 2, moreNames := true }, fun _ b => do
    if let some d := b.given? 1 then updateEntries b d
    setEntries b (b.extra.foldl (fun es (k, v) => insertEntry (.str k) v es) (← selfEntries b))⟩),
  ("clear", method [] fun _ b => setEntries b []),
  ("copy", method [] fun _ b => do make (.dict (← selfEntries b)))]

/-- The methods of the class of dictionaries itself. -/
def dictClassMethods : Library := [
  ("fromkeys", ⟨.inOrder [required "iterable", orNothing "value"], fun _ b => do
    let keys ← (← items (b.value 0)).mapM keyArg
    make (.dict (keys.foldl (fun es k => insertEntry k (b.value 1) es) []))⟩)]

/-! ## Sets -/

/-- The members that a collection gives to a set operation. -/
def membersOf (d : Datum) : Act (List Datum) := do (← items d).mapM keyArg

def union (xs ys : List Datum) : List Datum := Datum.arrangeSet (ys.foldl addItem xs)

def intersection (xs ys : List Datum) : List Datum := xs.filter fun x => member x ys

/-- The members of a set that going through a collection meets. Once all are met, the items that are left are not
looked at. -/
def meet (xs : List Datum) (found : List Datum) : List Datum → Act (List Datum)
  | [] => return found
  | d :: ds => do
    let d ← keyArg d
    if member d xs then
      let found := addItem found d
      if found.length ≥ xs.length then return found else meet xs found ds
    else meet xs found ds

def common (xs : List Datum) (d : Datum) : Act (List Datum) := do
  return intersection xs (← meet xs [] (← items d))

/-- What is in the first list and not in the second. -/
def difference (xs ys : List Datum) : List Datum := xs.filter fun x => !member x ys

/-- What is in one of two lists and not in the other. -/
def symmetricDifference (xs ys : List Datum) : List Datum :=
  Datum.arrangeSet (difference xs ys ++ (difference ys xs).foldl addItem [])

/-- A set operation with several collections, one after the other. -/
def combine (op : List Datum → List Datum → List Datum) (b : Bound) : Act (List Datum) := do
  b.rest.foldlM (fun xs d => do return op xs (← membersOf d)) (← selfItems b)

/-- What a set and several collections have in common. -/
def commonOfAll (b : Bound) : Act (List Datum) := do b.rest.foldlM common (← selfItems b)

/-- A method that makes a set by an operation with several collections. -/
def combining (make : List Datum → Act Datum) (op : List Datum → List Datum → List Datum) : Routine :=
  methodOfMany fun _ b => do make (← combine op b)

/-- Goes through a collection until a test of its items fails, and tells whether it never did. Items after that are
not looked at. -/
def allMembers (test : Datum → Bool) : List Datum → Act Bool
  | [] => return true
  | d :: ds => do if test (← keyArg d) then allMembers test ds else return false

def anySetMethods (make : List Datum → Act Datum) : Library := [
  ("union", combining make union),
  ("intersection", methodOfMany fun _ b => do make (← commonOfAll b)),
  ("difference", combining make difference),
  ("symmetric_difference", method [required "other"] fun _ b => do
    make (symmetricDifference (← selfItems b) (← membersOf (b.value 1)))),
  ("issubset", method [required "other"] fun _ b => do
    let ys ← membersOf (b.value 1)
    return .bool ((← selfItems b).all fun x => member x ys)),
  ("issuperset", method [required "other"] fun _ b => do
    let xs ← selfItems b
    return .bool (← allMembers (member · xs) (← items (b.value 1)))),
  ("isdisjoint", method [required "other"] fun _ b => do
    let xs ← selfItems b
    return .bool (← allMembers (fun y => !member y xs) (← items (b.value 1)))),
  ("copy", method [] fun _ b => do make (← selfItems b))]

def frozensetMethods : Library := anySetMethods fun xs => return .frozenset xs

def setMembers (b : Bound) (xs : List Datum) : Act Datum := become b (.set xs)

/-- Changes the set that a method belongs to by each item of several collections in turn. The items before one that
cannot be a member have been taken into account then. -/
def changeByEach (change : List Datum → Datum → List Datum) (b : Bound) : Act Datum := do
  for d in b.rest do
    for x in ← items d do
      let x ← keyArg x
      let _ ← setMembers b (change (← selfItems b) x)
  return .none

def setMethods : Library := anySetMethods (fun xs => make (.set xs)) ++ [
  ("add", method [required "element"] fun _ b => do
    setMembers b (Datum.arrangeSet (addItem (← selfItems b) (← keyArg (b.value 1))))),
  ("remove", method [required "element"] fun _ b => do
    let xs ← selfItems b
    let x ← memberArg (b.value 1)
    if member x xs then setMembers b (xs.filter fun y => !eq y x) else failPlain .missingKey),
  ("discard", method [required "element"] fun _ b => do
    let x ← memberArg (b.value 1)
    setMembers b ((← selfItems b).filter fun y => !eq y x)),
  ("pop", method [] fun _ b => do
    match ← selfItems b with
    | x :: rest =>
      let _ ← setMembers b rest
      return x
    | [] => failPlain .missingKey),
  ("clear", method [] fun _ b => setMembers b []),
  ("update", methodOfMany fun _ b => changeByEach (fun xs x => union xs [x]) b),
  ("intersection_update", methodOfMany fun _ b => do setMembers b (← commonOfAll b)),
  ("difference_update", methodOfMany fun _ b => changeByEach (fun xs x => difference xs [x]) b),
  ("symmetric_difference_update", method [required "other"] fun _ b => do
    setMembers b (symmetricDifference (← selfItems b) (← membersOf (b.value 1))))]

end Scriptling.Builtin
