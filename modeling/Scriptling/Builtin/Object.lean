import Scriptling.Builtin.Numeric

/-!
# Routines on objects

Classes, properties, and whether something can be called.
-/

namespace Scriptling.Builtin

open Act

/-- The name of a property, which has to be a text. -/
def propertyName (d : Datum) : Act String :=
  match d with
  | .str s => return s
  | _ => wrongType

def typeOf (d : Datum) : Act Datum := return .cls (← typeName d)

/-- Whether a value belongs to a class or to one of several. -/
def isInstance (d classes : Datum) : Act Datum := do
  return .bool (← lift (Datum.isBelow (some (← typeName d)) classes))

/-- Whether a class is below another or below one of several. -/
def isSubclass (d classes : Datum) : Act Datum := do
  let name? := match d with
    | .cls c => some c
    | _ => none
  return .bool (← lift (Datum.isBelow name? classes))

def hasProperty (d name : Datum) : Act Datum := do
  let name ← propertyName name
  return .bool (← told? d name).isSome

/-- What a property holds, or the default if the value does not have it. -/
def getProperty (d name : Datum) (default? : Option Datum) : Act Datum := do
  let name ← propertyName name
  match (← told? d name).or default? with
  | some v => return v
  | none => fail (.missingAttribute (← typeName d) name)

/-- Sets a field in a list of fields; a new one goes to the end. -/
def setField (name : String) (v : Datum) (fields : List (String × Datum)) : List (String × Datum) :=
  if fields.any (·.1 == name) then fields.map fun f => if f.1 == name then (name, v) else f
  else fields ++ [(name, v)]

/-- Refuses to change a property of a value that has no named properties of its own. -/
def unchangeable (d : Datum) (name : String) : Act Datum :=
  match d with
  | .object .. => beyond
  | .cls c => if Datum.chartedClasses.contains c then wrongType else beyond
  | d => fail (.missingAttribute d.typeName name)

/-- Sets a property. Only objects with named properties take new ones. -/
def setProperty (d name v : Datum) : Act Datum := do
  let name ← propertyName name
  match ← look d with
  | .record fields => do
    update d (.record (setField name v fields))
    return .none
  | .function _ => return .none
  | c => unchangeable c name

def deleteProperty (d name : Datum) : Act Datum := do
  let name ← propertyName name
  match ← look d with
  | .record fields =>
    if fields.any (·.1 == name) then do
      update d (.record (fields.filter (·.1 != name)))
      return .none
    else fail (.missingAttribute "Attrs" name)
  | c => unchangeable c name

def propertyList (d : Datum) : Act Datum := do
  match ← look d with
  | .object .. => beyond
  | c => make (.list (c.propertyNames.map .str))

/-- The named properties of an object as a dictionary. -/
def propertyDict (d : Datum) : Act Datum := do
  match ← look d with
  | .record fields => make (.dict (fields.map fun (k, v) => (.str k, v)))
  | .function _ => make (.dict [])
  | .cls _ => return .object "mappingproxy" "<mappingproxy object>" 0
  | .object .. => beyond
  | _ => wrongType

/-- The names of the variables where a routine was called. -/
def localNames (locals : List (String × Datum)) : Act Datum := make (.list (locals.map fun (k, _) => .str k))

/-- The variables where a routine was called, as a dictionary. -/
def localDict (locals : List (String × Datum)) : Act Datum := make (.dict (locals.map fun (k, v) => (.str k, v)))

def byteView (d : Datum) : Act Datum := do
  match ← look d with
  | .bytes _ | .byteArray _ => return .object "memoryview" "<memory>" 0
  | _ => wrongType

/-- What stands for an object as one of the class above: the object has to belong to the class, or be a class below
it. Without arguments there has to be a method around the call. -/
def parentView (cls? object? : Option Datum) : Act Datum := do
  let view : Datum := .object "super" "<super object>" 0
  match cls?, object? with
  | none, _ => failPlain .runtime
  | some (.cls _), none | some (.cls _), some .none => return view
  | some (.cls c), some d =>
    let below := match d with
      | .cls name => (Datum.lineage name).contains c
      | _ => false
    if below || (Datum.lineage (← typeName d)).contains c then return view else wrongType
  | some _, _ => wrongType

/-- A routine on an object. Without one it is about the caller, of which a routine knows nothing. -/
def ofCaller (run : Datum → Act Datum) : Routine :=
  ⟨.inOrder [optional "object"], fun _ b => (b.given? 0).elim beyond run⟩

/-- The routines on objects that come with the language. -/
def objectRoutines : Library := [
  ("type", ⟨.inOrder [required "object", optional "bases", optional "dict"], fun _ b => b.upTo 1 (typeOf (b.value 0))⟩),
  ("object", ⟨unnamed [], fun _ _ => return .object "object" "<object object>" 0⟩),
  ("isinstance", .binary (unnamed ["obj", "class_or_tuple"]) isInstance),
  ("issubclass", .binary (unnamed ["cls", "class_or_tuple"]) isSubclass),
  ("callable", ⟨unnamed ["obj"], fun _ b => return .bool (b.value 0).isCallable⟩),
  ("hasattr", .binary (unnamed ["obj", "name"]) hasProperty),
  ("getattr", ⟨.inOrder [required "object", required "name", optional "default"],
    fun _ b => getProperty (b.value 0) (b.value 1) (b.given? 2)⟩),
  ("setattr", .ternary (unnamed ["obj", "name", "value"]) setProperty),
  ("delattr", .binary (unnamed ["obj", "name"]) deleteProperty),
  ("dir", ofCaller propertyList),
  ("vars", ofCaller propertyDict),
  ("slice", ⟨.inOrder [required "start", optional "stop", optional "step"],
    fun _ _ => return .object "slice" "slice" 0⟩),
  ("property", ⟨.of (["fget", "fset", "fdel", "doc"].map optional),
    fun _ _ => return .object "property" "<property object>" 0⟩),
  ("classmethod", ⟨unnamed ["function"], fun _ _ => return .object "classmethod" "<classmethod object>" 0⟩),
  ("staticmethod", ⟨unnamed ["function"], fun _ _ => return .object "staticmethod" "<staticmethod object>" 0⟩),
  ("super", ⟨.inOrder [optional "type", optional "object"], fun _ b => parentView (b.given? 0) (b.given? 1)⟩),
  ("memoryview", .unary (.exactly ["object"]) byteView)]

end Scriptling.Builtin
