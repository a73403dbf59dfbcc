import Scriptling.Datum.PropertyTable
import Scriptling.Datum.Text

/-!
# Properties of data

A value has the properties of its class; an object with named properties has those as well. What a property
holds is a value, or a function of the object.
-/

namespace Scriptling.Datum

/-- A class and the classes above it, nearest first. -/
def lineage : String → List String
  | "object" => ["object"]
  | "bool" => ["bool", "int", "object"]
  | c => [c, "object"]

mutual

/-- Whether a class is, or is below, one of the classes that a value names: a class, or a tuple of such values,
of which the first match decides. Without a class to ask about, every class that is named is a fault. -/
def isBelow (type? : Option String) : Datum → Except Fault Bool
  | cls c =>
    match type? with
    | some type => .ok ((lineage type).contains c)
    | .none => .error (.plain .wrongType)
  | tuple ds => isBelowOne type? ds
  | _ => .error (.plain .wrongType)

/-- Whether a class is, or is below, one of several. -/
def isBelowOne (type? : Option String) : List Datum → Except Fault Bool
  | [] => .ok false
  | d :: ds =>
    match isBelow type? d with
    | .ok false => isBelowOne type? ds
    | found => found

end

def isCallable : Datum → Bool
  | cls _ | function _ | builtin _ | method .. | object "staticmethod" _ _ | object "GenericAlias" _ _ => true
  | _ => false

def isObject : Datum → Bool
  | object .. => true
  | _ => false

/-- The fields of an object with named properties. -/
def fields : Datum → List (String × Datum)
  | record fs => fs
  | _ => []

/-- The names of all properties of a value. A class has those of its values. -/
def allNames (d : Datum) : List String :=
  commonNames ++ match d with
    | cls name => namesOf name
    | d => namesOf d.typeName ++ d.fields.map (·.1)

/-- The names of all properties of a value, each once and in code point order. -/
def propertyNames (d : Datum) : List String := (d.allNames.mergeSort (· ≤ ·)).eraseDups

def hasProperty (d : Datum) (name : String) : Bool :=
  d.allNames.contains name ||
    match d with
    | cls _ => classNames.contains name
    | _ => false

/-- The properties of numbers and ranges that hold numbers. -/
def numericProperty? (d : Datum) (name : String) : Option Datum :=
  match d.int?, d, name with
  | some n, _, "real" | some n, _, "numerator" => some (int n)
  | some _, _, "imag" => some (int 0)
  | some _, _, "denominator" => some (int 1)
  | _, float x, "real" => some (float x)
  | _, float _, "imag" => some (float 0)
  | _, complex re _, "real" => some (float re)
  | _, complex _ im, "imag" => some (float im)
  | _, range a _ _, "start" => some (int a)
  | _, range _ b _, "stop" => some (int b)
  | _, range _ _ c, "step" => some (int c)
  | _, _, _ => .none

/-- The properties that tell of a value's class and name. -/
def classProperty? (d : Datum) (name : String) : Option Datum :=
  match d, name with
  | d, "__class__" => some (cls d.typeName)
  | record fs, "__dict__" => some (dict (fs.map fun (k, v) => (str k, v)))
  | function _, "__dict__" => some (dict [])
  | record _, "__weakref__"
  | list _, "__hash__" | dict _, "__hash__" | set _, "__hash__" | byteArray _, "__hash__" => some none
  | cls c, "__name__" | cls c, "__qualname__" => some (str c)
  | cls c, "__mro__" => some (tuple ((lineage c).map cls))
  | cls c, "__bases__" => some (tuple (((lineage c).drop 1).take 1 |>.map cls))
  | cls c, "__base__" => some (((lineage c).drop 1).head?.elim none cls)
  | builtin f, "__name__" | builtin f, "__qualname__" | function f, "__name__" | function f, "__qualname__" =>
    some (str f)
  | none, "__doc__" => some none
  | _, _ => .none

/-- What a property of a value holds, if it has it. -/
def property? (d : Datum) (name : String) : Option Datum :=
  match d.fields.lookup name with
  | some v => some v
  | .none =>
    if d.hasProperty name then
      some ((d.numericProperty? name).getD ((d.classProperty? name).getD (method d name)))
    else .none

/-- Whether it cannot be told what a property of a value holds: it is a value that is not written down here, or the
properties of the class are not. -/
def isUntold (d : Datum) (name : String) : Bool :=
  match d.property? name with
  | some (method ..) => untoldNames.contains name
  | some _ => false
  | .none =>
    let c := match d with
      | cls c => c
      | d => d.typeName
    !chartedClasses.contains c

end Scriptling.Datum
