import Scriptling.Builtin.Method.Operator
import Scriptling.Builtin.Method.Sequence

/-!
# Calling methods

The methods of the values of each class, and how one is called: on a value, or as a function of the class, which
takes the value first. Some belong to the class itself and take no value.
-/

namespace Scriptling.Builtin

variable [Size.Room]

/-- The methods of the values of a class, other than those of every value. -/
def methodsOf : String → Library
  | "str" => textMethods ++ sequenceMethods ++ templateMethods
  | "bytes" => bytesMethods ++ sequenceMethods ++ templateMethods
  | "bytearray" => byteArrayMethods ++ sequenceMethods ++ templateMethods ++ itemMethods ++ growingMethods
  | "list" => listMethods ++ sequenceMethods ++ itemMethods ++ growingMethods
  | "tuple" => tupleMethods ++ sequenceMethods
  | "range" => rangeMethods ++ containerMethods ++ [("__getitem__", itemAt)]
  | "dict" => dictMethods ++ dictOperatorMethods
  | "set" => setMethods ++ setOperatorMethods ++ setChangeMethods
  | "frozenset" => frozensetMethods ++ setOperatorMethods
  | "int" | "bool" => intMethods ++ wholeMethods
  | "float" => floatMethods ++ realMethods
  | "complex" => complexMethods ++ arithmeticMethods
  | _ => []

def classMethodsOf : String → Library
  | "str" => textClassMethods
  | "bytes" => bytesClassMethods fun bs => return .bytes bs
  | "bytearray" => bytesClassMethods fun bs => Act.make (.byteArray bs)
  | "dict" => dictClassMethods
  | "int" => intClassMethods fun n => .int n
  | "bool" => intClassMethods fun n => .bool (n != 0)
  | _ => []

def methodOf? (cls name : String) : Option Routine := ((methodsOf cls).lookup name).or (commonMethods.lookup name)

def callUnbound (apply : Apply) (cls name : String) (args : List Datum) (named : List (String × Datum)) :
    Act Datum := do
  match args with
  | [] => Act.wrongType
  | d :: _ =>
    if !(Datum.lineage (← Act.typeName d)).contains cls then Act.wrongType
    if d.isObject then Act.beyond
    match methodOf? cls name with
    | some r => r.call apply args named
    | none => Act.beyond

/-- Calls a method of a value. A method that is known by name only is not modelled, and no method of an object is, since
its class may have its own. -/
def callMethod (apply : Apply) (self : Datum) (name : String) (args : List Datum) (named : List (String × Datum)) :
    Act Datum := do
  if self.isObject then Act.beyond
  let cls ← match self with
    | .cls c => pure c
    | d => Act.typeName d
  match (classMethodsOf cls).lookup name, self with
  | some r, _ => r.call apply args named
  | none, .cls c => if name == "__call__" then apply self args else callUnbound apply c name args named
  | none, self =>
    match methodOf? cls name with
    | some r => r.call apply (self :: args) named
    | none => Act.beyond

end Scriptling.Builtin
