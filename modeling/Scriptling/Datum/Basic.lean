import Scriptling.Fault

/-!
# Data

The values that scripts and the workbench's tools compute with. A `Datum` is a finished value: lists,
dictionaries and the like are given with all they hold. A mutable collection that several places share is
named by a `cell`, and a store says what the cell holds (`Scriptling.Datum.Store`).
-/

namespace Scriptling

/-- The types of a script's values. -/
inductive ValueTag where
  | number
  | string
  | boolean
  | null
  | list
  | function
  | builtin
  | struct
  | object
  deriving Repr, DecidableEq

namespace ValueTag

def index : ValueTag → Nat
  | number => 1
  | string => 2
  | boolean => 3
  | null => 4
  | list => 5
  | function => 6
  | builtin => 7
  | struct => 8
  | object => 9

def name : ValueTag → String
  | number => "NUMBER"
  | string => "STRING"
  | boolean => "BOOLEAN"
  | null => "NULL"
  | list => "LIST"
  | function => "FUNCTION"
  | builtin => "BUILTIN_FUNCTION"
  | struct => "STRUCT"
  | object => "INSTANCE"

def ofName? (s : String) : Option ValueTag :=
  [number, string, boolean, null, list, function, builtin, struct, object].find? (·.name == s)

end ValueTag

/-- A value of any type. -/
inductive Datum where
  | none
  /-- A truth value; it counts as 0 or 1 in arithmetic. -/
  | bool (b : Bool)
  | int (n : Int)
  | float (x : Float)
  | complex (re im : Float)
  | str (s : String)
  | bytes (bs : List Nat)
  | byteArray (bs : List Nat)
  | list (items : List Datum)
  | tuple (items : List Datum)
  | set (items : List Datum)
  | frozenset (items : List Datum)
  /-- A dictionary, in the order in which the keys came. -/
  | dict (entries : List (Datum × Datum))
  /-- The whole numbers from `start` on by `step`, before `stop`. -/
  | range (start stop step : Int)
  | cls (name : String)
  /-- An object with named properties and no class of its own. -/
  | record (fields : List (String × Datum))
  /-- What is left of an iterator, and the name of its class. -/
  | iterator (cls : String) (items : List Datum)
  | function (name : String)
  | builtin (name : String)
  | method (receiver : Datum) (name : String)
  /-- Any other object: its class, its text, and a number that tells it from others. -/
  | object (cls text : String) (id : Nat)
  | tag (t : ValueTag)
  /-- A script's value: its tag, which need not be one of the known ones, and its payload. -/
  | value (tag payload : Datum)
  /-- A token kept in a record of a script's syntax. -/
  | token (kind lexeme : String) (literal : Datum) (line : Int)
  | frame (id : Nat)
  /-- A shared mutable collection, by its number in a store. -/
  | cell (id : Nat)
  deriving Inhabited

namespace Datum

/-- The object that stands for a missing operation. -/
def notImplemented : Datum := object "NotImplementedType" "NotImplemented" 0

def ellipsis : Datum := object "ellipsis" "Ellipsis" 0

def typeName : Datum → String
  | none => "NoneType"
  | bool _ => "bool"
  | int _ => "int"
  | float _ => "float"
  | complex .. => "complex"
  | str _ => "str"
  | bytes _ => "bytes"
  | byteArray _ => "bytearray"
  | list _ => "list"
  | tuple _ => "tuple"
  | set _ => "set"
  | frozenset _ => "frozenset"
  | dict _ => "dict"
  | range .. => "range"
  | cls _ => "type"
  | record _ => "Attrs"
  | iterator c _ => c
  | function _ => "function"
  | builtin _ | method .. => "builtin_function_or_method"
  | object c _ _ => c
  | tag _ => "ValueType"
  | value .. => "Value"
  | token .. => "Token"
  | frame _ => "Environment"
  | cell _ => "list"

def tagged (t : ValueTag) (payload : Datum) : Datum := value (tag t) payload

def null : Datum := tagged .null none

/-- Numbers of one tower: truth values, whole numbers, floats and complex numbers. -/
inductive Numeric where
  | int (n : Int)
  | float (x : Float)
  | complex (re im : Float)

def numeric? : Datum → Option Numeric
  | bool b => some (.int (if b then 1 else 0))
  | int n => some (.int n)
  | float x => some (.float x)
  | complex re im => some (.complex re im)
  | _ => .none

def int? : Datum → Option Int
  | bool b => some (if b then 1 else 0)
  | int n => some n
  | _ => .none

def rangeLength (start stop step : Int) : Nat :=
  if step > 0 then (if start < stop then ((stop - start - 1) / step + 1).toNat else 0)
  else if step < 0 then (if stop < start then ((start - stop - 1) / (-step) + 1).toNat else 0)
  else 0

end Datum

end Scriptling
