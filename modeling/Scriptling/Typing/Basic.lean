import Scriptling.Text.Quoted

/-!
# Types

The types of the language: plain and primitive types, which are told apart by a kind and a name, lists, functions,
structs, unions, intersections and type variables. Compound types have a name too, which is their text unless
another was given. The kind of a compound type is fixed; a plain or primitive type may have any kind, also one that
compound types have.
-/

namespace Scriptling.Typing

inductive TypeKind where
  | any
  | never
  | void
  | null
  | boolean
  | number
  | string
  | list
  | function
  | struct
  | union
  | intersection
  | generic
  | typeVariable
  deriving Repr, DecidableEq

namespace TypeKind

/-- All kinds, in the order of their numbers, which start at one. -/
def all : List TypeKind :=
  [any, never, void, null, boolean, number, string, list, function, struct, union, intersection, generic, typeVariable]

def word : TypeKind → String
  | any => "any"
  | never => "never"
  | void => "void"
  | null => "null"
  | boolean => "boolean"
  | number => "number"
  | string => "string"
  | list => "list"
  | function => "function"
  | struct => "struct"
  | union => "union"
  | intersection => "intersection"
  | generic => "generic"
  | typeVariable => "type_variable"

def name (k : TypeKind) : String := k.word.toUpper

def index (k : TypeKind) : Nat := all.idxOf k + 1

def ofName? (s : String) : Option TypeKind := all.find? (·.name == s)

end TypeKind

/-- A type. -/
inductive Ty where
  /-- A type of which only the kind and the name are known. -/
  | plain (kind : TypeKind) (name : String)
  | primitive (kind : TypeKind) (name : String)
  | list (name : String) (element : Ty)
  /-- A function, with the names of its type parameters. -/
  | function (name : String) (parameters : List Ty) (result : Ty) (typeParameters : List String)
  /-- A struct, with the names of its type parameters. -/
  | struct (name : String) (fields : List (String × Ty)) (typeParameters : List String)
  | union (name : String) (members : List Ty)
  | intersection (name : String) (members : List Ty)
  | var (name : String)
  deriving Inhabited

namespace Ty

def kind : Ty → TypeKind
  | plain k _ | primitive k _ => k
  | list .. => .list
  | function .. => .function
  | struct .. => .struct
  | union .. => .union
  | intersection .. => .intersection
  | var _ => .typeVariable

def name : Ty → String
  | plain _ n | primitive _ n | list n _ | function n .. | struct n .. | union n _ | intersection n _ | var n => n

def className : Ty → String
  | plain .. => "Type"
  | primitive .. => "PrimitiveType"
  | list .. => "ListType"
  | function .. => "FunctionType"
  | struct .. => "StructType"
  | union .. => "UnionType"
  | intersection .. => "IntersectionType"
  | var _ => "TypeVariable"

/-! ## Texts -/

def nameOr (name other : String) : String := if name.isEmpty then other else name

mutual

def text : Ty → String
  | plain k n | primitive k n => nameOr n k.word
  | list _ element => "List[" ++ text element ++ "]"
  | function _ parameters result _ => "(" ++ ", ".intercalate (texts parameters) ++ ") -> " ++ text result
  | struct n fields _ => nameOr n ("\x7b " ++ ", ".intercalate (fieldTexts fields) ++ " \x7d")
  | union _ members => " | ".intercalate (texts members)
  | intersection _ members => " & ".intercalate (texts members)
  | var n => nameOr n "T"

def texts : List Ty → List String
  | [] => []
  | t :: ts => text t :: texts ts

def fieldTexts : List (String × Ty) → List String
  | [] => []
  | (n, t) :: rest => (n ++ ": " ++ text t) :: fieldTexts rest

end

def bracketed (texts : List String) : String := "[" ++ ", ".intercalate texts ++ "]"

/-- The kind and the name of a type, as its description starts. -/
def heading (cls : String) (k : TypeKind) (n : String) : String :=
  cls ++ "(kind=<TypeKind." ++ k.name ++ ": " ++ toString k.index ++ ">, name=" ++ Text.quoted n

mutual

def describe : Ty → String
  | plain k n => heading "Type" k n ++ ")"
  | primitive k n => heading "PrimitiveType" k n ++ ")"
  | list n element => heading "ListType" .list n ++ ", element_type=" ++ describe element ++ ")"
  | function n parameters result typeParameters =>
    heading "FunctionType" .function n ++ ", parameter_types=" ++ bracketed (describeAll parameters) ++
      ", return_type=" ++ describe result ++ ", type_parameters=" ++ bracketed (typeParameters.map Text.quoted) ++ ")"
  | struct n fields typeParameters =>
    heading "StructType" .struct n ++ ", fields=\x7b" ++ ", ".intercalate (describeFields fields) ++
      "\x7d, type_parameters=" ++ bracketed (typeParameters.map Text.quoted) ++ ")"
  | union n members => heading "UnionType" .union n ++ ", types=" ++ bracketed (describeAll members) ++ ")"
  | intersection n members =>
    heading "IntersectionType" .intersection n ++ ", types=" ++ bracketed (describeAll members) ++ ")"
  | var n => heading "TypeVariable" .typeVariable n ++ ")"

def describeAll : List Ty → List String
  | [] => []
  | t :: ts => describe t :: describeAll ts

def describeFields : List (String × Ty) → List String
  | [] => []
  | (n, t) :: rest => (Text.quoted n ++ ": " ++ describe t) :: describeFields rest

end

/-! ## Making types

A compound type without a name is named by its text; a struct stays without a name. -/

def mkList (name : String) (element : Ty) : Ty := list (nameOr name (text (list "" element))) element

def mkFunction (name : String) (parameters : List Ty) (result : Ty) (typeParameters : List String) : Ty :=
  function (nameOr name (text (function "" parameters result []))) parameters result typeParameters

def mkUnion (name : String) (members : List Ty) : Ty := union (nameOr name (text (union "" members))) members

def mkIntersection (name : String) (members : List Ty) : Ty :=
  intersection (nameOr name (text (intersection "" members))) members

/-- The type that everything but the empty type belongs to. -/
def anyType : Ty := plain .any "any"

def neverType : Ty := plain .never "never"

/-- The types with a name of their own in the language. -/
def constants : List (String × Ty) := [
  ("any", anyType),
  ("never", neverType),
  ("void", plain .void "void"),
  ("null", plain .null "null"),
  ("boolean", primitive .boolean "boolean"),
  ("number", primitive .number "number"),
  ("string", primitive .string "string")]

/-! ## Equality -/

mutual

/-- Whether two types are equal. Types of one class are equal part by part, the fields of structs in any order; a
plain type is equal to every type with its kind and name. -/
def eq : Ty → Ty → Bool
  | primitive k n, primitive k' n' => k == k' && n == n'
  | list n e, list n' e' => n == n' && eq e e'
  | function n ps r ts, function n' ps' r' ts' => n == n' && eqAll ps ps' && eq r r' && ts == ts'
  | struct n fs ts, struct n' fs' ts' => n == n' && fs.length == fs'.length && eqFields fs fs' && ts == ts'
  | union n ms, union n' ms' | intersection n ms, intersection n' ms' => n == n' && eqAll ms ms'
  | var n, var n' => n == n'
  | plain k n, t => k == t.kind && n == t.name
  | t, plain k n => t.kind == k && t.name == n
  | _, _ => false

/-- Whether two lists of types are equal one by one. -/
def eqAll : List Ty → List Ty → Bool
  | [], [] => true
  | t :: ts, t' :: ts' => eq t t' && eqAll ts ts'
  | _, _ => false

/-- Whether each field has an equal one of the same name in the other list. -/
def eqFields : List (String × Ty) → List (String × Ty) → Bool
  | [], _ => true
  | (n, t) :: rest, fs =>
    (match fs.lookup n with
      | some t' => eq t t'
      | none => false) && eqFields rest fs

end

/-- Whether a type can be a member of a set: only plain types can. -/
def isHashable : Ty → Bool
  | plain .. => true
  | _ => false

def isPrimitive (t : Ty) : Bool := [.boolean, .number, .string, .null, .void, .any, .never].contains t.kind

end Ty

/-- Why a question about types has no answer. -/
inductive TypingError where
  /-- A plain or primitive type has the kind of a union or of an intersection, but no members. -/
  | noMembers
  | missingKind
  | unhashable
  | noFields
  deriving Repr, DecidableEq

def Ty.field? (t : Ty) (name : String) : Except TypingError (Option Ty) :=
  match t with
  | .struct _ fields _ => .ok (fields.lookup name)
  | _ => .error .noFields

/-- Whether two types have the same place in a set. -/
def Ty.sameHash (a b : Ty) : Except TypingError Bool :=
  if a.isHashable && b.isHashable then .ok (a.kind == b.kind && a.name == b.name) else .error .unhashable

end Scriptling.Typing
