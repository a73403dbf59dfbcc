import Scriptling.Catalogue.Shape
import Scriptling.Datum.Text

/-!
# Syntax nodes as data

Nodes of the catalogue, made from values in order and by name. Nodes are equal if their classes are the same
and their fields are equal one by one.
-/

namespace Scriptling.Catalogue

/-- A node, or what may be in a field of one. -/
inductive Item where
  | value (d : Datum)
  | list (items : List Item)
  | node (shape : Shape) (fields : List (String × Item))
  deriving Inhabited

namespace Item

def className : Item → String
  | value d => d.typeName
  | list _ => "list"
  | node s _ => s.name

mutual

/-- The text of an item: a node with its class and all its fields. -/
def literal : Item → String
  | value d => d.literal
  | list items => "[" ++ ", ".intercalate (literals items) ++ "]"
  | node s fields => s.name ++ "(" ++ ", ".intercalate (fieldLiterals fields) ++ ")"

def literals : List Item → List String
  | [] => []
  | x :: rest => x.literal :: literals rest

def fieldLiterals : List (String × Item) → List String
  | [] => []
  | (name, x) :: rest => (name ++ "=" ++ x.literal) :: fieldLiterals rest

end

mutual

def eq : Item → Item → Bool
  | value a, value b => a.eq b
  | list xs, list ys => eqAll xs ys
  | node s fields, node t others => s.name == t.name && eqFields fields others
  | _, _ => false

def eqAll : List Item → List Item → Bool
  | [], [] => true
  | x :: xs, y :: ys => x.eq y && eqAll xs ys
  | _, _ => false

def eqFields : List (String × Item) → List (String × Item) → Bool
  | [], [] => true
  | (_, x) :: xs, (_, y) :: ys => x.eq y && eqFields xs ys
  | _, _ => false

end

/-- The items of a list or of a value that has any. -/
def elements : Item → Except Fault (List Item)
  | list items => .ok items
  | value (.str s) => .ok (s.toList.map fun c => value (.str c.toString))
  | value (.tuple xs) | value (.set xs) | value (.frozenset xs) => .ok (xs.map value)
  | value (.dict es) => .ok (es.map fun e => value e.1)
  | _ => .error (.plain .wrongType)

def field (x : Item) (name : String) : Except Fault Item :=
  match x with
  | node _ fields =>
    match fields.lookup name with
    | some v => .ok v
    | none => .error (.plain .missingAttribute)
  | _ => .error (.plain .missingAttribute)

/-- Gives values to the fields of a node, in order and by name. It fails if a value is missing, is one too many,
is given twice, or has a name that no field has. -/
def fill? (fields : List Field) (args : List Item) (named : List (String × Item)) : Option (List (String × Item)) :=
  if fields.length < args.length || named.any (fun n => !(fields.any fun f => f.name == n.1)) then none
  else fields.zipIdx.mapM fun (f, i) =>
    match args[i]?, named.lookup f.name with
    | some _, some _ => none
    | some v, none | none, some v => some (f.name, v)
    | none, none => f.default.map fun d => (f.name, value d)

def make (family : Family) (name : String) (args : List Item) (named : List (String × Item)) : Except Fault Item :=
  match family.shape? name with
  | none => .error (.plain .missingAttribute)
  | some s =>
    match fill? s.fields args named with
    | some fields => .ok (node s fields)
    | none => .error (.plain .wrongType)

/-- Visits a node: with the visit for its class if the visitor has one, else with the general one. -/
def accept {α : Type} (family : Family) (visit? : String → Option (Item → Except Fault α))
    (general : Item → Except Fault α) (x : Item) : Except Fault α :=
  match x with
  | node s _ =>
    if s.isVisited family then ((visit? s.name).getD general) x else .error (.plain .missingAttribute)
  | _ => .error (.plain .missingAttribute)

end Item

end Scriptling.Catalogue
