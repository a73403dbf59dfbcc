import Scriptling.Datum.Argument
import Scriptling.Walk.Object

/-!
# Requests to objects of the walker

Functions, classes and instances are kept under handles, and asked for what they can do by the name of it. A handle
that nothing is kept under is a missing key; an object that cannot do what it is asked for lacks an attribute.
-/

namespace Scriptling.Walk

open Run

abbrev Handles := List (String × Datum)

/-- What a request gives: something to keep under a handle, and an answer. -/
structure Answer where
  kept : Option (String × Datum) := none
  value : Datum

/-- The declaration of a function with parameters of these names. -/
def declarationOf (name : String) (parameters : List String) (body : Node) : Node :=
  .node "FunctionDeclaration" none [("name", .token "IDENTIFIER" name),
    ("params", .list (parameters.map fun p => .node "Param" none [("name", .token "IDENTIFIER" p)])), ("body", body)]

def share (d : Datum) : Run Datum :=
  modifyGet fun m => let (d, store) := m.world.store.thaw d; (d, { m with world := { m.world with store } })

namespace Handles

def object (hs : Handles) (handle : Datum) : Run Datum :=
  match hs.lookup handle.asText with
  | some d => return d
  | none => fault (.plain .missingKey)

/-- Methods by name, each under the handle of a function. -/
def methods (hs : Handles) (given : List (String × Datum)) : Run (List (String × Nat)) :=
  given.mapM fun (name, h) => do
    match ← hs.object h with
    | .object "Function" _ id => return (name, id)
    | _ => fault (.plain .missingKey)

/-- The class of a handle, unless nothing is given for it. -/
def superclass? (hs : Handles) (handle : Datum) : Run (Option Nat) := do
  match handle with
  | .none => return none
  | handle =>
    match ← hs.object handle with
    | .object "Class" _ id => return some id
    | _ => fault (.plain .missingKey)

/-- Keeps an object under a handle and answers with its text. -/
def keepShown (handle object : Datum) : Answer := ⟨some (handle.asText, object), .str object.plainDisplay⟩

/-- Whether a value is a function that is bound to an object. For any other value there is no saying. -/
def isBoundTo (object v : Datum) : Run Datum := do
  match v with
  | .object "Function" _ f =>
    let this ← onScopes (Scope.Action.lookup (← functionOf f).closure "this")
    return .bool (this.eq object)
  | _ => return .none

/-- The request of a name to an object. The first of the arguments is the one after the object's handle. -/
def askObject [Size.Room] [Host] (hs : Handles) (self : Datum) (request : String) (args : List Datum) : Run Answer :=
  let arg (i : Nat) : Datum := args.getD i .none
  match request, self with
  | "call", .object cls _ id => do
    let values ← (arg 0).asItems.mapM share
    let result ← match cls with
      | "Function" => callFunction id values
      | "Class" => callClass id values
      | _ => fault (.plain .missingAttribute)
    return ⟨(arg 1).text?.map fun h => (h, result), result⟩
  | "bind", .object "Function" _ id => do
    let this ← hs.object (arg 0)
    let f ← bindFunction id this
    return ⟨some ((arg 1).asText, f), .list [.str f.plainDisplay, .str this.plainDisplay]⟩
  | "bind", _ => do
    let _ ← hs.object (arg 0)
    fault (.plain .missingAttribute)
  | "get", .object "Instance" _ id => do
    let v ← getOfInstance id (arg 0).asText
    return ⟨none, .list [v, ← isBoundTo self v]⟩
  | "set", .object "Instance" _ id => do
    setOfInstance id (arg 0).asText (← share (arg 1))
    return ⟨none, .none⟩
  | "fields", .object "Instance" _ _ => do
    return ⟨none, (objectProperty? (← get) self "fields").getD .none⟩
  | "str", _ => return ⟨none, .str self.plainDisplay⟩
  | "arity", .object "Function" _ id => do return ⟨none, .int (← functionArity id)⟩
  | "arity", .object "Class" _ id => do return ⟨none, .int (← classArity id)⟩
  | "find_method", .object "Class" _ id => do
    match (← get).findMethod? id (arg 0).asText with
    | some f => return ⟨none, functionDatum f (← functionOf f).name⟩
    | none => return ⟨none, .none⟩
  | "get_method", _ => do return ⟨none, (← methodOf? self (arg 0).asText).getD .none⟩
  | _, _ => fault (.plain .missingAttribute)

/-- The request of a name. A function is made with a body, which is a tree; all else that is given is a value. -/
def ask [Size.Room] [Host] (hs : Handles) (request : String) (args : List Datum) (body : Node) : Run Answer :=
  let arg (i : Nat) : Datum := args.getD i .none
  match request with
  | "function" => do
    let name := (arg 1).asText
    let f ← newFunction
      ⟨name, declarationOf name ((arg 2).asItems.map Datum.asText) body, 0, (arg 4).asFlag, []⟩
    return keepShown (arg 0) f
  | "class" => do
    let methods ← hs.methods (arg 3).asOptions
    let superclass? ← hs.superclass? (arg 2)
    return keepShown (arg 0) (← newClass ⟨(arg 1).asText, superclass?, methods⟩)
  | _ => do hs.askObject (← hs.object (arg 0)) request args.tail

end Handles

end Scriptling.Walk
