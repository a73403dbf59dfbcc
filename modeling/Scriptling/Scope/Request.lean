import Scriptling.Datum.Argument
import Scriptling.Scope.Forest

/-!
# Requests to environments

The operations on an environment under the names by which they are asked for. What was given with a request and
what it answers are values. A desk keeps environments under handles, so that a request can say which one it is
for.
-/

namespace Scriptling.Scope

/-- What a function is said to be, by the name of each flag. -/
def FunctionNote.ofOptions? (name : String) (options : Datum) : Option FunctionNote :=
  let flag (word : String) : Datum := (options.option? word).getD (.bool false)
  if options.hasOther
      ["is_generator", "is_async", "is_method", "is_classmethod", "is_staticmethod", "is_property"] then none
  else some ⟨name, flag "is_generator", flag "is_async", flag "is_method", flag "is_classmethod",
    flag "is_staticmethod", flag "is_property"⟩

def FunctionNote.toDatum (n : FunctionNote) : Datum :=
  .list [.str n.name, n.isGenerator, n.isAsync, n.isMethod, n.isClassMethod, n.isStaticMethod, n.isProperty]

/-- What a class is said to be, by the name of each part. -/
def ClassNote.ofOptions? (name : String) (options : Datum) : Option ClassNote :=
  let part (word : String) (usual : Datum) : Datum := (options.option? word).getD usual
  if options.hasOther ["bases", "namespace", "mro", "is_frozen"] then none
  else some ⟨name, part "bases" (.list []), part "namespace" (.dict []), part "mro" (.list []),
    part "is_frozen" (.bool false)⟩

def ClassNote.toDatum (n : ClassNote) : Datum := .list [.str n.name, n.bases, n.members, n.order, n.isFrozen]

namespace Action

def change (id : Nat) (g : Environment → Environment) : Action Datum := do
  modify fun f => f.updateEnvironment id g
  return .none

def silently (a : Action Unit) : Action Datum := do
  a
  return .none

/-- An answer if there is one, and nothing otherwise. -/
def answer {α : Type} (g : α → Datum) (found : Forest → Option α) : Action Datum := do
  return ((found (← get)).map g).getD .none

/-- The name that a value is. Only a value that can be a key is taken for one. -/
def nameOf (d : Datum) : Action String := if d.isHashable then pure d.asText else throw .unsuitable

def distanceOf (d : Datum) : Action Int :=
  match d.int? with
  | some n => pure n
  | none => throw .unsuitable

/-- The operation of a name on an environment, for those that take a distance or nothing. -/
def requestAt? (id : Nat) (operation : String) (arg : Nat → Datum) : Option (Action Datum) :=
  match operation with
  | "assign_at" => some do silently (assignAt id (← distanceOf (arg 0)) (← nameOf (arg 1)) (arg 2))
  | "get_at" => some do lookupAt id (← distanceOf (arg 0)) (← nameOf (arg 1))
  | "ancestor" => some do
    let e ← ancestor id (← distanceOf (arg 0))
    return .str ((← get).display e)
  | "str" => some do return .str ((← get).display id)
  | _ => none

/-- The operation of a name on an environment, for those that take the name of something first. -/
def requestFor (id : Nat) (operation name : String) (arg : Nat → Datum) : Action Datum :=
  match operation with
  | "define" =>
    let scope := ((arg 2).option? "scope").bind fun s => ScopeKind.ofName? s.asText
    silently (define id name (arg 1) (.kind (scope.getD .local)) ((arg 2).optionOrNone "is_constant").truthy)
  | "capture" => silently (capture id name (arg 1).truthy)
  | "assign" => silently (assign id name (arg 1) (arg 2).truthy)
  | "setitem" => silently (assign id name (arg 1) false)
  | "get" | "getitem" => lookup id name
  | "delitem" => silently (delete id name)
  | "contains" => return .bool ((← get).contains id name)
  | "define_function" =>
    match FunctionNote.ofOptions? name (arg 1) with
    | none => throw .unsuitable
    | some note => change id fun e => { e with functions := setKey name note e.functions }
  | "get_function" => answer FunctionNote.toDatum fun f => f.findIn? id (·.functions) name
  | "define_class" =>
    match ClassNote.ofOptions? name (arg 1) with
    | none => throw .unsuitable
    | some note => change id fun e => { e with classes := setKey name note e.classes }
  | "get_class" => answer ClassNote.toDatum fun f => f.findIn? id (·.classes) name
  | "define_type" => change id fun e => { e with types := setKey name (.cls (arg 1).asText) e.types }
  | "get_type" => answer (fun d => d) fun f => f.findIn? id (·.types) name
  | "import_module" => change id fun e => { e with modules := setKey name (arg 1) e.modules }
  | "get_module" => answer (fun d => d) fun f => (f.environment id).modules.lookup name
  | _ => throw .unknownRequest

def request (id : Nat) (operation : String) (args : List Datum) : Action Datum := do
  let arg (i : Nat) : Datum := args.getD i .none
  match requestAt? id operation arg with
  | some a => a
  | none => requestFor id operation (← nameOf (arg 0)) arg

end Action

structure Desk where
  forest : Forest := .empty
  handles : List (String × Nat) := []

namespace Desk

/-- The environment of a handle; the first one if there is none. -/
def environment (d : Desk) (handle : String) : Nat := (d.handles.lookup handle).getD 0

def keep (d : Desk) (handle : String) (new : Nat × Forest) : Except ScopeError Datum × Desk :=
  (.ok .none, ⟨new.2, setKey handle new.1 d.handles⟩)

/-- Takes a request for the environment of a handle. The requests that make an environment give it a handle. -/
def request (d : Desk) (operation handle : String) (args : List Datum) : Except ScopeError Datum × Desk :=
  let arg (i : Nat) : Datum := args.getD i .none
  let id := d.environment handle
  match operation with
  | "new" => d.keep handle (d.forest.add ((arg 0).text?.bind fun h => d.handles.lookup h) (arg 1).text?)
  | "child" => d.keep (arg 0).asText (d.forest.add (some id) (arg 1).text?)
  | "fork" => d.keep (arg 0).asText (d.forest.fork id)
  | _ =>
    let (r, forest) := (Action.request id operation args).run d.forest
    (r, { d with forest })

end Desk

end Scriptling.Scope
