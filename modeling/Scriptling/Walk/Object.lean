import Scriptling.Walk.Machine

/-!
# Functions, classes and instances

Objects are values that carry the number of what they stand for. A function object can be bound to an instance and
asked for its arity. Its body is not run: a call gives the arguments to the parameters, and fails then.

The walker and its environments are objects as well. A function object leads to the environment that it was made in, and
the routines that tell of the variables of their caller lead to the walker.
-/

namespace Scriptling.Walk

open Run

open Scope (Forest)

variable [Size.Room] [Host]

def functionDatum (id : Nat) (name : String) : Datum := .object "Function" ("<fn " ++ name ++ ">") id

def classDatum (id : Nat) (name : String) : Datum := .object "Class" ("<class " ++ name ++ ">") id

def instanceDatum (id : Nat) (name : String) : Datum := .object "Instance" ("<" ++ name ++ " instance>") id

/-- The walker itself. -/
def walkerDatum : Datum := .object "Interpreter" "<Interpreter object>" 0

def environmentDatum (m : Machine) (id : Nat) : Datum := .object "Environment" (m.forest.display id) id

def newFunction (f : FunctionObject) : Run Datum :=
  modifyGet fun m => (functionDatum m.functions.size f.name, { m with functions := m.functions.push f })

def newClass (c : ClassObject) : Run Datum :=
  modifyGet fun m => (classDatum m.classes.size c.name, { m with classes := m.classes.push c })

def newInstance (cls : Nat) : Run Datum :=
  modifyGet fun m =>
    (instanceDatum m.instances.size ((m.classes.getD cls default).name),
      { m with instances := m.instances.push ⟨cls, []⟩ })

def functionOf (id : Nat) : Run FunctionObject := return (← get).functions.getD id default

/-- The method of a class, or of the nearest class above it that has it. The fuel bounds how many there are. -/
def findMethodWithin (m : Machine) (name : String) : Nat → Nat → Option Nat
  | 0, _ => none
  | fuel + 1, id =>
    let c := m.classes.getD id default
    match c.methods.lookup name with
    | some f => some f
    | none => c.superclass?.bind (findMethodWithin m name fuel)

/-- The method of a class, or of the nearest class above it that has it. -/
def Machine.findMethod? (m : Machine) (cls : Nat) (name : String) : Option Nat :=
  findMethodWithin m name (m.classes.size + 1) cls

def needField (n : Node) (name : String) : Run Node :=
  match n.field? name with
  | some f => return f
  | none => fault (.plain .missingAttribute)

/-- The text of a name: a token, or a node with a text. -/
def lexemeOf (n : Node) : Run String := do
  match ← needField n "lexeme" with
  | .value (.str s) => return s
  | _ => wrongType

/-- The parts of a list; a collection has its items as parts. -/
def partsOf : Node → Run (List Node)
  | .list items => return items
  | .value d => do return (← act (Builtin.Act.items d)).map .value
  | _ => wrongType

def parametersOf (f : FunctionObject) : Run (List Node) := do partsOf (← needField f.declaration "params")

def functionArity (id : Nat) : Run Nat := do return (← parametersOf (← functionOf id)).length

/-- How many arguments the making of an instance takes. -/
def classArity (cls : Nat) : Run Nat := do
  match (← get).findMethod? cls "init" with
  | none => return 0
  | some f => functionArity f

/-- A function object like another whose environment knows the instance under the name `this`. -/
def bindFunction (id : Nat) (self : Datum) : Run Datum := do
  let f ← functionOf id
  let env ← child f.closure
  onScopes (Scope.Action.define env "this" self (.kind .local) false)
  newFunction { f with closure := env, fields := [] }

/-- Defines parameters one after the other; a parameter without an argument is nothing. -/
def defineParameters (env : Nat) : List Node → List Datum → Run Unit
  | [], _ => return ()
  | p :: ps, args => do
    let name ← lexemeOf (← needField p "name")
    onScopes (Scope.Action.define env name (args.headD .none) (.kind .local) false)
    defineParameters env ps args.tail

/-- Gives arguments to the parameters of a function in a new environment. The body cannot be run in it. -/
def callFunction (id : Nat) (args : List Datum) : Run Datum := do
  let f ← functionOf id
  let env ← child f.closure
  defineParameters env (← parametersOf f) args
  wrongType

/-- Makes an instance of a class; a method `init` of the class is called on it. -/
def callClass (cls : Nat) (args : List Datum) : Run Datum := do
  let self ← newInstance cls
  match (← get).findMethod? cls "init" with
  | none => return self
  | some f =>
    match ← bindFunction f self with
    | .object _ _ bound => do
      let _ ← callFunction bound args
      return self
    | _ => wrongType

/-- A field of an instance, or else a method of its class bound to it. -/
def getOfInstance (id : Nat) (name : String) : Run Datum := do
  let m ← get
  let self := m.instances.getD id default
  match self.fields.lookup name with
  | some v => return v
  | none =>
    match m.findMethod? self.cls name with
    | some f => bindFunction f (instanceDatum id (m.classes.getD self.cls default).name)
    | none => throw (.objection (.undefinedProperty name))

def setOfInstance (id : Nat) (name : String) (v : Datum) : Run Unit :=
  modify fun m => { m with instances := m.instances.modify id fun self =>
    { self with fields := Builtin.setField name v self.fields } }

/-- The properties of function objects that are functions. -/
def functionMethods : List String := ["bind", "call", "arity"]

/-- The properties of environments that are functions, as far as they are modelled. -/
def environmentMethods : List String :=
  ["define", "assign", "get", "get_at", "assign_at", "child", "fork", "__contains__", "__getitem__", "__setitem__",
   "__delitem__"]

/-- A property of an object of the walker, if it is known to have it. -/
def objectProperty? (m : Machine) (self : Datum) (name : String) : Option Datum :=
  match self with
  | .object "Function" _ id =>
    let f := m.functions.getD id default
    match name with
    | "declaration" => some f.declaration.toDatum
    | "closure" => some (environmentDatum m f.closure)
    | "is_initializer" => some (.bool f.isInitializer)
    | name =>
      match f.fields.lookup name with
      | some v => some v
      | none => if functionMethods.contains name then some (.method self name) else none
  | .object "Class" _ id =>
    let c := m.classes.getD id default
    match name with
    | "name" => some (.str c.name)
    | "superclass" => some (c.superclass?.elim .none fun s => classDatum s (m.classes.getD s default).name)
    | "methods" =>
      some (.dict (c.methods.map fun (k, f) => (.str k, functionDatum f (m.functions.getD f default).name)))
    | name => if ["find_method", "call", "arity"].contains name then some (.method self name) else none
  | .object "Instance" _ id =>
    let i := m.instances.getD id default
    match name with
    | "klass" => some (classDatum i.cls (m.classes.getD i.cls default).name)
    | "fields" => some (.dict (i.fields.map fun (k, v) => (.str k, v)))
    | name => if ["get", "set"].contains name then some (.method self name) else none
  | .object "Interpreter" _ _ =>
    match name with
    | "globals" => some (environmentDatum m 0)
    | "environment" => some (environmentDatum m m.current)
    | _ => none
  | .object "Environment" _ id =>
    match name with
    | "enclosing" => some ((m.forest.environment id).enclosing.elim .none (environmentDatum m))
    | name => if environmentMethods.contains name then some (.method self name) else none
  | _ => none

/-- Whether an object is of a class with no other properties than those above, and those between underscores. -/
def isPlainObject : Datum → Bool
  | .object c _ _ => ["Function", "Class", "Instance"].contains c
  | _ => false

/-- A property of a value, if it has it. What cannot be told of it is left to the host. -/
def propertyOf? (d : Datum) (name : String) : Run (Option Datum) := do
  match objectProperty? (← get) d name with
  | some v => return some v
  | none =>
    if isPlainObject d && !name.startsWith "__" then return none
    else actOr (Builtin.Act.told? d name) (Host.get d name)

def methodOf? (d : Datum) (name : String) : Run (Option Datum) := do
  match ← propertyOf? d name with
  | some v => return if v.isCallable then some v else none
  | none => return none

def updateFunction (id : Nat) (g : FunctionObject → FunctionObject) : Run Unit :=
  modify fun m => { m with functions := m.functions.modify id g }

/-- Sets a property of a value. A function object takes any; to give the walker another current environment is a
detour. -/
def setPropertyOf (d : Datum) (name : String) (v : Datum) : Run Unit := do
  match d, name, v with
  | .object "Function" _ id, "closure", .object "Environment" _ env => updateFunction id ({ · with closure := env })
  | .object "Function" _ id, "is_initializer", .bool b => updateFunction id ({ · with isInitializer := b })
  | .object "Function" _ id, name, v =>
    if ["declaration", "closure", "is_initializer"].contains name || name.startsWith "__" then
      detour (Host.set d name v)
    else updateFunction id fun f => { f with fields := Builtin.setField name v f.fields }
  | .object "Interpreter" _ _, "environment", .object "Environment" _ env => detour (modify ({ · with current := env }))
  | d, name, v => actOr (do let _ ← Builtin.setProperty d (.str name) v) (Host.set d name v)

/-- The call of a function of an environment, for the arguments that it usually gets. -/
def environmentCall? (id : Nat) (operation : String) (args : List Datum) : Option (Run Datum) :=
  let silently (a : Scope.Action Unit) : Option (Run Datum) := some (onScopes do a; return .none)
  let adding (new : Forest → Nat × Forest) : Option (Run Datum) := some do
    let id ← modifyGet fun m => let (id, forest) := new m.forest; (id, { m with forest })
    return environmentDatum (← get) id
  match operation, args with
  | "define", [.str name, v] => silently (.define id name v (.kind .local) false)
  | "assign", [.str name, v] | "__setitem__", [.str name, v] => silently (.assign id name v false)
  | "assign", [.str name, v, .bool isNonlocal] => silently (.assign id name v isNonlocal)
  | "get", [.str name] | "__getitem__", [.str name] => some (onScopes (.lookup id name))
  | "get_at", [.int distance, .str name] => some (onScopes (.lookupAt id distance name))
  | "assign_at", [.int distance, .str name, v] => silently (.assignAt id distance name v)
  | "__contains__", [.str name] => some do return .bool ((← get).forest.contains id name)
  | "__delitem__", [.str name] => silently (.delete id name)
  | "child", [] => adding (·.add (some id) none)
  | "child", [.str name] => adding (·.add (some id) (some name))
  | "fork", [] => adding (·.fork id)
  | _, _ => none

/-- Where a function object is called through its own function `call`, its body is not run: the walker takes one
argument less than it is given, and all else has no way to run a body. -/
def refuseBody (f : FunctionObject) (runner : Datum) : Run Datum :=
  match runner with
  | .object "Interpreter" _ _ => do
    let _ ← needField f.declaration "body"
    wrongType
  | _ => fault (.plain .missingAttribute)

/-- Gives arguments to the parameters of a function object, by its own function `call`. -/
def callByMethod (id : Nat) (runner given : Datum) : Run Datum := do
  let f ← functionOf id
  let env ← child f.closure
  let parameters ← parametersOf f
  unless parameters.isEmpty do defineParameters env parameters (← act (Builtin.Act.items given))
  refuseBody f runner

mutual

/-- Whether a value is the walker or one of its environments, or holds one of these. -/
def reachesBehind : Datum → Bool
  | .object c _ _ => c == "Interpreter" || c == "Environment"
  | .list xs | .tuple xs | .set xs | .frozenset xs | .iterator _ xs => anyReachesBehind xs
  | .dict es => entryReachesBehind es
  | .record fs => fieldReachesBehind fs
  | .method d _ => reachesBehind d
  | _ => false

def anyReachesBehind : List Datum → Bool
  | [] => false
  | d :: ds => reachesBehind d || anyReachesBehind ds

def entryReachesBehind : List (Datum × Datum) → Bool
  | [] => false
  | (k, v) :: es => reachesBehind k || reachesBehind v || entryReachesBehind es

def fieldReachesBehind : List (String × Datum) → Bool
  | [] => false
  | (_, v) :: fs => reachesBehind v || fieldReachesBehind fs

end

/-- The variables of the walker where a call stands. -/
def frameOf (n : Node) (f : Datum) (args : List Datum) : Run (List (String × Datum)) := do
  let arguments ← act (Builtin.Act.make (.list args))
  return [("self", walkerDatum), ("expr", n.toDatum), ("callee", f), ("arguments", arguments)]

/-- Calls a routine. One that is handed the walker or an environment is left to the host, and so is all that is not
modelled. -/
def callRoutine (f : Datum) (args : List Datum) : Run Datum := do
  if (← args.mapM fun d => act (Builtin.Act.deep d)).any reachesBehind then detour (Host.call f args)
  else actOr (Builtin.callWithin [] Builtin.callDepth f args []) (Host.call f args)

/-- Calls a value, where a node stands for the call. The functions of function objects and environments are the
walker's own, and so is what routines tell of their caller and of the walker's objects. -/
def callValue (n : Node) (f : Datum) (args : List Datum) : Run Datum := do
  match f, args with
  | .method (.object "Function" _ id) "arity", [] => return .int (← functionArity id)
  | .method (.object "Function" _ id) "bind", [self] => bindFunction id self
  | .method (.object "Function" _ id) "call", [runner, given] => do
    match ← act (Builtin.Act.look runner) with
    | .record _ => detour (Host.call f args)
    | d => if d.isObject && !(d.eq walkerDatum) then detour (Host.call f args) else callByMethod id d given
  | .method (.object "Environment" _ id) operation, args =>
    detour ((environmentCall? id operation args).getD (Host.call f args))
  | .builtin "vars", [] | .builtin "locals", [] => do act (Builtin.localDict (← frameOf n f args))
  | .builtin "dir", [] => do act (Builtin.localNames ((← frameOf n f args).mergeSort (·.1 ≤ ·.1)))
  | .builtin "hasattr", [.object c t id, .str name] => do return .bool (← propertyOf? (.object c t id) name).isSome
  | .builtin "getattr", .object c t id :: .str name :: default => do
    match (← propertyOf? (.object c t id) name).or default.head? with
    | some v => return v
    | none => fault (.missingAttribute c name)
  | .builtin "setattr", [.object c t id, .str name, v] => do
    setPropertyOf (.object c t id) name v
    return .none
  | .method (.object "Function" t id) name, args =>
    if functionMethods.contains name then wrongType else callRoutine (.method (.object "Function" t id) name) args
  | f, args => callRoutine f args

end Scriptling.Walk
