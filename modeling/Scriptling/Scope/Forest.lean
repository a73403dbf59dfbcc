import Scriptling.Scope.Basic

/-!
# Operations on scopes

Defining, assigning, looking up and deleting names, by name along the chain of enclosing environments or at a given
distance. An operation acts on the forest and gives a result or an error; the forest afterwards is there in either
case.
-/

namespace Scriptling.Scope

abbrev Action (α : Type) : Type := ExceptT ScopeError (StateM Forest) α

/-- Sets the value of a key in a list of pairs; a key that is there keeps its place. -/
def setKey {α : Type} (key : String) (v : α) : List (String × α) → List (String × α)
  | [] => [(key, v)]
  | (k, old) :: rest => if k = key then (k, v) :: rest else (k, old) :: setKey key v rest

namespace Forest

def empty : Forest := ⟨#[], #[]⟩

/-- The environment of a number; one without bindings if there is none. -/
def environment (f : Forest) (id : Nat) : Environment := f.environments.getD id default

/-- The variable that an environment itself binds to a name. -/
def bound? (f : Forest) (id : Nat) (name : String) : Option Nat := (f.environment id).bindings.lookup name

def stored? (f : Forest) (v : Nat) : Option Variable := f.slots[v]?

/-- The environments from one outwards, at most `depth` of them. -/
def chainWithin (f : Forest) : Nat → Nat → List Nat
  | 0, _ => []
  | depth + 1, id =>
    id :: match (f.environment id).enclosing with
      | none => []
      | some p => chainWithin f depth p

/-- The environments from one outwards. An environment is younger than the one around it, so none occurs twice. -/
def chain (f : Forest) (id : Nat) : List Nat := f.chainWithin (f.environments.size + 1) id

/-- The nearest binding of a name: the environment that has it and its variable. -/
def find? (f : Forest) (id : Nat) (name : String) : Option (Nat × Nat) :=
  (f.chain id).findSome? fun e => (f.bound? e name).map fun v => (e, v)

/-- Whether a name is bound in an environment or around it. -/
def contains (f : Forest) (id : Nat) (name : String) : Bool := (f.find? id name).isSome

def ancestor? (f : Forest) (id : Nat) : Nat → Option Nat
  | 0 => some id
  | n + 1 =>
    match (f.environment id).enclosing with
    | none => none
    | some p => ancestor? f p n

def updateEnvironment (f : Forest) (id : Nat) (g : Environment → Environment) : Forest :=
  { f with environments := f.environments.modify id g }

def updateVariable (f : Forest) (v : Nat) (g : Variable → Variable) : Forest := { f with slots := f.slots.modify v g }

/-- What stands for the name of an environment without one. -/
def unnamed : String := "env_<id>"

def add (f : Forest) (enclosing : Option Nat) (name : Option String) : Nat × Forest :=
  let name := match name with
    | none | some "" => unnamed
    | some s => s
  (f.environments.size, { f with environments := f.environments.push ⟨name, enclosing, [], [], [], [], []⟩ })

/-- A new environment with the bindings of another: both bind each name to the same variable. -/
def fork (f : Forest) (id : Nat) : Nat × Forest :=
  let e := f.environment id
  (f.environments.size, { f with environments := f.environments.push { e with name := e.name ++ "_fork" } })

/-- What is found along the chain of environments. -/
def findIn? {α : Type} (f : Forest) (id : Nat) (table : Environment → List (String × α)) (name : String) : Option α :=
  (f.chain id).findSome? fun e => (table (f.environment e)).lookup name

def display (f : Forest) (id : Nat) : String := "<Environment " ++ (f.environment id).name ++ ">"

def namesText (names : List String) : String := (Datum.list (names.map Datum.str)).literal

def describe (f : Forest) (id : Nat) : String :=
  let e := f.environment id
  let outer := match e.enclosing with
    | none => "None"
    | some p => (f.environment p).name
  "Environment(name='" ++ e.name ++ "', enclosing=" ++ outer ++
    ", values=" ++ namesText (e.bindings.map (·.1)) ++ ", functions=" ++ namesText (e.functions.map (·.1)) ++
    ", classes=" ++ namesText (e.classes.map (·.1)) ++ ")"

end Forest

namespace Action

/-- Refuses to define a name that the environment has already with the same scope, unless it is captured. -/
def checkNew (f : Forest) (id : Nat) (name : String) (scope : ScopeMark) : Except ScopeError Unit :=
  match (f.bound? id name).bind f.stored? with
  | none => .ok ()
  | some v =>
    if v.scope = scope ∧ ¬ v.isCaptured then
      match scope with
      | .kind k => .error (.duplicate name k)
      | .flag _ => .error .duplicateFlag
    else .ok ()

def define (id : Nat) (name : String) (value : Datum) (scope : ScopeMark) (isConstant : Bool) : Action Unit := do
  let f ← get
  liftExcept (checkNew f id name scope)
  if scope = .kind .global ∧ isConstant then throw .globalConstant
  set ({ f with slots := f.slots.push ⟨value, scope, isConstant, false, false⟩ }.updateEnvironment id
    fun e => { e with bindings := setKey name f.slots.size e.bindings })
where
  liftExcept : Except ScopeError Unit → Action Unit
    | .ok () => pure ()
    | .error e => throw e

/-- Assigns to the nearest variable of a name. A name that is bound nowhere is defined in the environment itself, as
a global one, unless the assignment asks for an outer variable. -/
def assign (id : Nat) (name : String) (value : Datum) (isNonlocal : Bool) : Action Unit := do
  let f ← get
  match f.find? id name with
  | none =>
    if isNonlocal then throw (.noNonlocal name)
    define id name value (.kind .global) false
  | some (_, v) =>
    if (f.stored? v).any (·.isConstant) then throw (.constant name)
    set (f.updateVariable v fun x => { x with value := value, isUsed := true })

/-- The value of the nearest variable of a name, which is then used. -/
def lookup (id : Nat) (name : String) : Action Datum := do
  let f ← get
  match (f.find? id name).bind fun (_, v) => (f.stored? v).map fun x => (v, x) with
  | none => throw (.undefined name)
  | some (v, x) =>
    set (f.updateVariable v fun x => { x with isUsed := true })
    return x.value

/-- The variable that the environment at a distance binds to a name. A negative distance is none. -/
def variableAt (id : Nat) (distance : Int) (name : String) : Action Nat := do
  let f ← get
  match f.ancestor? id distance.toNat with
  | none => throw .badDistance
  | some e =>
    match f.bound? e name with
    | none => throw (.missing name)
    | some v => return v

def lookupAt (id : Nat) (distance : Int) (name : String) : Action Datum := do
  let v ← variableAt id distance name
  return (((← get).stored? v).map (·.value)).getD .none

/-- Assigns to a name at a distance, constant or not. -/
def assignAt (id : Nat) (distance : Int) (name : String) (value : Datum) : Action Unit := do
  let v ← variableAt id distance name
  modify fun f => f.updateVariable v fun x => { x with value := value }

/-- Says whether the variable that an environment itself binds to a name is captured. -/
def capture (id : Nat) (name : String) (isCaptured : Bool) : Action Unit := do
  match (← get).bound? id name with
  | none => throw (.missing name)
  | some v => modify fun f => f.updateVariable v fun x => { x with isCaptured := isCaptured }

def delete (id : Nat) (name : String) : Action Unit := do
  match (← get).bound? id name with
  | none => throw (.notHere name)
  | some _ =>
    modify fun f => f.updateEnvironment id fun e => { e with bindings := e.bindings.filter (·.1 ≠ name) }

def ancestor (id : Nat) (distance : Int) : Action Nat := do
  match (← get).ancestor? id distance.toNat with
  | none => throw .badDistance
  | some e => return e

end Action

end Scriptling.Scope
