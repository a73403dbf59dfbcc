import Scriptling.Builtin.Names
import Scriptling.Scope.Forest
import Scriptling.Walk.Node

/-!
# The state of the tree walker

A machine holds the environments, the number of the current one, the function, class and instance objects that
were made, and the world. Environment 0 is the global one.

A program can get hold of the walker itself, since the routines of the language look at the frame that calls them.
What it does then is a detour: some detours are modelled, the others are left to a host, and the machine keeps a record
of all of them.
-/

namespace Scriptling.Walk

open Script (World)
open Scope (Forest ScopeError)

/-- A function, with the environment that it was made in. -/
structure FunctionObject where
  name : String
  declaration : Node
  closure : Nat
  isInitializer : Bool
  fields : List (String × Datum)
  deriving Inhabited

structure ClassObject where
  name : String
  superclass? : Option Nat
  methods : List (String × Nat)
  deriving Inhabited

structure InstanceObject where
  cls : Nat
  /-- Its fields, in the order in which they were set first. -/
  fields : List (String × Datum)
  deriving Inhabited

/-- The environments, and the number of the current one. -/
structure Surroundings where
  forest : Forest
  current : Nat
  deriving Inhabited

/-- The state of the walker. -/
structure Machine extends Surroundings where
  functions : Array FunctionObject
  classes : Array ClassObject
  instances : Array InstanceObject
  world : World
  /-- The surroundings before and after each detour that the program made behind the walker, oldest first. -/
  detours : List (Surroundings × Surroundings)
  deriving Inhabited

/-- What the walker itself objects to. -/
inductive Objection where
  | unsupportedStatement (cls : String)
  | unsupportedExpression (cls : String)
  | invalidTarget
  /-- An operator that is not known, as it is shown. -/
  | unknownOperator (shown : String)
  | notCallable
  | undefinedProperty (name : String)
  deriving Repr, DecidableEq

def Objection.message : Objection → String
  | unsupportedStatement c => s!"Unsupported statement: {c}"
  | unsupportedExpression c => s!"Unsupported expression: {c}"
  | invalidTarget => "Invalid assignment target"
  | unknownOperator op => s!"Unknown operator: {op}"
  | notCallable => "Can only call functions and classes."
  | undefinedProperty name => s!"Undefined property '{name}'."

/-- What a run can end with in place of a value. -/
inductive Signal where
  | failure (f : Builtin.Failure)
  | scope (e : ScopeError)
  | objection (o : Objection)
  | returned (v : Datum)
  | broken
  | continued
  | outOfFuel

abbrev Run (α : Type) : Type := ExceptT Signal (StateM Machine) α

namespace Run

def fault {α : Type} (f : Fault) : Run α := throw (.failure (.fault f))

/-- Fails for something of a type that is not taken. -/
def wrongType {α : Type} : Run α := fault (.plain .wrongType)

/-- Does what a routine does to the world. -/
def act {α : Type} (a : Builtin.Act α) : Run α := do
  let m ← get
  let (r, world) := a.run m.world
  set { m with world }
  match r with
  | .ok v => return v
  | .error e => throw (.failure e)

/-- Does something behind the walker, of which a record is kept. -/
def detour {α : Type} (r : Run α) : Run α := fun m =>
  let (outcome, m') := r m
  (outcome, { m' with detours := m.detours ++ [(m.toSurroundings, m'.toSurroundings)] })

/-- Does what a routine does. If that is not modelled, the detour is made instead, from the state before. -/
def actOr {α : Type} (a : Builtin.Act α) (other : Run α) : Run α := do
  let m ← get
  match a.run m.world with
  | (.error (.fault (.plain .unmodelled)), _) => detour other
  | (.error e, world) => do
    set { m with world }
    throw (.failure e)
  | (.ok v, world) => do
    set { m with world }
    return v

/-- Does something to the environments. -/
def onScopes {α : Type} (a : Scope.Action α) : Run α := do
  let m ← get
  let (r, forest) := a.run m.forest
  set { m with forest }
  match r with
  | .ok v => return v
  | .error e => throw (.scope e)

/-- Runs something in another environment; the environment from before is the current one again however it ends. -/
def inside {α : Type} (env : Nat) (r : Run α) : Run α := fun m =>
  let (outcome, m') := r { m with current := env }
  (outcome, { m' with current := m.current })

/-- Makes a new environment inside another. -/
def child (env : Nat) : Run Nat :=
  modifyGet fun m => let (id, forest) := m.forest.add (some env) none; (id, { m with forest })

def print (text : String) : Run Unit :=
  modify fun m => { m with world := { m.world with console := m.world.console.print text } }

end Run

/-- What a program finds behind the walker: what a call does that is not modelled here, and what the properties are of
objects that are not. Nothing is assumed of it; it may do anything to the machine. -/
class Host where
  call : Datum → List Datum → Run Datum
  get : Datum → String → Run (Option Datum)
  set : Datum → String → Datum → Run Unit

/-- A host that knows nothing. -/
@[reducible]
def Host.absent : Host where
  call _ _ := Run.fault (.plain .unmodelled)
  get _ _ := Run.fault (.plain .unmodelled)
  set _ _ _ := Run.fault (.plain .unmodelled)

namespace Machine

/-- Defines names in the global environment one after the other. -/
def defineAll (names : List (String × Datum)) : Scope.Action Unit :=
  names.forM fun (name, v) => Scope.Action.define 0 name v (.kind .local) false

/-- The environments of a machine in which only the given names are defined. A name must not come twice. -/
def forestOf (names : List (String × Datum)) : Except ScopeError Forest :=
  let (_, forest) := Forest.empty.add none none
  match (defineAll names).run forest with
  | (.ok _, forest) => .ok forest
  | (.error e, _) => .error e

/-- The first state: the global names are defined. -/
def start [Size.Room] (world : World) : Machine :=
  { forest := ((forestOf Builtin.globalNames).toOption).getD .empty
    current := 0
    functions := #[]
    classes := #[]
    instances := #[]
    world
    detours := [] }

/-- The names that a machine without any adjustment defines: the constants come a second time. -/
def doubledNames [Size.Room] : List (String × Datum) :=
  Builtin.globalNames ++ [("None", .none), ("True", .bool true), ("False", .bool false)]

/-- The global variables that are not among the given names. -/
def globalsBeyond (m : Machine) (names : List String) : List (String × Scope.Variable) :=
  (m.forest.environment 0).bindings.filterMap fun (name, v) =>
    if names.contains name then none else (m.forest.stored? v).map fun x => (name, x)

end Machine

end Scriptling.Walk
