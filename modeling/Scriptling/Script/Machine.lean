import Scriptling.Script.Native

/-!
# The state of a script run

A machine holds the scopes, which form a forest, the number of the current one, and the world. A run acts on a
machine and ends with a result or a signal; the signals tell faults, troubles, returns, breaks and lack of fuel apart.
-/

namespace Scriptling.Script

/-- A failure that a run reports by itself, as opposed to faults of primitive operations. -/
inductive Trouble where
  | undefinedVariable (name : String)
  | lengthOfMany (count : Nat)
  /-- A length asked of neither a string nor a list. -/
  | noLength
  | unknownStatement (kind : String)
  | unknownExpression (kind : String)
  | notAddable
  /-- Operands of this operator that are not both numbers. -/
  | notNumbers (operator : String)
  | unknownOperator (lexeme : String)
  /-- Something called that is no function, in the basic dialect. -/
  | notFunction
  /-- Something called that is no function, in the closing dialect. -/
  | notCallable
  /-- A function called with a wrong number of values. -/
  | arity (expected got : Nat)
  | native (native : Native) (refusal : Refusal)
  deriving Repr, DecidableEq

def Trouble.message : Trouble → String
  | undefinedVariable name => s!"Undefined variable '{name}'."
  | lengthOfMany n => s!"Expected 1 argument, got {n}."
  | noLength => "Can only get length of strings and lists."
  | unknownStatement kind => s!"Unknown statement type: {kind}"
  | unknownExpression kind => s!"Unknown expression type: {kind}"
  | notAddable => "Operands must be two numbers or two strings."
  | notNumbers op => s!"Operands must be numbers for '{op}'."
  | unknownOperator lexeme => s!"Unknown operator: {lexeme}"
  | notFunction => "Can only call functions and methods."
  | notCallable => "Can only call functions and classes."
  | arity expected got => s!"Expected {expected} arguments but got {got}."
  | native n r => s!"Error in {n.name}: " ++ r.message

/-- A scope: names with their values, in the order in which they were bound, and the scope around it. -/
structure Frame where
  bindings : List (String × Datum)
  parent : Option Nat
  deriving Inhabited

namespace Frame

def names (f : Frame) : List String := f.bindings.map (·.1)

def binds (f : Frame) (name : String) : Bool := f.names.contains name

/-- Binds a name; one that is bound already keeps its place. -/
def define (f : Frame) (name : String) (v : Datum) : Frame :=
  if f.binds name then
    { f with bindings := f.bindings.map fun b => if b.1 == name then (name, v) else b }
  else { f with bindings := f.bindings ++ [(name, v)] }

end Frame

abbrev Frames := Array Frame

namespace Frames

/-- The scope nearest to `id` that binds a name. A parent is older than its child, so `depth` scopes at most
are gone through. -/
def resolveWithin (frames : Frames) (name : String) : Nat → Nat → Option Nat
  | 0, _ => none
  | depth + 1, id =>
    match frames[id]? with
    | none => none
    | some f =>
      if f.binds name then some id
      else match f.parent with
        | none => none
        | some p => resolveWithin frames name depth p

def resolve (frames : Frames) (id : Nat) (name : String) : Option Nat := frames.resolveWithin name frames.size id

def define (frames : Frames) (id : Nat) (name : String) (v : Datum) : Frames := frames.modify id (·.define name v)

def get (frames : Frames) (id : Nat) (name : String) : Except Trouble Datum :=
  match frames.resolve id name with
  | none => .error (.undefinedVariable name)
  | some owner =>
    match frames[owner]?.bind (·.bindings.lookup name) with
    | some v => .ok v
    | none => .error (.undefinedVariable name)

def assign (frames : Frames) (id : Nat) (name : String) (v : Datum) : Except Trouble Frames :=
  match frames.resolve id name with
  | none => .error (.undefinedVariable name)
  | some owner => .ok (frames.define owner name v)

def add (frames : Frames) (parent : Option Nat) : Nat × Frames := (frames.size, frames.push ⟨[], parent⟩)

end Frames

/-! ## Machines -/

/-- A function that returns nothing, and leaves a loop when it is called for the given time. -/
structure Countdown where
  name : String
  /-- How many calls are left, with the one that leaves the loop. -/
  left : Nat
  deriving Repr, DecidableEq

/-- The state of a running script. -/
structure Machine where
  frames : Frames
  current : Nat
  countdowns : Array Countdown
  world : World
  deriving Inhabited

/-- What a run can end with in place of a value. -/
inductive Signal where
  | fault (f : Fault)
  | trouble (t : Trouble)
  | returned (v : Datum)
  | broken
  | outOfFuel

abbrev Run (α : Type) : Type := ExceptT Signal (StateM Machine) α

namespace Run

def lift {α : Type} : Except Fault α → Run α
  | .ok a => pure a
  | .error f => throw (.fault f)

def liftTrouble {α : Type} : Except Trouble α → Run α
  | .ok a => pure a
  | .error t => throw (.trouble t)

def print (s : String) : Run Unit :=
  modify fun m => { m with world := { m.world with console := m.world.console.print s } }

def textOf (v : Datum) : Run String := do lift ((← get).world.store.freeze v).display

def isTrue (v : Datum) : Run Bool := do
  let t ← lift (tagOf v)
  return isTruthy (.value t ((← get).world.store.freeze (← lift (payloadOf v))))

def lookup (name : String) : Run Datum := do
  let m ← get
  liftTrouble (m.frames.get m.current name)

def assign (name : String) (v : Datum) : Run Unit := do
  let owner? ← modifyGet fun m => (m.frames.resolve m.current name, m)
  match owner? with
  | some owner => modify fun m => { m with frames := m.frames.define owner name v }
  | none => throw (.trouble (.undefinedVariable name))

def define (name : String) (v : Datum) : Run Unit :=
  modify fun m => { m with frames := m.frames.define m.current name v }

/-- Runs in another scope, and comes back to the current one whatever happens. -/
def within {α : Type} (scope : Nat) (body : Run α) : Run α := fun m =>
  let back := m.current
  let (r, after) := body { m with current := scope }
  (r, { after with current := back })

def newFrame (parent : Option Nat) : Run Nat := fun m =>
  let id := m.frames.size
  (.ok id, { m with frames := (m.frames.add parent).2 })

/-- Lets a native function act on the world. What the user interrupts is not the function's failure. -/
def native [Size.Room] (n : Native) (args : List Datum) : Run Datum := do
  match n.arity with
  | some k => if args.length ≠ k then throw (.trouble (.arity k args.length))
  | none => pure ()
  let m ← get
  let (r, world) := n.act args m.world
  set { m with world }
  match r with
  | .ok v => return v
  | .error r =>
    if r = .fault (.plain .interrupted) then throw (.fault (.plain .interrupted))
    else throw (.trouble (.native n r))

end Run

end Scriptling.Script
