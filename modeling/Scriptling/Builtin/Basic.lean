import Scriptling.Datum.Property
import Scriptling.Datum.Convert
import Scriptling.Script.World

/-!
# Routines

A routine is a function that comes with the workbench: its parameters, and what it does with the values that
were given for them. It acts on a world, since it may print, read input, or change a shared collection.
Values are taken as they stand, with shared collections as cells.
-/

namespace Scriptling.Builtin

open Script (World)

/-- Why a routine of the library turns its arguments down, in the library's own words. -/
inductive Complaint where
  | noLength (type : String)
  | keyNotFound (key : String)
  | indexOutOfRange
  | notSubscriptable
  | noItemAssignment
  | notCallable (type : String)
  | typeMismatch (name expected found : String)
  | conversionFailed (name target reason : String)
  | noConversion (source target : String)
  /-- A default beside several values, of which one will always be there. -/
  | surplusDefault (routine : String)
  deriving Repr, DecidableEq

namespace Complaint

def kind : Complaint → FaultKind
  | keyNotFound _ => .missingKey
  | indexOutOfRange => .badIndex
  | conversionFailed .. | noConversion .. => .wrongValue
  | noLength _ | notSubscriptable | noItemAssignment | notCallable _ | typeMismatch .. | surplusDefault _ =>
    .wrongType

def message : Complaint → String
  | noLength t => s!"Object of type '{t}' has no len()"
  | keyNotFound k => s!"Key '{k}' not found"
  | indexOutOfRange => "Index out of range"
  | notSubscriptable => "Object is not subscriptable"
  | noItemAssignment => "Object does not support item assignment"
  | notCallable t => s!"'{t}' object is not callable"
  | typeMismatch name expected found => s!"{name} must be {expected}, got {found}"
  | conversionFailed name target reason => s!"Failed to convert {name} to {target}: {reason}"
  | noConversion source target => s!"Cannot convert {source} to {target}"
  | surplusDefault routine =>
    s!"Cannot specify a default for {routine}() with multiple positional arguments"

end Complaint

/-- Why a routine fails: by a rule of the language, or in the library's own words. -/
inductive Failure where
  | fault (f : Fault)
  | complaint (c : Complaint)
  deriving Repr, DecidableEq

/-- What a routine does: it changes the world and gives a value, or fails. -/
abbrev Act (α : Type) : Type := ExceptT Failure (StateM World) α

namespace Act

def fail {α : Type} (f : Fault) : Act α := throw (.fault f)

def failPlain {α : Type} (k : FaultKind) : Act α := fail (.plain k)

/-- Fails where what a routine does is not modelled. -/
def beyond {α : Type} : Act α := failPlain .unmodelled

/-- Fails for an argument of a type that is not taken. -/
def wrongType {α : Type} : Act α := failPlain .wrongType

/-- Fails for an argument with a value that is not taken. -/
def wrongValue {α : Type} : Act α := failPlain .wrongValue

def lift {α : Type} (r : Except Fault α) : Act α :=
  match r with
  | .ok a => pure a
  | .error f => fail f

def orFail {α : Type} (k : FaultKind) (r : Option α) : Act α :=
  match r with
  | some a => pure a
  | none => failPlain k

/-- A value with its own cell looked up; the cells inside it stay. -/
def look (d : Datum) : Act Datum := return (← get).store.contents d

/-- A value with all its cells replaced by what they hold. -/
def deep (d : Datum) : Act Datum := return (← get).store.freeze d

def make (d : Datum) : Act Datum := modifyGet fun w => let (c, store) := w.store.alloc d; (c, { w with store })

/-- Puts a value into a cell if it is a collection that may change. -/
def keep (d : Datum) : Act Datum :=
  match d with
  | .list _ | .set _ | .dict _ | .byteArray _ | .iterator .. | .record _ => make d
  | d => pure d

/-- Changes what a cell holds; anything else cannot change. -/
def update (d new : Datum) : Act Unit :=
  match d with
  | .cell id => modify fun w => { w with store := w.store.setIfInBounds id new }
  | _ => pure ()

def items [Size.Room] (d : Datum) : Act (List Datum) := do lift (← look d).items

/-- A whole number; anything else is of the wrong type. -/
def whole (d : Datum) : Act Int := orFail .wrongType d.int?

def display (d : Datum) : Act String := do lift (← deep d).display

def typeName (d : Datum) : Act String := return (← look d).typeName

/-- What a property of a value holds. A function of the value keeps the cell it was taken from. -/
def property? (d : Datum) (name : String) : Act (Option Datum) := do
  match (← look d).property? name with
  | some (.method _ name) => return some (.method d name)
  | some v => return some (← keep v)
  | none => return none

/-- What a property of a value holds, where that can be told. -/
def told? (d : Datum) (name : String) : Act (Option Datum) := do
  if (← look d).isUntold name then beyond else property? d name

end Act

/-- Whether a parameter has to be given. -/
inductive Demand where
  | required
  /-- Nothing need be given, and the routine sees that. -/
  | optional
  /-- Nothing need be given; the default stands for it. -/
  | default (d : Datum)

structure Parameter where
  name : String
  demand : Demand

def required (name : String) : Parameter := ⟨name, .required⟩

def optional (name : String) : Parameter := ⟨name, .optional⟩

def defaulting (name : String) (d : Datum) : Parameter := ⟨name, .default d⟩

def orNothing (name : String) : Parameter := defaulting name .none

/-- What arguments a routine takes. -/
structure Signature where
  /-- The parameters that are given in order; those after the first `unnamed` may be given by name too. -/
  positional : List Parameter := []
  unnamed : Nat := 0
  more : Bool := false
  named : List Parameter := []
  moreNames : Bool := false

/-- The arguments of a call, given out to the parameters. -/
structure Bound where
  /-- The values of the positional parameters and then of those given by name only. -/
  values : List (Option Datum)
  rest : List Datum
  extra : List (String × Datum)

namespace Bound

/-- The value of the parameter at a place; a missing one counts as nothing. -/
def value (b : Bound) (i : Nat) : Datum := ((b.values[i]?).getD none).getD .none

/-- The value of the parameter at a place, if one was given. -/
def given? (b : Bound) (i : Nat) : Option Datum := (b.values[i]?).getD none

end Bound

namespace Signature

def of (parameters : List Parameter) : Signature := { positional := parameters }

/-- Parameters that are never given by name. -/
def inOrder (parameters : List Parameter) : Signature := { positional := parameters, unnamed := parameters.length }

/-- Parameters that all have to be given. -/
def exactly (names : List String) : Signature := .of (names.map required)

def arity (s : Signature) : Nat := s.positional.length

/-- The value of a parameter after all arguments have been given out. -/
def settle (p : Parameter) (given : Option Datum) : Option (Option Datum) :=
  match given, p.demand with
  | some v, _ => some (some v)
  | none, .required => none
  | none, .optional => some none
  | none, .default d => some (some d)

/-- Gives arguments to parameters. It fails if a value is missing, is one too many, or is given twice. -/
def bind? (s : Signature) (args : List Datum) (named : List (String × Datum)) : Option Bound := do
  let count := s.positional.length
  if args.length > count && !s.more then none
  let byName (i : Nat) (p : Parameter) : Option Datum := if i < s.unnamed then none else named.lookup p.name
  let inOrder ← (s.positional.zipIdx).mapM fun (p, i) =>
    match args[i]?, byName i p with
    | some _, some _ => none
    | some v, none => some (some v)
    | none, v => settle p v
  let onlyNamed ← s.named.mapM fun p => settle p (named.lookup p.name)
  let known := (s.positional.drop s.unnamed ++ s.named).map (·.name)
  let extra := named.filter fun (k, _) => !known.contains k
  if !extra.isEmpty && !s.moreNames then none
  return ⟨inOrder ++ onlyNamed, args.drop count, extra⟩

end Signature

abbrev Apply : Type := Datum → List Datum → Act Datum

/-- A routine: its parameters and what it does. It may call functions that it was given. -/
structure Routine where
  signature : Signature
  run : Apply → Bound → Act Datum

namespace Routine

/-- A routine that takes the value of its first parameter. -/
def unary (s : Signature) (f : Datum → Act Datum) : Routine := ⟨s, fun _ b => f (b.value 0)⟩

def binary (s : Signature) (f : Datum → Datum → Act Datum) : Routine := ⟨s, fun _ b => f (b.value 0) (b.value 1)⟩

def ternary (s : Signature) (f : Datum → Datum → Datum → Act Datum) : Routine :=
  ⟨s, fun _ b => f (b.value 0) (b.value 1) (b.value 2)⟩

end Routine

/-- Does something unless an argument from the `n`th on was given, which is not modelled. -/
def Bound.upTo (b : Bound) (n : Nat) (a : Act Datum) : Act Datum :=
  if (b.values.drop n).any Option.isSome then Act.beyond else a

abbrev Library : Type := List (String × Routine)

/-- Calls a routine with arguments in order and by name. -/
def Routine.call (r : Routine) (apply : Apply) (args : List Datum) (named : List (String × Datum)) : Act Datum :=
  match r.signature.bind? args named with
  | some b => r.run apply b
  | none => Act.wrongType

end Scriptling.Builtin
