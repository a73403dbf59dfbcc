import Scriptling.Datum.Text

/-!
# Scopes with flagged bindings

An environment binds names to variables and may be enclosed by another. A variable has a value, the kind of scope it
was defined with, and flags. Several environments can bind a name to one and the same variable, so variables are
numbered, and a forest holds all environments and variables.
-/

namespace Scriptling.Scope

inductive ScopeKind where
  | global
  | local
  | nonlocal
  | ofClass
  | ofInstance
  | free
  | cell
  deriving Repr, DecidableEq, Inhabited

namespace ScopeKind

def names : List (ScopeKind × String) :=
  [(.global, "GLOBAL"), (.local, "LOCAL"), (.nonlocal, "NONLOCAL"), (.ofClass, "CLASS"), (.ofInstance, "INSTANCE"),
   (.free, "FREE"), (.cell, "CELL")]

def name (k : ScopeKind) : String := (names.lookup k).getD ""

def ofName? (s : String) : Option ScopeKind := (names.find? (·.2 == s)).map (·.1)

end ScopeKind

/-- What a variable was defined with as its scope: a kind of scope, or a truth value that was given in its place. -/
inductive ScopeMark where
  | kind (k : ScopeKind)
  | flag (b : Bool)
  deriving Repr, DecidableEq, Inhabited

/-- A variable, which several environments may bind. -/
structure Variable where
  value : Datum
  scope : ScopeMark
  isConstant : Bool
  isCaptured : Bool
  isUsed : Bool
  deriving Inhabited

structure FunctionNote where
  name : String
  isGenerator : Datum
  isAsync : Datum
  isMethod : Datum
  isClassMethod : Datum
  isStaticMethod : Datum
  isProperty : Datum

structure ClassNote where
  name : String
  bases : Datum
  members : Datum
  /-- The order in which its ancestors are searched. -/
  order : Datum
  isFrozen : Datum

/-- An environment: what it binds, and the one around it. -/
structure Environment where
  name : String
  enclosing : Option Nat
  /-- Names with the numbers of their variables, in the order in which they were defined. -/
  bindings : List (String × Nat)
  functions : List (String × FunctionNote)
  classes : List (String × ClassNote)
  types : List (String × Datum)
  modules : List (String × Datum)
  deriving Inhabited

/-- All environments, and the variables that they bind. -/
structure Forest where
  environments : Array Environment
  slots : Array Variable
  deriving Inhabited

/-- Why an operation on an environment is refused. -/
inductive ScopeError where
  /-- A name that the scope has already, with the same kind of scope. -/
  | duplicate (name : String) (kind : ScopeKind)
  /-- A name that the scope has already, with the same truth value in place of a kind. -/
  | duplicateFlag
  | globalConstant
  | constant (name : String)
  /-- An assignment to an outer variable that is not there. -/
  | noNonlocal (name : String)
  | undefined (name : String)
  | notHere (name : String)
  /-- A name that is not bound at the given distance. -/
  | missing (name : String)
  | badDistance
  /-- A request with something that the operation does not take. -/
  | unsuitable
  | unknownRequest
  deriving Repr, DecidableEq

namespace ScopeError

def kind : ScopeError → FaultKind
  | duplicate .. | noNonlocal _ | undefined _ => .unknownName
  | duplicateFlag => .missingAttribute
  | globalConstant => .wrongValue
  | constant _ => .wrongType
  | notHere _ | missing _ => .missingKey
  | badDistance => .runtime
  | unsuitable => .wrongType
  | unknownRequest => .missingAttribute

def message? : ScopeError → Option String
  | duplicate name k => some s!"Duplicate variable '{name}' in {k.name} scope"
  | duplicateFlag => none
  | globalConstant => some "Global variables cannot be constant"
  | constant name => some s!"Cannot assign to constant '{name}'"
  | noNonlocal name => some s!"no binding for nonlocal '{name}' found"
  | undefined name => some s!"Name '{name}' is not defined"
  | notHere name => some s!"Name '{name}' is not defined in the current scope"
  | missing _ | unsuitable | unknownRequest => none
  | badDistance => some "Invalid environment distance"

end ScopeError

end Scriptling.Scope
