import Scriptling.Builtin.Basic

/-!
# Failure classes

The failures that a running program can raise: a class, the message it settles on, and the text that is shown.
Most classes make a message of their own when none is given; two show the place in front of it.
-/

namespace Scriptling.Report

open Builtin (Bound Signature defaulting orNothing required)

/-- The class of a failure. -/
inductive FailureClass where
  | general
  | runtime
  | unknownName
  | wrongType
  | wrongValue
  | zeroDivision
  | badIndex
  | missingKey
  | missingAttribute
  | exhausted
  | badImport
  | assertion
  | badSyntax
  deriving Repr, DecidableEq

namespace FailureClass

def titles : List (FailureClass × String) :=
  [(general, "InterpreterError"), (runtime, "RuntimeError"), (unknownName, "NameError"), (wrongType, "TypeError"),
   (wrongValue, "ValueError"), (zeroDivision, "ZeroDivisionError"), (badIndex, "IndexError"),
   (missingKey, "KeyError"), (missingAttribute, "AttributeError"), (exhausted, "StopIteration"),
   (badImport, "ImportError"), (assertion, "AssertionError"), (badSyntax, "SyntaxError")]

def title (c : FailureClass) : String := (titles.lookup c).getD ""

def ofTitle? (s : String) : Option FailureClass := (titles.find? (·.2 == s)).map (·.1)

/-- The names of a class and of those above it, nearest first. -/
def lineage (c : FailureClass) : List String :=
  (if c = general then [] else [c.title]) ++ [general.title, "Exception", "BaseException", "object"]

def signature (c : FailureClass) : Signature :=
  let worded (text : String) : Signature := .of [defaulting "message" (.str text)]
  match c with
  | general | wrongValue | exhausted => { more := true }
  | runtime => .of [required "message", orNothing "token", orNothing "context"]
  | unknownName | badImport => .of [required "name", orNothing "message"]
  | wrongType => .of [required "message", orNothing "expected", orNothing "got"]
  | zeroDivision => worded "Division by zero"
  | badIndex => worded "Index out of range"
  | assertion => worded "Assertion failed"
  | missingKey => .of [required "key", orNothing "message"]
  | missingAttribute => .of [required "obj", required "name", orNothing "message"]
  | badSyntax => .of [required "message", orNothing "line", orNothing "where"]

end FailureClass

/-- A failure with what it was made of. -/
structure Failure where
  cls : FailureClass
  message : Option Datum
  values : List Datum
  /-- What is known of the place: a token of a runtime failure, a line of a syntax failure. -/
  place : Datum := .none
  lexeme : Datum := .none

namespace Failure

/-- The message given, or one made from the rest if it is empty or missing. -/
def messageOr (given : Datum) (made : Except Fault String) : Except Fault Datum :=
  if given.truthy then .ok given else made.map .str

/-- The message that a class settles on; `none` for a class without one. -/
def settle (c : FailureClass) (b : Bound) : Except Fault (Option Datum) :=
  match c with
  | .general | .wrongValue | .exhausted => .ok none
  | .runtime | .zeroDivision | .badIndex | .assertion | .badSyntax => .ok (some (b.value 0))
  | .unknownName =>
    some <$> messageOr (b.value 1) ((b.value 0).display.map fun name => s!"Name '{name}' is not defined")
  | .badImport => some <$> messageOr (b.value 1) ((b.value 0).display.map fun name => s!"Cannot import '{name}'")
  | .missingKey => some <$> messageOr (b.value 1) ((b.value 0).display.map fun key => s!"Key '{key}' not found")
  | .missingAttribute =>
    let type := (b.value 0).typeName
    some <$> messageOr (b.value 2)
      ((b.value 1).display.map fun name => s!"'{type}' object has no attribute '{name}'")
  | .wrongType =>
    if (b.value 1).truthy && (b.value 2).truthy then do
      let expected ← (b.value 1).display
      let got ← (b.value 2).display
      return some (.str s!"Expected {expected}, got {got}")
    else .ok (some (b.value 0))

def make (c : FailureClass) (args : List Datum) (named : List (String × Datum)) : Except Fault Failure :=
  match c.signature.bind? args named with
  | none => .error (.plain .wrongType)
  | some b => do
    let message ← settle c b
    let values := match message with
      | some m => [m]
      | none => b.rest
    match c with
    | .runtime => return ⟨c, message, values, b.value 1, .none⟩
    | .badSyntax => return ⟨c, message, values, b.value 1, b.value 2⟩
    | _ => return { cls := c, message, values }

/-- The text of the values that a failure carries. -/
def valuesText : List Datum → Except Fault String
  | [] => .ok ""
  | [d] => d.display
  | ds => .ok (Datum.tuple ds).literal

def required (d : Datum) (name : String) : Except Fault Datum :=
  match d.property? name with
  | some v => .ok v
  | none => .error (.plain .missingAttribute)

def location (line lexeme : Datum) : Except Fault String := do
  let line := "line " ++ (← line.display)
  if lexeme.truthy then
    let lexeme ← lexeme.display
    return s!"{line} at '{lexeme}'"
  else return line

def text (f : Failure) : Except Fault String := do
  match f.cls with
  | .runtime =>
    let message ← (f.message.getD .none).display
    if f.place.truthy then
      let place ← location (← required f.place "line") (← required f.place "lexeme")
      return s!"[RuntimeError] {place}: {message}"
    else return s!"[RuntimeError] {message}"
  | .badSyntax =>
    let message ← (f.message.getD .none).display
    match f.place with
    | .none => return s!"[SyntaxError] {message}"
    | line =>
      let place ← location line f.lexeme
      return s!"[SyntaxError] {place}: {message}"
  | _ => valuesText f.values

/-- The last line of a trace: the full name of the class, and the text if there is one. -/
def trace (f : Failure) : String :=
  let name := "nocrush.core.interpreter.error." ++ f.cls.title
  match f.text with
  | .ok text => if text.isEmpty then name ++ "\n" else s!"{name}: {text}\n"
  | .error _ => name ++ ": <exception str() failed>\n"

end Failure

end Scriptling.Report
