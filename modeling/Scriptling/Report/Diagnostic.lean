import Scriptling.Datum.Collection
import Scriptling.Datum.Excerpt
import Scriptling.Report.Code

/-!
# Diagnostics

A diagnostic has a code, a message, a level, hints and perhaps a location. It is shown with an excerpt of the
source when both the location and the source are known. A collection keeps errors, warnings and notes apart
and gives them in that order.
-/

namespace Scriptling.Report

variable [Size.Room]

structure Location where
  file : Datum := .none
  line : Datum := .int 1
  column : Datum := .int 1
  endLine : Datum := .none
  endColumn : Datum := .none

def Location.record (l : Location) : Datum :=
  .dict [(.str "file", l.file), (.str "line", l.line), (.str "column", l.column),
    (.str "end_line", l.endLine), (.str "end_column", l.endColumn)]

inductive Level where
  | error
  | warning
  | info
  | hint
  deriving Repr, DecidableEq

def Level.name : Level → String
  | error => "error"
  | warning => "warning"
  | info => "info"
  | hint => "hint"

def Level.standardCode : Level → Int
  | error => Code.internalError.number
  | _ => 0

/-- A diagnostic. Its parts are what it was given, which need not be of the usual types. -/
structure Diagnostic where
  code : Datum
  message : Datum
  location : Option Location := none
  level : Datum := .str Level.error.name
  hints : Datum := .list []
  /-- A list of records of what else has to do with it, as a rule. -/
  related : Datum := .list []

namespace Diagnostic

def record (d : Diagnostic) : Datum :=
  let location := match d.location with
    | some l => l.record
    | none => .none
  .dict [(.str "code", d.code), (.str "message", d.message), (.str "level", d.level),
    (.str "location", location), (.str "hints", d.hints), (.str "related", d.related)]

/-- What a diagnostic says, with an excerpt if there is a source to take it from. -/
def text (d : Diagnostic) (source : Datum) : Except Fault Datum :=
  match d.location with
  | some l =>
    if source.truthy then (Datum.excerpt d.message l.line l.column l.file source (.int 2)).map .str
    else .ok d.message
  | none => .ok d.message

/-- The hint that tells what was expected: the only one, or all of them. -/
def expectation (expected : Datum) : Except Fault (List Datum) := do
  if !expected.truthy then return []
  if (← expected.length) = 1 then
    return [.str ("Expected: " ++ (← (← expected.getItem (.int 0)).display))]
  let words ← (← expected.items).mapM fun
    | .str s => .ok s
    | _ => .error (Fault.plain .wrongType)
  return [.str ("Expected one of: " ++ ", ".intercalate words)]

/-- A diagnostic about the grammar, with what was found and what was expected as hints. -/
def ofSyntax (message code : Datum) (location : Option Location) (found expected : Datum) :
    Except Fault Diagnostic := do
  let found ← if found.truthy then found.display.map fun t => [Datum.str ("Found token: " ++ t)] else .ok []
  let expected ← expectation expected
  let message := .str ("Syntax Error: " ++ (← message.display))
  return { code, message, location, hints := .list (found ++ expected) }

/-- A diagnostic about types, with the expected and the actual one as hints. -/
def ofType (message code : Datum) (location : Option Location) (expected actual : Datum) : Except Fault Diagnostic := do
  let line (label : String) : Datum → Except Fault (List Datum)
    | .none => .ok []
    | d => d.display.map fun t => [.str (label ++ " type: " ++ t)]
  let hints := (← line "Expected" expected) ++ (← line "Found" actual)
  return { code, message := .str ("Type Error: " ++ (← message.display)), location, hints := .list hints }

/-- A diagnostic about running, with the values of the context as hints. -/
def ofRunning (message code : Datum) (location : Option Location) (context : Datum) : Except Fault Diagnostic := do
  let entries ← match context with
    | .dict entries => pure entries
    | d => if d.truthy then throw (Fault.missingAttribute d.typeName "items") else pure []
  let hints ← entries.mapM fun (key, value) => do
    return Datum.str ((← key.display) ++ ": " ++ (← value.display))
  return { code, message := .str ("Runtime Error: " ++ (← message.display)), location, hints := .list hints }

end Diagnostic

/-- The diagnostics of a program, by their levels. -/
structure Digest where
  errors : List Diagnostic := []
  warnings : List Diagnostic := []
  infos : List Diagnostic := []

namespace Digest

def addError (g : Digest) (d : Diagnostic) : Digest :=
  { g with errors := g.errors ++ [{ d with level := .str Level.error.name }] }

def addWarning (g : Digest) (d : Diagnostic) : Digest :=
  { g with warnings := g.warnings ++ [{ d with level := .str Level.warning.name }] }

def addInfo (g : Digest) (d : Diagnostic) : Digest :=
  { g with infos := g.infos ++ [{ d with level := .str Level.info.name }] }

def hasErrors (g : Digest) : Bool := !g.errors.isEmpty

def hasWarnings (g : Digest) : Bool := !g.warnings.isEmpty

def messages (g : Digest) : List Diagnostic := g.errors ++ g.warnings ++ g.infos

def texts (g : Digest) (source : Datum) : Except Fault (List Datum) := g.messages.mapM fun d => d.text source

end Digest

end Scriptling.Report
