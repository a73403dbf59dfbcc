import Scriptling.Datum.Argument
import Scriptling.Report.Book
import Scriptling.Report.Diagnostic

/-!
# Requests to the report books

The operations of a report book and of a digest of diagnostics under the names by which they are asked for, with
values for what is given.
-/

namespace Scriptling.Report

/-! ## The book of a run -/

/-- A place as it is given: a line and what stands there. -/
def Mark.ofDatum? : Datum → Option Mark
  | .list [line, lexeme] => some ⟨line, lexeme⟩
  | _ => none

/-- A failure that is made by the name of its class. -/
def Failure.ofTitle (title : String) (args : List Datum) (named : List (String × Datum)) : Except Fault Failure :=
  match FailureClass.ofTitle? title with
  | some c => Failure.make c args named
  | none => .error (.plain .missingAttribute)

namespace Book

/-- Takes a request, and gives a value besides the reply. -/
def request (b : Book) (name : String) (args : List Datum) : Datum × Reply :=
  let arg (i : Nat) : Datum := args.getD i .none
  let mark (i : Nat) : Mark := (Mark.ofDatum? (arg i)).getD ⟨.none, .none⟩
  match name with
  | "error" => (.none, b.error (arg 0) (arg 1) (arg 2))
  | "syntax_error" => (.none, b.syntaxError (mark 0) (arg 1))
  | "type_error" => (.none, b.typeError (mark 0) (arg 1))
  | "runtime_error" => (.none, b.runtimeError (arg 0) (Mark.ofDatum? (arg 1)))
  | "has_errors" => (.bool b.hasErrors, ⟨none, none, b⟩)
  | "traceback" =>
    match Failure.ofTitle (arg 0).asText args.tail [] with
    | .ok f => (.str f.trace, ⟨none, none, b⟩)
    | .error e => (.none, ⟨none, some e, b⟩)
  | _ => (.none, ⟨none, none, b.clear⟩)

end Book

/-! ## Diagnostics -/

def Location.parts : List String := ["file", "line", "column", "end_line", "end_column"]

/-- A location by its parts, unless nothing is given for it. -/
def Location.ofDatum? : Datum → Option Location
  | .none => none
  | d =>
    let part (word : String) (usual : Datum) : Datum := (d.option? word).getD usual
    some ⟨part "file" .none, part "line" (.int 1), part "column" (.int 1), part "end_line" .none,
      part "end_column" .none⟩

/-- A diagnostic by its parts; what is not given is as usual at a level, and so are hints that count as none. -/
def Diagnostic.ofDatum (level : Level) (d : Datum) : Diagnostic :=
  let listed (word : String) : Datum :=
    let given := d.optionOrNone word
    if given.truthy then given else .list []
  { code := (d.option? "code").getD (.int level.standardCode)
    message := d.optionOrNone "message"
    location := Location.ofDatum? (d.optionOrNone "location")
    hints := listed "hints"
    related := listed "related" }

/-- A diagnostic by all its parts, as they are given; nothing stands for no hints. -/
def Diagnostic.ofParts (code : Datum) (d : Datum) : Diagnostic :=
  let listed (word : String) : Datum := match d.optionOrNone word with
    | .none => .list []
    | given => given
  { code
    message := d.optionOrNone "message"
    location := Location.ofDatum? (d.optionOrNone "location")
    level := (d.option? "level").getD (.str Level.error.name)
    hints := listed "hints"
    related := listed "related" }

/-- A diagnostic as a value: its record and its text. -/
def Diagnostic.shown [Size.Room] (d : Diagnostic) (source : Datum) : Except Fault Datum := do
  return .list [d.record, ← d.text source]

namespace Digest

def messageRequests : List String :=
  Text.words "add_error add_warning add_info error create_syntax_error create_type_error create_runtime_error"

/-- What can be given with a request; nothing is said of a request that takes what it needs. -/
def parts? : String → Option (List String)
  | "add_error" | "add_warning" | "add_info" => some (Text.words "message code location hints related")
  | "error" => some (Text.words "message code location level hints related source")
  | "create_syntax_error" => some (Text.words "message code location token_type expected source")
  | "create_type_error" => some (Text.words "message code location expected actual source")
  | "create_runtime_error" => some (Text.words "message code location context source")
  | "location" => some Location.parts
  | _ => none

/-- Whether something is given that a request or a location does not have. -/
def hasSurplus (name : String) (given : Datum) : Bool :=
  (parts? name).any given.hasOther || (given.optionOrNone "location").hasOther Location.parts

def ask [Size.Room] (g : Digest) (name : String) (given : Datum) : Except Fault Datum :=
  let part (word : String) : Datum := given.optionOrNone word
  let source := part "source"
  let codeOr (c : Code) : Datum := (given.option? "code").getD (.int c.number)
  let message := part "message"
  let location := Location.ofDatum? (part "location")
  match name with
  | "has_errors" => .ok (.bool g.hasErrors)
  | "has_warnings" => .ok (.bool g.hasWarnings)
  | "messages" => .ok (.list (g.messages.map Diagnostic.record))
  | "format_all" => (g.texts source).map .list
  | "location" => .ok (((Location.ofDatum? given).map Location.record).getD .none)
  | "error" =>
    match given.option? "code" with
    | some code => (Diagnostic.ofParts code given).shown source
    | none => .error (.plain .wrongType)
  | "create_syntax_error" => do
    let d ← Diagnostic.ofSyntax message (codeOr .unexpectedToken) location (part "token_type") (part "expected")
    d.shown source
  | "create_type_error" => do
    (← Diagnostic.ofType message (codeOr .typeMismatch) location (part "expected") (part "actual")).shown source
  | "create_runtime_error" => do
    (← Diagnostic.ofRunning message (codeOr .internalError) location (part "context")).shown source
  | _ =>
    match Code.ofName? (part "name").asText with
    | some c => .ok (.int c.number)
    | none => .error (.plain .missingAttribute)

def request [Size.Room] (g : Digest) (name : String) (given : Datum) : Except Fault Datum × Digest :=
  if hasSurplus name given || messageRequests.contains name && (given.option? "message").isNone then
    (.error (.plain .wrongType), g)
  else match name with
  | "add_error" => (.ok .none, g.addError (.ofDatum .error given))
  | "add_warning" => (.ok .none, g.addWarning (.ofDatum .warning given))
  | "add_info" => (.ok .none, g.addInfo (.ofDatum .info given))
  | "clear" => (.ok .none, {})
  | _ => (g.ask name given, g)

end Digest

end Scriptling.Report
