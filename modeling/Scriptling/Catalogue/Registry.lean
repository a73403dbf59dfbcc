import Scriptling.Datum.PropertyTable

/-!
# The register of workbench classes

Which of the workbench's classes defines a method. A method that a class has from outside the workbench belongs
to no class of it.
-/

namespace Scriptling.Catalogue

open Datum (special)
open Text (words)

/-- What a class is built on. -/
inductive Ground where
  | object
  | failure
  | enumeration
  | other (name : String)
  deriving Repr, DecidableEq

/-- A class of the workbench with the methods that it defines. -/
structure Entry where
  name : String
  ground : Ground
  methods : List String
  deriving Repr, DecidableEq

/-- The methods of a class that is made of its fields. -/
def fieldMethods : List String := special "init repr eq"

def commonMethods : List String := Datum.commonNames ++ special "dict module weakref"

def failureMethods : List String :=
  special "cause context setstate suppress_context traceback" ++ words "add_note args with_traceback"

def enumerationMethods : List String := "_generate_next_value_" :: special "dir format hash init new reduce_ex repr str"

def registry : List (String × List Entry) :=
  let token : Entry := ⟨"Token", .object, ["__init__", "__str__"]⟩
  let tokenType : Entry := ⟨"TokenType", .enumeration, []⟩
  let general : Ground := .other "InterpreterError"
  let made (title : String) : Entry := ⟨title, general, ["__init__"]⟩
  [("parser", [
    token, tokenType,
    ⟨"ParseError", .failure, []⟩,
    ⟨"Parser", .object,
      words "__init__ parse program declaration function_declaration struct_declaration struct_field parse_type" ++
      words "var_declaration statement if_statement loop_statement return_statement block_statement" ++
      words "expression_statement expression assignment or_ and_ equality comparison term factor unary call" ++
      words "finish_call primary match check advance is_at_end peek previous consume error synchronize"⟩]),
  ("lexer", [
    token, tokenType,
    ⟨"Scanner", .object,
      words "__init__ scan_tokens scan_token identifier number string match peek peek_next is_at_end advance" ++
      words "add_token"⟩]),
  ("pkg_interp", [
    ⟨"ValueType", .enumeration, []⟩,
    ⟨"Value", .object, "__str__" :: "is_truthy" :: fieldMethods⟩,
    ⟨"Environment", .object, words "__init__ define get assign"⟩,
    ⟨"ReturnException", .failure, ["__init__"]⟩,
    ⟨"BreakException", .failure, []⟩,
    ⟨"Interpreter", .object,
      words "__init__ _init_native_functions _print _len _input interpret _execute _execute_block _evaluate" ++
      words "_is_truthy _stringify"⟩]),
  ("core_lexer", [
    ⟨"Token", .object, "__str__" :: "__repr__" :: fieldMethods⟩, tokenType,
    ⟨"LexerError", .failure, []⟩,
    ⟨"LexerSyntaxError", .failure, ["__init__", "__str__"]⟩,
    ⟨"LexerWarning", .failure, []⟩,
    ⟨"IndentationWarning", .failure, []⟩,
    ⟨"LexerState", .enumeration, []⟩,
    ⟨"LexerMode", .enumeration, []⟩,
    ⟨"LexerContext", .object, "__post_init__" :: "enter_mode" :: "exit_mode" :: fieldMethods⟩,
    ⟨"Lexer", .object,
      words "__init__ _setup_patterns tokenize _handle_start _handle_identifier _handle_number" ++
      words "_handle_string_start _handle_string _handle_string_escape _handle_comment _handle_fstring" ++
      words "_handle_fstring_expr _handle_fstring_format_spec _handle_operator_or_delimiter _handle_newline" ++
      words "_add_token _error _warn _advance _current_char _peek _is_at_end _match_pattern _consume_whitespace" ++
      words "_consume_until"⟩]),
  ("core_error", [
    ⟨"InterpreterError", .failure, []⟩,
    ⟨"RuntimeError", general, ["__init__", "__str__"]⟩,
    made "NameError", made "TypeError",
    ⟨"ValueError", general, []⟩,
    made "ZeroDivisionError", made "IndexError", made "KeyError", made "AttributeError",
    ⟨"StopIteration", general, []⟩,
    made "ImportError", made "AssertionError",
    ⟨"SyntaxError", general, ["__init__", "__str__"]⟩,
    ⟨"ErrorInfo", .object, fieldMethods⟩,
    ⟨"ErrorReporter", .object,
      words "__init__ reset error syntax_error runtime_error type_error _report format_traceback has_errors" ++
      words "get_errors clear_errors"⟩])]

/-- The class that a method comes from. -/
inductive Origin where
  | definedBy (name : String)
  | outside
  | missing
  deriving Repr, DecidableEq

/-- Where a method that a class does not define itself comes from. -/
def Ground.origin (g : Ground) (method : String) : Origin :=
  match g with
  | .object => if commonMethods.contains method then .outside else .missing
  | .failure | .other _ => if (commonMethods ++ failureMethods).contains method then .outside else .missing
  | .enumeration =>
    if enumerationMethods.contains method then .definedBy "Enum"
    else if commonMethods.contains method then .outside
    else .missing

/-- Where a method of a class in a part of the workbench comes from. -/
def origin (part cls method : String) : Origin :=
  match (registry.lookup part).bind fun entries => entries.find? fun e => e.name == cls with
  | none => .missing
  | some e => if e.methods.contains method then .definedBy cls else e.ground.origin method

end Scriptling.Catalogue
