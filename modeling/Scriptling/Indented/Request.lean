import Scriptling.Text.Lines
import Scriptling.Datum.Argument
import Scriptling.Indented.Step

/-!
# Requests to the indented lexer

The moves of the lexer, one by one, under the names by which they are asked for, and its tables under theirs.
-/

namespace Scriptling.Indented

def Pattern.ofName? : String → Option Pattern
  | "identifier" => some .identifier
  | "integer" => some .integer
  | "float" => some .float
  | "string_prefix" => some .literal
  | "whitespace" => some .blank
  | "newline" => some .lineEnd
  | "comment" => some .comment
  | _ => none

/-- A token as a value: its kind, its text, its literal and its place. -/
def Token.toDatum (t : Token) : Datum := .list [.str t.kind.name, .str t.lexeme, t.literal, .int t.line, .int t.column]

namespace Lexer

/-- What a request gives: a value, or why the lexer stops; and the lexer afterwards. -/
abbrev Answer := Except Stop Datum × Lexer

def reply (l : Lexer) (d : Datum) : Answer := (.ok d, l)

def silent (l : Lexer) : Answer := l.reply .none

def refuse (l : Lexer) (kind : FaultKind) : Answer := (.error (.fault kind), l)

def answerPeek (l : Lexer) (n : Int) : Answer :=
  match l.peek n with
  | .ok c => l.reply (.str (String.singleton c))
  | .error f => l.refuse f.kind

def requests : List String :=
  Text.words "enter_mode exit_mode match warn error advance peek current_char is_at_end consume_whitespace" ++
    Text.words "consume_until add_token tokenize_fn"

/-- Takes a request. One that is known but does not take what was given is refused for its types. -/
def request (l : Lexer) (name : String) (args : List Datum) : Answer :=
  match name, args with
  | "enter_mode", [m] =>
    match Mode.ofName? m.asText with
    | some m => (l.enterMode m).silent
    | none => l.refuse .missingKey
  | "exit_mode", [] => l.exitMode.reply (.str l.exitMode.mode.name)
  | "match", [p] =>
    match Pattern.ofName? p.asText with
    | some p => l.reply (((p.find? l.rest).map fun t => Datum.str (String.ofList t)).getD (.bool false))
    | none => l.refuse .missingAttribute
  | "warn", [m] => (l.warn m.asText).silent
  | "error", [m] => let (s, l) := l.complain (.other m.asText); (.error s, l)
  | "advance", [] => l.move.silent
  | "advance", [.int n] => (l.advance (min n.toNat l.rest.length)).silent
  | "peek", [] => l.answerPeek 1
  | "peek", [.int n] => l.answerPeek n
  | "current_char", [] => l.reply (.str (String.singleton l.current))
  | "is_at_end", [] => l.reply (.bool l.atEnd)
  | "is_at_end", [.int n] => l.reply (.bool (l.atEndAfter n))
  | "consume_whitespace", [] => l.skipBlanks.silent
  | "consume_until", [.str stops] => let (t, l) := l.moveUntil stops.toList; l.reply (.str t)
  | "add_token", [kind, lexeme] => (l.add ((Kind.ofName? kind.asText).getD .error) lexeme.asText .none).silent
  | "add_token", [kind, lexeme, literal] =>
    (l.add ((Kind.ofName? kind.asText).getD .error) lexeme.asText literal).silent
  | name, _ => l.refuse (if requests.contains name then .wrongType else .missingAttribute)

end Lexer

/-! ## Tables by name -/

/-- A table: what stands for each of its words, and what stands for any other. -/
structure Table where
  entries : List (String × Datum)
  other : Datum

namespace Table

def get (t : Table) (word : String) : Datum := (t.entries.lookup word).getD t.other

def ofWords (words : List String) : Table := ⟨words.map fun w => (w, .bool true), .bool false⟩

def ofKinds (kinds : List (String × Kind)) : Table := ⟨kinds.map fun (w, k) => (w, .str k.name), .none⟩

def ofName : String → Table
  | "KEYWORDS" => ofKinds keywords
  | "SINGLE_CHAR_TOKENS" => ofKinds (singles.map fun (c, k) => (String.singleton c, k))
  | "OPERATORS" => ⟨ranks.map fun (w, n) => (w, .int n), .none⟩
  | "ASSIGNMENT_OPS" => ofWords assignments
  | "AUGMENTED_ASSIGNMENT_OPS" => ofWords augmentedAssignments
  | "COMPARISON_OPS" => ofWords comparisons
  | "BINARY_OPS" => ofWords binaryOperators
  | "UNARY_OPS" => ofWords unaryOperators
  | "STATEMENT_KEYWORDS" => ofWords statementWords
  | "EXPRESSION_KEYWORDS" => ofWords expressionWords
  | "RESERVED_KEYWORDS" => ofWords reservedWords
  | "STRING_QUOTES" => ofWords quoteMarks
  | "WHITESPACE" => ofWords blanks
  | "NEWLINE" => ofWords lineEnds
  | _ => ofWords []

end Table

end Scriptling.Indented
