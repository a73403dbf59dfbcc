import Scriptling.Indented.Pattern
import Scriptling.Indented.Token

/-!
# The lexer of indented text

A lexer goes through a text character by character and keeps everything that its answers depend on: the place it has
reached and the place where the current step began, the state of its machine, the widths of the open
indentations, and the tokens so far. Moving over a line end begins a new line.
-/

namespace Scriptling.Indented

/-- What the lexer is reading. -/
inductive State where
  | start
  | identifier
  | number
  | string
  | escape
  | comment
  | template
  | hole
  | format
  deriving Repr, DecidableEq

namespace State

def names : List (State × String) :=
  [(start, "START"), (identifier, "IN_IDENTIFIER"), (number, "IN_NUMBER"), (string, "IN_STRING"),
   (escape, "IN_STRING_ESCAPE"), (comment, "IN_COMMENT"), (template, "IN_FSTRING"), (hole, "IN_FSTRING_EXPR"),
   (format, "IN_FSTRING_FORMAT_SPEC")]

def name (s : State) : String := (names.lookup s).getD ""

def ofName? (s : String) : Option State := (names.find? (·.2 == s)).map (·.1)

end State

/-- The modes a lexer can be in; they do not change what it reads. -/
inductive Mode where
  | normal
  | formatString
  | typeMark
  | decorator
  | slice
  deriving Repr, DecidableEq

namespace Mode

def names : List (Mode × String) :=
  [(normal, "NORMAL"), (formatString, "FORMAT_STRING"), (typeMark, "TYPE_ANNOTATION"), (decorator, "DECORATOR"),
   (slice, "SLICE")]

def name (s : Mode) : String := (names.lookup s).getD ""

def ofName? (s : String) : Option Mode := (names.find? (·.2 == s)).map (·.1)

end Mode

inductive Complaint where
  | unterminated
  | unexpected (c : Char)
  | indentation
  | strayBrace
  | strayBracket
  | strayParen
  | other (message : String)
  deriving Repr, DecidableEq

def Complaint.message : Complaint → String
  | unterminated => "Unterminated string literal"
  | unexpected c => "Unexpected character: " ++ String.singleton c
  | indentation => "Inconsistent indentation"
  | strayBrace => "Single '\x7d' in f-string"
  | strayBracket => "Unmatched ']' in f-string expression"
  | strayParen => "Unmatched ')' in f-string expression"
  | other message => message

/-- Why the lexer stops. -/
inductive Stop where
  | complaint (c : Complaint) (line column : Int)
  | fault (kind : FaultKind)
  | outOfFuel
  deriving Repr, DecidableEq

/-- The state of the lexer between two steps. -/
structure Lexer where
  filename : String
  past : List Char
  rest : List Char
  line : Int
  column : Int
  /-- How many characters had been read when the step began. -/
  startPos : Nat
  startLine : Int
  startColumn : Int
  state : State
  mode : Mode
  /-- The widths of the open indentations, innermost first. -/
  indents : List Nat
  /-- How many parentheses and braces are open in a string's expression. -/
  parens : Int
  /-- How many brackets are open in a string's expression. -/
  brackets : Int
  templates : Nat
  /-- The quote of the string that is being read, once there was one. -/
  quote? : Option String
  tokens : Array Token
  complaints : List String
  warnings : List String

namespace Lexer

def start (filename source : String) : Lexer :=
  { filename, past := [], rest := source.toList, line := 1, column := 1, startPos := 0, startLine := 1
    startColumn := 1, state := .start, mode := .normal, indents := [0], parens := 0, brackets := 0, templates := 0
    quote? := none, tokens := #[], complaints := [], warnings := [] }

def pos (l : Lexer) : Nat := l.past.length

/-- The next character; a null character at the end. -/
def current (l : Lexer) : Char := l.rest.headD '\x00'

/-- The character after the next one; a null character beyond the end. -/
def next (l : Lexer) : Char := (l.rest.drop 1).headD '\x00'

def atEnd (l : Lexer) : Bool := l.rest.isEmpty

def move (l : Lexer) : Lexer :=
  match l.rest with
  | [] => l
  | c :: cs =>
    if isLineEnd c then { l with past := c :: l.past, rest := cs, line := l.line + 1, column := 1 }
    else { l with past := c :: l.past, rest := cs, column := l.column + 1 }

def advance (l : Lexer) : Nat → Lexer
  | 0 => l
  | n + 1 => l.move.advance n

/-- Moves over characters as long as they are of a kind. -/
def moveWhile (p : Char → Bool) (l : Lexer) : Lexer := l.advance (l.rest.takeWhile p).length

/-- Notes that a step begins here. -/
def mark (l : Lexer) : Lexer := { l with startPos := l.pos, startLine := l.line, startColumn := l.column }

/-- What has been read since the step began. -/
def lexeme (l : Lexer) : String := String.ofList (l.past.take (l.pos - l.startPos)).reverse

/-- Adds a token at the place where the step began. -/
def add (l : Lexer) (kind : Kind) (lexeme : String) (literal : Datum) : Lexer :=
  { l with tokens := l.tokens.push ⟨kind, lexeme, literal, l.startLine, l.startColumn⟩ }

def located (l : Lexer) (message : String) : String :=
  l.filename ++ ":" ++ Number.intText l.startLine ++ ":" ++ Number.intText l.startColumn ++ ": " ++ message

def warn (l : Lexer) (message : String) : Lexer := { l with warnings := l.warnings ++ [l.located message] }

def complain (l : Lexer) (c : Complaint) : Stop × Lexer :=
  (.complaint c l.startLine l.startColumn, { l with complaints := l.complaints ++ [l.located c.message] })

def enterMode (l : Lexer) (m : Mode) : Lexer := { l with mode := m }

def exitMode (l : Lexer) : Lexer := { l with mode := .normal }

/-- The character `n` places on; a null character beyond the end. Places before the text count from its end. -/
def peek (l : Lexer) (n : Int) : Except Fault Char :=
  let i := (l.pos : Int) + n
  let source := l.past.reverse ++ l.rest
  if i ≥ source.length then .ok '\x00'
  else if i ≥ 0 then .ok (source.getD i.toNat '\x00')
  else if i + source.length ≥ 0 then .ok (source.getD (i + source.length).toNat '\x00')
  else .error (.plain .badIndex)

/-- Whether the place `n` characters on is at or beyond the end. -/
def atEndAfter (l : Lexer) (n : Int) : Bool := (l.pos : Int) + n ≥ (l.pos + l.rest.length : Nat)

end Lexer

end Scriptling.Indented
