import Scriptling.Datum.Text

/-!
# Tokens of braced scripts

The kinds of token, the keyword table, and the token itself: its kind, the text it was read from, the value
of a number or string literal, and its line.
-/

namespace Scriptling.Braced

inductive Kind where
  | leftBrace
  | rightBrace
  | leftParen
  | rightParen
  | comma
  | dot
  | minus
  | plus
  | semicolon
  | slash
  | star
  | backtick
  | colon
  | bang
  | bangEqual
  | equal
  | equalEqual
  | greater
  | greaterEqual
  | less
  | lessEqual
  | identifier
  | string
  | number
  | and
  | async
  | await
  | break
  | const
  | else
  | false
  | fn
  | for
  | if
  | in
  | let
  | loop
  | mut
  | return
  | struct
  | true
  | numberType
  | stringType
  | boolType
  | endOfFile
  /-- Disjunction. No text is read as this kind; a hand-made token list may hold it. -/
  | or
  deriving Repr, DecidableEq

namespace Kind

def names : List (Kind × String) :=
  [(leftBrace, "LEFT_BRACE"), (rightBrace, "RIGHT_BRACE"), (leftParen, "LEFT_PAREN"),
   (rightParen, "RIGHT_PAREN"), (comma, "COMMA"), (dot, "DOT"), (minus, "MINUS"), (plus, "PLUS"),
   (semicolon, "SEMICOLON"), (slash, "SLASH"), (star, "STAR"), (backtick, "BACKTICK"),
   (colon, "COLON"), (bang, "BANG"), (bangEqual, "BANG_EQUAL"), (equal, "EQUAL"),
   (equalEqual, "EQUAL_EQUAL"), (greater, "GREATER"), (greaterEqual, "GREATER_EQUAL"),
   (less, "LESS"), (lessEqual, "LESS_EQUAL"), (identifier, "IDENTIFIER"), (string, "STRING"),
   (number, "NUMBER"), (Kind.and, "AND"), (async, "ASYNC"), (await, "AWAIT"), (Kind.break, "BREAK"),
   (const, "CONST"), (Kind.else, "ELSE"), (Kind.false, "FALSE"), (fn, "FN"), (Kind.for, "FOR"),
   (Kind.if, "IF"), (Kind.in, "IN"), (Kind.let, "LET"), (loop, "LOOP"), (Kind.mut, "MUT"),
   (Kind.return, "RETURN"), (struct, "STRUCT"), (Kind.true, "TRUE"), (numberType, "NUMBER_TYPE"),
   (stringType, "STRING_TYPE"), (boolType, "BOOL_TYPE"), (endOfFile, "EOF"), (Kind.or, "OR")]

def name (k : Kind) : String := ((names.find? (·.1 == k)).map (·.2)).getD ""

def ofName? (s : String) : Option Kind := (names.find? (·.2 == s)).map (·.1)

end Kind

def keywords : List (String × Kind) :=
  [("and", .and), ("async", .async), ("await", .await), ("break", .break), ("const", .const),
   ("else", .else), ("false", .false), ("fn", .fn), ("for", .for), ("if", .if), ("in", .in),
   ("let", .let), ("loop", .loop), ("mut", .mut), ("return", .return), ("struct", .struct),
   ("true", .true), ("Number", .numberType), ("String", .stringType), ("Bool", .boolType)]

def wordKind (word : String) : Kind := ((keywords.find? (·.1 == word)).map (·.2)).getD .identifier

instance : Inhabited Kind := ⟨.endOfFile⟩

/-- A token, with the line on which it ends. -/
structure Token where
  kind : Kind
  lexeme : String
  literal : Datum
  line : Int
  deriving Inhabited

namespace Token

def eof (line : Int) : Token := ⟨.endOfFile, "", .none, line⟩

/-- A token that stands for an operator given by its text alone. -/
def ofLexeme (lexeme : String) : Token := ⟨.identifier, lexeme, .none, 0⟩

def display (t : Token) : String := "TokenType." ++ t.kind.name ++ " " ++ t.lexeme ++ " " ++ t.literal.plainDisplay

end Token

end Scriptling.Braced
