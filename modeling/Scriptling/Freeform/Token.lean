import Scriptling.Datum.Text

/-!
# Tokens of free-form text

A token has a kind, a value and the place where it begins. Places count characters from zero, lines and columns
from one. A line feed moves to the next line and is itself counted there, so text after it begins in column two.
-/

namespace Scriptling.Freeform

inductive Keyword where
  | let
  | const
  | fn
  | mut
  | async
  | await
  | if
  | else
  | loop
  | break
  | return
  | struct
  deriving Repr, DecidableEq

def keywords : List (String × Keyword) :=
  [("let", .let), ("const", .const), ("fn", .fn), ("mut", .mut), ("async", .async), ("await", .await),
   ("if", .if), ("else", .else), ("loop", .loop), ("break", .break), ("return", .return),
   ("struct", .struct)]

/-- The name of a keyword: its word in capitals. -/
def Keyword.name (k : Keyword) : String := ((keywords.find? (·.2 == k)).elim "" (·.1)).toUpper

inductive Kind where
  | keyword (k : Keyword)
  | identifier
  | number
  | string
  | operator
  | delimiter
  | endOfText
  deriving Repr, DecidableEq

def Kind.name : Kind → String
  | keyword k => k.name
  | identifier => "IDENTIFIER"
  | number => "NUMBER"
  | string => "STRING"
  | operator => "OPERATOR"
  | delimiter => "DELIMITER"
  | endOfText => "EOF"

def wordKind (word : String) : Kind :=
  match keywords.lookup word with
  | some k => .keyword k
  | none => .identifier

/-- A place in a text. -/
structure Cursor where
  pos : Nat
  line : Nat
  column : Nat
  deriving Repr, DecidableEq

namespace Cursor

def start : Cursor := ⟨0, 1, 1⟩

/-- The place some characters further on the same line. -/
def advance (c : Cursor) (n : Nat) : Cursor := ⟨c.pos + n, c.line, c.column + n⟩

/-- The beginning of the next line, before the line feed has been passed. -/
def newline (c : Cursor) : Cursor := { c with line := c.line + 1, column := 1 }

/-- The place after a blank. A line feed begins a new line and is then passed like any other blank. -/
def skip (c : Cursor) (ch : Char) : Cursor := (if ch = '\n' then c.newline else c).advance 1

end Cursor

structure Token where
  kind : Kind
  /-- Its value: the text of a word, operator or delimiter, what a string holds, or a number. -/
  value : Datum
  line : Nat
  column : Nat

def Token.ofCursor (kind : Kind) (value : Datum) (at_ : Cursor) : Token := ⟨kind, value, at_.line, at_.column⟩

def Token.display (t : Token) : String :=
  "Token(" ++ t.kind.name ++ ", " ++ t.value.literal ++ ", line=" ++ toString t.line ++ ", col=" ++
    toString t.column ++ ")"

end Scriptling.Freeform
