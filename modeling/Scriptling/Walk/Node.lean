import Scriptling.Datum.Basic
import Scriptling.Text.Case

/-!
# Nodes

The trees that the tree walker runs. A node has a class, by name, and fields; which fields it has is left open, and
one that is missing is noticed when it is needed. A node may carry the distance at which its variable was resolved:
how many environments outwards it is found.
-/

namespace Scriptling.Walk

/-- A tree, or a part of one. -/
inductive Node where
  /-- A node of a class, with the distance of its variable if it was resolved. -/
  | node (cls : String) (distance? : Option Int) (fields : List (String × Node))
  | token (kind lexeme : String)
  | list (items : List Node)
  | value (d : Datum)
  deriving Inhabited

/-- The statements that the walker executes. -/
inductive StmtForm where
  | expression
  | print
  | declaration
  | block
  /-- The inside of a block, which is no statement of its own. -/
  | blockInside
  | branch
  | whileLoop
  | function
  | ret
  | leave
  | again
  deriving Repr, DecidableEq

/-- The form of statement that a class name stands for, in small letters. -/
def StmtForm.ofName? : String → Option StmtForm
  | "expressionstmt" => some expression
  | "printstmt" => some print
  | "variabledeclaration" => some declaration
  | "block" => some block
  | "block_internal" => some blockInside
  | "ifstmt" => some branch
  | "whilestmt" => some whileLoop
  | "functiondeclaration" => some function
  | "returnstmt" => some ret
  | "breakstmt" => some leave
  | "continuestmt" => some again
  | _ => none

/-- The expressions that the walker evaluates. -/
inductive ExprForm where
  | literal
  | name
  | assign
  | binary
  | logical
  | unary
  | call
  | property
  deriving Repr, DecidableEq

/-- The form of expression that a class name stands for, in small letters. -/
def ExprForm.ofName? : String → Option ExprForm
  | "literalexpr" => some literal
  | "variableexpr" => some name
  | "assignexpr" => some assign
  | "binaryexpr" => some binary
  | "logicalexpr" => some logical
  | "unaryexpr" => some unary
  | "callexpr" => some call
  | "getexpr" => some property
  | _ => none

namespace Node

def stmtForm? : Node → Option StmtForm
  | node cls _ _ => StmtForm.ofName? (Text.lower cls)
  | _ => none

def exprForm? : Node → Option ExprForm
  | node cls _ _ => ExprForm.ofName? (Text.lower cls)
  | _ => none

def field? : Node → String → Option Node
  | node _ _ fields, name => fields.lookup name
  | token kind _, "type" => some (value (.str ("TokenType." ++ kind)))
  | token _ lexeme, "lexeme" => some (value (.str lexeme))
  | _, _ => none

def distance : Node → Option Int
  | node _ distance? _ => distance?
  | _ => none

mutual

/-- A part as a value: nodes and tokens are objects of their class. -/
def toDatum : Node → Datum
  | node cls _ _ => .object cls ("<" ++ cls ++ " object>") 0
  | token .. => .object "Token" "<Token object>" 0
  | list items => .list (toData items)
  | value d => d

def toData : List Node → List Datum
  | [] => []
  | n :: ns => toDatum n :: toData ns

end

end Node

end Scriptling.Walk
