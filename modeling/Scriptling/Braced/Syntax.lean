import Scriptling.Braced.Token

/-!
# Syntax of braced scripts

Expressions and statements as parsing leaves them, and their records: dictionaries whose keys depend on the
kind of node. Parsing goes on after an error, so a type may be announced without being named; all else
that a node needs is always there.
-/

namespace Scriptling.Braced

/-- The type that was written for something, if one was. -/
inductive TypeMark where
  | absent
  | malformed
  | named (type : String)
  deriving Repr, DecidableEq

inductive LiteralKind where
  | number
  | string
  | boolean
  deriving Repr, DecidableEq

inductive Expr where
  | literal (kind : LiteralKind) (value : Datum)
  | variable (name : String)
  | assign (name : String) (value : Expr)
  | logical (left : Expr) (operator : Token) (right : Expr)
  | binary (left : Expr) (operator : Token) (right : Expr)
  | unary (operator : Token) (right : Expr)
  | call (callee : Expr) (arguments : List Expr) (paren : Token)
  | grouping (inner : Expr)
  deriving Inhabited

/-- A parameter of a function. -/
structure Param where
  name : String
  typeMark : TypeMark
  deriving Repr, DecidableEq

/-- A field of a struct. -/
structure Field where
  name : String
  typeMark : TypeMark
  isMutable : Bool
  deriving Repr, DecidableEq

inductive Stmt where
  | function (name : String) (params : List Param) (result : TypeMark) (body : List Stmt)
  | struct (name : String) (fields : List Field)
  | var (name : String) (typeMark : TypeMark) (initial : Option Expr) (isConst : Bool)
  | branch (condition : Expr) (yes : Stmt) (no : Option Stmt)
  | loop (body : List Stmt)
  | ret (keyword : Token) (value : Option Expr)
  | block (body : List Stmt)
  | expression (e : Expr)
  deriving Inhabited

/-! ## Records -/

namespace Token

def toDatum (t : Token) : Datum := .token t.kind.name t.lexeme t.literal t.line

end Token

def record (fields : List (String × Datum)) : Datum := .dict (fields.map fun (key, value) => (.str key, value))

def TypeMark.toDatum : TypeMark → Datum
  | named t => .str t
  | _ => .none

def LiteralKind.name : LiteralKind → String
  | number => "number"
  | string => "string"
  | boolean => "boolean"

/-- A parameter's record. The type has a place in it only if one was announced. -/
def Param.toDatum (p : Param) : Datum :=
  match p.typeMark with
  | .absent => record [("name", .str p.name)]
  | a => record [("name", .str p.name), ("type", a.toDatum)]

def Field.toDatum (f : Field) : Datum :=
  record [("name", .str f.name), ("type", f.typeMark.toDatum), ("mutable", .bool f.isMutable)]

mutual

def Expr.toDatum : Expr → Datum
  | .literal kind value =>
    record [("type", .str "literal"), ("value", value), ("value_type", .str kind.name)]
  | .variable name => record [("type", .str "variable"), ("name", .str name)]
  | .assign name value =>
    record [("type", .str "assign"), ("name", .str name), ("value", value.toDatum)]
  | .logical l op r =>
    record [("type", .str "logical"), ("left", l.toDatum), ("operator", op.toDatum),
      ("right", r.toDatum)]
  | .binary l op r =>
    record [("type", .str "binary"), ("left", l.toDatum), ("operator", op.toDatum),
      ("right", r.toDatum)]
  | .unary op r =>
    record [("type", .str "unary"), ("operator", op.toDatum), ("right", r.toDatum)]
  | .call callee arguments paren =>
    record [("type", .str "call"), ("callee", callee.toDatum),
      ("arguments", .list (exprData arguments)), ("paren", paren.toDatum)]
  | .grouping inner => record [("type", .str "grouping"), ("expression", inner.toDatum)]

def exprData : List Expr → List Datum
  | [] => []
  | e :: es => e.toDatum :: exprData es

end

def optionalDatum : Option Expr → Datum
  | none => .none
  | some e => e.toDatum

mutual

def Stmt.toDatum : Stmt → Datum
  | .function name params result body =>
    record [("type", .str "function"), ("name", .str name),
      ("parameters", .list (params.map Param.toDatum)), ("return_type", result.toDatum),
      ("body", .list (stmtData body))]
  | .struct name fields =>
    record [("type", .str "struct"), ("name", .str name),
      ("fields", .list (fields.map Field.toDatum))]
  | .var name typeMark initial isConst =>
    record [("type", .str "var"), ("name", .str name), ("var_type", typeMark.toDatum),
      ("initializer", optionalDatum initial), ("is_const", .bool isConst)]
  | .branch condition yes no =>
    record [("type", .str "if"), ("condition", condition.toDatum), ("then_branch", yes.toDatum),
      ("else_branch", elseDatum no)]
  | .loop body => record [("type", .str "loop"), ("body", .list (stmtData body))]
  | .ret keyword value =>
    record [("type", .str "return"), ("keyword", keyword.toDatum),
      ("value", optionalDatum value)]
  | .block body => record [("type", .str "block"), ("statements", .list (stmtData body))]
  | .expression e => record [("type", .str "expression"), ("expression", e.toDatum)]

/-- The record of the second arm of a choice, or nothing. -/
def elseDatum : Option Stmt → Datum
  | none => .none
  | some s => s.toDatum

def stmtData : List Stmt → List Datum
  | [] => []
  | s :: ss => s.toDatum :: stmtData ss

end

end Scriptling.Braced
