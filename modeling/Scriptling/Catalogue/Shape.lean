import Scriptling.Datum.Basic
import Scriptling.Text.Lines

/-!
# Shapes of syntax nodes

Two families of syntax nodes. A shape is the name of a node class, the classes above it and the fields of its
nodes. The nodes of the placed family start with a line and a column and can be visited; four small records
belong to that family too, which have neither.
-/

namespace Scriptling.Catalogue

open Text (words)

inductive Family where
  | plain
  | placed
  deriving Repr, DecidableEq

/-- A field of a node; without a default it has to be given. -/
structure Field where
  name : String
  default : Option Datum := none

structure Shape where
  name : String
  above : List String
  fields : List Field

namespace Shape

def lineage (s : Shape) : List String := s.name :: s.above

def isVisited (family : Family) (s : Shape) : Bool :=
  match family with
  | .plain => false
  | .placed => s.lineage.contains "Node"

end Shape

/-- Fields that have to be given, named in one line. -/
def needed (line : String) : List Field := (words line).map fun name => ⟨name, none⟩

def spare (line : String) : List Field := (words line).map fun name => ⟨name, some .none⟩

def expressions : List String := ["Expr", "Node", "object"]

def statements : List String := ["Stmt", "Node", "object"]

def plainShapes : List Shape := [
  ⟨"Node", ["object"], []⟩,
  ⟨"Expr", ["Node", "object"], []⟩,
  ⟨"Literal", expressions, needed "value value_type"⟩,
  ⟨"Variable", expressions, needed "name"⟩,
  ⟨"Binary", expressions, needed "left operator right"⟩,
  ⟨"Unary", expressions, needed "operator right"⟩,
  ⟨"Call", expressions, needed "callee arguments paren"⟩,
  ⟨"Stmt", ["Node", "object"], []⟩,
  ⟨"Expression", statements, needed "expression"⟩,
  ⟨"Var", statements, needed "name initializer" ++ spare "var_type" ++ [⟨"is_const", some (.bool false)⟩]⟩,
  ⟨"Block", statements, needed "statements"⟩,
  ⟨"If", statements, needed "condition then_branch" ++ spare "else_branch"⟩,
  ⟨"Loop", statements, needed "body"⟩,
  ⟨"Function", statements, needed "name parameters body" ++ spare "return_type"⟩,
  ⟨"Return", statements, needed "keyword" ++ spare "value"⟩,
  ⟨"Struct", statements, needed "name fields"⟩]

/-- A shape whose nodes start with a line and a column. -/
def placed (name : String) (above : List String) (fields : List Field) : Shape :=
  ⟨name, above, needed "lineno col_offset" ++ fields⟩

/-- A class of signs and the signs in it, none of which has a field of its own. -/
def signs (cls members : String) : List Shape :=
  placed cls ["Node", "object"] [] :: (words members).map fun name => placed name [cls, "Node", "object"] []

def functionFields : List Field := needed "name args body" ++ spare "decorator_list returns type_comment"

/-- The shapes of nodes with a place, and the records that belong to them. -/
def placedShapes : List Shape := [
  placed "Node" ["object"] [], placed "Module" ["Node", "object"] (needed "body" ++ spare "type_ignores"),
  placed "Expr" ["Node", "object"] [], placed "Stmt" ["Node", "object"] [],
  placed "Constant" expressions (needed "value" ++ spare "kind"), placed "Name" expressions (needed "id ctx"),
  placed "NameConstant" expressions (needed "value"), placed "Num" expressions (needed "n"),
  placed "Str" expressions (needed "s"), placed "UnaryOp" expressions (needed "op operand"),
  placed "BinOp" expressions (needed "left op right"),
  placed "BoolOp" expressions (needed "op values"),
  placed "Compare" expressions (needed "left ops comparators"),
  placed "If" statements (needed "test body orelse"),
  placed "While" statements (needed "test body" ++ spare "orelse"),
  placed "For" statements (needed "target iter body" ++ spare "orelse type_comment"),
  placed "Break" statements [], placed "Continue" statements [], placed "Return" statements (spare "value"),
  placed "FunctionDef" statements functionFields,
  placed "ClassDef" statements (needed "name bases keywords body" ++ spare "decorator_list"),
  placed "AsyncFunctionDef" ("FunctionDef" :: statements) functionFields, placed "Import" statements (needed "names"),
  placed "ImportFrom" statements (needed "module names" ++ [⟨"level", some (.int 0)⟩]),
  placed "Assign" statements (needed "targets value" ++ spare "type_comment"),
  placed "AugAssign" statements (needed "target op value"),
  placed "ExprStmt" statements (needed "value"),
  ⟨"arguments", ["object"], spare "posonlyargs args vararg kwonlyargs kw_defaults kwarg defaults"⟩,
  ⟨"arg", ["object"], needed "arg" ++ spare "annotation type_comment"⟩,
  ⟨"keyword", ["object"], needed "arg value"⟩,
  ⟨"alias", ["object"], needed "name" ++ spare "asname"⟩]
  ++ signs "expr_context" "Load Store Del"
  ++ signs "operator" "Add Sub Mult MatMult Div Mod Pow LShift RShift BitOr BitXor BitAnd FloorDiv"
  ++ signs "unaryop" "UAdd USub Not Invert"
  ++ signs "boolop" "And Or"
  ++ signs "cmpop" "Eq NotEq Lt LtE Gt GtE Is IsNot In NotIn"

def Family.shapes : Family → List Shape
  | plain => plainShapes
  | placed => placedShapes

def Family.shape? (family : Family) (name : String) : Option Shape := family.shapes.find? fun s => s.name == name

end Scriptling.Catalogue
