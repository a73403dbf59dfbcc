import Mathlib.Data.List.Forall2
import Scriptling.Proofs.Script.Parsed

/-!
# The language that the dialects share

Expressions and statements that both dialects have: literals, variables, assignments, sums and calls; printing,
variables, blocks, choices and returns. A record says the same in the two dialects but for the kind of a literal,
which is a name in the basic one and a tag in the closing one, and for the sign of a sum, which is a token in the
basic one and a text in the closing one (`WrittenAs`). Records may have more keys than those that are looked up.

What a dialect does with such a record is told for both at once.
-/

namespace Scriptling.Script

open Run Braced

namespace Shared

/-! ## Syntax -/

inductive Literal where
  | number (x : Float)
  | string (s : String)
  | boolean (b : Bool)
  | null

/-- The expressions that both dialects have. -/
inductive Expr where
  | literal (l : Literal)
  | variable (name : String)
  | assign (name : String) (value : Expr)
  | sum (left right : Expr)
  | call (callee : Expr) (arguments : List Expr)

/-- The statements that both dialects have. -/
inductive Stmt where
  | expression (e : Expr)
  | print (e : Expr)
  | var (name : String) (initial : Option Expr)
  | block (body : List Stmt)
  | branch (condition : Expr) (yes : Stmt) (no : Option Stmt)
  | ret (value : Option Expr)

namespace Literal

def tag : Literal → ValueTag
  | number _ => .number
  | string _ => .string
  | boolean _ => .boolean
  | null => .null

def payload : Literal → Datum
  | number x => .float x
  | string s => .str s
  | boolean b => .bool b
  | null => .none

def kind : Literal → String
  | number _ => "number"
  | string _ => "string"
  | boolean _ => "boolean"
  | null => "null"

/-- How a dialect tells the kind of a literal. -/
def mark (l : Literal) : Dialect → Datum
  | .basic => .str l.kind
  | .closing => .tag l.tag

def value (l : Literal) : Datum := .tagged l.tag l.payload

/-- Both dialects read a literal as its value. -/
theorem literalValue_mark (l : Literal) (d : Dialect) :
    literalValue d (.ok (l.mark d)) (.ok l.payload) = .ok l.value := by
  cases d <;> cases l <;> rfl

end Literal

/-! ## Records -/

/-- How a dialect writes the sign of a sum. -/
def IsPlus (operator : Datum) : Dialect → Prop
  | .basic => ∃ kind literal line, operator = .token kind "+" literal line
  | .closing => operator = .str "+"

abbrev HasType (record : Datum) (type : String) : Prop := field record "type" = .ok (.str type)

/-- The record is that of the expression in a dialect. -/
inductive Expr.WrittenAs (d : Dialect) : Expr → Datum → Prop where
  | literal {l r} : HasType r "literal" → field r "value_type" = .ok (l.mark d) → field r "value" = .ok l.payload →
      WrittenAs d (.literal l) r
  | variable {name r} : HasType r "variable" → field r "name" = .ok (.str name) → WrittenAs d (.variable name) r
  | assign {name value r v} : HasType r "assign" → field r "name" = .ok (.str name) → field r "value" = .ok v →
      WrittenAs d value v → WrittenAs d (.assign name value) r
  | sum {left right r a b operator} : HasType r "binary" → field r "left" = .ok a → field r "right" = .ok b →
      field r "operator" = .ok operator → WrittenAs d left a → WrittenAs d right b → IsPlus operator d →
      WrittenAs d (.sum left right) r
  | call {callee arguments r f args} : HasType r "call" → field r "callee" = .ok f →
      field r "arguments" = .ok (.list args) → WrittenAs d callee f → List.Forall₂ (WrittenAs d) arguments args →
      WrittenAs d (.call callee arguments) r

/-- The record is that of the statement in a dialect. It has a key for a part that may be left out exactly if the
part is there. -/
inductive Stmt.WrittenAs (d : Dialect) : Stmt → Datum → Prop where
  | expression {e r a} : HasType r "expression" → field r "expression" = .ok a → e.WrittenAs d a →
      WrittenAs d (.expression e) r
  | print {e r a} : HasType r "print" → field r "expression" = .ok a → e.WrittenAs d a → WrittenAs d (.print e) r
  | var {name initial r} : HasType r "var" → field r "name" = .ok (.str name) →
      Option.Rel (Expr.WrittenAs d) initial (field? r "initializer") → WrittenAs d (.var name initial) r
  | block {body r ss} : HasType r "block" → field r "statements" = .ok (.list ss) → List.Forall₂ (WrittenAs d) body ss →
      WrittenAs d (.block body) r
  | branch {condition yes no r c y} : HasType r "if" → field r "condition" = .ok c → field r "then_branch" = .ok y →
      condition.WrittenAs d c → WrittenAs d yes y → Option.Rel (WrittenAs d) no (field? r "else_branch") →
      WrittenAs d (.branch condition yes no) r
  | ret {value r} : HasType r "return" → Option.Rel (Expr.WrittenAs d) value (field? r "value") →
      WrittenAs d (.ret value) r

/-! ## Writing records -/

def plus : Dialect → Datum
  | .basic => .token "PLUS" "+" .none 1
  | .closing => .str "+"

theorem isPlus_plus (d : Dialect) : IsPlus (plus d) d := by
  cases d with
  | basic => exact ⟨_, _, _, rfl⟩
  | closing => rfl

mutual

/-- A record of an expression in a dialect. -/
def Expr.render (d : Dialect) : Expr → Datum
  | .literal l => record [("type", .str "literal"), ("value_type", l.mark d), ("value", l.payload)]
  | .variable name => record [("type", .str "variable"), ("name", .str name)]
  | .assign name value =>
    record [("type", .str "assign"), ("name", .str name), ("value", value.render d)]
  | .sum left right =>
    record [("type", .str "binary"), ("left", left.render d), ("operator", plus d), ("right", right.render d)]
  | .call callee arguments =>
    record [("type", .str "call"), ("callee", callee.render d),
      ("arguments", .list (renderExprs d arguments))]

/-- Records of expressions in a dialect. -/
def renderExprs (d : Dialect) : List Expr → List Datum
  | [] => []
  | e :: es => e.render d :: renderExprs d es

end

/-- The field of a part that may be left out. -/
def partField (d : Dialect) (key : String) : Option Expr → List (String × Datum)
  | none => []
  | some e => [(key, e.render d)]

mutual

/-- A record of a statement in a dialect. -/
def Stmt.render (d : Dialect) : Stmt → Datum
  | .expression e => record [("type", .str "expression"), ("expression", e.render d)]
  | .print e => record [("type", .str "print"), ("expression", e.render d)]
  | .var name initial =>
    record ([("type", .str "var"), ("name", .str name)] ++ partField d "initializer" initial)
  | .block body => record [("type", .str "block"), ("statements", .list (renderStmts d body))]
  | .branch condition yes no =>
    record ([("type", .str "if"), ("condition", condition.render d), ("then_branch", yes.render d)] ++ elseField d no)
  | .ret value => record ([("type", .str "return")] ++ partField d "value" value)

/-- The field of the second arm of a choice. -/
def elseField (d : Dialect) : Option Stmt → List (String × Datum)
  | none => []
  | some s => [("else_branch", s.render d)]

def renderStmts (d : Dialect) : List Stmt → List Datum
  | [] => []
  | s :: ss => s.render d :: renderStmts d ss

end

section Rendering

-- What it takes to look the fields of a record up.
attribute [local simp] HasType Expr.render Stmt.render partField elseField field_record field? List.lookup_cons
  Except.toOption

mutual

theorem Expr.render_writtenAs (d : Dialect) : (e : Expr) → e.WrittenAs d (e.render d)
  | .literal l => .literal (by simp) (by simp) (by simp)
  | .variable name => .variable (by simp) (by simp)
  | .assign name value =>
    .assign (by simp) (by simp) (by simp) (value.render_writtenAs d)
  | .sum left right =>
    .sum (by simp) (by simp) (by simp) (by simp)
      (left.render_writtenAs d) (right.render_writtenAs d) (isPlus_plus d)
  | .call callee arguments =>
    .call (by simp) (by simp) (by simp) (callee.render_writtenAs d)
      (renderExprs_writtenAs d arguments)

theorem renderExprs_writtenAs (d : Dialect) : (es : List Expr) → List.Forall₂ (Expr.WrittenAs d) es (renderExprs d es)
  | [] => .nil
  | e :: es => .cons (e.render_writtenAs d) (renderExprs_writtenAs d es)

end

theorem partField_writtenAs {d : Dialect} {r : Datum} {key : String} {e? : Option Expr}
    (h : field? r key = e?.map (Expr.render d)) : Option.Rel (Expr.WrittenAs d) e? (field? r key) := by
  rw [h]
  cases e? with
  | none => exact .none
  | some e => exact .some (e.render_writtenAs d)

mutual

theorem Stmt.render_writtenAs (d : Dialect) : (s : Stmt) → s.WrittenAs d (s.render d)
  | .expression e => .expression (by simp) (by simp) (e.render_writtenAs d)
  | .print e => .print (by simp) (by simp) (e.render_writtenAs d)
  | .var name initial => .var (by simp) (by simp) (partField_writtenAs (by cases initial <;> simp))
  | .block body => .block (by simp) (by simp) (renderStmts_writtenAs d body)
  | .branch condition yes no =>
    .branch (by simp) (by simp) (by simp) (condition.render_writtenAs d) (yes.render_writtenAs d)
      (elseField_writtenAs d condition yes no)
  | .ret value => .ret (by simp) (partField_writtenAs (by cases value <;> simp))

theorem elseField_writtenAs (d : Dialect) (condition : Expr) (yes : Stmt) : (no : Option Stmt) →
    Option.Rel (Stmt.WrittenAs d) no (field? ((Stmt.branch condition yes no).render d) "else_branch")
  | none => by simp
  | some s => by simpa using Option.Rel.some (s.render_writtenAs d)

theorem renderStmts_writtenAs (d : Dialect) : (ss : List Stmt) → List.Forall₂ (Stmt.WrittenAs d) ss (renderStmts d ss)
  | [] => .nil
  | s :: ss => .cons (s.render_writtenAs d) (renderStmts_writtenAs d ss)

end

end Rendering

/-! ## What a dialect does with a record -/

/-- The value of a part that may be left out. -/
def evaluatePart [Size.Room] (d : Dialect) (n : Nat) : Option Datum → Run Datum
  | some e => evaluate d n e
  | none => pure .null

/-- Carries out a part that may be left out. -/
def executePart [Size.Room] (d : Dialect) (n : Nat) : Option Datum → Run Datum
  | some s => execute d n s
  | none => pure .null

section Equations

variable {name : String} {a : Datum}

-- What it takes to look fields up.
attribute [local simp] evaluate execute nameOf itemsOf Datum.items exprKind stmtKind lift

variable [Size.Room] {d : Dialect} (n : Nat) {r : Datum}

theorem evaluate_literal {l : Literal} (hType : HasType r "literal") (hKind : field r "value_type" = .ok (l.mark d))
    (hValue : field r "value" = .ok l.payload) : evaluate d (n + 1) r = pure l.value := by
  simp [hType, hKind, hValue, l.literalValue_mark]

theorem evaluate_variable (hType : HasType r "variable") (hName : field r "name" = .ok (.str name)) :
    evaluate d (n + 1) r = lookup name := by
  simp [hType, hName]

theorem evaluate_assign {v : Datum} (hType : HasType r "assign") (hName : field r "name" = .ok (.str name))
    (hValue : field r "value" = .ok v) :
    evaluate d (n + 1) r = (do
      let v ← evaluate d n v
      assign name v
      return v) := by
  simp [hType, hName, hValue]

theorem evaluate_sum {b operator : Datum} (hType : HasType r "binary") (hLeft : field r "left" = .ok a)
    (hRight : field r "right" = .ok b) (hField : field r "operator" = .ok operator) (hPlus : IsPlus operator d) :
    evaluate d (n + 1) r = (do
      let left ← evaluate d n a
      let right ← evaluate d n b
      sum d left right) := by
  have hApply : ∀ left right, applyOperator d r left right = sum d left right := by
    intro left right
    cases d with
    | basic =>
      obtain ⟨kind, literal, line, rfl⟩ := hPlus
      simp [applyOperator, hField, lexemeOf]
    | closing =>
      obtain rfl : operator = .str "+" := hPlus
      simp [applyOperator, hField, Datum.eq]
  simp [hType, hLeft, hRight, hApply]

theorem evaluate_call {f : Datum} {args : List Datum} (hType : HasType r "call") (hCallee : field r "callee" = .ok f)
    (hArguments : field r "arguments" = .ok (.list args)) :
    evaluate d (n + 1) r = (do
      let callee ← evaluate d n f
      let values ← evaluateAll d n args
      call d n callee values) := by
  simp [hType, hCallee, hArguments]

/-- Where there is no function of the script to call, the closing dialect calls native ones. -/
theorem call_closing_value {t p : Datum} (hFunction : isTag .function t = false) (args : List Datum) :
    call .closing (n + 1) (.value t p) args =
      if isTag .builtin t then callNative p args else throw (.trouble .notCallable) := by
  simp [call, tagOf, payloadOf, hFunction]

theorem execute_expression (hType : HasType r "expression") (hField : field r "expression" = .ok a) :
    execute d (n + 1) r = evaluate d n a := by
  simp [hType, hField]

theorem execute_print (hType : HasType r "print") (hField : field r "expression" = .ok a) : execute d (n + 1) r = (do
      let v ← evaluate d n a
      let text ← textOf v
      Run.print (text ++ "\n")
      return .null) := by
  simp [hType, hField]

theorem execute_var (hType : HasType r "var") (hName : field r "name" = .ok (.str name)) : execute d (n + 1) r = (do
      let v ← evaluatePart d n (field? r "initializer")
      define name v
      return v) := by
  cases hPart : field? r "initializer" <;> simp [hType, hName, hPart, evaluatePart]

theorem execute_block {ss : List Datum} (hType : HasType r "block") (hField : field r "statements" = .ok (.list ss)) :
    execute d (n + 1) r = block d n (.list ss) := by
  simp [hType, hField]

theorem execute_branch {c y : Datum} (hType : HasType r "if") (hCondition : field r "condition" = .ok c)
    (hYes : field r "then_branch" = .ok y) :
    execute d (n + 1) r = (do
      let v ← evaluate d n c
      if ← isTrue v then execute d n y else executePart d n (field? r "else_branch")) := by
  cases hPart : field? r "else_branch" <;> simp [hType, hCondition, hYes, hPart, executePart]

theorem execute_ret (hType : HasType r "return") :
    execute d (n + 1) r = (do
      let v ← evaluatePart d n (field? r "value")
      throw (.returned v)) := by
  cases hPart : field? r "value" <;> simp [hType, hPart, evaluatePart]

end Equations

end Shared

end Scriptling.Script
