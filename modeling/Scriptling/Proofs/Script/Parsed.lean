import Scriptling.Braced.Syntax
import Scriptling.Script.Run

/-!
# Runs of parsed scripts

What the basic dialect does with the record of each form of expression and statement. A record has a fixed
set of keys, so each look-up is decided by the form alone: what remains is the run of the parts.
-/

namespace Scriptling.Script

open Braced Run Stmt

variable (name : String)

theorem lookup?_entries (fields : List (String × Datum)) (key : String) :
    Datum.lookup? (fields.map fun (k, v) => (.str k, v)) (.str key) = fields.lookup key := by
  induction fields with
  | nil => rfl
  | cons entry fields ih =>
    obtain ⟨k, v⟩ := entry
    have hEq : Datum.eq (.str k) (.str key) = (key == k) := by
      rw [Datum.eq, Bool.beq_comm]
    simp only [Datum.lookup?] at ih
    simp only [Datum.lookup?, List.map_cons, List.find?_cons, hEq, List.lookup_cons]
    cases key == k with
    | true => rfl
    | false => exact ih

/-- A field of a record is looked up by its key. -/
theorem field_record (fields : List (String × Datum)) (key : String) :
    field (record fields) key = ((fields.lookup key).map Except.ok).getD (.error (.plain .missingKey)) := by
  simp only [field, record, lookup?_entries]
  cases fields.lookup key <;> rfl

theorem stmtData_eq_map (ss : List Stmt) : stmtData ss = ss.map toDatum := by
  induction ss with
  | nil => rfl
  | cons s ss ih => rw [stmtData, ih, List.map_cons]

section Equations

-- What it takes to open a record and its parts.
attribute [local simp] evaluate execute call block Expr.toDatum toDatum field? field_record
  List.lookup_cons Except.toOption exprKind stmtKind nameOf itemsOf Datum.items tagOf payloadOf lift

/-! ## Values -/

theorem isTag_iff {t u : ValueTag} : isTag t (.tag u) = true ↔ u = t := by
  show (t == u) = true ↔ u = t
  rw [beq_iff_eq, eq_comm]

theorem isTrue_value (t p : Datum) :
    Run.isTrue (.value t p) = (do
      let store := (← get).world.store
      return isTruthy (.value t (store.freeze p))) := by
  simp [Run.isTrue]

theorem len_value (t p : Datum) :
    Builtin.len.run [.value t p] =
      (if isTag .string t || isTag .list t then do
        let store := (← get).world.store
        return .tagged .number (.int (← lift (store.freeze p).length))
      else throw (.trouble .noLength)) := by
  simp [Builtin.run]

/-- What `input` does once it has printed its prompt. -/
def readInput : Run Datum := do
  let m ← get
  let (r, console) := m.world.console.readLine
  set { m with world := { m.world with console } }
  return .tagged .string (.str (← lift r))

theorem input_prompt (t p : Datum) (args : List Datum) :
    Builtin.input.run (.value t p :: args) = (do
      let text ← textOf p
      Run.print text
      readInput) := by
  simp [Builtin.run, readInput]

theorem input_plain : Builtin.input.run [] = readInput := by
  simp [Builtin.run, readInput]

variable [Size.Room] (n : Nat)

/-! ## Expressions -/

theorem evaluate_variable : evaluate .basic (n + 1) (Expr.variable name).toDatum = lookup name := by
  simp

theorem evaluate_assign (value : Expr) :
    evaluate .basic (n + 1) (Expr.assign name value).toDatum = (do
      let v ← evaluate .basic n value.toDatum
      assign name v
      return v) := by
  simp

theorem evaluate_binary (l r : Expr) (op : Token) :
    evaluate .basic (n + 1) (Expr.binary l op r).toDatum = (do
      let left ← evaluate .basic n l.toDatum
      let right ← evaluate .basic n r.toDatum
      if op.lexeme = "+" then sum .basic left right
      else throw (.trouble (.unknownOperator op.lexeme))) := by
  simp [applyOperator, lexemeOf, Token.toDatum]

theorem evaluate_call (callee : Expr) (arguments : List Expr) (paren : Token) :
    evaluate .basic (n + 1) (Expr.call callee arguments paren).toDatum = (do
      let f ← evaluate .basic n callee.toDatum
      let args ← evaluateAll .basic n (exprData arguments)
      call .basic n f args) := by
  simp

theorem evaluate_literal (kind : LiteralKind) (value : Datum) :
    evaluate .basic (n + 1) (Expr.literal kind value).toDatum =
      lift (literalValue .basic (.ok (.str kind.name)) (.ok value)) := by
  simp

theorem evaluate_logical (l r : Expr) (op : Token) :
    evaluate .basic (n + 1) (Expr.logical l op r).toDatum = throw (.trouble (.unknownExpression "logical")) := by
  simp [Datum.plainDisplay]

theorem evaluate_unary (op : Token) (r : Expr) :
    evaluate .basic (n + 1) (Expr.unary op r).toDatum = throw (.trouble (.unknownExpression "unary")) := by
  simp [Datum.plainDisplay]

theorem evaluate_grouping (inner : Expr) :
    evaluate .basic (n + 1) (Expr.grouping inner).toDatum = throw (.trouble (.unknownExpression "grouping")) := by
  simp [Datum.plainDisplay]

/-- Nothing in the place of an expression is a fault. -/
theorem evaluate_none : evaluate .basic (n + 1) .none = throw (.fault (.notSubscriptable "NoneType")) := by
  simp [field, Datum.typeName]

/-- Only functions that come with the machine can be called. -/
theorem call_value (tag payload : Datum) (args : List Datum) :
    call .basic (n + 1) (.value tag payload) args =
      if isTag .builtin tag then callNative payload args else throw (.trouble .notFunction) := by
  simp

theorem callNative_builtin (b : Builtin) (args : List Datum) : callNative (.builtin b.name) args = b.run args := by
  cases b <;> rfl

theorem sum_values (t p u q : Datum) :
    sum .basic (.value t p) (.value u q) = (do
      let store := (← get).world.store
      if isTag .number t && isTag .number u then
        return .tagged .number (← lift (Datum.operate .add (store.freeze p) (store.freeze q)))
      else if isTag .string t && isTag .string u then
        return .tagged .string (← lift (Datum.operate .add (store.freeze p) (store.freeze q)))
      else throw (.trouble .notAddable)) := by
  simp [sum]

/-! ## Statements -/

theorem execute_expression (e : Expr) :
    execute .basic (n + 1) (expression e).toDatum = evaluate .basic n e.toDatum := by
  simp

theorem execute_var (type : TypeMark) (initial : Option Expr) (isConst : Bool) :
    execute .basic (n + 1) (var name type initial isConst).toDatum = (do
      let v ← evaluate .basic n (optionalDatum initial)
      define name v
      return v) := by
  simp

theorem execute_block (body : List Stmt) :
    execute .basic (n + 1) (Stmt.block body).toDatum = block .basic n (.list (stmtData body)) := by
  simp

theorem execute_branch (condition : Expr) (yes : Stmt) (no : Option Stmt) :
    execute .basic (n + 1) (branch condition yes no).toDatum = (do
      let c ← evaluate .basic n condition.toDatum
      if ← isTrue c then execute .basic n yes.toDatum else execute .basic n (elseDatum no)) := by
  simp

theorem execute_loop (body : List Stmt) :
    execute .basic (n + 1) (Stmt.loop body).toDatum = loop .basic n (Stmt.loop body).toDatum := by
  simp

theorem execute_function (params : List Param) (result : TypeMark) (body : List Stmt) :
    execute .basic (n + 1) (function name params result body).toDatum = (do
      let f := Datum.tagged .function (function name params result body).toDatum
      define name f
      return f) := by
  simp

theorem execute_ret (keyword : Token) (value : Option Expr) :
    execute .basic (n + 1) (ret keyword value).toDatum = (do
      let v ← evaluate .basic n (optionalDatum value)
      throw (.returned v)) := by
  simp

theorem execute_struct (fields : List Field) :
    execute .basic (n + 1) (struct name fields).toDatum = throw (.trouble (.unknownStatement "struct")) := by
  simp [Datum.plainDisplay]

/-- Nothing in the place of a statement is a fault. -/
theorem execute_none : execute .basic (n + 1) .none = throw (.fault (.notSubscriptable "NoneType")) := by
  simp [field, Datum.typeName]

theorem block_list (d : Dialect) (ss : List Datum) :
    block d (n + 1) (.list ss) = (do
      let scope ← newFrame (some (← get).current)
      within scope (executeAll d n ss .null)) := by
  simp

theorem loop_body (body : List Stmt) :
    loop .basic (n + 1) (Stmt.loop body).toDatum = (do
      let left ← tryCatch (do let _ ← block .basic n (.list (stmtData body)); pure false) fun signal =>
        match signal with
        | .broken => pure true
        | signal => throw signal
      if left then return .null else loop .basic n (Stmt.loop body).toDatum) := by
  have hBody : field (Stmt.loop body).toDatum "body" = .ok (.list (stmtData body)) := by
    simp
  rw [loop, hBody]
  rfl

end Equations

end Scriptling.Script
