import Scriptling.Proofs.Script.Parsed
import Scriptling.Proofs.Script.Restore

/-!
# The course of a script

A parsed script of the basic dialect acts on its machine by a few operations only. Its plan lays them out: the next
operation, and what follows each of its outcomes. Running the plan is running the script (`plans_run`), so that the
course of the plan from a state lists all that the script does there, in order and with the state at each time.

What each operation keeps is kept along every course (`Linked.invariant`); no proof about courses needs to look at
the forms of expressions and statements again.
-/

namespace Scriptling.Script

open Braced Run

/-! ## Operations -/

namespace Machine

/-- Goes into a new scope inside the current one. -/
def enter (m : Machine) : Machine := { m with frames := (m.frames.add (some m.current)).2, current := m.frames.size }

/-- Goes back to the scope around the current one. -/
def leave (m : Machine) : Machine := { m with current := (m.frames[m.current]?.bind (·.parent)).getD m.current }

end Machine

/-- An operation of a script on its machine. -/
inductive Op where
  | literal (kind : LiteralKind) (value : Datum)
  | lookup (name : String)
  | assign (name : String) (v : Datum)
  | declare (name : String) (v : Datum) (isConst : Bool)
  | function (name : String) (params : List Param) (result : TypeMark) (body : List Stmt)
  | sum (left right : Datum)
  | truth (v : Datum)
  | call (f : Datum) (args : List Datum)
  | enter
  | leave

/-- What an operation does. An operation that is not an expression has a value, too. -/
def Op.run [Size.Room] : Op → Run Datum
  | literal kind value => lift (literalValue .basic (.ok (.str kind.name)) (.ok value))
  | lookup name => Run.lookup name
  | assign name v => do
    Run.assign name v
    return v
  | declare name v _ => do
    Run.define name v
    return v
  | function name params result body => do
    let f := Datum.tagged .function (Stmt.function name params result body).toDatum
    Run.define name f
    return f
  | sum left right => Script.sum .basic left right
  | truth v => do return .tagged .boolean (.bool (← Run.isTrue v))
  -- no call takes more than this unit of fuel, since no function of a script can be called
  | call f args => Script.call .basic 1 f args
  | enter => do
    modify Machine.enter
    return .null
  | leave => do
    modify Machine.leave
    return .null

/-- An operation at its time: the state in which it is carried out. -/
structure Step where
  op : Op
  before : Machine

namespace Step

def outcome [Size.Room] (s : Step) : Except Signal Datum := (s.op.run.run s.before).1

def after [Size.Room] (s : Step) : Machine := (s.op.run.run s.before).2

end Step

/-! ## Plans -/

/-- What is to be done: an operation, with what follows each of its outcomes, or no more. -/
inductive Plan (α : Type) where
  | done (outcome : Except Signal α)
  | step (op : Op) (next : Except Signal Datum → Plan α)

namespace Plan

variable {α β : Type}

def run [Size.Room] : Plan α → Run α
  | done outcome => fun m => (outcome, m)
  | step op next => fun m => (next (op.run m).1).run (op.run m).2

/-- The operations of a plan that is carried out from a state. -/
def course [Size.Room] : Plan α → Machine → List Step
  | done _, _ => []
  | step op next, m => ⟨op, m⟩ :: (next (op.run m).1).course (op.run m).2

def fail (s : Signal) : Plan α := .done (.error s)

def op (o : Op) : Plan Datum := .step o .done

/-- Goes on after the end of a plan, however it ends. -/
def observe : Plan α → (Except Signal α → Plan β) → Plan β
  | done outcome, k => k outcome
  | step o next, k => step o fun r => (next r).observe k

/-- What follows a result; a signal ends the plan. -/
def onResult (f : α → Plan β) : Except Signal α → Plan β
  | .ok a => f a
  | .error s => fail s

def bind (p : Plan α) (f : α → Plan β) : Plan β := p.observe (onResult f)

/-- Carries a plan out in a scope of its own. -/
def inside (p : Plan α) : Plan α := .step .enter fun _ => p.observe fun r => .step .leave fun _ => .done r

theorem run_step [Size.Room] {o : Op} {next : Except Signal Datum → Plan α} {m m' : Machine}
    {outcome : Except Signal Datum} (h : o.run.run m = (outcome, m')) :
    (step o next).run.run m = (next outcome).run.run m' := by
  show (next (o.run.run m).1).run.run (o.run.run m).2 = _
  rw [h]

theorem run_observe [Size.Room] (p : Plan α) (k : Except Signal α → Plan β) (m : Machine) :
    (p.observe k).run.run m = (k (p.run.run m).1).run.run (p.run.run m).2 := by
  induction p generalizing m with
  | done outcome => rfl
  | step o next ih => exact ih _ _

@[simp] theorem run_fail [Size.Room] (s : Signal) : (fail s : Plan α).run = throw s := rfl

@[simp] theorem run_done_ok [Size.Room] (a : α) : (done (.ok a)).run = pure a := rfl

@[simp] theorem run_op [Size.Room] (o : Op) : (op o).run = o.run := rfl

@[simp] theorem run_bind [Size.Room] (p : Plan α) (f : α → Plan β) : (p.bind f).run = p.run >>= fun a => (f a).run := by
  funext m
  show (p.observe (onResult f)).run.run m = (p.run >>= fun a => (f a).run).run m
  rw [run_observe]
  rcases hp : p.run.run m with ⟨s | a, m'⟩
  · rw [run_bind_of_error hp]
    rfl
  · rw [run_bind_of_ok hp]
    rfl

/-- A plan that comes back to its scope can be left by going to the scope around it. -/
theorem run_inside [Size.Room] {p : Plan α} (h : Keeps Machine.Kept p.run) :
    p.inside.run = (do
      let scope ← newFrame (some (← get).current)
      within scope p.run) := by
  funext m
  have hKept : m.enter.Kept (p.run.run m.enter).2 := h m.enter m.enter (.refl _)
  have hScope : m.enter.frames[m.frames.size]? = some ⟨[], some m.current⟩ := Array.getElem?_push_size
  obtain ⟨f, hf, hParent⟩ := hKept.frames _ _ hScope
  show (p.observe _).run.run m.enter = ((p.run.run m.enter).1, { (p.run.run m.enter).2 with current := m.current })
  rw [run_observe]
  refine Prod.ext rfl ?_
  show Machine.leave _ = _
  unfold Machine.leave
  rw [hKept.current, show m.enter.current = m.frames.size from rfl, hf, Option.bind_some, hParent, Option.getD_some]

end Plan

/-! ## Plans of scripts -/

namespace Plan

/-- Nothing in the place of a part is a fault. -/
def nothing {α : Type} (n : Nat) : Plan α := fail (if n = 0 then .outOfFuel else .fault (.notSubscriptable "NoneType"))

def ofCall (n : Nat) (f : Datum) (args : List Datum) : Plan Datum :=
  if n = 0 then fail .outOfFuel else op (.call f args)

mutual

def ofExpr : Nat → Expr → Plan Datum
  | 0, _ => fail .outOfFuel
  | _ + 1, .literal kind value => op (.literal kind value)
  | _ + 1, .variable name => op (.lookup name)
  | n + 1, .assign name value => (ofExpr n value).bind fun v => op (.assign name v)
  | n + 1, .binary l operator r =>
    (ofExpr n l).bind fun left => (ofExpr n r).bind fun right =>
      if operator.lexeme = "+" then op (.sum left right)
      else fail (.trouble (.unknownOperator operator.lexeme))
  | n + 1, .call callee arguments _ =>
    (ofExpr n callee).bind fun f => (ofArguments n arguments).bind fun args => ofCall n f args
  | _ + 1, .logical .. => fail (.trouble (.unknownExpression "logical"))
  | _ + 1, .unary .. => fail (.trouble (.unknownExpression "unary"))
  | _ + 1, .grouping _ => fail (.trouble (.unknownExpression "grouping"))

def ofArguments : Nat → List Expr → Plan (List Datum)
  | 0, _ => fail .outOfFuel
  | _ + 1, [] => .done (.ok [])
  | n + 1, e :: es => (ofExpr n e).bind fun v => (ofArguments n es).bind fun vs => .done (.ok (v :: vs))

end

/-- The plan of an expression that may be left out. -/
def ofOptional (n : Nat) : Option Expr → Plan Datum
  | none => nothing n
  | some e => ofExpr n e

mutual

def ofStmt : Nat → Stmt → Plan Datum
  | 0, _ => fail .outOfFuel
  | n + 1, .expression e => ofExpr n e
  | n + 1, .var name _ initial isConst => (ofOptional n initial).bind fun v => op (.declare name v isConst)
  | n + 1, .block body => ofBlock n body
  | n + 1, .branch condition yes none =>
    (ofExpr n condition).bind fun c => (op (.truth c)).bind fun t =>
      if isTruthy t then ofStmt n yes else nothing n
  | n + 1, .branch condition yes (some no) =>
    (ofExpr n condition).bind fun c => (op (.truth c)).bind fun t =>
      if isTruthy t then ofStmt n yes else ofStmt n no
  | n + 1, .loop body => ofLoop n body
  | _ + 1, .function name params result body => op (.function name params result body)
  | n + 1, .ret _ value => (ofOptional n value).bind fun v => fail (.returned v)
  | _ + 1, .struct .. => fail (.trouble (.unknownStatement "struct"))

/-- The plan of statements in a scope of their own. -/
def ofBlock : Nat → List Stmt → Plan Datum
  | 0, _ => fail .outOfFuel
  | n + 1, body => (ofStmts n body .null).inside

def ofStmts : Nat → List Stmt → Datum → Plan Datum
  | 0, _, _ => fail .outOfFuel
  | _ + 1, [], last => .done (.ok last)
  | n + 1, s :: ss, _ => (ofStmt n s).bind fun v => ofStmts n ss v

def ofLoop : Nat → List Stmt → Plan Datum
  | 0, _ => fail .outOfFuel
  | n + 1, body => (ofBlock n body).observe fun
    | .ok _ => ofLoop n body
    | .error .broken => .done (.ok .null)
    | .error s => fail s

end

end Plan

/-! ## Running plans is running scripts -/

/-- With this fuel, the plan of each part of a script runs as the part does. -/
structure PlansRun [Size.Room] (n : Nat) : Prop where
  expr : ∀ e, (Plan.ofExpr n e).run = evaluate .basic n e.toDatum
  arguments : ∀ es, (Plan.ofArguments n es).run = evaluateAll .basic n (exprData es)
  stmt : ∀ s, (Plan.ofStmt n s).run = execute .basic n s.toDatum
  block : ∀ ss, (Plan.ofBlock n ss).run = block .basic n (.list (stmtData ss))
  stmts : ∀ ss last, (Plan.ofStmts n ss last).run = executeAll .basic n (stmtData ss) last
  loop : ∀ ss, (Plan.ofLoop n ss).run = loop .basic n (Stmt.loop ss).toDatum

theorem run_ofCall [Size.Room] (n : Nat) (f : Datum) (args : List Datum) :
    (Plan.ofCall n f args).run = call .basic n f args := by
  cases n with
  | zero => rfl
  | succ n =>
    show call .basic 1 f args = _
    simp only [call, if_true]

theorem run_nothing_evaluate [Size.Room] (n : Nat) : (Plan.nothing n).run = evaluate .basic n .none := by
  cases n with
  | zero => rfl
  | succ n => rw [evaluate_none]; rfl

theorem run_nothing_execute [Size.Room] (n : Nat) : (Plan.nothing n).run = execute .basic n .none := by
  cases n with
  | zero => rfl
  | succ n => rw [execute_none]; rfl

namespace PlansRun

variable [Size.Room] {n : Nat} (h : PlansRun n)

include h

theorem optional (o : Option Expr) : (Plan.ofOptional n o).run = evaluate .basic n (optionalDatum o) := by
  cases o with
  | none => exact run_nothing_evaluate n
  | some e => exact h.expr e

theorem expr_succ (e : Expr) : (Plan.ofExpr (n + 1) e).run = evaluate .basic (n + 1) e.toDatum := by
  match e with
  | .literal kind value => rw [evaluate_literal]; rfl
  | .variable name => rw [evaluate_variable]; rfl
  | .assign name value => simp [Plan.ofExpr, evaluate_assign, h.expr, Op.run]
  | .binary l operator r =>
    simp only [Plan.ofExpr, evaluate_binary, Plan.run_bind, h.expr]
    congr 2
    funext left
    congr 1
    funext right
    split <;> rfl
  | .call callee arguments paren =>
    simp only [Plan.ofExpr, evaluate_call, Plan.run_bind, h.expr, h.arguments, run_ofCall]
  | .logical .. => rw [evaluate_logical]; rfl
  | .unary .. => rw [evaluate_unary]; rfl
  | .grouping _ => rw [evaluate_grouping]; rfl

theorem arguments_succ (es : List Expr) :
    (Plan.ofArguments (n + 1) es).run = evaluateAll .basic (n + 1) (exprData es) := by
  cases es with
  | nil => rfl
  | cons e es => simp [Plan.ofArguments, exprData, evaluateAll, h.expr, h.arguments]

theorem branch_succ (condition : Expr) (yes : Stmt) {no : Option Stmt} {other : Plan Datum}
    (hOther : other.run = execute .basic n (elseDatum no)) :
    ((Plan.ofExpr n condition).bind fun c => (Plan.op (.truth c)).bind fun t =>
      if isTruthy t then Plan.ofStmt n yes else other).run =
      execute .basic (n + 1) (Stmt.branch condition yes no).toDatum := by
  simp only [execute_branch, Plan.run_bind, Plan.run_op, Op.run, h.expr, bind_assoc, pure_bind]
  congr 1
  funext c
  congr 1
  funext b
  cases b with
  | true => exact h.stmt yes
  | false => exact hOther

theorem stmt_succ (s : Stmt) : (Plan.ofStmt (n + 1) s).run = execute .basic (n + 1) s.toDatum := by
  cases s with
  | expression e => rw [execute_expression]; exact h.expr e
  | var name type initial isConst => simp [Plan.ofStmt, execute_var, h.optional, Op.run]
  | block body => rw [execute_block]; exact h.block body
  | branch condition yes no =>
    cases no with
    | none => exact h.branch_succ condition yes (run_nothing_execute n)
    | some no => exact h.branch_succ condition yes (h.stmt no)
  | loop body => rw [execute_loop]; exact h.loop body
  | function name params result body => rw [execute_function]; rfl
  | ret keyword value => simp [Plan.ofStmt, execute_ret, h.optional]
  | struct name fields => rw [execute_struct]; rfl

theorem block_succ (ss : List Stmt) :
    (Plan.ofBlock (n + 1) ss).run = Script.block .basic (n + 1) (.list (stmtData ss)) := by
  have hKept : Keeps Machine.Kept (Plan.ofStmts n ss .null).run := by
    rw [h.stmts]
    exact (runs_restore .basic n).executeAll _ _
  rw [block_list, ← h.stmts]
  exact Plan.run_inside hKept

theorem stmts_succ (ss : List Stmt) (last : Datum) :
    (Plan.ofStmts (n + 1) ss last).run = executeAll .basic (n + 1) (stmtData ss) last := by
  cases ss with
  | nil => rfl
  | cons s ss => simp [Plan.ofStmts, stmtData, executeAll, h.stmt, h.stmts]

theorem loop_succ (ss : List Stmt) :
    (Plan.ofLoop (n + 1) ss).run = Script.loop .basic (n + 1) (Stmt.loop ss).toDatum := by
  funext m
  show ((Plan.ofBlock n ss).observe _).run.run m = (Script.loop .basic (n + 1) (Stmt.loop ss).toDatum).run m
  rw [Plan.run_observe, h.block, loop_body]
  rcases hTurn : (Script.block .basic n (.list (stmtData ss))).run m with ⟨s | v, m'⟩
  · cases s with
    | broken => rw [run_bind_of_ok (run_tryCatch_of_error (run_bind_of_error hTurn))]; rfl
    | fault | trouble | returned | outOfFuel =>
      rw [run_bind_of_error (run_tryCatch_of_error (run_bind_of_error hTurn))]; rfl
  · have hLeft : (do
        let _ ← Script.block .basic n (.list (stmtData ss))
        pure false : Run Bool).run m = (.ok false, m') := run_bind_of_ok hTurn
    rw [run_bind_of_ok (run_tryCatch_of_ok hLeft)]
    show (Plan.ofLoop n ss).run.run m' = _
    rw [h.loop]
    rfl

end PlansRun

/-- **Plans run as their scripts.** Every part of a parsed script does what its plan says, from every state. -/
theorem plans_run [Size.Room] (n : Nat) : PlansRun n := by
  induction n with
  | zero => constructor <;> intros <;> rfl
  | succ n ih => exact ⟨ih.expr_succ, ih.arguments_succ, ih.stmt_succ, ih.block_succ, ih.stmts_succ, ih.loop_succ⟩

/-! ## Steps in order -/

/-- The steps follow one another from a first state to a last one. -/
inductive Linked [Size.Room] : Machine → List Step → Machine → Prop where
  | nil {m} : Linked m [] m
  | cons {s steps m} : Linked s.after steps m → Linked s.before (s :: steps) m

theorem Plan.linked_course [Size.Room] {α : Type} (p : Plan α) (m : Machine) :
    Linked m (p.course m) (p.run.run m).2 := by
  induction p generalizing m with
  | done outcome => exact .nil
  | step o next ih => exact .cons (s := ⟨o, m⟩) (ih _ _)

namespace Linked

variable {m m' : Machine} {steps : List Step}

theorem split [Size.Room] {past rest : List Step} {s : Step} (h : Linked m (past ++ s :: rest) m') :
    Linked m past s.before ∧ Linked s.after rest m' := by
  induction past generalizing m with
  | nil =>
    cases h with
    | cons hRest => exact ⟨.nil, hRest⟩
  | cons t past ih =>
    cases h with
    | cons hRest => exact ⟨.cons (ih hRest).1, (ih hRest).2⟩

/-- What each of the given steps hands on to the state after it is handed on by several. -/
theorem onward [Size.Room] {J : List Step → Machine → Prop}
    (hStep : ∀ past s rest, steps = past ++ s :: rest → J past s.before → J (past ++ [s]) s.after)
    {next : List Step} (h : Linked m next m') {past rest : List Step} (hSteps : steps = past ++ (next ++ rest))
    (hPast : J past m) : J (past ++ next) m' := by
  induction h generalizing past with
  | nil => rwa [List.append_nil]
  | @cons s next m' _ ih =>
    rw [List.append_cons]
    refine ih ?_ (hStep past s (next ++ rest) hSteps hPast)
    rw [hSteps, List.cons_append, List.append_cons]

/-- What holds at first, and is handed on by each step to the state after it, holds before every step and at the
end. It may refer to the steps of the past. -/
theorem invariant [Size.Room] {J : List Step → Machine → Prop} (h : Linked m steps m') (hFirst : J [] m)
    (hStep : ∀ past s rest, steps = past ++ s :: rest → J past s.before → J (past ++ [s]) s.after) :
    (∀ past s rest, steps = past ++ s :: rest → J past s.before) ∧ J steps m' := by
  have hAll : steps = [] ++ (steps ++ []) := by simp
  refine ⟨fun past s rest hSteps => ?_, h.onward hStep hAll hFirst⟩
  subst hSteps
  exact h.split.1.onward hStep rfl hFirst

end Linked

end Scriptling.Script
