import Scriptling.Datum.Loose
import Scriptling.Walk.Object

/-!
# Running trees

Evaluating expressions and executing statements. A variable is read and assigned at the distance that its node
carries, and among the global ones if the node carries none. Each step down costs a unit of fuel.
-/

namespace Scriptling.Walk

open Run Builtin.Act Scope.Action

variable [Size.Room] [Host]

/-- A value with all its cells replaced by what they hold. -/
def deep (d : Datum) : Run Datum := act (Builtin.Act.deep d)

def className : Node → Run String
  | .node cls _ _ => return cls
  | .token .. => return "Token"
  | .list _ => return "list"
  | .value d => act (typeName d)

/-- Whether a part counts as present: nothing, zero and empty things do not. -/
def isPresent : Node → Run Bool
  | .list items => return !items.isEmpty
  | .value d => act (Builtin.truth d)
  | _ => return true

def holds (d : Datum) : Run Bool := return (← act (look d)).isTrue

/-- An operator on numbers or sequences; the remainder of a text fills a template. -/
def arithmetic (op : Datum.Operator) (a b : Datum) : Run Datum := do
  let x ← act (look a)
  let y ← act (look b)
  let filling ← deep b
  match op, Datum.interpolate? x filling with
  | .mod, some filled =>
    -- a text asks the value that fills it for its items
    if reachesBehind filling then detour (Host.call (.method a "__mod__") [b]) else act do keep (← lift filled)
  | op, _ => act do keep (← lift (Datum.operate op x y))

def ordered (r : Datum.Relation) (a b : Datum) : Run Datum := do
  let x ← deep a
  let y ← deep b
  return .bool (← act (lift (Datum.relate r x y)))

/-- Whether two values count as equal. A shared collection is equal to itself. -/
def equal (a b : Datum) : Run Bool := do
  match a, b with
  | .cell i, .cell j => if i = j then return true else decideEqual
  | _, _ => decideEqual
where
  decideEqual : Run Bool := do
    let x ← deep a
    let y ← deep b
    act (lift (Datum.looselyEq x y))

/-- An operator on two values, by the kind of its token. -/
def binary (kind : String) (a b : Datum) : Run Datum := do
  match kind with
  | "TokenType.PLUS" => arithmetic .add a b
  | "TokenType.MINUS" => arithmetic .sub a b
  | "TokenType.STAR" => arithmetic .mul a b
  | "TokenType.SLASH" => arithmetic .div a b
  | "TokenType.PERCENT" => arithmetic .mod a b
  | "TokenType.CARET" => arithmetic .pow a b
  | "TokenType.GREATER" => ordered .greater a b
  | "TokenType.GREATER_EQUAL" => ordered .greaterEqual a b
  | "TokenType.LESS" => ordered .less a b
  | "TokenType.LESS_EQUAL" => ordered .lessEqual a b
  | "TokenType.EQUAL_EQUAL" => return .bool (← equal a b)
  | "TokenType.BANG_EQUAL" => return .bool !(← equal a b)
  | kind => throw (.objection (.unknownOperator kind))

def operatorKind (n : Node) : Run String := do
  match ← needField (← needField n "operator") "type" with
  | .value d => act (display d)
  | n => className n

/-- The value of a variable: at its distance, or a global one. -/
def readVariable (expr : Node) : Run Datum := do
  let name ← needField expr "name"
  match expr.distance with
  | some distance => do
    let name ← lexemeOf name
    onScopes (lookupAt (← get).current distance name)
  | none => do onScopes (lookup 0 (← lexemeOf name))

/-- Assigns to a variable: at the distance of its name, or to a global one. A token cannot be asked for a distance,
nor can anything else that is no key. -/
def assignVariable (name : Node) (v : Datum) : Run Unit := do
  match name with
  | .token .. | .list _ => wrongType
  | .value d =>
    if (← deep d).isHashable then fault (.plain .missingAttribute) else wrongType
  | .node .. =>
    let lexeme ← lexemeOf name
    match name.distance with
    | some distance => do onScopes (assignAt (← get).current distance lexeme v)
    | none => onScopes (assign 0 lexeme v false)

/-- A property of a value; one that is not there is a name that nothing is known of. -/
def readProperty (d : Datum) (name : String) : Run Datum := do
  match ← propertyOf? d name with
  | some v => return v
  | none => fault (.plain .unknownName)

/-- Evaluates an expression, whatever its node holds. -/
def evaluate : Nat → Node → Run Datum
  | 0, _ => throw .outOfFuel
  | fuel + 1, n => do
    match n.exprForm? with
    | none => throw (.objection (.unsupportedExpression (← className n)))
    | some .literal => return (← needField n "value").toDatum
    | some .name => readVariable n
    | some .assign =>
      let v ← evaluate fuel (← needField n "value")
      let target ← needField n "target"
      match target with
      | .node "VariableExpr" _ _ => assignVariable (← needField target "name") v
      | .node "GetExpr" _ _ => do
        let self ← evaluate fuel (← needField target "obj")
        setPropertyOf self (← lexemeOf (← needField target "name")) v
      | _ => throw (.objection .invalidTarget)
      return v
    | some .binary =>
      let a ← evaluate fuel (← needField n "left")
      let b ← evaluate fuel (← needField n "right")
      binary (← operatorKind n) a b
    | some .logical =>
      let a ← evaluate fuel (← needField n "left")
      let isOr := (← operatorKind n) == "TokenType.OR"
      if (← holds a) == isOr then return a
      evaluate fuel (← needField n "right")
    | some .unary =>
      let a ← evaluate fuel (← needField n "right")
      match ← operatorKind n with
      | "TokenType.MINUS" => do
        let x ← act (Builtin.toFloat a)
        act (lift x.negate)
      | "TokenType.BANG" => return .bool !(← holds a)
      | _ => do throw (.objection (.unknownOperator (← lexemeOf (← needField n "operator"))))
    | some .call =>
      let f ← evaluate fuel (← needField n "callee")
      let args ← (← partsOf (← needField n "arguments")).mapM (evaluate fuel)
      if f.isCallable then callValue n f args else throw (.objection .notCallable)
    | some .property =>
      let self ← evaluate fuel (← needField n "obj")
      readProperty self (← lexemeOf (← needField n "name"))

/-- Repeats a turn while a condition holds. A turn may leave the loop or begin the next turn. -/
def repeatWhile (condition : Run Bool) (turn : Run Unit) : Nat → Run Unit
  | 0 => throw .outOfFuel
  | fuel + 1 => do
    if ← condition then
      let goOn ← tryCatch (do turn; return true) fun
        | .continued => return true
        | .broken => return false
        | other => throw other
      if goOn then repeatWhile condition turn fuel

/-- The scope with which a declaration marks its variable. -/
def markOf (n : Node) : Run Scope.ScopeMark := do
  match n with
  | .value (.bool b) => return .flag b
  | _ => wrongType

/-- Executes a statement, whatever its node holds. -/
def execute : Nat → Node → Run Unit
  | 0, _ => throw .outOfFuel
  | fuel + 1, n => do
    match n.stmtForm? with
    | none => throw (.objection (.unsupportedStatement (← className n)))
    | some .expression =>
      let _ ← evaluate fuel (← needField n "expression")
    | some .print =>
      let texts ← (← partsOf (← needField n "expressions")).mapM fun e => do
        act (display (← evaluate fuel e))
      print (" ".intercalate texts ++ "\n")
    | some .declaration =>
      let initializer ← needField n "initializer"
      let v ← if ← isPresent initializer then evaluate fuel initializer else pure .none
      let name ← lexemeOf (← needField n "name")
      let mark ← markOf (← needField n "is_constant")
      onScopes (define (← get).current name v mark false)
    | some .block =>
      let body ← needField n "statements"
      let env ← child (← get).current
      inside env do (← partsOf body).forM (execute fuel)
    | some .blockInside => wrongType
    | some .branch =>
      if ← holds (← evaluate fuel (← needField n "condition")) then
        execute fuel (← needField n "then_branch")
      else
        let other ← needField n "else_branch"
        if ← isPresent other then execute fuel other
    | some .whileLoop =>
      let condition : Run Bool := do holds (← evaluate fuel (← needField n "condition"))
      let turn : Run Unit := do execute fuel (← needField n "body")
      repeatWhile condition turn fuel
    | some .function =>
      let closure := (← get).current
      let name ← lexemeOf (← needField n "name")
      let f ← newFunction ⟨name, n, closure, false, []⟩
      onScopes (define closure name f (.kind .local) false)
    | some .ret =>
      let e ← needField n "value"
      let v ← if ← isPresent e then evaluate fuel e else pure .none
      throw (.returned v)
    | some .leave => throw .broken
    | some .again => throw .continued

def runtimeMessage? : Signal → Option String
  | .objection o => some o.message
  | .scope e => if e.kind == .runtime then e.message? else none
  | _ => none

/-- Executes statements one after the other. A failure at run time is told on the error output and ends them. -/
def interpret (fuel : Nat) (statements : Node) : Run Unit :=
  tryCatch (do (← partsOf statements).forM (execute fuel)) fun signal =>
    match runtimeMessage? signal with
    | some message => modify fun m =>
      { m with world := { m.world with console := m.world.console.printError ("Runtime error: " ++ message) } }
    | none => throw signal

end Scriptling.Walk
