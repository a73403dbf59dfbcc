import Scriptling.Script.Machine

/-!
# Running scripts

A script is a list of records (see `Scriptling.Braced.Syntax` for the records of parsed scripts). Records may
be incomplete: a field is looked up when it is needed, and its absence is a fault at that time.

There are two dialects. In the basic one literals are read by the name of their kind, a loop runs until it is
left, `+` joins numbers or strings, and only native functions can be called. In the closing one a literal's tag
is taken as it is, a loop has a condition, `+` adds numbers, and a function of the script can be called in the
scope it names.

Each step down costs a unit of fuel.
-/

namespace Scriptling.Script

open Run

variable [Size.Room]

/-- The two dialects; only in the closing one can a script call its own functions. -/
inductive Dialect where
  | basic
  | closing
  deriving Repr, DecidableEq

/-! ## Records -/

def field (record : Datum) (key : String) : Except Fault Datum :=
  match record with
  | .dict entries =>
    match Datum.lookup? entries (.str key) with
    | some v => .ok v
    | none => .error (.plain .missingKey)
  | d => .error (.notSubscriptable d.typeName)

def field? (record : Datum) (key : String) : Option Datum := (field record key).toOption

def nameOf : Datum → Except Fault String
  | .str s => .ok s
  | _ => .error (.plain .wrongType)

def lexemeOf : Datum → Except Fault String
  | .token _ lexeme _ _ => .ok lexeme
  | d => .error (.missingAttribute d.typeName "lexeme")

def itemsOf (d : Datum) : Except Fault (List Datum) := d.items

inductive StmtKind where
  | expression
  | print
  | var
  | block
  | branch
  | loop
  | whileLoop
  | function
  | ret
  | unknown
  deriving Repr, DecidableEq

/-- The kind of statement of a dialect that a name stands for. -/
def stmtKind (d : Dialect) : Datum → StmtKind
  | .str "expression" => .expression
  | .str "print" => .print
  | .str "var" => .var
  | .str "block" => .block
  | .str "if" => .branch
  | .str "loop" => if d = .basic then .loop else .unknown
  | .str "while" => if d = .closing then .whileLoop else .unknown
  | .str "function" => .function
  | .str "return" => .ret
  | _ => .unknown

inductive ExprKind where
  | literal
  | variable
  | assign
  | binary
  | call
  | unknown
  deriving Repr, DecidableEq

/-- The kind of expression that a name stands for. -/
def exprKind : Datum → ExprKind
  | .str "literal" => .literal
  | .str "variable" => .variable
  | .str "assign" => .assign
  | .str "binary" => .binary
  | .str "call" => .call
  | _ => .unknown

/-! ## Functions of the machine -/

inductive Builtin where
  | print
  | len
  | input
  deriving Repr, DecidableEq

def Builtin.name : Builtin → String
  | print => "print"
  | len => "len"
  | input => "input"

def Builtin.all : List Builtin := [print, len, input]

def Builtin.run : Builtin → List Datum → Run Datum
  | print, args => do
    let texts ← args.mapM textOf
    Run.print (" ".intercalate texts ++ "\n")
    return .null
  | len, [v] => do
    let t ← lift (tagOf v)
    if isTag .string t || isTag .list t then
      let p := (← get).world.store.freeze (← lift (payloadOf v))
      return .tagged .number (.int (← lift p.length))
    else throw (.trouble .noLength)
  | len, args => throw (.trouble (.lengthOfMany args.length))
  | input, args => do
    if let v :: _ := args then Run.print (← textOf (← lift (payloadOf v)))
    let m ← get
    let (r, console) := m.world.console.readLine
    set { m with world := { m.world with console } }
    return .tagged .string (.str (← lift r))

def countDown (index : Nat) : Run Datum := do
  let m ← get
  match m.countdowns[index]? with
  | none => return .null
  | some c =>
    set { m with countdowns := m.countdowns.setIfInBounds index { c with left := c.left - 1 } }
    if c.left = 1 then throw .broken else return .null

def callNative (payload : Datum) (args : List Datum) : Run Datum :=
  match payload with
  | .builtin name =>
    match Builtin.all.find? (·.name == name) with
    | some b => b.run args
    | none => throw (.fault (.plain .wrongType))
  | .function name =>
    match Native.ofName? name with
    | some n => Run.native n args
    | none => throw (.fault (.plain .wrongType))
  | .object _ _ index => countDown index
  | _ => throw (.fault (.plain .wrongType))

/-! ## Expressions and statements -/

def literalValue (d : Dialect) (kind value : Except Fault Datum) : Except Fault Datum := do
  match d with
  | .closing => return .value (← kind) (← value)
  | .basic =>
    match ← kind with
    | .str "number" => return .tagged .number (.float (← (← value).toFloat))
    | .str "string" => return .tagged .string (← value)
    | .str "boolean" => return .tagged .boolean (← value)
    | _ => return .null

def sum (d : Dialect) (left right : Datum) : Run Datum := do
  let lt ← lift (tagOf left)
  let rt ← lift (tagOf right)
  let store := (← get).world.store
  let p := store.freeze (← lift (payloadOf left))
  let q := store.freeze (← lift (payloadOf right))
  if isTag .number lt && isTag .number rt then
    return .tagged .number (← lift (Datum.operate .add p q))
  match d with
  | .basic =>
    if isTag .string lt && isTag .string rt then
      return .tagged .string (← lift (Datum.operate .add p q))
    throw (.trouble .notAddable)
  | .closing => throw (.trouble (.notNumbers "+"))

def applyOperator (d : Dialect) (record left right : Datum) : Run Datum := do
  let operator ← lift (field record "operator")
  match d with
  | .basic =>
    let lexeme ← lift (lexemeOf operator)
    if lexeme = "+" then sum d left right else throw (.trouble (.unknownOperator lexeme))
  | .closing =>
    if operator.eq (.str "+") then sum d left right
    else throw (.trouble (.unknownExpression "binary"))

def scopeOf : Datum → Option Nat
  | .frame id => some id
  | _ => none

def bindParams (scope : Nat) : List Datum → List Datum → Run Unit
  | p :: ps, a :: as => do
    let name ← lift (nameOf p)
    modify fun m => { m with frames := m.frames.define scope name a }
    bindParams scope ps as
  | _, _ => pure ()

mutual

def evaluate (d : Dialect) : Nat → Datum → Run Datum
  | 0, _ => throw .outOfFuel
  | n + 1, e => do
    let kind ← lift (field e "type")
    match exprKind kind with
    | .literal => lift (literalValue d (field e "value_type") (field e "value"))
    | .variable => lookup (← lift (nameOf (← lift (field e "name"))))
    | .assign =>
      let v ← evaluate d n (← lift (field e "value"))
      assign (← lift (nameOf (← lift (field e "name")))) v
      return v
    | .binary =>
      let left ← evaluate d n (← lift (field e "left"))
      let right ← evaluate d n (← lift (field e "right"))
      applyOperator d e left right
    | .call =>
      let callee ← evaluate d n (← lift (field e "callee"))
      let args ← evaluateAll d n (← lift (itemsOf (← lift (field e "arguments"))))
      call d n callee args
    | .unknown => throw (.trouble (.unknownExpression kind.plainDisplay))

def evaluateAll (d : Dialect) : Nat → List Datum → Run (List Datum)
  | 0, _ => throw .outOfFuel
  | _ + 1, [] => return []
  | n + 1, e :: es => do
    let v ← evaluate d n e
    return v :: (← evaluateAll d n es)

def call (d : Dialect) : Nat → Datum → List Datum → Run Datum
  | 0, _, _ => throw .outOfFuel
  | n + 1, callee, args => do
    let tag ← lift (tagOf callee)
    let payload ← lift (payloadOf callee)
    if isTag .builtin tag then callNative payload args
    else if d = .basic then throw (.trouble .notFunction)
    else if !isTag .function tag then throw (.trouble .notCallable)
    else
      let params ← lift (itemsOf (← lift (field payload "params")))
      if args.length ≠ params.length then throw (.trouble (.arity params.length args.length))
      let scope ← newFrame (scopeOf (← lift (field payload "closure")))
      bindParams scope params args
      let body ← lift (field payload "body")
      tryCatch (within scope (executeAll d n (← lift (itemsOf body)) .null)) fun s =>
        match s with
        | .returned v => pure v
        | s => throw s

/-- Carries out a statement; its value is that of the last expression in it. -/
def execute (d : Dialect) : Nat → Datum → Run Datum
  | 0, _ => throw .outOfFuel
  | n + 1, s => do
    let kind ← lift (field s "type")
    match stmtKind d kind with
    | .expression => evaluate d n (← lift (field s "expression"))
    | .print =>
      let v ← evaluate d n (← lift (field s "expression"))
      Run.print ((← textOf v) ++ "\n")
      return .null
    | .var =>
      let v ← match field? s "initializer" with
        | some e => evaluate d n e
        | none => pure .null
      define (← lift (nameOf (← lift (field s "name")))) v
      return v
    | .block => block d n (← lift (field s "statements"))
    | .branch =>
      if ← isTrue (← evaluate d n (← lift (field s "condition"))) then
        execute d n (← lift (field s "then_branch"))
      else match field? s "else_branch" with
        | some other => execute d n other
        | none => return .null
    | .loop => loop d n s
    | .whileLoop => whileLoop d n s
    | .function =>
      let v := Datum.tagged .function s
      define (← lift (nameOf (← lift (field s "name")))) v
      return v
    | .ret =>
      let v ← match field? s "value" with
        | some e => evaluate d n e
        | none => pure .null
      throw (.returned v)
    | .unknown => throw (.trouble (.unknownStatement kind.plainDisplay))

/-- Carries out statements in a scope of their own. -/
def block (d : Dialect) : Nat → Datum → Run Datum
  | 0, _ => throw .outOfFuel
  | n + 1, statements => do
    let scope ← newFrame (some (← get).current)
    within scope do executeAll d n (← lift (itemsOf statements)) .null

/-- Carries out statements in order; the value is that of the last, or the one given. -/
def executeAll (d : Dialect) : Nat → List Datum → Datum → Run Datum
  | 0, _, _ => throw .outOfFuel
  | _ + 1, [], last => return last
  | n + 1, s :: ss, _ => do
    let v ← execute d n s
    executeAll d n ss v

/-- Carries out a body again and again until it is left. -/
def loop (d : Dialect) : Nat → Datum → Run Datum
  | 0, _ => throw .outOfFuel
  | n + 1, s => do
    let left ← tryCatch (do let _ ← block d n (← lift (field s "body")); pure false) fun signal =>
      match signal with
      | .broken => pure true
      | signal => throw signal
    if left then return .null else loop d n s

/-- Carries out a body as long as a condition holds. -/
def whileLoop (d : Dialect) : Nat → Datum → Run Datum
  | 0, _ => throw .outOfFuel
  | n + 1, s => do
    if ← isTrue (← evaluate d n (← lift (field s "condition"))) then
      let _ ← execute d n (← lift (field s "body"))
      whileLoop d n s
    else return .null

end

/-- Runs a script: the value of its last statement. A trouble ends it with a printed line and no value. -/
def interpret (d : Dialect) (fuel : Nat) (statements : List Datum) : Run Datum :=
  tryCatch (executeAll d fuel statements .none) fun s =>
    match s with
    | .trouble t => do
      Run.print ("Runtime error: " ++ t.message ++ "\n")
      return .none
    | s => throw s

namespace Machine

/-- A machine with the functions every script has. -/
def start (world : World) : Machine :=
  let globals := Builtin.all.foldl (fun (f : Frame) b =>
    f.define b.name (.tagged .builtin (.builtin b.name))) ⟨[], none⟩
  ⟨#[globals], 0, #[], world⟩

def withNatives (m : Machine) : Machine :=
  Native.all.foldl (fun m n =>
    { m with frames := m.frames.define 0 n.name (.tagged .builtin (.function n.name)) }) m

def withCountdown (m : Machine) (name : String) (count : Nat) : Machine :=
  let payload := Datum.object "function" name m.countdowns.size
  { m with
    frames := m.frames.define 0 name (.tagged .builtin payload)
    countdowns := m.countdowns.push ⟨name, count⟩ }

def globals (m : Machine) : List (String × Datum) := (m.frames[0]?.map (·.bindings)).getD []

/-- Whether two values are one and the same native function. -/
def sameNative : Datum → Datum → Bool
  | .value (.tag .builtin) (.builtin a), .value (.tag .builtin) (.builtin b)
  | .value (.tag .builtin) (.function a), .value (.tag .builtin) (.function b) => a == b
  | .value (.tag .builtin) (.object _ _ i), .value (.tag .builtin) (.object _ _ j) => i == j
  | _, _ => false

/-- The global bindings that are new or have another value than in an earlier state, with all their items. -/
def changed (before after : Machine) : List (String × Datum) :=
  (after.globals.filter fun (name, v) =>
    match before.globals.lookup name with
    | none => true
    | some old => !sameNative old v).map fun (name, v) => (name, after.world.store.freeze v)

end Machine

end Scriptling.Script
