import Scriptling.Braced.Token

/-!
# Parsers over tokens

A parser reads a list of tokens from its front. It ends in one of four ways: with a result, with a failure
that it has complained about, by running off the end of a list that has no end token, or without fuel.
In any case it says what is left and which complaints it made.
-/

namespace Scriptling.Braced

/-- What parsing complains about: something expected or forbidden. -/
inductive Complaint where
  | functionName
  | functionOpen
  | tooManyParameters
  | parameterName
  | parametersClose
  | functionBody
  | structName
  | structOpen
  | structClose
  | fieldName
  | fieldColon
  | fieldEnd
  | typeName
  | variableName
  | variableEnd
  | ifOpen
  | ifClose
  | loopOpen
  | returnEnd
  | blockClose
  | expressionEnd
  | assignmentTarget
  | tooManyArguments
  | argumentsClose
  | groupingClose
  | expression
  deriving Repr, DecidableEq

def Complaint.message : Complaint → String
  | functionName => "Expect function name."
  | functionOpen => "Expect '(' after function name."
  | tooManyParameters => "Can't have more than 255 parameters."
  | parameterName => "Expect parameter name."
  | parametersClose => "Expect ')' after parameters."
  | functionBody => "Expect '\x7b' before function body."
  | structName => "Expect struct name."
  | structOpen => "Expect '\x7b' before struct body."
  | structClose => "Expect '\x7d' after struct body."
  | fieldName => "Expect field name."
  | fieldColon => "Expect ':' after field name."
  | fieldEnd => "Expect ';' after field declaration."
  | typeName => "Expect type."
  | variableName => "Expect variable name."
  | variableEnd => "Expect ';' after variable declaration."
  | ifOpen => "Expect '(' after 'if'."
  | ifClose => "Expect ')' after if condition."
  | loopOpen => "Expect '\x7b' before loop body."
  | returnEnd => "Expect ';' after return value."
  | blockClose => "Expect '\x7d' after block."
  | expressionEnd => "Expect ';' after expression."
  | assignmentTarget => "Invalid assignment target."
  | tooManyArguments => "Can't have more than 255 arguments."
  | argumentsClose => "Expect ')' after arguments."
  | groupingClose => "Expect ')' after expression."
  | expression => "Expect expression."

/-- What is wrong, and the token at which it was noticed. -/
structure Diagnostic where
  line : Int
  lexeme : String
  complaint : Complaint
  deriving Repr, DecidableEq

def Token.diagnose (t : Token) (c : Complaint) : Diagnostic := ⟨t.line, t.lexeme, c⟩

def Diagnostic.message (d : Diagnostic) : String :=
  "[line " ++ Number.intText d.line ++ "] Error at " ++ d.lexeme ++ ": " ++ d.complaint.message

/-- How a parser ends. Off the end it was asked for a token behind the last one. -/
inductive Ending (α : Type) where
  | ok (a : α)
  | failed
  | offEnd
  | outOfFuel
  deriving Repr

/-- What a parser gives, the tokens it leaves, and what it complained of. -/
structure Reply (α : Type) where
  ending : Ending α
  rest : List Token
  diagnostics : List Diagnostic

def Parser (α : Type) : Type := List Token → Reply α

namespace Parser

variable {α β : Type}

protected def pure (a : α) : Parser α := fun ts => ⟨.ok a, ts, []⟩

protected def bind (p : Parser α) (f : α → Parser β) : Parser β := fun ts =>
  let first := p ts
  match first.ending with
  | .ok a =>
    let second := f a first.rest
    { second with diagnostics := first.diagnostics ++ second.diagnostics }
  | .failed => ⟨.failed, first.rest, first.diagnostics⟩
  | .offEnd => ⟨.offEnd, first.rest, first.diagnostics⟩
  | .outOfFuel => ⟨.outOfFuel, first.rest, first.diagnostics⟩

instance : Monad Parser where
  pure := Parser.pure
  bind := Parser.bind

def spent : Parser α := fun ts => ⟨.outOfFuel, ts, []⟩

def peek : Parser Token
  | [] => ⟨.offEnd, [], []⟩
  | t :: ts => ⟨.ok t, t :: ts, []⟩

def complain (t : Token) (c : Complaint) : Parser Unit := fun ts => ⟨.ok (), ts, [t.diagnose c]⟩

def refuse (c : Complaint) : Parser α
  | [] => ⟨.offEnd, [], []⟩
  | t :: ts => ⟨.failed, t :: ts, [t.diagnose c]⟩

/-- Reads the next token if it is of one of these kinds. -/
def accept (kinds : List Kind) : Parser (Option Token)
  | [] => ⟨.offEnd, [], []⟩
  | t :: ts => if kinds.contains t.kind then ⟨.ok (some t), ts, []⟩ else ⟨.ok none, t :: ts, []⟩

/-- Whether the next token is of one of these kinds. -/
def sees (kinds : List Kind) : Parser Bool := do return kinds.contains (← peek).kind

/-- Reads a token of this kind, or fails with a complaint. -/
def expect (kind : Kind) (c : Complaint) : Parser Token := do
  match ← accept [kind] with
  | some t => return t
  | none => refuse c

/-- A parser and then a token of this kind, which is dropped. -/
def endedBy (p : Parser α) (kind : Kind) (c : Complaint) : Parser α := do
  let a ← p
  let _ ← expect kind c
  return a

/-- A parser after a token of one of these kinds, if there is one. -/
def ifMarked (marks : List Kind) (p : Parser α) : Parser (Option α) := do
  match ← accept marks with
  | none => return none
  | some _ => return some (← p)

/-- A parser, or a result without reading if the next token is of one of these kinds. -/
def unlessSees (kinds : List Kind) (a : α) (p : Parser α) : Parser α := do
  if ← sees kinds then return a else p

/-- How many parameters or arguments there may be. -/
def arityLimit : Nat := 255

/-- Complains about the next token if there are as many items as there may be. -/
def checkCount (count : Nat) (tooMany : Complaint) : Parser Unit := do
  if count ≥ arityLimit then complain (← peek) tooMany

/-- Items with commas between them, after `count` others. -/
def items (item : Parser α) (tooMany : Complaint) : Nat → Nat → Parser (List α)
  | 0, _ => spent
  | n + 1, count => do
    checkCount count tooMany
    let first ← item
    match ← accept [.comma] with
    | none => return [first]
    | some _ => return first :: (← items item tooMany n (count + 1))

/-- Items with commas between them up to a closing parenthesis, if there are any. -/
def listed (item : Parser α) (tooMany : Complaint) (fuel : Nat) : Parser (List α) :=
  unlessSees [.rightParen] [] (items item tooMany fuel 0)

/-- The kinds of token before which reading goes on after a failure. -/
def restarts : List Kind := [.fn, .struct, .let, .if, .loop, .return]

/-- Skips to a place where reading can go on: after a semicolon, before a token that begins a declaration
or statement, or at the end. `previous` is the token just skipped. -/
def skipFrom (previous : Token) : Parser Unit
  | [] => ⟨.offEnd, [], []⟩
  | t :: ts =>
    if t.kind = .endOfFile ∨ previous.kind = .semicolon ∨ t.kind ∈ restarts then ⟨.ok (), t :: ts, []⟩
    else skipFrom t ts

/-- Skips one token at least, unless at the end, and goes on to a place where reading can go on. -/
def synchronize : Parser Unit
  | [] => ⟨.offEnd, [], []⟩
  | t :: ts => if t.kind = .endOfFile then ⟨.ok (), t :: ts, []⟩ else skipFrom t ts

/-- A parser whose failure is made up for by skipping. -/
def recover (p : Parser α) : Parser (Option α) := fun ts =>
  let first := p ts
  match first.ending with
  | .ok a => ⟨.ok (some a), first.rest, first.diagnostics⟩
  | .failed =>
    let second := synchronize first.rest
    match second.ending with
    | .ok _ => ⟨.ok none, second.rest, first.diagnostics ++ second.diagnostics⟩
    | .failed => ⟨.failed, second.rest, first.diagnostics ++ second.diagnostics⟩
    | .offEnd => ⟨.offEnd, second.rest, first.diagnostics ++ second.diagnostics⟩
    | .outOfFuel => ⟨.outOfFuel, second.rest, first.diagnostics ++ second.diagnostics⟩
  | .offEnd => ⟨.offEnd, first.rest, first.diagnostics⟩
  | .outOfFuel => ⟨.outOfFuel, first.rest, first.diagnostics⟩

end Parser

end Scriptling.Braced
