import Scriptling.Braced.Parser
import Scriptling.Braced.Syntax

/-!
# Parsing braced scripts

Recursive descent. Operators of two operands form a ladder of levels, from disjunction (0) to products (5);
each level reads operands of the next one and joins them from the left. A declaration that fails is dropped,
and reading goes on after it.

Every step down costs one unit of fuel. A token is never read twice, so a program needs a number of steps
that is linear in its tokens, and `parse` provides for it.
-/

namespace Scriptling.Braced

open Braced.Parser

def levelKinds : Nat → List Kind
  | 0 => [.or]
  | 1 => [.and]
  | 2 => [.bangEqual, .equalEqual]
  | 3 => [.greater, .greaterEqual, .less, .lessEqual]
  | 4 => [.minus, .plus]
  | 5 => [.slash, .star]
  | _ => []

/-- The level above which operands have no operator of two operands outside parentheses. -/
def topLevel : Nat := 6

def joinLevel (level : Nat) (left : Expr) (operator : Token) (right : Expr) : Expr :=
  if level < 2 then .logical left operator right else .binary left operator right

def literalOf (t : Token) : Expr := .literal (if t.kind = .number then .number else .string) t.literal

/-- What follows an operand that may be the target of an assignment. -/
def assignTo (value : Parser Expr) (target : Expr) : Parser Expr := do
  match ← accept [.equal] with
  | none => return target
  | some equals =>
    let value ← value
    match target with
    | .variable name => return .assign name value
    | _ =>
      complain equals .assignmentTarget
      return target

/-- A literal, a variable, or an expression between parentheses, after its first token. -/
def atom (inner : Parser Expr) (t : Token) : Parser Expr :=
  match t.kind with
  | .false => return .literal .boolean (.bool false)
  | .true => return .literal .boolean (.bool true)
  | .identifier => return .variable t.lexeme
  | .leftParen => do return .grouping (← endedBy inner .rightParen .groupingClose)
  | _ => return literalOf t

mutual

/-- An expression: an assignment or a disjunction. -/
def expression : Nat → Parser Expr
  | 0 => spent
  | n + 1 => do assignTo (expression n) (← operand n 0)

/-- An operand made of operators of this level and above. -/
def operand : Nat → Nat → Parser Expr
  | 0, _ => spent
  | n + 1, level =>
    if level < topLevel then do
      let left ← operand n (level + 1)
      chain n level left
    else unary n

/-- The operators of a level that follow an operand, joined from the left. -/
def chain : Nat → Nat → Expr → Parser Expr
  | 0, _, _ => spent
  | n + 1, level, left => do
    match ← accept (levelKinds level) with
    | none => return left
    | some operator =>
      let right ← operand n (level + 1)
      chain n level (joinLevel level left operator right)

/-- A sign or negation and its operand, or a call. -/
def unary : Nat → Parser Expr
  | 0 => spent
  | n + 1 => do
    match ← accept [.bang, .minus] with
    | some operator => return .unary operator (← unary n)
    | none =>
      let callee ← primary n
      calls n callee

def calls : Nat → Expr → Parser Expr
  | 0, _ => spent
  | n + 1, callee => do
    match ← accept [.leftParen] with
    | none => return callee
    | some _ =>
      let arguments ← listed (expression n) .tooManyArguments n
      let paren ← expect .rightParen .argumentsClose
      calls n (.call callee arguments paren)

/-- A literal, a variable, or an expression between parentheses. -/
def primary : Nat → Parser Expr
  | 0 => spent
  | n + 1 => do
    match ← accept [.false, .true, .number, .string, .identifier, .leftParen] with
    | none => refuse .expression
    | some t => atom (expression n) t

end

def typeName : Parser TypeMark := do
  match ← accept [.numberType, .stringType, .boolType, .identifier] with
  | some t =>
    match t.kind with
    | .numberType => return .named "Number"
    | .stringType => return .named "String"
    | .boolType => return .named "Bool"
    | _ => return .named t.lexeme
  | none =>
    complain (← peek) .typeName
    return .malformed

def typeMark (marks : List Kind) : Parser TypeMark := do
  return (← ifMarked marks typeName).getD .absent

def parameter : Parser Param := do
  let name ← expect .identifier .parameterName
  return ⟨name.lexeme, ← typeMark [.colon]⟩

def structField : Parser Field := do
  let marker ← accept [.mut]
  let name ← expect .identifier .fieldName
  let _ ← expect .colon .fieldColon
  let type ← endedBy typeName .semicolon .fieldEnd
  return ⟨name.lexeme, type, marker.isSome⟩

/-- The fields up to the brace that closes a struct. -/
def structFields : Nat → Parser (List Field)
  | 0 => spent
  | n + 1 => unlessSees [.rightBrace, .endOfFile] [] do
    let first ← structField
    return first :: (← structFields n)

def structDeclaration (fuel : Nat) : Parser Stmt := do
  let name ← expect .identifier .structName
  let _ ← expect .leftBrace .structOpen
  let fields ← endedBy (structFields fuel) .rightBrace .structClose
  return .struct name.lexeme fields

def varDeclaration (fuel : Nat) (isConst : Bool) : Parser Stmt := do
  let name ← expect .identifier .variableName
  let type ← typeMark [.colon]
  let initial ← endedBy (ifMarked [.equal] (expression fuel)) .semicolon .variableEnd
  return .var name.lexeme type initial isConst

def blockBody (declarations : Parser (List Stmt)) : Parser (List Stmt) := endedBy declarations .rightBrace .blockClose

def functionDeclaration (fuel : Nat) (declarations : Parser (List Stmt)) : Parser Stmt := do
  let name ← expect .identifier .functionName
  let _ ← expect .leftParen .functionOpen
  let params ← endedBy (listed parameter .tooManyParameters fuel) .rightParen .parametersClose
  let result ← typeMark [.minus, .greater]
  let _ ← expect .leftBrace .functionBody
  return .function name.lexeme params result (← blockBody declarations)

def ifStatement (fuel : Nat) (statement : Parser Stmt) : Parser Stmt := do
  let _ ← expect .leftParen .ifOpen
  let condition ← endedBy (expression fuel) .rightParen .ifClose
  let yes ← statement
  return .branch condition yes (← ifMarked [.else] statement)

def loopStatement (declarations : Parser (List Stmt)) : Parser Stmt := do
  let _ ← expect .leftBrace .loopOpen
  return .loop (← blockBody declarations)

/-- The end of a function's run, after its keyword. -/
def returnStatement (fuel : Nat) (keyword : Token) : Parser Stmt := do
  let value ← endedBy (unlessSees [.semicolon] none (some <$> expression fuel)) .semicolon .returnEnd
  return .ret keyword value

def expressionStatement (fuel : Nat) : Parser Stmt := do
  return .expression (← endedBy (expression fuel) .semicolon .expressionEnd)

/-- A function, struct or variable declaration, after its keyword. -/
def keywordDeclaration (fuel : Nat) (declarations : Parser (List Stmt)) (t : Token) : Parser Stmt :=
  match t.kind with
  | .fn => functionDeclaration fuel declarations
  | .struct => structDeclaration fuel
  | k => varDeclaration fuel (k == .const)

/-- A choice, a loop, the end of a function's run or a block, after its first token. -/
def keywordStatement (fuel : Nat) (statement : Parser Stmt) (declarations : Parser (List Stmt))
    (t : Token) : Parser Stmt :=
  match t.kind with
  | .if => ifStatement fuel statement
  | .loop => loopStatement declarations
  | .return => returnStatement fuel t
  | _ => do return .block (← blockBody declarations)

mutual

/-- A declaration or a statement; nothing if it failed. -/
def declaration : Nat → Parser (Option Stmt)
  | 0 => spent
  | n + 1 => recover do
    match ← accept [.fn, .struct, .let, .const] with
    | none => statement n
    | some t => keywordDeclaration n (declarations n) t

def statement : Nat → Parser Stmt
  | 0 => spent
  | n + 1 => do
    match ← accept [.if, .loop, .return, .leftBrace] with
    | none => expressionStatement n
    | some t => keywordStatement n (statement n) (declarations n) t

/-- The declarations up to a closing brace or the end. -/
def declarations : Nat → Parser (List Stmt)
  | 0 => spent
  | n + 1 => unlessSees [.rightBrace, .endOfFile] [] do
    let first ← declaration n
    return first.toList ++ (← declarations n)

end

def program : Nat → Parser (List Stmt)
  | 0 => spent
  | n + 1 => unlessSees [.endOfFile] [] do
    let first ← declaration n
    return first.toList ++ (← program n)

def fuelFor (count : Nat) : Nat := 16 * (count + 1) + 16

def parse (tokens : List Token) : Reply (List Stmt) := program (fuelFor tokens.length) tokens

end Scriptling.Braced
