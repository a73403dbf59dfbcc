import Scriptling.Braced.Token

/-!
# The grammar of braced scripts

Which sequences of kinds of token are programs, by productions:

```text
program     = declaration*
declaration = FN IDENT '(' [param {',' param}] ')' [('-' | '>') type] '{' declaration* '}'
            | STRUCT IDENT '{' ([MUT] IDENT ':' type ';')* '}'
            | (LET | CONST) IDENT [':' type] ['=' expr] ';'
            | statement
statement   = IF '(' expr ')' statement [ELSE statement]
            | LOOP '{' declaration* '}' | RETURN [expr] ';' | '{' declaration* '}' | expr ';'
param       = IDENT [':' type]
type        = NUMBER_TYPE | STRING_TYPE | BOOL_TYPE | IDENT
expr        = IDENT '=' expr | operand of level 0
unary       = ('!' | '-') unary | primary { '(' [expr {',' expr}] ')' }
primary     = FALSE | TRUE | NUMBER | STRING | IDENT | '(' expr ')'
```

An operand of level 0 to 5 is a chain of operands of the next level with operators of the level between them;
operands of level 6 are unary. There are at most 255 parameters and 255 arguments. The grammar says nothing
about trees, and leaves open to which `IF` an `ELSE` belongs.
-/

namespace Scriptling.Braced

/-- The level of an operator of two operands. -/
def Kind.level? : Kind → Option Nat
  | .or => some 0
  | .and => some 1
  | .bangEqual | .equalEqual => some 2
  | .greater | .greaterEqual | .less | .lessEqual => some 3
  | .minus | .plus => some 4
  | .slash | .star => some 5
  | _ => none

namespace Grammar

inductive Phrase where
  | expression
  | operand (level : Nat)
  | chain (level : Nat)
  | unary
  | calls
  | primary

/-- The kinds that make up a part of an expression. -/
inductive Phrase.Derives : Phrase → List Kind → Prop where
  | assignment {v : List Kind} : Derives .expression v → Derives .expression (.identifier :: .equal :: v)
  | plain {o : List Kind} : Derives (.operand 0) o → Derives .expression o
  | joined {level : Nat} {o c : List Kind} : level < 6 → Derives (.operand (level + 1)) o →
      Derives (.chain level) c → Derives (.operand level) (o ++ c)
  | single {u : List Kind} : Derives .unary u → Derives (.operand 6) u
  | chainEnd {level : Nat} : Derives (.chain level) []
  | chainMore {level : Nat} {op : Kind} {o c : List Kind} : op.level? = some level →
      Derives (.operand (level + 1)) o → Derives (.chain level) c → Derives (.chain level) (op :: (o ++ c))
  | signed {op : Kind} {u : List Kind} : op = .bang ∨ op = .minus → Derives .unary u → Derives .unary (op :: u)
  | called {p c : List Kind} : Derives .primary p → Derives .calls c → Derives .unary (p ++ c)
  | callsEnd : Derives .calls []
  | callsMore {arguments : List (List Kind)} {c : List Kind} :
      (∀ a ∈ arguments, Derives .expression a) → arguments.length ≤ 255 → Derives .calls c →
      Derives .calls (.leftParen :: ([.comma].intercalate arguments ++ .rightParen :: c))
  | atom {k : Kind} : k ∈ [.false, .true, .number, .string, .identifier] → Derives .primary [k]
  | group {e : List Kind} : Derives .expression e → Derives .primary (.leftParen :: (e ++ [.rightParen]))

def typeKinds : List Kind := [.numberType, .stringType, .boolType, .identifier]

/-- A type after one of these marks, or nothing. -/
inductive Annotation (marks : List Kind) : List Kind → Prop where
  | absent : Annotation marks []
  | present {m t : Kind} : m ∈ marks → t ∈ typeKinds → Annotation marks [m, t]

inductive Parameter : List Kind → Prop where
  | mk {a : List Kind} : Annotation [.colon] a → Parameter (.identifier :: a)

inductive Member : List Kind → Prop where
  | fixed {t : Kind} : t ∈ typeKinds → Member [.identifier, .colon, t, .semicolon]
  | changing {t : Kind} : t ∈ typeKinds → Member [.mut, .identifier, .colon, t, .semicolon]

/-- The first value of a variable, or nothing. -/
inductive Initial : List Kind → Prop where
  | absent : Initial []
  | present {e : List Kind} : Phrase.Derives .expression e → Initial (.equal :: e)

/-- Declarations are all that may stand in a block, statements what may follow a condition. -/
inductive Clause where
  | declaration
  | statement

/-- The kinds that make up a declaration or a statement. -/
inductive Clause.Derives : Clause → List Kind → Prop where
  | function {ps ds : List (List Kind)} {r : List Kind} : (∀ p ∈ ps, Parameter p) →
      ps.length ≤ 255 → Annotation [.minus, .greater] r → (∀ d ∈ ds, Derives .declaration d) →
      Derives .declaration ([.fn, .identifier, .leftParen] ++ [.comma].intercalate ps ++
        [.rightParen] ++ r ++ [.leftBrace] ++ ds.flatten ++ [.rightBrace])
  | struct {ms : List (List Kind)} : (∀ m ∈ ms, Member m) →
      Derives .declaration ([.struct, .identifier, .leftBrace] ++ ms.flatten ++ [.rightBrace])
  | variable {k : Kind} {a i : List Kind} : k = .let ∨ k = .const → Annotation [.colon] a →
      Initial i → Derives .declaration ([k, .identifier] ++ a ++ i ++ [.semicolon])
  | plain {s : List Kind} : Derives .statement s → Derives .declaration s
  | ifThen {c y : List Kind} : Phrase.Derives .expression c → Derives .statement y →
      Derives .statement ([.if, .leftParen] ++ c ++ [.rightParen] ++ y)
  | ifElse {c y n : List Kind} : Phrase.Derives .expression c → Derives .statement y →
      Derives .statement n → Derives .statement ([.if, .leftParen] ++ c ++ [.rightParen] ++ y ++ [.else] ++ n)
  | loop {ds : List (List Kind)} : (∀ d ∈ ds, Derives .declaration d) →
      Derives .statement ([.loop, .leftBrace] ++ ds.flatten ++ [.rightBrace])
  | leave : Derives .statement [.return, .semicolon]
  | leaveWith {e : List Kind} : Phrase.Derives .expression e → Derives .statement ([.return] ++ e ++ [.semicolon])
  | block {ds : List (List Kind)} : (∀ d ∈ ds, Derives .declaration d) →
      Derives .statement ([.leftBrace] ++ ds.flatten ++ [.rightBrace])
  | expression {e : List Kind} : Phrase.Derives .expression e → Derives .statement (e ++ [.semicolon])

def Program (ks : List Kind) : Prop :=
  ∃ ds : List (List Kind), ks = ds.flatten ∧ ∀ d ∈ ds, Clause.Derives .declaration d

end Grammar

end Scriptling.Braced
