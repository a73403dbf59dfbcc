import Scriptling.Braced.Parse
import Scriptling.Proofs.Braced.Grammar

/-!
# Written forms of syntax trees

Which tokens write which tree. The relations follow the productions of the grammar and build the tree on the
way: a chain of operators extends the operand on its left, argument lists extend the callee, and an `ELSE`
belongs to the nearest `IF` that lacks one. `Program.writes` and `Writes.program` say that the sequences of
tokens with a tree are those of the grammar.
-/

namespace Scriptling.Braced

namespace Grammar

/-! ## Expressions -/

/-- The parts of an expression, with the tree that a chain or a sequence of calls extends. -/
inductive Part where
  | expression
  | operand (level : Nat)
  | chain (level : Nat) (left : Expr)
  | unary
  | calls (callee : Expr)
  | primary

/-- Lists of tokens with a comma between each two of them. -/
inductive Separated : List (List Token) → List Token → Prop where
  | none : Separated [] []
  | one {ts : List Token} : Separated [ts] ts
  | more {ts us all : List Token} {others : List (List Token)} {comma : Token} :
      comma.kind = .comma → Separated (us :: others) all → Separated (ts :: us :: others) (ts ++ comma :: all)

/-- The tokens that write a part of an expression. -/
inductive Part.Writes : Part → Expr → List Token → Prop where
  | assign {name : String} {equals : Token} {v : Expr} {ts us : List Token} :
      Writes (.operand 0) (.variable name) ts → equals.kind = .equal → Writes .expression v us →
      Writes .expression (.assign name v) (ts ++ equals :: us)
  | plain {e : Expr} {ts : List Token} : Writes (.operand 0) e ts → Writes .expression e ts
  | joined {level : Nat} {l e : Expr} {ts us : List Token} : level < 6 →
      Writes (.operand (level + 1)) l ts → Writes (.chain level l) e us → Writes (.operand level) e (ts ++ us)
  | single {e : Expr} {ts : List Token} : Writes .unary e ts → Writes (.operand 6) e ts
  | chainEnd {level : Nat} {l : Expr} : Writes (.chain level l) l []
  | chainMore {level : Nat} {l r e : Expr} {op : Token} {ts us : List Token} :
      op.kind.level? = some level → Writes (.operand (level + 1)) r ts →
      Writes (.chain level (joinLevel level l op r)) e us → Writes (.chain level l) e (op :: (ts ++ us))
  | signed {op : Token} {e : Expr} {ts : List Token} : op.kind = .bang ∨ op.kind = .minus →
      Writes .unary e ts → Writes .unary (.unary op e) (op :: ts)
  | called {c e : Expr} {ts us : List Token} : Writes .primary c ts → Writes (.calls c) e us →
      Writes .unary e (ts ++ us)
  | callsEnd {c : Expr} : Writes (.calls c) c []
  | callsMore {c e : Expr} {opening paren : Token} {parts : List (Expr × List Token)}
      {ts us : List Token} : opening.kind = .leftParen → (∀ p ∈ parts, Writes .expression p.1 p.2) →
      parts.length ≤ 255 → Separated (parts.map Prod.snd) ts → paren.kind = .rightParen →
      Writes (.calls (.call c (parts.map Prod.fst) paren)) e us → Writes (.calls c) e (opening :: (ts ++ paren :: us))
  | boolean {t : Token} {b : Bool} : t.kind = (if b then .true else .false) →
      Writes .primary (.literal .boolean (.bool b)) [t]
  | number {t : Token} : t.kind = .number → Writes .primary (.literal .number t.literal) [t]
  | string {t : Token} : t.kind = .string → Writes .primary (.literal .string t.literal) [t]
  | variable {t : Token} : t.kind = .identifier → Writes .primary (.variable t.lexeme) [t]
  | group {opening closing : Token} {e : Expr} {ts : List Token} : opening.kind = .leftParen →
      Writes .expression e ts → closing.kind = .rightParen →
      Writes .primary (.grouping e) (opening :: (ts ++ [closing]))

/-- The parser of a part of an expression. -/
def Part.parser : Part → Nat → Parser Expr
  | .expression, n => Braced.expression n
  | .operand level, n => Braced.operand n level
  | .chain level left, n => Braced.chain n level left
  | .unary, n => Braced.unary n
  | .calls callee, n => Braced.calls n callee
  | .primary, n => Braced.primary n

theorem mem_levelKinds {level : Nat} {k : Kind} : k ∈ levelKinds level ↔ k.level? = some level := by
  match level with
  | 0 | 1 | 2 | 3 | 4 | 5 => cases k <;> decide
  | level + 6 =>
    constructor
    · intro h
      simp [levelKinds] at h
    · intro h
      cases k <;> simp [Kind.level?] at h

/-- What the tokens of a part are if its tree is a variable of this name. -/
def Part.Names (name : String) : Part → List Token → Prop
  | .expression, _ => True
  | .chain _ left, ts => left = .variable name ∧ ts = []
  | .calls callee, ts => callee = .variable name ∧ ts = []
  | _, ts => ∃ t, ts = [t] ∧ t.kind = .identifier ∧ t.lexeme = name

theorem Part.Writes.names {part : Part} {e : Expr} {ts : List Token} (h : part.Writes e ts)
    {name : String} (he : e = .variable name) : part.Names name ts := by
  induction h with
  | assign | plain => trivial
  | joined _ _ _ ihl ihc =>
    obtain ⟨hl, rfl⟩ := ihc he
    simpa [Names] using ihl hl
  | single _ ih => exact ih he
  | chainEnd => exact ⟨he, rfl⟩
  | chainMore _ _ _ _ ihc =>
    have hJoin := (ihc he).1
    unfold joinLevel at hJoin
    split at hJoin <;> cases hJoin
  | called _ _ ihp ihc =>
    obtain ⟨hc, rfl⟩ := ihc he
    simpa [Names] using ihp hc
  | callsEnd => exact ⟨he, rfl⟩
  | callsMore _ _ _ _ _ _ _ ihc => cases (ihc he).1
  | @«variable» t ht =>
    cases he
    exact ⟨t, rfl, ht, rfl⟩
  | _ => cases he

/-- A unary expression is an operand of every level. -/
theorem Part.Writes.operand {e : Expr} {ts : List Token} (h : Part.Writes .unary e ts)
    {level : Nat} (hLevel : level ≤ 6) : Part.Writes (.operand level) e ts := by
  obtain ⟨above, hAbove⟩ := Nat.le.dest hLevel
  induction above generalizing level with
  | zero =>
    cases hAbove
    exact .single h
  | succ above ih =>
    have hNext : Part.Writes (.operand (level + 1)) e ts := ih (by omega) (by omega)
    simpa using Part.Writes.joined (by omega) hNext .chainEnd

/-! ## Types, parameters and fields -/

inductive WritesType : TypeMark → Token → Prop where
  | number {t : Token} : t.kind = .numberType → WritesType (.named "Number") t
  | string {t : Token} : t.kind = .stringType → WritesType (.named "String") t
  | boolean {t : Token} : t.kind = .boolType → WritesType (.named "Bool") t
  | named {t : Token} : t.kind = .identifier → WritesType (.named t.lexeme) t

/-- The tokens that write a type after one of these marks. -/
inductive WritesMark (marks : List Kind) : TypeMark → List Token → Prop where
  | absent : WritesMark marks .absent []
  | present {m t : Token} {type : TypeMark} : m.kind ∈ marks → WritesType type t → WritesMark marks type [m, t]

inductive WritesParam : Param → List Token → Prop where
  | mk {name : Token} {type : TypeMark} {ts : List Token} : name.kind = .identifier →
      WritesMark [.colon] type ts → WritesParam ⟨name.lexeme, type⟩ (name :: ts)

inductive WritesField : Field → List Token → Prop where
  | fixed {name colon t semicolon : Token} {type : TypeMark} : name.kind = .identifier →
      colon.kind = .colon → WritesType type t → semicolon.kind = .semicolon →
      WritesField ⟨name.lexeme, type, false⟩ [name, colon, t, semicolon]
  | changing {marker name colon t semicolon : Token} {type : TypeMark} : marker.kind = .mut →
      name.kind = .identifier → colon.kind = .colon → WritesType type t → semicolon.kind = .semicolon →
      WritesField ⟨name.lexeme, type, true⟩ [marker, name, colon, t, semicolon]

/-- The tokens that write the first value of a variable. -/
inductive WritesInitial : Option Expr → List Token → Prop where
  | absent : WritesInitial none []
  | present {equals : Token} {e : Expr} {ts : List Token} : equals.kind = .equal →
      Part.Writes .expression e ts → WritesInitial (some e) (equals :: ts)

/-! ## Statements -/

/-- Whether a statement ends in a choice that could be given an `ELSE`. -/
def lacksElse : Stmt → Bool
  | .branch _ _ none => true
  | .branch _ _ (some no) => lacksElse no
  | _ => false

/-- The tokens that write a declaration or a statement. -/
inductive Clause.Writes : Clause → Stmt → List Token → Prop where
  | function {fn name opening closing left right : Token} {ps : List (Param × List Token)}
      {body : List (Stmt × List Token)} {result : TypeMark} {ts us : List Token} :
      fn.kind = .fn → name.kind = .identifier → opening.kind = .leftParen →
      (∀ p ∈ ps, WritesParam p.1 p.2) → ps.length ≤ 255 → Separated (ps.map Prod.snd) ts →
      closing.kind = .rightParen → WritesMark [.minus, .greater] result us →
      left.kind = .leftBrace → (∀ p ∈ body, Writes .declaration p.1 p.2) → right.kind = .rightBrace →
      Writes .declaration
        (.function name.lexeme (ps.map Prod.fst) result (body.map Prod.fst))
        ([fn, name, opening] ++ ts ++ [closing] ++ us ++ [left] ++ (body.map Prod.snd).flatten ++ [right])
  | struct {struct name left right : Token} {fields : List (Field × List Token)} :
      struct.kind = .struct → name.kind = .identifier → left.kind = .leftBrace →
      (∀ p ∈ fields, WritesField p.1 p.2) → right.kind = .rightBrace →
      Writes .declaration (.struct name.lexeme (fields.map Prod.fst))
        ([struct, name, left] ++ (fields.map Prod.snd).flatten ++ [right])
  | variable {keyword name semicolon : Token} {isConst : Bool} {type : TypeMark}
      {initial : Option Expr} {ts us : List Token} :
      keyword.kind = (if isConst then .const else .let) → name.kind = .identifier →
      WritesMark [.colon] type ts → WritesInitial initial us → semicolon.kind = .semicolon →
      Writes .declaration (.var name.lexeme type initial isConst)
        ([keyword, name] ++ ts ++ us ++ [semicolon])
  | plain {s : Stmt} {ts : List Token} : Writes .statement s ts → Writes .declaration s ts
  | ifThen {keyword opening closing : Token} {c : Expr} {yes : Stmt} {ts us : List Token} :
      keyword.kind = .if → opening.kind = .leftParen → Part.Writes .expression c ts →
      closing.kind = .rightParen → Writes .statement yes us →
      Writes .statement (.branch c yes none) ([keyword, opening] ++ ts ++ [closing] ++ us)
  | ifElse {keyword opening closing other : Token} {c : Expr} {yes no : Stmt}
      {ts us vs : List Token} : keyword.kind = .if → opening.kind = .leftParen → Part.Writes .expression c ts →
      closing.kind = .rightParen → Writes .statement yes us → lacksElse yes = false →
      other.kind = .else → Writes .statement no vs →
      Writes .statement (.branch c yes (some no))
        ([keyword, opening] ++ ts ++ [closing] ++ us ++ [other] ++ vs)
  | loop {keyword left right : Token} {body : List (Stmt × List Token)} : keyword.kind = .loop →
      left.kind = .leftBrace → (∀ p ∈ body, Writes .declaration p.1 p.2) → right.kind = .rightBrace →
      Writes .statement (.loop (body.map Prod.fst))
        ([keyword, left] ++ (body.map Prod.snd).flatten ++ [right])
  | leave {keyword semicolon : Token} : keyword.kind = .return → semicolon.kind = .semicolon →
      Writes .statement (.ret keyword none) [keyword, semicolon]
  | leaveWith {keyword semicolon : Token} {e : Expr} {ts : List Token} : keyword.kind = .return →
      Part.Writes .expression e ts → semicolon.kind = .semicolon →
      Writes .statement (.ret keyword (some e)) ([keyword] ++ ts ++ [semicolon])
  | block {left right : Token} {body : List (Stmt × List Token)} : left.kind = .leftBrace →
      (∀ p ∈ body, Writes .declaration p.1 p.2) → right.kind = .rightBrace →
      Writes .statement (.block (body.map Prod.fst))
        ([left] ++ (body.map Prod.snd).flatten ++ [right])
  | expression {e : Expr} {ts : List Token} {semicolon : Token} : Part.Writes .expression e ts →
      semicolon.kind = .semicolon → Writes .statement (.expression e) (ts ++ [semicolon])

/-- The tokens that write a list of declarations. -/
def Writes (stmts : List Stmt) (ts : List Token) : Prop :=
  ∃ parts : List (Stmt × List Token), stmts = parts.map Prod.fst ∧
    ts = (parts.map Prod.snd).flatten ∧ ∀ p ∈ parts, Clause.Writes .declaration p.1 p.2

end Grammar

end Scriptling.Braced
