import Scriptling.Proofs.Braced.Grammar
import Scriptling.Proofs.Braced.Recovery

/-!
# The schema of records

Which records parsing can return, whatever the tokens: the keys of each kind of node, what may stand under
each key, and where nothing may stand. What follows a condition is a statement and not a declaration. Where a
parameter or a field has nothing as its type, a diagnostic has told that the type is missing, one for each.
-/

namespace Scriptling.Braced

open Braced.Parser Grammar List

variable {α β : Type} {tokens : List Token} (n : Nat)

/-! ## Records -/

inductive OrNone (P : Datum → Prop) : Datum → Prop where
  | none : OrNone P .none
  | some {d} : P d → OrNone P d

inductive IsTypeName : Datum → Prop where
  | mk {name} : IsTypeName (.str name)

/-- The record of an expression that was parsed from these tokens. The value of a number or a string is the
one of its token. -/
inductive IsExpression (tokens : List Token) : Datum → Prop where
  | number {t} : t ∈ tokens → t.kind = .number →
      IsExpression tokens (record [("type", .str "literal"), ("value", t.literal), ("value_type", .str "number")])
  | string {t} : t ∈ tokens → t.kind = .string →
      IsExpression tokens (record [("type", .str "literal"), ("value", t.literal), ("value_type", .str "string")])
  | boolean {b} :
      IsExpression tokens (record [("type", .str "literal"), ("value", .bool b), ("value_type", .str "boolean")])
  | variable {name} : IsExpression tokens (record [("type", .str "variable"), ("name", .str name)])
  | assign {name value} : IsExpression tokens value →
      IsExpression tokens (record [("type", .str "assign"), ("name", .str name), ("value", value)])
  | logical {left right operator} : IsExpression tokens left →
      operator ∈ tokens → IsExpression tokens right →
      IsExpression tokens (record [("type", .str "logical"), ("left", left),
        ("operator", operator.toDatum), ("right", right)])
  | binary {left right operator} : IsExpression tokens left →
      operator ∈ tokens → IsExpression tokens right →
      IsExpression tokens (record [("type", .str "binary"), ("left", left),
        ("operator", operator.toDatum), ("right", right)])
  | unary {right operator} : operator ∈ tokens → IsExpression tokens right →
      IsExpression tokens (record [("type", .str "unary"), ("operator", operator.toDatum), ("right", right)])
  | call {callee arguments paren} : IsExpression tokens callee →
      (∀ a ∈ arguments, IsExpression tokens a) → paren ∈ tokens →
      IsExpression tokens (record [("type", .str "call"), ("callee", callee),
        ("arguments", .list arguments), ("paren", paren.toDatum)])
  | grouping {inner} : IsExpression tokens inner →
      IsExpression tokens (record [("type", .str "grouping"), ("expression", inner)])

/-- The record of a parameter, with the number of types in it that were not found. -/
inductive IsParameter : Nat → Datum → Prop where
  | untyped {name} : IsParameter 0 (record [("name", .str name)])
  | typed {name type} : IsTypeName type → IsParameter 0 (record [("name", .str name), ("type", type)])
  | missing {name} : IsParameter 1 (record [("name", .str name), ("type", .none)])

/-- The record of a field, with the number of types in it that were not found. -/
inductive IsField : Nat → Datum → Prop where
  | typed {name type isMutable} : IsTypeName type →
      IsField 0 (record [("name", .str name), ("type", type), ("mutable", .bool isMutable)])
  | missing {name isMutable} : IsField 1 (record [("name", .str name), ("type", .none), ("mutable", .bool isMutable)])

/-- A list of such records, with the sum of their numbers. -/
inductive Each (P : Nat → Datum → Prop) : Nat → List Datum → Prop where
  | nil : Each P 0 []
  | cons {m n d ds} : P m d → Each P n ds → Each P (m + n) (d :: ds)

/-- The record of a declaration or a statement, with the number of types of parameters and fields in it
that were not found. -/
inductive Grammar.Clause.IsRecord (tokens : List Token) : Clause → Nat → Datum → Prop where
  | function {name params body result m n} :
      Each IsParameter m params → OrNone IsTypeName result → Each (IsRecord tokens .declaration) n body →
      IsRecord tokens .declaration (m + n) (record [("type", .str "function"), ("name", .str name),
        ("parameters", .list params), ("return_type", result), ("body", .list body)])
  | struct {name fields n} : Each IsField n fields →
      IsRecord tokens .declaration n (record [("type", .str "struct"), ("name", .str name), ("fields", .list fields)])
  | var {name type initial isConst} : OrNone IsTypeName type →
      OrNone (IsExpression tokens) initial →
      IsRecord tokens .declaration 0 (record [("type", .str "var"), ("name", .str name),
        ("var_type", type), ("initializer", initial), ("is_const", .bool isConst)])
  | plain {n d} : IsRecord tokens .statement n d → IsRecord tokens .declaration n d
  | ifThen {condition yes n} : IsExpression tokens condition →
      IsRecord tokens .statement n yes →
      IsRecord tokens .statement n (record [("type", .str "if"), ("condition", condition),
        ("then_branch", yes), ("else_branch", .none)])
  | ifElse {condition yes no m n} : IsExpression tokens condition → IsRecord tokens .statement m yes →
      IsRecord tokens .statement n no →
      IsRecord tokens .statement (m + n)
        (record [("type", .str "if"), ("condition", condition), ("then_branch", yes), ("else_branch", no)])
  | loop {body n} : Each (IsRecord tokens .declaration) n body →
      IsRecord tokens .statement n (record [("type", .str "loop"), ("body", .list body)])
  | ret {keyword value} : keyword ∈ tokens → OrNone (IsExpression tokens) value →
      IsRecord tokens .statement 0 (record [("type", .str "return"), ("keyword", keyword.toDatum), ("value", value)])
  | block {body n} : Each (IsRecord tokens .declaration) n body →
      IsRecord tokens .statement n (record [("type", .str "block"), ("statements", .list body)])
  | expression {e} : IsExpression tokens e →
      IsRecord tokens .statement 0 (record [("type", .str "expression"), ("expression", e)])

/-! ## Results of parsers -/

/-- How many diagnostics tell of a missing type. -/
def missingTypes (ds : List Diagnostic) : Nat := ds.countP (·.complaint == .typeName)

@[simp] theorem missingTypes_append (ds es : List Diagnostic) :
    missingTypes (ds ++ es) = missingTypes ds + missingTypes es := countP_append

/-- Among these tokens, the result of a parser, if there is one, is so related to its complaints. -/
def Parser.Returns (p : Parser α) (tokens : List Token) (Q : α → List Diagnostic → Prop) : Prop :=
  ∀ ts, ts ⊆ tokens → ∀ a rest ds, p ts = ⟨.ok a, rest, ds⟩ → rest ⊆ tokens ∧ Q a ds

namespace Parser

variable {p : Parser α} {P Q : α → List Diagnostic → Prop} {R : β → List Diagnostic → Prop} {kinds : List Kind}

theorem spent_returns (Q : α → List Diagnostic → Prop) : Returns spent tokens Q := by
  intro ts _ a rest ds h
  cases h

theorem refuse_returns (c : Complaint) (Q : α → List Diagnostic → Prop) : Returns (refuse c) tokens Q := by
  intro ts _ a rest ds h
  cases ts <;> cases h

theorem pure_returns {a : α} (h : Q a []) : Returns (pure a) tokens Q := by
  intro ts hts b rest ds hRun
  obtain ⟨rfl, rfl, rfl⟩ := pure_eq_ok hRun
  exact ⟨hts, h⟩

theorem Returns.bind {f : α → Parser β} (hp : Returns p tokens P)
    (hf : ∀ a ds, P a ds → Returns (f a) tokens fun b es => R b (ds ++ es)) : Returns (p >>= f) tokens R := by
  intro ts hts b rest ds h
  obtain ⟨a, mid, ds1, ds2, hFirst, hSecond, rfl⟩ := bind_eq_ok h
  obtain ⟨hMid, ha⟩ := hp ts hts a mid ds1 hFirst
  exact hf a ds1 ha mid hMid b rest ds2 hSecond

theorem Returns.bind_pure {g : α → β} (hp : Returns p tokens P) (h : ∀ a ds, P a ds → R (g a) ds) :
    Returns (p >>= fun a => pure (g a)) tokens R :=
  hp.bind fun a ds ha => pure_returns (by rw [append_nil]; exact h a ds ha)

theorem Returns.mono (hp : Returns p tokens P) (h : ∀ a ds, P a ds → Q a ds) : Returns p tokens Q := by
  intro ts hts a rest ds hRun
  obtain ⟨hRest, ha⟩ := hp ts hts a rest ds hRun
  exact ⟨hRest, h a ds ha⟩

theorem peek_returns : Returns peek tokens fun _ ds => ds = [] := by
  intro ts hts t rest ds h
  cases ts with
  | nil => cases h
  | cons u us =>
    cases h
    exact ⟨hts, rfl⟩

theorem complain_returns (t : Token) (c : Complaint) :
    Returns (complain t c) tokens fun _ ds => ds = [t.diagnose c] := by
  intro ts hts u rest ds h
  cases h
  exact ⟨hts, rfl⟩

/-- A token in front adds nothing to the complaints. -/
theorem Returns.accept_bind {f : Option Token → Parser β} (hNone : Returns (f none) tokens R)
    (hSome : ∀ t ∈ tokens, t.kind ∈ kinds → Returns (f (some t)) tokens R) : Returns (accept kinds >>= f) tokens R := by
  intro ts hts b rest ds h
  obtain ⟨found, mid, ds1, ds2, hFirst, hSecond, rfl⟩ := bind_eq_ok h
  obtain ⟨rfl, ⟨t, rfl, hKind, rfl⟩ | ⟨rfl, rfl, -⟩⟩ := accept_eq_ok hFirst
  · obtain ⟨ht, hMid⟩ := cons_subset.mp hts
    exact hSome t ht hKind mid hMid b rest ds2 hSecond
  · exact hNone _ hts b rest ds2 hSecond

theorem Returns.accept_any {f : Option Token → Parser β} (hf : ∀ found, Returns (f found) tokens R) :
    Returns (accept kinds >>= f) tokens R :=
  Returns.accept_bind (hf none) fun t _ _ => hf (some t)

theorem Returns.expect_bind {kind : Kind} {c : Complaint} {f : Token → Parser β}
    (hf : ∀ t ∈ tokens, Returns (f t) tokens R) : Returns (expect kind c >>= f) tokens R := by
  have hExpect : Returns (expect kind c) tokens fun t ds => t ∈ tokens ∧ ds = [] :=
    accept_bind (refuse_returns c _) fun t ht _ => pure_returns ⟨ht, rfl⟩
  refine hExpect.bind ?_
  rintro t _ ⟨ht, rfl⟩
  exact hf t ht

theorem Returns.endedBy (hp : Returns p tokens Q) (kind : Kind) (c : Complaint) :
    Returns (endedBy p kind c) tokens Q :=
  hp.bind fun a ds ha => expect_bind fun _ _ => pure_returns (by rwa [append_nil])

theorem Returns.ifMarked {Q : Option α → List Diagnostic → Prop} (hNone : Q none [])
    (hp : Returns p tokens fun a ds => Q (some a) ds) : Returns (ifMarked kinds p) tokens Q :=
  accept_bind (pure_returns hNone) fun _ _ _ => hp.bind_pure fun _ _ h => h

theorem Returns.unlessSees {a : α} (ha : Q a []) (hp : Returns p tokens Q) :
    Returns (unlessSees kinds a p) tokens Q := by
  intro ts hts b rest ds h
  rcases unlessSees_eq_ok h with ⟨t, more, -, -, rfl, rfl, rfl⟩ | ⟨t, more, -, -, hRun⟩
  · exact ⟨hts, ha⟩
  · exact hp ts hts b rest ds hRun

theorem Returns.recover {Q : Option α → List Diagnostic → Prop} (hO : Orderly p) (hNone : ∀ ds, Q none ds)
    (hp : Returns p tokens fun a ds => Q (some a) ds) : Returns (recover p) tokens Q := by
  intro ts hts found rest ds h
  -- After a failure the tokens left are those behind the skipped ones.
  have hSuffix := (hO.recover ts).1
  rw [h] at hSuffix
  refine ⟨fun t ht => hts (hSuffix.subset ht), ?_⟩
  unfold Parser.recover at h
  rcases hRun : p ts with ⟨a | _ | _ | _, mid, es⟩ <;> simp only [hRun] at h
  · cases h
    exact (hp ts hts a _ _ hRun).2
  · rcases hSkip : synchronize mid with ⟨u | _ | _ | _, left, more⟩ <;> simp only [hSkip] at h <;>
      cases h
    exact hNone _
  · cases h
  · cases h

theorem checkCount_returns (count : Nat) (c : Complaint) : Returns (checkCount count c) tokens fun _ _ => True := by
  unfold checkCount
  split
  · exact peek_returns.bind fun t _ _ => (complain_returns t c).mono fun _ _ _ => trivial
  · exact pure_returns trivial

section Lists

variable {Q : List α → List Diagnostic → Prop} (hp : Returns p tokens P) (hNil : Q [] [])
  (hCons : ∀ {a as} (ds es fs : List Diagnostic), P a es → Q as fs → Q (a :: as) (ds ++ (es ++ fs)))

include hp hNil hCons

/-- What holds of an item and of the items after it holds of the list. -/
theorem items_returns (c : Complaint) (n count : Nat) : Returns (items p c n count) tokens Q := by
  induction n generalizing count with
  | zero => exact spent_returns Q
  | succ n ih =>
    refine (checkCount_returns count c).bind fun _ ds _ => hp.bind fun first es hFirst => ?_
    refine Returns.accept_bind (pure_returns (hCons ds es [] hFirst hNil)) fun t _ _ => ?_
    exact (ih (count + 1)).bind_pure fun others fs hOthers => hCons ds es fs hFirst hOthers

theorem listed_returns (c : Complaint) (n : Nat) : Returns (listed p c n) tokens Q :=
  Returns.unlessSees hNil (items_returns hp hNil hCons c n 0)

end Lists

end Parser

/-! ## Expressions -/

/-- The parser returns expressions only. -/
def Parser.ReturnsExpression (p : Parser Expr) (tokens : List Token) : Prop :=
  p.Returns tokens fun e _ => IsExpression tokens e.toDatum

theorem exprData_isExpression {es : List Expr} (h : ∀ e ∈ es, IsExpression tokens e.toDatum) :
    ∀ d ∈ exprData es, IsExpression tokens d := by
  induction es with
  | nil => simp [exprData]
  | cons e es ih =>
    obtain ⟨hFirst, hOthers⟩ := forall_mem_cons.mp h
    exact forall_mem_cons.mpr ⟨hFirst, ih hOthers⟩

theorem joinLevel_isExpression (level : Nat) {l r : Expr} {op : Token} (hop : op ∈ tokens)
    (hl : IsExpression tokens l.toDatum) (hr : IsExpression tokens r.toDatum) :
    IsExpression tokens (joinLevel level l op r).toDatum := by
  unfold joinLevel
  split
  · exact .logical hl hop hr
  · exact .binary hl hop hr

theorem assignTo_returns {value : Parser Expr} (hValue : value.ReturnsExpression tokens) {target : Expr}
    (hTarget : IsExpression tokens target.toDatum) : (assignTo value target).ReturnsExpression tokens := by
  refine Returns.accept_bind (pure_returns hTarget) fun equals _ _ => ?_
  refine hValue.bind fun v ds hv => ?_
  cases target with
  | «variable» name => exact pure_returns (.assign hv)
  | _ => exact (complain_returns _ _).bind fun _ _ _ => pure_returns hTarget

theorem atom_returns {inner : Parser Expr} (hInner : inner.ReturnsExpression tokens) {t : Token} (ht : t ∈ tokens)
    (hKinds : t.kind ∈ [Kind.false, .true, .number, .string, .identifier, .leftParen]) :
    (atom inner t).ReturnsExpression tokens := by
  simp only [mem_cons, not_mem_nil, or_false] at hKinds
  rcases hKinds with hKind | hKind | hKind | hKind | hKind | hKind <;>
    simp only [atom, hKind, literalOf]
  · exact pure_returns .boolean
  · exact pure_returns .boolean
  · exact pure_returns (.number ht hKind)
  · exact pure_returns (.string ht hKind)
  · exact pure_returns .variable
  · exact (hInner.endedBy _ _).bind fun e ds he => pure_returns (.grouping he)

/-- The parsers of expressions return expressions, given such to extend. -/
structure ExpressionsReturn (tokens : List Token) (n : Nat) : Prop where
  expression : (expression n).ReturnsExpression tokens
  operand : ∀ level, (operand n level).ReturnsExpression tokens
  chain : ∀ level left, IsExpression tokens left.toDatum → (chain n level left).ReturnsExpression tokens
  unary : (unary n).ReturnsExpression tokens
  calls : ∀ callee, IsExpression tokens callee.toDatum → (calls n callee).ReturnsExpression tokens
  primary : (primary n).ReturnsExpression tokens

theorem expressions_return : ExpressionsReturn tokens n := by
  induction n with
  | zero => constructor <;> intros <;> exact spent_returns _
  | succ n ih =>
    constructor
    · rw [expression]
      exact (ih.operand 0).bind fun target _ hTarget => assignTo_returns ih.expression hTarget
    · intro level
      rw [operand]
      split
      · exact (ih.operand (level + 1)).bind fun left _ hLeft => ih.chain level left hLeft
      · exact ih.unary
    · intro level left hLeft
      rw [chain]
      refine Returns.accept_bind (pure_returns hLeft) fun op hop _ => ?_
      refine (ih.operand (level + 1)).bind fun right _ hRight => ?_
      exact ih.chain level _ (joinLevel_isExpression level hop hLeft hRight)
    · rw [unary]
      refine Returns.accept_bind ?_ fun op hop _ => ?_
      · exact ih.primary.bind fun callee _ hCallee => ih.calls callee hCallee
      · exact ih.unary.bind fun right _ hRight => pure_returns (.unary hop hRight)
    · intro callee hCallee
      rw [calls]
      refine Returns.accept_bind (pure_returns hCallee) fun _ _ _ => ?_
      have hNil : ∀ e ∈ ([] : List Expr), IsExpression tokens e.toDatum := by simp
      have hArguments : (listed (expression n) .tooManyArguments n).Returns tokens fun es _ =>
          ∀ e ∈ es, IsExpression tokens e.toDatum := by
        refine listed_returns ih.expression hNil (fun _ _ _ he hes => ?_) _ _
        exact forall_mem_cons.mpr ⟨he, hes⟩
      refine hArguments.bind fun arguments _ hArgs => Returns.expect_bind fun paren hParen => ?_
      exact ih.calls _ (.call hCallee (exprData_isExpression hArgs) hParen)
    · rw [primary]
      exact Returns.accept_bind (refuse_returns _ _) fun t ht hKind => atom_returns ih.expression ht hKind

/-! ## Types, parameters and fields -/

/-- A type, or a diagnostic that tells that it is missing. -/
theorem typeName_returns : typeName.Returns tokens fun type ds =>
    (∃ name, type = .named name) ∨ type = .malformed ∧ 1 ≤ missingTypes ds := by
  refine Returns.accept_bind ?_ fun t _ _ => ?_
  · refine peek_returns.bind fun t ds _ => (complain_returns t _).bind fun _ es hTold => ?_
    refine pure_returns ?_
    subst hTold
    exact .inr ⟨rfl, by simp [missingTypes, Token.diagnose]⟩
  · simp only
    split <;> exact pure_returns (.inl ⟨_, rfl⟩)

theorem typeMark_returns (marks : List Kind) : (typeMark marks).Returns tokens fun type ds =>
    type = .absent ∨ (∃ name, type = .named name) ∨ type = .malformed ∧ 1 ≤ missingTypes ds := by
  have hFound : (ifMarked marks typeName).Returns tokens fun found ds => found.getD .absent = .absent ∨
      (∃ name, found.getD .absent = .named name) ∨ found.getD .absent = .malformed ∧ 1 ≤ missingTypes ds :=
    Returns.ifMarked (.inl rfl) (typeName_returns.mono fun _ _ => .inr)
  exact hFound.bind_pure fun found ds h => h

theorem TypeMark.toDatum_orNone (type : TypeMark) : OrNone IsTypeName type.toDatum := by
  cases type with
  | named name => exact .some .mk
  | absent | malformed => exact .none

/-- It is such, and at least as many types are told to be missing as are missing in it. -/
def Told {γ : Type} (P : Nat → γ → Prop) (c : γ) (ds : List Diagnostic) : Prop := ∃ n, n ≤ missingTypes ds ∧ P n c

namespace Told

variable {γ δ : Type} {P : Nat → γ → Prop} {Q : Nat → δ → Prop} {c : γ} {d : δ} {ds es : List Diagnostic}

theorem zero (h : P 0 c) : Told P c ds := ⟨0, Nat.zero_le _, h⟩

theorem map (h : Told P c ds) (hQ : ∀ n, P n c → Q n d) : Told Q d ds := h.imp fun n hn => hn.imp_right (hQ n)

theorem behind (h : Told P c ds) (es : List Diagnostic) : Told P c (es ++ ds) := by
  obtain ⟨n, hn, h⟩ := h
  exact ⟨n, by rw [missingTypes_append]; omega, h⟩

theorem before (h : Told P c ds) (es : List Diagnostic) : Told P c (ds ++ es) := by
  obtain ⟨n, hn, h⟩ := h
  exact ⟨n, by rw [missingTypes_append]; omega, h⟩

theorem both {η : Type} {R : Nat → η → Prop} {e : η} (hc : Told P c ds) (hd : Told Q d es)
    (h : ∀ m n, P m c → Q n d → R (m + n) e) : Told R e (ds ++ es) := by
  obtain ⟨m, hm, hc⟩ := hc
  obtain ⟨n, hn, hd⟩ := hd
  exact ⟨m + n, by rw [missingTypes_append]; omega, h m n hc hd⟩

theorem nil {P : Nat → Datum → Prop} : Told (Each P) [] ds := zero .nil

theorem cons {P : Nat → Datum → Prop} {d : Datum} {data : List Datum} (hd : Told P d ds)
    (hData : Told (Each P) data es) : Told (Each P) (d :: data) (ds ++ es) :=
  hd.both hData fun _ _ => .cons

end Told

theorem parameter_returns : parameter.Returns tokens fun p ds => Told IsParameter p.toDatum ds := by
  refine Returns.expect_bind fun name _ => (typeMark_returns _).bind_pure fun type ds h => ?_
  rcases h with rfl | ⟨type, rfl⟩ | ⟨rfl, hTold⟩
  · exact .zero .untyped
  · exact .zero (.typed .mk)
  · exact ⟨1, hTold, .missing⟩

theorem structField_returns : structField.Returns tokens fun f ds => Told IsField f.toDatum ds := by
  refine Returns.accept_any fun marker => Returns.expect_bind fun name _ => Returns.expect_bind fun _ _ => ?_
  refine (typeName_returns.endedBy _ _).bind_pure fun type ds h => ?_
  rcases h with ⟨type, rfl⟩ | ⟨rfl, hTold⟩
  · exact .zero (.typed .mk)
  · exact ⟨1, hTold, .missing⟩

theorem structFields_returns : (structFields n).Returns tokens fun fields ds =>
    Told (Each IsField) (fields.map Field.toDatum) ds := by
  induction n with
  | zero => exact spent_returns _
  | succ n ih =>
    refine Returns.unlessSees .nil (structField_returns.bind fun first ds hFirst => ?_)
    exact ih.bind_pure fun others es hOthers => hFirst.cons hOthers

/-! ## Declarations and statements -/

/-- The parser returns records of such clauses only. -/
def Parser.ReturnsClause (p : Parser Stmt) (tokens : List Token) (clause : Clause) : Prop :=
  p.Returns tokens fun s ds => Told (clause.IsRecord tokens) s.toDatum ds

/-- The parser returns records of declarations only. -/
def Parser.ReturnsBody (p : Parser (List Stmt)) (tokens : List Token) : Prop :=
  p.Returns tokens fun ss ds => Told (Each (Clause.IsRecord tokens .declaration)) (stmtData ss) ds

theorem structDeclaration_returns : (structDeclaration n).ReturnsClause tokens .declaration := by
  refine Returns.expect_bind fun name _ => Returns.expect_bind fun _ _ => ?_
  exact ((structFields_returns n).endedBy _ _).bind_pure fun fields ds hFields => hFields.map fun _ => .struct

theorem varDeclaration_returns (isConst : Bool) : (varDeclaration n isConst).ReturnsClause tokens .declaration := by
  have hInitial : (ifMarked [.equal] (expression n)).Returns tokens fun o _ =>
      OrNone (IsExpression tokens) (optionalDatum o) :=
    Returns.ifMarked .none ((expressions_return n).expression.mono fun _ _ => .some)
  refine Returns.expect_bind fun name _ => (typeMark_returns _).bind fun type ds _ => ?_
  exact (hInitial.endedBy _ _).bind_pure fun initial es hInitial => .zero (.var type.toDatum_orNone hInitial)

section Bodies

variable {statement : Parser Stmt} {declarations : Parser (List Stmt)} (n : Nat)

theorem functionDeclaration_returns (hBody : declarations.ReturnsBody tokens) :
    (functionDeclaration n declarations).ReturnsClause tokens .declaration := by
  have hParams : (listed parameter .tooManyParameters n).Returns tokens fun ps ds =>
      Told (Each IsParameter) (ps.map Param.toDatum) ds :=
    listed_returns parameter_returns .nil (fun ds _ _ hp hps => (hp.cons hps).behind ds) _ _
  refine Returns.expect_bind fun name _ => Returns.expect_bind fun _ _ => ?_
  refine (hParams.endedBy _ _).bind fun params ds hParams => ?_
  refine (typeMark_returns _).bind fun result es _ => Returns.expect_bind fun _ _ => ?_
  refine (hBody.endedBy _ _).bind_pure fun body fs hBody => hParams.both (hBody.behind es) fun _ _ hParams hBody => ?_
  exact .function hParams result.toDatum_orNone hBody

theorem keywordDeclaration_returns (hBody : declarations.ReturnsBody tokens) (t : Token) :
    (keywordDeclaration n declarations t).ReturnsClause tokens .declaration := by
  unfold keywordDeclaration
  split
  · exact functionDeclaration_returns n hBody
  · exact structDeclaration_returns n
  · exact varDeclaration_returns n _

theorem ifStatement_returns (hStmt : statement.ReturnsClause tokens .statement) :
    (ifStatement n statement).ReturnsClause tokens .statement := by
  have hElse : (ifMarked [.else] statement).Returns tokens fun no ds =>
      no = none ∨ ∃ s, no = some s ∧ Told (Clause.IsRecord tokens .statement) s.toDatum ds :=
    Returns.ifMarked (.inl rfl) (hStmt.mono fun s _ hs => .inr ⟨s, rfl, hs⟩)
  refine Returns.expect_bind fun _ _ => ?_
  refine ((expressions_return n).expression.endedBy _ _).bind fun condition ds hCondition => ?_
  refine hStmt.bind fun yes es hYes => hElse.bind_pure fun no fs hNo => Told.behind ?_ ds
  rcases hNo with rfl | ⟨no, rfl, hNo⟩
  · exact (hYes.map fun _ => .ifThen hCondition).before fs
  · exact hYes.both hNo fun _ _ => .ifElse hCondition

theorem returnStatement_returns {keyword : Token} (hKeyword : keyword ∈ tokens) :
    (returnStatement n keyword).ReturnsClause tokens .statement := by
  have hValue : (unlessSees [.semicolon] none (some <$> expression n)).Returns tokens fun o _ =>
      OrNone (IsExpression tokens) (optionalDatum o) :=
    Returns.unlessSees .none ((expressions_return n).expression.bind fun e _ he => pure_returns (.some he))
  exact (hValue.endedBy _ _).bind_pure fun value ds hValue => .zero (.ret hKeyword hValue)

theorem keywordStatement_returns (hStmt : statement.ReturnsClause tokens .statement)
    (hBody : declarations.ReturnsBody tokens) {t : Token} (ht : t ∈ tokens) :
    (keywordStatement n statement declarations t).ReturnsClause tokens .statement := by
  unfold keywordStatement
  split
  · exact ifStatement_returns n hStmt
  · refine Returns.expect_bind fun _ _ => (hBody.endedBy _ _).bind_pure fun body ds hBody => ?_
    exact hBody.map fun _ => .loop
  · exact returnStatement_returns n ht
  · exact (hBody.endedBy _ _).bind_pure fun body ds hBody => hBody.map fun _ => .block

end Bodies

/-- The parsers of statements return records of their clauses. -/
structure StatementsReturn (tokens : List Token) (n : Nat) : Prop where
  declaration : (declaration n).Returns tokens fun found ds =>
    ∀ s, found = some s → Told (Clause.IsRecord tokens .declaration) s.toDatum ds
  statement : (statement n).ReturnsClause tokens .statement
  declarations : (declarations n).ReturnsBody tokens

theorem declarationsMore_returns {n : Nat} {p : Parser (List Stmt)}
    (hDeclaration : (declaration n).Returns tokens fun found ds =>
      ∀ s, found = some s → Told (Clause.IsRecord tokens .declaration) s.toDatum ds)
    (hp : p.ReturnsBody tokens) : Parser.ReturnsBody (declaration n >>= fun first => p >>= fun others =>
      pure (first.toList ++ others)) tokens := by
  refine hDeclaration.bind fun found ds hFound => hp.bind_pure fun others es hOthers => ?_
  cases found with
  | none => exact hOthers.behind ds -- a declaration that was dropped leaves only its complaints behind
  | some s => exact (hFound s rfl).cons hOthers

theorem statements_return : StatementsReturn tokens n := by
  induction n with
  | zero => constructor <;> exact spent_returns _
  | succ n ih =>
    constructor
    · rw [declaration]
      refine Returns.recover (declarationBody_orderly n) (fun _ _ h => by cases h) ?_
      refine Returns.accept_bind ?_ fun t _ _ => ?_
      · refine ih.statement.mono fun s ds hs s' hs' => ?_
        exact (Option.some.inj hs' ▸ hs).map fun _ => .plain
      · refine (keywordDeclaration_returns n ih.declarations t).mono fun s ds hs s' hs' => ?_
        exact Option.some.inj hs' ▸ hs
    · rw [statement]
      refine Returns.accept_bind ?_ fun t ht _ => ?_
      · exact ((expressions_return n).expression.endedBy _ _).bind_pure fun e ds he => .zero (.expression he)
      · exact keywordStatement_returns n ih.statement ih.declarations ht
    · rw [declarations]
      exact Returns.unlessSees .nil (declarationsMore_returns ih.declaration ih.declarations)

theorem program_returns : (program n).ReturnsBody tokens := by
  induction n with
  | zero => exact spent_returns _
  | succ n ih => exact Returns.unlessSees .nil (declarationsMore_returns (statements_return n).declaration ih)

/-- **What parsing returns is well formed, even after errors.** Whatever the tokens, if there is an end
token among them, the records returned follow the schema, and the types of parameters and fields that are
missing in them do not outnumber the diagnostics that tell of a missing type. -/
theorem parse_records_well_formed (tokens : List Token) (hEnd : HasEnd tokens) :
    ∃ stmts rest ds missing, parse tokens = ⟨.ok stmts, rest, ds⟩ ∧ missing ≤ missingTypes ds ∧
      Each (Clause.IsRecord tokens .declaration) missing (stmtData stmts) := by
  obtain ⟨before, e, rest, rfl, hBefore, he, -⟩ := hEnd.split
  obtain ⟨stmts, ds, hParse⟩ := parse_eq_ok hBefore he
  obtain ⟨-, missing, hTold, hRecords⟩ :=
    program_returns _ (before ++ e :: rest) (List.Subset.refl _) _ _ _ (hParse rest)
  exact ⟨stmts, e :: rest, ds, missing, hParse rest, hTold, hRecords⟩

/-- A parameter without its type, and in the body an operator without its left operand. -/
theorem parse_records_well_formed_missing :
    let tokens : List Token :=
      [⟨.fn, "fn", .none, 1⟩, ⟨.identifier, "f", .none, 1⟩, ⟨.leftParen, "(", .none, 1⟩,
       ⟨.identifier, "a", .none, 1⟩, ⟨.colon, ":", .none, 1⟩, ⟨.rightParen, ")", .none, 1⟩,
       ⟨.leftBrace, "\x7b", .none, 1⟩, ⟨.star, "*", .none, 2⟩, ⟨.return, "return", .none, 3⟩,
       ⟨.number, "1", .int 1, 3⟩, ⟨.semicolon, ";", .none, 3⟩, ⟨.rightBrace, "\x7d", .none, 4⟩,
       .eof 4]
    HasEnd tokens ∧ ∃ stmts rest ds missing, parse tokens = ⟨.ok stmts, rest, ds⟩ ∧
      missing ≤ missingTypes ds ∧
      Each (Clause.IsRecord tokens .declaration) missing (stmtData stmts) := by
  intro tokens
  have hEnd : HasEnd tokens := ⟨.eof 4, by simp [tokens], rfl⟩
  exact ⟨hEnd, parse_records_well_formed tokens hEnd⟩

end Scriptling.Braced
