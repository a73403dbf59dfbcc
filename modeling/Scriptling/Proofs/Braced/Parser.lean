import Scriptling.Braced.Parse

/-!
# Laws of parsers

How a sequence of parsers runs, what the small parsers do to the next token, and the properties that every
part of the grammar's parsers has because they are put together from these.

A `Congruence` is a relation between parsers that all the ways of putting parsers together respect, where the
second side may get its tokens on other lines. `Congruence.program` says once, by induction on fuel, that such a
relation holds between the parser of programs with some fuel and the same with more. A property of single parsers is
the case of a relation that ignores its second side.
-/

namespace Scriptling.Braced

open List

variable {marks : List Kind}

/-! ## Moving tokens to other lines -/

def Token.relocate (g : Int → Int) (t : Token) : Token := { t with line := g t.line }

def Diagnostic.relocate (g : Int → Int) (d : Diagnostic) : Diagnostic := { d with line := g d.line }

mutual

/-- The expression with its tokens on other lines. -/
def Expr.relocate (g : Int → Int) : Expr → Expr
  | .literal kind value => .literal kind value
  | .variable name => .variable name
  | .assign name value => .assign name (value.relocate g)
  | .logical l op r => .logical (l.relocate g) (op.relocate g) (r.relocate g)
  | .binary l op r => .binary (l.relocate g) (op.relocate g) (r.relocate g)
  | .unary op r => .unary (op.relocate g) (r.relocate g)
  | .call callee arguments paren =>
    .call (callee.relocate g) (relocateExprs g arguments) (paren.relocate g)
  | .grouping inner => .grouping (inner.relocate g)

/-- The expressions with their tokens on other lines. -/
def relocateExprs (g : Int → Int) : List Expr → List Expr
  | [] => []
  | e :: es => e.relocate g :: relocateExprs g es

end

mutual

/-- The statement with its tokens on other lines. -/
def Stmt.relocate (g : Int → Int) : Stmt → Stmt
  | .function name params result body => .function name params result (relocateStmts g body)
  | .struct name fields => .struct name fields
  | .var name typeMark initial isConst => .var name typeMark (initial.map (Expr.relocate g)) isConst
  | .branch condition yes no => .branch (condition.relocate g) (yes.relocate g) (relocateElse g no)
  | .loop body => .loop (relocateStmts g body)
  | .ret keyword value => .ret (keyword.relocate g) (value.map (Expr.relocate g))
  | .block body => .block (relocateStmts g body)
  | .expression e => .expression (e.relocate g)

/-- The second arm of a choice with its tokens on other lines. -/
def relocateElse (g : Int → Int) : Option Stmt → Option Stmt
  | none => none
  | some s => some (s.relocate g)

/-- The statements with their tokens on other lines. -/
def relocateStmts (g : Int → Int) : List Stmt → List Stmt
  | [] => []
  | s :: ss => s.relocate g :: relocateStmts g ss

end

def Ending.map {α β : Type} (f : α → β) : Ending α → Ending β
  | ok a => ok (f a)
  | failed => failed
  | offEnd => offEnd
  | outOfFuel => outOfFuel

/-- The reply on other lines; `f` says what becomes of its result. -/
def Reply.relocate {α β : Type} (g : Int → Int) (f : α → β) (r : Reply α) : Reply β :=
  ⟨r.ending.map f, r.rest.map (Token.relocate g), r.diagnostics.map (Diagnostic.relocate g)⟩

section

variable {g : Int → Int}

theorem relocateExprs_eq_map (es : List Expr) : relocateExprs g es = es.map (Expr.relocate g) := by
  induction es with
  | nil => rfl
  | cons e es ih => rw [relocateExprs, ih, map_cons]

theorem relocateElse_eq_map (no : Option Stmt) : relocateElse g no = no.map (Stmt.relocate g) := by
  cases no <;> rfl

theorem relocateStmts_eq_map (ss : List Stmt) : relocateStmts g ss = ss.map (Stmt.relocate g) := by
  induction ss with
  | nil => rfl
  | cons s ss ih => rw [relocateStmts, ih, map_cons]

theorem joinLevel_relocate (level : Nat) (l : Expr) (op : Token) (r : Expr) :
    (joinLevel level l op r).relocate g = joinLevel level (l.relocate g) (op.relocate g) (r.relocate g) := by
  unfold joinLevel
  split <;> rfl

end

namespace Parser

variable {α β : Type} {p : Parser α} {f : α → Parser β} {ts mid rest : List Token} {a : α} {ds : List Diagnostic}
    {kinds : List Kind} {t : Token}

/-! ## Running parsers in sequence -/

theorem pure_apply (a : α) (ts : List Token) : (pure a : Parser α) ts = ⟨.ok a, ts, []⟩ := rfl

theorem bind_of_ok (h : p ts = ⟨.ok a, mid, ds⟩) :
    (p >>= f) ts = ⟨(f a mid).ending, (f a mid).rest, ds ++ (f a mid).diagnostics⟩ := by
  show Parser.bind p f ts = _
  rw [Parser.bind, h]

theorem bind_of_failed (h : p ts = ⟨.failed, mid, ds⟩) : (p >>= f) ts = ⟨.failed, mid, ds⟩ := by
  show Parser.bind p f ts = _
  rw [Parser.bind, h]

theorem bind_of_offEnd (h : p ts = ⟨.offEnd, mid, ds⟩) : (p >>= f) ts = ⟨.offEnd, mid, ds⟩ := by
  show Parser.bind p f ts = _
  rw [Parser.bind, h]

theorem bind_of_outOfFuel (h : p ts = ⟨.outOfFuel, mid, ds⟩) : (p >>= f) ts = ⟨.outOfFuel, mid, ds⟩ := by
  show Parser.bind p f ts = _
  rw [Parser.bind, h]

/-- A sequence has a result only if both of its parts have, and its complaints are theirs. -/
theorem bind_eq_ok {b : β} (h : (p >>= f) ts = ⟨.ok b, rest, ds⟩) :
    ∃ a mid ds1 ds2, p ts = ⟨.ok a, mid, ds1⟩ ∧ f a mid = ⟨.ok b, rest, ds2⟩ ∧ ds = ds1 ++ ds2 := by
  rcases hp : p ts with ⟨_ | _ | _ | _, mid, ds1⟩
  next a =>
    rw [bind_of_ok hp, Reply.mk.injEq] at h
    obtain ⟨hEnding, hRest, hDs⟩ := h
    exact ⟨a, mid, ds1, (f a mid).diagnostics, rfl, by rw [← hEnding, ← hRest], hDs.symm⟩
  · simp [bind_of_failed hp] at h
  · simp [bind_of_offEnd hp] at h
  · simp [bind_of_outOfFuel hp] at h

/-- The quiet form of `bind_eq_ok`: nothing to complain about in either part. -/
theorem bind_eq_quiet {b : β} (h : (p >>= f) ts = ⟨.ok b, rest, []⟩) :
    ∃ a mid, p ts = ⟨.ok a, mid, []⟩ ∧ f a mid = ⟨.ok b, rest, []⟩ := by
  obtain ⟨a, mid, ds1, ds2, hp, hf, hDs⟩ := bind_eq_ok h
  obtain ⟨rfl, rfl⟩ := append_eq_nil_iff.mp hDs.symm
  exact ⟨a, mid, hp, hf⟩

theorem pure_eq_ok {b : α} (h : (pure a : Parser α) ts = ⟨.ok b, rest, ds⟩) : b = a ∧ rest = ts ∧ ds = [] := by
  rw [pure_apply, Reply.mk.injEq, Ending.ok.injEq] at h
  exact ⟨h.1.symm, h.2.1.symm, h.2.2.symm⟩

/-! ## The next token -/

/-- A token is read if it is of one of the kinds, and left alone if not. -/
theorem accept_eq_ok {found : Option Token} (h : accept kinds ts = ⟨.ok found, rest, ds⟩) :
    ds = [] ∧ ((∃ t, found = some t ∧ t.kind ∈ kinds ∧ ts = t :: rest) ∨
      (found = none ∧ rest = ts ∧ ∃ t more, ts = t :: more ∧ t.kind ∉ kinds)) := by
  cases ts with
  | nil => simp [accept] at h
  | cons t ts =>
    by_cases hMem : t.kind ∈ kinds
    · simp only [accept, contains_eq_mem, hMem, decide_true, if_true, Reply.mk.injEq, Ending.ok.injEq] at h
      obtain ⟨rfl, rfl, rfl⟩ := h
      exact ⟨rfl, .inl ⟨t, rfl, hMem, rfl⟩⟩
    · simp only [accept, contains_eq_mem, hMem, decide_false, Bool.false_eq_true, if_false,
        Reply.mk.injEq, Ending.ok.injEq] at h
      obtain ⟨rfl, rfl, rfl⟩ := h
      exact ⟨rfl, .inr ⟨rfl, rfl, t, ts, rfl, hMem⟩⟩

theorem ifMarked_eq_ok {found : Option α} (h : ifMarked marks p ts = ⟨.ok found, rest, ds⟩) :
    (∃ m mid a, m.kind ∈ marks ∧ ts = m :: mid ∧ found = some a ∧ p mid = ⟨.ok a, rest, ds⟩) ∨
      (found = none ∧ rest = ts ∧ ds = [] ∧ ∃ t more, ts = t :: more ∧ t.kind ∉ marks) := by
  obtain ⟨mark, mid, ds1, ds2, hMark, hNext, rfl⟩ := bind_eq_ok h
  obtain ⟨rfl, ⟨m, rfl, hKind, rfl⟩ | ⟨rfl, rfl, hNone⟩⟩ := accept_eq_ok hMark
  · obtain ⟨a, mid', ds3, ds4, hp, hLast, rfl⟩ := bind_eq_ok hNext
    obtain ⟨rfl, rfl, rfl⟩ := pure_eq_ok hLast
    exact .inl ⟨m, mid, a, hKind, rfl, rfl, by simpa using hp⟩
  · obtain ⟨rfl, rfl, rfl⟩ := pure_eq_ok hNext
    exact .inr ⟨rfl, rfl, rfl, hNone⟩

theorem sees_cons (kinds : List Kind) (t : Token) (ts : List Token) :
    sees kinds (t :: ts) = ⟨.ok (kinds.contains t.kind), t :: ts, []⟩ := rfl

theorem unlessSees_nil (kinds : List Kind) (a : α) (p : Parser α) : unlessSees kinds a p [] = ⟨.offEnd, [], []⟩ := rfl

theorem unlessSees_of_mem (h : t.kind ∈ kinds) (a : α) (p : Parser α) (ts : List Token) :
    unlessSees kinds a p (t :: ts) = ⟨.ok a, t :: ts, []⟩ := by
  have hSeen : sees kinds (t :: ts) = ⟨.ok true, t :: ts, []⟩ := by simp [sees_cons, h]
  exact bind_of_ok hSeen

theorem unlessSees_of_notMem (h : t.kind ∉ kinds) (a : α) (p : Parser α) (ts : List Token) :
    unlessSees kinds a p (t :: ts) = p (t :: ts) := by
  have hSeen : sees kinds (t :: ts) = ⟨.ok false, t :: ts, []⟩ := by simp [sees_cons, h]
  exact bind_of_ok hSeen

theorem unlessSees_eq_ok {b : α} (h : unlessSees kinds a p ts = ⟨.ok b, rest, ds⟩) :
    (∃ t more, ts = t :: more ∧ t.kind ∈ kinds ∧ b = a ∧ rest = ts ∧ ds = []) ∨
      (∃ t more, ts = t :: more ∧ t.kind ∉ kinds ∧ p ts = ⟨.ok b, rest, ds⟩) := by
  cases ts with
  | nil => simp [unlessSees_nil] at h
  | cons t more =>
    by_cases hMem : t.kind ∈ kinds
    · rw [unlessSees_of_mem hMem, Reply.mk.injEq, Ending.ok.injEq] at h
      exact .inl ⟨t, more, rfl, hMem, h.1.symm, h.2.1.symm, h.2.2.symm⟩
    · rw [unlessSees_of_notMem hMem] at h
      exact .inr ⟨t, more, rfl, hMem, h⟩

/-! ## Relations that sequences respect -/

/-- A relation between parsers that putting parsers together respects. The first argument says what becomes of a
result if tokens are moved to other lines by `g`. A parser without fuel is related to any other. -/
structure Congruence (g : Int → Int) (R : {α : Type} → (α → α) → Parser α → Parser α → Prop) : Prop where
  spent : ∀ {α : Type} (f : α → α) (q : Parser α), R f spent q
  pure : ∀ {α : Type} {f : α → α} {a b : α}, b = f a → R f (pure a) (pure b)
  bind : ∀ {α β : Type} {f : α → α} {h : β → β} {p q : Parser α} {k l : α → Parser β},
    R f p q → (∀ a, R h (k a) (l (f a))) → R h (p >>= k) (q >>= l)
  peek : R (Token.relocate g) peek peek
  complain : ∀ (t : Token) (c : Complaint), R id (complain t c) (complain (t.relocate g) c)
  refuse : ∀ {α : Type} (f : α → α) (c : Complaint), R f (refuse c) (refuse c)
  accept : ∀ {kinds : List Kind}, .endOfFile ∉ kinds → R (Option.map (Token.relocate g)) (accept kinds) (accept kinds)
  recover : ∀ {α : Type} {f : α → α} {p q : Parser α}, R f p q → R (Option.map f) (recover p) (recover q)

namespace Congruence

variable {g : Int → Int} {R : {α : Type} → (α → α) → Parser α → Parser α → Prop} (hR : Congruence g R)
    {f : α → α} {p q : Parser α}

include hR

theorem sees (kinds : List Kind) : R id (sees kinds) (sees kinds) := hR.bind hR.peek fun _ => hR.pure rfl

theorem accept_bind {kinds : List Kind} (hKinds : .endOfFile ∉ kinds) {k l : Option Token → Parser α}
    (hNone : R f (k none) (l none)) (hSome : ∀ t, R f (k (some t)) (l (some (t.relocate g)))) :
    R f (Parser.accept kinds >>= k) (Parser.accept kinds >>= l) :=
  hR.bind (hR.accept hKinds) fun
    | none => hNone
    | some t => hSome t

theorem expect {kind : Kind} (hKind : .endOfFile ∉ [kind]) (c : Complaint) :
    R (Token.relocate g) (expect kind c) (expect kind c) :=
  hR.accept_bind hKind (hR.refuse _ c) fun _ => hR.pure rfl

theorem endedBy (h : R f p q) {kind : Kind} (hKind : .endOfFile ∉ [kind]) (c : Complaint) :
    R f (endedBy p kind c) (endedBy q kind c) :=
  hR.bind h fun _ => hR.bind (hR.expect hKind c) fun _ => hR.pure rfl

theorem ifMarked (h : R f p q) (hMarks : .endOfFile ∉ marks) :
    R (Option.map f) (ifMarked marks p) (ifMarked marks q) :=
  hR.accept_bind hMarks (hR.pure rfl) fun _ => hR.bind h fun _ => hR.pure rfl

theorem unlessSees (h : R f p q) (kinds : List Kind) {a b : α} (hab : b = f a) :
    R f (unlessSees kinds a p) (unlessSees kinds b q) := by
  refine hR.bind (hR.sees kinds) fun seen => ?_
  cases seen with
  | true => exact hR.pure hab
  | false => exact h

theorem checkCount (count : Nat) (c : Complaint) : R id (checkCount count c) (checkCount count c) := by
  unfold Parser.checkCount
  split
  · exact hR.bind hR.peek fun t => hR.complain t c
  · exact hR.pure rfl

theorem items (h : R f p q) (c : Complaint) {n m : Nat} (hnm : n ≤ m) (count : Nat) :
    R (List.map f) (items p c n count) (items q c m count) := by
  induction n generalizing m count with
  | zero => exact hR.spent _ _
  | succ n ih =>
    obtain ⟨m, rfl⟩ : ∃ k, m = k + 1 := ⟨m - 1, by omega⟩
    refine hR.bind (hR.checkCount count c) fun _ => hR.bind h fun first => ?_
    refine hR.accept_bind (by decide) (hR.pure rfl) fun _ => ?_
    exact hR.bind (ih (by omega) (count + 1)) fun others => hR.pure rfl

theorem listed (h : R f p q) (c : Complaint) {n m : Nat} (hnm : n ≤ m) : R (List.map f) (listed p c n) (listed q c m) :=
  hR.unlessSees (hR.items h c hnm 0) _ rfl

end Congruence

end Parser

open Braced.Parser

/-! ## The parsers of the grammar respect every such relation -/

theorem endOfFile_notMem_levelKinds (level : Nat) : .endOfFile ∉ levelKinds level := by
  unfold levelKinds
  split <;> decide

/-- A declaration that may be missing, in front of others. -/
theorem toList_append_map {α β : Type} (f : α → β) (first : Option α) (others : List α) :
    (first.map f).toList ++ others.map f = (first.toList ++ others).map f := by
  cases first <;> rfl

section Respect

variable {g : Int → Int} {R : {α : Type} → (α → α) → Parser α → Parser α → Prop} (hR : Congruence g R)
  {n m : Nat}

include hR

namespace Parser.Congruence

theorem assignTo {p q : Parser Expr} (h : R (Expr.relocate g) p q) (target : Expr) :
    R (Expr.relocate g) (assignTo p target) (assignTo q (target.relocate g)) := by
  refine hR.accept_bind (by decide) (hR.pure rfl) fun equals => hR.bind h fun value => ?_
  cases target with
  | «variable» name => exact hR.pure rfl
  | _ => exact hR.bind (hR.complain equals _) fun _ => hR.pure rfl

theorem atom {p q : Parser Expr} (h : R (Expr.relocate g) p q) (t : Token) :
    R (Expr.relocate g) (atom p t) (atom q (t.relocate g)) := by
  -- nothing in an atom keeps a line
  rw [show Braced.atom q (t.relocate g) = Braced.atom q t from rfl]
  unfold Braced.atom
  split
  · exact hR.pure rfl
  · exact hR.pure rfl
  · exact hR.pure rfl
  · exact hR.bind (hR.endedBy h (by decide) _) fun inner => hR.pure rfl
  · exact hR.pure rfl

theorem typeName : R id typeName typeName := by
  refine hR.accept_bind (by decide) ?_ fun t => ?_
  · exact hR.bind hR.peek fun t => hR.bind (hR.complain t _) fun _ => hR.pure rfl
  · dsimp only [Token.relocate]
    split <;> exact hR.pure rfl

theorem typeMark (hMarks : .endOfFile ∉ marks) : R id (typeMark marks) (typeMark marks) :=
  hR.bind (hR.ifMarked hR.typeName hMarks) fun _ => hR.pure (by rw [Option.map_id, id, id])

theorem parameter : R id parameter parameter :=
  hR.bind (hR.expect (by decide) _) fun _ => hR.bind (hR.typeMark (by decide)) fun _ => hR.pure rfl

theorem structField : R id structField structField := by
  refine hR.bind (hR.accept (by decide)) fun _ => hR.bind (hR.expect (by decide) _) fun _ => ?_
  refine hR.bind (hR.expect (by decide) _) fun _ => hR.bind (hR.endedBy hR.typeName (by decide) _) fun _ => ?_
  exact hR.pure (by rw [Option.isSome_map]; rfl)

end Parser.Congruence

/-- The parsers of expressions with `n` units of fuel are related to those with `m`. -/
structure ExpressionsRelated (g : Int → Int) (R : {α : Type} → (α → α) → Parser α → Parser α → Prop) (n m : Nat) :
    Prop where
  expression : R (Expr.relocate g) (expression n) (expression m)
  operand : ∀ level, R (Expr.relocate g) (operand n level) (operand m level)
  chain : ∀ level left, R (Expr.relocate g) (chain n level left) (chain m level (left.relocate g))
  unary : R (Expr.relocate g) (unary n) (unary m)
  calls : ∀ callee, R (Expr.relocate g) (calls n callee) (calls m (callee.relocate g))
  primary : R (Expr.relocate g) (primary n) (primary m)

variable (hnm : n ≤ m)

include hnm

theorem ExpressionsRelated.succ (h : ExpressionsRelated g R n m) : ExpressionsRelated g R (n + 1) (m + 1) where
  expression := by
    rw [Braced.expression, Braced.expression]
    exact hR.bind (h.operand 0) fun target => hR.assignTo h.expression target
  operand level := by
    rw [Braced.operand, Braced.operand]
    split
    · exact hR.bind (h.operand (level + 1)) fun left => h.chain level left
    · exact h.unary
  chain level left := by
    rw [Braced.chain, Braced.chain]
    refine hR.accept_bind (endOfFile_notMem_levelKinds level) (hR.pure rfl) fun op => ?_
    refine hR.bind (h.operand (level + 1)) fun right => ?_
    rw [← joinLevel_relocate]
    exact h.chain level _
  unary := by
    rw [Braced.unary, Braced.unary]
    refine hR.accept_bind (by decide) (hR.bind h.primary fun callee => h.calls callee) fun op => ?_
    exact hR.bind h.unary fun right => hR.pure rfl
  calls callee := by
    rw [Braced.calls, Braced.calls]
    refine hR.accept_bind (by decide) (hR.pure rfl) fun _ => ?_
    refine hR.bind (hR.listed h.expression _ hnm) fun arguments => ?_
    refine hR.bind (hR.expect (by decide) _) fun paren => ?_
    rw [← relocateExprs_eq_map]
    exact h.calls (.call callee arguments paren)
  primary := by
    rw [Braced.primary, Braced.primary]
    exact hR.accept_bind (by decide) (hR.refuse _ _) fun t => hR.atom h.expression t

namespace Parser.Congruence

theorem expressions : ExpressionsRelated g R n m := by
  induction n generalizing m with
  | zero => constructor <;> intros <;> exact hR.spent _ _
  | succ n ih =>
    obtain ⟨m, rfl⟩ : ∃ k, m = k + 1 := ⟨m - 1, by omega⟩
    exact (ih (by omega)).succ hR (by omega)

theorem structFields : R id (structFields n) (structFields m) := by
  induction n generalizing m with
  | zero => exact hR.spent _ _
  | succ n ih =>
    obtain ⟨m, rfl⟩ : ∃ k, m = k + 1 := ⟨m - 1, by omega⟩
    refine hR.unlessSees ?_ _ rfl
    exact hR.bind hR.structField fun _ => hR.bind (ih (by omega)) fun _ => hR.pure rfl

theorem structDeclaration : R (Stmt.relocate g) (structDeclaration n) (structDeclaration m) :=
  hR.bind (hR.expect (by decide) _) fun _ => hR.bind (hR.expect (by decide) _) fun _ =>
    hR.bind (hR.endedBy (hR.structFields hnm) (by decide) _) fun _ => hR.pure rfl

theorem varDeclaration (isConst : Bool) :
    R (Stmt.relocate g) (varDeclaration n isConst) (varDeclaration m isConst) := by
  refine hR.bind (hR.expect (by decide) _) fun _ => hR.bind (hR.typeMark (by decide)) fun _ => ?_
  have hEqual : .endOfFile ∉ [Kind.equal] := by decide
  exact hR.bind (hR.endedBy (hR.ifMarked (hR.expressions hnm).expression hEqual) (by decide) _) fun _ => hR.pure rfl

theorem returnStatement (keyword : Token) :
    R (Stmt.relocate g) (returnStatement n keyword) (returnStatement m (keyword.relocate g)) := by
  have hValue : R (Option.map (Expr.relocate g)) (some <$> expression n) (some <$> expression m) :=
    hR.bind (hR.expressions hnm).expression fun _ => hR.pure rfl
  exact hR.bind (hR.endedBy (hR.unlessSees hValue _ rfl) (by decide) _) fun _ => hR.pure rfl

theorem expressionStatement : R (Stmt.relocate g) (expressionStatement n) (expressionStatement m) :=
  hR.bind (hR.endedBy (hR.expressions hnm).expression (by decide) _) fun _ => hR.pure rfl

section Nested

variable {p q : Parser (List Stmt)} (h : R (List.map (Stmt.relocate g)) p q)

include h

theorem keywordDeclaration (t : Token) :
    R (Stmt.relocate g) (keywordDeclaration n p t) (keywordDeclaration m q (t.relocate g)) := by
  rw [show Braced.keywordDeclaration m q (t.relocate g) = Braced.keywordDeclaration m q t from rfl]
  unfold Braced.keywordDeclaration
  split
  · refine hR.bind (hR.expect (by decide) _) fun _ => hR.bind (hR.expect (by decide) _) fun _ => ?_
    refine hR.bind (hR.endedBy (hR.listed hR.parameter _ hnm) (by decide) _) fun _ => ?_
    refine hR.bind (hR.typeMark (by decide)) fun _ => hR.bind (hR.expect (by decide) _) fun _ => ?_
    refine hR.bind (hR.endedBy h (by decide) _) fun _ => hR.pure ?_
    rw [Stmt.relocate, relocateStmts_eq_map, map_id]
    rfl
  · exact hR.structDeclaration hnm
  · exact hR.varDeclaration hnm _

theorem keywordStatement {r s : Parser Stmt} (hArm : R (Stmt.relocate g) r s) (t : Token) :
    R (Stmt.relocate g) (keywordStatement n r p t) (keywordStatement m s q (t.relocate g)) := by
  have hKind : (t.relocate g).kind = t.kind := rfl
  unfold Braced.keywordStatement
  rw [hKind]
  split
  · refine hR.bind (hR.expect (by decide) _) fun _ => ?_
    refine hR.bind (hR.endedBy (hR.expressions hnm).expression (by decide) _) fun _ => ?_
    refine hR.bind hArm fun _ => hR.bind (hR.ifMarked hArm (by decide)) fun _ => hR.pure ?_
    rw [Stmt.relocate, relocateElse_eq_map]
  · refine hR.bind (hR.expect (by decide) _) fun _ => hR.bind (hR.endedBy h (by decide) _) fun _ => hR.pure ?_
    rw [Stmt.relocate, relocateStmts_eq_map]
  · exact hR.returnStatement hnm t
  · refine hR.bind (hR.endedBy h (by decide) _) fun _ => hR.pure ?_
    rw [Stmt.relocate, relocateStmts_eq_map]

end Nested

end Parser.Congruence

/-- The parsers of statements with `n` units of fuel are related to those with `m`. -/
structure StatementsRelated (g : Int → Int) (R : {α : Type} → (α → α) → Parser α → Parser α → Prop) (n m : Nat) :
    Prop where
  declaration : R (Option.map (Stmt.relocate g)) (declaration n) (declaration m)
  statement : R (Stmt.relocate g) (statement n) (statement m)
  declarations : R (List.map (Stmt.relocate g)) (declarations n) (declarations m)

theorem StatementsRelated.succ (h : StatementsRelated g R n m) : StatementsRelated g R (n + 1) (m + 1) where
  declaration := by
    rw [Braced.declaration, Braced.declaration]
    refine hR.recover (hR.accept_bind (by decide) h.statement fun t => ?_)
    exact hR.keywordDeclaration hnm h.declarations t
  statement := by
    rw [Braced.statement, Braced.statement]
    refine hR.accept_bind (by decide) (hR.expressionStatement hnm) fun t => ?_
    exact hR.keywordStatement hnm h.declarations h.statement t
  declarations := by
    rw [Braced.declarations, Braced.declarations]
    refine hR.unlessSees (hR.bind h.declaration fun first => ?_) _ rfl
    exact hR.bind h.declarations fun others => hR.pure (toList_append_map _ first others)

namespace Parser.Congruence

theorem statements : StatementsRelated g R n m := by
  induction n generalizing m with
  | zero => constructor <;> exact hR.spent _ _
  | succ n ih =>
    obtain ⟨m, rfl⟩ : ∃ k, m = k + 1 := ⟨m - 1, by omega⟩
    exact (ih (by omega)).succ hR (by omega)

/-- A congruence relates the parser of programs to itself with more fuel. -/
theorem program : R (List.map (Stmt.relocate g)) (program n) (program m) := by
  induction n generalizing m with
  | zero => exact hR.spent _ _
  | succ n ih =>
    obtain ⟨m, rfl⟩ : ∃ k, m = k + 1 := ⟨m - 1, by omega⟩
    refine hR.unlessSees (hR.bind (hR.statements (by omega)).declaration fun first => ?_) _ rfl
    exact hR.bind (ih (by omega)) fun others => hR.pure (toList_append_map _ first others)

end Parser.Congruence

end Respect

end Scriptling.Braced
