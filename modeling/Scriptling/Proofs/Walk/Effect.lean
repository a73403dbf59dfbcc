import Scriptling.Proofs.Scope.Operation
import Scriptling.Walk.Run

/-!
# Effects of trees on environments

Most of what the walker does leaves its surroundings alone: it looks at values, prints, makes objects, or calls a
routine. Some of it makes new environments and defines names in these. The rest is marking a variable as used,
storing under a name that stands in the tree, and executing the statements of a block in an environment of their own.
An `Effect` says of a relation between surroundings that these few operations keep it, where only some names are stored
under. A detour may do anything, but it is recorded. So every tree that stores under no other names keeps the relation
if the detours do that it makes (`Effect.execute`).

The induction is on fuel, over all forms of expression and statement.
-/

namespace Scriptling.Walk

open Scope (Action Forest Operation Variable)

/-! ## Names that a tree stores under -/

namespace Node

/-- A node stands somewhere in another. -/
inductive OccursIn (p : Node) : Node → Prop
  | self : OccursIn p p
  | field {n q key} (hField : n.field? key = some q) (h : OccursIn p q) : OccursIn p n
  | item {q items} (hItem : q ∈ items) (h : OccursIn p q) : OccursIn p (.list items)

def lexeme? (n : Node) : Option String :=
  match n.field? "lexeme" with
  | some (.value (.str s)) => some s
  | _ => none

def declared? (n : Node) : Option String :=
  match n.stmtForm? with
  | some .declaration | some .function => (n.field? "name").bind lexeme?
  | _ => none

/-- The variable that a node assigns to, as its name is given. -/
def assigned? (n : Node) : Option Node :=
  match n.exprForm?, n.field? "target" with
  | some .assign, some (.node "VariableExpr" d fields) => (node "VariableExpr" d fields).field? "name"
  | _, _ => none

/-- All names that a tree stores under are allowed. -/
def StoresOnly (allowed : String → Prop) (n : Node) : Prop :=
  ∀ p : Node, p.OccursIn n → ∀ name, p.declared? = some name ∨ p.assigned?.bind lexeme? = some name → allowed name

variable {allowed : String → Prop} {n q : Node}

theorem StoresOnly.field (hn : n.StoresOnly allowed) {key : String} (h : n.field? key = some q) :
    q.StoresOnly allowed := fun p hp => hn p (.field h hp)

theorem StoresOnly.item {items : List Node} (hn : (list items).StoresOnly allowed) (h : q ∈ items) :
    q.StoresOnly allowed := fun p hp => hn p (.item h hp)

/-- A part that stores nothing itself, and whose parts store under allowed names only. -/
theorem storesOnly_of_fields (hDeclared : n.declared? = none) (hAssigned : n.assigned? = none)
    (hItems : ∀ items, n ≠ list items) (hFields : ∀ key q, n.field? key = some q → q.StoresOnly allowed) :
    n.StoresOnly allowed := by
  intro p hp name hStores
  cases hp with
  | self => simp [hDeclared, hAssigned] at hStores
  | field hField h => exact hFields _ _ hField p h name hStores
  | item => exact absurd rfl (hItems _)

theorem storesOnly_value (d : Datum) : (value d).StoresOnly allowed := by
  refine storesOnly_of_fields rfl rfl (fun _ h => by cases h) fun key q hField => ?_
  cases hField

end Node

/-! ## Changes of environments -/

/-- What storing under a name makes of a forest: nothing at all if it fails, else a new variable or a change of one
that has the name. -/
inductive Stored (name : String) (f : Forest) : Forest → Prop
  | nothing : Stored name f f
  | bound (id : Nat) (x : Variable) : Stored name f (f.bindNew id name x)
  | changed {e v} (hBound : f.bound? e name = some v) (g : Variable → Variable) :
      Stored name f (f.updateVariable v g)

section Actions

variable (id : Nat) (distance : Int) (name : String) (value : Datum) (mark : Scope.ScopeMark) (f : Forest)

/-- Defining a name is refused, or binds it to a new variable. -/
theorem run_define_cases :
    (∃ e, (Action.define id name value mark false).run f = (.error e, f)) ∨
    (Action.define id name value mark false).run f =
      (.ok (), f.bindNew id name ⟨value, mark, false, false, false⟩) := by
  unfold Action.define
  rw [run_get_bind]
  cases Action.checkNew f id name mark with
  | error e => exact .inl ⟨e, rfl⟩
  | ok u =>
    right
    simp only [Bool.false_eq_true, and_false, if_false]
    rfl

theorem stored_define : Stored name f ((Action.define id name value mark false).run f).2 := by
  rcases run_define_cases id name value mark f with ⟨e, hRun⟩ | hRun
  · rw [hRun]
    exact .nothing
  · rw [hRun]
    exact .bound id _

theorem run_variableAt_cases :
    (∃ e, (Action.variableAt id distance name).run f = (.error e, f)) ∨
    ∃ e v, f.ancestor? id distance.toNat = some e ∧ f.bound? e name = some v ∧
      (Action.variableAt id distance name).run f = (.ok v, f) := by
  cases hAncestor : f.ancestor? id distance.toNat with
  | none => exact .inl ⟨_, Operation.run_variableAt_of_beyond hAncestor⟩
  | some e =>
    cases hBound : f.bound? e name with
    | none => exact .inl ⟨_, Operation.run_variableAt_of_missing hAncestor hBound⟩
    | some v => exact .inr ⟨e, v, rfl, hBound, Operation.run_variableAt_of_bound hAncestor hBound⟩

/-- An assignment at a distance fails, or it changes the variable there. -/
theorem run_assignAt_cases :
    (∃ e, (Action.assignAt id distance name value).run f = (.error e, f)) ∨
    ∃ e v, f.ancestor? id distance.toNat = some e ∧ f.bound? e name = some v ∧
      (Action.assignAt id distance name value).run f =
        (.ok (), f.updateVariable v fun x => { x with value := value }) := by
  unfold Action.assignAt
  rcases run_variableAt_cases id distance name f with ⟨e, hRun⟩ | ⟨e, v, hAncestor, hBound, hRun⟩
  · exact .inl ⟨e, run_bind_of_error hRun⟩
  · exact .inr ⟨e, v, hAncestor, hBound, run_bind_of_ok hRun⟩

theorem stored_assignAt : Stored name f ((Action.assignAt id distance name value).run f).2 := by
  rcases run_assignAt_cases id distance name value f with ⟨e, hRun⟩ | ⟨e, v, -, hBound, hRun⟩
  · rw [hRun]
    exact .nothing
  · rw [hRun]
    exact .changed hBound _

theorem stored_assign : Stored name f ((Action.assign id name value false).run f).2 := by
  cases hFind : f.find? id name with
  | none =>
    rw [Operation.run_assign_of_none hFind]
    exact .bound id _
  | some found =>
    obtain ⟨e, v⟩ := found
    unfold Action.assign
    rw [run_get_bind]
    simp only [hFind]
    split
    · exact .nothing
    · exact .changed (Forest.bound?_of_find? hFind) _

theorem run_lookupAt_forest : ((Action.lookupAt id distance name).run f).2 = f := by
  unfold Action.lookupAt
  rcases run_variableAt_cases id distance name f with ⟨e, hRun⟩ | ⟨e, v, -, -, hRun⟩
  · rw [run_bind_of_error hRun]
  · rw [run_bind_of_ok hRun]
    rfl

/-- Looking a name up marks its variable at most. -/
theorem run_lookup_forest :
    ((Action.lookup id name).run f).2 = f ∨
    ∃ v, ((Action.lookup id name).run f).2 = f.updateVariable v fun x => { x with isUsed := true } := by
  unfold Action.lookup
  rw [run_get_bind]
  split
  · exact .inl rfl
  · exact .inr ⟨_, rfl⟩

end Actions

/-- What a new environment inside another, and names that are bound in it, make of a forest. -/
inductive Sprouted (f : Forest) (env : Nat) : Forest → Prop
  | child : Sprouted f env (f.add (some env) none).2
  | binds {g} (h : Sprouted f env g) (name : String) (x : Variable) :
      Sprouted f env (g.bindNew f.environments.size name x)

/-- The surroundings in which the statements of a block are executed. -/
def Surroundings.entered (s : Surroundings) : Surroundings :=
  ⟨(s.forest.add (some s.current) none).2, s.forest.environments.size⟩

/-- The state in which the inside of a block begins. -/
def Machine.entered (m : Machine) : Machine := { m with toSurroundings := m.toSurroundings.entered }

/-- What the walker does to its surroundings keeps a relation between them, where it stores under allowed names. -/
structure Effect (allowed : String → Prop) (R : Surroundings → Surroundings → Prop) : Prop where
  refl : ∀ s : Surroundings, R s s
  trans : ∀ {s₁ s₂ s₃ : Surroundings}, R s₁ s₂ → R s₂ s₃ → R s₁ s₃
  sprouts : ∀ {s : Surroundings} {env : Nat} {f : Forest}, Sprouted s.forest env f → R s { s with forest := f }
  marks : ∀ (s : Surroundings) (v : Nat),
    R s { s with forest := s.forest.updateVariable v fun x => { x with isUsed := true } }
  stores : ∀ {s : Surroundings} {name : String} {f : Forest}, allowed name → Stored name s.forest f →
    R s { s with forest := f }
  /-- A block is left for the environment around it. -/
  block : ∀ {s s' : Surroundings}, R s.entered s' → R s { s' with current := s.current }

/-! ## Detours -/

/-- The relation holds between the surroundings of two states if it holds between those before and after each detour
that was made from one to the other. -/
def Machine.UpToDetours (R : Surroundings → Surroundings → Prop) (before after : Machine) : Prop :=
  ∃ detours, after.detours = before.detours ++ detours ∧
    ((∀ d ∈ detours, R d.1 d.2) → R before.toSurroundings after.toSurroundings)

/-- However a run ends, the relation holds between the surroundings before and after it if its detours keep it. -/
abbrev Follows {α : Type} (R : Surroundings → Surroundings → Prop) (r : Run α) : Prop := Keeps (Machine.UpToDetours R) r

namespace Machine.UpToDetours

variable {R : Surroundings → Surroundings → Prop} {m₀ m m' : Machine}

theorem refl (hRefl : ∀ s, R s s) (m : Machine) : m.UpToDetours R m := ⟨[], by simp, fun _ => hRefl _⟩

theorem step (hTrans : ∀ {s₁ s₂ s₃}, R s₁ s₂ → R s₂ s₃ → R s₁ s₃) (h : m₀.UpToDetours R m)
    (hDetours : m'.detours = m.detours) (hStep : R m.toSurroundings m'.toSurroundings) : m₀.UpToDetours R m' := by
  obtain ⟨detours, hMade, hKept⟩ := h
  exact ⟨detours, hDetours.trans hMade, fun hCalm => hTrans (hKept hCalm) hStep⟩

/-- A state that differs in nothing that matters. -/
theorem quiet (h : m₀.UpToDetours R m) (hDetours : m'.detours = m.detours)
    (hSame : m'.toSurroundings = m.toSurroundings) : m₀.UpToDetours R m' := by
  obtain ⟨detours, hMade, hKept⟩ := h
  exact ⟨detours, hDetours.trans hMade, hSame ▸ hKept⟩

theorem detour (hTrans : ∀ {s₁ s₂ s₃}, R s₁ s₂ → R s₂ s₃ → R s₁ s₃) (h : m₀.UpToDetours R m)
    (hDetours : m'.detours = m.detours ++ [(m.toSurroundings, m'.toSurroundings)]) : m₀.UpToDetours R m' := by
  obtain ⟨detours, hMade, hKept⟩ := h
  refine ⟨detours ++ [(m.toSurroundings, m'.toSurroundings)], by rw [hDetours, hMade, List.append_assoc], ?_⟩
  intro hCalm
  have hBefore := hKept fun d hd => hCalm d (List.mem_append_left _ hd)
  exact hTrans hBefore (hCalm _ (List.mem_append_right _ (List.mem_singleton_self _)))

/-- Without a detour, the relation holds. -/
theorem of_none (h : m₀.UpToDetours R m) (hDetours : m.detours = m₀.detours) :
    R m₀.toSurroundings m.toSurroundings := by
  obtain ⟨detours, hMade, hKept⟩ := h
  have hNone : detours = [] := List.self_eq_append_right.mp (hDetours.symm.trans hMade)
  exact hKept (by simp [hNone])

theorem block {allowed : String → Prop} (hR : Effect allowed R) (h : m₀.UpToDetours R m)
    (hInside : m.entered.UpToDetours R m') : m₀.UpToDetours R { m' with current := m.current } := by
  obtain ⟨detours, hMade, hKept⟩ := h
  obtain ⟨inner, hMadeInside, hKeptInside⟩ := hInside
  refine ⟨detours ++ inner, ?_, fun hCalm => ?_⟩
  · rw [← List.append_assoc, ← hMade]
    exact hMadeInside
  · have hBefore := hKept fun d hd => hCalm d (List.mem_append_left _ hd)
    exact hR.trans hBefore (hR.block (hKeptInside fun d hd => hCalm d (List.mem_append_right _ hd)))

end Machine.UpToDetours

/-- What every part of a run follows holds from its first state to its last. -/
theorem Effect.upToDetours {α : Type} {allowed : String → Prop} {R : Surroundings → Surroundings → Prop}
    (hR : Effect allowed R) {r : Run α} (hr : Follows R r) (m : Machine) : m.UpToDetours R (r.run m).2 :=
  hr m m (.refl hR.refl m)

/-! ## Parts of nodes -/

end Scriptling.Walk

namespace Scriptling.Keeps

open Walk

variable {β : Type} {K : Machine → Machine → Prop} {n : Node}

theorem needField {key : String} {f : Node → Run β} (hf : ∀ q, n.field? key = some q → Keeps K (f q)) :
    Keeps K (needField n key >>= f) := by
  unfold Walk.needField
  split
  next q hField =>
    rw [pure_bind]
    exact hf q hField
  · exact fun _ _ h => h

theorem lexemeOf {f : String → Run β} (hf : ∀ name, n.lexeme? = some name → Keeps K (f name)) :
    Keeps K (lexemeOf n >>= f) := by
  unfold Walk.lexemeOf
  rw [bind_assoc]
  refine .needField fun q hField => ?_
  split
  next name =>
    rw [pure_bind]
    exact hf name (by rw [Node.lexeme?, hField])
  · exact fun _ _ h => h

end Scriptling.Keeps

namespace Scriptling.Walk

section Parts

variable {K : Machine → Machine → Prop}

theorem keeps_functionOf (id : Nat) : Keeps K (functionOf id) := Keeps.get.bind fun _ => .pure _

theorem keeps_markOf (n : Node) : Keeps K (markOf n) := by
  unfold markOf
  split
  · exact .pure _
  · exact .throw _

theorem keeps_repeatWhile {condition : Run Bool} {turn : Run Unit} (hCondition : Keeps K condition)
    (hTurn : Keeps K turn) (fuel : Nat) : Keeps K (repeatWhile condition turn fuel) := by
  induction fuel with
  | zero => exact .throw _
  | succ fuel ih =>
    refine hCondition.bind fun holds => ?_
    split
    · refine ((hTurn.bind fun _ => .pure true).tryCatch fun signal => ?_).bind fun goOn => ?_
      · split
        · exact .pure true
        · exact .pure false
        · exact .throw _
      · split
        · exact ih
        · exact .pure ()
    · exact .pure ()

theorem keeps_onScopes {α : Type} {a : Scope.Action α}
    (ha : ∀ m₀ m, K m₀ m → K m₀ { m with forest := (a.run m.forest).2 }) : Keeps K (Run.onScopes a) := by
  refine .get_bind fun m₀ m hm => .bind (.set fun _ => ha m₀ m hm) fun _ => ?_
  split
  · exact .pure _
  · exact .throw _

end Parts

/-! ## Runs that leave the surroundings alone -/

/-- The relation does not tell later states apart whose surroundings and detours are the same. -/
def Undisturbed (K : Machine → Machine → Prop) : Prop :=
  ∀ m₀ m m' : Machine, K m₀ m → m'.detours = m.detours → m'.toSurroundings = m.toSurroundings → K m₀ m'

namespace Undisturbed

variable {K : Machine → Machine → Prop} (hK : Undisturbed K)
include hK

theorem act {α : Type} (a : Builtin.Act α) : Keeps K (Run.act a) := by
  refine .get_bind fun _ m hm => .bind (.set fun _ => hK _ _ _ hm rfl rfl) fun _ => ?_
  split
  · exact .pure _
  · exact .throw _

theorem newFunction (f : FunctionObject) : Keeps K (newFunction f) := .modifyGet fun _ _ hm => hK _ _ _ hm rfl rfl

theorem parametersOf [Size.Room] (f : FunctionObject) : Keeps K (parametersOf f) := by
  refine .needField fun q _ => ?_
  unfold Walk.partsOf
  split
  · exact .pure _
  · exact (hK.act _).bind fun _ => .pure _
  · exact .throw _

end Undisturbed

theorem undisturbed_upToDetours (R : Surroundings → Surroundings → Prop) : Undisturbed (Machine.UpToDetours R) :=
  fun _ _ _ => .quiet

/-! ## New environments -/

/-- An environment is new since a state that is related to the first one, and nothing but names bound in it has come
since. -/
structure Machine.Sprouting (R : Surroundings → Surroundings → Prop) (new : Nat) (m₀ m : Machine) : Prop where
  before : ∃ m₁ : Machine, m₀.UpToDetours R m₁ ∧ m.current = m₁.current ∧ m.detours = m₁.detours ∧
    m₁.forest.environments.size = new ∧ ∃ env, Sprouted m₁.forest env m.forest

section Sprouting

variable (R : Surroundings → Surroundings → Prop) (new : Nat)

theorem undisturbed_sprouting : Undisturbed (Machine.Sprouting R new) := by
  intro m₀ m m' hm hDetours hSame
  obtain ⟨m₁, hBefore, hCurrent, hMade, hNew, env, hSprouted⟩ := hm.before
  refine ⟨m₁, hBefore, ?_, hDetours.trans hMade, hNew, env, ?_⟩
  · rw [hSame, hCurrent]
  · rw [hSame]
    exact hSprouted

theorem define_sprouting (name : String) (v : Datum) (mark : Scope.ScopeMark) :
    Keeps (Machine.Sprouting R new) (Run.onScopes (.define new name v mark false)) := by
  refine keeps_onScopes fun m₀ m hm => ?_
  rcases run_define_cases new name v mark m.forest with ⟨e, hRun⟩ | hRun
  · rw [hRun]
    exact hm
  · obtain ⟨m₁, hBefore, hCurrent, hMade, rfl, env, hSprouted⟩ := hm.before
    rw [hRun]
    exact ⟨m₁, hBefore, hCurrent, hMade, rfl, env, hSprouted.binds name _⟩

theorem defineParameters_sprouting (params : List Node) (args : List Datum) :
    Keeps (Machine.Sprouting R new) (defineParameters new params args) := by
  induction params generalizing args with
  | nil => exact .pure ()
  | cons p ps ih =>
    refine .needField fun _ _ => .lexemeOf fun name _ => ?_
    exact (define_sprouting R new _ _ _).bind fun _ => ih args.tail

end Sprouting

/-! ## Expressions that look at values -/

namespace Follows

variable {α β : Type} {R : Surroundings → Surroundings → Prop}

theorem act (a : Builtin.Act α) : Follows R (Run.act a) := (undisturbed_upToDetours R).act a

/-- The parts of a node that stores under allowed names only do so, too. -/
theorem partsOf_bind [Size.Room] {allowed : String → Prop} {n : Node} (hn : n.StoresOnly allowed)
    {f : List Node → Run β} (hf : ∀ parts, (∀ p ∈ parts, p.StoresOnly allowed) → Follows R (f parts)) :
    Follows R (partsOf n >>= f) := by
  unfold partsOf
  split
  · rw [pure_bind]
    exact hf _ fun p hp => hn.item hp
  · rw [bind_assoc]
    refine (act _).bind fun items => ?_
    rw [pure_bind]
    refine hf _ fun p hp => ?_
    obtain ⟨d, -, rfl⟩ := List.mem_map.mp hp
    exact Node.storesOnly_value d
  · exact fun _ _ h => h

theorem className (n : Node) : Follows R (className n) := by
  unfold Walk.className
  split
  iterate 3 exact .pure _
  exact act _

theorem isPresent (n : Node) : Follows R (isPresent n) := by
  unfold Walk.isPresent
  split
  · exact .pure _
  · exact act _
  · exact .pure _

theorem holds (d : Datum) : Follows R (holds d) := (act _).bind fun _ => .pure _

theorem ordered (r : Datum.Relation) (a b : Datum) : Follows R (ordered r a b) :=
  (act _).bind fun _ => (act _).bind fun _ => (act _).bind fun _ => .pure _

theorem equal [Size.Room] (a b : Datum) : Follows R (equal a b) := by
  have hDecide : Follows R (equal.decideEqual a b) := (act _).bind fun _ => (act _).bind fun _ => act _
  unfold Walk.equal
  split
  · split
    · exact .pure _
    · exact hDecide
  · exact hDecide

theorem operatorKind (n : Node) : Follows R (operatorKind n) := by
  refine .needField fun _ _ => .needField fun kind _ => ?_
  split
  · exact act _
  · exact className _

end Follows

namespace Effect

variable {α β : Type} {allowed : String → Prop} {R : Surroundings → Surroundings → Prop} (hR : Effect allowed R)
  {n : Node}
include hR

open Run

/-! ## Objects and detours -/

/-- What is done with a new environment may bind names in it. -/
theorem child_bind (env : Nat) {f : Nat → Run β}
    (hf : ∀ new, Keeps (Machine.Sprouting R new) (f new)) : Follows R (Run.child env >>= f) := by
  intro m₀ m hm
  let m₁ : Machine := { m with forest := (m.forest.add (some env) none).2 }
  have hNew : m₀.Sprouting R m.forest.environments.size m₁ := ⟨m, hm, rfl, rfl, rfl, env, .child⟩
  have hEnd := hf m.forest.environments.size m₀ m₁ hNew
  show m₀.UpToDetours R ((f m.forest.environments.size).run m₁).2
  generalize ((f m.forest.environments.size).run m₁).2 = m₂ at hEnd ⊢
  obtain ⟨m', hBefore, hCurrent, hMade, -, env, hSprouted⟩ := hEnd.before
  have hSame : m₂.toSurroundings = ⟨m₂.forest, m'.current⟩ := by
    rw [← hCurrent]
  refine hBefore.step hR.trans hMade ?_
  rw [hSame]
  exact hR.sprouts hSprouted

theorem bindFunction (id : Nat) (self : Datum) : Follows R (bindFunction id self) := by
  refine (keeps_functionOf id).bind fun f => hR.child_bind _ fun new => ?_
  exact (define_sprouting R new _ _ _).bind fun _ => (undisturbed_sprouting R new).newFunction _

theorem callByMethod [Size.Room] (id : Nat) (runner given : Datum) : Follows R (callByMethod id runner given) := by
  refine (keeps_functionOf _).bind fun f => hR.child_bind _ fun new => ?_
  have hNew := undisturbed_sprouting R new
  have hEnd : Keeps (Machine.Sprouting R new) (refuseBody f runner) := by
    unfold refuseBody
    split
    · exact .needField fun _ _ => .throw _
    · exact .throw _
  refine (hNew.parametersOf f).bind fun params => ?_
  dsimp only
  split
  · exact hEnd
  · exact (hNew.act _).bind fun args => (defineParameters_sprouting R new params args).bind fun _ => hEnd

theorem detour (r : Run α) : Follows R (detour r) := fun _ _ hm => hm.detour hR.trans rfl

theorem actOr (a : Builtin.Act α) (other : Run α) : Follows R (actOr a other) := by
  refine .get_bind fun m₀ m hm => ?_
  split
  · exact fun _ => hR.detour other m₀
  · exact .bind (.set fun _ => hm.quiet rfl rfl) fun _ => .throw _
  · exact .bind (.set fun _ => hm.quiet rfl rfl) fun _ => .pure _

theorem propertyOf? [Host] (d : Datum) (name : String) : Follows R (propertyOf? d name) := by
  refine Keeps.get.bind fun m => ?_
  split
  · exact .pure _
  · split
    · exact .pure _
    · exact hR.actOr _ _

/-- Only detours reach the surroundings when a property is set. -/
theorem setPropertyOf [Host] (d : Datum) (name : String) (v : Datum) : Follows R (setPropertyOf d name v) := by
  have hUpdate (id : Nat) (g : FunctionObject → FunctionObject) : Follows R (updateFunction id g) :=
    .modify fun _ _ hm => hm.quiet rfl rfl
  unfold Walk.setPropertyOf
  split
  · exact hUpdate _ _
  · exact hUpdate _ _
  · split
    · exact hR.detour _
    · exact hUpdate _ _
  · exact hR.detour _
  · exact hR.actOr _ _

theorem callRoutine [Size.Room] [Host] (f : Datum) (args : List Datum) : Follows R (callRoutine f args) := by
  refine (Keeps.mapM_mem fun _ _ => Follows.act _).bind fun seen => ?_
  split
  · exact hR.detour _
  · exact hR.actOr _ _

/-- A call changes the surroundings by detours and new environments only. -/
theorem callValue [Size.Room] [Host] (n : Node) (f : Datum) (args : List Datum) : Follows R (callValue n f args) := by
  have hFrame : Follows R (frameOf n f args) := (Follows.act _).bind fun _ => .pure _
  unfold Walk.callValue
  split
  · refine Keeps.bind ?_ fun _ => .pure _
    exact (keeps_functionOf _).bind fun f => ((undisturbed_upToDetours R).parametersOf f).bind fun _ => .pure _
  · exact hR.bindFunction _ _
  · refine (Follows.act _).bind fun seen => ?_
    split
    · exact hR.detour _
    · split
      · exact hR.detour _
      · exact hR.callByMethod _ _ _
  · exact hR.detour _
  iterate 3 exact hFrame.bind fun _ => Follows.act _
  · exact (hR.propertyOf? _ _).bind fun _ => .pure _
  · refine (hR.propertyOf? _ _).bind fun found => ?_
    split
    · exact .pure _
    · exact .throw _
  · exact (hR.setPropertyOf _ _ _).bind fun _ => .pure _
  · split
    · exact .throw _
    · exact hR.callRoutine _ _
  · exact hR.callRoutine _ _

/-! ## Expressions -/

theorem arithmetic [Size.Room] [Host] (op : Datum.Operator) (a b : Datum) : Follows R (arithmetic op a b) := by
  refine (Follows.act _).bind fun x => (Follows.act _).bind fun y => (Follows.act _).bind fun filling => ?_
  split
  · split
    · exact hR.detour _
    · exact Follows.act _
  · exact Follows.act _

theorem binary [Size.Room] [Host] (kind : String) (a b : Datum) : Follows R (binary kind a b) := by
  unfold Walk.binary
  split
  iterate 6 exact hR.arithmetic _ a b
  iterate 4 exact Follows.ordered _ a b
  iterate 2 exact (Follows.equal a b).bind fun _ => .pure _
  exact .throw _

theorem readVariable (n : Node) : Follows R (readVariable n) := by
  refine .needField fun name _ => ?_
  split
  · refine .lexemeOf fun name _ => Keeps.get.bind fun _ => keeps_onScopes fun _ m hm => ?_
    rw [run_lookupAt_forest]
    exact hm
  · refine .lexemeOf fun name _ => keeps_onScopes fun _ m hm => ?_
    rcases run_lookup_forest 0 name m.forest with hForest | ⟨v, hForest⟩
    · rw [hForest]
      exact hm
    · rw [hForest]
      exact hm.step hR.trans rfl (hR.marks _ v)

theorem assignVariable {name : Node} (hName : ∀ s, name.lexeme? = some s → allowed s) (v : Datum) :
    Follows R (assignVariable name v) := by
  unfold Walk.assignVariable
  split
  · exact .throw _
  · exact .throw _
  · refine (Follows.act _).bind fun _ => ?_
    split <;> exact .throw _
  · refine .lexemeOf fun lexeme hLexeme => ?_
    have hAllowed := hName lexeme hLexeme
    split
    · refine Keeps.get.bind fun _ => keeps_onScopes fun _ m hm => ?_
      exact hm.step hR.trans rfl (hR.stores hAllowed (stored_assignAt _ _ _ _ _))
    · refine keeps_onScopes fun _ m hm => ?_
      exact hm.step hR.trans rfl (hR.stores hAllowed (stored_assign _ _ _ _))

theorem readProperty [Host] (d : Datum) (name : String) : Follows R (readProperty d name) := by
  refine (hR.propertyOf? d name).bind fun found => ?_
  split
  · exact .pure _
  · exact .throw _

theorem evaluate [Size.Room] [Host] (fuel : Nat) (hn : n.StoresOnly allowed) : Follows R (evaluate fuel n) := by
  induction fuel generalizing n with
  | zero => exact .throw _
  | succ fuel ih =>
    rw [Walk.evaluate]
    split
    · exact (Follows.className n).bind fun _ => .throw _
    · exact .needField fun _ _ => .pure _
    · exact hR.readVariable n
    next hForm =>
      refine .needField fun value hValue => (ih (hn.field hValue)).bind fun v => ?_
      refine .needField fun target hTarget => ?_
      split
      · refine .needField fun name hName => Keeps.bind ?_ fun _ => .pure v
        refine hR.assignVariable (fun s hs => hn n .self s (.inr ?_)) v
        simp only [Node.assigned?, hForm, hTarget, hName, Option.bind_some, hs]
      · refine .needField fun obj hObj => (ih ((hn.field hTarget).field hObj)).bind fun self => ?_
        refine .needField fun _ _ => .lexemeOf fun name _ => ?_
        exact (hR.setPropertyOf self name v).bind fun _ => .pure v
      · exact Keeps.bind (.throw _) fun _ => .pure v
    · refine .needField fun left hLeft => (ih (hn.field hLeft)).bind fun a => ?_
      refine .needField fun right hRight => (ih (hn.field hRight)).bind fun b => ?_
      exact (Follows.operatorKind n).bind fun kind => hR.binary kind a b
    · refine .needField fun left hLeft => (ih (hn.field hLeft)).bind fun a => ?_
      refine (Follows.operatorKind n).bind fun kind => (Follows.holds a).bind fun holds => ?_
      split
      · exact .pure a
      · exact .needField fun right hRight => ih (hn.field hRight)
    · refine .needField fun right hRight => (ih (hn.field hRight)).bind fun a => ?_
      refine (Follows.operatorKind n).bind fun kind => ?_
      split
      · exact (Follows.act _).bind fun _ => Follows.act _
      · exact (Follows.holds a).bind fun _ => .pure _
      · refine .needField fun _ _ => .lexemeOf fun _ _ => .throw _
    · refine .needField fun callee hCallee => (ih (hn.field hCallee)).bind fun f => ?_
      refine .needField fun arguments hArguments => ?_
      refine Follows.partsOf_bind (hn.field hArguments) fun parts hParts => Keeps.bind ?_ fun args => ?_
      · exact .mapM_mem fun p hp => ih (hParts p hp)
      · split
        · exact hR.callValue n f args
        · exact .throw _
    · refine .needField fun obj hObj => (ih (hn.field hObj)).bind fun self => ?_
      refine .needField fun _ _ => .lexemeOf fun name _ => ?_
      exact hR.readProperty self name

/-! ## Statements -/

theorem execute [Size.Room] [Host] (fuel : Nat) (hn : n.StoresOnly allowed) : Follows R (execute fuel n) := by
  induction fuel generalizing n with
  | zero => exact .throw _
  | succ fuel ih =>
    rw [Walk.execute]
    split
    · exact (Follows.className n).bind fun _ => .throw _
    · exact .needField fun e he => (hR.evaluate fuel (hn.field he)).bind fun _ => .pure ()
    · refine .needField fun es hes => Follows.partsOf_bind (hn.field hes) fun parts hParts => ?_
      refine Keeps.bind (.mapM_mem fun e he => ?_) fun texts => .modify fun _ _ hm => hm.quiet rfl rfl
      exact (hR.evaluate fuel (hParts e he)).bind fun _ => Follows.act _
    next hForm =>
      refine .needField fun initial hInitial => (Follows.isPresent _).bind fun present => ?_
      extract_lets declare
      have hDeclare : ∀ v, Follows R (declare v) := by
        refine fun v => .needField fun name hName => .lexemeOf fun lexeme hLexeme => ?_
        refine .needField fun _ _ => (keeps_markOf _).bind fun mark => ?_
        refine Keeps.get.bind fun _ => keeps_onScopes fun _ m hm => ?_
        refine hm.step hR.trans rfl (hR.stores (hn n .self lexeme (.inl ?_)) (stored_define _ _ _ _ _))
        simp only [Node.declared?, hForm, hName, Option.bind_some, hLexeme]
      split
      · exact (hR.evaluate fuel (hn.field hInitial)).bind hDeclare
      · exact Keeps.bind (.pure _) hDeclare
    · refine .needField fun body hBody => ?_
      have hParts : Follows R (do (← Walk.partsOf body).forM (Walk.execute fuel)) :=
        Follows.partsOf_bind (hn.field hBody) fun parts hParts => .forM_mem fun p hp => ih (hParts p hp)
      exact fun m₀ m hm => Machine.UpToDetours.block (m := m) hR hm (hR.upToDetours hParts m.entered)
    · exact .throw _
    · refine .needField fun condition hCondition => ?_
      refine (hR.evaluate fuel (hn.field hCondition)).bind fun _ => (Follows.holds _).bind fun holds => ?_
      split
      · exact .needField fun branch hBranch => ih (hn.field hBranch)
      · refine .needField fun other hOther => (Follows.isPresent other).bind fun present => ?_
        split
        · exact ih (hn.field hOther)
        · exact .pure ()
    · refine keeps_repeatWhile ?_ ?_ fuel
      · refine .needField fun condition hCondition => ?_
        exact (hR.evaluate fuel (hn.field hCondition)).bind fun _ => Follows.holds _
      · exact .needField fun body hBody => ih (hn.field hBody)
    next hForm =>
      refine Keeps.get.bind fun m => .needField fun name hName => ?_
      refine .lexemeOf fun lexeme hLexeme => ((undisturbed_upToDetours R).newFunction _).bind fun f => ?_
      refine keeps_onScopes fun _ m hm => ?_
      refine hm.step hR.trans rfl (hR.stores (hn n .self lexeme (.inl ?_)) (stored_define _ _ _ _ _))
      simp only [Node.declared?, hForm, hName, Option.bind_some, hLexeme]
    · refine .needField fun e he => (Follows.isPresent e).bind fun present => ?_
      dsimp only
      split
      · exact (hR.evaluate fuel (hn.field he)).bind fun _ => .throw _
      · exact Keeps.bind (.pure _) fun _ => .throw _
    · exact .throw _
    · exact .throw _

end Effect

end Scriptling.Walk
