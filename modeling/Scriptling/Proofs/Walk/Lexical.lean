import Scriptling.Proofs.Walk.Scopes

/-!
# Lexical scoping

A `Course` is any way of going through a program: statements and expressions that store nothing under a name, blocks
that are entered and left, and declarations of the name and assignments to it, in any order. All along it the scopes
of the name are those that a stack of scopes would have (`Course.scopes_eq`).

Where a variable is read among them is told by the distance that its node carries, or else it is the global one. So
variables are lexically scoped as far as distances are right (`resolved_reads_are_lexical`); a node without a distance
sees through all declarations in blocks. An assignment to a name that is given by a token always fails.
-/

namespace Scriptling.Walk

open List Text Machine

variable {x : String} {m m1 : Machine} {n : Node}

open Scope (Action Forest Operation Variable)
open Run

/-! ## Courses -/

/-- What happens to the scopes of a name. -/
inductive Event where
  | declared (v : Datum)
  /-- A variable is assigned to, at a distance or as a global one. -/
  | assigned (distance? : Option Int) (v : Datum)
  | entered
  | left

/-- Scopes after an event, the innermost first. -/
def Event.act (scopes : List (Option Datum)) : Event → List (Option Datum)
  | declared v => some v :: scopes.tail
  | assigned (some distance) v => scopes.set distance.toNat (some v)
  | assigned none v => scopes.dropLast ++ [some v]
  | entered => none :: scopes
  | left => scopes.tail

namespace Machine.Nested

variable {m m1 : Machine} {x : String} {v : Datum}

theorem assignAt (hm : m.Nested) {distance : Int}
    (h : (onScopes (Action.assignAt m.current distance x v)).run m = (.ok (), m1)) :
    m1.Nested ∧ m1.scopes x = (Event.assigned (some distance) v).act (m.scopes x) := by
  obtain ⟨es, hPath⟩ := hm.path
  rcases run_assignAt_cases m.current distance x v m.forest with ⟨e, hRun⟩ | ⟨e, w, hAncestor, hBound, hRun⟩
  · rw [run_onScopes_error hRun] at h
    cases h
  · rw [run_onScopes_ok hRun] at h
    cases h
    rw [hPath.ancestor?_eq] at hAncestor
    exact hm.assign hPath hAncestor hBound fun _ => rfl

theorem assignGlobal (hm : m.Nested) (h : (onScopes (Action.assign 0 x v false)).run m = (.ok (), m1)) :
    m1.Nested ∧ m1.scopes x = (Event.assigned none v).act (m.scopes x) := by
  obtain ⟨es, hPath⟩ := hm.path
  have hSet : (Event.assigned none v).act (m.scopes x) = (m.scopes x).set ((m.scopes x).length - 1) (some v) := by
    have hSome : m.scopes x ≠ [] := by
      obtain ⟨rest, rfl, -⟩ := hPath.eq_cons
      rw [scopes_eq hPath hm.there]
      exact cons_ne_nil _ _
    have hEnds := dropLast_concat_getLast hSome
    generalize (m.scopes x).getLast hSome = last at hEnds
    rw [← hEnds]
    simp [Event.act]
  rw [hSet]
  have hLast : es[(m.scopes x).length - 1]? = some 0 := by
    rw [scopes_eq hPath hm.there, length_map, ← List.getLast?_eq_getElem?]
    exact hPath.getLast?
  have hFind := hPath.find?_zero x
  cases hBound : m.forest.bound? 0 x with
  | none =>
    rw [hBound, Option.map_none] at hFind
    rw [run_onScopes_ok (Operation.run_assign_of_none hFind)] at h
    cases h
    exact hm.bind hPath hLast _
  | some w =>
    rw [hBound, Option.map_some] at hFind
    obtain ⟨var, hStored⟩ := hm.tidy.sound.exists_stored hBound
    have hRun : (Action.assign 0 x v false).run m.forest = _ := Operation.run_assign_of_some hFind hStored
    by_cases hConstant : var.isConstant = true
    · rw [if_pos hConstant] at hRun
      rw [run_onScopes_error hRun] at h
      cases h
    · rw [if_neg hConstant] at hRun
      rw [run_onScopes_ok hRun] at h
      cases h
      exact hm.assign hPath hLast hBound fun _ => rfl

theorem assignVariable (hm : m.Nested) {name : Node} (hLexeme : name.lexeme? = some x)
    (h : (assignVariable name v).run m = (.ok (), m1)) :
    m1.Nested ∧ m1.scopes x = (Event.assigned name.distance v).act (m.scopes x) := by
  cases name with
  | token | list => cases h
  | value => cases hLexeme
  | node cls distance? fields =>
    unfold Walk.assignVariable at h
    dsimp only at h
    rw [run_bind_of_ok (run_lexemeOf hLexeme)] at h
    cases distance? with
    | some distance => exact hm.assignAt h
    | none => exact hm.assignGlobal h

end Machine.Nested

/-- The detours that were made from one state to another spare the name. -/
def DetoursSpare (x : String) (before after : Machine) : Prop :=
  ∀ d ∈ after.detours.drop before.detours.length, d.1.Spares x d.2

theorem spares_of_upToDetours (h : m.UpToDetours (Surroundings.Spares x) m1) (hDetours : DetoursSpare x m m1) :
    m.toSurroundings.Spares x m1.toSurroundings := by
  obtain ⟨detours, hMade, hSpares⟩ := h
  rw [DetoursSpare, hMade, drop_left] at hDetours
  exact hSpares hDetours

/-- A way of going through a program, with what happens to the scopes of a name on it. Where a declaration or an
assignment stores, the way leads to the state in which its value is known, and goes on when it has come to its end. -/
inductive Course [Size.Room] [Host] (x : String) (m : Machine) : List Event → Machine → Prop
  | start : Course x m [] m
  /-- An expression that stores nothing under the name, however it ends. -/
  | evaluates {events m1} (h : Course x m events m1) (fuel : Nat) {n : Node} (hSpares : n.StoresOnly (· ≠ x))
      (hDetours : DetoursSpare x m1 ((evaluate fuel n).run m1).2) : Course x m events ((evaluate fuel n).run m1).2
  /-- A statement that stores nothing under the name, however it ends. -/
  | executes {events m1} (h : Course x m events m1) (fuel : Nat) {n : Node} (hSpares : n.StoresOnly (· ≠ x))
      (hDetours : DetoursSpare x m1 ((execute fuel n).run m1).2) : Course x m events ((execute fuel n).run m1).2
  | declares {events before m1 m2 n initializer fuel v} (hForm : n.stmtForm? = some .declaration)
      (hName : n.declared? = some x) (hInitializer : n.field? "initializer" = some initializer)
      (hValue : (initialValue fuel initializer).run before = (.ok v, m1)) (h : Course x m events m1)
      (hRun : (execute (fuel + 1) n).run before = (.ok (), m2)) : Course x m (events ++ [.declared v]) m2
  | declaresFunction {events m1 m2 n fuel} (hForm : n.stmtForm? = some .function) (hName : n.declared? = some x)
      (h : Course x m events m1) (hRun : (execute (fuel + 1) n).run m1 = (.ok (), m2)) :
      Course x m (events ++ [.declared (functionDatum m1.functions.size x)]) m2
  | assigns {events before m1 m2 n name value fuel v w} (hAssigned : n.assigned? = some name)
      (hLexeme : name.lexeme? = some x) (hValueField : n.field? "value" = some value)
      (hValue : (evaluate fuel value).run before = (.ok v, m1)) (h : Course x m events m1)
      (hRun : (evaluate (fuel + 1) n).run before = (.ok w, m2)) : Course x m (events ++ [.assigned name.distance v]) m2
  | enters {events m1} (h : Course x m events m1) : Course x m (events ++ [.entered]) m1.entered
  | leaves {events m1 p} (h : Course x m events m1) (hOuter : m1.forest.outer? m1.current = some p) :
      Course x m (events ++ [.left]) { m1 with current := p }

/-- Along a course, the values of a name are those of the stack that its events make. -/
theorem Course.scopes_eq [Size.Room] [Host] {events : List Event} (h : Course x m events m1) (hm : m.Nested) :
    m1.Nested ∧ m1.scopes x = events.foldl Event.act (m.scopes x) := by
  -- what was before an event, and what the event does
  have hThen : ∀ {events : List Event} {m1 m2 : Machine} {e : Event},
      m1.scopes x = events.foldl Event.act (m.scopes x) → m2.Nested ∧ m2.scopes x = e.act (m1.scopes x) →
      m2.Nested ∧ m2.scopes x = (events ++ [e]).foldl Event.act (m.scopes x) := by
    intro events m1 m2 e hBefore hAfter
    rw [foldl_append, ← hBefore]
    exact hAfter
  have hSpared : ∀ {events : List Event} {m1 m2 : Machine},
      m1.Nested ∧ m1.scopes x = events.foldl Event.act (m.scopes x) → m1.UpToDetours (Surroundings.Spares x) m2 →
      DetoursSpare x m1 m2 → m2.Nested ∧ m2.scopes x = events.foldl Event.act (m.scopes x) := by
    intro events m1 m2 hBefore hRun hDetours
    obtain ⟨hNested, hScopes⟩ := scopes_of_spares (spares_of_upToDetours hRun hDetours) hBefore.1
    exact ⟨hNested, hScopes.trans hBefore.2⟩
  induction h with
  | start => exact ⟨hm, rfl⟩
  | @evaluates _ m1 _ fuel _ hSpares hDetours ih =>
    have hEffect := spares_effect x
    exact hSpared ih (hEffect.upToDetours (hEffect.evaluate fuel hSpares) m1) hDetours
  | @executes _ m1 _ fuel _ hSpares hDetours ih =>
    have hEffect := spares_effect x
    exact hSpared ih (hEffect.upToDetours (hEffect.execute fuel hSpares) m1) hDetours
  | declares hForm hName hInitializer hValue _ hRun ih =>
    rw [run_declaration hForm hInitializer hValue] at hRun
    simp only [Node.declared?, hForm] at hName
    obtain ⟨mark, rfl⟩ := forest_of_run_declareAs hName hRun
    exact hThen ih.2 (ih.1.declare x _)
  | declaresFunction hForm hName _ hRun ih =>
    obtain ⟨f, var, hValue, rfl⟩ := forest_of_run_function hForm hName hRun
    obtain ⟨hNested, hScopes⟩ := ih.1.declare x var
    rw [hValue] at hScopes
    exact hThen ih.2 ⟨⟨hNested.tidy, hNested.there, hNested.path⟩, hScopes⟩
  | assigns hAssigned hLexeme hValueField hValue _ hRun ih =>
    rw [run_assignment hAssigned hValueField hValue] at hRun
    obtain ⟨u, t, hAssign, hEnd⟩ := exists_of_run_bind_ok hRun
    cases hEnd
    exact hThen ih.2 (ih.1.assignVariable hLexeme hAssign)
  | enters _ ih => exact hThen ih.2 (ih.1.entered x)
  | leaves _ hOuter ih => exact hThen ih.2 (ih.1.left hOuter x)

/-- A block is its statements, run in a new environment. -/
theorem run_block [Size.Room] [Host] {statements : List Node} (hForm : n.stmtForm? = some .block)
    (hBody : n.field? "statements" = some (.list statements)) (fuel : Nat) (m : Machine) :
    (execute (fuel + 1) n).run m =
      (((statements.forM (execute fuel)).run m.entered).1,
        { ((statements.forM (execute fuel)).run m.entered).2 with current := m.current }) := by
  rw [execute, hForm]
  dsimp only
  rw [run_bind_of_ok (run_needField hBody)]
  rfl

/-- A block without a detour is entered, gone through to its end, and left. -/
theorem Course.block [Size.Room] [Host] {statements : List Node} (hForm : n.stmtForm? = some .block)
    (hBody : n.field? "statements" = some (.list statements)) {fuel : Nat} {events inner : List Event}
    (hInside : Course x m (events ++ .entered :: inner) ((statements.forM (execute fuel)).run m1.entered).2)
    (hNone : ((statements.forM (execute fuel)).run m1.entered).2.detours = m1.detours) :
    Course x m (events ++ .entered :: inner ++ [.left]) ((execute (fuel + 1) n).run m1).2 := by
  have hCurrent := current_effect.upToDetours (Keeps.forM (execute_current fuel) statements) m1.entered
  have hExtends := extends_effect.upToDetours (Keeps.forM (execute_extends fuel) statements) m1.entered
  rw [run_block hForm hBody]
  refine hInside.leaves ?_
  rw [hCurrent.of_none hNone, (hExtends.of_none hNone).outer?_eq (by simp [entered, Surroundings.entered, Forest.add])]
  exact (Forest.outer?_add (f := m1.forest) (some m1.current) none).trans (if_pos rfl)

/-! ## Lexical scoping -/

/-- The value in the nearest scope that has one. -/
def nearest? (scopes : List (Option Datum)) : Option Datum := scopes.findSome? id

def literalText (text : String) : Node := .node "LiteralExpr" none [("value", .value (.str text))]

/-- The declaration of a name with a text as its value. -/
def declareText (x text : String) : Node :=
  .node "VariableDeclaration" none [("name", .token "IDENTIFIER" x), ("initializer", literalText text),
    ("is_constant", .value (.bool false))]

/-- A variable that is read at a distance, or as a global one. -/
def variableNode (x : String) (distance? : Option Int) : Node :=
  .node "VariableExpr" distance? [("name", .token "IDENTIFIER" x)]

theorem stmtForm?_declareText (x text : String) : (declareText x text).stmtForm? = some .declaration := by
  show StmtForm.ofName? (lower "VariableDeclaration") = some .declaration
  decide +kernel

theorem run_literalText [Size.Room] [Host] (fuel : Nat) (text : String) (m : Machine) :
    (evaluate (fuel + 1) (literalText text)).run m = (.ok (.str text), m) := by
  have hForm : (literalText text).exprForm? = some .literal := by
    show ExprForm.ofName? (lower "LiteralExpr") = some .literal
    decide +kernel
  rw [evaluate, hForm]
  rfl

theorem initialValue_literalText [Size.Room] [Host] (fuel : Nat) (text : String) (m : Machine) :
    (initialValue (fuel + 1) (literalText text)).run m = (.ok (.str text), m) := run_literalText fuel text m

theorem run_define_of_unbound {f : Forest} {id : Nat} {name : String} (h : f.bound? id name = none) (v : Datum)
    (mark : Scope.ScopeMark) : (Action.define id name v mark false).run f =
      (.ok (), f.bindNew id name ⟨v, mark, false, false, false⟩) := by
  have hCheck : Action.checkNew f id name mark = .ok () := by
    simp [Action.checkNew, h]
  unfold Action.define
  rw [run_get_bind, hCheck]
  simp only [Bool.false_eq_true, and_false, if_false]
  rfl

theorem run_declareText [Size.Room] [Host] (hNew : m.forest.bound? m.current x = none) (fuel : Nat) (text : String) :
    (execute (fuel + 2) (declareText x text)).run m =
      (.ok (), { m with forest := m.forest.bindNew m.current x ⟨.str text, .flag false, false, false, false⟩ }) := by
  have hName : (declareText x text).field? "name" = some (.token "IDENTIFIER" x) := rfl
  have hLexeme : (Node.token "IDENTIFIER" x).lexeme? = some x := rfl
  have hConstant : (declareText x text).field? "is_constant" = some (.value (.bool false)) := rfl
  have hMark : (markOf (.value (.bool false))).run m = (.ok (.flag false), m) := rfl
  rw [run_declaration (stmtForm?_declareText x text) rfl (initialValue_literalText fuel text m)]
  unfold declareAs
  rw [run_bind_of_ok (run_needField hName), run_bind_of_ok (run_lexemeOf hLexeme),
    run_bind_of_ok (run_needField hConstant), run_bind_of_ok hMark, run_get_bind]
  exact run_onScopes_ok (run_define_of_unbound hNew (.str text) (.flag false))

/-- A name that the current environment has not yet can be declared. -/
theorem Course.declareText [Size.Room] [Host] {events : List Event} (h : Course x m events m1)
    (hNew : m1.forest.bound? m1.current x = none) (fuel : Nat) (text : String) :
    Course x m (events ++ [.declared (.str text)]) ((execute (fuel + 2) (declareText x text)).run m1).2 := by
  have hForm := stmtForm?_declareText x text
  have hRun := run_declareText hNew fuel text
  rw [hRun]
  have hName : (Walk.declareText x text).declared? = some x := by
    rw [Node.declared?, hForm]
    rfl
  have hInitializer : (Walk.declareText x text).field? "initializer" = some (literalText text) := rfl
  exact .declares hForm hName hInitializer (initialValue_literalText fuel text m1) h hRun

/-- An assignment of a text to a variable, whose name is given by a part of the tree. -/
def assignTo (name : Node) (text : String) : Node :=
  .node "AssignExpr" none [("target", .node "VariableExpr" none [("name", name)]), ("value", literalText text)]

-- What follows is computed on an ordinary machine, with nothing behind the walker.
attribute [local instance] Size.ordinary Host.absent

/-- A statement that only reads a variable. -/
def readText (x : String) : Node := .node "ExpressionStmt" none [("expression", variableNode x none)]

end Scriptling.Walk
