import Scriptling.Proofs.Scope.Path
import Scriptling.Proofs.Walk.Restore

/-!
# The scopes of a name

From the current environment there is a way out to the global one, and in each environment on it a name has a value
or none: these are its `scopes`. For each thing that the walker does this module says what becomes of them. A tree
that stores nothing under the name leaves them alone, whatever else it does (`spares_effect`); a declaration
changes the innermost one, and an assignment one that is given by a distance. Reading a variable is looking at one of
them, too (`Machine.Nested.read`).
-/

namespace Scriptling.Walk

open List Option

variable {f f' : Forest} {x : String} {m : Machine} {env : Nat}

open Scope (Action Forest Operation Variable)
open Run

variable (world : Script.World)

/-! ## Trees that spare a name -/

theorem Stored.tidy {name : String} (h : Stored name f f') (hf : f.Tidy) : f'.Tidy := by
  cases h with
  | nothing => exact hf
  | bound id var => exact hf.bindNew id name var
  | changed _ g => exact hf.updateVariable _ g

theorem Stored.held?_eq {name : String} (h : Stored name f f') (hName : name ≠ x) (hf : f.Tidy)
    (e : Nat) : f'.held? e x = f.held? e x := by
  cases h with
  | nothing => rfl
  | bound id var => rw [hf.sound.held?_bindNew, if_neg fun hHere => hName hHere.2.2.symm]
  | changed hBound g => exact hf.held?_updateVariable_other hBound g fun hHere => hName hHere.2.symm

theorem Sprouted.tidy (h : Sprouted f env f') (hf : f.Tidy) : f'.Tidy := by
  induction h with
  | child => exact hf.add (some env) none
  | binds _ name var ih => exact ih.bindNew _ name var

/-- Names are bound in the new environment only. -/
theorem Sprouted.held?_eq (h : Sprouted f env f') (hf : f.Tidy) {e : Nat}
    (he : e < f.environments.size) : f'.held? e x = f.held? e x := by
  induction h with
  | child => exact Forest.held?_add (some env) none
  | binds h name var ih => rw [(h.tidy hf).sound.held?_bindNew, if_neg (by omega), ih]

/-- The current environment is the same, no environment is lost, the forest is as tidy as it was, and nothing was
stored under the name in any environment that was there before. -/
structure Surroundings.Spares (x : String) (before after : Surroundings) : Prop where
  current : after.current = before.current
  extended : before.forest.Extends after.forest
  tidy : before.forest.Tidy → after.forest.Tidy
  held : before.forest.Tidy → ∀ e < before.forest.environments.size, after.forest.held? e x = before.forest.held? e x

/-- A tree that stores nothing under a name spares it. -/
theorem spares_effect (x : String) : Effect (· ≠ x) (Surroundings.Spares x) where
  refl s := ⟨rfl, .refl _, id, fun _ _ _ => rfl⟩
  trans h h' := by
    refine ⟨h'.current.trans h.current, h.extended.trans h'.extended, fun hTidy => h'.tidy (h.tidy hTidy), ?_⟩
    intro hTidy e he
    have hThere := Nat.lt_of_lt_of_le he h.extended.size_le
    exact (h'.held (h.tidy hTidy) e hThere).trans (h.held hTidy e he)
  sprouts h := ⟨rfl, extends_of_sprouted h, h.tidy, fun hTidy _ he => h.held?_eq hTidy he⟩
  marks s v := by
    refine ⟨rfl, s.forest.extends_updateVariable v _, fun hTidy => hTidy.updateVariable v _, fun _ e _ => ?_⟩
    exact Forest.held?_updateVariable v fun _ => rfl
  stores hName h := ⟨rfl, extends_of_stored h, h.tidy, fun hTidy e _ => h.held?_eq hName hTidy e⟩
  block {s s'} h := by
    have hMore := s.forest.extends_add (some s.current) none
    refine ⟨rfl, hMore.trans h.extended, fun hTidy => h.tidy (hTidy.add (some s.current) none), ?_⟩
    intro hTidy e he
    have hHeld := h.held (hTidy.add (some s.current) none) e (Nat.lt_of_lt_of_le he hMore.size_le)
    exact hHeld.trans (Forest.held?_add (some s.current) none)

/-! ## The scopes of a name -/

/-- The current environment is there, and from it there is a way out to the global one. -/
structure Machine.Nested (m : Machine) : Prop where
  tidy : m.forest.Tidy
  there : m.current < m.forest.environments.size
  path : ∃ es, m.forest.Path m.current es

/-- What a name stands for in the environments from the current one outwards. -/
def Machine.scopes (m : Machine) (x : String) : List (Option Datum) :=
  (m.forest.chain m.current).map fun e => m.forest.held? e x

namespace Machine

variable {m m' : Machine} {x : String} {es : List Nat} {i e : Nat}

theorem scopes_eq (hPath : m.forest.Path m.current es) (hThere : m.current < m.forest.environments.size) :
    m.scopes x = es.map fun e => m.forest.held? e x := by
  rw [scopes, hPath.chain_eq hThere]

/-- Where a name is spared, its scopes are as before. -/
theorem scopes_of_spares (h : m.toSurroundings.Spares x m'.toSurroundings) (hm : m.Nested) :
    m'.Nested ∧ m'.scopes x = m.scopes x := by
  obtain ⟨es, hPath⟩ := hm.path
  have hPath' : m'.forest.Path m'.current es := by
    rw [h.current]
    exact hPath.of_extends h.extended hm.there
  have hThere : m'.current < m'.forest.environments.size := by
    rw [h.current]
    exact Nat.lt_of_lt_of_le hm.there h.extended.size_le
  refine ⟨⟨h.tidy hm.tidy, hThere, es, hPath'⟩, ?_⟩
  rw [scopes_eq hPath' hThere, scopes_eq hPath hm.there]
  exact map_congr_left fun e he => h.held hm.tidy e (Nat.lt_of_le_of_lt (hPath.le e he) hm.there)

namespace Nested

variable (hm : m.Nested)

include hm

/-- A value is stored under the name in one of the environments. -/
theorem store (hPath : m.forest.Path m.current es) (hAt : es[i]? = some e) {f : Forest}
    (hTidy : f.Tidy) (hExtends : m.forest.Extends f) {v : Datum} (hSelf : f.held? e x = some v)
    (hOther : ∀ j, j ≠ e → f.held? j x = m.forest.held? j x) :
    { m with forest := f }.Nested ∧ { m with forest := f }.scopes x = (m.scopes x).set i (some v) := by
  have hThere : m.current < f.environments.size := Nat.lt_of_lt_of_le hm.there hExtends.size_le
  have hPath' : f.Path m.current es := hPath.of_extends hExtends hm.there
  refine ⟨⟨hTidy, hThere, es, hPath'⟩, ?_⟩
  rw [scopes_eq (m := { m with forest := f }) hPath' hThere, scopes_eq hPath hm.there]
  refine ext_getElem? fun j => ?_
  rw [List.getElem?_set, List.getElem?_map, List.getElem?_map, length_map]
  have hLt : i < es.length := (List.getElem?_eq_some_iff.mp hAt).1
  by_cases hj : i = j
  · subst hj
    rw [if_pos rfl, if_pos hLt, hAt, map_some, hSelf]
  · rw [if_neg hj]
    cases hAt' : es[j]? with
    | none => rfl
    | some k =>
      have hNe : k ≠ e := by
        rintro rfl
        exact hj ((List.getElem?_inj hLt hPath.nodup).mp (hAt.trans hAt'.symm))
      rw [map_some, map_some, hOther k hNe]

/-- The name is bound to a new variable in one of the environments. -/
theorem bind (hPath : m.forest.Path m.current es) (hAt : es[i]? = some e) (var : Variable) :
    { m with forest := m.forest.bindNew e x var }.Nested ∧
    { m with forest := m.forest.bindNew e x var }.scopes x = (m.scopes x).set i (some var.value) := by
  have hThere : e < m.forest.environments.size := by
    have hLe := hPath.le e (mem_of_getElem? hAt)
    have hCurrent := hm.there
    omega
  refine hm.store hPath hAt (hm.tidy.bindNew _ _ _) (m.forest.extends_bindNew _ _ _) ?_ fun j hj => ?_
  · rw [hm.tidy.sound.held?_bindNew, if_pos ⟨hThere, rfl, rfl⟩]
  · rw [hm.tidy.sound.held?_bindNew, if_neg fun hHere => hj hHere.2.1.symm]

/-- A name is declared in the current environment. -/
theorem declare (x : String) (var : Variable) :
    { m with forest := m.forest.bindNew m.current x var }.Nested ∧
    { m with forest := m.forest.bindNew m.current x var }.scopes x = some var.value :: (m.scopes x).tail := by
  obtain ⟨es, hPath⟩ := hm.path
  obtain ⟨rest, rfl, -⟩ := hPath.eq_cons
  have hSet : (m.scopes x).set 0 (some var.value) = some var.value :: (m.scopes x).tail := by
    rw [scopes_eq hPath hm.there]
    rfl
  rw [← hSet]
  exact hm.bind hPath rfl var

/-- The variable that an environment has for a name gets another value. -/
theorem assign (hPath : m.forest.Path m.current es) {w : Nat} (hAt : es[i]? = some e)
    (hBound : m.forest.bound? e x = some w) {v : Datum} {g : Variable → Variable} (hg : ∀ y, (g y).value = v) :
    { m with forest := m.forest.updateVariable w g }.Nested ∧
    { m with forest := m.forest.updateVariable w g }.scopes x = (m.scopes x).set i (some v) := by
  refine hm.store hPath hAt (hm.tidy.updateVariable _ _) (m.forest.extends_updateVariable _ _) ?_ fun j hj => ?_
  · exact hm.tidy.sound.held?_updateVariable_self hBound v hg
  · exact hm.tidy.held?_updateVariable_other hBound g fun hHere => hj hHere.1

theorem entered (x : String) : m.entered.Nested ∧ m.entered.scopes x = none :: m.scopes x := by
  obtain ⟨es, hPath⟩ := hm.path
  have hExtends := m.forest.extends_add (some m.current) none
  have hThere : m.entered.current < m.entered.forest.environments.size := by
    simp [Machine.entered, Surroundings.entered, Forest.add]
  have hPath' : m.entered.forest.Path m.entered.current (m.forest.environments.size :: es) := by
    refine .inner ?_ hm.there (hPath.of_extends hExtends hm.there)
    exact (Forest.outer?_add (f := m.forest) (some m.current) none).trans (if_pos rfl)
  refine ⟨⟨hm.tidy.add (some m.current) none, hThere, _, hPath'⟩, ?_⟩
  rw [scopes_eq hPath' hThere, scopes_eq hPath hm.there, map_cons]
  refine cons_eq_cons.mpr ⟨Forest.held?_of_unbound ?_, ?_⟩
  · rw [Machine.entered, Surroundings.entered, Forest.bound?_add]
    exact Forest.bound?_of_le (Nat.le_refl _)
  · exact map_congr_left fun e _ => Forest.held?_add (some m.current) none

theorem left {p : Nat} (hOuter : m.forest.outer? m.current = some p) (x : String) :
    { m with current := p }.Nested ∧ { m with current := p }.scopes x = (m.scopes x).tail := by
  obtain ⟨es, hPath⟩ := hm.path
  obtain ⟨rest, rfl, hRest⟩ := hPath.outward hOuter
  have hThere : p < m.forest.environments.size := by
    obtain ⟨rest', hEq, hOlder⟩ := hPath.eq_cons
    cases hEq
    obtain ⟨inner, hInner, -⟩ := hRest.eq_cons
    have := hOlder p (by simp [hInner])
    have := hm.there
    omega
  refine ⟨⟨hm.tidy, hThere, rest, hRest⟩, ?_⟩
  rw [scopes_eq hPath hm.there, scopes_eq (m := { m with current := p }) hRest hThere]
  rfl

end Nested

end Machine

/-! ## Reading -/

/-- The name of the variable that a node reads. -/
def Node.read? (n : Node) : Option String :=
  match n.exprForm? with
  | some .name => (n.field? "name").bind lexeme?
  | _ => none

theorem exprForm?_of_read? {n : Node} (hRead : n.read? = some x) : n.exprForm? = some .name := by
  unfold Node.read? at hRead
  split at hRead
  · assumption
  · cases hRead

/-- What is read under a name at a distance, given its scopes; without a distance, in the outermost scope. -/
def readAt (x : String) (scopes : List (Option Datum)) : Option Int → Except Signal Datum
  | none =>
    match scopes.getLast?.join with
    | some v => .ok v
    | none => .error (.scope (.undefined x))
  | some distance =>
    match scopes[distance.toNat]? with
    | some (some v) => .ok v
    | some none => .error (.scope (.missing x))
    | none => .error (.scope .badDistance)

section Parts

variable {n q : Node} {key name : String} {m m' : Machine}

theorem run_needField (h : n.field? key = some q) : (needField n key).run m = (.ok q, m) := by
  rw [needField, h]
  rfl

theorem run_lexemeOf (h : n.lexeme? = some name) : (lexemeOf n).run m = (.ok name, m) := by
  unfold Node.lexeme? at h
  split at h
  next hField =>
    cases h
    unfold lexemeOf
    rw [run_bind_of_ok (run_needField hField)]
    rfl
  · cases h

theorem run_onScopes_ok {α : Type} {a : Action α} {v : α} {f : Forest} (h : a.run m.forest = (.ok v, f)) :
    (onScopes a).run m = (.ok v, { m with forest := f }) := by
  unfold onScopes
  rw [run_get_bind, h]
  rfl

theorem run_onScopes_error {α : Type} {a : Action α} {e : Scope.ScopeError} {f : Forest}
    (h : a.run m.forest = (.error e, f)) : (onScopes a).run m = (.error (.scope e), { m with forest := f }) := by
  unfold onScopes
  rw [run_get_bind, h]
  rfl

/-- A variable is looked up at the distance of its node, or among the global ones. -/
theorem run_readVariable {n : Node} {x : String} (hRead : n.read? = some x) :
    (readVariable n).run m = match n.distance with
      | some distance => (onScopes (Action.lookupAt m.current distance x)).run m
      | none => (onScopes (Action.lookup 0 x)).run m := by
  unfold Node.read? at hRead
  split at hRead
  · obtain ⟨name, hName, hLexeme⟩ := bind_eq_some_iff.mp hRead
    unfold readVariable
    rw [run_bind_of_ok (run_needField hName)]
    cases n.distance with
    | none | some distance => exact run_bind_of_ok (run_lexemeOf hLexeme)
  · cases hRead

end Parts

/-- What is read in the global environment is the outermost of the values of a name. -/
theorem Machine.Nested.lookup_global (hm : m.Nested) (x : String) :
    ((onScopes (Action.lookup 0 x)).run m).1 = readAt x (m.scopes x) none := by
  obtain ⟨es, hPath⟩ := hm.path
  have hFind := hPath.find?_zero x
  rw [readAt, Machine.scopes_eq hPath hm.there, List.getLast?_map, hPath.getLast?, map_some, join_some]
  cases hBound : m.forest.bound? 0 x with
  | none =>
    rw [hBound, map_none] at hFind
    rw [run_onScopes_error (Operation.run_lookup_of_none hFind), Forest.held?_of_unbound hBound]
  | some w =>
    obtain ⟨var, hStored⟩ := hm.tidy.sound.exists_stored hBound
    rw [hBound, map_some] at hFind
    rw [run_onScopes_ok (Operation.run_lookup_of_some hFind hStored), Forest.held?_of_bound hBound hStored]

theorem Machine.Nested.lookup_at (hm : m.Nested) (x : String) (distance : Int) :
    ((onScopes (Action.lookupAt m.current distance x)).run m).1 = readAt x (m.scopes x) (some distance) := by
  obtain ⟨es, hPath⟩ := hm.path
  rw [readAt, Machine.scopes_eq hPath hm.there, List.getElem?_map, ← hPath.ancestor?_eq]
  cases hAncestor : m.forest.ancestor? m.current distance.toNat with
  | none =>
    have hRun : (Action.lookupAt m.current distance x).run m.forest = _ :=
      run_bind_of_error (Operation.run_variableAt_of_beyond hAncestor)
    rw [run_onScopes_error hRun]
    rfl
  | some e =>
    cases hBound : m.forest.bound? e x with
    | none =>
      have hRun : (Action.lookupAt m.current distance x).run m.forest = _ :=
        run_bind_of_error (Operation.run_variableAt_of_missing hAncestor hBound)
      rw [run_onScopes_error hRun, map_some, Forest.held?_of_unbound hBound]
    | some w =>
      obtain ⟨var, hStored⟩ := hm.tidy.sound.exists_stored hBound
      have hRun : (Action.lookupAt m.current distance x).run m.forest = (.ok var.value, m.forest) := by
        unfold Action.lookupAt
        rw [run_bind_of_ok (Operation.run_variableAt_of_bound hAncestor hBound), run_get_bind, hStored]
        rfl
      rw [run_onScopes_ok hRun, map_some, Forest.held?_of_bound hBound hStored]

/-- The value of a variable is read at the distance that its node carries. -/
theorem Machine.Nested.read [Size.Room] [Host] (hm : m.Nested) {n : Node} (hRead : n.read? = some x) (fuel : Nat) :
    ((evaluate (fuel + 1) n).run m).1 = readAt x (m.scopes x) n.distance := by
  rw [evaluate, exprForm?_of_read? hRead]
  show ((readVariable n).run m).1 = _
  rw [run_readVariable hRead]
  cases n.distance with
  | none => exact hm.lookup_global x
  | some distance => exact hm.lookup_at x distance

/-! ## Storing -/

/-- What an initializer gives: nothing, where there is none. -/
def initialValue [Size.Room] [Host] (fuel : Nat) (initializer : Node) : Run Datum := do
  if ← isPresent initializer then evaluate fuel initializer else return .none

section Stores

variable {n : Node} {x : String} {fuel : Nat} {m m1 m2 : Machine} {v : Datum}

theorem field_of_run_needField {key : String} {q : Node} (h : (needField n key).run m = (.ok q, m1)) :
    n.field? key = some q ∧ m1 = m := by
  unfold needField at h
  split at h
  · cases h
    exact ⟨by assumption, rfl⟩
  · cases h

theorem run_markOf {q : Node} {mark : Scope.ScopeMark} (h : (markOf q).run m = (.ok mark, m1)) : m1 = m := by
  unfold markOf at h
  split at h
  · cases h
    rfl
  · cases h

/-- The end of a declaration, when its value is known. -/
def declareAs (n : Node) (v : Datum) : Run Unit := do
  let name ← lexemeOf (← needField n "name")
  let mark ← markOf (← needField n "is_constant")
  onScopes (Action.define (← get).current name v mark false)

theorem forest_of_run_define {mark : Scope.ScopeMark}
    (h : (onScopes (Action.define env x v mark false)).run m = (.ok (), m1)) :
    m1 = { m with forest := m.forest.bindNew env x ⟨v, mark, false, false, false⟩ } := by
  rcases run_define_cases env x v mark m.forest with ⟨e, hDefine⟩ | hDefine
  · rw [run_onScopes_error hDefine] at h
    cases h
  · rw [run_onScopes_ok hDefine] at h
    cases h
    rfl

theorem forest_of_run_declareAs (hName : (n.field? "name").bind Node.lexeme? = some x)
    (h : (declareAs n v).run m = (.ok (), m1)) :
    ∃ mark, m1 = { m with forest := m.forest.bindNew m.current x ⟨v, mark, false, false, false⟩ } := by
  obtain ⟨name, hField, hLexeme⟩ := bind_eq_some_iff.mp hName
  unfold declareAs at h
  rw [run_bind_of_ok (run_needField hField), run_bind_of_ok (run_lexemeOf hLexeme)] at h
  obtain ⟨q, t, hNeed, hMarked⟩ := exists_of_run_bind_ok h
  obtain ⟨-, rfl⟩ := field_of_run_needField hNeed
  obtain ⟨mark, t, hMark, hDefine⟩ := exists_of_run_bind_ok hMarked
  obtain rfl := run_markOf hMark
  exact ⟨mark, forest_of_run_define hDefine⟩

/-- A declaration evaluates its initial value and then declares it. -/
theorem run_declaration [Size.Room] [Host] {initializer : Node} (hForm : n.stmtForm? = some .declaration)
    (hInitializer : n.field? "initializer" = some initializer)
    (hValue : (initialValue fuel initializer).run m = (.ok v, m1)) :
    (execute (fuel + 1) n).run m = (declareAs n v).run m1 := by
  obtain ⟨present, t, hPresent, hRest⟩ := exists_of_run_bind_ok hValue
  rw [execute, hForm]
  dsimp only
  rw [run_bind_of_ok (run_needField hInitializer), run_bind_of_ok hPresent]
  cases present with
  | true =>
    rw [if_pos rfl] at hRest ⊢
    exact run_bind_of_ok hRest
  | false =>
    rw [if_neg Bool.false_ne_true] at hRest ⊢
    exact run_bind_of_ok hRest

/-- A declaration of a function that comes to its end has bound the name to a new function object. -/
theorem forest_of_run_function [Size.Room] [Host] (hForm : n.stmtForm? = some .function) (hName : n.declared? = some x)
    (hRun : (execute (fuel + 1) n).run m = (.ok (), m1)) :
    ∃ f var, var.value = functionDatum m.functions.size x ∧
      m1 = { m with functions := m.functions.push f, forest := m.forest.bindNew m.current x var } := by
  simp only [Node.declared?, hForm] at hName
  obtain ⟨name, hField, hLexeme⟩ := bind_eq_some_iff.mp hName
  rw [execute, hForm] at hRun
  dsimp only at hRun
  rw [run_get_bind, run_bind_of_ok (run_needField hField), run_bind_of_ok (run_lexemeOf hLexeme)] at hRun
  obtain ⟨f, t, hNew, hRun⟩ := exists_of_run_bind_ok hRun
  cases hNew
  exact ⟨_, _, rfl, forest_of_run_define hRun⟩

/-- An assignment evaluates its value and then assigns it. -/
theorem run_assignment [Size.Room] [Host] {name value : Node} (hAssigned : n.assigned? = some name)
    (hValueField : n.field? "value" = some value) (hValue : (evaluate fuel value).run m = (.ok v, m1)) :
    (evaluate (fuel + 1) n).run m = (do assignVariable name v; return v : Run Datum).run m1 := by
  unfold Node.assigned? at hAssigned
  split at hAssigned
  next hForm hTarget =>
    rw [evaluate, hForm]
    dsimp only
    rw [run_bind_of_ok (run_needField hValueField), run_bind_of_ok hValue, run_bind_of_ok (run_needField hTarget)]
    exact run_bind_of_ok (run_needField hAssigned)
  · cases hAssigned

end Stores

/-! ## The first state -/

/-- The global environment is there, and nothing is around it. -/
structure Rooted (f : Forest) : Prop where
  tidy : f.Tidy
  outer : f.outer? 0 = none
  there : 0 < f.environments.size

theorem Rooted.define (name : String) (v : Datum) (mark : Scope.ScopeMark) :
    Preserves Rooted (Action.define 0 name v mark false) := by
  intro _ f hf
  rcases run_define_cases 0 name v mark f with ⟨e, hRun⟩ | hRun
  · rw [hRun]
    exact hf
  · rw [hRun]
    refine ⟨hf.tidy.bindNew _ _ _, (Forest.outer?_bindNew _ _ _).trans hf.outer, ?_⟩
    exact Nat.lt_of_lt_of_le hf.there (f.extends_bindNew 0 name _).size_le

theorem Rooted.defineAll (names : List (String × Datum)) : Preserves Rooted (Machine.defineAll names) := by
  refine Keeps.forM (fun entry => ?_) names
  obtain ⟨name, v⟩ := entry
  exact Rooted.define name v (.kind .local)

theorem rooted_first : Rooted (Forest.empty.add none none).2 where
  tidy := by
    refine Forest.Tidy.add ⟨Forest.empty_sound, fun hi _ => ?_⟩ none none
    exact absurd (Forest.lt_size_of_bound hi) (Nat.not_lt_zero _)
  outer := rfl
  there := Nat.one_pos

theorem rooted_of_forestOf {names : List (String × Datum)} (h : Machine.forestOf names = .ok f) : Rooted f := by
  have hAll := Rooted.defineAll names default _ rooted_first
  unfold Machine.forestOf at h
  dsimp only at h
  split at h
  next hRun =>
    cases h
    rwa [hRun] at hAll
  · cases h

-- What follows is computed on an ordinary machine.
attribute [local instance] Size.ordinary

/-- The global names are defined without a failure, and `x` is none of them. -/
theorem forestOf_globalNames :
    (match Machine.forestOf Builtin.globalNames with
      | .ok f => (f.bound? 0 "x").isNone
      | .error _ => false) = true := by
  decide +kernel

theorem rooted_start : Rooted (Machine.start world).forest ∧ (Machine.start world).forest.bound? 0 "x" = none := by
  have hGlobal := forestOf_globalNames
  cases hForest : Machine.forestOf Builtin.globalNames with
  | error e =>
    rw [hForest] at hGlobal
    cases hGlobal
  | ok f =>
    rw [hForest] at hGlobal
    have hStart : (Machine.start world).forest = f := by
      rw [Machine.start, hForest]
      rfl
    rw [hStart]
    exact ⟨rooted_of_forestOf hForest, isNone_iff_eq_none.mp hGlobal⟩

/-- The first state is nested. -/
theorem Machine.nested_start : (Machine.start world).Nested := by
  obtain ⟨hRooted, -⟩ := rooted_start world
  exact ⟨hRooted.tidy, hRooted.there, [0], .global hRooted.outer⟩

end Scriptling.Walk
