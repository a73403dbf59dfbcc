import Scriptling.Proofs.Braced.Returned
import Scriptling.Proofs.Script.Bindings
import Scriptling.Proofs.Script.Course
import Scriptling.Proofs.Script.Declaration
import Scriptling.Script.Source

/-!
# What a constant holds

Assignments and declarations store a value under a name in one scope, and nothing else that a script does changes
what a scope binds. So a name holds what was stored under it last, from its declaration to the end of the run. That
a declaration calls the name a constant makes no difference: the stores that follow are carried out, too
(`constant_holds_last_store`).
-/

namespace Scriptling.Script

open List

variable {name : String} {s : Step} {v : Datum} {scope : Nat}

open Braced Run

/-! ## What a scope binds a name to -/

namespace Frames

/-- The value that a scope binds a name to. -/
def bound? (frames : Frames) (scope : Nat) (name : String) : Option Datum :=
  frames[scope]?.bind (·.bindings.lookup name)

end Frames

theorem lookup_replaced (name other : String) (v : Datum) (bindings : List (String × Datum)) :
    (bindings.map fun b => if b.1 = name then (name, v) else b).lookup other =
      if name = other ∧ name ∈ bindings.map (·.1) then some v else bindings.lookup other := by
  induction bindings with
  | nil => simp
  | cons b bindings ih =>
    obtain ⟨key, w⟩ := b
    by_cases hKey : key = name
    · by_cases hName : name = other
      · simp [hKey, hName]
      · have hOther : (other == name) = false := by simpa using Ne.symm hName
        simp [hKey, hName, hOther, lookup_cons, ih]
    · simp only [map_cons, if_neg hKey, lookup_cons, ih, mem_cons, Ne.symm hKey, false_or]
      split
      next hOther =>
        have hName : name ≠ other := fun hEq => hKey ((eq_of_beq hOther).symm.trans hEq.symm)
        simp [hName]
      · rfl

theorem Frame.lookup_define (f : Frame) (name other : String) (v : Datum) :
    (f.define name v).bindings.lookup other = if name = other then some v else f.bindings.lookup other := by
  simp only [Frame.define, beq_iff_eq]
  by_cases hBinds : name ∈ f.bindings.map (·.1)
  · rw [if_pos (by simpa [Frame.binds, Frame.names] using hBinds), lookup_replaced]
    simp only [hBinds, and_true]
  · rw [if_neg (by simpa [Frame.binds, Frame.names] using hBinds)]
    by_cases hName : name = other
    · subst hName
      have hUnbound : f.bindings.lookup name = none := by
        rw [lookup_eq_none_iff]
        intro b hb
        have hKey : b.1 ≠ name := fun hEq => hBinds (mem_map.mpr ⟨b, hb, hEq⟩)
        simpa using Ne.symm hKey
      simp [lookup_append, hUnbound]
    · have hDiffer : (other == name) = false := by simpa using Ne.symm hName
      simp [lookup_append, lookup_cons, hName, hDiffer]

namespace Frames

theorem bound?_define (frames : Frames) (hScope : scope < frames.size) (name : String) (v : Datum)
    (scope' : Nat) (name' : String) :
    (frames.define scope name v).bound? scope' name' =
      if scope = scope' ∧ name = name' then some v else frames.bound? scope' name' := by
  unfold bound? define
  rw [Array.getElem?_modify]
  by_cases hSame : scope = scope'
  · subst hSame
    have hFrame : frames[scope]? = some frames[scope] := Array.getElem?_eq_getElem hScope
    simp [hFrame, Frame.lookup_define]
  · simp [hSame]

theorem bound?_add (frames : Frames) (parent : Option Nat) (scope : Nat) (name : String) :
    (frames.add parent).2.bound? scope name = frames.bound? scope name := by
  unfold bound? add
  rw [Array.getElem?_push]
  by_cases hNew : scope = frames.size
  · simp [hNew]
  · simp [hNew]

theorem lt_size_of_resolve {frames : Frames} {id owner : Nat} {name : String}
    (h : frames.resolve id name = some owner) : owner < frames.size := by
  obtain ⟨f, hf, -⟩ := mem_names_of_resolve h
  exact (Array.getElem?_eq_some_iff.mp hf).1

end Frames

/-! ## What a step stores -/

def functionValue (name : String) (params : List Param) (result : TypeMark) (body : List Stmt) : Datum :=
  .tagged .function (Stmt.function name params result body).toDatum

namespace Step

/-- The scope, the name and the value that a step stores. -/
def store? (s : Step) : Option (Nat × String × Datum) :=
  match s.op with
  | .assign name v => (s.before.frames.resolve s.before.current name).map fun owner => (owner, name, v)
  | .declare name v _ => some (s.before.current, name, v)
  | .function name params result body => some (s.before.current, name, functionValue name params result body)
  | _ => none

/-- The value that a step stores under a name in a scope. -/
def stored? (s : Step) (scope : Nat) (name : String) : Option Datum :=
  s.store?.bind fun (scope', name', v) => if scope' = scope ∧ name' = name then some v else none

/-- What a step does to the scopes. -/
inductive Effect [Size.Room] (s : Step) : Prop where
  | quiet : s.store? = none → s.before.SameScopes s.after → Effect s
  | stores {scope : Nat} {name : String} {v : Datum} : s.store? = some (scope, name, v) → s.outcome = .ok v →
      s.after = { s.before with frames := s.before.frames.define scope name v } → Effect s
  | enters : s.store? = none → s.after = s.before.enter → Effect s
  | leaves : s.store? = none → s.after = s.before.leave → Effect s

theorem effect_of_quiet [Size.Room] {s : Step} (hStore : s.store? = none) (h : Quiet s.op.run) : s.Effect :=
  .quiet hStore (h s.before s.before (.refl _))

/-- No function of a script can be called, and others leave the scopes alone. -/
theorem call_quiet [Size.Room] (f : Datum) (args : List Datum) : Quiet (Op.call f args).run := by
  show Quiet (Script.call .basic 1 f args)
  rw [Script.call]
  refine .lift_bind fun tag => .lift_bind fun payload => ?_
  split
  · exact callNative_quiet payload args
  · rw [if_pos rfl]
    exact .throw _

theorem effect_assign [Size.Room] (name : String) (v : Datum) (m : Machine) : Effect ⟨.assign name v, m⟩ := by
  have hFind : (modifyGet (fun m => (m.frames.resolve m.current name, m)) : Run (Option Nat)).run m =
      (.ok (m.frames.resolve m.current name), m) := rfl
  have hRun : (Run.assign name v).run m = _ := run_bind_of_ok hFind
  cases hOwner : m.frames.resolve m.current name with
  | some owner =>
    rw [hOwner] at hRun
    have hStored : (Op.assign name v).run.run m =
        (.ok v, { m with frames := m.frames.define owner name v }) := run_bind_of_ok hRun
    have hStore : store? ⟨.assign name v, m⟩ = some (owner, name, v) := by simp [store?, hOwner]
    exact .stores hStore (congrArg Prod.fst hStored) (congrArg Prod.snd hStored)
  | none =>
    rw [hOwner] at hRun
    have hFailed : (Op.assign name v).run.run m = (.error (.trouble (.undefinedVariable name)), m) :=
      run_bind_of_error hRun
    have hSame : after ⟨.assign name v, m⟩ = m := congrArg Prod.snd hFailed
    exact .quiet (by simp [store?, hOwner]) (hSame.symm ▸ .refl m)

theorem effect [Size.Room] (s : Step) : s.Effect := by
  obtain ⟨o, m⟩ := s
  cases o with
  | literal kind value => exact effect_of_quiet rfl (.lift _)
  | lookup name => exact effect_of_quiet rfl (.lookup name)
  | sum left right => exact effect_of_quiet rfl (.sum .basic left right)
  | truth v => exact effect_of_quiet rfl ((Keeps.isTrue v).bind fun _ => .pure _)
  | call f args => exact effect_of_quiet rfl (call_quiet f args)
  | declare name v isConst | function name params result body => exact .stores rfl rfl rfl
  | enter => exact .enters rfl rfl
  | leave => exact .leaves rfl rfl
  | assign name v => exact effect_assign name v m

end Step

/-! ## Scopes that are there -/

/-- The current scope is there, and so is the scope around each. -/
structure Machine.Placed (m : Machine) : Prop where
  current : m.current < m.frames.size
  parents : ∀ (id : Nat) (f : Frame), m.frames[id]? = some f → ∀ p, f.parent = some p → p < m.frames.size

namespace Machine.Placed

variable {m : Machine}

theorem define (h : m.Placed) (scope : Nat) (name : String) (v : Datum) :
    { m with frames := m.frames.define scope name v }.Placed := by
  have hSize : (m.frames.define scope name v).size = m.frames.size := Array.size_modify
  refine ⟨hSize ▸ h.current, ?_⟩
  intro id f hf p hp
  show p < (m.frames.define scope name v).size
  rw [hSize]
  simp only [Frames.define, Array.getElem?_modify] at hf
  split at hf
  · obtain ⟨g, hg, rfl⟩ := Option.map_eq_some_iff.mp hf
    rw [Frames.parent_define] at hp
    exact h.parents id g hg p hp
  · exact h.parents id f hf p hp

theorem enter (h : m.Placed) : m.enter.Placed := by
  have hSize : m.enter.frames.size = m.frames.size + 1 := Array.size_push _
  have hCurrent := h.current
  refine ⟨by rw [hSize]; exact Nat.lt_succ_self _, ?_⟩
  intro id f hf p hp
  rw [hSize]
  have hFrame : (m.frames.push ⟨[], some m.current⟩)[id]? = some f := hf
  rw [Array.getElem?_push] at hFrame
  split at hFrame
  · cases hFrame
    cases hp
    omega
  · have hOlder := h.parents id f hFrame p hp
    omega

theorem leave (h : m.Placed) : m.leave.Placed := by
  refine ⟨?_, h.parents⟩
  show (m.frames[m.current]?.bind (·.parent)).getD m.current < m.frames.size
  cases hFrame : m.frames[m.current]? with
  | none => exact h.current
  | some f =>
    cases hParent : f.parent with
    | none => simpa [hParent] using h.current
    | some p => simpa [hParent] using h.parents _ f hFrame p hParent

theorem step [Size.Room] {s : Step} (h : s.before.Placed) : s.after.Placed := by
  cases s.effect with
  | quiet _ hSame => exact ⟨by rw [hSame.frames, hSame.current]; exact h.current, by rw [hSame.frames]; exact h.parents⟩
  | @stores scope name v _ _ hAfter =>
    rw [hAfter]
    exact h.define scope name v
  | enters _ hAfter =>
    rw [hAfter]
    exact h.enter
  | leaves _ hAfter =>
    rw [hAfter]
    exact h.leave

end Machine.Placed

theorem Step.store?_lt_size (h : s.before.Placed) (hStore : s.store? = some (scope, name, v)) :
    scope < s.before.frames.size := by
  unfold Step.store? at hStore
  split at hStore
  · obtain ⟨owner, hOwner, hEq⟩ := Option.map_eq_some_iff.mp hStore
    cases hEq
    exact Frames.lt_size_of_resolve hOwner
  · cases hStore
    exact h.current
  · cases hStore
    exact h.current
  · cases hStore

/-- After a step, a scope binds a name to what the step has stored there, and to what it was bound to before if
that is nothing. -/
theorem Step.bound?_after [Size.Room] (h : s.before.Placed) (scope : Nat) (name : String) :
    s.after.frames.bound? scope name = (s.stored? scope name).or (s.before.frames.bound? scope name) := by
  unfold Step.stored?
  cases s.effect with
  | quiet hStore hSame => rw [hStore, hSame.frames]; rfl
  | @stores scope' name' v hStore _ hAfter =>
    have hBound := s.before.frames.bound?_define (s.store?_lt_size h hStore) name' v scope name
    rw [hStore, hAfter]
    show (s.before.frames.define scope' name' v).bound? scope name = _
    rw [hBound]
    by_cases hHere : scope' = scope ∧ name' = name
    · simp [hHere]
    · simp [hHere]
  | enters hStore hAfter =>
    rw [hStore, hAfter]
    exact s.before.frames.bound?_add _ scope name
  | leaves hStore hAfter => rw [hStore, hAfter]; rfl

/-! ## The last store -/

/-- What was stored last under a name in a scope. -/
def lastStored? (scope : Nat) (name : String) (steps : List Step) : Option Datum :=
  steps.reverse.findSome? (·.stored? scope name)

theorem lastStored?_concat (scope : Nat) (name : String) (steps : List Step) (s : Step) :
    lastStored? scope name (steps ++ [s]) = (s.stored? scope name).or (lastStored? scope name steps) := by
  unfold lastStored?
  rw [reverse_append, reverse_singleton, singleton_append, List.findSome?_cons]
  cases s.stored? scope name <;> rfl

/-- Along steps that follow one another, a scope binds a name to what was stored last, and at first to what it was
bound to before. -/
theorem Linked.bound?_eq [Size.Room] {m m' : Machine} {steps : List Step} (h : Linked m steps m') (hm : m.Placed)
    (scope : Nat) (name : String) :
    (∀ past s rest, steps = past ++ s :: rest → s.before.frames.bound? scope name =
      (lastStored? scope name past).or (m.frames.bound? scope name)) ∧
    m'.frames.bound? scope name = (lastStored? scope name steps).or (m.frames.bound? scope name) := by
  have hAll := h.invariant (J := fun past m' => m'.Placed ∧ m'.frames.bound? scope name =
    (lastStored? scope name past).or (m.frames.bound? scope name)) ⟨hm, rfl⟩ ?_
  · exact ⟨fun past s rest hSteps => (hAll.1 past s rest hSteps).2, hAll.2.2⟩
  · rintro past s rest - ⟨hPlaced, hBound⟩
    refine ⟨hPlaced.step, ?_⟩
    rw [s.bound?_after hPlaced, lastStored?_concat, hBound, Option.or_assoc]

/-- A step that stores gives the value that it stores. -/
theorem Step.outcome_of_stored [Size.Room] (h : s.stored? scope name = some v) : s.outcome = .ok v := by
  unfold Step.stored? at h
  cases s.effect with
  | @stores scope' name' w hStore hOutcome _ =>
    simp only [hStore, Option.bind_some, Option.ite_none_right_eq_some, Option.some.injEq] at h
    exact h.2 ▸ hOutcome
  | quiet hStore | enters hStore | leaves hStore =>
    rw [hStore] at h
    cases h

/-- What a script ends with is told without a change of scopes. -/
theorem interpret_sameScopes [Size.Room] (fuel : Nat) (ss : List Datum) (m : Machine) :
    ((executeAll .basic fuel ss .none).run m).2.SameScopes ((interpret .basic fuel ss).run m).2 := by
  unfold interpret
  rcases hRun : (executeAll .basic fuel ss .none).run m with ⟨s | v, m'⟩
  · rw [run_tryCatch_of_error hRun]
    cases s <;> exact ⟨rfl, rfl⟩
  · rw [run_tryCatch_of_ok hRun]
    exact .refl m'

/-- **A constant holds what was stored last.** Take a text that is scanned to its end and parsed without a complaint,
and a run of its statements from a state whose scopes are there. Once a constant has been declared in a scope, this
scope binds its name, before every later step and at the end, to what was stored there last, and to the declared
value if nothing was. No store to it fails: it ends with the value that it stores. -/
theorem constant_holds_last_store [Size.Room] {source : String} (hStopped : (scan source).stopped = none)
    (hQuiet : (parse (scan source).tokens).diagnostics = []) :
    ∃ stmts rest, parse (scan source).tokens = ⟨.ok stmts, rest, []⟩ ∧
      ∀ (fuel : Nat) (start : Machine), start.Placed → ∀ past name v m later,
        (Plan.ofStmts fuel stmts .none).course start = past ++ ⟨.declare name v true, m⟩ :: later →
        (∀ between s rest, later = between ++ s :: rest →
          s.before.frames.bound? m.current name = some ((lastStored? m.current name between).getD v) ∧
          ∀ w, s.stored? m.current name = some w → s.outcome = .ok w) ∧
        ((interpret .basic fuel (stmts.map Stmt.toDatum)).run start).2.frames.bound? m.current name =
          some ((lastStored? m.current name later).getD v) := by
  obtain ⟨stmts, rest, hParse, -⟩ := parsed_fit hStopped hQuiet
  refine ⟨stmts, rest, hParse, ?_⟩
  intro fuel start hStart past name v m later hCourse
  have hLinked := (Plan.ofStmts fuel stmts .none).linked_course start
  rw [hCourse, (plans_run fuel).stmts, stmtData_eq_map] at hLinked
  obtain ⟨hPast, hLater⟩ := hLinked.split
  have hPlaced : m.Placed := (hPast.invariant (J := fun _ m => m.Placed) hStart fun _ s _ _ h => h.step).2
  -- the declaration is a store itself
  have hDeclared : (Step.after ⟨.declare name v true, m⟩).frames.bound? m.current name = some v := by
    rw [Step.bound?_after (s := ⟨.declare name v true, m⟩) hPlaced]
    simp [Step.stored?, Step.store?]
  have hBound := hLater.bound?_eq (Machine.Placed.step (s := ⟨.declare name v true, m⟩) hPlaced) m.current name
  simp only [hDeclared, Option.or_some] at hBound
  refine ⟨fun between s rest hBetween => ⟨hBound.1 between s rest hBetween, fun w => Step.outcome_of_stored⟩, ?_⟩
  rw [(interpret_sameScopes fuel _ start).frames]
  exact hBound.2

theorem Machine.placed_start (world : World) : (Machine.start world).Placed := by
  refine ⟨Nat.one_pos, fun id f hf p hp => ?_⟩
  cases eq_of_start hf
  cases hp

/-- A constant that is assigned to from a scope inside its own, and declared once more after that. -/
def storedThrice : String := "const x = \"a\"; if (true) \x7b x = \"b\"; \x7d else \x7b x; \x7d let x = \"c\";"

/-- The constant that an operation declares, with its value. -/
def Op.constant? : Op → Option (String × Datum)
  | declare name v true => some (name, v)
  | _ => none

theorem Op.eq_declare_of_constant? {o : Op} (h : o.constant? = some (name, v)) : o = .declare name v true := by
  unfold Op.constant? at h
  split at h
  · cases h
    rfl
  · cases h

-- What follows is computed on an ordinary machine.
attribute [local instance] Size.ordinary

theorem storedThrice_declares :
    (match (parse (scan storedThrice).tokens).ending with
      | .ok stmts => ((Plan.ofStmts 9 stmts .none).course (.start default)).any (·.op.constant?.isSome)
      | _ => false) = true := by
  decide +kernel

theorem constant_holds_last_store_thrice :
    (scan storedThrice).stopped = none ∧ (parse (scan storedThrice).tokens).diagnostics = [] ∧
    (Machine.start default).Placed ∧
    ∃ stmts rest, parse (scan storedThrice).tokens = ⟨.ok stmts, rest, []⟩ ∧
      ∃ past name v m later,
        (Plan.ofStmts 9 stmts .none).course (.start default) = past ++ ⟨.declare name v true, m⟩ :: later ∧
        ((interpret .basic 9 (stmts.map Stmt.toDatum)).run (.start default)).2.frames.bound? m.current name =
          some ((lastStored? m.current name later).getD v) := by
  have hStopped : (scan storedThrice).stopped = none := by decide +kernel
  have hQuiet : (parse (scan storedThrice).tokens).diagnostics = [] := isEmpty_iff.mp (by decide +kernel)
  have hPlaced := Machine.placed_start default
  obtain ⟨stmts, rest, hParse, hHolds⟩ := constant_holds_last_store hStopped hQuiet
  have hDeclares := storedThrice_declares
  rw [hParse, any_eq_true] at hDeclares
  obtain ⟨⟨o, m⟩, hMem, hOp⟩ := hDeclares
  obtain ⟨past, later, hCourse⟩ := append_of_mem hMem
  obtain ⟨⟨name, v⟩, hConstant⟩ := Option.isSome_iff_exists.mp hOp
  obtain rfl : o = .declare name v true := Op.eq_declare_of_constant? hConstant
  exact ⟨hStopped, hQuiet, hPlaced, stmts, rest, hParse, past, name, v, m, later, hCourse,
    (hHolds 9 _ hPlaced past name v m later hCourse).2⟩

/-- A constant does change: an accepted script assigns to one, and the name holds the assigned value in the end. -/
theorem constant_changes :
    (scan "const x = \"a\"; x = \"b\";").notices.isEmpty ∧
    (parse (scan "const x = \"a\"; x = \"b\";").tokens).diagnostics.isEmpty ∧
    (match ((runSource .basic 9 "const x = \"a\"; x = \"b\";").run (.start default)).2.frames.bound? 0 "x" with
      | some (.value (.tag .string) (.str s)) => some s
      | _ => none) = some "b" := by
  decide +kernel

end Scriptling.Script
