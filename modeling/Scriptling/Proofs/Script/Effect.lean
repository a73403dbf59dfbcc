import Scriptling.Proofs.Logic
import Scriptling.Script.Run

/-!
# Effects of scripts on scopes

Most of what a script does leaves the scopes alone: it looks at values, prints, reads, or calls a native function.
The rest is assigning, declaring, and running statements in a scope of their own. An `Effect` says of two relations
between states that these few operations keep them: the inner one for expressions and whatever has a scope of its
own, the outer one for statements, which may declare. Then every part of every script keeps them, in either
dialect (`runs_keep`).

The induction is on fuel, over all forms of expression and statement at once.
-/

namespace Scriptling.Keeps

open Script Run Keeps

/-! ## Runs that leave the state alone -/

variable {α β : Type} {K : Machine → Machine → Prop}

theorem lift (r : Except Fault α) : Keeps K (lift r) := by
  cases r with
  | ok a => exact .pure a
  | error f => exact .throw _

theorem lift_bind {r : Except Fault α} {f : α → Run β} (hf : ∀ a, Keeps K (f a)) : Keeps K (Run.lift r >>= f) :=
  (lift r).bind hf

theorem textOf (v : Datum) : Keeps K (textOf v) := get.bind fun _ => lift _

theorem isTrue (v : Datum) : Keeps K (isTrue v) := lift_bind fun _ => get.bind fun _ => lift_bind fun _ => .pure _

theorem lookup (name : String) : Keeps K (lookup name) := by
  refine get.bind fun m => ?_
  cases m.frames.get m.current name with
  | ok v => exact .pure v
  | error t => exact .throw _

theorem sum [Size.Room] (d : Dialect) (left right : Datum) : Keeps K (sum d left right) := by
  refine .lift_bind fun lt => .lift_bind fun rt => get.bind fun m => ?_
  refine .lift_bind fun p => .lift_bind fun q => ?_
  split
  · exact .lift_bind fun _ => .pure _
  · cases d with
    | basic =>
      dsimp only
      split
      · exact .lift_bind fun _ => .pure _
      · exact .throw _
    | closing => exact .throw _

theorem applyOperator [Size.Room] (d : Dialect) (record left right : Datum) :
    Keeps K (applyOperator d record left right) := by
  refine .lift_bind fun operator => ?_
  cases d with
  | basic =>
    refine .lift_bind fun lexeme => ?_
    split
    · exact sum _ left right
    · exact .throw _
  | closing =>
    dsimp only
    split
    · exact sum _ left right
    · exact .throw _

end Scriptling.Keeps

namespace Scriptling.Script

open Run

/-! ## Runs that leave the scopes alone -/

/-- The scopes and the current one are the same. -/
structure Machine.SameScopes (before after : Machine) : Prop where
  frames : after.frames = before.frames
  current : after.current = before.current

namespace Machine.SameScopes

theorem refl (m : Machine) : m.SameScopes m := ⟨rfl, rfl⟩

theorem step {m0 m m' : Machine} (h : m0.SameScopes m) (hFrames : m'.frames = m.frames)
    (hCurrent : m'.current = m.current) : m0.SameScopes m' :=
  ⟨hFrames.trans h.frames, hCurrent.trans h.current⟩

end Machine.SameScopes

/-- The run leaves the scopes alone, however it ends. -/
abbrev Run.Quiet {α : Type} (r : Run α) : Prop := Keeps Machine.SameScopes r

namespace Run

theorem print_quiet (text : String) : Quiet (print text) := .modify fun _ _ h => h.step rfl rfl

theorem native_quiet [Size.Room] (n : Native) (args : List Datum) : Quiet (native n args) := by
  unfold Run.native
  extract_lets act
  have hAct : ∀ u, Quiet (act u) := by
    refine fun _ => .get_bind fun _ m hm => .bind (.set fun _ => hm.step rfl rfl) fun _ => ?_
    split
    · exact .pure _
    · split <;> exact .throw _
  split
  · split
    · exact .bind (.throw _) hAct
    · exact hAct ()
  · exact hAct ()

end Run

theorem Builtin.run_quiet (b : Builtin) (args : List Datum) : Quiet (b.run args) := by
  unfold Builtin.run
  split
  · exact (Keeps.mapM .textOf _).bind fun _ => (print_quiet _).bind fun _ => .pure _
  · refine .lift_bind fun _ => ?_
    split
    · exact Keeps.get.bind fun _ => .lift_bind fun _ => .lift_bind fun _ => .pure _
    · exact .throw _
  · exact .throw _
  · extract_lets readIt
    have hRead : ∀ u, Quiet (readIt u) := by
      refine fun _ => .get_bind fun _ m hm => .bind (.set fun _ => hm.step rfl rfl) fun _ => ?_
      exact (Keeps.lift _).bind fun _ => .pure _
    split
    · refine .lift_bind fun _ => (Keeps.textOf _).bind fun _ => ?_
      exact (print_quiet _).bind hRead
    · exact hRead ()

theorem countDown_quiet (index : Nat) : Quiet (countDown index) := by
  refine .get_bind fun m0 m hm => ?_
  split
  · exact .pure _
  · refine .bind (.set fun _ => hm.step rfl rfl) fun _ => ?_
    split
    · exact .throw _
    · exact .pure _

theorem callNative_quiet [Size.Room] (payload : Datum) (args : List Datum) : Quiet (callNative payload args) := by
  unfold callNative
  split
  · split
    · exact Builtin.run_quiet _ args
    · exact .throw _
  · split
    · exact native_quiet _ args
    · exact .throw _
  · exact countDown_quiet _
  · exact .throw _

/-! ## Effects -/

/-- Two relations between an earlier and a later state that scripts keep: `inner` the parts with a scope of their
own and expressions, `outer` the parts that may declare. -/
structure Effect (inner outer : Machine → Machine → Prop) : Prop where
  ofSame : ∀ {a b : Machine}, a.SameScopes b → inner a b
  inner_trans : ∀ {a b c : Machine}, inner a b → inner b c → inner a c
  outer_trans : ∀ {a b c : Machine}, outer a b → outer b c → outer a c
  outer_of_inner : ∀ {a b : Machine}, inner a b → outer a b
  size_le : ∀ {a b : Machine}, inner a b → a.frames.size ≤ b.frames.size
  assign : ∀ {a : Machine} {owner : Nat} {name : String}, a.frames.resolve a.current name = some owner →
    ∀ v, inner a { a with frames := a.frames.define owner name v }
  define : ∀ (a : Machine) (name : String) (v : Datum), outer a { a with frames := a.frames.define a.current name v }
  newFrame : ∀ (a : Machine) (parent : Option Nat), inner a { a with frames := (a.frames.add parent).2 }
  defineNew : ∀ {a b : Machine} {scope : Nat}, inner a b → a.frames.size ≤ scope →
    ∀ name v, inner a { b with frames := b.frames.define scope name v }
  /-- Running in a scope that was not there, and coming back. -/
  within : ∀ {a b c : Machine} {scope : Nat}, inner a b → a.frames.size ≤ scope →
    outer { b with current := scope } c → inner a { c with current := b.current }

/-- Where every scope is found again, there are at least as many. -/
theorem Frames.size_le_of_found {before after : Frames}
    (h : ∀ (id : Nat) (f : Frame), before[id]? = some f → ∃ f', after[id]? = some f') : before.size ≤ after.size := by
  refine Nat.le_of_not_lt fun hLess => ?_
  obtain ⟨f, hf⟩ := h after.size before[after.size] (Array.getElem?_eq_getElem hLess)
  have hThere := (Array.getElem?_eq_some_iff.mp hf).1
  omega

namespace Effect

variable {inner outer : Machine → Machine → Prop} {α : Type} {r : Run α} (h : Effect inner outer)

include h

theorem inner_of_quiet (hr : Quiet r) : Keeps inner r :=
  fun _ m hm => h.inner_trans hm (h.ofSame (hr m m (.refl m)))

theorem outer_of_keeps (hr : Keeps inner r) : Keeps outer r :=
  fun _ m hm => h.outer_trans hm (h.outer_of_inner (hr m m (h.ofSame (.refl m))))

theorem outer_of_quiet (hr : Quiet r) : Keeps outer r := h.outer_of_keeps (h.inner_of_quiet hr)

theorem assign_keeps (name : String) (v : Datum) : Keeps inner (Run.assign name v) := by
  refine fun m0 m hm => h.inner_trans hm ?_
  have hFind : (modifyGet (fun m => (m.frames.resolve m.current name, m)) : Run (Option Nat)).run m =
      (.ok (m.frames.resolve m.current name), m) := rfl
  unfold Run.assign
  rw [run_bind_of_ok hFind]
  cases hOwner : m.frames.resolve m.current name with
  | some owner => exact h.assign hOwner v
  | none => exact h.ofSame (.refl m)

theorem define_keeps (name : String) (v : Datum) : Keeps outer (Run.define name v) :=
  .modify fun _ m hm => h.outer_trans hm (h.define m name v)

/-- What is done with a new scope may rely on its being new. -/
theorem newFrame_bind (parent : Option Nat) {f : Nat → Run α}
    (hf : ∀ m0 scope, m0.frames.size ≤ scope → Preserves (inner m0) (f scope)) :
    Keeps inner (Run.newFrame parent >>= f) := by
  intro m0 m hm
  exact hf m0 m.frames.size (h.size_le hm) m0 _ (h.inner_trans hm (h.newFrame m parent))

theorem within_preserves {body : Run α} (hBody : Keeps outer body) {m0 : Machine}
    {scope : Nat} (hScope : m0.frames.size ≤ scope) : Preserves (inner m0) (Run.within scope body) := by
  refine fun _ m hm => h.within hm hScope ?_
  exact hBody { m with current := scope } _ (h.outer_of_inner (h.ofSame (.refl _)))

theorem bindParams_preserves {m0 : Machine} {scope : Nat}
    (hScope : m0.frames.size ≤ scope) (params args : List Datum) :
    Preserves (inner m0) (bindParams scope params args) := by
  induction params generalizing args with
  | nil => exact .pure ()
  | cons p ps ih =>
    cases args with
    | nil => exact .pure ()
    | cons a as =>
      refine (Keeps.lift _).bind fun name => .bind ?_ fun _ => ih as
      exact .modify fun _ m hm => h.defineNew hm hScope name a

end Effect

/-! ## Expressions and statements -/

/-- With `n` units of fuel, every run of a part of a script keeps its relation. -/
structure RunsKeep [Size.Room] (inner outer : Machine → Machine → Prop) (d : Dialect) (n : Nat) : Prop where
  evaluate : ∀ e, Keeps inner (evaluate d n e)
  evaluateAll : ∀ es, Keeps inner (evaluateAll d n es)
  call : ∀ callee args, Keeps inner (call d n callee args)
  execute : ∀ s, Keeps outer (execute d n s)
  block : ∀ statements, Keeps inner (block d n statements)
  executeAll : ∀ ss last, Keeps outer (executeAll d n ss last)
  loop : ∀ s, Keeps inner (loop d n s)
  whileLoop : ∀ s, Keeps outer (whileLoop d n s)

namespace RunsKeep

variable [Size.Room] {inner outer : Machine → Machine → Prop} {d : Dialect} {n : Nat} (hE : Effect inner outer)
  (h : RunsKeep inner outer d n)

include hE h

theorem evaluate_succ (e : Datum) : Keeps inner (Script.evaluate d (n + 1) e) := by
  rw [Script.evaluate]
  refine .lift_bind fun kind => ?_
  split
  · exact .lift _
  · exact .lift_bind fun _ => .lift_bind fun _ => .lookup _
  · refine .lift_bind fun _ => (h.evaluate _).bind fun v => .lift_bind fun _ => ?_
    exact .lift_bind fun name => (hE.assign_keeps name v).bind fun _ => .pure v
  · refine .lift_bind fun _ => (h.evaluate _).bind fun left => .lift_bind fun _ => ?_
    exact (h.evaluate _).bind fun right => .applyOperator d e left right
  · refine .lift_bind fun _ => (h.evaluate _).bind fun callee => .lift_bind fun _ => ?_
    exact .lift_bind fun _ => (h.evaluateAll _).bind fun args => h.call callee args
  · exact .throw _

theorem call_succ (callee : Datum) (args : List Datum) : Keeps inner (Script.call d (n + 1) callee args) := by
  rw [Script.call]
  refine .lift_bind fun tag => .lift_bind fun payload => ?_
  split
  · exact hE.inner_of_quiet (callNative_quiet payload args)
  · split
    · exact .throw _
    · split
      · exact .throw _
      · refine .lift_bind fun _ => .lift_bind fun params => ?_
        extract_lets enter
        have hEnter : ∀ u, Keeps inner (enter u) := by
          refine fun _ => .lift_bind fun _ => hE.newFrame_bind _ fun m0 scope hScope => ?_
          refine (hE.bindParams_preserves hScope params args).bind fun _ => (Keeps.lift _).bind fun _ => ?_
          refine (Keeps.lift _).bind fun body => ?_
          refine (hE.within_preserves (h.executeAll body _) hScope).tryCatch fun s => ?_
          split
          · exact .pure _
          · exact .throw _
        split
        · exact Keeps.bind (.throw _) hEnter
        · exact hEnter ()

theorem execute_succ (s : Datum) : Keeps outer (Script.execute d (n + 1) s) := by
  have hEvaluate : ∀ e, Keeps outer (Script.evaluate d n e) := fun e => hE.outer_of_keeps (h.evaluate e)
  rw [Script.execute]
  refine .lift_bind fun kind => ?_
  split
  · exact .lift_bind fun _ => hEvaluate _
  · refine .lift_bind fun _ => (hEvaluate _).bind fun v => ?_
    refine (Keeps.textOf v).bind fun text => ?_
    exact (hE.outer_of_quiet (print_quiet _)).bind fun _ => .pure _
  · extract_lets bindIt
    have hBind : ∀ v, Keeps outer (bindIt v) := fun v =>
      .lift_bind fun _ => .lift_bind fun name => (hE.define_keeps name v).bind fun _ => .pure v
    split
    · exact (hEvaluate _).bind hBind
    · exact Keeps.bind (.pure _) hBind
  · exact .lift_bind fun _ => hE.outer_of_keeps (h.block _)
  · refine .lift_bind fun _ => (hEvaluate _).bind fun _ => ?_
    refine (Keeps.isTrue _).bind fun holds => ?_
    split
    · exact .lift_bind fun _ => h.execute _
    · split
      · exact h.execute _
      · exact .pure _
  · exact hE.outer_of_keeps (h.loop s)
  · exact h.whileLoop s
  · exact .lift_bind fun _ => .lift_bind fun name => (hE.define_keeps name _).bind fun _ => .pure _
  · split
    · exact (hEvaluate _).bind fun _ => .throw _
    · exact Keeps.bind (.pure _) fun _ => .throw _
  · exact .throw _

theorem block_succ (statements : Datum) : Keeps inner (Script.block d (n + 1) statements) := by
  rw [Script.block]
  refine Keeps.get.bind fun m => hE.newFrame_bind _ fun m0 scope hScope => hE.within_preserves ?_ hScope
  exact .lift_bind fun ss => h.executeAll ss _

omit hE in
theorem loop_succ (s : Datum) : Keeps inner (Script.loop d (n + 1) s) := by
  rw [Script.loop]
  have hTurn : Keeps inner (do
      let _ ← Script.block d n (← Run.lift (field s "body"))
      Pure.pure false) :=
    .lift_bind fun body => (h.block body).bind fun _ => .pure false
  refine (hTurn.tryCatch fun signal => ?_).bind fun left => ?_
  · split
    · exact .pure true
    · exact .throw _
  · split
    · exact .pure _
    · exact h.loop s

theorem whileLoop_succ (s : Datum) : Keeps outer (Script.whileLoop d (n + 1) s) := by
  rw [Script.whileLoop]
  refine .lift_bind fun _ => (hE.outer_of_keeps (h.evaluate _)).bind fun _ => ?_
  refine (Keeps.isTrue _).bind fun holds => ?_
  split
  · exact .lift_bind fun _ => (h.execute _).bind fun _ => h.whileLoop s
  · exact .pure _

end RunsKeep

/-- **Scripts have the effect of their operations.** What assigning, declaring and new scopes keep is kept by every
part of every script, however its run ends. -/
theorem runs_keep [Size.Room] {inner outer : Machine → Machine → Prop} (hE : Effect inner outer) (d : Dialect)
    (n : Nat) : RunsKeep inner outer d n := by
  induction n with
  | zero => constructor <;> intros <;> exact .throw _
  | succ n ih =>
    refine ⟨ih.evaluate_succ hE, ?_, ih.call_succ hE, ih.execute_succ hE, ih.block_succ hE, ?_,
      ih.loop_succ, ih.whileLoop_succ hE⟩
    · intro es
      cases es with
      | nil => exact .pure []
      | cons e es => exact (ih.evaluate e).bind fun v => (ih.evaluateAll es).bind fun vs => .pure (v :: vs)
    · intro ss last
      cases ss with
      | nil => exact .pure last
      | cons s ss => exact (ih.execute s).bind fun v => ih.executeAll ss v

end Scriptling.Script
