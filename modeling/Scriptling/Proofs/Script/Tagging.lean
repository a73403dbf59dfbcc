import Scriptling.Proofs.Script.Bindings
import Scriptling.Proofs.Script.Natives
import Scriptling.Proofs.Script.Provenance
import Scriptling.Proofs.Script.Stores

/-!
# Tags along the course of a script

Every operation of a script hands well-tagged values on: from those it is given and the state before to the one it
gives and the state afterwards. The only exceptions are calls of the four functions that may label as a number what
is none. So all values are well tagged up to the first such call, and after it only numbers can be wrong
(`values_wellTagged`).
-/

namespace Scriptling.Script

open Braced Run

variable {m : Machine}

/-! ## Operations on well-tagged values -/

section Operations

variable {α β : Type} {loose : Prop} {store : Store} {p : Datum}

abbrev Run.Tags (loose : Prop) (store : Store) (r : Run α) (Q : Nat → α → Prop) : Prop :=
  KeepsTags (fun m : Machine => m.world.store) loose store r Q

abbrev Run.Still (r : Run α) : Prop := LeavesStore (fun m : Machine => m.world.store) r

theorem lift_bind_tags {r : Except Fault α} {f : α → Run β} {Q : Nat → β → Prop}
    (h : ∀ a, r = .ok a → Run.Tags loose store (f a) Q) : Run.Tags loose store (lift r >>= f) Q := by
  cases r with
  | ok a => exact h a rfl
  | error f => exact .throw _

theorem print_still (s : String) : Run.Still (print s) := Keeps.modify fun _ _ h => h

theorem WellTagged.isReal_or_loose {cells : Nat} (h : WellTagged loose cells (.tagged .number p)) :
    isReal p = true ∨ loose := by
  cases h with
  | int | float => exact .inl rfl
  | stray hLoose => exact .inr hLoose

theorem exists_of_isReal (h : isReal p = true) : (∃ n, p = .int n) ∨ ∃ x, p = .float x := by
  cases p with
  | int n => exact .inl ⟨n, rfl⟩
  | float x => exact .inr ⟨x, rfl⟩
  | _ => cases h

theorem freeze_of_isReal (h : isReal p = true) (store : Store) : store.freeze p = p := by
  rcases exists_of_isReal h with ⟨n, rfl⟩ | ⟨x, rfl⟩ <;> rfl

theorem isReal_add [Size.Room] {q r : Datum} (hp : isReal p = true) (hq : isReal q = true)
    (h : Datum.operate .add p q = .ok r) : isReal r = true := by
  have hFloat : ∀ {x y : Float}, Datum.floatOperation .add x y = .ok r → isReal r = true := by
    intro x y h
    cases h
    rfl
  rcases exists_of_isReal hp with ⟨a, rfl⟩ | ⟨x, rfl⟩
  · rcases exists_of_isReal hq with ⟨b, rfl⟩ | ⟨y, rfl⟩
    · cases h
      rfl
    · obtain ⟨x, -, hx⟩ := Datum.ok_of_bind h
      exact hFloat hx
  · rcases exists_of_isReal hq with ⟨b, rfl⟩ | ⟨y, rfl⟩
    · obtain ⟨y, -, hy⟩ := Datum.ok_of_bind h
      exact hFloat hy
    · exact hFloat h

/-- The sum of numbers is a number, and the sum of strings is a string. -/
theorem sum_tags [Size.Room] {left right : Datum} (hl : WellTagged loose store.size left)
    (hr : WellTagged loose store.size right) : Run.Tags loose store (sum .basic left right) (WellTagged loose) := by
  obtain ⟨t, p, rfl⟩ := hl.exists_parts
  obtain ⟨u, q, rfl⟩ := hr.exists_parts
  rw [Datum.tagged, Datum.tagged, sum_values]
  refine .quiet Keeps.get fun m => ?_
  dsimp only
  split
  next hTags =>
    obtain ⟨rfl, rfl⟩ : t = .number ∧ u = .number := by simpa [isTag_iff] using hTags
    refine lift_bind_tags fun r hSum => .pure fun _ _ => ?_
    rcases hl.isReal_or_loose with hp | hLoose
    · rcases hr.isReal_or_loose with hq | hLoose
      · rw [freeze_of_isReal hp, freeze_of_isReal hq] at hSum
        exact .of_isReal (isReal_add hp hq hSum)
      · exact .stray hLoose
    · exact .stray hLoose
  · split
    next hTags =>
      obtain ⟨rfl, rfl⟩ : t = .string ∧ u = .string := by simpa [isTag_iff] using hTags
      obtain ⟨a, rfl⟩ := hl.exists_text
      obtain ⟨b, rfl⟩ := hr.exists_text
      exact .pure fun _ _ => .string
    · exact .throw _

theorem Builtin.run_tags (b : Builtin) (args : List Datum) : Run.Tags loose store (b.run args) (WellTagged loose) := by
  unfold Builtin.run
  split
  · exact .quiet (Keeps.mapM .textOf _) fun _ => .quiet (print_still _) fun _ => .pure fun _ _ => .null
  · refine .quiet (.lift _) fun t => ?_
    split
    · refine .quiet Keeps.get fun m => .quiet (.lift _) fun p => .quiet (.lift _) fun k => ?_
      exact .pure fun _ _ => .int
    · exact .throw _
  · exact .throw _
  · extract_lets readIt
    have hRead : ∀ u, Run.Tags loose store (readIt u) (WellTagged loose) := by
      intro u m hm
      have hRest : Run.Tags loose store (do return .tagged .string (.str (← lift m.world.console.readLine.1)))
          (WellTagged loose) := .quiet (.lift _) fun s => .pure fun _ _ => .string
      exact hRest { m with world := { m.world with console := m.world.console.readLine.2 } } hm
    split
    · refine .quiet (.lift _) fun p => .quiet (.textOf _) fun text => ?_
      exact .quiet (print_still _) hRead
    · exact hRead ()

theorem native_tags [Size.Room] (n : Native) {args : List Datum} (hArgs : ∀ v ∈ args, WellTagged loose store.size v) :
    Run.Tags loose store (Run.native n args) (n.Labels loose) := by
  unfold Run.native
  extract_lets act
  have hAct : ∀ u, Run.Tags loose store (act u) (n.Labels loose) := by
    intro u m hm
    have hNative := n.act_tags hArgs m.world hm
    rcases hRun : n.act args m.world with ⟨r | v, world⟩
    · have hEnd : Onward loose store world.store := by
        rw [show (n.act args).run m.world = _ from hRun] at hNative
        exact hNative
      unfold act
      rw [run_get_bind, hRun]
      have hRest : Run.Tags loose store (if r = .fault (.plain .interrupted) then throw (.fault (.plain .interrupted))
          else throw (.trouble (.native n r)) : Run Datum) (n.Labels loose) := by
        split <;> exact .throw _
      exact hRest { m with world } hEnd
    · rw [show (n.act args).run m.world = _ from hRun] at hNative
      unfold act
      rw [run_get_bind, hRun]
      exact hNative
  split
  · split
    · exact .quiet (Keeps.throw _) hAct
    · exact hAct ()
  · exact hAct ()

theorem callNative_function [Size.Room] (n : Native) (args : List Datum) :
    callNative (.function n.name) args = Run.native n args := by
  cases n <;> rfl

theorem Native.ofName?_name (n : Native) : Native.ofName? n.name = some n := by
  cases n <;> rfl

/-- The value that stands for a native function. -/
def nativeValue (n : Native) : Datum := .tagged .builtin (.function n.name)

theorem call_tags [Size.Room] {f : Datum} (hf : WellTagged loose store.size f) {args : List Datum}
    (hArgs : ∀ v ∈ args, WellTagged loose store.size v) :
    Run.Tags loose store (call .basic 1 f args) fun cells v => WellTagged loose cells v ∨
      ∃ n p, f = nativeValue n ∧ v = .tagged .number p ∧ n.mislabels p = true := by
  obtain ⟨t, p, rfl⟩ := hf.exists_parts
  rw [Datum.tagged, call_value]
  split
  next hTag =>
    obtain rfl : t = .builtin := isTag_iff.mp hTag
    cases hf with
    | builtin b =>
      rw [callNative_builtin]
      exact (b.run_tags args).mono fun _ _ => .inl
    | native n =>
      rw [callNative_function]
      refine (native_tags n hArgs).mono fun _ v => Or.imp_right ?_
      rintro ⟨p, hv, hp⟩
      exact ⟨n, p, rfl, hv, hp⟩
  · exact .throw _

end Operations

/-! ## Steps -/

/-- All that is bound is well tagged, and so are the items of all lists. -/
structure Machine.WellTagged (loose : Prop) (m : Machine) : Prop where
  bindings : m.Binds fun b => Script.WellTagged loose m.world.store.size b.2
  lists : HoldsLists loose m.world.store

namespace Step

/-- The call of a native function that mislabels its result. -/
def strays [Size.Room] (s : Step) : Bool :=
  match s.op, s.outcome with
  | .call (.value _ (.function name)) _, .ok (.value _ p) => (Native.ofName? name).any (·.mislabels p)
  | _, _ => false

structure Tags [Size.Room] (loose : Prop) (s : Step) : Prop where
  onward : Onward loose s.before.world.store s.after.world.store
  outcome : ∀ v, s.outcome = .ok v → WellTagged loose s.after.world.store.size v ∨
    ∃ n args p, s.op = .call (nativeValue n) args ∧ v = .tagged .number p ∧ n.mislabels p = true

variable {loose : Prop} {s : Step}

theorem tags_of_run [Size.Room] {Q : Nat → Datum → Prop} (hm : HoldsLists loose s.before.world.store)
    (h : Run.Tags loose s.before.world.store s.op.run Q)
    (hQ : ∀ cells v, Q cells v → WellTagged loose cells v ∨
      ∃ n args p, s.op = .call (nativeValue n) args ∧ v = .tagged .number p ∧ n.mislabels p = true) : s.Tags loose := by
  have hRun := h s.before (.refl hm)
  rw [show s.op.run.run s.before = (s.outcome, s.after) from rfl] at hRun
  cases hOutcome : s.outcome with
  | error e =>
    rw [hOutcome] at hRun
    refine ⟨hRun, fun v hv => ?_⟩
    cases hOutcome.symm.trans hv
  | ok w =>
    rw [hOutcome] at hRun
    refine ⟨hRun.1, fun v hv => ?_⟩
    cases hOutcome.symm.trans hv
    exact hQ _ w hRun.2

theorem literal_tags [Size.Room] {kind : LiteralKind} {value : Datum} (hFit : (Expr.literal kind value).Fit True)
    {store : Store} : Run.Tags loose store (Op.literal kind value).run (WellTagged loose) := by
  cases kind with
  | number =>
    obtain ⟨x, rfl⟩ := hFit
    exact .pure fun _ _ => .float
  | string =>
    obtain ⟨s, rfl⟩ := hFit
    exact .pure fun _ _ => .string
  | boolean =>
    obtain ⟨b, rfl⟩ := hFit
    exact .pure fun _ _ => .boolean

theorem lookup_tags [Size.Room] (hm : m.WellTagged loose) (name : String) : Tags loose ⟨.lookup name, m⟩ := by
  have hRun : (Op.lookup name).run.run m = (liftTrouble (m.frames.get m.current name)).run m := rfl
  have hAfter : after ⟨.lookup name, m⟩ = m := by
    rw [after, hRun]
    cases m.frames.get m.current name <;> rfl
  refine ⟨hAfter.symm ▸ .refl hm.lists, fun v hv => .inl ?_⟩
  rw [outcome, hRun] at hv
  rw [hAfter]
  cases hGet : m.frames.get m.current name with
  | ok u =>
    rw [hGet] at hv
    cases hv
    exact Machine.Binds.of_get hm.bindings hGet
  | error t =>
    rw [hGet] at hv
    cases hv

theorem assign_still (name : String) (v : Datum) : Run.Still (Run.assign name v) := by
  refine Keeps.bind (.modifyGet fun _ _ h => h) fun owner? => ?_
  split
  · exact .modify fun _ _ h => h
  · exact .throw _

/-- **Operations keep tags right.** Given well-tagged values in a well-tagged state, an operation leaves well-tagged
lists and gives a well-tagged value, unless it is a call that strays. -/
theorem tags [Size.Room] (hFit : s.op.Fit True True) (hm : s.before.WellTagged loose)
    (hValues : ∀ v ∈ s.op.values, WellTagged loose s.before.world.store.size v) : s.Tags loose := by
  obtain ⟨o, m⟩ := s
  have hPlain : Run.Tags loose m.world.store o.run (WellTagged loose) → Tags loose ⟨o, m⟩ :=
    fun h => tags_of_run hm.lists h fun _ _ => .inl
  cases o with
  | literal kind value => exact hPlain (literal_tags hFit)
  | lookup name => exact lookup_tags hm name
  | assign name v =>
    have hv : WellTagged loose m.world.store.size v := hValues v (by simp [Op.values])
    exact hPlain (.quiet (assign_still name v) fun _ => .pure fun _ h => h.wellTagged hv)
  | declare name v isConst =>
    have hv : WellTagged loose m.world.store.size v := hValues v (by simp [Op.values])
    exact hPlain (.quiet (Keeps.modify fun _ _ h => h) fun _ => .pure fun _ h => h.wellTagged hv)
  | function name params result body =>
    exact hPlain (.quiet (Keeps.modify fun _ _ h => h) fun _ => .pure fun _ _ => .function)
  | sum left right =>
    have hl : WellTagged loose m.world.store.size left := hValues left (by simp [Op.values])
    have hr : WellTagged loose m.world.store.size right := hValues right (by simp [Op.values])
    exact hPlain (sum_tags hl hr)
  | truth v => exact hPlain (.quiet (.isTrue v) fun b => .pure fun _ _ => .boolean)
  | call f args =>
    have hf : WellTagged loose m.world.store.size f := hValues f (by simp [Op.values])
    have hArgs : ∀ v ∈ args, WellTagged loose m.world.store.size v := fun v hv => hValues v (by simp [Op.values, hv])
    refine tags_of_run hm.lists (call_tags hf hArgs) fun _ v => Or.imp_right ?_
    rintro ⟨n, p, rfl, hv, hp⟩
    exact ⟨n, args, p, rfl, hv, hp⟩
  | enter | leave => exact hPlain (.quiet (Keeps.modify fun _ _ h => h) fun _ => .pure fun _ _ => .null)

theorem Tags.machine [Size.Room] (h : s.Tags loose) (hm : s.before.WellTagged loose) : s.after.WellTagged loose := by
  refine ⟨?_, h.onward.lists⟩
  have hBindings : s.before.Binds fun b => WellTagged loose s.after.world.store.size b.2 :=
    fun id f hf b hb => h.onward.wellTagged (hm.bindings id f hf b hb)
  cases s.effect with
  | quiet _ hSame =>
    intro id f hf
    rw [hSame.frames] at hf
    exact hBindings id f hf
  | @stores scope name v hStore hOutcome hAfter =>
    have hv : WellTagged loose s.after.world.store.size v := by
      rcases h.outcome v hOutcome with hv | ⟨n, args, p, hCall, -⟩
      · exact hv
      · simp [store?, hCall] at hStore
    have hBinding : (fun b : String × Datum => WellTagged loose s.after.world.store.size b.2) (name, v) := hv
    intro id f hf
    rw [hAfter] at hf
    exact hBindings.define scope hBinding id f hf
  | enters _ hAfter =>
    intro id f hf
    rw [hAfter] at hf
    exact hBindings.add (some s.before.current) id f hf
  | leaves _ hAfter =>
    intro id f hf
    rw [hAfter] at hf
    exact hBindings id f hf

theorem Tags.value [Size.Room] (h : s.Tags loose) {v : Datum} (hv : s.outcome = .ok v) :
    WellTagged (loose ∨ s.strays = true) s.after.world.store.size v := by
  rcases h.outcome v hv with hTagged | ⟨n, args, p, hCall, rfl, hMislabels⟩
  · exact hTagged.mono .inl (Nat.le_refl _)
  · refine .stray (.inr ?_)
    have hValue : s.outcome = .ok (.value (.tag .number) p) := hv
    simp [strays, hCall, hValue, nativeValue, Datum.tagged, Native.ofName?_name, hMislabels]

end Step

/-! ## Runs -/

theorem Machine.WellTagged.mono {loose loose' : Prop} (h : m.WellTagged loose)
    (hLoose : loose → loose') : m.WellTagged loose' := by
  refine ⟨fun id f hf b hb => (h.bindings id f hf b hb).mono hLoose (Nat.le_refl _), fun id d hd => ?_⟩
  obtain ⟨xs, hList, hItems⟩ := h.lists id d hd
  exact ⟨xs, hList, fun x hx => (hItems x hx).mono hLoose (Nat.le_refl _)⟩

/-- The functions that every script has and the native functions are well tagged, and there are no lists at first. -/
theorem wellTagged_withNatives (loose : Prop) (console : Console) (files : FileTree) (dice : List Float) :
    (Machine.start ⟨#[], console, files, dice⟩).withNatives.WellTagged loose := by
  have hAdded : ∀ (natives : List Native) (m : Machine), m.WellTagged loose →
      (natives.foldl (fun m n => { m with frames := m.frames.define 0 n.name (.tagged .builtin (.function n.name)) })
        m).WellTagged loose := by
    intro natives
    induction natives with
    | nil => exact fun _ h => h
    | cons n natives ih => exact fun m h => ih _ ⟨h.bindings.define 0 (.native n), h.lists⟩
  refine hAdded Native.all _ ⟨Machine.binds_start _ fun b => .builtin b, ?_⟩
  intro id d hd
  simp [Machine.start] at hd

/-- What holds after some steps: the state is well tagged, and so is what came out of each step, unless a call has
strayed. -/
structure TagsSoFar [Size.Room] (past : List Step) (m : Machine) : Prop where
  machine : m.WellTagged (past.any Step.strays = true)
  outcomes : ∀ t ∈ past, ∀ v, t.outcome = .ok v → WellTagged (past.any Step.strays = true) m.world.store.size v

theorem TagsSoFar.step [Size.Room] {past : List Step} {s : Step} (h : TagsSoFar past s.before)
    (hFit : s.op.Fit True True) (hFrom : ∀ v ∈ s.op.values, ∃ t ∈ past, t.outcome = .ok v) :
    TagsSoFar (past ++ [s]) s.after := by
  have hTags : s.Tags (past.any Step.strays = true) := by
    refine s.tags hFit h.machine fun v hv => ?_
    obtain ⟨t, ht, hOutcome⟩ := hFrom v hv
    exact h.outcomes t ht v hOutcome
  have hLooser : (past.any Step.strays = true ∨ s.strays = true) → (past ++ [s]).any Step.strays = true := by
    simp [List.any_append]
  refine ⟨(hTags.machine h.machine).mono fun hLoose => hLooser (.inl hLoose), fun t ht v hv => ?_⟩
  rcases List.mem_append.mp ht with ht | ht
  · exact (hTags.onward.wellTagged (h.outcomes t ht v hv)).mono (fun hLoose => hLooser (.inl hLoose)) (Nat.le_refl _)
  · obtain rfl := List.mem_singleton.mp ht
    exact (hTags.value hv).mono hLooser (Nat.le_refl _)

theorem Plan.Fed.tagsSoFar [Size.Room] {α : Type} {Q : List Datum → α → Prop} {p : Plan α} (hFed : p.Fed .any Q [])
    (hm : m.WellTagged False) :
    (∀ past s later, p.course m = past ++ s :: later → TagsSoFar past s.before ∧ TagsSoFar (past ++ [s]) s.after) ∧
    TagsSoFar (p.course m) (p.run.run m).2 := by
  have hStep : ∀ past s later, p.course m = past ++ s :: later → TagsSoFar past s.before →
      TagsSoFar (past ++ [s]) s.after := by
    intro past s later hCourse hPast
    obtain ⟨hFit, hFrom⟩ := hFed.course hCourse
    exact hPast.step hFit fun v hv => (hFrom v hv).resolve_left List.not_mem_nil
  have hFirst : TagsSoFar [] m := ⟨hm.mono False.elim, fun t ht => absurd ht List.not_mem_nil⟩
  obtain ⟨hBefore, hEnd⟩ := (p.linked_course m).invariant hFirst hStep
  exact ⟨fun past s later hCourse => ⟨hBefore past s later hCourse,
    hStep past s later hCourse (hBefore past s later hCourse)⟩, hEnd⟩

theorem interpret_store [Size.Room] (fuel : Nat) (ss : List Datum) (m : Machine) :
    ((interpret .basic fuel ss).run m).2.world.store = ((executeAll .basic fuel ss .none).run m).2.world.store := by
  unfold interpret
  rcases hRun : (executeAll .basic fuel ss .none).run m with ⟨s | v, m'⟩
  · rw [run_tryCatch_of_error hRun]
    cases s <;> rfl
  · rw [run_tryCatch_of_ok hRun]

/-- **Values are well tagged until a call mislabels one.** Take a text that is scanned to its end, parsed with or
without complaints, and run with the native functions, whatever the console, the files and the random numbers. Before
every operation all that is bound or held in a list is well tagged, and so is what the operation gives; if a call
has mislabelled its result by then, this holds but for the payloads of numbers. -/
theorem values_wellTagged [Size.Room] {source : String} (hStopped : (scan source).stopped = none) :
    ∃ stmts rest ds, parse (scan source).tokens = ⟨.ok stmts, rest, ds⟩ ∧ ∀ fuel console files dice,
      let start := (Machine.start ⟨#[], console, files, dice⟩).withNatives
      let course := (Plan.ofStmts fuel stmts .none).course start
      (∀ past s later, course = past ++ s :: later →
        s.before.WellTagged (past.any Step.strays = true) ∧
        ∀ v, s.outcome = .ok v → WellTagged ((past ++ [s]).any Step.strays = true) s.after.world.store.size v) ∧
      ((interpret .basic fuel (stmts.map Stmt.toDatum)).run start).2.WellTagged (course.any Step.strays = true) := by
  obtain ⟨body, last, stmts, ds, -, -, hParsed⟩ := exists_parse_scan hStopped
  refine ⟨stmts, [.eof last], ds, hParsed, fun fuel console files dice => ?_⟩
  intro start course
  have hFed := (plans_fed .any fuel).stmts (returned_fit hStopped hParsed) .none []
  obtain ⟨hSteps, hEnd⟩ := hFed.tagsSoFar (wellTagged_withNatives False console files dice)
  refine ⟨fun past s later hCourse => ?_, ?_⟩
  · obtain ⟨hBefore, hAfter⟩ := hSteps past s later hCourse
    exact ⟨hBefore.machine, fun v hv => hAfter.outcomes s (by simp) v hv⟩
  · have hMachine := hEnd.machine
    rw [(plans_run fuel).stmts, stmtData_eq_map] at hMachine
    have hStore := interpret_store fuel (stmts.map Stmt.toDatum) start
    refine ⟨?_, hStore ▸ hMachine.lists⟩
    rw [hStore]
    intro id f hf
    rw [(interpret_sameScopes fuel (stmts.map Stmt.toDatum) start).frames] at hf
    exact hMachine.bindings id f hf

/-- Calls that make a list, change it and take the least of two numbers. -/
def labelled : String := "let xs = split(\"a b\", \" \"); push(xs, min(len(\"ab\"), len(\"a\"))); let x = pop(xs);"

-- What follows is computed on an ordinary machine.
attribute [local instance] Size.ordinary

theorem labelled_strays :
    (match (parse (scan labelled).tokens).ending with
      | .ok stmts =>
        let course := (Plan.ofStmts 20 stmts .none).course (Machine.start ⟨#[], default, default, []⟩).withNatives
        course.any (fun s => s.after.world.store.size != 0) && !course.any Step.strays
      | _ => false) = true := by
  decide +kernel

theorem values_wellTagged_labelled :
    (scan labelled).stopped = none ∧ ∃ stmts rest ds, parse (scan labelled).tokens = ⟨.ok stmts, rest, ds⟩ ∧
      ((interpret .basic 20 (stmts.map Stmt.toDatum)).run
        (Machine.start ⟨#[], default, default, []⟩).withNatives).2.WellTagged False := by
  have hStopped : (scan labelled).stopped = none := by decide +kernel
  obtain ⟨stmts, rest, ds, hParse, hTagged⟩ := values_wellTagged hStopped
  have hStrays := labelled_strays
  rw [hParse] at hStrays
  have hNone := (Bool.and_eq_true_iff.mp hStrays).2
  have hEnd := (hTagged 20 default default []).2
  refine ⟨hStopped, stmts, rest, ds, hParse, hEnd.mono fun hAny => ?_⟩
  rw [hAny] at hNone
  cases hNone

/-- The least of two texts is a text, and labelled as a number. -/
theorem least_text_is_number :
    (scan "let x = min(\"b\", \"a\");").notices.isEmpty ∧
    (parse (scan "let x = min(\"b\", \"a\");").tokens).diagnostics.isEmpty ∧
    (match ((runSource .basic 9 "let x = min(\"b\", \"a\");").run
        (Machine.start default).withNatives).2.frames.bound? 0 "x" with
      | some (.value (.tag .number) (.str s)) => some s
      | _ => none) = some "a" := by
  decide +kernel

end Scriptling.Script
