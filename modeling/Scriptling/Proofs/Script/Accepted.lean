import Scriptling.Proofs.Braced.Returned
import Scriptling.Proofs.Braced.Settled
import Scriptling.Proofs.Script.Bindings
import Scriptling.Proofs.Script.Provenance
import Scriptling.Script.Source

/-!
# Faults of accepted scripts

How the run of a script that the parser accepted can end, in the basic dialect and without a library. Faults
that are not troubles of the script come from three sources only: a line that cannot be read, a part that was
left out, since nothing stands in its place, and whole numbers, which are lengths and sums of lengths. The
last two need a script that leaves something out or reads `len` (`accepted_endsAs`).

All values are sound, which is what the operations on them need: each operation of a plan hands this on from the
values that it is given.
-/

namespace Scriptling.Script

open List

variable {v : Datum}

open Braced Run

/-! ## Sound values -/

/-- A value as the run of a parsed script makes it. Whole numbers come from counting only. -/
inductive Sound (counting : Prop) : Datum → Prop where
  | number {x : Float} : Sound counting (.tagged .number (.float x))
  | whole {n : Int} : counting → Sound counting (.tagged .number (.int n))
  | string {s : String} : Sound counting (.tagged .string (.str s))
  | boolean {b : Bool} : Sound counting (.tagged .boolean (.bool b))
  | null : Sound counting .null
  | function {fields : List (String × Datum)} : (record fields).Settled →
      Sound counting (.tagged .function (record fields))
  | builtin {b : Builtin} : (b = .len → counting) → Sound counting (.tagged .builtin (.builtin b.name))

/-- The value of `len` before a script has changed it. -/
def lenValue : Datum := .tagged .builtin (.builtin Builtin.len.name)

/-- All scopes bind names to sound values; only `len` may be bound to what it is at first. -/
def Machine.Sound (counting : Prop) (m : Machine) : Prop :=
  ∀ (id : Nat) (f : Frame), m.frames[id]? = some f → ∀ b ∈ f.bindings, Script.Sound counting b.2 ∨ b = ("len", lenValue)

/-! ## Signals to be expected -/

/-- The faults with which the run of a parsed script may end. -/
inductive ExpectedFault (counting omitting : Prop) : Fault → Prop where
  | unread {f : Fault} : f.kind ∈ [.endOfInput, .interrupted, .undecodable] → ExpectedFault counting omitting f
  | omitted : omitting → ExpectedFault counting omitting (.notSubscriptable "NoneType")
  | displayed : counting → ExpectedFault counting omitting (.missingAttribute "int" "is_integer")
  | tooLarge {f : Fault} : counting → f ∈ [.intTooLarge, .tooManyDigits none, .lengthTooLarge] →
      ExpectedFault counting omitting f

/-- The signals with which a part of a parsed script may end. -/
inductive Expected (counting omitting : Prop) : Signal → Prop where
  | fault {f : Fault} : ExpectedFault counting omitting f → Expected counting omitting (.fault f)
  | trouble {t : Trouble} : Expected counting omitting (.trouble t)
  | returned {v : Datum} : Expected counting omitting (.returned v)
  | outOfFuel : Expected counting omitting .outOfFuel

/-- The operation gives a result with `Q`, or an expected fault. -/
def Gives {α : Type} (counting omitting : Prop) (r : Except Fault α) (Q : α → Prop) : Prop :=
  match r with
  | .ok a => Q a
  | .error f => ExpectedFault counting omitting f

/-- From a sound state, the run leads to a sound state, with a result as `Q` says or an expected signal. -/
def Run.Yields {α : Type} (counting omitting : Prop) (r : Run α) (Q : α → Prop) : Prop :=
  Ensures (Machine.Sound counting) r (fun a m => Q a ∧ m.Sound counting) fun s m =>
    Expected counting omitting s ∧ m.Sound counting

abbrev Run.Ends {α : Type} (counting omitting : Prop) (r : Run α) : Prop := Yields counting omitting r fun _ => True

variable {counting omitting : Prop}

namespace Run.Yields

variable {α β : Type} {Q : α → Prop}

theorem pure {a : α} (h : Q a) : Yields counting omitting (pure a) Q := Ensures.pure fun _ hm => ⟨h, hm⟩

theorem throw {s : Signal} (h : Expected counting omitting s) : Yields counting omitting (throw s : Run α) Q :=
  Ensures.throw fun _ hm => ⟨h, hm⟩

theorem bind {r : Run α} {f : α → Run β} {R : β → Prop} (hr : Yields counting omitting r Q)
    (hf : ∀ a, Q a → Yields counting omitting (f a) R) : Yields counting omitting (r >>= f) R :=
  Ensures.bind hr fun a m hm => hf a hm.1 m hm.2

theorem get_bind {f : Machine → Run α} (hf : ∀ m : Machine, m.Sound counting → Yields counting omitting (f m) Q) :
    Yields counting omitting (get >>= f) Q := fun m hm => hf m hm m hm

theorem modify {f : Machine → Machine} (h : ∀ m, m.Sound counting → (f m).Sound counting) :
    Ends counting omitting (modify f) := Ensures.modify fun m hm => ⟨trivial, h m hm⟩

theorem lift {r : Except Fault α} (h : Gives counting omitting r Q) : Yields counting omitting (lift r) Q := by
  cases r with
  | ok a => exact pure h
  | error f => exact throw (.fault h)

theorem mapM {f : α → Run β} {as : List α} (hf : ∀ a ∈ as, Ends counting omitting (f a)) :
    Ends counting omitting (as.mapM f) := by
  induction as with
  | nil => exact pure trivial
  | cons a as ih =>
    obtain ⟨hFirst, hRest⟩ := forall_mem_cons.mp hf
    rw [mapM_cons]
    exact hFirst.bind fun _ _ => (ih hRest).bind fun _ _ => pure trivial

end Run.Yields

/-! ## Operations on sound values -/

namespace Sound

variable {v p : Datum}

/-- A sound value has a tag and a payload, and no cells. -/
theorem parts (h : Sound counting v) : ∃ t p, v = .value (.tag t) p ∧ (∀ f, p.replaceCells f = p) := by
  cases h with
  | function hSettled => exact ⟨_, _, rfl, hSettled.fixed⟩
  | _ => exact ⟨_, _, rfl, fun _ => rfl⟩

theorem freeze (h : Sound counting v) (store : Store) : store.freeze v = v := by
  obtain ⟨t, p, rfl, hFixed⟩ := h.parts
  show Datum.value _ (p.replaceCells _) = _
  rw [hFixed]
  rfl

theorem freeze_payload {t : Datum} (h : Sound counting (.value t p)) (store : Store) : store.freeze p = p := by
  obtain ⟨t', p', hEq, hFixed⟩ := h.parts
  cases hEq
  exact hFixed _

/-- Only a number of too many digits keeps a value from being written out. -/
theorem writtenBy_gives {d : Datum} (h : counting ∨ d.isUnwritable = false) (text : Datum → String) :
    Gives counting omitting (Datum.writtenBy text d) fun _ => True := by
  unfold Datum.writtenBy
  split
  next hUnwritable => exact .tooLarge (h.resolve_right (by simp [hUnwritable])) (by simp)
  · trivial

theorem display (h : Sound counting v) : Gives counting omitting v.display fun _ => True := by
  cases h with
  | whole hCounting => exact .displayed hCounting
  | @function fields hSettled => exact writtenBy_gives (.inr hSettled.writable) Datum.plainDisplay
  | number | string | boolean | null | builtin => trivial

/-- Only a whole number of too many digits cannot be displayed without its tag. -/
theorem display_payload {t : Datum} (h : Sound counting (.value t p)) :
    Gives counting omitting p.display fun _ => True := by
  cases h with
  | @whole n hCounting =>
    unfold Datum.display
    -- nothing is to be computed about the number
    generalize Datum.int n = d
    exact writtenBy_gives (.inl hCounting) Datum.plainDisplay
  | @function fields hSettled => exact writtenBy_gives (.inr hSettled.writable) Datum.plainDisplay
  | number | string | boolean | null | builtin => trivial

/-- The sum of two numbers is a number. Only a whole number that no float holds cannot be added to a float. -/
theorem add_numbers [Size.Room] {q : Datum} (hp : Sound counting (.tagged .number p))
    (hq : Sound counting (.tagged .number q)) :
    Gives counting omitting (Datum.operate .add p q) fun r => Sound counting (.tagged .number r) := by
  have hMixed : counting → ∀ (k : Int) (g : Float → Float),
      Gives counting omitting (do return Datum.float (g (← Datum.floatOfInt k)))
        fun r => Sound counting (.tagged .number r) := by
    intro hCounting k g
    unfold Datum.floatOfInt
    dsimp only
    split
    · exact .tooLarge hCounting (by simp)
    · exact .number
  cases hp with
  | @number x =>
    cases hq with
    | number => exact .number
    | @whole k hCounting => exact hMixed hCounting k (x + ·)
  | @whole k hCounting =>
    cases hq with
    | @number y => exact hMixed hCounting k (· + y)
    | whole => exact .whole hCounting

end Sound

theorem sum_yields [Size.Room] {left right : Datum} (hl : Sound counting left) (hr : Sound counting right) :
    Yields counting omitting (sum .basic left right) (Sound counting) := by
  obtain ⟨t, p, rfl, hp⟩ := hl.parts
  obtain ⟨u, q, rfl, hq⟩ := hr.parts
  rw [sum_values]
  refine Yields.get_bind fun m _ => ?_
  simp only [hl.freeze_payload, hr.freeze_payload]
  split
  next hTags =>
    obtain ⟨rfl, rfl⟩ : t = .number ∧ u = .number := by simpa [isTag_iff] using hTags
    exact (Yields.lift (hl.add_numbers hr)).bind fun r hSum => .pure hSum
  · split
    next hTags =>
      obtain ⟨rfl, rfl⟩ : t = .string ∧ u = .string := by simpa [isTag_iff] using hTags
      cases hl
      cases hr
      exact .pure .string
    · exact .throw .trouble

/-! ## Operations on sound states -/

theorem print_yields (text : String) : Ends counting omitting (print text) := .modify fun _ hm => hm

theorem textOf_yields (hFixed : ∀ store : Store, store.freeze v = v)
    (h : Gives counting omitting v.display fun _ => True) : Ends counting omitting (textOf v) := by
  refine Yields.get_bind fun m _ => ?_
  rw [hFixed]
  exact .lift h

theorem isTrue_yields (h : Sound counting v) : Ends counting omitting (isTrue v) := by
  obtain ⟨t, p, rfl, -⟩ := h.parts
  rw [isTrue_value]
  exact .get_bind fun m _ => .pure trivial

theorem Machine.Sound.define {m : Machine} (hm : m.Sound counting) (id : Nat) (name : String)
    (hv : Script.Sound counting v) : { m with frames := m.frames.define id name v }.Sound counting :=
  Machine.Binds.define hm id (.inl hv)

theorem Machine.Sound.add {m : Machine} (hm : m.Sound counting) (parent : Option Nat) :
    { m with frames := (m.frames.add parent).2 }.Sound counting :=
  Machine.Binds.add hm parent

/-- The functions that every script has are sound, but for `len`. -/
theorem Machine.start_sound (world : World) : (Machine.start world).Sound counting := by
  refine Machine.binds_start world fun b => ?_
  cases b with
  | len => exact .inr rfl
  | print => exact .inl (.builtin (b := .print) (by simp))
  | input => exact .inl (.builtin (b := .input) (by simp))

theorem define_yields (name : String) (hv : Sound counting v) : Ends counting omitting (define name v) :=
  .modify fun m hm => hm.define m.current name hv

theorem assign_yields (name : String) (hv : Sound counting v) : Ends counting omitting (assign name v) := by
  refine Yields.get_bind fun m _ => ?_
  cases m.frames.resolve m.current name with
  | some owner => exact .modify fun m hm => hm.define owner name hv
  | none => exact .throw .trouble

/-- What a variable holds is sound, and `len` is known to be read where it holds what it does at first. -/
theorem lookup_yields {name : String} (hLen : name = "len" → counting) :
    Yields counting omitting (lookup name) (Sound counting) := by
  refine Yields.get_bind fun m hm => ?_
  cases hGet : m.frames.get m.current name with
  | error t => exact .throw .trouble
  | ok v =>
    rcases Machine.Binds.of_get hm hGet with hSound | hEq
    · exact .pure hSound
    -- the one binding that is not known to be sound, and here it is read
    · obtain ⟨rfl, rfl⟩ := Prod.mk.inj hEq
      exact .pure (.builtin (b := .len) fun _ => hLen rfl)

/-! ## Functions that every script has -/

theorem readLine_gives (c : Console) : Gives counting omitting c.readLine.1 fun _ => True := by
  have hText : ∀ rest, Gives counting omitting (c.readText rest).1 fun _ => True := by
    intro rest
    cases rest with
    | nil => exact .unread (by simp [Fault.kind])
    | cons first rest =>
      simp only [Console.readText]
      split
      · exact .unread (by simp [Fault.kind])
      · trivial
  unfold Console.readLine
  split
  · exact hText _
  · split
    · exact hText _
    · exact .unread (by simp [Fault.kind])

theorem readInput_yields : Yields counting omitting readInput (Sound counting) := by
  refine Yields.get_bind fun m hm => ?_
  have hSet : Yields counting omitting
      (set { m with world := { m.world with console := m.world.console.readLine.2 } } : Run Unit) fun _ => True :=
    Ensures.set fun _ _ => ⟨trivial, hm⟩
  exact hSet.bind fun _ _ => (Yields.lift (readLine_gives m.world.console)).bind fun s _ => .pure .string

/-- Only the length of a string is ever asked for with success, and it may be no count. -/
theorem len_yields (hCounting : counting) (hv : Sound counting v) :
    Yields counting omitting (Builtin.len.run [v]) (Sound counting) := by
  obtain ⟨t, p, rfl, -⟩ := hv.parts
  rw [len_value]
  split
  next hTag =>
    refine Yields.get_bind fun m _ => ?_
    simp only [hv.freeze_payload]
    have hString : t = .string ∨ t = .list := by simpa [isTag_iff] using hTag
    -- no sound value is a list
    obtain rfl : t = .string := hString.resolve_right (by rintro rfl; cases hv)
    cases hv with
    | @string s =>
      have hLength : Gives counting omitting (Datum.str s).length fun _ => True := by
        show Gives counting omitting (Size.count s.length) fun _ => True
        unfold Size.count
        split
        · trivial
        · exact .tooLarge hCounting (by simp)
      exact (Yields.lift hLength).bind fun k _ => .pure (.whole hCounting)
  · exact .throw .trouble

theorem Builtin.run_yields {b : Builtin} (hLen : b = .len → counting) {args : List Datum}
    (hArgs : ∀ v ∈ args, Sound counting v) : Yields counting omitting (b.run args) (Sound counting) := by
  cases b with
  | print =>
    refine (Yields.mapM fun v hv => textOf_yields (hArgs v hv).freeze (hArgs v hv).display).bind fun texts _ => ?_
    exact (print_yields _).bind fun _ _ => .pure .null
  | len =>
    match args, hArgs with
    | [], _ => exact .throw .trouble
    | [v], hArgs => exact len_yields (hLen rfl) (hArgs v (by simp))
    | _ :: _ :: _, _ => exact .throw .trouble
  | input =>
    cases args with
    | nil =>
      rw [input_plain]
      exact readInput_yields
    | cons v args =>
      have hv := hArgs v (by simp)
      obtain ⟨t, p, rfl, -⟩ := hv.parts
      rw [input_prompt]
      refine (textOf_yields hv.freeze_payload hv.display_payload).bind fun text _ => ?_
      exact (print_yields text).bind fun _ _ => readInput_yields

theorem call_yields [Size.Room] (n : Nat) {f : Datum} (hf : Sound counting f) {args : List Datum}
    (hArgs : ∀ v ∈ args, Sound counting v) :
    Yields counting omitting (call .basic (n + 1) f args) (Sound counting) := by
  obtain ⟨t, p, rfl, -⟩ := hf.parts
  rw [call_value]
  split
  next hTag =>
    obtain rfl := isTag_iff.mp hTag
    cases hf with
    | @builtin b hLen =>
      rw [callNative_builtin]
      exact b.run_yields hLen hArgs
  · exact .throw .trouble

/-! ## Plans of fit scripts -/

theorem Op.run_yields [Size.Room] {o : Op} (hFit : o.Fit counting omitting)
    (hValues : ∀ v ∈ o.values, Sound counting v) : Yields counting omitting o.run (Sound counting) := by
  cases o with
  | literal kind value =>
    cases kind with
    | number =>
      obtain ⟨x, rfl⟩ := hFit
      exact .pure .number
    | string =>
      obtain ⟨s, rfl⟩ := hFit
      exact .pure .string
    | boolean =>
      obtain ⟨b, rfl⟩ := hFit
      exact .pure .boolean
  | lookup name => exact lookup_yields hFit
  | assign name v =>
    have hv := hValues v mem_cons_self
    exact (assign_yields name hv).bind fun _ _ => .pure hv
  | declare name v isConst =>
    have hv := hValues v mem_cons_self
    exact (define_yields name hv).bind fun _ _ => .pure hv
  | function name params result body =>
    have hSettled : (Stmt.function name params result body).toDatum.Settled :=
      @Stmt.Fit.settled counting omitting _ hFit
    exact (define_yields name (.function hSettled)).bind fun _ _ => .pure (.function hSettled)
  | sum left right =>
    obtain ⟨hl, hr⟩ := forall_mem_cons.mp hValues
    exact sum_yields hl (hr right mem_cons_self)
  | truth v => exact (isTrue_yields (hValues v mem_cons_self)).bind fun _ _ => .pure .boolean
  | call f args =>
    obtain ⟨hf, hArgs⟩ := forall_mem_cons.mp hValues
    exact call_yields 0 hf hArgs
  | enter => exact Yields.bind (.modify fun m hm => hm.add (some m.current)) fun _ _ => .pure .null
  | leave => exact Yields.bind (.modify fun _ hm => hm) fun _ _ => .pure .null

/-- What is expected of a script. -/
def expectedTerms (counting omitting : Prop) : Terms where
  counting := counting
  omitting := omitting
  mayEnd := Expected counting omitting
  own := by
    intro s hs
    cases hs with
    | trouble => exact .trouble
    | returned => exact .returned
    | outOfFuel => exact .outOfFuel
    | omitted h => exact .fault (.omitted h)

/-- A plan that is fed with sound values ends as expected. -/
theorem Plan.Fed.ends [Size.Room] {α : Type} {Q : List Datum → α → Prop} {p : Plan α} {given : List Datum}
    (h : p.Fed (expectedTerms counting omitting) Q given) (hGiven : ∀ v ∈ given, Sound counting v) :
    Ends counting omitting p.run := by
  induction p generalizing given with
  | done outcome =>
    cases outcome with
    | ok a => exact .pure trivial
    | error s => exact .throw h
  | step o next ih =>
    obtain ⟨hFit, hValues, hOk, hError⟩ := h
    intro m hm
    have hOp := o.run_yields hFit (fun v hv => hGiven v (hValues v hv)) m hm
    rcases hRun : o.run.run m with ⟨s | v, m'⟩ <;> rw [hRun] at hOp
    · have hRest := ih (.error s) (hError s hOp.1) hGiven m' hOp.2
      rwa [Plan.run_step hRun]
    · have hRest := ih (.ok v) (hOk v) (forall_mem_cons.mpr ⟨hOp.1, hGiven⟩) m' hOp.2
      rwa [Plan.run_step hRun]

/-! ## How accepted scripts end -/

/-- How the run of a script may end: with a value, by a return, or because no line can be read. Only a script
that leaves something out meets a fault of type, and only one that reads `len` meets a missing attribute or a
number that is too large. No run ends for want of a key. -/
def EndsAs (ss : List Stmt) : Except Signal Datum → Prop
  | .ok _ | .error (.returned _) | .error .outOfFuel => True
  | .error (.trouble _) | .error .broken => False
  | .error (.fault f) =>
    f.kind ∈ [.endOfInput, .interrupted, .undecodable] ∨
      (anyOmits ss = true ∧ f = .notSubscriptable "NoneType") ∨
      (anyStmtReads "len" ss = true ∧ f.kind ∈ [.missingAttribute, .overflow, .wrongValue])

theorem ExpectedFault.endsAs {ss : List Stmt} {f : Fault}
    (h : ExpectedFault (anyStmtReads "len" ss = true) (anyOmits ss = true) f) : EndsAs ss (.error (.fault f)) := by
  cases h with
  | unread hKind => exact .inl hKind
  | omitted hOmits => exact .inr (.inl ⟨hOmits, rfl⟩)
  | displayed hReads => exact .inr (.inr ⟨hReads, by simp [Fault.kind]⟩)
  | tooLarge hReads hFault =>
    simp only [mem_cons, not_mem_nil, or_false] at hFault
    rcases hFault with rfl | rfl | rfl <;> exact .inr (.inr ⟨hReads, by simp [Fault.kind]⟩)

/-- A trouble is told on the console and ends the run without a value. -/
theorem interpret_endsAs [Size.Room] {ss : List Stmt}
    (h : AllStmtFit (anyStmtReads "len" ss = true) (anyOmits ss = true) ss)
    (fuel : Nat) (world : World) : EndsAs ss ((interpret .basic fuel (stmtData ss)).run (.start world)).1 := by
  have hRun : Ensures (Machine.Sound (anyStmtReads "len" ss = true)) (interpret .basic fuel (stmtData ss))
      (fun v _ => EndsAs ss (.ok v)) (fun s _ => EndsAs ss (.error s)) := by
    have hFed := (plans_fed (expectedTerms _ _) fuel).stmts h .none []
    have hEnds := hFed.ends fun v hv => absurd hv not_mem_nil
    rw [(plans_run fuel).stmts] at hEnds
    have hAll := hEnds.conseq (fun _ hm => hm) (fun v _ _ => (trivial : EndsAs ss (.ok v))) fun _ _ hSignal => hSignal
    refine Ensures.tryCatch hAll fun signal m hSignal => ?_
    cases hSignal.1 with
    | fault hFault => exact hFault.endsAs
    | trouble | returned | outOfFuel => trivial
  have hEnd := hRun _ (Machine.start_sound world)
  revert hEnd
  rcases (interpret .basic fuel (stmtData ss)).run (.start world) with ⟨e | v, m⟩ <;> exact id

/-- **Accepted scripts end as expected.** A text that is scanned to its end and parsed without a complaint
gives statements whose run, in any world and with any fuel, ends as `EndsAs` says of them. -/
theorem accepted_endsAs [Size.Room] {source : String} (hStopped : (scan source).stopped = none)
    (hQuiet : (parse (scan source).tokens).diagnostics = []) :
    ∃ stmts rest, parse (scan source).tokens = ⟨.ok stmts, rest, []⟩ ∧ ∀ fuel world,
      EndsAs stmts ((interpret .basic fuel (stmts.map Stmt.toDatum)).run (.start world)).1 := by
  obtain ⟨stmts, rest, hParse, hFit⟩ := parsed_fit hStopped hQuiet
  refine ⟨stmts, rest, hParse, fun fuel world => ?_⟩
  rw [← stmtData_eq_map]
  exact interpret_endsAs hFit fuel world

-- What follows is computed on an ordinary machine.
attribute [local instance] Size.ordinary

/-- A script that leaves nothing out and does not count can fail only for want of a line. -/
theorem accepted_endsAs_greeting :
    (scan "let who = input(); print(\"Hello \" + who);").stopped = none ∧
    (parse (scan "let who = input(); print(\"Hello \" + who);").tokens).diagnostics = [] ∧
    ∃ stmts rest, parse (scan "let who = input(); print(\"Hello \" + who);").tokens = ⟨.ok stmts, rest, []⟩ ∧
      ∀ fuel world, EndsAs stmts ((interpret .basic fuel (stmts.map Stmt.toDatum)).run (.start world)).1 :=
  have hStopped : (scan "let who = input(); print(\"Hello \" + who);").stopped = none := by decide +kernel
  have hQuiet : (parse (scan "let who = input(); print(\"Hello \" + who);").tokens).diagnostics = [] :=
    isEmpty_iff.mp (by decide +kernel)
  ⟨hStopped, hQuiet, accepted_endsAs hStopped hQuiet⟩

/-- Neither condition can be dropped: a variable without a first value meets a fault of type, and a length that
is printed a missing attribute. -/
theorem accepted_scripts_fault :
    ((scan "let x;").notices.isEmpty ∧ (parse (scan "let x;").tokens).diagnostics.isEmpty ∧
      (match ((runSource .basic 9 "let x;").run (.start default)).1 with
        | .error (.fault f) => some f.kind
        | _ => none) = some .wrongType) ∧
    ((scan "print(len(\"abc\"));").notices.isEmpty ∧
      (parse (scan "print(len(\"abc\"));").tokens).diagnostics.isEmpty ∧
      (match ((runSource .basic 9 "print(len(\"abc\"));").run (.start default)).1 with
        | .error (.fault f) => some f.kind
        | _ => none) = some .missingAttribute) := by
  decide +kernel

end Scriptling.Script
