import Scriptling.Proofs.Indented.Step

/-!
# Runs of the lexer

The lexer takes steps until nothing is left or it stops. Every step either reads something or leaves fewer steps
that could read nothing, so that there is a bound on the number of steps, and `tokenize` never runs out of fuel. No
run that begins between tokens comes to a string with expressions.
-/

namespace Scriptling.Indented.Lexer

open List

variable {l l' m : Lexer} {n : Nat} {r : StepResult}

open Text

/-! ## Steps in a row -/

/-- From `l`, so many steps in a row lead to a lexer. -/
inductive Reaches (l : Lexer) : Nat → Lexer → Prop where
  | refl : Reaches l 0 l
  | next {n : Nat} {m m' : Lexer} : Reaches l n m → m.atEnd = false → m.step = (.ok (), m') → Reaches l (n + 1) m'

/-- The lexers there are in the course of reading all from `l`: those that steps lead to, the one with which a
step stops, and the one that is left in the end. -/
inductive Moment (l : Lexer) : Lexer → Prop where
  | reached {n : Nat} {m : Lexer} : l.Reaches n m → Moment l m
  | stopped {n : Nat} {m m' : Lexer} {s : Stop} : l.Reaches n m → m.atEnd = false → m.step = (.error s, m') →
      Moment l m'
  | last : Moment l l.tokenize.2

theorem Reaches.cons (hEnd : l.atEnd = false) (hStep : l.step = (.ok (), l')) (h : l'.Reaches n m) :
    l.Reaches (n + 1) m := by
  induction h with
  | refl => exact .next .refl hEnd hStep
  | next _ hEnd' hStep' ih => exact .next ih hEnd' hStep'

theorem Reaches.trans {m' : Lexer} {k : Nat} (h : l.Reaches n m) (h' : m.Reaches k m') : l.Reaches (n + k) m' := by
  induction h' with
  | refl => exact h
  | next _ hEnd hStep ih => exact .next ih hEnd hStep

/-- Steps use up fuel and are otherwise part of the run. -/
theorem Reaches.run_eq (h : l.Reaches n m) (fuel : Nat) : run (fuel + n) l = run fuel m := by
  induction h generalizing fuel with
  | refl => rfl
  | @next n m m' _ hEnd hStep ih =>
    rw [show fuel + (n + 1) = fuel + 1 + n by omega, ih]
    simp [run, hEnd, hStep]

/-- How a run ends: at the end of the text, with a step that stops, or for want of fuel. -/
theorem run_cases (fuel : Nat) (l : Lexer) :
    (∃ n m, l.Reaches n m ∧ m.atEnd = true ∧ run fuel l = (.ok (), m)) ∨
    (∃ n m m' s, l.Reaches n m ∧ m.atEnd = false ∧ m.step = (.error s, m') ∧ run fuel l = (.error s, m')) ∨
    ∃ m, l.Reaches fuel m ∧ m.atEnd = false ∧ run fuel l = (.error .outOfFuel, m) := by
  induction fuel generalizing l with
  | zero =>
    by_cases hEnd : l.atEnd = true
    · exact .inl ⟨0, l, .refl, hEnd, by simp [run, hEnd, goOn]⟩
    · exact .inr (.inr ⟨l, .refl, by simpa using hEnd, by simp [run, hEnd]⟩)
  | succ fuel ih =>
    by_cases hEnd : l.atEnd = true
    · exact .inl ⟨0, l, .refl, hEnd, by simp [run, hEnd, goOn]⟩
    · rw [Bool.not_eq_true] at hEnd
      rcases hStep : l.step with ⟨s | u, l'⟩
      · have hRun : run (fuel + 1) l = (.error s, l') := by simp [run, hEnd, hStep]
        exact .inr (.inl ⟨0, l, l', s, .refl, hEnd, hStep, hRun⟩)
      · have hRun : run (fuel + 1) l = run fuel l' := by simp [run, hEnd, hStep]
        rw [hRun]
        rcases ih l' with ⟨n, m, hReach, hLast⟩ | ⟨n, m, m', s, hReach, hLast⟩ | ⟨m, hReach, hLast⟩
        · exact .inl ⟨n + 1, m, hReach.cons hEnd hStep, hLast⟩
        · exact .inr (.inl ⟨n + 1, m, m', s, hReach.cons hEnd hStep, hLast⟩)
        · exact .inr (.inr ⟨m, hReach.cons hEnd hStep, hLast⟩)

section Invariants

variable {P : Lexer → Prop} {l m : Lexer}

/-- What every step keeps holds wherever steps lead. -/
theorem Reaches.invariant {n : Nat} (h : l.Reaches n m) (hFirst : P l)
    (hStep : ∀ m, P m → m.atEnd = false → P m.step.2) : P m := by
  induction h with
  | refl => exact hFirst
  | @next n m m' _ hEnd hNext ih =>
    have hAfter := hStep m ih hEnd
    rw [hNext] at hAfter
    exact hAfter

/-- What every step keeps, and what does not depend on the last token or on complaints, holds at all times. -/
theorem Moment.invariant (h : l.Moment m) (hFirst : P l) (hStep : ∀ m, P m → m.atEnd = false → P m.step.2)
    (hLast : ∀ m, P m → P (m.add .endMarker "" .none))
    (hTold : ∀ m complaints, P m → P { m with complaints := complaints }) : P m := by
  have hStopped : ∀ {n m m' s}, l.Reaches n m → m.atEnd = false → m.step = (.error s, m') → P m' := by
    intro n m m' s hReach hEnd hStop
    have hAfter := hStep m (hReach.invariant hFirst hStep) hEnd
    rw [hStop] at hAfter
    exact hAfter
  cases h with
  | reached hReach => exact hReach.invariant hFirst hStep
  | stopped hReach hEnd hStop => exact hStopped hReach hEnd hStop
  | last =>
    unfold tokenize
    rcases run_cases (fuelFor l.rest.length) l with
      ⟨n, m, hReach, -, hRun⟩ | ⟨n, m, m', s, hReach, hEnd, hStop, hRun⟩ | ⟨m, hReach, -, hRun⟩
    · rw [hRun]
      exact hLast m (hReach.invariant hFirst hStep)
    · rw [hRun]
      cases s with
      | complaint c line column => exact hTold m' _ (hStopped hReach hEnd hStop)
      | fault kind | outOfFuel => exact hStopped hReach hEnd hStop
    · rw [hRun]
      exact hReach.invariant hFirst hStep

end Invariants

/-! ## Plain lexers -/

/-- The lexer is outside strings with expressions. -/
structure Plain (l : Lexer) : Prop where
  state : l.state ∈ plainStates
  quoted : l.Quoted

theorem Plain.takes (hl : l.Plain) (hEnd : l.atEnd = false) : Takes l.mark l.step := step_takes hl.state hl.quoted hEnd

theorem Takes.plain (h : Takes l r) (hl : l.Plain) : r.2.Plain := by
  have hStart : State.start ∈ plainStates := by decide
  cases h with
  | skip => exact ⟨hl.state, hl.quoted⟩
  | token _ _ _ hState =>
    subst hState
    exact ⟨hStart, hl.quoted⟩
  | wordEnd => exact ⟨hStart, hl.quoted⟩
  | @enter s _ hState =>
    have hNew : s ∈ plainStates := by
      rcases hState with rfl | ⟨rfl, -⟩ <;> decide
    exact ⟨hNew, hl.quoted⟩
  | @letter _ _ _ _ s quote? _ hState hQuote =>
    have hPlain : ∀ s ∈ [State.identifier, .string, .escape], s ∈ plainStates := by decide
    have hNew : quote? ∈ [none, some "\"", some "\x27"] := by
      rcases mem_cons.mp hQuote with rfl | hQuote
      · exact hl.quoted
      · exact mem_cons_of_mem _ hQuote
    exact ⟨hPlain s hState, hNew⟩
  | stop | blankLine => exact ⟨hl.state, hl.quoted⟩
  | @line ending after line column =>
    obtain ⟨_, _, _, hShape⟩ := (l.toLine ending after line column).indentTo_shape (widthOf after)
    rw [hShape]
    exact ⟨hl.state, hl.quoted⟩

theorem Plain.step (hl : l.Plain) (hEnd : l.atEnd = false) : l.step.2.Plain :=
  (hl.takes hEnd).plain ⟨hl.state, hl.quoted⟩

theorem plain_start (filename source : String) : (start filename source).Plain := ⟨.head _, .head _⟩

/-! ## Reading on -/

/-- `l'` has read on from `l`, and is as deep in strings with expressions. -/
structure Onward (l l' : Lexer) : Prop where
  text : ∃ text, l.rest = text ++ l'.rest ∧ l'.past = text.reverse ++ l.past
  templates : l'.templates = l.templates
  parens : l'.parens = l.parens
  brackets : l'.brackets = l.brackets

theorem Onward.refl (l : Lexer) : l.Onward l := ⟨⟨[], rfl, rfl⟩, rfl, rfl, rfl⟩

theorem Onward.trans {l'' : Lexer} (h : l.Onward l') (h' : l'.Onward l'') : l.Onward l'' := by
  obtain ⟨text, hRest, hPast⟩ := h.text
  obtain ⟨text', hRest', hPast'⟩ := h'.text
  refine ⟨⟨text ++ text', ?_, ?_⟩, h'.templates.trans h.templates, h'.parens.trans h.parens,
    h'.brackets.trans h.brackets⟩
  · rw [hRest, hRest', append_assoc]
  · rw [hPast', hPast, reverse_append, append_assoc]

theorem toLine_onward {ending after : List Char} (hRest : l.rest = ending ++ after) (line column : Int) :
    l.Onward (l.toLine ending after line column) := by
  refine ⟨⟨ending ++ after.takeWhile isSpace, ?_, rfl⟩, rfl, rfl, rfl⟩
  show l.rest = ending ++ after.takeWhile isSpace ++ after.dropWhile isSpace
  rw [append_assoc, takeWhile_append_dropWhile, hRest]

theorem Takes.onward (h : Takes l r) : l.Onward r.2 := by
  cases h with
  | skip _ hRest _ | token hRest _ _ _ => exact ⟨⟨_, hRest, rfl⟩, rfl, rfl, rfl⟩
  | wordEnd | enter => exact ⟨⟨[], rfl, rfl⟩, rfl, rfl, rfl⟩
  | @letter c rest _ _ _ _ hRest _ _ => exact ⟨⟨[c], hRest, rfl⟩, rfl, rfl, rfl⟩
  | stop hRest _ => exact ⟨⟨_, hRest, rfl⟩, rfl, rfl, rfl⟩
  | blankLine _ hRest _ _ _ => exact toLine_onward hRest _ _
  | @line ending after line column _ hRest _ _ =>
    obtain ⟨_, _, _, hShape⟩ := (l.toLine ending after line column).indentTo_shape (widthOf after)
    rw [hShape]
    exact ⟨(toLine_onward hRest line column).text, rfl, rfl, rfl⟩

theorem Plain.onward (hl : l.Plain) (hEnd : l.atEnd = false) : l.Onward l.step.2 := by
  have hStep := (hl.takes hEnd).onward
  exact ⟨hStep.text, hStep.templates, hStep.parens, hStep.brackets⟩

/-! ## A bound on the steps -/

/-- How many steps can be taken without reading anything. -/
def idle (l : Lexer) : Nat :=
  match l.state with
  | .start => 1
  | .identifier => if isWordChar l.current then 0 else 2
  | _ => 0

/-- A bound on the steps that can be taken. -/
def charge (l : Lexer) : Nat := 4 * l.rest.length + l.idle

theorem idle_le (l : Lexer) : l.idle ≤ 2 := by
  unfold idle
  split
  · omega
  · split <;> omega
  · omega

theorem charge_lt_of_rest (h : l'.rest.length < l.rest.length) : l'.charge < l.charge := by
  have hIdle := l'.idle_le
  unfold charge
  omega

theorem charge_lt_of_text {text : List Char} (hRest : l.rest = text ++ l'.rest) (hText : text ≠ []) :
    l'.charge < l.charge := by
  apply charge_lt_of_rest
  have hLength : 0 < text.length := length_pos_iff.mpr hText
  rw [hRest, length_append]
  omega

theorem toLine_charge_lt {ending after : List Char} (hRest : l.rest = ending ++ after) (hBreak : LineBreak ending after)
    (line column : Int) : (l.toLine ending after line column).charge < l.charge := by
  apply charge_lt_of_rest
  have hEnding : 0 < ending.length := length_pos_iff.mpr hBreak.ne_nil
  have hAfter : (after.dropWhile isSpace).length ≤ after.length := (dropWhile_sublist _).length_le
  show (after.dropWhile isSpace).length < l.rest.length
  rw [hRest, length_append]
  omega

/-- A step that goes on either reads something, or changes to a state that is nearer to reading. -/
theorem Takes.charge_lt (h : Takes l r) (hOk : r.1 = .ok ()) : r.2.charge < l.charge := by
  cases h with
  | skip _ hRest hText | token hRest hText _ _ => exact charge_lt_of_text hRest hText.1
  | @wordEnd kind lexeme literal hState hWord _ =>
    have hBefore : l.idle = 2 := by simp [idle, hState, hWord]
    show 4 * l.rest.length + 1 < 4 * l.rest.length + l.idle
    omega
  | @enter s hState hNew =>
    have hBefore : l.idle = 1 := by simp [idle, hState]
    have hAfter : (l.enter s).idle = 0 := by
      rcases hNew with rfl | ⟨rfl, hWord⟩
      · rfl
      · show (if isWordChar l.current = true then 0 else 2) = 0
        rw [if_pos hWord]
    show 4 * l.rest.length + (l.enter s).idle < 4 * l.rest.length + l.idle
    omega
  | @letter c rest _ _ _ _ hRest _ _ =>
    apply charge_lt_of_rest
    show rest.length < l.rest.length
    rw [hRest, length_cons]
    omega
  | stop => cases hOk
  | blankLine _ hRest hBreak _ _ => exact toLine_charge_lt hRest hBreak _ _
  | @line ending after line column _ hRest hBreak _ =>
    obtain ⟨_, _, _, hShape⟩ := (l.toLine ending after line column).indentTo_shape (widthOf after)
    rw [hShape]
    exact toLine_charge_lt hRest hBreak line column

theorem Plain.charge_lt (hl : l.Plain) (hEnd : l.atEnd = false) (hStep : l.step = (.ok (), l')) :
    l'.charge < l.charge := by
  have hTakes := hl.takes hEnd
  rw [hStep] at hTakes
  exact hTakes.charge_lt rfl

theorem Reaches.charge_le (h : l.Reaches n m) (hl : l.Plain) : m.Plain ∧ n + m.charge ≤ l.charge := by
  induction h with
  | refl => exact ⟨hl, by omega⟩
  | @next n m m' _ hEnd hStep ih =>
    obtain ⟨hm, hCharge⟩ := ih
    have hPlain := hm.step hEnd
    have hLess := hm.charge_lt hEnd hStep
    rw [hStep] at hPlain
    exact ⟨hPlain, by omega⟩

/-- The fuel is enough for every step that can be taken. -/
theorem charge_lt_fuelFor (l : Lexer) : l.charge < fuelFor l.rest.length := by
  have hIdle := l.idle_le
  unfold charge fuelFor
  omega

/-- Reading comes to the end of the text or to a step that stops. -/
theorem Plain.tokenize_cases (hl : l.Plain) :
    (∃ n m, l.Reaches n m ∧ m.atEnd = true ∧ l.tokenize = (.ok (), m.add .endMarker "" .none)) ∨
    ∃ n m s, l.Reaches n m ∧ m.atEnd = false ∧ m.step.1 = .error s ∧ l.tokenize.1 = .error s := by
  unfold tokenize
  rcases run_cases (fuelFor l.rest.length) l with
    ⟨n, m, hReach, hEnd, hRun⟩ | ⟨n, m, m', s, hReach, hEnd, hStop, hRun⟩ | ⟨m, hReach, -, -⟩
  · rw [hRun]
    exact .inl ⟨n, m, hReach, hEnd, rfl⟩
  · rw [hRun]
    refine .inr ⟨n, m, s, hReach, hEnd, by rw [hStop], ?_⟩
    cases s <;> rfl
  · -- so many steps cannot be taken
    have hCharge := (hReach.charge_le hl).2
    have hFuel := l.charge_lt_fuelFor
    omega

theorem Plain.run_of_reaches (hl : l.Plain) (h : l.Reaches n m) :
    ∃ fuel, run (fuelFor l.rest.length) l = run (fuel + 1) m := by
  have hCharge := (h.charge_le hl).2
  have hFuel := l.charge_lt_fuelFor
  obtain ⟨fuel, hSplit⟩ : ∃ fuel, fuelFor l.rest.length = fuel + 1 + n := ⟨fuelFor l.rest.length - n - 1, by omega⟩
  exact ⟨fuel, by rw [hSplit, h.run_eq]⟩

/-- If steps lead to the end of the text, all is read. -/
theorem Plain.tokenize_of_atEnd (hl : l.Plain) (h : l.Reaches n m) (hEnd : m.atEnd = true) :
    l.tokenize = (.ok (), m.add .endMarker "" .none) := by
  obtain ⟨fuel, hRun⟩ := hl.run_of_reaches h
  simp [tokenize, hRun, run, hEnd, goOn]

/-- If steps lead to one that stops the lexer, it is why reading ends. -/
theorem Plain.tokenize_of_stop {s : Stop} (hl : l.Plain) (h : l.Reaches n m) (hEnd : m.atEnd = false)
    (hStop : m.step.1 = .error s) : l.tokenize.1 = .error s := by
  obtain ⟨fuel, hRun⟩ := hl.run_of_reaches h
  have hStep : m.step = (.error s, m.step.2) := Prod.ext hStop rfl
  rw [tokenize, hRun, run, hEnd, hStep]
  cases s <;> rfl

/-- What is known of every lexer in the course of reading. -/
theorem Plain.moment (hl : l.Plain) (h : l.Moment m) : m.Plain ∧ l.Onward m := by
  refine Moment.invariant (P := fun m => m.Plain ∧ l.Onward m) h ⟨hl, .refl l⟩ ?_ ?_ ?_
  · rintro m ⟨hm, hOnward⟩ hEnd
    exact ⟨hm.step hEnd, hOnward.trans (hm.onward hEnd)⟩
  · rintro m ⟨hm, hOnward⟩
    exact ⟨⟨hm.state, hm.quoted⟩, ⟨hOnward.text, hOnward.templates, hOnward.parens, hOnward.brackets⟩⟩
  · rintro m complaints ⟨hm, hOnward⟩
    exact ⟨⟨hm.state, hm.quoted⟩, ⟨hOnward.text, hOnward.templates, hOnward.parens, hOnward.brackets⟩⟩

/-- At the end of the text, all of it has been read. -/
theorem Onward.pos_of_atEnd (h : l.Onward m) (hEnd : m.atEnd = true) : m.pos = l.pos + l.rest.length := by
  obtain ⟨text, hRest, hPast⟩ := h.text
  have hNone : m.rest = [] := by simpa [atEnd] using hEnd
  unfold pos
  rw [hPast, hRest, hNone, append_nil, length_append, length_reverse]
  omega

/-- **Reading ends.** From the start of any text, the number of steps is bounded by its length. Reading ends with
all of the text read, or is stopped by a step, and never for want of fuel. At no time is the lexer in another
state than those named, and it is never inside a string with expressions. -/
theorem tokenize_ends (filename source : String) :
    (∀ n l, (start filename source).Reaches n l → n ≤ 4 * source.length + 1) ∧
    ((∃ l, Indented.tokenize filename source = (.ok (), l) ∧ l.pos = source.length) ∨
      ∃ s l, Indented.tokenize filename source = (.error s, l) ∧ s ≠ .outOfFuel) ∧
    ∀ l, (start filename source).Moment l →
      l.state ∈ [State.start, .identifier, .number, .string, .escape] ∧
      l.templates = 0 ∧ l.parens = 0 ∧ l.brackets = 0 := by
  have hStart := plain_start filename source
  have hLength : (start filename source).rest.length = source.length := String.length_toList
  refine ⟨?_, ?_, ?_⟩
  · intro n l hReach
    have hBound := (hReach.charge_le hStart).2
    have hCharge : (start filename source).charge = 4 * source.length + 1 := by
      rw [charge, hLength]
      rfl
    omega
  · rcases hStart.tokenize_cases with ⟨n, m, hReach, hEnd, hRun⟩ | ⟨n, m, s, hReach, hEnd, hStop, hRun⟩
    · have hPos := (hStart.moment (.reached hReach)).2.pos_of_atEnd hEnd
      refine .inl ⟨_, hRun, ?_⟩
      show m.pos = source.length
      rw [hPos, hLength]
      exact Nat.zero_add _
    · have hm := (hStart.moment (.reached hReach)).1
      have hFuel := (hm.takes hEnd).ne_outOfFuel
      exact .inr ⟨s, _, Prod.ext hRun rfl, fun hs => hFuel (hs ▸ hStop)⟩
  · intro l hMoment
    obtain ⟨hPlain, hOnward⟩ := hStart.moment hMoment
    exact ⟨hPlain.state, hOnward.templates, hOnward.parens, hOnward.brackets⟩

end Scriptling.Indented.Lexer
