import Scriptling.Proofs.Braced.Part
import Scriptling.Proofs.Script.Effect
import Scriptling.Proofs.Script.Parsed

/-!
# Declarations stay in their scope

A script gets new names only by its declarations, and each of them binds a name in the scope that is current at the
time. Blocks and loops run in a scope of their own, an assignment goes where the name is bound already, and the
arms of a choice are no declarations. So a statement leaves the names of every scope as they were, unless it is
itself a declaration (`names_kept_unless_declared`).
-/

namespace Scriptling.Script

open Braced Grammar Run

variable {id : Nat}

/-! ## Names of scopes -/

/-- The names of a scope with one that is declared in it. -/
def Frame.namesWith (f : Frame) : Option String → List String
  | some name => if name ∈ f.names then f.names else f.names ++ [name]
  | none => f.names

theorem Frame.names_define (f : Frame) (name : String) (v : Datum) :
    (f.define name v).names = f.namesWith (some name) := by
  unfold Frame.define
  by_cases hBinds : name ∈ f.names
  · have hKept : ∀ b ∈ f.bindings, (if b.1 == name then (name, v) else b).1 = b.1 := by
      intro b _
      split
      next hName => exact (beq_iff_eq.mp hName).symm
      · rfl
    rw [if_pos (by simpa [binds] using hBinds), namesWith, if_pos hBinds]
    simp only [names, List.map_map]
    exact List.map_congr_left hKept
  · rw [if_neg (by simpa [binds] using hBinds), namesWith, if_neg hBinds]
    simp [names]

namespace Frames

theorem mem_names_of_resolve {frames : Frames} {owner : Nat} {name : String}
    (h : frames.resolve id name = some owner) : ∃ f, frames[owner]? = some f ∧ name ∈ f.names := by
  have hWithin : ∀ depth id, frames.resolveWithin name depth id = some owner →
      ∃ f, frames[owner]? = some f ∧ name ∈ f.names := by
    intro depth
    induction depth with
    | zero =>
      intro id h
      cases h
    | succ depth ih =>
      intro id h
      rw [resolveWithin] at h
      split at h
      · cases h
      rename_i f hFrame
      split at h
      next hBinds =>
        cases h
        exact ⟨f, hFrame, by simpa [Frame.binds] using hBinds⟩
      split at h
      · cases h
      · exact ih _ h
  exact hWithin _ _ h

/-- Every scope of `before` is there, and but for the one that is left out it binds the same names in the same
order. -/
def SameNames (out? : Option Nat) (before after : Frames) : Prop :=
  ∀ (id : Nat) (f : Frame), before[id]? = some f → ∃ f', after[id]? = some f' ∧ (out? ≠ some id → f'.names = f.names)

variable {a b c : Frames} {out? : Option Nat}

theorem SameNames.refl (frames : Frames) : frames.SameNames out? frames := fun _ f h => ⟨f, h, fun _ => rfl⟩

theorem SameNames.trans (hab : a.SameNames out? b) (hbc : b.SameNames out? c) : a.SameNames out? c := by
  intro id f h
  obtain ⟨g, hg, hNames⟩ := hab id f h
  obtain ⟨k, hk, hNames'⟩ := hbc id g hg
  exact ⟨k, hk, fun hOut => (hNames' hOut).trans (hNames hOut)⟩

theorem SameNames.leaveOut (h : a.SameNames none b) : a.SameNames out? b := by
  intro id f hf
  obtain ⟨f', hf', hNames⟩ := h id f hf
  exact ⟨f', hf', fun _ => hNames (by simp)⟩

/-- Binding a name changes the names of its scope only. -/
theorem sameNames_define (frames : Frames) (scope : Nat) (name : String) (v : Datum) :
    frames.SameNames (some scope) (frames.define scope name v) := by
  intro id f h
  unfold define
  rw [Array.getElem?_modify, h]
  split
  next hScope => exact ⟨f.define name v, rfl, fun hOut => absurd (congrArg some hScope) hOut⟩
  · exact ⟨f, rfl, fun _ => rfl⟩

theorem sameNames_assign {frames : Frames} {owner : Nat} {name : String}
    (hOwner : frames.resolve id name = some owner) (v : Datum) :
    frames.SameNames none (frames.define owner name v) := by
  obtain ⟨g, hg, hName⟩ := mem_names_of_resolve hOwner
  intro id f h
  unfold define
  rw [Array.getElem?_modify, h]
  split
  next hScope =>
    obtain rfl : g = f := Option.some.inj (hg.symm.trans (hScope ▸ h))
    refine ⟨g.define name v, rfl, fun _ => ?_⟩
    rw [Frame.names_define, Frame.namesWith, if_pos hName]
  · exact ⟨f, rfl, fun _ => rfl⟩

theorem sameNames_add (frames : Frames) (parent : Option Nat) : frames.SameNames none (frames.add parent).2 := by
  intro id f h
  have hLt : id < frames.size := (Array.getElem?_eq_some_iff.mp h).1
  refine ⟨f, ?_, fun _ => rfl⟩
  rw [add, Array.getElem?_push_lt hLt, ← Array.getElem?_eq_getElem hLt, h]

/-- What happens in a scope that was not there does not concern those that were. -/
theorem SameNames.trans_new {scope : Nat} (hab : a.SameNames none b) (hScope : a.size ≤ scope)
    (hbc : b.SameNames (some scope) c) : a.SameNames none c := by
  intro id f h
  have hLt : id < a.size := (Array.getElem?_eq_some_iff.mp h).1
  have hOther : some scope ≠ some id := by
    intro hEq
    cases hEq
    omega
  obtain ⟨g, hg, hNames⟩ := hab id f h
  obtain ⟨k, hk, hNames'⟩ := hbc id g hg
  exact ⟨k, hk, fun hOut => (hNames' hOther).trans (hNames hOut)⟩

end Frames

/-- The current scope is the same, and every scope binds the same names. -/
structure Machine.Undeclared (before after : Machine) : Prop where
  current : after.current = before.current
  names : before.frames.SameNames none after.frames

/-- The current scope is the same, and every other scope binds the same names. -/
structure Machine.DeclaredHere (before after : Machine) : Prop where
  current : after.current = before.current
  names : before.frames.SameNames (some before.current) after.frames

/-- Expressions and what has a scope of its own declare nothing, and statements declare in the current scope. -/
theorem declared_effect : Effect Machine.Undeclared Machine.DeclaredHere where
  ofSame h := ⟨h.current, h.frames ▸ .refl _⟩
  inner_trans h h' := ⟨h'.current.trans h.current, h.names.trans h'.names⟩
  outer_trans h h' := ⟨h'.current.trans h.current, h.names.trans (h.current ▸ h'.names)⟩
  outer_of_inner h := ⟨h.current, h.names.leaveOut⟩
  size_le h := Frames.size_le_of_found fun id f hf => (h.names id f hf).imp fun _ hf' => hf'.1
  assign hOwner v := ⟨rfl, Frames.sameNames_assign hOwner v⟩
  define m name v := ⟨rfl, m.frames.sameNames_define _ name v⟩
  newFrame m parent := ⟨rfl, m.frames.sameNames_add parent⟩
  defineNew h hScope name v := ⟨h.current, h.names.trans_new hScope (Frames.sameNames_define _ _ name v)⟩
  within h hScope hBody := ⟨h.current, h.names.trans_new hScope hBody.names⟩

/-! ## Statements -/

theorem runs_undeclared [Size.Room] (n : Nat) : RunsKeep Machine.Undeclared Machine.DeclaredHere .basic n :=
  runs_keep declared_effect .basic n

/-- Nothing in the place of an arm declares nothing. -/
theorem execute_none_undeclared [Size.Room] (n : Nat) : Keeps Machine.Undeclared (execute .basic n .none) := by
  cases n with
  | zero => exact .throw _
  | succ n =>
    rw [execute_none]
    exact .throw _

/-- **A statement that is no declaration declares nothing.** The induction is on fuel, since an arm of a choice is a
statement again; all other parts run in scopes of their own. -/
theorem execute_undeclared [Size.Room] {tokens : List Token} {s : Stmt} {k : Nat}
    (hRecord : Clause.IsRecord tokens .declaration k s.toDatum) (hNone : s.declares? = none) (n : Nat) :
    Keeps Machine.Undeclared (execute .basic n s.toDatum) := by
  induction n generalizing s k with
  | zero => exact .throw _
  | succ n ih =>
    have hArm : ∀ {arm : Stmt}, s.HasPart .statement arm → Keeps Machine.Undeclared (execute .basic n arm.toDatum) := by
      intro arm hPart
      obtain ⟨m, hArm⟩ := isRecord_part hRecord hPart
      exact ih (.plain hArm) (declares?_eq_none hArm)
    have hEvaluate := (runs_undeclared n).evaluate
    cases s with
    | function | var => cases hNone
    | struct name fields =>
      rw [execute_struct]
      exact .throw _
    | branch condition yes no =>
      rw [execute_branch]
      refine (hEvaluate _).bind fun c => (Keeps.isTrue c).bind fun holds => ?_
      split
      · exact hArm .yes
      · cases no with
        | none => exact execute_none_undeclared n
        | some no => exact hArm .no
    | loop body =>
      rw [execute_loop]
      exact (runs_undeclared n).loop _
    | ret keyword value =>
      rw [execute_ret]
      exact (hEvaluate _).bind fun v => .throw _
    | block body =>
      rw [execute_block]
      exact (runs_undeclared n).block _
    | expression e =>
      rw [execute_expression]
      exact hEvaluate _

/-- Declaring a name adds it to the current scope, and to no other. -/
theorem define_names {before m : Machine} (h : before.Undeclared m) (name : String) (v : Datum)
    {f : Frame} (hf : before.frames[id]? = some f) : ∃ f', (m.frames.define m.current name v)[id]? = some f' ∧
      f'.names = if id = before.current then f.namesWith (some name) else f.names := by
  obtain ⟨g, hg, hNames⟩ := h.names id f hf
  have hNames := hNames (by simp)
  unfold Frames.define
  rw [Array.getElem?_modify, hg, h.current]
  by_cases hHere : before.current = id
  · rw [if_pos hHere, if_pos hHere.symm]
    refine ⟨g.define name v, rfl, ?_⟩
    rw [Frame.names_define, Frame.namesWith, hNames]
    rfl
  · rw [if_neg hHere, if_neg (Ne.symm hHere)]
    exact ⟨g, rfl, hNames⟩

/-- A run that declares what another run gives: if that one ends with a value, the name is added. -/
theorem declare_names {r : Run Datum} (hr : Keeps Machine.Undeclared r) (name : String) {before after : Machine}
    {result : Except Signal Datum}
    (hRun : (do let v ← r; Run.define name v; return v : Run Datum).run before = (result, after))
    {f : Frame} (hf : before.frames[id]? = some f) : ∃ f', after.frames[id]? = some f' ∧
      f'.names = if id = before.current ∧ result.isOk then f.namesWith (some name) else f.names := by
  have hFirst := hr before before (declared_effect.ofSame (.refl before))
  rcases hValue : r.run before with ⟨e | v, m⟩ <;> rw [hValue] at hFirst
  · rw [run_bind_of_error hValue] at hRun
    cases hRun
    obtain ⟨f', hf', hNames⟩ := hFirst.names id f hf
    exact ⟨f', hf', by simpa [Except.isOk, Except.toBool] using hNames⟩
  · rw [run_bind_of_ok hValue] at hRun
    cases hRun
    obtain ⟨f', hf', hNames⟩ := define_names hFirst name v hf
    exact ⟨f', hf', by simpa [Except.isOk, Except.toBool] using hNames⟩

/-- **Declarations do not leak.** Take any statement that occurs, at whatever depth, in what parsing returns, and
carry it out from any state. However that ends, every scope there was before binds the same names in the same
order, except that a declaration that ends with a value adds its name to the current scope, unless the name is
bound there already. -/
theorem names_kept_unless_declared [Size.Room] {tokens : List Token} {stmts : List Stmt} {rest : List Token}
    {ds : List Diagnostic} (hParse : parse tokens = ⟨.ok stmts, rest, ds⟩) {s : Stmt} (hs : s.OccursIn stmts)
    (fuel : Nat) (before : Machine) {id : Nat} {f : Frame} (hf : before.frames[id]? = some f) :
    let run := (execute .basic fuel s.toDatum).run before
    ∃ f', run.2.frames[id]? = some f' ∧
      f'.names = if id = before.current ∧ run.1.isOk then f.namesWith s.declares? else f.names := by
  obtain ⟨k, hRecord⟩ := occursIn_isRecord hParse hs
  rcases hRun : (execute .basic fuel s.toDatum).run before with ⟨result, after⟩
  intro run
  cases hName : s.declares? with
  | none =>
    have hKeeps := execute_undeclared hRecord hName fuel
    have hKept := hKeeps before before (declared_effect.ofSame (.refl before))
    rw [hRun] at hKept
    obtain ⟨f', hf', hNames⟩ := hKept.names id f hf
    exact ⟨f', hf', by rw [hNames (by simp), Frame.namesWith, ite_self]⟩
  | some name =>
    cases fuel with
    | zero =>
      cases hRun
      exact ⟨f, hf, by simp [Except.isOk, Except.toBool]⟩
    | succ n =>
      cases s with
      | var name type initial isConst =>
        cases hName
        rw [execute_var] at hRun
        exact declare_names ((runs_undeclared n).evaluate _) name hRun hf
      | function name params result body =>
        cases hName
        rw [execute_function] at hRun
        exact declare_names (.pure _) name hRun hf
      | struct | branch | loop | ret | block | expression => cases hName

-- What follows is computed on an ordinary machine.
attribute [local instance] Size.ordinary

set_option maxRecDepth 4000 in
/-- A declaration in a block in the arm of a choice, and the choice around it. -/
theorem names_kept_unless_declared_nested :
    let tokens : List Token := [⟨.if, "if", .none, 1⟩, ⟨.leftParen, "(", .none, 1⟩, ⟨.true, "true", .none, 1⟩,
      ⟨.rightParen, ")", .none, 1⟩, ⟨.leftBrace, "\x7b", .none, 1⟩, ⟨.let, "let", .none, 2⟩,
      ⟨.identifier, "a", .none, 2⟩, ⟨.equal, "=", .none, 2⟩, ⟨.true, "true", .none, 2⟩,
      ⟨.semicolon, ";", .none, 2⟩, ⟨.rightBrace, "\x7d", .none, 3⟩, .eof 3]
    let inner : Stmt := .var "a" .absent (some (.literal .boolean (.bool true))) false
    let outer : Stmt := .branch (.literal .boolean (.bool true)) (.block [inner]) none
    let start : Machine := ⟨#[⟨[("b", .null)], none⟩], 0, #[], default⟩
    (parse tokens = ⟨.ok [outer], [.eof 3], []⟩ ∧ outer.OccursIn [outer] ∧ inner.OccursIn [outer]) ∧
    (∃ f, ((execute .basic 9 outer.toDatum).run start).2.frames[0]? = some f ∧ f.names = ["b"]) ∧
    ∃ f, ((execute .basic 9 inner.toDatum).run start).2.frames[0]? = some f ∧ f.names = ["b", "a"] := by
  intro tokens inner outer start
  have hParse : parse tokens = ⟨.ok [outer], [.eof 3], []⟩ := by cbv
  have hOuter : outer.OccursIn [outer] := .here (.head _)
  have hInner : inner.OccursIn [outer] := .deeper (.deeper hOuter .yes) (.block (.head _))
  have hFrame : start.frames[0]? = some ⟨[("b", .null)], none⟩ := rfl
  refine ⟨⟨hParse, hOuter, hInner⟩, ?_, ?_⟩
  · obtain ⟨f, hf, hNames⟩ := names_kept_unless_declared hParse hOuter 9 start hFrame
    exact ⟨f, hf, hNames.trans (ite_self _)⟩
  · have hEnds : ((execute .basic 9 inner.toDatum).run start).1.isOk := by decide +kernel
    obtain ⟨f, hf, hNames⟩ := names_kept_unless_declared hParse hInner 9 start hFrame
    exact ⟨f, hf, hNames.trans (if_pos ⟨rfl, hEnds⟩)⟩

end Scriptling.Script
