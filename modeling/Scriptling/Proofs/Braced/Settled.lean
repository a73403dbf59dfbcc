import Scriptling.Datum.Store
import Scriptling.Proofs.Braced.Fit

/-!
# Records that stay as they are

The record of a fit statement holds no cell and no whole number, so it is the same whatever a store says, and
it can always be written out.
-/

namespace Scriptling

open List

/-- A value that holds no cell and no whole number of too many digits. -/
structure Datum.Settled (d : Datum) : Prop where
  fixed : ∀ f, d.replaceCells f = d
  writable : d.isUnwritable = false

namespace Datum.Settled

@[simp] theorem none : Datum.none.Settled := ⟨fun _ => rfl, rfl⟩

@[simp] theorem bool (b : Bool) : (Datum.bool b).Settled := ⟨fun _ => rfl, rfl⟩

@[simp] theorem float (x : Float) : (Datum.float x).Settled := ⟨fun _ => rfl, rfl⟩

@[simp] theorem str (s : String) : (Datum.str s).Settled := ⟨fun _ => rfl, rfl⟩

@[simp] theorem token (t : Braced.Token) : t.toDatum.Settled := ⟨fun _ => rfl, rfl⟩

theorem list {ds : List Datum} (h : ∀ d ∈ ds, d.Settled) : (Datum.list ds).Settled := by
  have hAll : (∀ f, replaceAll f ds = ds) ∧ anyUnwritable ds = false := by
    induction ds with
    | nil => exact ⟨fun _ => rfl, rfl⟩
    | cons d ds ih =>
      obtain ⟨hFirst, hRest⟩ := forall_mem_cons.mp h
      obtain ⟨hFixed, hWritable⟩ := ih hRest
      exact ⟨fun f => by rw [replaceAll, hFirst.fixed, hFixed], by rw [anyUnwritable, hFirst.writable, hWritable]; rfl⟩
  exact ⟨fun f => by rw [replaceCells, hAll.1], by rw [isUnwritable, hAll.2]⟩

theorem entries {fields : List (String × Datum)} (h : ∀ p ∈ fields, p.2.Settled) :
    (∀ f, replaceEntries f (fields.map fun (k, v) => (.str k, v)) = fields.map fun (k, v) => (.str k, v)) ∧
      anyEntryUnwritable (fields.map fun (k, v) => (.str k, v)) = false := by
  induction fields with
  | nil => exact ⟨fun _ => rfl, rfl⟩
  | cons p fields ih =>
    obtain ⟨hFirst, hRest⟩ := forall_mem_cons.mp h
    obtain ⟨hFixed, hWritable⟩ := ih hRest
    refine ⟨fun f => ?_, ?_⟩
    · rw [map_cons, replaceEntries, hFirst.fixed, hFixed, (str p.1).fixed]
    · rw [map_cons, anyEntryUnwritable, hFirst.writable, hWritable, (str p.1).writable]
      rfl

theorem record {fields : List (String × Datum)} (h : ∀ p ∈ fields, p.2.Settled) : (Braced.record fields).Settled := by
  obtain ⟨hFixed, hWritable⟩ := entries h
  exact ⟨fun f => by rw [Braced.record, replaceCells, hFixed], by rw [Braced.record, isUnwritable, hWritable]⟩

end Datum.Settled

namespace Braced

@[simp] theorem TypeMark.settled (m : TypeMark) : m.toDatum.Settled := by
  cases m <;> simp [TypeMark.toDatum]

theorem Param.settled (p : Param) : p.toDatum.Settled := by
  unfold Param.toDatum
  split <;> exact .record (by simp)

theorem Field.settled (f : Field) : f.toDatum.Settled := .record (by simp)

variable {counting omitting : Prop}

mutual

theorem Expr.Fit.settled : ∀ {e : Expr}, e.Fit counting → e.toDatum.Settled
  | .literal .number _, ⟨_, rfl⟩ | .literal .string _, ⟨_, rfl⟩ | .literal .boolean _, ⟨_, rfl⟩ | .variable _, _ =>
    .record (by simp)
  | .assign _ value, h => .record (by simp [Expr.Fit.settled (e := value) h])
  | .logical .., h | .binary .., h => .record (by simp [Expr.Fit.settled h.1, Expr.Fit.settled h.2])
  | .unary _ r, h => .record (by simp [Expr.Fit.settled (e := r) h])
  | .call .., h => .record (by simp [Expr.Fit.settled h.1, Datum.Settled.list (AllFit.settled h.2)])
  | .grouping inner, h => .record (by simp [Expr.Fit.settled (e := inner) h])

theorem AllFit.settled : ∀ {es : List Expr}, AllFit counting es → ∀ d ∈ exprData es, d.Settled
  | [], _ => by simp [exprData]
  | e :: es, h => forall_mem_cons.mpr ⟨Expr.Fit.settled h.1, AllFit.settled h.2⟩

end

mutual

theorem Stmt.Fit.settled : ∀ {counting omitting : Prop} {s : Stmt}, s.Fit counting omitting → s.toDatum.Settled
  | _, _, .function _ params _ body, h => by
      have hParams : ∀ d ∈ params.map Param.toDatum, d.Settled := by simp [Param.settled]
      have hBody : ∀ d ∈ stmtData body, d.Settled := AllStmtFit.settled h
      exact .record (by simp [Datum.Settled.list hParams, Datum.Settled.list hBody])
  | _, _, .struct _ fields, _ => by
      have hFields : ∀ d ∈ fields.map Field.toDatum, d.Settled := by simp [Field.settled]
      exact .record (by simp [Datum.Settled.list hFields])
  | _, _, .var _ _ (some initial) _, h => .record (by simp [optionalDatum, Expr.Fit.settled (e := initial) h])
  | _, _, .var _ _ none _, _ => .record (by simp [optionalDatum])
  | _, _, .branch _ _ none, h => .record (by simp [elseDatum, h.1.settled, Stmt.Fit.settled h.2.1])
  | _, _, .branch _ _ (some _), h =>
    .record (by simp [elseDatum, h.1.settled, Stmt.Fit.settled h.2.1, Stmt.Fit.settled h.2.2])
  | _, _, .loop body, h => .record (by simp [Datum.Settled.list (AllStmtFit.settled (l := body) h)])
  | _, _, .ret _ (some value), h => .record (by simp [optionalDatum, Expr.Fit.settled (e := value) h])
  | _, _, .ret _ none, _ => .record (by simp [optionalDatum])
  | _, _, .block body, h => .record (by simp [Datum.Settled.list (AllStmtFit.settled (l := body) h)])
  | _, _, .expression e, h => .record (by simp [Expr.Fit.settled (e := e) h])

theorem AllStmtFit.settled : ∀ {counting omitting : Prop} {l : List Stmt}, AllStmtFit counting omitting l →
    ∀ d ∈ stmtData l, d.Settled
  | _, _, [], _ => by simp [stmtData]
  | _, _, s :: ss, h => forall_mem_cons.mpr ⟨Stmt.Fit.settled h.1, AllStmtFit.settled h.2⟩

end

end Braced

end Scriptling
