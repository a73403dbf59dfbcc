import Scriptling.Braced.Syntax

/-!
# What a script asks of a run

The literals of a script that was scanned and parsed hold values of their kind. Two things in such a script matter to
those who run it: which variables it reads, and whether it leaves out a part that may be left out, which is the first
value of a variable, the second arm of a choice, or a returned value. The body of a function counts for neither.

`Fit` says that a script reads `len` and leaves something out only under given conditions; `AllStmtFit.narrow` finds
the weakest ones.
-/

namespace Scriptling.Braced

/-! ## Reading and leaving out -/

mutual

/-- Whether an expression reads a variable. -/
def Expr.reads (name : String) : Expr → Bool
  | .literal .. => false
  | .variable n => n == name
  | .assign _ value => value.reads name
  | .logical l _ r | .binary l _ r => l.reads name || r.reads name
  | .unary _ r => r.reads name
  | .call callee arguments _ => callee.reads name || anyReads name arguments
  | .grouping inner => inner.reads name

/-- Whether one of several expressions reads a variable. -/
def anyReads (name : String) : List Expr → Bool
  | [] => false
  | e :: es => e.reads name || anyReads name es

end

mutual

/-- Whether running a statement may read a variable. -/
def Stmt.reads (name : String) : Stmt → Bool
  | .function .. | .struct .. => false
  | .var _ _ initial _ => initial.any (Expr.reads name)
  | .branch condition yes none => condition.reads name || yes.reads name
  | .branch condition yes (some no) => condition.reads name || yes.reads name || no.reads name
  | .loop body => anyStmtReads name body
  | .ret _ value => value.any (Expr.reads name)
  | .block body => anyStmtReads name body
  | .expression e => e.reads name

/-- Whether running one of several statements may read a variable. -/
def anyStmtReads (name : String) : List Stmt → Bool
  | [] => false
  | s :: ss => s.reads name || anyStmtReads name ss

end

mutual

/-- Whether a part is left out that running the statement may come to: a first value, a second arm or a
returned value. -/
def Stmt.omits : Stmt → Bool
  | .function .. | .struct .. => false
  | .var _ _ initial _ => initial.isNone
  | .branch _ _ none => true
  | .branch _ yes (some no) => yes.omits || no.omits
  | .loop body => anyOmits body
  | .ret _ value => value.isNone
  | .block body => anyOmits body
  | .expression _ => false

/-- Whether one of several statements leaves a part out. -/
def anyOmits : List Stmt → Bool
  | [] => false
  | s :: ss => s.omits || anyOmits ss

end

/-! ## Scripts fit for running -/

mutual

/-- Literals hold values of their kind, and `len` is read only if counting is allowed. -/
def Expr.Fit (counting : Prop) : Expr → Prop
  | .literal .number value => ∃ x, value = .float x
  | .literal .string value => ∃ s, value = .str s
  | .literal .boolean value => ∃ b, value = .bool b
  | .variable name => name = "len" → counting
  | .assign _ value => value.Fit counting
  | .logical l _ r | .binary l _ r => l.Fit counting ∧ r.Fit counting
  | .unary _ r => r.Fit counting
  | .call callee arguments _ => callee.Fit counting ∧ AllFit counting arguments
  | .grouping inner => inner.Fit counting

def AllFit (counting : Prop) : List Expr → Prop
  | [] => True
  | e :: es => e.Fit counting ∧ AllFit counting es

end

mutual

/-- All expressions are fit, and a part is left out only if omitting is allowed. In the body of a function
both are allowed. -/
def Stmt.Fit : Prop → Prop → Stmt → Prop
  | _, _, .function _ _ _ body => AllStmtFit True True body
  | _, _, .struct .. => True
  | counting, _, .var _ _ (some initial) _ => initial.Fit counting
  | _, omitting, .var _ _ none _ => omitting
  | counting, omitting, .branch condition yes none =>
    condition.Fit counting ∧ yes.Fit counting omitting ∧ omitting
  | counting, omitting, .branch condition yes (some no) =>
    condition.Fit counting ∧ yes.Fit counting omitting ∧ no.Fit counting omitting
  | counting, omitting, .loop body => AllStmtFit counting omitting body
  | counting, _, .ret _ (some value) => value.Fit counting
  | _, omitting, .ret _ none => omitting
  | counting, omitting, .block body => AllStmtFit counting omitting body
  | counting, _, .expression e => e.Fit counting

def AllStmtFit : Prop → Prop → List Stmt → Prop
  | _, _, [] => True
  | counting, omitting, s :: ss => s.Fit counting omitting ∧ AllStmtFit counting omitting ss

end

variable {counting omitting : Prop}

theorem allFit_iff {es : List Expr} : AllFit counting es ↔ ∀ e ∈ es, e.Fit counting := by
  induction es with
  | nil => simp [AllFit]
  | cons e es ih => simp [AllFit, ih]

/-! ## The weakest conditions -/

mutual

/-- Counting need only be allowed if `len` is read. -/
theorem Expr.Fit.narrow : ∀ {e : Expr}, e.Fit True → (e.reads "len" = true → counting) → e.Fit counting
  | .literal .number _, h, _ | .literal .string _, h, _ | .literal .boolean _, h, _ => h
  | .variable name, _, hReads => fun hName => hReads (by simp [Expr.reads, hName])
  | .assign _ value, h, hReads => Expr.Fit.narrow (e := value) h hReads
  | .logical l _ r, h, hReads | .binary l _ r, h, hReads =>
    ⟨Expr.Fit.narrow h.1 fun hl => hReads (by simp [Expr.reads, hl]),
      Expr.Fit.narrow h.2 fun hr => hReads (by simp [Expr.reads, hr])⟩
  | .unary _ r, h, hReads => Expr.Fit.narrow (e := r) h hReads
  | .call callee arguments _, h, hReads =>
    ⟨Expr.Fit.narrow h.1 fun hc => hReads (by simp [Expr.reads, hc]),
      AllFit.narrow h.2 fun ha => hReads (by simp [Expr.reads, ha])⟩
  | .grouping inner, h, hReads => Expr.Fit.narrow (e := inner) h hReads

theorem AllFit.narrow : ∀ {es : List Expr}, AllFit True es → (anyReads "len" es = true → counting) → AllFit counting es
  | [], _, _ => trivial
  | e :: es, h, hReads =>
    ⟨Expr.Fit.narrow h.1 fun he => hReads (by simp [anyReads, he]),
      AllFit.narrow h.2 fun hes => hReads (by simp [anyReads, hes])⟩

end

mutual

/-- Counting need only be allowed if `len` is read, and omitting if a part is left out. -/
theorem Stmt.Fit.narrow : ∀ {s : Stmt}, s.Fit True True → (s.reads "len" = true → counting) →
    (s.omits = true → omitting) → s.Fit counting omitting
  | .function .., h, _, _ => h
  | .struct .., _, _, _ => trivial
  | .var _ _ (some _) _, h, hReads, _ => Expr.Fit.narrow h hReads
  | .var _ _ none _, _, _, hOmits => hOmits rfl
  | .branch _ _ none, h, hReads, hOmits =>
    ⟨h.1.narrow fun hc => hReads (by simp [Stmt.reads, hc]),
      Stmt.Fit.narrow h.2.1 (fun hy => hReads (by simp [Stmt.reads, hy])) (fun _ => hOmits rfl), hOmits rfl⟩
  | .branch _ _ (some _), h, hReads, hOmits =>
    ⟨h.1.narrow fun hc => hReads (by simp [Stmt.reads, hc]),
      Stmt.Fit.narrow h.2.1 (fun hy => hReads (by simp [Stmt.reads, hy]))
        (fun hy => hOmits (by simp [Stmt.omits, hy])),
      Stmt.Fit.narrow h.2.2 (fun hn => hReads (by simp [Stmt.reads, hn]))
        (fun hn => hOmits (by simp [Stmt.omits, hn]))⟩
  | .loop body, h, hReads, hOmits => AllStmtFit.narrow h hReads hOmits
  | .ret _ (some _), h, hReads, _ => Expr.Fit.narrow h hReads
  | .ret _ none, _, _, hOmits => hOmits rfl
  | .block body, h, hReads, hOmits => AllStmtFit.narrow h hReads hOmits
  | .expression _, h, hReads, _ => Expr.Fit.narrow h hReads

theorem AllStmtFit.narrow : ∀ {ss : List Stmt}, AllStmtFit True True ss →
    (anyStmtReads "len" ss = true → counting) → (anyOmits ss = true → omitting) → AllStmtFit counting omitting ss
  | [], _, _, _ => trivial
  | s :: ss, h, hReads, hOmits =>
    ⟨Stmt.Fit.narrow h.1 (fun hs => hReads (by simp [anyStmtReads, hs]))
        (fun hs => hOmits (by simp [anyOmits, hs])),
      AllStmtFit.narrow h.2 (fun hss => hReads (by simp [anyStmtReads, hss]))
        (fun hss => hOmits (by simp [anyOmits, hss]))⟩

end

end Scriptling.Braced
