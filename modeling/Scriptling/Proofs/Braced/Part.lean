import Scriptling.Proofs.Braced.Record
import Scriptling.Proofs.Braced.Schema

/-!
# Parts of statements

The statements that occur in what parsing returns, at any depth. Each follows the schema of records, whatever
diagnostics there were, and an arm of a choice is no declaration.
-/

namespace Scriptling.Braced

open Grammar

variable {tokens : List Token} {n : Nat}

namespace Stmt

/-- The name that a statement declares, if it is the declaration of a variable or a function. -/
def declares? : Stmt → Option String
  | .var name _ _ _ | .function name _ _ _ => some name
  | _ => none

/-- A statement that another one is made of, and whether it may be a declaration there. -/
inductive HasPart : Stmt → Clause → Stmt → Prop where
  | function {name params result body s} : s ∈ body → HasPart (.function name params result body) .declaration s
  | loop {body s} : s ∈ body → HasPart (.loop body) .declaration s
  | block {body s} : s ∈ body → HasPart (.block body) .declaration s
  | yes {condition s no} : HasPart (.branch condition s no) .statement s
  | no {condition yes s} : HasPart (.branch condition yes (some s)) .statement s

/-- The statement is one of these or, at some depth, a part of one. -/
inductive OccursIn (ss : List Stmt) : Stmt → Prop where
  | here {s} : s ∈ ss → OccursIn ss s
  | deeper {s part clause} : OccursIn ss s → s.HasPart clause part → OccursIn ss part

theorem toDatum_mem_stmtData {s : Stmt} {ss : List Stmt} (h : s ∈ ss) : s.toDatum ∈ stmtData ss := by
  induction h with
  | head => exact .head _
  | tail _ _ ih => exact .tail _ ih

end Stmt

theorem Each.exists_of_mem {P : Nat → Datum → Prop} {ds : List Datum} (h : Each P n ds) {d : Datum}
    (hd : d ∈ ds) : ∃ m, P m d := by
  induction h with
  | nil => cases hd
  | cons hFirst _ ih =>
    rcases List.mem_cons.mp hd with rfl | hd
    · exact ⟨_, hFirst⟩
    · exact ih hd

section Inversion

-- What it takes to compare two records.
attribute [local simp] Stmt.toDatum elseDatum record Stmt.toDatum_ne_none

/-- Where only a statement may stand, nothing is declared. -/
theorem declares?_eq_none {s : Stmt} (h : Clause.IsRecord tokens .statement n s.toDatum) :
    s.declares? = none := by
  generalize hd : s.toDatum = d at h
  cases s with
  | var | function => cases h <;> simp at hd
  | _ => rfl

/-- The parts of what parsing returns are such as may stand in their places. -/
theorem isRecord_part {s part : Stmt} {clause : Clause}
    (h : Clause.IsRecord tokens .declaration n s.toDatum) (hPart : s.HasPart clause part) :
    ∃ m, clause.IsRecord tokens m part.toDatum := by
  generalize hd : s.toDatum = d at h
  cases hPart with
  | function hMem =>
    cases h with
    | function _ _ hBody =>
      obtain ⟨-, -, -, rfl⟩ : _ ∧ _ ∧ _ ∧ stmtData _ = _ := by simpa using hd
      exact hBody.exists_of_mem (Stmt.toDatum_mem_stmtData hMem)
    | struct | var => simp at hd
    | plain h => cases h <;> simp at hd
  | loop hMem =>
    cases h with
    | plain h =>
      cases h with
      | loop hBody =>
        obtain rfl : stmtData _ = _ := by simpa using hd
        exact hBody.exists_of_mem (Stmt.toDatum_mem_stmtData hMem)
      | _ => simp at hd
    | _ => simp at hd
  | block hMem =>
    cases h with
    | plain h =>
      cases h with
      | block hBody =>
        obtain rfl : stmtData _ = _ := by simpa using hd
        exact hBody.exists_of_mem (Stmt.toDatum_mem_stmtData hMem)
      | _ => simp at hd
    | _ => simp at hd
  | yes =>
    cases h with
    | plain h =>
      cases h with
      | ifThen _ hYes | ifElse _ hYes _ =>
        obtain ⟨-, rfl, -⟩ : _ ∧ part.toDatum = _ ∧ _ := by simpa using hd
        exact ⟨_, hYes⟩
      | _ => simp at hd
    | _ => simp at hd
  | no =>
    cases h with
    | plain h =>
      cases h with
      | ifThen => simp at hd
      | ifElse _ _ hNo =>
        obtain ⟨-, -, rfl⟩ : _ ∧ _ ∧ part.toDatum = _ := by simpa using hd
        exact ⟨_, hNo⟩
      | _ => simp at hd
    | _ => simp at hd

end Inversion

/-- Every statement that occurs in what parsing returns follows the schema. -/
theorem occursIn_isRecord {stmts : List Stmt} {rest : List Token} {ds : List Diagnostic}
    (hParse : parse tokens = ⟨.ok stmts, rest, ds⟩) {s : Stmt} (hs : s.OccursIn stmts) :
    ∃ n, Clause.IsRecord tokens .declaration n s.toDatum := by
  induction hs with
  | here hMem =>
    obtain ⟨-, missing, -, hRecords⟩ := program_returns _ tokens (List.Subset.refl _) _ _ _ hParse
    exact hRecords.exists_of_mem (Stmt.toDatum_mem_stmtData hMem)
  | @deeper s part clause _ hPart ih =>
    obtain ⟨n, hRecord⟩ := ih
    obtain ⟨m, hPartRecord⟩ := isRecord_part hRecord hPart
    cases clause with
    | declaration => exact ⟨m, hPartRecord⟩
    | statement => exact ⟨m, .plain hPartRecord⟩

end Scriptling.Braced
