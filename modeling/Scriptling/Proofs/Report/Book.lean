import Scriptling.Proofs.Text.Excerpt
import Scriptling.Report.Book

/-!
# What a report book knows of its reports

A report is noted first and entered last. Between the two it fails if its line has too many digits, or if there is a NUL
in its text. So a book may know that something was reported and have no entry of it (`book_after_calls`).
-/

namespace Scriptling.Report

open Datum (ofText?)

/-- What a report says, of whole numbers and texts. -/
structure Notice where
  line : Int
  kind : String
  message : String
  place : Option String

namespace Notice

def beforeColon (s : String) : String := if s.isEmpty then "" else s ++ ": "

def text (n : Notice) : String :=
  let line := if 0 < n.line then s!"[line {Number.intText n.line}]" else ""
  let name := n.place.getD ""
  let place := if name.isEmpty then "" else s!" at '{name}'"
  beforeColon (line ++ place) ++ beforeColon n.kind ++ n.message

/-- A line that cannot be written, or a text that names no kind, keeps a notice from being entered. -/
def Fails (n : Notice) : Prop := (Number.unwritable : Int) ≤ n.line ∨ '\x00' ∈ n.text.toList

instance (n : Notice) : Decidable n.Fails := inferInstanceAs (Decidable (_ ∨ _))

def entry (n : Notice) : Entry := ⟨n.text, .int n.line, ofText? n.place⟩

theorem compose_eq (n : Notice) : Book.compose (.int n.line) n.kind (.str n.message) (ofText? n.place) =
    if (Number.unwritable : Int) ≤ n.line then .error (.tooManyDigits none) else .ok n.text := by
  obtain ⟨line, kind, message, place⟩ := n
  have hPositive := Int.natCast_pos.mpr Datum.unwritable_pos
  have hNumber (hLine : 0 < line) := Datum.display_int hLine
  have hTruthy : (ofText? place).truthy = !(place.getD "").isEmpty := by cases place <;> rfl
  have hShown (h : (place.getD "").isEmpty = false) : (ofText? place).display = .ok (place.getD "") := by
    cases place with
    | none => cases h
    | some p => rfl
  unfold Book.compose text
  rw [Datum.relate_greater_int]
  -- nothing is to be computed about the bound
  generalize Number.unwritable = most at *
  by_cases hLong : (most : Int) ≤ line
  · simp [show 0 < line by omega, hLong, hNumber, bind, Except.bind, Except.map]
  · by_cases hLine : 0 < line <;> cases hEmpty : (place.getD "").isEmpty <;>
      simp [hLine, hLong, hTruthy, hEmpty, hShown, hNumber, beforeColon, bind, Except.bind, Except.map, pure,
        Except.pure]

/-- A report is noted in any case, and entered unless it fails. -/
structure Noted (b : Book) (n : Notice) (reply : Reply) : Prop where
  reported : reply.book.reported = true
  entries : reply.book.entries = b.entries ++ if n.Fails then [] else [n.entry]
  fault : reply.fault.isSome = true ↔ n.Fails

theorem noted_report (b : Book) (n : Notice) :
    Noted b n (b.report (.int n.line) n.kind (.str n.message) (ofText? n.place)) := by
  have hFails : n.Fails ↔ (Number.unwritable : Int) ≤ n.line ∨ '\x00' ∈ n.text.toList := .rfl
  unfold Book.report
  rw [compose_eq]
  generalize Number.unwritable = most at *
  by_cases hLong : (most : Int) ≤ n.line
  · constructor <;> simp [hFails, hLong]
  · by_cases hNul : '\x00' ∈ n.text.toList <;> constructor <;> simp [hFails, hLong, hNul, entry]

end Notice

/-- What a book can be told. -/
inductive Call where
  | error (line : Int) (message : String) (place : Option String)
  | syntaxError (line : Int) (lexeme message : String)
  | typeError (line : Int) (lexeme message : String)
  | runtimeError (message : String) (mark : Option (Int × String))
  | reset
  | clearErrors

namespace Call

/-- The request that a call makes. -/
def reply (b : Book) : Call → Reply
  | error line message place => b.error (.int line) (.str message) (ofText? place)
  | syntaxError line lexeme message => b.syntaxError ⟨.int line, .str lexeme⟩ (.str message)
  | typeError line lexeme message => b.typeError ⟨.int line, .str lexeme⟩ (.str message)
  | runtimeError message mark => b.runtimeError (.str message) (mark.map fun m => ⟨.int m.1, .str m.2⟩)
  | reset | clearErrors => ⟨none, none, b.clear⟩

def notice? : Call → Option Notice
  | error line message place => some ⟨line, "", message, place⟩
  | syntaxError line lexeme message => some ⟨line, "SyntaxError", message, some lexeme⟩
  | typeError line lexeme message => some ⟨line, "TypeError", message, some lexeme⟩
  | runtimeError message (some (line, lexeme)) => some ⟨line, "RuntimeError", message, some lexeme⟩
  | runtimeError message none => some ⟨0, "RuntimeError", message, none⟩
  | reset | clearErrors => none

theorem noted_reply {c : Call} {n : Notice} (h : c.notice? = some n) (b : Book) : n.Noted b (c.reply b) := by
  cases c with
  | error line message place =>
    cases h
    exact Notice.noted_report b _
  | syntaxError line lexeme message =>
    cases h
    have hLexeme : (if (Datum.str lexeme).truthy then Datum.str lexeme else .str "") = ofText? (some lexeme) := by
      cases hEmpty : lexeme.isEmpty <;> simp_all [Datum.truthy, ofText?]
    rw [reply, Book.syntaxError, hLexeme]
    exact Notice.noted_report b ⟨line, "SyntaxError", message, some lexeme⟩
  | typeError line lexeme message =>
    cases h
    exact Notice.noted_report b ⟨line, "TypeError", message, some lexeme⟩
  | runtimeError message mark =>
    have hNoted := Notice.noted_report b n
    rcases mark with _ | ⟨line, lexeme⟩ <;> cases h <;> dsimp only [reply, Book.runtimeError, Option.map] <;> split <;>
      exact ⟨hNoted.reported, hNoted.entries, hNoted.fault⟩
  | reset => cases h
  | clearErrors => cases h

theorem reply_of_notice?_eq_none {c : Call} (h : c.notice? = none) (b : Book) : c.reply b = ⟨none, none, {}⟩ := by
  cases c with
  | reset | clearErrors => rfl
  | runtimeError message mark => cases mark <;> cases h
  | _ => cases h

end Call

/-- The book after some calls. -/
def after (calls : List Call) : Book := calls.foldl (fun b c => (c.reply b).book) {}

/-- The reports since the book was last cleared. -/
def recent (calls : List Call) : List Notice :=
  (calls.reverse.takeWhile fun c => c.notice?.isSome).reverse.filterMap Call.notice?

theorem book_after (calls : List Call) :
    (after calls).entries = ((recent calls).filter fun n => ¬ n.Fails).map Notice.entry ∧
      ((after calls).hasErrors = true ↔ recent calls ≠ []) := by
  induction calls using List.reverseRecOn with
  | nil => exact ⟨rfl, by decide⟩
  | append_singleton calls c ih =>
    have hAfter : after (calls ++ [c]) = (c.reply (after calls)).book := by simp [after]
    rw [hAfter]
    cases h : c.notice? with
    | none =>
      rw [Call.reply_of_notice?_eq_none h]
      simp [recent, h, Book.hasErrors]
    | some n =>
      have hRecent : recent (calls ++ [c]) = recent calls ++ [n] := by simp [recent, h]
      obtain ⟨hReported, hEntries, -⟩ := Call.noted_reply h (after calls)
      rw [hRecent, hEntries, ih.1, Book.hasErrors, hReported]
      by_cases hFails : n.Fails <;> simp [hFails]

/-- **What a book knows of its reports.** After any calls, a book has the entries of those reports since it was last
cleared that did not fail, in order, and knows of errors exactly if there was a report. So the two disagree exactly if
there were reports and all failed, and there is one entry for each report exactly if none failed. -/
theorem book_after_calls (calls : List Call) :
    let b := after calls
    let made := recent calls
    b.entries = (made.filter fun n => ¬ n.Fails).map Notice.entry ∧
      (b.hasErrors = true ↔ made ≠ []) ∧
      ((b.hasErrors = true ↔ b.entries ≠ []) ↔ made = [] ∨ ∃ n ∈ made, ¬ n.Fails) ∧
      (b.entries.length = made.length ↔ ∀ n ∈ made, ¬ n.Fails) ∧
      ∀ c : Call, (c.reply b).fault.isSome = true ↔ ∃ n, c.notice? = some n ∧ n.Fails := by
  intro b made
  obtain ⟨hEntries, hErrors⟩ := book_after calls
  refine ⟨hEntries, hErrors, ?_, ?_, fun c => ?_⟩
  · rw [hErrors, hEntries]
    simp
    grind
  · rw [hEntries, List.length_map, List.length_filter_eq_length_iff]
    simp [made]
  · cases h : c.notice? with
    | none => simp [Call.reply_of_notice?_eq_none h]
    | some n => simp [(Call.noted_reply h b).fault]

/-- A report that is not entered. -/
theorem report_without_entry :
    let b := after [.error 1 "\x00" none]
    b.hasErrors = true ∧ b.entries.isEmpty = true ∧ (recent [.error 1 "\x00" none]).length = 1 := by
  decide +kernel

end Scriptling.Report
