import Scriptling.Report.Failure

/-!
# The report book of a run

A report is printed and then entered in the book. Two flags say that something was reported and that a
runtime failure was. A report is under way before its text is known, so the first flag is set even if the
report comes to nothing.
-/

namespace Scriptling.Report

structure Entry where
  /-- The text as it was printed. It names the kind of the entry too. -/
  text : String
  line : Datum
  context : Datum

def Entry.column : Int := 0

def Entry.file : String := "<script>"

structure Book where
  reported : Bool := false
  failed : Bool := false
  entries : List Entry := []

/-- What comes of a report: what was printed, what went wrong, and the book afterwards. -/
structure Reply where
  printed : Option String
  fault : Option Fault
  book : Book

/-- The token that a report is about. -/
structure Mark where
  line : Datum
  lexeme : Datum

namespace Book

def compose (line : Datum) (kind : String) (message place : Datum) : Except Fault String := do
  let number ←
    if ← Datum.relate .greater line (.int 0) then line.display.map fun n => s!"[line {n}]" else .ok ""
  let where_ ← if place.truthy then place.display.map fun p => s!" at '{p}'" else .ok ""
  let lead := number ++ where_
  let lead := if lead.isEmpty then "" else lead ++ ": "
  let kind := if kind.isEmpty then "" else kind ++ ": "
  match message with
  | .str text => return lead ++ kind ++ text
  | _ => throw (.plain .wrongType)

/-- Makes a report. A text with a NUL is printed and not entered, since it names no kind. -/
def report (b : Book) (line : Datum) (kind : String) (message place : Datum) : Reply :=
  let b := { b with reported := true }
  match compose line kind message place with
  | .error f => ⟨none, some f, b⟩
  | .ok text =>
    if text.toList.contains '\x00' then ⟨some text, some (.plain .wrongValue), b⟩
    else ⟨some text, none, { b with entries := b.entries ++ [⟨text, line, place⟩] }⟩

def error (b : Book) (line message place : Datum) : Reply := b.report line "" message place

def syntaxError (b : Book) (mark : Mark) (message : Datum) : Reply :=
  b.report mark.line "SyntaxError" message (if mark.lexeme.truthy then mark.lexeme else .str "")

def typeError (b : Book) (mark : Mark) (message : Datum) : Reply := b.report mark.line "TypeError" message mark.lexeme

/-- Reports a runtime failure, which is noted once the report has been made. -/
def runtimeError (b : Book) (message : Datum) (mark : Option Mark) : Reply :=
  let reply := match mark with
    | some m => b.report m.line "RuntimeError" message m.lexeme
    | none => b.report (.int 0) "RuntimeError" message .none
  match reply.fault with
  | some _ => reply
  | none => { reply with book := { reply.book with failed := true } }

def hasErrors (b : Book) : Bool := b.reported || b.failed

def clear (_ : Book) : Book := {}

end Book

end Scriptling.Report
