import Scriptling.Size
import Scriptling.Text.Lines
import Scriptling.Text.Search

/-!
# Source excerpts

A message with the place it speaks of and, if the source is at hand, the lines around that place. The line
itself is followed by a caret under the column. One line more is shown after it than before.
-/

namespace Scriptling.Text

variable [Size.Room]

/-- A message and the place that it is about. -/
structure Excerpt where
  message : String
  /-- The line spoken of, counted from one; no line if it is not positive. -/
  line : Int := 0
  /-- The column spoken of, counted from one; no column if it is not positive. -/
  column : Int := 0
  file : Option String := none
  code : Option String := none
  context : Int := 2
  deriving Repr, DecidableEq

namespace Excerpt

/-- Parts of a heading, the last with a blank after it. -/
def closed (parts : List String) : List String :=
  match parts.reverse with
  | [] => []
  | last :: before => ((last ++ " ") :: before).reverse

/-- The parts that say where, each on a row of its own, the last with a blank after it. -/
def heading (e : Excerpt) : List String :=
  let file := match e.file with
    | some f => if f.isEmpty then [] else [s!"{f}:"]
    | none => []
  let line := if e.line > 0 then [Number.intText e.line ++ ":"] else []
  let column := if e.line > 0 && e.column > 0 then [Number.intText e.column ++ ":"] else []
  closed (file ++ line ++ column)

/-- A source line with its number, which takes four places at least. -/
def numbered (number : Nat) (line : String) : String :=
  let digits := Number.intText number
  String.ofList (List.replicate (4 - digits.length) ' ') ++ digits ++ " | " ++ line

/-- So many of the source lines that begin with a number. A line that is not there is a fault. -/
def rows (number : Nat) : Nat → List String → Except Fault (List String)
  | 0, _ => .ok []
  | _ + 1, [] => .error (.plain .badIndex)
  | count + 1, line :: rest => do return numbered number line :: (← rows (number + 1) count rest)

def rowsFrom (lines : List String) (number count : Nat) : Except Fault (List String) :=
  rows number count (lines.drop (number - 1))

/-- The caret below a column; there has to be room for the blanks before it. -/
def caret (column : Int) : Except Fault String := do
  return String.ofList (List.replicate (← Size.textCopies 1 (column + 6)) ' ') ++ "^"

def caretRow (column : Int) : Except Fault (List String) := do
  if column > 0 then return [← caret column] else return []

/-- The line itself, with blanks in place of tabs, and what stands below it. -/
def pointed (lines : List String) (line : Nat) (below : Except Fault (List String)) : Except Fault (List String) := do
  match lines[line - 1]? with
  | none => return []
  | some text =>
    let shown := String.ofList (text.toList.map fun c => if c = '\t' then ' ' else c)
    return numbered line shown :: (← below)

/-- The source lines from the first up to a line, that line with what stands below it, and those up to the last. -/
def around (lines : List String) (line first last : Nat) (below : Except Fault (List String)) :
    Except Fault (List String) := do
  let before ← rowsFrom lines first (line - first)
  let pointed ← pointed lines line below
  let after ← rowsFrom lines (line + 1) (last - line)
  return before ++ pointed ++ after

def window (lines : List String) (line : Nat) (column context : Int) : Except Fault (List String) :=
  let first := (max 1 (line - context)).toNat
  let last := (min (lines.length : Int) (line + context + 1)).toNat
  around lines line first last (caretRow column)

def display (e : Excerpt) : Except Fault (List String) := do
  let start := e.heading ++ [s!"error: {e.message}"]
  match e.code with
  | some code =>
    if code.isEmpty || e.line ≤ 0 then return start
    else return start ++ (← window (splitLines code) e.line.toNat e.column e.context)
  | none => return start

def text (e : Excerpt) : Except Fault String := do return "\n".intercalate (← e.display)

end Excerpt

end Scriptling.Text
