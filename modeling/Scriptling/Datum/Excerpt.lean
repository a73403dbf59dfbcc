import Scriptling.Datum.Arithmetic
import Scriptling.Datum.Text
import Scriptling.Text.Alphabet
import Scriptling.Text.Excerpt

/-!
# Excerpts of data

An excerpt whose parts are values of any type. A part is looked at only when it is needed: the column where there
is a line, the source where there is one and a line, the number of lines around it where there is a source. A part
that does not suit is a fault then.
-/

namespace Scriptling.Datum

def isPositive (d : Datum) : Except Fault Bool := relate .greater d (int 0)

/-- A value, or another one if that stands in a relation to it. -/
def unlessRelated (r : Relation) (d other : Datum) : Except Fault Datum := do
  return if ← relate r other d then other else d

def needWhole (d : Datum) : Except Fault Int :=
  match d.int? with
  | some n => .ok n
  | .none => .error (.plain .wrongType)

def excerptHeading (file line column : Datum) : Except Fault (List String) := do
  let shown (d : Datum) : Except Fault String := do return (← d.display) ++ ":"
  let file ← if file.truthy then pure [← shown file] else pure []
  if ← line.isPositive then
    let line ← shown line
    let column ← if ← column.isPositive then pure [← shown column] else pure []
    return Text.Excerpt.closed (file ++ line :: column)
  else return Text.Excerpt.closed file

/-- The lines of a source, and whether tabs can be found in them: not in bytes. -/
def sourceLines : Datum → Except Fault (List String × Bool)
  | str s => .ok (Text.splitLines s, true)
  | bytes bs => .ok (((Text.Alphabet.ascii.lines false (bs.map Char.ofNat)).map fun line =>
    Text.quotedBytes (line.map Char.toNat)), false)
  | d => .error (.missingAttribute d.typeName "splitlines")

def excerptBelow [Size.Room] (column : Datum) : Except Fault (List String) := do
  if ← column.isPositive then Text.Excerpt.caretRow (← column.needWhole) else return []

def excerptWindow [Size.Room] (line column code context : Datum) : Except Fault (List String) := do
  let (lines, tabs) ← sourceLines code
  let first ← unlessRelated .greater (int 1) (← operate .sub line context)
  let last ← unlessRelated .less (int lines.length) (← operate .add (← operate .add line context) (int 1))
  let first ← first.needWhole
  let line ← line.needWhole
  let below := if tabs then excerptBelow column else .error (.plain .wrongType)
  match last.int? with
  | some last => Text.Excerpt.around lines line.toNat first.toNat last.toNat below
  | .none => do
    let _ ← Text.Excerpt.around lines line.toNat first.toNat 0 below
    .error (.plain .wrongType)

/-- A message with its place and the source around it. -/
def excerpt [Size.Room] (message line column file code context : Datum) : Except Fault String := do
  let heading ← excerptHeading file line column
  let message ← message.display
  let window ←
    if code.truthy && (← line.isPositive) then excerptWindow line column code context else pure []
  return "\n".intercalate (heading ++ ("error: " ++ message) :: window)

end Scriptling.Datum
