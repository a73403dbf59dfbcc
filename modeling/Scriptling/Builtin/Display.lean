import Scriptling.Builtin.Library
import Scriptling.Datum.Excerpt
import Scriptling.Datum.Wording
import Scriptling.Text.Box

/-!
# Display routines

Routines that put things into words, into excerpts and into boxes, and that look for files.
-/

namespace Scriptling.Builtin

open Act

variable [Size.Room]

/-- The width of a terminal that says nothing useful about it. -/
def usualColumns : Int := 80

def terminalColumns (said : Option Int) : Int :=
  match said with
  | some n => if n > 0 then n else usualColumns
  | none => usualColumns

/-- A message with its place and the source around it. -/
def excerptText (message line column file code context : Datum) : Act Datum := do
  return .str (← lift (Datum.excerpt (← deep message) (← deep line) (← deep column) (← deep file)
    (← deep code) (← deep context)))

def printRows (rows : List String) : Act Unit := modify fun w => { w with console := w.console.printLines rows }

/-- Prints pieces of text in a box. There has to be room for its edge, which is printed first, and then for its
empty rows. The border is anything that can be repeated. -/
def printFrame (content : List (List Char)) (padding : Int) (border : Datum) : Act Unit := do
  let width := Text.Box.width content padding
  let edge ← display (← lift (Datum.operate .mul border (.int (width + 4))))
  let border ← display border
  if let .error f := Size.textCopies 1 (width + 2) then
    if padding > 0 then
      printRows [edge]
      fail f
  printRows (Text.Box.frame content padding border edge)

/-- Prints a text in a box. A padding that is no whole number fails only after the text has been looked at. -/
def printBox (columns : Int) (text padding border : Datum) : Act Datum := do
  if padding.numeric?.isNone then wrongType
  match text with
  | .str text =>
    let padding ← whole padding
    match Text.Box.content? (Text.Box.room columns padding) text with
    | some content =>
      printFrame content padding (← deep border)
      return .none
    | none => failPlain .endless
  | .bytes _ => wrongType
  | _ => failPlain .missingAttribute

/-- The files below a directory whose endings, in lower case, are among those asked for. -/
def findFiles (directory endings deep : Datum) : Act Datum := do
  let endings ← match ← Act.deep endings with
    | .none => pure (Datum.list [.str ".noo"])
    | d => pure d
  match directory with
  | .str directory =>
    let deep := (← Act.deep deep).truthy
    let found ← ((← get).files.filesBelow directory deep).filterM fun path =>
      Act.lift (endings.contains (.str (Text.lower (FileTree.ending (path.getLastD "")))))
    let texts := (found.map "/".intercalate).mergeSort (· ≤ ·)
    return .list (texts.map .str)
  | _ => wrongType

/-- The display routines in a terminal of so many columns. -/
def displayRoutines (columns : Int) : Library := [
  ("ensure_list", ⟨.exactly ["value"], fun _ b => do return .list (← look (b.value 0)).listed⟩),
  ("pluralize", ⟨.of [required "count", required "singular", orNothing "plural"], fun _ b => do
    let count ← deep (b.value 0)
    let singular ← deep (b.value 1)
    return .str (← lift (Datum.counted count singular (← deep (b.value 2))))⟩),
  ("format_error", ⟨.of [required "message", defaulting "line" (.int 0), defaulting "col" (.int 0),
      orNothing "file", orNothing "code", defaulting "context_lines" (.int 2)], fun _ b =>
    excerptText (b.value 0) (b.value 1) (b.value 2) (b.value 3) (b.value 4) (b.value 5)⟩),
  ("print_boxed", ⟨.of [required "text", defaulting "padding" (.int 1),
      defaulting "char" (.str "#")], fun _ b => printBox columns (b.value 0) (b.value 1) (b.value 2)⟩),
  ("get_terminal_width", ⟨.exactly [], fun _ _ => return .int columns⟩),
  ("find_files", .ternary (.of [required "directory", orNothing "extensions",
      defaulting "recursive" (.bool true)]) findFiles)]

end Scriptling.Builtin
