import Scriptling.Builtin.Numeric
import Scriptling.Datum.Format

/-!
# Routines on texts and the console

The texts of values, formatted values, printing, and reading a line.
-/

namespace Scriptling.Builtin

open Act

open Script (World)

def displayed (d : Datum) : Act Datum := return .str (← display d)

def literal (d : Datum) : Act Datum := do return .str (← lift ((← deep d).writtenBy Datum.literal))

def asciiLiteral (d : Datum) : Act Datum := do
  return .str (← lift ((← deep d).writtenBy Datum.literalAscii))

/-- A value laid out by a format, which has to be a text. -/
def formatted [Size.Room] (d spec : Datum) : Act Datum := do
  match spec with
  | .str spec => return .str (← lift ((← deep d).format spec))
  | _ => wrongType

/-- A text between or after printed values; nothing stands for the usual one. -/
def printedText (usual : String) : Datum → Act String
  | .none => return usual
  | .str s => return s
  | _ => wrongType

/-- Prints values with a text between and after them. Only the console can be printed on. -/
def print (values : List Datum) (sep ending file : Datum) : Act Datum := do
  let sep ← printedText " " sep
  let ending ← printedText "\n" ending
  match file with
  | .none =>
    let texts ← values.mapM display
    modify fun w => { w with console := w.console.print (sep.intercalate texts ++ ending) }
    return .none
  | file =>
    match ← told? file "write" with
    | some _ => beyond
    | none => fail (.missingAttribute (← typeName file) "write")

def readLine (prompt : Datum) : Act Datum := do
  let text ← display prompt
  modify fun w => { w with console := w.console.print text }
  let line ← modifyGet fun w => let (r, console) := w.console.readLine; (r, { w with console })
  return .str (← lift line)

/-- The lines of a file that is opened for reading. Other ways to open a file are not carried out. -/
def openFile (path mode : Datum) : Act Datum := do
  match path, mode with
  | .str path, .str mode =>
    if !(["r", "rt", "tr"].contains mode) then beyond
    let text ← lift ((← get).files.read path)
    let lines := (Text.splitOn ['\n'] text.toList).map String.ofList
    let ended := lines.dropLast.map (· ++ "\n") ++ (lines.getLast?.toList.filter (!·.isEmpty))
    make (.iterator "TextIOWrapper" (ended.map .str))
  | .str _, _ | .none, _ | .float _, _ | .tuple _, _ | .cell _, _ => wrongType
  | _, _ => beyond

/-- The routines on texts that come with the language. -/
def textRoutines [Size.Room] : Library := [
  ("str", ⟨.of [defaulting "object" (.str ""), optional "encoding", optional "errors"],
    fun _ b => b.upTo 1 (displayed (b.value 0))⟩),
  ("repr", .unary (unnamed ["obj"]) literal),
  ("ascii", .unary (unnamed ["obj"]) asciiLiteral),
  ("format", .binary (.inOrder [required "value", defaulting "format_spec" (.str "")]) formatted),
  ("print", ⟨{ more := true,
               named := [orNothing "sep", orNothing "end", orNothing "file",
                 defaulting "flush" (.bool false)] }, fun _ b => print b.rest (b.value 0) (b.value 1) (b.value 2)⟩),
  ("open", ⟨.of ([required "file", defaulting "mode" (.str "r")] ++
                ["buffering", "encoding", "errors", "newline", "closefd", "opener"].map optional),
    fun _ b => b.upTo 2 (openFile (b.value 0) (b.value 1))⟩),
  ("input", .unary (.inOrder [defaulting "prompt" (.str "")]) readLine)]

end Scriptling.Builtin
