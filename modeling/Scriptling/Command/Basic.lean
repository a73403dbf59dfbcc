import Scriptling.Script.Machine

/-!
# Commands

A command reads its arguments, the console and the files. It ends by itself, with a code for its caller, with an
exit code, or because something failed that it does not deal with.
-/

namespace Scriptling.Command

/-- How a command ends: by itself, with a code for its caller, with an exit code, or by a failure. -/
inductive Ending where
  | done
  | code (n : Int)
  | exit (n : Int)
  | failed (s : Script.Signal)

structure Result where
  ending : Ending
  console : Console

def refuse (console : Console) (message : String) (code : Int) : Result := ⟨.exit code, console.printLine message⟩

/-- A command whose code for its caller becomes the exit code. -/
def Result.exiting (r : Result) : Result :=
  match r.ending with
  | .code n => { r with ending := .exit n }
  | _ => r

/-! ## Sessions

A session reads one line after another and answers each, until it is told to end or the input does. -/

/-- What a session says, and how it answers a line. -/
structure Session where
  greeting : List String
  prompt : String
  /-- The lines it answers an interrupt with; an interrupt ends a session that has none. -/
  onInterrupt : Option (List String)
  respond : String → List String

def trimmed (line : String) : String := String.ofList (Text.trimBy Text.isBlank line.toList)

def isFarewell (line : String) : Bool := ["exit", "quit"].contains (Text.lower (trimmed line))

/-- How much input there is: an upper bound on the lines that can be read. -/
def remaining : Input → Nat
  | .text rest => rest.length
  | .bytes all => all.length

/-- Goes on with a session. Every line that is read makes the input shorter, so fuel for each character of it and
for its end is enough. -/
def Session.continue (s : Session) : Nat → Console → Result
  | 0, console => ⟨.done, console⟩
  | fuel + 1, console =>
    let (line, console) := (console.print s.prompt).readLine
    match line with
    | .ok line => if isFarewell line then ⟨.done, console⟩ else s.continue fuel (console.printLines (s.respond line))
    | .error .endOfInput => ⟨.done, console.printLines ["", "Goodbye!"]⟩
    | .error (.plain .interrupted) =>
      match s.onInterrupt with
      | some lines => s.continue fuel (console.printLines lines)
      | none => ⟨.failed (.fault (.plain .interrupted)), console⟩
    | .error f => s.continue fuel (console.printLine ("Error: " ++ f.message))

def Session.hold (s : Session) (console : Console) : Result :=
  s.continue (remaining console.input + 2) (console.printLines s.greeting)

end Scriptling.Command
