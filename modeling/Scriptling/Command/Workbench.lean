import Scriptling.Command.Arguments
import Scriptling.Command.Starter

/-!
# The workbench

One command for all: it runs scripts, holds sessions, and has places for formatting, linting and testing. A script
that fails is reported on the error channel.
-/

namespace Scriptling.Command

def version : String := "0.1.0"

def workbenchGrammar : Grammar :=
  ⟨[.switch helpSwitch, .switch ⟨["-v", "--version"], some "version"⟩, .slot ⟨"command", .command⟩]⟩

/-- The commands of the workbench and their arguments. -/
def workbenchCommands : List (String × Grammar) := [
  ("run", ⟨[.switch helpSwitch, .slot ⟨"file", .one⟩, .slot ⟨"args", .rest⟩]⟩),
  ("repl", ⟨[.switch helpSwitch]⟩),
  ("fmt", ⟨[.switch helpSwitch, .slot ⟨"files", .several⟩, .switch ⟨["--check"], some "check"⟩]⟩),
  ("lint", ⟨[.switch helpSwitch, .slot ⟨"files", .several⟩]⟩),
  ("test", ⟨[.switch helpSwitch, .slot ⟨"pattern", .optional "*"⟩]⟩)]

def readWorkbench (args : List String) : Except Refusal Settings := workbenchGrammar.read workbenchCommands args

/-- What the workbench prints if it is given nothing to do. -/
def workbenchHelp : List String := [
  "usage: noocrush [-h] [-v] \x7brun,repl,fmt,lint,test\x7d ...",
  "",
  "NooCrush - A hybrid language combining Python, Rust, and JavaScript features",
  "",
  "positional arguments:",
  "  \x7brun,repl,fmt,lint,test\x7d",
  "                        command to execute",
  "    run                 run a NooCrush script",
  "    repl                start an interactive REPL",
  "    fmt                 format NooCrush code",
  "    lint                lint NooCrush code",
  "    test                run tests",
  "",
  "options:",
  "  -h, --help            show this help message and exit",
  "  -v, --version         show version information and exit"]

/-- What a session of the workbench answers: what scanning notices, and then that it cannot go on. -/
def respondScanning (line : String) : List String :=
  let source := trimmed line
  if source.isEmpty then []
  else
    let scanned := Braced.scan source
    let fault := match scanned.stopped with
      | some lexeme => Fault.floatLiteral (Text.quoted lexeme)
      | none => Fault.unknownName "TokenType"
    scanned.notices.map Braced.Notice.message ++ ["Error: " ++ fault.message]

def workbenchSession : Session where
  greeting := ["NooCrush REPL (type 'exit' or 'quit' to exit)", "Version " ++ version, ""]
  prompt := "noo> "
  onInterrupt := some ["", "Use 'exit' or 'quit' to exit"]
  respond := respondScanning

/-- What went wrong with a script, in words; nothing for an interrupt, which is nobody's fault. A value that the
script returns speaks for itself, if it has a text. -/
def failureText? : Script.Signal → Option (Except Fault String)
  | .fault (.plain .interrupted) => none
  | .fault f => some (.ok f.message)
  | .trouble t => some (.ok t.message)
  | .returned v => some v.display
  | .broken => some (.ok "")
  | .outOfFuel => none

/-- What the workbench leaves: its result and, if it ran a script, the script's arguments. -/
structure Visit where
  result : Result
  scriptArgs : Option (List String) := none

def runScript [Size.Room] (fuel : Nat) (path : String) (args : List String) (files : FileTree) (console : Console) :
    Visit :=
  if !files.exists? path then ⟨⟨.code 1, console.printError ("Error: File not found: " ++ path)⟩, none⟩
  else
    let r := runFile .basic fuel path files console
    let r := match r.ending with
      | .failed s =>
        match failureText? s with
        | some (.ok text) => ⟨.code 1, r.console.printError ("Error executing " ++ path ++ ": " ++ text)⟩
        | some (.error f) => ⟨.code 1, r.console.printError ("Error: " ++ f.message)⟩
        | none => r
      | _ => { r with ending := .code 0 }
    ⟨r, some (path :: args)⟩

def textAt (s : Settings) (key : String) : String :=
  match s.lookup key with
  | some (.str t) => t
  | _ => ""

def textsAt (s : Settings) (key : String) : List String :=
  match s.lookup key with
  | some (.list xs) => xs.filterMap fun
    | .str t => some t
    | _ => none
  | _ => []

def workbench [Size.Room] (fuel : Nat) (args : List String) (files : FileTree) (console : Console) : Visit :=
  match readWorkbench args with
  | .error r => ⟨⟨.exit r.code, console⟩, none⟩
  | .ok s =>
    let say (line : String) : Visit := ⟨⟨.code 0, console.printLine line⟩, none⟩
    if s.lookup "version" matches some (.bool true) then say ("NooCrush v" ++ version)
    else match textAt s "command" with
    | "run" => runScript fuel (textAt s "file") (textsAt s "args") files console
    | "repl" =>
      let r := workbenchSession.hold console
      ⟨match r.ending with
        | .done => { r with ending := .code 0 }
        | _ => r, none⟩
    | "fmt" => say "Code formatting not yet implemented"
    | "lint" => say "Code linting not yet implemented"
    | "test" => say "Testing not yet implemented"
    | _ => ⟨⟨.code 1, console.printLines workbenchHelp⟩, none⟩

end Scriptling.Command
