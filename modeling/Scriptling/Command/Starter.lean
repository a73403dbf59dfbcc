import Scriptling.Command.Basic
import Scriptling.Script.Source

/-!
# Running a script file

With a file name the starter runs the script; without one it holds a session that only repeats what is typed.
-/

namespace Scriptling.Command

/-- Runs the script in a file. A value that it returns is given with all its items. -/
def runFile [Size.Room] (d : Script.Dialect) (fuel : Nat) (path : String) (files : FileTree) (console : Console) :
    Result :=
  match files.read path with
  | .error f => ⟨.failed (.fault f), console⟩
  | .ok source =>
    let (r, m) := (Script.runSource d fuel source).run (.start (.start console files))
    match r with
    | .ok _ => ⟨.done, m.world.console⟩
    | .error (.returned v) => ⟨.failed (.returned (m.world.store.freeze v)), m.world.console⟩
    | .error s => ⟨.failed s, m.world.console⟩

/-- The command that runs a script of the closing dialect. -/
def closingCommand [Size.Room] (fuel : Nat) (args : List String) (files : FileTree) (console : Console) : Result :=
  match args with
  | path :: _ => runFile .closing fuel path files console
  | [] => refuse console "Usage: python interpreter.py <filename>" 1

def echoSession : Session where
  greeting := ["NooCrush REPL (type 'exit' to quit)"]
  prompt := "> "
  onInterrupt := none
  respond line := ["You entered: " ++ line]

def starter [Size.Room] (fuel : Nat) (args : List String) (files : FileTree) (console : Console) : Result :=
  match args with
  | path :: _ => runFile .basic fuel path files console
  | [] => echoSession.hold console

end Scriptling.Command
