import Scriptling.Command.Workbench

/-!
# The command line

Hands the arguments, the files they name and the standard input to the workbench, and prints what it leaves.
-/

namespace Scriptling.CommandLine

def fuel : Nat := 10000000

/-- The files among the arguments. What is there and cannot be read as a text counts as a directory. -/
def namedFiles (args : List String) : IO FileTree :=
  args.foldlM (fun t arg => do
    let path := FileTree.names arg
    try
      let text ← IO.FS.readFile arg
      return (t.addAbove path).put path (.file text)
    catch
      | .noFileOrDirectory .. => return t
      | _ => return (t.addAbove path).put path .directory) FileTree.empty

partial def readAll (stream : IO.FS.Stream) (read : ByteArray) : IO ByteArray := do
  let more ← stream.read 65536
  if more.isEmpty then return read else readAll stream (read ++ more)

/-- The standard input, for the commands that use it. -/
def standardInput (args : List String) : IO Input := do
  if args.any fun a => a == "run" || a == "repl" then
    let bytes ← readAll (← IO.getStdin) ByteArray.empty
    return .bytes (bytes.toList.map UInt8.toNat)
  else return .text []

def exitCode : Command.Ending → UInt32
  | .done => 0
  | .code n | .exit n => UInt32.ofNat n.toNat
  | .failed _ => 1

end Scriptling.CommandLine

attribute [local instance] Scriptling.Size.ordinary in
def main (args : List String) : IO UInt32 := do
  let files ← Scriptling.CommandLine.namedFiles args
  let input ← Scriptling.CommandLine.standardInput args
  let visit := Scriptling.Command.workbench Scriptling.CommandLine.fuel args files (.ofInput input)
  IO.print visit.result.console.out
  IO.eprint visit.result.console.err
  return Scriptling.CommandLine.exitCode visit.result.ending
