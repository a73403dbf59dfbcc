import Scriptling.Braced.Parse
import Scriptling.Braced.Scan
import Scriptling.Script.Run

/-!
# Running the text of a script

Scanning, parsing and running in one go. What scanning and parsing notice is printed before anything runs, and
what is left of the script after errors runs all the same.
-/

namespace Scriptling.Script

/-- The statements of a text; what is wrong with it is printed. -/
def statementsOf (source : String) : Run (List Braced.Stmt) := do
  let scanned := Braced.scan source
  scanned.notices.forM fun (n : Braced.Notice) => Run.print (n.message ++ "\n")
  if let some lexeme := scanned.stopped then throw (.fault (.floatLiteral (Text.quoted lexeme)))
  let parsed := Braced.parse scanned.tokens
  parsed.diagnostics.forM fun (d : Braced.Diagnostic) => Run.print (d.message ++ "\n")
  match parsed.ending with
  | .ok statements => return statements
  | .failed => return []
  | .offEnd => throw (.fault (.plain .badIndex))
  | .outOfFuel => throw .outOfFuel

def runSource [Size.Room] (d : Dialect) (fuel : Nat) (source : String) : Run Datum := do
  let statements ← statementsOf source
  interpret d fuel (statements.map Braced.Stmt.toDatum)

end Scriptling.Script
