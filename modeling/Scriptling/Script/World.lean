import Scriptling.Console
import Scriptling.Datum.Store
import Scriptling.FileTree

/-!
# The world of a running script

What a script's functions can touch: shared lists, the console, files, and a supply of random numbers.
-/

namespace Scriptling.Script

/-- What is around a script. -/
structure World where
  store : Store
  console : Console
  files : FileTree
  /-- Random numbers from zero to one that have not been used. -/
  dice : List Float
  deriving Inhabited

namespace World

/-- A world with a console and files and nothing else. -/
def start (console : Console) (files : FileTree) : World := ⟨#[], console, files, []⟩

end World

end Scriptling.Script
