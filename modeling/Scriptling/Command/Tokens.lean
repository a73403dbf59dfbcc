import Scriptling.Command.Basic
import Scriptling.Freeform.Lex

/-!
# Listing the tokens of a file

The command takes one file name and prints the file's tokens, one a line, and then all of them as the body of a
program.
-/

namespace Scriptling.Command

/-- The record of a program that is only its tokens. -/
def programText (tokens : List Freeform.Token) : String :=
  "\x7b'type': 'Program', 'body': [" ++ ", ".intercalate (tokens.map Freeform.Token.display) ++ "]\x7d"

def listTokens (console : Console) (tokens : List Freeform.Token) : Console :=
  console.printLines (["=== Tokens ==="] ++ tokens.map Freeform.Token.display ++
    ["\n=== Abstract Syntax Tree ===", programText tokens])

def tokensCommand (args : List String) (files : FileTree) (console : Console) : Result :=
  match args with
  | [path] =>
    match files.read path with
    | .ok source =>
      let lexed := Freeform.lex source
      match lexed.failure? with
      | none => ⟨.done, listTokens console lexed.tokens⟩
      | some f => refuse console ("Syntax Error: " ++ f.message) 1
    | .error (.noSuchFile _) => refuse console ("Error: Could not find file " ++ path) 1
    | .error f => refuse console ("Error reading file: " ++ f.message) 1
  | _ => refuse console "Usage: python noocrush.py <source_file>" 1

end Scriptling.Command
