import Scriptling.Command.Workbench

/-!
# Facts about the package

A command that prints what is asked of the package's description, in the order it is asked. The long description is
the text of a file, which has to be there whatever is asked.
-/

namespace Scriptling.Command

inductive Question where
  | fact (name : String)
  /-- Something that says how to go about it, and is no question. -/
  | manner (name : String)
  deriving Repr, DecidableEq

/-- The name of the file with the long description. -/
def longDescriptionFile : String := "README.md"

/-- The facts, each as the lines that are printed, given the long description. -/
def packageFacts (long : String) : List (String × List String) := [
  ("name", ["noocrush"]),
  ("version", [version]),
  ("fullname", ["noocrush-" ++ version]),
  ("author", ["Your Name"]),
  ("author-email", ["your.email@example.com"]),
  ("maintainer", ["None"]),
  ("maintainer-email", ["None"]),
  ("contact", ["Your Name"]),
  ("contact-email", ["your.email@example.com"]),
  ("url", ["https://github.com/yourusername/noocrush"]),
  ("license", ["None"]),
  ("description", ["NooCrush - A hybrid language combining Python, Rust, and JavaScript features"]),
  ("long-description", [long]),
  ("classifiers", ["Programming Language :: Python :: 3", "License :: OSI Approved :: MIT License",
    "Operating System :: OS Independent"]),
  ("keywords", [""]),
  ("provides", [""]),
  ("requires", [""]),
  ("obsoletes", [""])]

def manners : List String := Text.words "verbose quiet dry-run help no-user-cfg help-commands platforms"

/-- The question of a long name, which may be cut short as long as only one fits. -/
def longQuestion? (name : String) : Option Question :=
  let facts := (packageFacts "").map (·.1)
  let ask (n : String) : Question := if facts.contains n then .fact n else .manner n
  let names := facts ++ manners
  if names.contains name then some (ask name)
  else match names.filter fun n => name.toList.isPrefixOf n.toList with
    | [only] => some (ask only)
    | _ => none

def shortQuestion? : Char → Option Question
  | 'V' => some (.fact "version")
  | 'v' => some (.manner "verbose")
  | 'q' => some (.manner "quiet")
  | 'n' => some (.manner "dry-run")
  | 'h' => some (.manner "help")
  | _ => none

/-- The questions in arguments, up to the first that is none. -/
def questions? : List String → Option (List Question)
  | [] => some []
  | arg :: rest =>
    match arg.toList with
    | ['-', '-'] => some []
    | '-' :: '-' :: name => do return (← longQuestion? (String.ofList name)) :: (← questions? rest)
    | '-' :: letter :: letters => do return (← (letter :: letters).mapM shortQuestion?) ++ (← questions? rest)
    | _ => some []

/-- The command. It is of no use without a question. -/
def packageCommand (args : List String) (files : FileTree) (console : Console) : Result :=
  match files.read longDescriptionFile with
  | .error f => ⟨.failed (.fault f), console⟩
  | .ok long =>
    let asked := (questions? args).getD [] |>.filterMap fun
      | .fact name => some name
      | .manner _ => none
    if asked.isEmpty then ⟨.exit 1, console⟩
    else ⟨.done, console.printLines (asked.flatMap fun name => ((packageFacts long).lookup name).getD [])⟩

end Scriptling.Command
