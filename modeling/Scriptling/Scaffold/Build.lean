import Scriptling.Console
import Scriptling.FileTree
import Scriptling.Scaffold.Project

/-!
# Building a project

Directories are made one after another, each announced by a line. Building stops at the first that cannot be made,
and what has been made stays.
-/

namespace Scriptling.Scaffold

/-- Where a project is built. -/
structure Site where
  files : FileTree
  console : Console

abbrev Build (α : Type) : Type := ExceptT Fault (StateM Site) α

def announce (line : String) : Build Unit := modify fun s => { s with console := s.console.printLine line }

/-! ## Directories -/

def shown (path : List String) : String := "/".intercalate path

def isDirectory (t : FileTree) (path : List String) : Bool :=
  match t.locate (shown path) [] path with
  | .ok p => t.get? p == some .directory
  | .error _ => false

/-- Makes one directory, in a directory that is there. -/
def makeOne (t : FileTree) (path : List String) : Except Fault FileTree := do
  if path.any fun name => name.toList.contains '\x00' then throw (.plain .wrongValue)
  match path.getLast? with
  | none => throw (.fileExists (shown path))
  | some name =>
    let parent ← t.locate (shown path) [] path.dropLast
    match t.get? parent with
    | none => throw (.noSuchFile (shown path))
    | some (.file _) => throw (.notDirectory (shown path))
    | some .directory =>
      if name == ".." || (t.get? (parent ++ [name])).isSome then throw (.fileExists (shown path))
      else return t.put (parent ++ [name]) .directory

/-- The tree as it is, if the directory that could not be made is there already. -/
def orThere (t : FileTree) (path : List String) (f : Fault) : Except Fault FileTree :=
  match f.kind with
  | .noSuchFile | .wrongValue => .error f
  | _ => if isDirectory t path then .ok t else .error f

/-- Makes a directory and those above it that are missing. The path is given last name first. -/
def makeUp (t : FileTree) : List String → Except Fault FileTree
  | [] => .ok t
  | name :: above =>
    let path := (name :: above).reverse
    match makeOne t path with
    | .ok t => .ok t
    | .error (.noSuchFile _) => do
      let t ← makeUp t above
      match makeOne t path with
      | .ok t => .ok t
      | .error f => orThere t path f
    | .error f => orThere t path f

def make (path : List String) : Build Unit := do
  let site ← get
  match makeUp site.files path.reverse with
  | .ok files => set { site with files }
  | .error f => throw f

def place (base : List String) (margin name : String) : Build Unit := do
  announce ("Creating directory: " ++ margin ++ name)
  make (base ++ FileTree.writtenNames name)

mutual

def create (base : List String) (margin : String) : Plan → Build Unit
  | .tree entries => createAll base margin entries
  | .names entries => entries.forM fun
    | some name => place base margin name
    | none => throw (.plain .wrongType)
  | .nothing => pure ()

def createAll (base : List String) (margin : String) : List (String × Plan) → Build Unit
  | [] => pure ()
  | (name, plan) :: rest => do
    place base margin name
    create (base ++ FileTree.writtenNames name) (margin ++ "  ") plan
    createAll base margin rest

end

/-- Makes what a plan says below a root, which is taken as the shortest path to it. -/
def createBelow (root : String) (plan : Plan) : Build Unit := create (FileTree.names root) "" plan

/-! ## First files -/

/-- The name of the file that makes a directory a package. -/
def packageFile : String := "__init__.py"

/-- Gives all directories below a directory, but not itself, a package file where there is none. -/
def markPackages (t : FileTree) (path : List String) : FileTree :=
  match t.locate (shown path) [] path with
  | .error _ => t
  | .ok top =>
    t.entries.foldl (fun t (p, e) =>
      if e == .directory && FileTree.isBelow true top p && (t.get? (p ++ [packageFile])).isNone then
        t.put (p ++ [packageFile]) (.file "")
      else t) t

/-- Writes the introduction and the package files of the sources and tests. -/
def createFiles (root : String) : Build Unit := do
  let base := FileTree.writtenNames root
  let site ← get
  match site.files.write (shown (base ++ ["README.md"])) ("\n".intercalate introduction ++ "\n") with
  | .error f => throw f
  | .ok files =>
    set { site with files := markPackages (markPackages files (base ++ ["noocrush"])) (base ++ ["tests"]) }

/-- Builds a whole project. `place` is the place as it is shown. -/
def buildProject (place : String) : Build Unit := do
  announce ("Creating directory structure in: " ++ place)
  createBelow "" project
  createFiles ""
  announce "\nDirectory structure created successfully!"

end Scriptling.Scaffold
