import Scriptling.Fault
import Scriptling.Text.Lines
import Scriptling.Text.Search

/-!
# Files and directories

The files below the current directory. A path is a list of names; the empty one is the directory itself.
-/

namespace Scriptling

inductive FileEntry where
  | file (text : String)
  | directory
  deriving Repr, DecidableEq

/-- Files and directories by their paths. -/
structure FileTree where
  entries : List (List String × FileEntry)
  deriving Repr, DecidableEq

namespace FileTree

def empty : FileTree := ⟨[]⟩

instance : Inhabited FileTree := ⟨empty⟩

/-- The names in a path. A dot stands for nothing, two dots for one name less. -/
def names (path : String) : List String :=
  (Text.splitOn ['/'] path.toList).foldl (fun acc part =>
    match part with
    | [] | ['.'] => acc
    | ['.', '.'] => acc.dropLast
    | part => acc ++ [String.ofList part]) []

/-- What a path names, if anything. The root is a directory, and so is each one above it. -/
def get? (t : FileTree) (path : List String) : Option FileEntry :=
  if path.all (· == "..") then some .directory else t.entries.lookup path

/-- The path one step up. Above the root it is written with dots. -/
def up (path : List String) : List String := if path.all (· == "..") then path ++ [".."] else path.dropLast

/-- Puts an entry at a path, in place of one that is there. -/
def put (t : FileTree) (path : List String) (e : FileEntry) : FileTree :=
  if (t.entries.lookup path).isSome then
    ⟨t.entries.map fun old => if old.1 == path then (path, e) else old⟩
  else ⟨t.entries ++ [(path, e)]⟩

/-- The names of a path as it is written, without those that stand for nothing. -/
def writtenNames (path : String) : List String :=
  ((Text.splitOn ['/'] path.toList).filter fun part => part != [] && part != ['.']).map String.ofList

/-- Goes from a directory along names, two dots being the way up, and gives the path where it ends. All that is
passed has to be a directory. `shown` is the path as it was asked for. -/
def locate (t : FileTree) (shown : String) (start : List String) : List String → Except Fault (List String)
  | [] => .ok start
  | name :: rest =>
    match t.get? start with
    | some .directory => t.locate shown (if name == ".." then up start else start ++ [name]) rest
    | some (.file _) => .error (.notDirectory shown)
    | none => .error (.noSuchFile shown)

def find (t : FileTree) (shown : String) : Except Fault (List String) :=
  if shown.isEmpty then .error (.noSuchFile shown)
  else if shown.toList.contains '\x00' then .error .embeddedNull
  else t.locate shown [] (writtenNames shown)

/-- Whether a path asks for a directory by its end. -/
def asksDirectory (shown : String) : Bool := shown.endsWith "/" || shown.endsWith "/."

def exists? (t : FileTree) (shown : String) : Bool :=
  match t.find shown with
  | .ok path =>
    match t.get? path with
    | some .directory => true
    | some (.file _) => !asksDirectory shown
    | none => false
  | .error _ => false

def readRaw (t : FileTree) (shown : String) : Except Fault String := do
  let path ← t.find shown
  match t.get? path with
  | some (.file text) => if asksDirectory shown then throw (.notDirectory shown) else return text
  | some .directory => throw (.isDirectory shown)
  | none => throw (.noSuchFile shown)

/-- The text of a file, with one kind of line end. -/
def read (t : FileTree) (shown : String) : Except Fault String := do
  return Text.readAsText (← t.readRaw shown)

def write (t : FileTree) (shown text : String) : Except Fault FileTree := do
  let path ← t.find shown
  match t.get? path with
  | some .directory => throw (.isDirectory shown)
  | some (.file _) =>
    if asksDirectory shown then throw (.notDirectory shown) else return t.put path (.file text)
  | none => if asksDirectory shown then throw (.isDirectory shown) else return t.put path (.file text)

/-- The paths above a path, from the root on, without the path itself. -/
def above (path : List String) : List (List String) := (List.range path.length).map path.take

/-- Adds directories at all paths above a path, where nothing is. -/
def addAbove (t : FileTree) (path : List String) : FileTree :=
  (above path).foldl (fun t p => if (t.get? p).isNone then t.put p .directory else t) t

/-- A tree with these files, and the directories that their names call for. -/
def ofFiles (files : List (String × String)) : FileTree :=
  files.foldl (fun t (shown, text) => (t.addAbove (names shown)).put (names shown) (.file text)) empty

/-- Whether a path lies below a directory, at once or at any depth. -/
def isBelow (deep : Bool) (directory path : List String) : Bool :=
  directory.isPrefixOf path && (if deep then directory.length < path.length else path.length == directory.length + 1)

/-- The files below a directory, as paths that start with the directory as it is written; none if there is no
such directory. -/
def filesBelow (t : FileTree) (shown : String) (deep : Bool) : List (List String) :=
  match t.locate shown [] (writtenNames shown) with
  | .error _ => []
  | .ok directory =>
    if t.get? directory = some .directory then
      t.entries.filterMap fun (path, e) =>
        if e != .directory && isBelow deep directory path then
          some (writtenNames shown ++ path.drop directory.length)
        else none
    else []

/-- The ending of a file name: its last dot and what follows, unless the dot is the first or last character. -/
def ending (name : String) : String :=
  let after := name.toList.reverse.takeWhile (· != '.')
  let dot := name.length - after.length - 1
  if after.length < name.length && 0 < dot && after != [] then String.ofList (name.toList.drop dot) else ""

def files (t : FileTree) : List (String × String) :=
  t.entries.filterMap fun (path, e) =>
    match e with
    | .file text => some ("/".intercalate path, text)
    | .directory => none

end FileTree

end Scriptling
