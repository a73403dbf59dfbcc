import Scriptling.Datum.Format
import Scriptling.Datum.Property

/-!
# Replacement fields

A template with fields in braces, such as `{0.name!r:>8}`. A field names a value, by its number, by its
turn or by its name; a path leads from there to a part of it; a conversion makes a text of that, and a format,
which may hold fields of its own, lays it out. A doubled brace stands for itself. Fields are filled from left to
right, so that the first fault is the one that is told.
-/

namespace Scriptling.Datum

open Format (bad)

variable [Size.Room]

namespace Fields

/-- A step from a value to a part of it. -/
inductive Step where
  | property (name : String)
  | item (key : String)
  | malformed
  deriving Repr, DecidableEq

structure Field where
  /-- The name or number of a value; it is empty where values are taken in turn. -/
  name : String
  path : List Step
  conversion? : Option Char
  spec : List Char
  deriving Repr, DecidableEq

inductive Piece where
  | plain (c : Char)
  | field (f : Field)
  | malformed
  deriving Repr, DecidableEq

def endsName (c : Char) : Bool := c == '.' || c == '['

/-- Reads a path; the fuel is the length of its text. -/
def readPath : Nat → List Char → List Step
  | 0, _ | _, [] => []
  | fuel + 1, '.' :: cs =>
    let name := cs.takeWhile (!endsName ·)
    if name.isEmpty then [.malformed]
    else .property (String.ofList name) :: readPath fuel (cs.dropWhile (!endsName ·))
  | fuel + 1, '[' :: cs =>
    let key := cs.takeWhile (· != ']')
    match cs.dropWhile (· != ']') with
    | _ :: rest => if key.isEmpty then [.malformed] else .item (String.ofList key) :: readPath fuel rest
    | [] => [.malformed]
  | _ + 1, _ :: _ => [.malformed]

/-- The text of a field's name and path, the character that ends it, and what follows. Within brackets every
character is taken as it is. -/
def readName (inBrackets : Bool) (acc : List Char) : List Char → Option (List Char × Char × List Char)
  | [] => .none
  | c :: cs =>
    if inBrackets then readName (c != ']') (c :: acc) cs
    else if c == '\x7b' then .none
    else if c == '\x7d' || c == ':' || c == '!' then some (acc.reverse, c, cs)
    else readName (c == '[') (c :: acc) cs

/-- The text of a format up to the brace that ends its field, and what follows. -/
def readSpec (depth : Nat) (acc : List Char) : List Char → Option (List Char × List Char)
  | [] => .none
  | c :: cs =>
    if c == '\x7b' then readSpec (depth + 1) (c :: acc) cs
    else if c == '\x7d' then
      if depth = 0 then some (acc.reverse, cs) else readSpec (depth - 1) (c :: acc) cs
    else readSpec depth (c :: acc) cs

/-- A field from its name and path and from what was read after them. -/
def Field.ofParts (name : List Char) (conversion? : Option Char) (spec : List Char) : Field :=
  let path := name.dropWhile (!endsName ·)
  ⟨String.ofList (name.takeWhile (!endsName ·)), readPath path.length path, conversion?, spec⟩

def readField (cs : List Char) : Option (Field × List Char) := do
  let (name, ending, cs) ← readName false [] cs
  if ending == ':' then
    let (spec, rest) ← readSpec 0 [] cs
    return (.ofParts name .none spec, rest)
  else if ending == '!' then
    match cs with
    | c :: '\x7d' :: rest => return (.ofParts name (some c) [], rest)
    | c :: ':' :: rest =>
      let (spec, rest) ← readSpec 0 [] rest
      return (.ofParts name (some c) spec, rest)
    | _ => .none
  else return (.ofParts name .none [], cs)

/-- The parts of a template; the fuel is its length. -/
def readPieces : Nat → List Char → List Piece
  | 0, _ | _, [] => []
  | fuel + 1, c :: rest =>
    if c == '\x7b' || c == '\x7d' then
      if rest.head? == some c then .plain c :: readPieces fuel rest.tail
      else if c == '\x7b' then
        match readField rest with
        | some (f, rest) => .field f :: readPieces fuel rest
        | .none => [.malformed]
      else [.malformed]
    else .plain c :: readPieces fuel rest

def pieces (cs : List Char) : List Piece := readPieces cs.length cs

/-- How the fields of a template choose their values: this is settled by the first of them that has no name. -/
inductive Numbering where
  | unsettled
  | inTurn (next : Nat)
  | byNumber
  deriving Repr, DecidableEq

/-- Where the values for the fields come from. -/
structure Source where
  /-- The values in order; a template may have names only. -/
  values? : Option (List Datum)
  mapping : Datum

/-- A number written in decimal digits, which has to be a count. -/
def number? (name : String) : Except Fault (Option Nat) :=
  match name.toList.mapM Text.decimalValue? with
  | .none | some [] => .ok .none
  | some ds =>
    let n := ds.foldl (fun n d => 10 * n + d) 0
    if n ≤ Size.maxCount then .ok (some n) else .error bad

def Source.value (s : Source) (i : Nat) : Except Fault Datum :=
  match s.values? with
  | .none => .error bad
  | some values =>
    match values[i]? with
    | some v => .ok v
    | .none => .error (.plain .badIndex)

/-- The value that a field begins with, and the numbering after it. -/
def Source.pick (s : Source) (numbering : Numbering) (name : String) : Except Fault (Datum × Numbering) := do
  let number ← number? name
  match number, numbering with
  | some _, .inTurn _ => .error bad
  | some i, _ => return (← s.value i, .byNumber)
  | .none, _ =>
    if !name.isEmpty then return (← s.mapping.getItem (str name), numbering)
    match numbering with
    | .byNumber => .error bad
    | .unsettled => return (← s.value 0, .inTurn 1)
    | .inTurn next => return (← s.value next, .inTurn (next + 1))

def follow (d : Datum) : Step → Except Fault Datum
  | .malformed => .error bad
  | .property name =>
    match d.property? name with
    | some v => .ok v
    | .none => .error (.missingAttribute d.typeName name)
  | .item key => do
    match ← number? key with
    | some n => d.getItem (int n)
    | .none => d.getItem (str key)

def convert (conversion? : Option Char) (d : Datum) : Except Fault Datum :=
  match conversion? with
  | .none => .ok d
  | some 's' => do return str (← d.display)
  | some 'r' => do return str (← writtenBy literal d)
  | some 'a' => do return str (← writtenBy literalAscii d)
  | some _ => .error bad

/-- Fills the parts of a template; `expand` fills the fields within a format. -/
def fillPieces (expand : Numbering → List Char → Except Fault (String × Numbering)) (s : Source)
    (numbering : Numbering) (acc : String) : List Piece → Except Fault (String × Numbering)
  | [] => .ok (acc, numbering)
  | .plain c :: rest => fillPieces expand s numbering (acc.push c) rest
  | .malformed :: _ => .error bad
  | .field f :: rest => do
    let (d, numbering) ← s.pick numbering f.name
    let d ← f.path.foldlM follow d
    let d ← convert f.conversion? d
    let (spec, numbering) ←
      if f.spec.contains '\x7b' then expand numbering f.spec else pure (String.ofList f.spec, numbering)
    fillPieces expand s numbering (acc ++ (← d.format spec)) rest

/-- Fills a template, whose formats may hold templates down to a depth. -/
def fill (s : Source) : Nat → Numbering → List Char → Except Fault (String × Numbering)
  | 0, _, _ => .error bad
  | depth + 1, numbering, cs => fillPieces (fill s depth) s numbering "" (pieces cs)

end Fields

/-- A template with its fields replaced by values. A field may stand within the format of another. -/
def fillFields (template : String) (s : Fields.Source) : Except Fault String := do
  return (← Fields.fill s 2 .unsettled template.toList).1

end Scriptling.Datum
