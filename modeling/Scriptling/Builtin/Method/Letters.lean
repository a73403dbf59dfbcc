import Scriptling.Builtin.Method.Basic
import Scriptling.Text.Alphabet
import Scriptling.Text.Cut

/-!
# Methods of texts and bytes

The methods that texts and bytes share. Both are lists of characters to them, a byte being the character of its
number; a medium says how a value is read as characters, and what value they make.
-/

namespace Scriptling.Builtin

open Act Text

/-- How values are read as characters and made of them. -/
structure Medium where
  alphabet : Text.Alphabet
  /-- The characters of a value; others are of the wrong type. -/
  read : Datum → Act (List Char)
  /-- The characters of something that is searched for. -/
  sought : Datum → Act (List Char)
  write : List Char → Act Datum

namespace Medium

/-- The characters of the value that a method belongs to. -/
def self (m : Medium) (b : Bound) : Act (List Char) := m.read (b.value 0)

/-- A list of the values that several lists of characters make. -/
def writeAll (m : Medium) (parts : List (List Char)) : Act Datum := do make (.list (← parts.mapM m.write))

def mapping (m : Medium) (f : List Char → List Char) : Routine := method [] fun _ b => do m.write (f (← m.self b))

def testing (m : Medium) (p : List Char → Bool) : Routine := method [] fun _ b => return .bool (p (← m.self b))

/-- A method that tests whether there are characters and all of them belong to a class. -/
def testingAll (m : Medium) (p : Char → Bool) : Routine := m.testing fun cs => !cs.isEmpty && cs.all p

/-- A method that takes characters off the ends: blanks, or those that are given. -/
def trimming (m : Medium) (trim : (Char → Bool) → List Char → List Char) : Routine :=
  method [orNothing "chars"] fun _ b => do
    let cs ← m.self b
    match b.value 1 with
    | .none => m.write (trim m.alphabet.isBlank cs)
    | d =>
      let chars ← m.read d
      m.write (trim (chars.contains ·) cs)

/-- A method that cuts at a separator, or at blanks if none is given, no more often than a limit says: counted from the
left or from the right. -/
def splitting (m : Medium) (leftFirst : Bool) : Routine :=
  method [orNothing "sep", defaulting "maxsplit" (.int (-1))] fun _ b => do
    let cs ← m.self b
    let limit := (← limitArg (b.value 2)).getD cs.length
    match b.value 1 with
    | .none =>
      let cut := wordsUpTo m.alphabet.isBlank (min limit cs.length)
      m.writeAll (if leftFirst then cut cs else fromRight cut cs)
    | d =>
      let sep ← m.read d
      if sep.isEmpty then wrongValue
      m.writeAll (if leftFirst then splitUpTo sep limit cs
        else fromRight (splitUpTo sep.reverse limit) cs)

def searchParameters : List Parameter := [required "sub", orNothing "start", orNothing "end"]

/-- The characters between the two cuts of a search, and the place where they begin. -/
def window? (m : Medium) (b : Bound) : Act (Option (Nat × List Char)) := do
  let cs ← m.self b
  let start ← cutArg 0 (b.value 2)
  let stop ← cutArg cs.length (b.value 3)
  return (between? cs.length start stop).map fun (first, n) => (first, (cs.drop first).take n)

/-- A method that gives the place of a part, by a way of searching; `missing` is done where it does not occur. -/
def placing (m : Medium) (missing : Act Datum) (search : List Char → List Char → Option Nat) : Routine :=
  method searchParameters fun _ b => do
    let window? ← m.window? b
    let part ← m.sought (b.value 1)
    match window?.bind fun (first, cs) => (search part cs).map (first + ·) with
    | some i => return .int i
    | none => missing

/-- A method that counts how often a part occurs between two cuts. -/
def counting (m : Medium) : Routine :=
  method searchParameters fun _ b => do
    let window? ← m.window? b
    let part ← m.sought (b.value 1)
    return .int (window?.elim 0 fun (_, cs) => occurrences part cs)

/-- Whether one of several values passes a test; those after it are not looked at. -/
def anyOf (m : Medium) (test : List Char → Bool) : List Datum → Act Bool
  | [] => return false
  | d :: ds => do
    if test (← m.read d) then return true else m.anyOf test ds

/-- A method that tests whether a part, or one of several, stands at an end. -/
def ending (m : Medium) (test : List Char → List Char → Bool) : Routine :=
  method [required "part", orNothing "start", orNothing "end"] fun _ b => do
    let window? ← m.window? b
    let parts := match b.value 1 with
      | .tuple parts => parts
      | d => [d]
    return .bool (← m.anyOf (fun part => window?.any fun (_, cs) => test part cs) parts)

/-- A method that puts characters into a field of a width; `left` tells how many of the missing characters stand on
the left. -/
def padding [Size.Room] (m : Medium) (left : Nat → Nat → Nat) : Routine :=
  method [required "width", optional "fillchar"] fun _ b => do
    let cs ← m.self b
    let width ← wordArg (b.value 1)
    let fill ← match b.given? 2 with
      | none => pure ' '
      | some d =>
        match ← m.read d with
        | [c] => pure c
        | _ => wrongType
    let margin := width.toNat - cs.length
    let _ ← lift (Size.chars margin)
    let left := left width.toNat margin
    m.write (padded left (margin - left) fill cs)

/-- A method that cuts around an occurrence of a separator; `whole` is the answer where it does not occur. -/
def partitioning (m : Medium) (search : List Char → List Char → Option Nat)
    (whole : List Char → List Char × List Char × List Char) : Routine :=
  method [required "sep"] fun _ b => do
    let cs ← m.self b
    let sep ← m.read (b.value 1)
    if sep.isEmpty then wrongValue
    let (before, sep, after) := match search sep cs with
      | some i => around sep.length cs i
      | none => whole cs
    return .tuple [← m.write before, ← m.write sep, ← m.write after]

def join [Size.Room] (m : Medium) (sep : List Char) (d : Datum) : Act Datum := do
  let parts ← (← items d).mapM m.read
  m.write (joinWith sep parts)

def methods [Size.Room] (m : Medium) : Library := [
  ("upper", m.mapping m.alphabet.upper),
  ("lower", m.mapping m.alphabet.lower),
  ("title", m.mapping m.alphabet.title),
  ("capitalize", m.mapping m.alphabet.capitalize),
  ("swapcase", m.mapping m.alphabet.swapCase),
  ("strip", m.trimming trimBy),
  ("lstrip", m.trimming fun p cs => cs.dropWhile p),
  ("rstrip", m.trimming fun p cs => (cs.reverse.dropWhile p).reverse),
  ("split", m.splitting true),
  ("rsplit", m.splitting false),
  ("splitlines", method [defaulting "keepends" (.bool false)] fun _ b => do
    let keepEnds := (← shortArg (b.value 1)) != 0
    m.writeAll (m.alphabet.lines keepEnds (← m.self b))),
  ("join", method [required "iterable"] fun _ b => do m.join (← m.self b) (b.value 1)),
  ("replace", method [required "old", required "new", defaulting "count" (.int (-1))] fun _ b => do
    let cs ← m.self b
    let old ← m.read (b.value 1)
    let new ← m.read (b.value 2)
    let limit := (← limitArg (b.value 3)).getD (cs.length + 1)
    m.write (replaceUpTo limit old new cs)),
  ("startswith", m.ending fun part cs => part.isPrefixOf cs),
  ("endswith", m.ending fun part cs => part.isSuffixOf cs),
  ("find", m.placing (return .int (-1)) indexOf?),
  ("rfind", m.placing (return .int (-1)) lastIndexOf?),
  ("index", m.placing wrongValue indexOf?),
  ("rindex", m.placing wrongValue lastIndexOf?),
  ("count", m.counting),
  ("partition", m.partitioning indexOf? fun cs => (cs, [], [])),
  ("rpartition", m.partitioning lastIndexOf? fun cs => ([], [], cs)),
  ("removeprefix", method [required "prefix"] fun _ b => do
    let cs ← m.self b
    let part ← m.read (b.value 1)
    m.write (if part.isPrefixOf cs then cs.drop part.length else cs)),
  ("removesuffix", method [required "suffix"] fun _ b => do
    let cs ← m.self b
    let part ← m.read (b.value 1)
    m.write (if part.isSuffixOf cs then cs.take (cs.length - part.length) else cs)),
  ("ljust", m.padding fun _ _ => 0),
  ("rjust", m.padding fun _ margin => margin),
  ("center", m.padding leftMargin),
  ("zfill", method [required "width"] fun _ b => do
    let cs ← m.self b
    let zeros := (← wordArg (b.value 1)).toNat - cs.length
    let _ ← lift (Size.chars zeros)
    m.write (zeroFilled zeros cs)),
  ("expandtabs", method [defaulting "tabsize" (.int 8)] fun _ b => do
    let cs ← m.self b
    let size := (← shortArg (b.value 1)).toNat
    let _ ← lift (Size.chars (expandedLength size 0 cs))
    m.write (expandTabs size 0 cs)),
  ("isdigit", m.testingAll m.alphabet.isDigit),
  ("isalpha", m.testingAll m.alphabet.isLetter),
  ("isalnum", m.testingAll m.alphabet.isAlphanumeric),
  ("isspace", m.testingAll m.alphabet.isBlank),
  ("islower", m.testing m.alphabet.allSmall),
  ("isupper", m.testing m.alphabet.allCapital),
  ("istitle", m.testing m.alphabet.isTitled),
  ("isascii", m.testing fun cs => cs.all fun c => decide (c.toNat < 0x80))]

end Medium

end Scriptling.Builtin
