import Scriptling.Datum.Convert
import Scriptling.Script.World
import Scriptling.Text.Case

/-!
# Native functions

The functions that a script library offers on numbers, texts, lists and files. Each takes a fixed number of
values (printing takes any) and acts on the world. Whatever goes wrong inside is told under the function's name.
-/

namespace Scriptling.Script

open Text
open String (ofList)

/-! ## Values: a payload under a tag -/

def tagOf : Datum → Except Fault Datum
  | .value t _ => .ok t
  | d => .error (.missingAttribute d.typeName "type")

def payloadOf : Datum → Except Fault Datum
  | .value _ p => .ok p
  | d => .error (.missingAttribute d.typeName "value")

def isTag (t : ValueTag) : Datum → Bool
  | .tag u => t == u
  | _ => false

/-- What stands for the truth of a value: a boolean's payload, nothing's falsehood, and truth for the rest. -/
def truthOf : Datum → Datum
  | .value (.tag .null) _ => .bool false
  | .value (.tag .boolean) p => p
  | _ => .bool true

def isTruthy (v : Datum) : Bool := (truthOf v).truthy

/-! ## Functions -/

inductive Native where
  | abs
  | min
  | max
  | pow
  | sqrt
  | floor
  | ceil
  | round
  | rand
  | randint
  | len
  | upper
  | lower
  | trim
  | split
  | join
  | contains
  | replace
  | push
  | pop
  | slice
  | map
  | filter
  | reduce
  | str
  | num
  | bool
  | list
  | print
  | input
  | readFile
  | writeFile
  deriving Repr, DecidableEq

namespace Native

/-- All native functions, in the order in which they are made known. -/
def all : List Native :=
  [abs, min, max, pow, sqrt, floor, ceil, round, rand, randint, len, upper, lower, trim, split, join,
   contains, replace, push, pop, slice, map, filter, reduce, str, num, bool, list, print, input, readFile, writeFile]

def name : Native → String
  | abs => "abs"
  | min => "min"
  | max => "max"
  | pow => "pow"
  | sqrt => "sqrt"
  | floor => "floor"
  | ceil => "ceil"
  | round => "round"
  | rand => "rand"
  | randint => "randint"
  | len => "len"
  | upper => "upper"
  | lower => "lower"
  | trim => "trim"
  | split => "split"
  | join => "join"
  | contains => "contains"
  | replace => "replace"
  | push => "push"
  | pop => "pop"
  | slice => "slice"
  | map => "map"
  | filter => "filter"
  | reduce => "reduce"
  | str => "str"
  | num => "num"
  | bool => "bool"
  | list => "list"
  | print => "print"
  | input => "input"
  | readFile => "read_file"
  | writeFile => "write_file"

def ofName? (s : String) : Option Native := all.find? (·.name == s)

/-- How many values a function takes; nothing if any number will do. -/
def arity : Native → Option Nat
  | rand | input => some 0
  | abs | sqrt | floor | ceil | round | len | upper | lower | trim | pop | str | num | bool | list
  | readFile => some 1
  | min | max | pow | randint | split | join | contains | push | map | filter | reduce
  | writeFile => some 2
  | replace | slice => some 3
  | print => none

end Native

/-- Why a native function refuses its arguments. -/
inductive Refusal where
  | fault (f : Fault)
  /-- The length of something that is neither a string nor a list. -/
  | noLength
  | firstNotList (native : Native)
  | notList (native : Native)
  /-- Something other than a list or string was to be cut. -/
  | notSequence
  /-- The second argument is no function of the script. -/
  | secondNotFunction (native : Native)
  | popEmpty
  | reduceEmpty
  | notNumber (text : String)
  deriving Repr, DecidableEq

def Refusal.message : Refusal → String
  | fault f => f.message
  | noLength => "Can only get length of strings and lists."
  | firstNotList n => s!"First argument to {n.name} must be a list."
  | notList n => s!"Argument to {n.name} must be a list."
  | notSequence => "First argument to slice must be a list or string."
  | secondNotFunction n => s!"Second argument to {n.name} must be a function."
  | popEmpty => "Cannot pop from an empty list."
  | reduceEmpty => "Cannot reduce an empty list."
  | notNumber text => s!"Cannot convert '{text}' to number"

/-- What a native function does: it changes the world and gives a value, or refuses. -/
abbrev Act (α : Type) : Type := ExceptT Refusal (StateM World) α

namespace Act

def lift {α : Type} : Except Fault α → Act α
  | .ok a => pure a
  | .error f => throw (.fault f)

/-- A value with its cells replaced by what they hold. -/
def frozen (d : Datum) : Act Datum := return (← get).store.freeze d

def contents (d : Datum) : Act Datum := return (← get).store.contents d

def payload (v : Datum) : Act Datum := lift (payloadOf v)

/-- The payload of a value, with its cells replaced by what they hold. -/
def frozenPayload (v : Datum) : Act Datum := do frozen (← payload v)

def textOf (p : Datum) : Act String := do lift (← frozen p).display

def hasTag (t : ValueTag) (v : Datum) : Act Bool := return isTag t (← lift (tagOf v))

def newList (xs : List Datum) : Act Datum := do
  let (d, store) := (← get).store.alloc (.list xs)
  modify fun w => { w with store }
  return .tagged .list d

def number (d : Datum) : Datum := .tagged .number d

def string (s : String) : Datum := .tagged .string (.str s)

def boolean (b : Bool) : Datum := .tagged .boolean (.bool b)

def whole (v : Datum) : Act Int := do lift (← frozenPayload v).toInt

/-- A payload that is a text, for the property of this name. -/
def textFor (property : String) (v : Datum) : Act String := do
  match ← frozenPayload v with
  | .str s => return s
  | d => throw (.fault (.missingAttribute d.typeName property))

/-- The name of a payload's type where nothing is called by its own name. -/
def argumentType : Datum → String
  | .none => "None"
  | d => d.typeName

def readLine : Act String := do
  let (r, console) := (← get).console.readLine
  modify fun w => { w with console }
  lift r

def print (s : String) : Act Unit := modify fun w => { w with console := w.console.print s }

def roll : Act Float := do
  match (← get).dice with
  | [] => return 0
  | x :: rest =>
    modify fun w => { w with dice := rest }
    return x

def path (v : Datum) : Act String := do
  match ← frozenPayload v with
  | .str s => return s
  | d => throw (.fault (.pathArgument d.typeName))

end Act

namespace Native

open Act

/-- The items of a list payload that are run through without any being handed to a function: nothing if there
are none. -/
def callEach (xs : List Datum) : Act Unit :=
  match xs with
  | [] => pure ()
  | _ :: _ => throw (.fault (.missingAttribute "Interpreter" "_call_function"))

/-- The checks that the functions with a function argument share. -/
def checkCallback (n : Native) (xs f : Datum) : Act Unit := do
  unless ← hasTag .list xs do throw (.firstNotList n)
  unless ← hasTag .function f do throw (.secondNotFunction n)

def itemsOf [Size.Room] (p : Datum) : Act (List Datum) := do lift (← contents p).items

def cut (p : Datum) (start stop : Int) : Act Datum := do
  match ← contents p with
  | .list xs =>
    let (d, store) := (← get).store.alloc (.list (Datum.slice xs start stop))
    modify fun w => { w with store }
    return d
  | .tuple xs => return .tuple (Datum.slice xs start stop)
  | .str s => return .str (ofList (Datum.slice s.toList start stop))
  | .bytes bs => return .bytes (Datum.slice bs start stop)
  | .range a b c =>
    let n := Datum.rangeLength a b c
    return Datum.rangePart a c (Datum.cutPlace n start) (Datum.cutPlace n stop)
  | .dict _ => throw (.fault (.unhashable "slice"))
  | .cls name => throw (.fault (.classNotSubscriptable name))
  | d => throw (.fault (.notSubscriptable d.typeName))

/-- The first item of a payload that is not empty, and how many follow. -/
def firstOf (p : Datum) : Act (Datum × List Datum) := do
  match ← contents p with
  | .list (x :: xs) | .tuple (x :: xs) => return (x, xs)
  | .str s =>
    match s.toList with
    | c :: cs => return (.ofChar c, cs.map Datum.ofChar)
    | [] => throw (.fault (.plain .badIndex))
  | d => throw (.fault (.notSubscriptable d.typeName))

/-- What a function does with its arguments, of which there are as many as it takes. -/
def act [Size.Room] : Native → List Datum → Act Datum
  | abs, [x] => do return number (← lift (← frozenPayload x).absolute)
  | min, [x, y] => do
    let p ← payload x
    let q ← payload y
    return number (if ← lift (Datum.relate .less (← frozen q) (← frozen p)) then q else p)
  | max, [x, y] => do
    let p ← payload x
    let q ← payload y
    return number (if ← lift (Datum.relate .greater (← frozen q) (← frozen p)) then q else p)
  | pow, [x, y] => do
    let p ← frozenPayload x
    let q ← frozenPayload y
    return number (← lift (Datum.operate .pow p q))
  | sqrt, [x] => do return number (← lift (Datum.operate .pow (← frozenPayload x) (.float 0.5)))
  | floor, [x] => do
    let q ← lift (Datum.operate .floorDiv (← frozenPayload x) (.int 1))
    return number (.int (← lift q.toInt))
  | ceil, [x] => do
    let m ← lift (← frozenPayload x).negate
    let q ← lift (Datum.operate .floorDiv m (.int 1))
    return number (.int (← lift (← lift q.negate).toInt))
  | round, [x] => do return number (← lift (← frozenPayload x).roundWhole)
  | rand, [] => do return number (.float (← roll))
  | randint, [x, y] => do
    let a ← whole x
    let b ← whole y
    if b < a then throw (.fault (.emptyRandomRange a (b + 1) (b + 1 - a)))
    let x ← roll
    let offset := (Number.floor? (x * Number.floatOfInt (b + 1 - a))).getD 0
    return number (.int (Min.min b (a + offset)))
  | len, [x] => do
    if (← hasTag .string x) || (← hasTag .list x) then
      return number (.int (← lift (← frozenPayload x).length))
    else throw .noLength
  | upper, [x] => do return string (Text.upper (← textFor "upper" x))
  | lower, [x] => do return string (Text.lower (← textFor "lower" x))
  | trim, [x] => do
    let s ← textFor "strip" x
    return string (ofList (trimBy isBlank s.toList))
  | split, [x, y] => do
    let s ← textFor "split" x
    match ← frozenPayload y with
    | .none => newList ((wordsBy isBlank [] s.toList).map (string ∘ ofList))
    | .str "" => throw (.fault .emptySeparator)
    | .str sep => newList ((splitOn sep.toList s.toList).map (string ∘ ofList))
    | d => throw (.fault (.separatorType d.typeName))
  | join, [x, y] => do
    unless ← hasTag .list x do throw (.firstNotList .join)
    let sep ← textFor "join" y
    let items ← itemsOf (← payload x)
    let texts ← items.mapM fun item => do textOf (← payload item)
    return string (ofList (joinWith sep.toList (texts.map String.toList)))
  | contains, [x, y] => do
    let q ← frozenPayload y
    return boolean (← lift (Datum.contains (← frozenPayload x) q))
  | replace, [x, y, z] => do
    let s ← textFor "replace" x
    match ← frozenPayload y, ← frozenPayload z with
    | .str old, .str new =>
      return string (ofList (replaceAll old.toList new.toList s.toList))
    | .str _, d => throw (.fault (.replaceArgument 2 (argumentType d)))
    | d, _ => throw (.fault (.replaceArgument 1 (argumentType d)))
  | push, [x, y] => do
    unless ← hasTag .list x do throw (.firstNotList .push)
    let p ← payload x
    match p, ← contents p with
    | .cell id, .list xs =>
      modify fun w => { w with store := w.store.setIfInBounds id (.list (xs ++ [y])) }
      return x
    | _, d => throw (.fault (.missingAttribute d.typeName "append"))
  | pop, [x] => do
    unless ← hasTag .list x do throw (.notList .pop)
    let p ← payload x
    let d ← contents p
    unless d.truthy do throw .popEmpty
    match p, d with
    | .cell id, .list xs =>
      modify fun w => { w with store := w.store.setIfInBounds id (.list xs.dropLast) }
      return xs.getLastD .none
    | _, d => throw (.fault (.missingAttribute d.typeName "pop"))
  | slice, [x, y, z] => do
    let t ← lift (tagOf x)
    unless isTag .list t || isTag .string t do throw .notSequence
    let start ← whole y
    let stop ← whole z
    return .tagged (if isTag .list t then .list else .string) (← cut (← payload x) start stop)
  | map, [x, f] => do
    checkCallback .map x f
    callEach (← itemsOf (← payload x))
    newList []
  | filter, [x, f] => do
    checkCallback .filter x f
    callEach (← itemsOf (← payload x))
    newList []
  | reduce, [x, f] => do
    checkCallback .reduce x f
    let p ← payload x
    unless (← contents p).truthy do throw .reduceEmpty
    let (first, rest) ← firstOf p
    callEach rest
    return first
  | str, [x] => do return string (← textOf (← payload x))
  | num, [x] => do
    match (← frozenPayload x).toFloat with
    | .ok v => return number (.float v)
    | .error f =>
      if f.kind = .wrongValue then throw (.notNumber (← textOf (← payload x))) else throw (.fault f)
  | bool, [x] => do
    match ← lift (tagOf x) with
    | .tag .boolean => return x
    | .tag .number | .tag .string | .tag .list => return boolean (← frozenPayload x).truthy
    | _ => return boolean false
  | list, [x] => do
    match ← lift (tagOf x) with
    | .tag .list => return x
    | .tag .string => newList ((← itemsOf (← payload x)).map (Datum.tagged .string))
    | _ => newList [x]
  | print, xs => do
    let texts ← xs.mapM fun x => do textOf (← payload x)
    Act.print (" ".intercalate texts ++ "\n")
    return .null
  | input, [] => do return string (← readLine)
  | readFile, [x] => do
    let shown ← path x
    return string (← lift ((← get).files.read shown))
  | writeFile, [x, y] => do
    let shown ← path x
    let files ← lift ((← get).files.write shown "")
    modify fun w => { w with files }
    match ← frozenPayload y with
    | .str s =>
      let files ← lift ((← get).files.write shown s)
      modify fun w => { w with files }
      return .null
    | d => throw (.fault (.writeArgument (argumentType d)))
  | _, _ => throw (.fault (.plain .wrongType))

end Native

end Scriptling.Script
