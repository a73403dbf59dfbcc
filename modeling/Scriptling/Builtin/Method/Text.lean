import Scriptling.Builtin.Method.Letters
import Scriptling.Datum.Encoding
import Scriptling.Datum.Fields

/-!
# Methods of texts

The methods of texts: those that they share with bytes, comparison forms, templates with fields, tables of
replacements for characters, and encoding.
-/

namespace Scriptling.Builtin

open Act

def textArg (d : Datum) : Act String :=
  match d with
  | .str s => return s
  | _ => wrongType

def charsArg (d : Datum) : Act (List Char) := return (← textArg d).toList

def ofChars (cs : List Char) : Datum := .str (String.ofList cs)

/-- Texts, as the methods see them that they share with bytes. -/
def textMedium : Medium := ⟨.unicode, charsArg, charsArg, fun cs => return ofChars cs⟩

/-- What a table says of a character: characters in its place, or nothing about it. -/
def replacement? [Size.Room] (table : Datum) (c : Char) : Except Fault (Option (List Char)) :=
  match table.getItem (.int c.toNat) with
  | .error f => if f.kind == .missingKey || f.kind == .badIndex then .ok none else .error f
  | .ok .none => .ok (some [])
  | .ok (.str s) => .ok (some s.toList)
  | .ok d =>
    match d.int? with
    | some n => if 0 ≤ n ∧ n < 0x110000 then .ok (some [Char.ofNat n.toNat]) else .error (.plain .wrongValue)
    | none => .error (.plain .wrongType)

/-- A text with its characters replaced by what a table says. -/
def replaceChars [Size.Room] (table : Datum) (cs : List Char) : Except Fault (List Char) := do
  return (← cs.mapM fun c => do return (← replacement? table c).getD [c]).flatten

/-- The number of a character as a key of a table. -/
def tableKey (d : Datum) : Act Datum := do
  match d with
  | .str s =>
    match s.toList with
    | [c] => return .int c.toNat
    | _ => wrongValue
  | d => if d.int?.isSome then return d else wrongType

/-- A table of replacements, from a dictionary, or from characters, those in their place, and those that are left
out. -/
def makeTable (b : Bound) : Act Datum := do
  match b.given? 1 with
  | none =>
    match ← look (b.value 0) with
    | .dict entries =>
      let entries ← entries.foldlM (fun es (k, v) => do return Datum.insertEntry (← tableKey k) v es) []
      make (.dict entries)
    | _ => wrongType
  | some new =>
    let old ← charsArg (b.value 0)
    let new ← charsArg new
    if old.length ≠ new.length then wrongValue
    let gone ← match b.given? 2 with
      | none => pure []
      | some d => charsArg d
    let number (c : Char) : Datum := .int c.toNat
    let pairs := (old.zip new).map (fun (c, d) => (number c, number d)) ++ gone.map fun c => (number c, .none)
    make (.dict (pairs.foldl (fun es (k, v) => Datum.insertEntry k v es) []))

def encodingArg (d : Datum) : Act Encoding := do
  let name ← textArg d
  if name.toList.contains '\x00' then wrongValue
  match Encoding.ofName? name with
  | some e => return e
  | none => fail Encoding.unknown

def encodingParameters : List Parameter := [defaulting "encoding" (.str "utf-8"), defaulting "errors" (.str "strict")]

def textMethods [Size.Room] : Library := textMedium.methods ++ [
  ("casefold", textMedium.mapping fun cs => cs.flatMap Text.foldChars),
  ("isdecimal", textMedium.testingAll Text.isDecimal),
  ("isnumeric", textMedium.testingAll Text.isNumeral),
  ("isidentifier", textMedium.testing Text.isIdentifier),
  ("isprintable", textMedium.testing fun cs => cs.all Text.isPrintable),
  ("format", methodOfMany fun _ b => do
    let template ← textArg (b.value 0)
    let values ← b.rest.mapM deep
    return .str (← lift (Datum.fillFields template ⟨some values, .dict []⟩))),
  ("format_map", method [required "mapping"] fun _ b => do
    let template ← textArg (b.value 0)
    return .str (← lift (Datum.fillFields template ⟨none, ← deep (b.value 1)⟩))),
  ("translate", method [required "table"] fun _ b => do
    return ofChars (← lift (replaceChars (← deep (b.value 1)) (← charsArg (b.value 0))))),
  ("encode", method encodingParameters fun _ b => do
    let cs ← charsArg (b.value 0)
    let errors ← textArg (b.value 2)
    let encoding ← encodingArg (b.value 1)
    return .bytes (← lift (encoding.encode errors cs)))]

def textClassMethods : Library := [
  ("maketrans", ⟨.inOrder [required "x", optional "y", optional "z"], fun _ b => makeTable b⟩)]

end Scriptling.Builtin
