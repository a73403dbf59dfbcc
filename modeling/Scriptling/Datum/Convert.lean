import Scriptling.Datum.Collection
import Scriptling.Datum.Arithmetic

/-!
# Conversion of data

Making whole numbers, floats, lists, sets and dictionaries out of other values.
-/

namespace Scriptling.Datum

open Number

/-- The fault of a text that does not read as a whole number in a base: it has too many digits, or it is none. -/
def unreadable (base : Nat) (text shown : String) : Fault :=
  match surplusDigits? base text with
  | some n => .tooManyDigits (some n)
  | .none => .intLiteral base shown

def readWhole (base : Nat) (text shown : String) : Except Fault Int :=
  match readInt? base text with
  | some n => .ok n
  | .none => .error (unreadable base text shown)

/-- A value as a whole number: floats lose their fraction, texts are read. -/
def toInt (d : Datum) : Except Fault Int :=
  match d with
  | bool b => .ok (if b then 1 else 0)
  | int n => .ok n
  | float x => wholeBy truncate? x
  | str s => readWhole 10 s d.literal
  | bytes bs | byteArray bs => readWhole 10 (String.ofList (bs.map Char.ofNat)) (literal (bytes bs))
  | d => .error (.intArgument d.typeName)

def textToInt (s : String) (base : Int) : Except Fault Int :=
  if base = 0 ∨ (2 ≤ base ∧ base ≤ 36) then readWhole base.toNat s (Text.quoted s)
  else .error (.plain .wrongValue)

def toFloat (d : Datum) : Except Fault Float :=
  match d with
  | bool b => .ok (if b then 1 else 0)
  | int n => floatOfInt n
  | float x => .ok x
  | str s =>
    match readFloat? s with
    | some x => .ok x
    | .none => .error (.floatLiteral d.literal)
  | bytes bs | byteArray bs =>
    match readFloat? (String.ofList (bs.map Char.ofNat)) with
    | some x => .ok x
    | .none => .error (.floatLiteral d.literal)
  | d => .error (.floatArgument d.typeName)

/-- A dictionary from the entries of another, or from pairs. -/
def toEntries [Size.Room] (d : Datum) : Except Fault (List (Datum × Datum)) :=
  match d with
  | dict entries => .ok entries
  | d => do
    let pairs ← d.items
    pairs.foldlM (fun acc pair => do
      match ← pair.items with
      | [k, v] => if k.isHashable then return insertEntry k v acc else throw (.plain .wrongType)
      | _ => throw (.plain .wrongValue)) []

end Scriptling.Datum
