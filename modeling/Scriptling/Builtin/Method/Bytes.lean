import Scriptling.Builtin.Method.Text

/-!
# Methods of bytes

The methods of bytes, those that may change included: those that they share with texts, hexadecimal digits, tables
of replacements, and decoding.
-/

namespace Scriptling.Builtin

open Act

def bytesArg (d : Datum) : Act (List Nat) := do
  match ← look d with
  | .bytes bs | .byteArray bs => return bs
  | _ => wrongType

def bytesOrByte (d : Datum) : Act (List Nat) := do
  match d.int? with
  | some _ => return [← byte d]
  | none => bytesArg d

def bytesAsChars (bs : List Nat) : List Char := bs.map Char.ofNat

/-- Bytes, as the methods see them that they share with texts. -/
def bytesMedium (write : List Nat → Act Datum) : Medium where
  alphabet := .ascii
  read := fun d => return bytesAsChars (← bytesArg d)
  sought := fun d => return bytesAsChars (← bytesOrByte d)
  write := fun cs => write (cs.map Char.toNat)

/-- Groups of `size` things from the left. The fuel is their number. -/
def chunks {α : Type} (size : Nat) : Nat → List α → List (List α)
  | 0, _ => []
  | fuel + 1, xs => if xs.isEmpty then [] else xs.take size :: chunks size fuel (xs.drop size)

/-- Bytes in hexadecimal digits, with a separator between groups of them: counted from the right if the number is
positive, and from the left if it is negative. -/
def hexText (sep? : Option Char) (group : Int) (bs : List Nat) : List Char :=
  let pairs := bs.map (Text.hexDigits 2)
  match sep? with
  | none => pairs.flatten
  | some sep =>
    if group = 0 then pairs.flatten
    else
      let groups :=
        if group < 0 then chunks group.natAbs pairs.length pairs
        else ((chunks group.natAbs pairs.length pairs.reverse).map List.reverse).reverse
      Text.joinWith [sep] (groups.map List.flatten)

/-- A separator of hexadecimal digits: one character of ASCII, as a text or as bytes. -/
def hexSeparator (d : Datum) : Act Char := do
  let cs ← match d with
    | .str s => pure s.toList
    | .bytes bs => pure (bytesAsChars bs)
    | _ => wrongType
  match cs with
  | [c] => if c.toNat < 0x80 then return c else wrongValue
  | _ => wrongValue

def hexValue? (c : Char) : Option Nat :=
  if c.isDigit then some (c.toNat - 48)
  else if 'a' ≤ c ∧ c ≤ 'f' then some (c.toNat - 87)
  else if 'A' ≤ c ∧ c ≤ 'F' then some (c.toNat - 55)
  else none

/-- Bytes from hexadecimal digits, with blanks between bytes but not within. -/
def ofHex : List Char → Option (List Nat)
  | [] => some []
  | c :: cs =>
    if Text.Alphabet.ascii.isBlank c then ofHex cs
    else match cs with
      | [] => none
      | d :: rest => do
        let high ← hexValue? c
        let low ← hexValue? d
        return (16 * high + low) :: (← ofHex rest)

/-- Bytes with some left out and the others replaced by what a table of 256 bytes says. -/
def replaceBytes (table? : Option (List Nat)) (gone bs : List Nat) : List Nat :=
  let kept := bs.filter fun b => !gone.contains b
  match table? with
  | none => kept
  | some table => kept.map fun b => table.getD b b

def bytesMethodsBy [Size.Room] (write : List Nat → Act Datum) : Library := (bytesMedium write).methods ++ [
  ("hex", method [optional "sep", defaulting "bytes_per_sep" (.int 1)] fun _ b => do
    let bs ← bytesArg (b.value 0)
    let group ← shortArg (b.value 2)
    let sep? ← (b.given? 1).mapM hexSeparator
    return ofChars (hexText sep? group bs)),
  ("decode", method encodingParameters fun _ b => do
    let bs ← bytesArg (b.value 0)
    let errors ← textArg (b.value 2)
    let name ← textArg (b.value 1)
    if bs.isEmpty then return .str ""
    let encoding ← encodingArg (.str name)
    return ofChars (← lift (encoding.decode errors bs))),
  ("translate", method [required "table", defaulting "delete" (.bytes [])] fun _ b => do
    let bs ← bytesArg (b.value 0)
    let table? ← match b.value 1 with
      | .none => pure none
      | d => some <$> bytesArg d
    if table?.any (·.length != 256) then wrongValue
    write (replaceBytes table? (← bytesArg (b.value 2)) bs))]

def bytesMethods [Size.Room] : Library := bytesMethodsBy fun bs => return .bytes bs

def bytesClassMethods (write : List Nat → Act Datum) : Library := [
  ("fromhex", ⟨unnamed ["string"], fun _ b => do
    match ofHex (← charsArg (b.value 0)) with
    | some bs => write bs
    | none => wrongValue⟩),
  ("maketrans", ⟨unnamed ["frm", "to"], fun _ b => do
    let old ← bytesArg (b.value 0)
    let new ← bytesArg (b.value 1)
    if old.length ≠ new.length then wrongValue
    return .bytes ((old.zip new).foldl (fun table (x, y) => table.set x y) (List.range 256))⟩)]

/-- The bytes of the value that a method belongs to. -/
def selfBytes (b : Bound) : Act (List Nat) := bytesArg (b.value 0)

def byteArrayMethods [Size.Room] : Library := bytesMethodsBy (fun bs => make (.byteArray bs)) ++ [
  ("append", method [required "item"] fun _ b => do
    let x ← byte (b.value 1)
    become b (.byteArray ((← selfBytes b) ++ [x]))),
  ("extend", method [required "iterable_of_ints"] fun _ b => do
    let new ← bytesOf (← look (b.value 1))
    become b (.byteArray ((← selfBytes b) ++ new))),
  ("insert", method [required "index", required "item"] fun _ b => do
    let bs ← selfBytes b
    let i := Datum.cutPlace bs.length (← wordArg (b.value 1))
    let x ← byte (b.value 2)
    become b (.byteArray (bs.take i ++ x :: bs.drop i))),
  ("pop", method [defaulting "index" (.int (-1))] fun _ b => do
    let bs ← selfBytes b
    match Datum.place? bs.length (← wordArg (b.value 1)) with
    | some i =>
      let _ ← become b (.byteArray (bs.eraseIdx i))
      return .int (bs.getD i 0)
    | none => failPlain .badIndex),
  ("remove", method [required "value"] fun _ b => do
    let bs ← selfBytes b
    let x ← byte (b.value 1)
    if bs.contains x then become b (.byteArray (bs.erase x)) else wrongValue),
  ("reverse", method [] fun _ b => do become b (.byteArray (← selfBytes b).reverse)),
  ("clear", method [] fun _ b => become b (.byteArray [])),
  ("copy", method [] fun _ b => do make (.byteArray (← selfBytes b)))]

end Scriptling.Builtin
