import Scriptling.Datum.Convert

/-!
# Formats

A format says how a value is laid out in a field: fill and alignment, sign, alternate form, width, digit
groups, precision and type. A format is read from its text, and then applied to numbers and texts; other
values take only the empty format.
-/

namespace Scriptling.Datum

open Number

variable [Size.Room]

inductive Align where
  | left
  | right
  | center
  /-- The fill stands between the sign and the digits. -/
  | afterSign
  deriving Repr, DecidableEq

/-- What stands before a number that is not negative. -/
inductive SignRule where
  | unsaid
  | nothing
  | plus
  | blank
  deriving Repr, DecidableEq

/-- A format that has been read. -/
structure Format where
  fill : Char
  align? : Option Align
  sign : SignRule
  /-- A negative number that is written as zero loses its sign. -/
  plainZero : Bool
  /-- A base mark, or a point that is always written. -/
  alternate : Bool
  width : Nat
  group? : Option Char
  /-- The number of digits, or the greatest length of a text. -/
  precision? : Option Nat
  type? : Option Char
  deriving Repr, DecidableEq

namespace Format

/-- The fault of a format that cannot be read or does not suit its value. -/
def bad : Fault := .plain .wrongValue

def alignOf? : Char → Option Align
  | '<' => some .left
  | '>' => some .right
  | '^' => some .center
  | '=' => some .afterSign
  | _ => .none

/-- Splits fill and alignment off a format's text. -/
def readAlign : List Char → Option Char × Option Align × List Char
  | c :: a :: rest =>
    match alignOf? a, alignOf? c with
    | some al, _ => (some c, some al, rest)
    | .none, some al => (.none, some al, a :: rest)
    | .none, .none => (.none, .none, c :: a :: rest)
  | [a] =>
    match alignOf? a with
    | some al => (.none, some al, [])
    | .none => (.none, .none, [a])
  | [] => (.none, .none, [])

def readSign : List Char → SignRule × List Char
  | '+' :: rest => (.plus, rest)
  | '-' :: rest => (.nothing, rest)
  | ' ' :: rest => (.blank, rest)
  | rest => (.unsaid, rest)

def readFlag (c : Char) : List Char → Bool × List Char
  | d :: rest => if c == d then (true, rest) else (false, d :: rest)
  | [] => (false, [])

def readNumber (cs : List Char) : Option Nat × List Char :=
  let ds := cs.takeWhile Text.isDecimal
  let n := ds.foldl (fun n c => 10 * n + (Text.decimalValue? c).getD 0) 0
  (if ds.isEmpty then .none else some n, cs.dropWhile Text.isDecimal)

/-- Splits the group mark off; two marks are one too many. -/
def readGroup (cs : List Char) : Except Fault (Option Char × List Char) :=
  match readFlag ',' cs with
  | (true, rest) => if rest.head? == some '_' then .error bad else .ok (some ',', rest)
  | (false, rest) =>
    match readFlag '_' rest with
    | (true, rest) => if rest.head? == some ',' then .error bad else .ok (some '_', rest)
    | (false, rest) => .ok (.none, rest)

/-- Splits the precision off; its point needs a number. -/
def readPrecision (cs : List Char) : Except Fault (Option Nat × List Char) :=
  match readFlag '.' cs with
  | (false, rest) => .ok (.none, rest)
  | (true, rest) =>
    match readNumber rest with
    | (some n, rest) => .ok (some n, rest)
    | (.none, _) => .error bad

def groupTypes (mark : Char) : List Char :=
  ['d', 'e', 'f', 'g', 'E', 'G', 'F', '%'] ++ if mark == '_' then ['b', 'o', 'x', 'X'] else []

/-- Reads a format. `zeroAligns` says that a zero before the width puts the fill after the sign, as it does
for numbers. -/
def read (zeroAligns : Bool) (text : String) : Except Fault Format := do
  let (fill?, align?, cs) := readAlign text.toList
  let (sign, cs) := readSign cs
  let (plainZero, cs) := readFlag 'z' cs
  let (alternate, cs) := readFlag '#' cs
  let (zero, cs) := if fill?.isSome then (false, cs) else readFlag '0' cs
  let align? := if zero && align?.isNone && zeroAligns then some .afterSign else align?
  let (width?, cs) := readNumber cs
  let (group?, cs) ← readGroup cs
  let (precision?, cs) ← readPrecision cs
  if max (width?.getD 0) (precision?.getD 0) > Size.maxCount then throw bad
  let type? ← match cs with
    | [] => .ok .none
    | [c] => .ok (some c)
    | _ => .error bad
  if let (some mark, some t) := (group?, type?) then
    if !(groupTypes mark).contains t then throw bad
  return ⟨fill?.getD (if zero then '0' else ' '), align?, sign, plainZero, alternate, width?.getD 0, group?,
    precision?, type?⟩

def pad (f : Format) (default : Align) (text : List Char) : List Char :=
  let missing := f.width - text.length
  let fill (n : Nat) := List.replicate n f.fill
  match f.align?.getD default with
  | .left => text ++ fill missing
  | .center => fill (missing / 2) ++ text ++ fill (missing - missing / 2)
  | .right | .afterSign => fill missing ++ text

/-- Digits, given from the last one on, with a mark between groups of `size`, and with zeros before them until
`least` characters are there; no mark comes first. The answer is from the first digit on. -/
def groupFrom (mark : Char) (size : Nat) : Nat → Nat → List Char → List Char → List Char
  | 0, _, _, acc => acc
  | fuel + 1, least, ds, acc =>
    let n := min size (max (max ds.length least) 1)
    let chunk := (ds.take n).reverse
    let chunk := zeros (n - chunk.length) ++ chunk
    let rest := ds.drop n
    if rest.isEmpty && least ≤ n then chunk ++ acc
    else groupFrom mark size fuel (least - n - 1) rest (mark :: (chunk ++ acc))

/-- Digits with group marks, or zeros before them, to a least length. -/
def grouped (mark? : Option Char) (size least : Nat) (ds : List Char) : List Char :=
  if ds.isEmpty then [] else
  match mark? with
  | some mark => groupFrom mark size (ds.length + least + 1) least ds.reverse []
  | .none => zeros (least - ds.length) ++ ds

/-- A number in its field: its sign, its base mark, its digits and what follows them. -/
def number (f : Format) (negative : Bool) (mark digits rest : List Char) (groupSize : Nat) : String :=
  let sign : List Char :=
    if negative then ['-'] else match f.sign with
      | .unsaid | .nothing => []
      | .plus => ['+']
      | .blank => [' ']
  let fixed := sign.length + mark.length + rest.length
  let zeroFilled := f.fill == '0' && f.align? == some .afterSign
  let digits := grouped f.group? groupSize (if zeroFilled then f.width - fixed else 0) digits
  let missing := f.width - (fixed + digits.length)
  String.ofList <| match f.align? with
    | some .afterSign => sign ++ mark ++ List.replicate missing f.fill ++ digits ++ rest
    | _ => f.pad .right (sign ++ mark ++ digits ++ rest)

def text (f : Format) (s : String) : Except Fault String :=
  let suits := f.sign == .unsaid && !f.plainZero && !f.alternate && f.align? != some .afterSign &&
    f.group?.isNone && (f.type?.isNone || f.type? == some 's')
  if suits then do
    let _ ← Size.chars f.width
    let cs := match f.precision? with
      | some n => s.toList.take n
      | .none => s.toList
    return String.ofList (f.pad .left cs)
  else .error bad

/-- How a float's digits are chosen, by the letter of the type. -/
def layout? (f : Format) : Option Number.FloatLayout :=
  let n := f.precision?.getD 6
  match f.type? with
  | .none =>
    some ⟨if f.precision?.isSome then .general n else .shortest, true, f.alternate, false⟩
  | some 'e' => some ⟨.exponential n, false, f.alternate, false⟩
  | some 'E' => some ⟨.exponential n, false, f.alternate, true⟩
  | some 'f' | some '%' => some ⟨.places n, false, f.alternate, false⟩
  | some 'F' => some ⟨.places n, false, f.alternate, true⟩
  | some 'g' | some 'n' => some ⟨.general n, false, f.alternate, false⟩
  | some 'G' => some ⟨.general n, false, f.alternate, true⟩
  | _ => .none

/-- Whether a text of digits is zero in every place. -/
def isZeroText (cs : List Char) : Bool :=
  (cs.takeWhile fun c => c != 'e' && c != 'E').all fun c => !c.isDigit || c == '0'

/-- A float in its field, with its digits chosen by a layout. -/
def floatIn (f : Format) (layout : Number.FloatLayout) (rest : List Char) (x : Float) : String :=
  let cs := unsignedText layout x
  let negative := isNegative x && !(f.plainZero && isZeroText cs && cs.any Char.isDigit)
  f.number negative [] (cs.takeWhile Char.isDigit) (cs.dropWhile Char.isDigit ++ rest) 3

/-- Applies a format to a float. Its precision is a short word. -/
def float (f : Format) (x : Float) : Except Fault String := do
  match f.layout? with
  | .none => throw bad
  | some layout =>
    if f.precision?.getD 0 > Size.maxShort then throw bad
    let _ ← Size.chars f.width
    if f.type? == some '%' then return f.floatIn layout ['%'] (x * 100) else return f.floatIn layout [] x

/-- How the digits of a complex number's parts are chosen. -/
def partLayout? (f : Format) : Option Number.FloatLayout :=
  match f.type? with
  | some '%' => .none
  | _ => f.layout?.map fun layout => { layout with pointZero := false }

/-- Applies a format to a complex number. Without a type it stands in parentheses, unless its real part is a
positive zero, which is left out then. Zeros and a fill after the sign do not suit it. -/
def complex (f : Format) (re im : Float) : Except Fault String := do
  match f.partLayout? with
  | .none => throw bad
  | some layout =>
    if f.precision?.getD 0 > Size.maxShort || f.fill == '0' || f.align? == some .afterSign then throw bad
    let _ ← Size.chars f.width
    let bare := { f with align? := some .left, width := 0 }
    let natural := f.type?.isNone
    let text :=
      if natural && re == 0 && !isNegative re then bare.floatIn layout ['j'] im
      else
        let both := bare.floatIn layout [] re ++ { bare with sign := .plus }.floatIn layout ['j'] im
        if natural then "(" ++ both ++ ")" else both
    return String.ofList (f.pad .right text.toList)

def int (f : Format) (n : Int) : Except Fault String :=
  let inBase (base : Nat) (mark : String) (capitals : Bool) : Except Fault String := do
    if f.precision?.isSome || f.plainZero then throw bad
    let _ ← Size.chars f.width
    if base = 10 ∧ unwritable ≤ n.natAbs then throw (.tooManyDigits .none)
    let ds := baseDigits base n.natAbs
    let ds := if capitals then ds.map Char.toUpper else ds
    return f.number (decide (n < 0)) (if f.alternate then mark.toList else []) ds [] (if base == 10 then 3 else 4)
  match f.type? with
  | .none | some 'd' | some 'n' => inBase 10 "" false
  | some 'b' => inBase 2 "0b" false
  | some 'o' => inBase 8 "0o" false
  | some 'x' => inBase 16 "0x" false
  | some 'X' => inBase 16 "0X" true
  | some 'c' =>
    if f.precision?.isSome || f.plainZero || f.sign != .unsaid || f.alternate then .error bad
    else if 0 ≤ n ∧ n < 0x110000 then do
      let _ ← Size.chars f.width
      return f.number false [] [] [Char.ofNat n.toNat] 3
    else .error (.plain .overflow)
  | some c =>
    if ['e', 'E', 'f', 'F', 'g', 'G', '%'].contains c then do f.float (← floatOfInt n) else .error bad

end Format

/-- A value laid out by the text of a format. Booleans are numbers once the format is not empty. -/
def format (d : Datum) (spec : String) : Except Fault String :=
  if spec.isEmpty then d.display else
  match d with
  | str s => do (← Format.read false spec).text s
  | bool b => do (← Format.read true spec).int (if b then 1 else 0)
  | int n => do (← Format.read true spec).int n
  | float x => do (← Format.read true spec).float x
  | complex re im => do (← Format.read true spec).complex re im
  | _ => .error (.plain .wrongType)

end Scriptling.Datum
