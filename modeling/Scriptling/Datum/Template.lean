import Scriptling.Datum.Format

/-!
# Templates

A template is a text with directives such as `%5.2f` or `%(key)s`, each of which is replaced by a value. The
values come one after the other from a tuple, or by key from a mapping; a single other value stands for a
tuple of one. All values have to be used up, unless they come from a mapping. Bytes are templates too: they are
read as the characters of their numbers, and only bytes are put into them as they are.
-/

namespace Scriptling.Datum

variable [Size.Room]

namespace Template

/-- A width or precision: a number, or the next value. -/
inductive Measure where
  | absent
  | fixed (n : Nat)
  | next
  deriving Repr, DecidableEq

/-- A directive: which value it takes, and how it shows it. -/
structure Directive where
  /-- The key under which the value is found in a mapping. -/
  key? : Option String
  flags : List Char
  width : Measure
  precision : Measure
  conversion : Char
  deriving Repr, DecidableEq

inductive Piece where
  | plain (c : Char)
  | directive (d : Directive)
  | incomplete
  deriving Repr, DecidableEq

/-- Splits a key in parentheses off; parentheses inside it are matched. `none` if it does not end. -/
def readKey (depth : Nat) (acc : List Char) : List Char → Option (String × List Char)
  | [] => .none
  | ')' :: rest =>
    if depth = 0 then some (String.ofList acc.reverse, rest) else readKey (depth - 1) (')' :: acc) rest
  | '(' :: rest => readKey (depth + 1) ('(' :: acc) rest
  | c :: rest => readKey depth (c :: acc) rest

def readMeasure : List Char → Measure × List Char
  | '*' :: rest => (.next, rest)
  | cs =>
    let ds := cs.takeWhile Char.isDigit
    if ds.isEmpty then (.absent, cs)
    else (.fixed (ds.foldl (fun n c => 10 * n + (c.toNat - 48)) 0), cs.dropWhile Char.isDigit)

def readDirective (cs : List Char) : Option (Directive × List Char) :=
  let keyed : Option (Option String × List Char) := match cs with
    | '(' :: rest => (readKey 0 [] rest).map fun (k, rest) => (some k, rest)
    | cs => some (.none, cs)
  match keyed with
  | .none => .none
  | some (key?, cs) =>
    let isFlag (c : Char) := ['-', '+', ' ', '#', '0'].contains c
    let flags := cs.takeWhile isFlag
    let (width, cs) := readMeasure (cs.dropWhile isFlag)
    let (precision, cs) := match cs with
      | '.' :: rest =>
        match readMeasure rest with
        | (.absent, rest) => (.fixed 0, rest)
        | found => found
      | cs => (.absent, cs)
    let cs := match cs with
      | c :: rest => if c == 'h' || c == 'l' || c == 'L' then rest else c :: rest
      | [] => []
    match cs with
    | c :: rest => some (⟨key?, flags, width, precision, c⟩, rest)
    | [] => .none

/-- The parts of a template; the fuel is its length. -/
def readPieces : Nat → List Char → List Piece
  | 0, _ | _, [] => []
  | fuel + 1, '%' :: rest =>
    match readDirective rest with
    | some (d, rest) => .directive d :: readPieces fuel rest
    | .none => [.incomplete]
  | fuel + 1, c :: rest => .plain c :: readPieces fuel rest

def pieces (template : String) : List Piece := readPieces template.length template.toList

def mismatch : Fault := .plain .wrongType

/-- What templates that are texts and templates that are bytes do differently. -/
structure Style where
  key : String → Datum
  isMapping : Datum → Bool
  /-- What a value is shown as by the letter of a conversion, if the letter shows values. -/
  shown? : Char → Datum → Option (Except Fault String)
  /-- The single character that a value stands for, numbers apart. -/
  single? : Datum → Option Char
  /-- The least number that stands for no character. -/
  chars : Nat

def Style.text : Style where
  key := str
  isMapping
    | dict _ | list _ | bytes _ | byteArray _ | range .. => true
    | _ => false
  shown? c d :=
    match c with
    | 's' => some d.display
    | 'r' => some (writtenBy literal d)
    | 'a' => some (writtenBy literalAscii d)
    | _ => .none
  single?
    | str s => if s.length = 1 then s.toList.head? else .none
    | _ => .none
  chars := 0x110000

def Style.ofBytes : Style where
  key := fun k => bytes (k.toList.map Char.toNat)
  isMapping
    | dict _ | list _ | range .. => true
    | _ => false
  shown? c d :=
    match c with
    | 's' | 'b' => some <| match d with
      | bytes bs | byteArray bs => .ok (String.ofList (bs.map Char.ofNat))
      | _ => .error mismatch
    | 'r' | 'a' => some (writtenBy literalAscii d)
    | _ => .none
  single?
    | bytes [b] | byteArray [b] => some (Char.ofNat b)
    | _ => .none
  chars := 256

/-- The values that are left for the directives. -/
structure Supply where
  values : List Datum
  mapping? : Option Datum

def Supply.ofDatum (style : Style) (d : Datum) : Supply :=
  match d with
  | tuple xs => ⟨xs, .none⟩
  | d => ⟨[d], if style.isMapping d then some d else .none⟩

def Supply.next (s : Supply) : Except Fault (Datum × Supply) :=
  match s.values with
  | v :: rest => .ok (v, { s with values := rest })
  | [] => .error mismatch

/-- A width or a precision as a number, which has to fit into a word that holds numbers up to `largest`. -/
def resolve (largest : Nat) (m : Measure) (s : Supply) : Except Fault (Option Int × Supply) :=
  match m with
  | .absent => .ok (.none, s)
  | .fixed n => if n ≤ largest then .ok (some n, s) else .error (.plain .wrongValue)
  | .next => do
    let (v, s) ← s.next
    match v.int? with
    | some n => if Size.fits largest n then .ok (some n, s) else .error .lengthTooLarge
    | .none => .error mismatch

def field (flags : List Char) (width : Int) (numeric : Bool) (type? : Option Char) (precision? : Option Nat) : Format :=
  let left := flags.contains '-' || width < 0
  let zero := numeric && flags.contains '0' && !left
  { fill := if zero then '0' else ' '
    align? := some (if left then .left else if zero then .afterSign else .right)
    sign := if !numeric then .unsaid else if flags.contains '+' then .plus
      else if flags.contains ' ' then .blank else .unsaid
    plainZero := false
    alternate := flags.contains '#'
    width := width.natAbs
    group? := .none
    precision?
    type? }

/-- A whole number for a directive; floats lose their fraction where the directive is decimal. -/
def wholeFor (decimal : Bool) (d : Datum) : Except Fault Int :=
  match d with
  | float x => if decimal then wholeBy Number.truncate? x else .error mismatch
  | d =>
    match d.int? with
    | some n => .ok n
    | .none => .error mismatch

def renderInt (f : Format) (base : Nat) (mark : String) (capitals : Bool) (n : Int) : String :=
  let ds := Number.baseDigits base n.natAbs
  let ds := Number.zeros (f.precision?.getD 0 - ds.length) ++ ds
  let ds := if capitals then ds.map Char.toUpper else ds
  f.number (decide (n < 0)) (if f.alternate then mark.toList else []) ds [] 3

def render (style : Style) (d : Directive) (width : Int) (precision? : Option Nat) (v : Datum) : Except Fault String :=
  let fieldOf (numeric : Bool) := field d.flags width numeric .none precision?
  let inField (cs : List Char) : Except Fault String := do
    let _ ← Size.chars width.natAbs
    return String.ofList ((fieldOf false).pad .right cs)
  let whole (base : Nat) (mark : String) (capitals : Bool) (n : Int) : Except Fault String := do
    let _ ← Size.chars (max width.natAbs (precision?.getD 0))
    if base = 10 ∧ Number.unwritable ≤ n.natAbs then throw (.tooManyDigits .none)
    return renderInt (fieldOf true) base mark capitals n
  match style.shown? d.conversion v with
  | some shown => do
    let cs := (← shown).toList
    inField (match precision? with
      | some n => cs.take n
      | .none => cs)
  | .none =>
  match d.conversion with
  | 'd' | 'i' | 'u' => do whole 10 "" false (← wholeFor true v)
  | 'o' => do whole 8 "0o" false (← wholeFor false v)
  | 'x' => do whole 16 "0x" false (← wholeFor false v)
  | 'X' => do whole 16 "0X" true (← wholeFor false v)
  | 'c' =>
    match style.single? v, v.int? with
    | some c, _ => inField [c]
    | .none, some n =>
      if 0 ≤ n ∧ n < style.chars then inField [Char.ofNat n.toNat] else .error (.plain .overflow)
    | .none, .none => .error mismatch
  | c =>
    if ['e', 'E', 'f', 'F', 'g', 'G'].contains c then
      match v.numeric? with
      | some (.int n) => do (field d.flags width true (some c) precision?).float (← floatOfInt n)
      | some (.float x) => (field d.flags width true (some c) precision?).float x
      | _ => .error mismatch
    else .error (.plain .wrongValue)

def fillPieces (style : Style) (acc : String) (s : Supply) : List Piece → Except Fault String
  | [] => if s.mapping?.isNone && !s.values.isEmpty then .error mismatch else .ok acc
  | .plain c :: rest => fillPieces style (acc.push c) s rest
  | .incomplete :: _ => .error (.plain .wrongValue)
  | .directive d :: rest => do
    let s ← match d.key?, s.mapping? with
      | .none, _ => .ok s
      | some _, .none => .error mismatch
      | some k, some m => do .ok { s with values := [← m.getItem (style.key k)] }
    let (width, s) ← resolve Size.maxCount d.width s
    let (precision, s) ← resolve Size.maxShort d.precision s
    if d.conversion == '%' then fillPieces style (acc.push '%') s rest
    else
      let (v, s) ← s.next
      let text ← render style d (width.getD 0) (precision.map Int.toNat) v
      fillPieces style (acc ++ text) s rest

end Template

/-- A template with its directives replaced by values. -/
def interpolate (template : String) (values : Datum) : Except Fault String :=
  Template.fillPieces .text "" (.ofDatum .text values) (Template.pieces template)

/-- Bytes with their directives replaced by values. -/
def interpolateBytes (template : List Nat) (values : Datum) : Except Fault (List Nat) := do
  let template := String.ofList (template.map Char.ofNat)
  let filled ← Template.fillPieces .ofBytes "" (.ofDatum .ofBytes values) (Template.pieces template)
  return filled.toList.map Char.toNat

/-- A template with its directives replaced by values, if it is a text or bytes. -/
def interpolate? (template values : Datum) : Option (Except Fault Datum) :=
  match template with
  | str s => some do return str (← interpolate s values)
  | bytes bs => some do return bytes (← interpolateBytes bs values)
  | byteArray bs => some do return byteArray (← interpolateBytes bs values)
  | _ => .none

end Scriptling.Datum
