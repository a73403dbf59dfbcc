import Scriptling.Datum.Equality
import Scriptling.Number.Reading

/-!
# Data as text

Two texts of a value: the display text, in which a text stands for itself, and the literal text, in which
it is quoted. Containers show their items literally. Displaying can fail, since a whole number may have too many
digits to be written, and since the display text of a number value asks whether its payload is whole.
-/

namespace Scriptling.Datum

open Number

def commaJoin (parts : List String) : String := ", ".intercalate parts

mutual

/-- The literal text of a value; `quote` says how texts are quoted. -/
def literalBy (quote : String → String) : Datum → String
  | none => "None"
  | bool true => "True"
  | bool false => "False"
  | int n => intText n
  | float x => floatText x
  | complex re im => complexText re im
  | str s => quote s
  | bytes bs => Text.quotedBytes bs
  | byteArray bs => "bytearray(" ++ Text.quotedBytes bs ++ ")"
  | list items => "[" ++ commaJoin (literalItems quote items) ++ "]"
  | tuple [d] => "(" ++ literalBy quote d ++ ",)"
  | tuple items => "(" ++ commaJoin (literalItems quote items) ++ ")"
  | set [] => "set()"
  | set items => "\x7b" ++ commaJoin (literalItems quote items) ++ "\x7d"
  | frozenset [] => "frozenset()"
  | frozenset items => "frozenset(\x7b" ++ commaJoin (literalItems quote items) ++ "\x7d)"
  | dict entries => "\x7b" ++ commaJoin (literalEntries quote entries) ++ "\x7d"
  | range a b 1 => "range(" ++ intText a ++ ", " ++ intText b ++ ")"
  | range a b c =>
    "range(" ++ intText a ++ ", " ++ intText b ++ ", " ++ intText c ++ ")"
  | cls name => "<class '" ++ name ++ "'>"
  | record _ => "<Attrs object>"
  | iterator c _ => "<" ++ c ++ " object>"
  | function name => "<function " ++ name ++ ">"
  | builtin name => "<built-in function " ++ name ++ ">"
  | method receiver name => "<built-in method " ++ name ++ " of " ++ receiver.typeName ++ " object>"
  | object _ text _ => text
  | tag t => "<ValueType." ++ t.name ++ ": " ++ toString t.index ++ ">"
  | value t p => "Value(type=" ++ literalBy quote t ++ ", value=" ++ literalBy quote p ++ ")"
  | token .. => "<Token object>"
  | frame _ => "<Environment object>"
  | cell _ => "[...]"

def literalItems (quote : String → String) : List Datum → List String
  | [] => []
  | d :: ds => literalBy quote d :: literalItems quote ds

def literalEntries (quote : String → String) : List (Datum × Datum) → List String
  | [] => []
  | (k, v) :: rest =>
    (literalBy quote k ++ ": " ++ literalBy quote v) :: literalEntries quote rest

end

def literal (d : Datum) : String := literalBy Text.quoted d

def literalAscii (d : Datum) : String :=
  let cs := (literalBy Text.quotedAscii d).toList
  String.ofList (cs.flatMap fun c => if c.toNat < 0x80 then [c] else Text.codePointEscape c)

mutual

/-- Whether a value shows a whole number of too many digits. -/
def isUnwritable : Datum → Bool
  | int n => decide (unwritable ≤ n.natAbs)
  | range a b c => [a, b, c].any fun n => decide (unwritable ≤ n.natAbs)
  | list items | tuple items | set items | frozenset items => anyUnwritable items
  | dict entries => anyEntryUnwritable entries
  | value _ p => isUnwritable p
  | _ => false

/-- Whether one of several values shows a whole number of too many digits. -/
def anyUnwritable : List Datum → Bool
  | [] => false
  | d :: ds => isUnwritable d || anyUnwritable ds

/-- Whether an entry shows a whole number of too many digits. -/
def anyEntryUnwritable : List (Datum × Datum) → Bool
  | [] => false
  | (k, v) :: rest => isUnwritable k || isUnwritable v || anyEntryUnwritable rest

end

/-- A text of a value, if its numbers can be written. -/
def writtenBy (text : Datum → String) (d : Datum) : Except Fault String :=
  if d.isUnwritable then .error (.tooManyDigits .none) else .ok (text d)

/-- The truth of a value: zeros and empty things are false. -/
def truthy : Datum → Bool
  | none => false
  | bool b => b
  | int n => n != 0
  | float x => !(x == 0)
  | complex re im => !(re == 0 && im == 0)
  | str s => !s.isEmpty
  | bytes bs | byteArray bs => !bs.isEmpty
  | list items | tuple items | set items | frozenset items => !items.isEmpty
  | dict entries => !entries.isEmpty
  | range a b c => rangeLength a b c != 0
  | _ => true

/-- The display text of anything but a script's value. -/
def plainDisplay : Datum → String
  | str s => s
  | tag t => "ValueType." ++ t.name
  | d => literal d

/-- The text of a number value's payload: a whole float shows no fraction. Only floats know whether they
are whole. -/
def numberDisplay : Datum → Except Fault String
  | float x =>
    .ok <| match isWhole x, truncate? x with
      | true, some n => intText n
      | _, _ => floatText x
  | d => .error (.missingAttribute d.typeName "is_integer")

def display : Datum → Except Fault String
  | value (tag .null) _ => .ok "null"
  | value (tag .boolean) p => .ok (if p.truthy then "true" else "false")
  | value (tag .number) p => numberDisplay p
  | value _ (value t p) => display (value t p)
  | value _ p => writtenBy plainDisplay p
  | d => writtenBy plainDisplay d

end Scriptling.Datum
