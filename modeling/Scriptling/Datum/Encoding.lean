import Scriptling.Fault
import Scriptling.Text.Lines

/-!
# Encodings

Texts as bytes and bytes as texts. What an encoding cannot express is a fault, is left out, or is replaced by
something that it can.
-/

namespace Scriptling

inductive Encoding where
  | utf8
  | ascii
  | latin1
  deriving Repr, DecidableEq

/-- What is done with a character or a byte that an encoding has no place for. -/
inductive Remedy where
  | strict
  | ignore
  | replace
  | backslash
  | reference
  deriving Repr, DecidableEq

namespace Encoding

/-- The name of an encoding in small letters, with one underscore for what is no letter or digit. -/
def normalFrom (gap : Bool) : List Char → List Char
  | [] => []
  | c :: cs =>
    if c.isAlphanum || c == '.' then
      if gap then '_' :: c.toLower :: normalFrom false cs else c.toLower :: normalFrom false cs
    else normalFrom true cs

def ofName? (name : String) : Option Encoding :=
  let cs := name.toList
  let normal := String.ofList (normalFrom false (cs.dropWhile fun c => !(c.isAlphanum || c == '.')))
  let among (line : String) := (Text.words line).contains normal
  if among "utf_8 utf8 u8 utf cp65001 utf8_ucs2 utf8_ucs4" then some utf8
  else if among "ascii 646 ansi_x3.4_1968 ansi_x3_4_1968 ansi_x3.4_1986 cp367 csascii ibm367 iso646_us" ||
    among "iso_646.irv_1991 iso_ir_6 us us_ascii" then some ascii
  else if among "latin_1 8859 cp819 csisolatin1 ibm819 iso8859 iso8859_1 iso_8859_1 iso_8859_1_1987" ||
    among "iso_ir_100 l1 latin latin1" then some latin1
  else none

/-- The bytes of a character, if the encoding has it. -/
def bytes? : Encoding → Char → Option (List Nat)
  | utf8, c => some (Text.utf8Bytes c)
  | ascii, c => if c.toNat < 0x80 then some [c.toNat] else none
  | latin1, c => if c.toNat < 0x100 then some [c.toNat] else none

end Encoding

def Remedy.ofName? : String → Option Remedy
  | "strict" | "surrogateescape" | "surrogatepass" => some strict
  | "ignore" => some ignore
  | "replace" => some replace
  | "backslashreplace" => some backslash
  | "xmlcharrefreplace" => some reference
  | _ => none

/-- The fault of an encoding or a remedy that is not known. -/
def Encoding.unknown : Fault := .plain .unknownEncoding

/-- What stands for a character that cannot be encoded. -/
def Remedy.encode (remedy : Remedy) (c : Char) : Except Fault (List Char) :=
  match remedy with
  | strict => .error (.plain .unencodable)
  | ignore => .ok []
  | replace => .ok ['?']
  | backslash => .ok (Text.codePointEscape c)
  | reference => .ok ('&' :: '#' :: Nat.toDigits 10 c.toNat ++ [';'])

/-- The bytes of a text. The remedy is looked up only when it is needed. -/
def Encoding.encode (e : Encoding) (remedy : String) : List Char → Except Fault (List Nat)
  | [] => .ok []
  | c :: cs => do
    let here ← match e.bytes? c with
      | some bs => .ok bs
      | none =>
        match Remedy.ofName? remedy with
        | none => .error Encoding.unknown
        | some r => do .ok ((← r.encode c).map Char.toNat)
    return here ++ (← Encoding.encode e remedy cs)

def Remedy.decode (remedy : Remedy) (bs : List Nat) : Except Fault (List Char) :=
  match remedy with
  | strict => .error (.plain .undecodable)
  | ignore => .ok []
  | replace => .ok ['�']
  | backslash => .ok (bs.flatMap fun b => '\\' :: 'x' :: Text.hexDigits 2 b)
  | reference => .error (.plain .wrongType)

/-- The first character of bytes, and how many of them it takes; or how many are at fault. -/
def Encoding.first (e : Encoding) (b : Nat) (rest : List Nat) : Except Nat (Char × Nat) :=
  match e with
  | latin1 => .ok (Char.ofNat b, 1)
  | ascii => if b < 0x80 then .ok (Char.ofNat b, 1) else .error 1
  | utf8 =>
    match Text.leadByte? b with
    | none => .error 1
    | some (n, payload, lo, hi) =>
      match Text.continuation lo hi n 1 payload rest with
      | .error (good, _) => .error good
      | .ok (value, _) => .ok (Char.ofNat value, n + 1)

def Encoding.decodeFrom (e : Encoding) (remedy : String) : Nat → List Nat → Except Fault (List Char)
  | 0, _ | _, [] => .ok []
  | fuel + 1, b :: rest =>
    match e.first b rest with
    | .ok (c, n) => do return c :: (← decodeFrom e remedy fuel (rest.drop (n - 1)))
    | .error n =>
      match Remedy.ofName? remedy with
      | none => .error Encoding.unknown
      | some r => do return (← r.decode (b :: rest.take (n - 1))) ++ (← decodeFrom e remedy fuel (rest.drop (n - 1)))

def Encoding.decode (e : Encoding) (remedy : String) (bs : List Nat) : Except Fault (List Char) :=
  e.decodeFrom remedy bs.length bs

end Scriptling
