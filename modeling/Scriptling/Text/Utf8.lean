/-!
# UTF-8

A text to bytes, and bytes to text, or the place and the reason of the first fault. A byte that cannot begin a
character is one fault, a sequence broken by a byte that cannot continue it another, a sequence cut off by the end a
third.
-/

namespace Scriptling.Text

inductive DecodeReason where
  | badStart
  /-- A byte cannot continue the character before it. -/
  | badContinuation
  | cutOff
  deriving Repr, DecidableEq

/-- A fault in bytes: the position of its first byte, the bytes it covers, and the reason. -/
structure DecodeFault where
  position : Nat
  byte : Nat
  width : Nat
  reason : DecodeReason
  deriving Repr, DecidableEq

namespace DecodeFault

def reasonText : DecodeReason → String
  | .badStart => "invalid start byte"
  | .badContinuation => "invalid continuation byte"
  | .cutOff => "unexpected end of data"

def message (f : DecodeFault) : String :=
  let hex := Nat.toDigits 16 f.byte
  let hex := String.ofList (if hex.length < 2 then '0' :: hex else hex)
  let place :=
    if f.width = 1 then "byte 0x" ++ hex ++ " in position " ++ toString f.position
    else "bytes in position " ++ toString f.position ++ "-" ++ toString (f.position + f.width - 1)
  "'utf-8' codec can't decode " ++ place ++ ": " ++ reasonText f.reason

end DecodeFault

/-- What a first byte announces: how many bytes follow, its payload, and the least and greatest second byte. -/
def leadByte? (b : Nat) : Option (Nat × Nat × Nat × Nat) :=
  if b < 0x80 then some (0, b, 0, 0)
  else if b < 0xc2 then none
  else if b < 0xe0 then some (1, b - 0xc0, 0x80, 0xbf)
  else if b < 0xf0 then
    some (2, b - 0xe0, if b = 0xe0 then 0xa0 else 0x80, if b = 0xed then 0x9f else 0xbf)
  else if b < 0xf5 then
    some (3, b - 0xf0, if b = 0xf0 then 0x90 else 0x80, if b = 0xf4 then 0x8f else 0xbf)
  else none

/-- Reads `n` continuation bytes, the first of which lies between `lo` and `hi`. On a fault it tells how many
bytes of the character were good. -/
def continuation (lo hi : Nat) : Nat → Nat → Nat → List Nat → Except (Nat × DecodeReason) (Nat × List Nat)
  | 0, _, value, rest => .ok (value, rest)
  | _ + 1, good, _, [] => .error (good, .cutOff)
  | n + 1, good, value, b :: rest =>
    if lo ≤ b ∧ b ≤ hi then continuation 0x80 0xbf n (good + 1) (value * 64 + (b - 0x80)) rest
    else .error (good, .badContinuation)

/-- Decodes bytes from a position on. The fuel is the number of bytes. -/
def decodeFrom (position : Nat) : Nat → List Nat → Except DecodeFault (List Char)
  | 0, _ | _ + 1, [] => .ok []
  | fuel + 1, b :: rest =>
    match leadByte? b with
    | none => .error ⟨position, b, 1, .badStart⟩
    | some (n, payload, lo, hi) =>
      match continuation lo hi n 1 payload rest with
      | .error (good, reason) => .error ⟨position, b, good, reason⟩
      | .ok (value, rest') => do
        let cs ← decodeFrom (position + n + 1) fuel rest'
        .ok (Char.ofNat value :: cs)

def decodeUtf8 (bytes : List Nat) : Except DecodeFault String := (decodeFrom 0 bytes.length bytes).map String.ofList

def utf8Bytes (c : Char) : List Nat :=
  let n := c.toNat
  let follow (shift : Nat) : Nat := 0x80 + n / shift % 64
  if n < 0x80 then [n]
  else if n < 0x800 then [0xc0 + n / 64, follow 1]
  else if n < 0x10000 then [0xe0 + n / 4096, follow 64, follow 1]
  else [0xf0 + n / 262144, follow 4096, follow 64, follow 1]

end Scriptling.Text
