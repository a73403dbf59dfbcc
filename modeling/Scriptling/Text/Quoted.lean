import Scriptling.Text.Class

/-!
# Quoted text

A text between quotes, with escapes for what could not be read back. Single quotes are used unless the
text has a single quote and no double quote.
-/

namespace Scriptling.Text

/-- `n` in hexadecimal, padded with zeros to `width` digits. -/
def hexDigits (width n : Nat) : List Char :=
  let ds := Nat.toDigits 16 n
  List.replicate (width - ds.length) '0' ++ ds

/-- The escape of a character by its code point, as short as the code point allows. -/
def codePointEscape (c : Char) : List Char :=
  let n := c.toNat
  if n < 0x100 then '\\' :: 'x' :: hexDigits 2 n
  else if n < 0x10000 then '\\' :: 'u' :: hexDigits 4 n
  else '\\' :: 'U' :: hexDigits 8 n

/-- One character between the quotes `quote`; `keeps` tells which characters stand for themselves. -/
def escapeChar (keeps : Char → Bool) (quote c : Char) : List Char :=
  if c = quote ∨ c = '\\' then ['\\', c]
  else if c = '\n' then ['\\', 'n']
  else if c = '\r' then ['\\', 'r']
  else if c = '\t' then ['\\', 't']
  else if keeps c then [c]
  else codePointEscape c

def quoteFor (cs : List Char) : Char := if cs.contains '\'' && !cs.contains '"' then '"' else '\''

def quotedBy (keeps : Char → Bool) (s : String) : String :=
  let cs := s.toList
  let q := quoteFor cs
  String.ofList (q :: cs.flatMap (escapeChar keeps q) ++ [q])

/-- A text in quotes; printable characters of any script stand for themselves. -/
def quoted (s : String) : String := quotedBy isPrintable s

def quotedAscii (s : String) : String := quotedBy (fun c => isPrintable c && decide (c.toNat < 0x80)) s

def escapeByte (quote : Char) (b : Nat) : List Char :=
  if b < 0x80 then escapeChar isPrintable quote (Char.ofNat b) else '\\' :: 'x' :: hexDigits 2 b

def quotedBytes (bs : List Nat) : String :=
  let q := quoteFor (bs.map Char.ofNat)
  String.ofList ('b' :: q :: bs.flatMap (escapeByte q) ++ [q])

end Scriptling.Text
