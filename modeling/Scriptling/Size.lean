import Scriptling.Fault

/-!
# Sizes

The items of a sequence are counted and numbered by words of 64 bits with a sign. A number that fits into no word
is a fault, which comes before any item is made. So is a sequence that does not fit into memory; how much room
there is differs from machine to machine, and all that is said here holds whatever the room is.
-/

namespace Scriptling.Size

/-- The largest word of 64 bits with a sign. -/
def maxCount : Nat := Nat.pow 2 63 - 1

/-- The largest word of 32 bits with a sign. -/
def maxShort : Nat := Nat.pow 2 31 - 1

/-- The room that there is in memory: for so many items of a sequence, and for so many characters. -/
class Room where
  items : Nat
  chars : Nat

/-- The room of an ordinary machine. -/
@[reducible]
def ordinary : Room := ⟨Nat.pow 2 28, Nat.pow 2 31⟩

/-- Whether a number fits into a word that holds numbers up to `largest`. -/
def fits (largest : Nat) (n : Int) : Bool := decide (-(largest : Int) - 1 ≤ n) && decide (n ≤ largest)

/-- A number that has to fit into a word. -/
def word (n : Int) : Except Fault Int := if fits maxCount n then .ok n else .error .numberTooLarge

/-- A number that has to fit into half a word. -/
def short (n : Int) : Except Fault Int := if fits maxShort n then .ok n else .error .numberTooLarge

/-- The length of a sequence: it has to be a count. -/
def count (n : Nat) : Except Fault Nat := if n ≤ maxCount then .ok n else .error .lengthTooLarge

/-- A number of things to be made: there has to be room for them. -/
def within (most n : Nat) : Except Fault Nat := if n ≤ most then .ok n else .error (.plain .outOfMemory)

variable [Room]

/-- A number of items to be made. -/
def items (n : Nat) : Except Fault Nat := within Room.items n

/-- A number of characters, bytes or bits to be made. -/
def chars (n : Nat) : Except Fault Nat := within Room.chars n

/-- How many copies of a sequence of `size` items are made when it is repeated `n` times: none of an empty
sequence, and none if `n` is negative. -/
def copies (size : Nat) (n : Int) : Except Fault Nat := do
  let n := (← word n).toNat
  if size = 0 then return 0
  let _ ← items (size * n)
  return n

/-- How many copies of a text of `size` characters are made when it is repeated `n` times. A length that is no
count is told apart from what is too long for memory. -/
def textCopies (size : Nat) (n : Int) : Except Fault Nat := do
  let n := (← word n).toNat
  if size = 0 then return 0
  if size * n > maxCount then throw (.plain .overflow)
  let _ ← chars (size * n)
  return n

end Scriptling.Size
