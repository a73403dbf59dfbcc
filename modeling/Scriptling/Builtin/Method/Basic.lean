import Scriptling.Builtin.Sequence
import Scriptling.Builtin.Textual

/-!
# Methods

A method is a routine whose first argument is the value that it belongs to. What its other arguments have to be
is read here: places, counts, keys, and cuts that nothing may stand for.
-/

namespace Scriptling.Builtin

open Act

/-- A method: the parameters after the value itself, and what it does. -/
def method (parameters : List Parameter) (run : Apply → Bound → Act Datum) : Routine :=
  ⟨.inOrder (required "self" :: parameters), run⟩

def methodOfMany (run : Apply → Bound → Act Datum) : Routine :=
  ⟨{ positional := [required "self"], unnamed := 1, more := true }, run⟩

/-- A method that takes nothing but the value itself. -/
def methodOf (f : Datum → Act Datum) : Routine := method [] fun _ b => f (b.value 0)

/-- A method that takes one more value. -/
def methodWith (name : String) (f : Datum → Datum → Act Datum) : Routine :=
  method [required name] fun _ b => f (b.value 0) (b.value 1)

def wordArg (d : Datum) : Act Int := do lift (Size.word (← whole d))

def shortArg (d : Datum) : Act Int := do lift (Size.short (← whole d))

/-- A limit on how often something is done; a negative one is none. -/
def limitArg (d : Datum) : Act (Option Nat) := do
  let n ← wordArg d
  return if n < 0 then none else some n.toNat

/-- Where a cut is made; nothing stands for the usual place. -/
def cutArg (usual : Int) (d : Datum) : Act Int :=
  match d with
  | .none => return usual
  | d => whole d

/-- The part of a sequence of `n` items between two cuts: its first place and its length. The second cut is never
beyond the end, the first may be, and then there is no such part. -/
def between? (n : Nat) (start stop : Int) : Option (Nat × Nat) :=
  let first := if start < 0 then (start + n).toNat else start.toNat
  let last := Datum.cutPlace n stop
  if first ≤ last then some (first, last - first) else none

def keyArg (d : Datum) : Act Datum := do
  let d ← deep d
  if d.isHashable then return d else wrongType

/-- A value as a member of a set: a set stands for the members that it has. -/
def memberArg (d : Datum) : Act Datum := do
  match ← deep d with
  | .set xs => return .frozenset xs
  | d => if d.isHashable then return d else wrongType

/-- The value that a method belongs to, with its own cell looked up. -/
def self (b : Bound) : Act Datum := look (b.value 0)

/-- The items of the value that a method belongs to. -/
def selfItems [Size.Room] (b : Bound) : Act (List Datum) := items (b.value 0)

/-- Puts something else in place of the value that a method belongs to. -/
def become (b : Bound) (d : Datum) : Act Datum := do
  update (b.value 0) d
  return .none

end Scriptling.Builtin
