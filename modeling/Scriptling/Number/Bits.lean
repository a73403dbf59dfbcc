/-!
# Bits of whole numbers

The operators on the bits of whole numbers. A negative number has ones without end on the left: it is the
complement of the natural number `-n - 1`, and each operator is reduced to one on natural numbers.
-/

namespace Scriptling.Number

def bitNot (n : Int) : Int := -n - 1

def bitAnd (a b : Int) : Int :=
  match decide (a < 0), decide (b < 0) with
  | false, false => ((a.toNat &&& b.toNat : Nat) : Int)
  | true, false => b - ((b.toNat &&& (bitNot a).toNat : Nat) : Int)
  | false, true => a - ((a.toNat &&& (bitNot b).toNat : Nat) : Int)
  | true, true => bitNot ((bitNot a).toNat ||| (bitNot b).toNat : Nat)

def bitOr (a b : Int) : Int := bitNot (bitAnd (bitNot a) (bitNot b))

/-- The bits that one of two numbers has and the other has not. -/
def bitXor (a b : Int) : Int := bitAnd (bitOr a b) (bitNot (bitAnd a b))

end Scriptling.Number
