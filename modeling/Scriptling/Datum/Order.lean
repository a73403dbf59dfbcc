import Scriptling.Datum.Equality

/-!
# Order of data

Numbers compare exactly across their types, texts by code points, sequences at their first difference, and
sets by inclusion. Between other types there is no order, which is a fault that names both.
-/

namespace Scriptling.Datum

inductive Relation where
  | less
  | lessEqual
  | greater
  | greaterEqual
  deriving Repr, DecidableEq

namespace Relation

def sign : Relation → String
  | less => "<"
  | lessEqual => "<="
  | greater => ">"
  | greaterEqual => ">="

/-- Whether a relation holds between things that compare in a given way. -/
def holds : Relation → Ordering → Bool
  | less, o => o == .lt
  | lessEqual, o => o != .gt
  | greater, o => o == .gt
  | greaterEqual, o => o != .lt

end Relation

/-- The order of two floats; `none` if one is not a number. -/
def compareFloats (x y : Float) : Option Ordering :=
  if x < y then some .lt else if x == y then some .eq else if x > y then some .gt else .none

/-- The order of two numbers. The outer `none` says that complex numbers have no order, the inner one that
a number is not a number. -/
def Numeric.compare? : Numeric → Numeric → Option (Option Ordering)
  | .int a, .int b => some (some (compare a b))
  | .int a, .float y => some (Number.compareIntFloat a y)
  | .float x, .int b => some ((Number.compareIntFloat b x).map Ordering.swap)
  | .float x, .float y => some (compareFloats x y)
  | _, _ => .none

def compareBytes : List Nat → List Nat → Ordering
  | [], [] => .eq
  | [], _ => .lt
  | _, [] => .gt
  | a :: as, b :: bs => (compare a b).then (compareBytes as bs)

def incomparable (r : Relation) (a b : Datum) : Fault := .incomparable r.sign a.typeName b.typeName

mutual

def relate (r : Relation) : Datum → Datum → Except Fault Bool
  | str a, str b => .ok (r.holds (compare a b))
  | bytes a, bytes b | bytes a, byteArray b | byteArray a, bytes b | byteArray a, byteArray b =>
    .ok (r.holds (compareBytes a b))
  | list a, list b | tuple a, tuple b => relateItems r a b
  | set a, set b | set a, frozenset b | frozenset a, set b | frozenset a, frozenset b => .ok (relateSets r a b)
  | a, b =>
    match a.numeric?, b.numeric? with
    | some x, some y =>
      match x.compare? y with
      | some o => .ok ((o.map r.holds).getD false)
      | .none => .error (incomparable r a b)
    | _, _ => .error (incomparable r a b)

/-- Whether a relation holds between two sequences: their first unequal items decide, or else their
lengths. -/
def relateItems (r : Relation) : List Datum → List Datum → Except Fault Bool
  | [], [] => .ok (r.holds .eq)
  | [], _ => .ok (r.holds .lt)
  | _, [] => .ok (r.holds .gt)
  | a :: as, b :: bs => if eq a b then relateItems r as bs else relate r a b

/-- Whether a relation holds between two sets, as inclusion. -/
def relateSets (r : Relation) (a b : List Datum) : Bool :=
  match r with
  | .less => a.length < b.length && subsetOf a b
  | .lessEqual => subsetOf a b
  | .greater => b.length < a.length && subsetOf b a
  | .greaterEqual => subsetOf b a

end

/-- Whether the first value comes before the second. -/
def before (a b : Datum) : Except Fault Bool := relate .less a b

end Scriptling.Datum
