import Scriptling.Datum.Basic

/-!
# Equality of data

Numbers are equal by value across their types, so `1`, `1.0` and `true` are one key; texts, bytes, lists
and tuples are equal item by item; sets and dictionaries without regard to order. Objects are equal only to
themselves.
-/

namespace Scriptling.Datum

def Numeric.eq : Numeric → Numeric → Bool
  | .int a, .int b => a == b
  | .int a, .float y => Number.compareIntFloat a y == some .eq
  | .float x, .int b => Number.compareIntFloat b x == some .eq
  | .float x, .float y => x == y
  | .complex re im, .int b => im == 0 && Number.compareIntFloat b re == some .eq
  | .int a, .complex re im => im == 0 && Number.compareIntFloat a re == some .eq
  | .complex re im, .float y => im == 0 && re == y
  | .float x, .complex re im => im == 0 && x == re
  | .complex re im, .complex re' im' => re == re' && im == im'

/-- Equality of two ranges: the same numbers in the same order. -/
def rangeEq (a b c a' b' c' : Int) : Bool :=
  let n := rangeLength a b c
  n == rangeLength a' b' c' && (n == 0 || (a == a' && (n == 1 || c == c')))

mutual

def eq : Datum → Datum → Bool
  | none, none => true
  | int a, int b | str a, str b | bytes a, bytes b | bytes a, byteArray b | byteArray a, bytes b
  | byteArray a, byteArray b => a == b
  | list a, list b | tuple a, tuple b => eqItems a b
  | set a, set b | set a, frozenset b | frozenset a, set b | frozenset a, frozenset b =>
    a.length == b.length && subsetOf a b
  | dict a, dict b => a.length == b.length && entriesIn a b
  | range a b c, range a' b' c' => rangeEq a b c a' b' c'
  | cls a, cls b | function a, function b | builtin a, builtin b => a == b
  | object c t i, object c' t' i' => c == c' && t == t' && i == i'
  | tag a, tag b => a == b
  | value t p, value t' p' => eq t t' && eq p p'
  | cell a, cell b => a == b
  | a, b =>
    match a.numeric?, b.numeric? with
    | some x, some y => x.eq y
    | _, _ => false

def eqItems : List Datum → List Datum → Bool
  | [], [] => true
  | a :: as, b :: bs => eq a b && eqItems as bs
  | _, _ => false

/-- Whether each item of the first list is equal to one of the second. -/
def subsetOf : List Datum → List Datum → Bool
  | [], _ => true
  | a :: as, bs => bs.any (fun b => eq a b) && subsetOf as bs

/-- Whether each entry of the first list has an equal one in the second. -/
def entriesIn : List (Datum × Datum) → List (Datum × Datum) → Bool
  | [], _ => true
  | (k, v) :: rest, bs => bs.any (fun (k', v') => eq k k' && eq v v') && entriesIn rest bs

end

mutual

def isHashable : Datum → Bool
  | list _ | dict _ | set _ | byteArray _ | value .. | cell _ => false
  | tuple items => allHashable items
  | _ => true

def allHashable : List Datum → Bool
  | [] => true
  | d :: ds => isHashable d && allHashable ds

end

def member (d : Datum) (items : List Datum) : Bool := items.any (eq · d)

def addItem (items : List Datum) (d : Datum) : List Datum := if member d items then items else items ++ [d]

def lookup? (entries : List (Datum × Datum)) (key : Datum) : Option Datum :=
  (entries.find? fun e => eq e.1 key).map (·.2)

/-- Sets the value of a key. A new key goes to the end; a present one keeps its place and its form. -/
def insertEntry (key v : Datum) : List (Datum × Datum) → List (Datum × Datum)
  | [] => [(key, v)]
  | (k, old) :: rest => if eq k key then (k, v) :: rest else (k, old) :: insertEntry key v rest

def eraseEntry (entries : List (Datum × Datum)) (key : Datum) : List (Datum × Datum) :=
  entries.filter fun e => !eq e.1 key

/-- The whole numbers of a list that holds nothing else. -/
def wholeNumbers? (items : List Datum) : Option (List Int) :=
  items.mapM fun d => match d with
    | int n => some n
    | _ => .none

/-- The order in which a set of whole numbers is gone through: ascending. Other sets keep the order in
which their items came. -/
def arrangeSet (items : List Datum) : List Datum :=
  match wholeNumbers? items with
  | some ns => (ns.mergeSort (· ≤ ·)).map int
  | .none => items

/-- The set of the items of a list. Of whole numbers alone, equal ones are neighbours once they are sorted. -/
def setOfList (items : List Datum) : List Datum :=
  match wholeNumbers? items with
  | some ns => (ns.mergeSort (· ≤ ·)).eraseReps.map int
  | .none => arrangeSet (items.foldl addItem [])

end Scriptling.Datum
