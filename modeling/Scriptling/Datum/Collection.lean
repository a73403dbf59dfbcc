import Scriptling.Datum.Order
import Scriptling.Datum.Text
import Scriptling.Size
import Scriptling.Text.Search

/-!
# Collections

Going through the items of a value, its length, membership, places counted from either end, cuts, and
sorting.
-/

namespace Scriptling.Datum

variable [Size.Room]

/-! ## Ranges

A range holds no items: its numbers are computed. It may be longer than any other sequence; only going through all of
it needs room. -/

def rangeAt (start step : Int) (i : Nat) : Datum := int (start + step * i)

/-- The first numbers of a range, `n` of them if it has as many. -/
def rangeFirst (n : Nat) (start stop step : Int) : List Datum :=
  (List.range (min n (rangeLength start stop step))).map (rangeAt start step)

/-- All numbers of a range, for which there has to be room. -/
def rangeAll (start stop step : Int) : Except Fault (List Datum) := do
  let n ← Size.count (rangeLength start stop step)
  return rangeFirst (← Size.items n) start stop step

def rangePlace? (start stop step n : Int) : Option Nat :=
  let i := (n - start) / step
  if 0 ≤ i ∧ i < rangeLength start stop step ∧ start + step * i = n then some i.toNat else .none

/-- The sum of the numbers of a range: as many times the mean of the first and the last. -/
def rangeSum (start stop step : Int) : Int :=
  let n : Int := rangeLength start stop step
  n * (2 * start + (n - 1) * step) / 2

/-- The least and the greatest number of a range, if it has any: they are the first and the last. -/
def rangeExtremes? (start stop step : Int) : Option (Int × Int) :=
  match rangeLength start stop step with
  | 0 => .none
  | n + 1 =>
    let last := start + step * n
    some (if step > 0 then (start, last) else (last, start))

def rangePart (start step : Int) (first last : Nat) : Datum := range (start + step * first) (start + step * last) step

/-! ## Items -/

def ofChar (c : Char) : Datum := str (String.singleton c)

def items (d : Datum) : Except Fault (List Datum) :=
  match d with
  | str s => .ok (s.toList.map ofChar)
  | bytes bs | byteArray bs => .ok (bs.map fun (b : Nat) => int b)
  | list xs | tuple xs | set xs | frozenset xs | iterator _ xs => .ok xs
  | dict entries => .ok (entries.map (·.1))
  | range a b c => rangeAll a b c
  | d => .error (.notIterable d.typeName)

def isIterable : Datum → Bool
  | str _ | bytes _ | byteArray _ | list _ | tuple _ | set _ | frozenset _ | iterator .. | dict _ | range .. => true
  | _ => false

/-- The first items that going through a value yields, at most `n`. -/
def firstItems (n : Nat) (d : Datum) : Except Fault (List Datum) :=
  match d with
  | range a b c => .ok (rangeFirst n a b c)
  | d => do return (← d.items).take n

def reach (d : Datum) : Except Fault Nat :=
  match d with
  | range a b c => .ok (rangeLength a b c)
  | d => do return (← d.items).length

/-- The items of several values up to the end of the shortest. -/
def firstTogether (ds : List Datum) : Except Fault (List (List Datum)) := do
  let reaches ← ds.mapM reach
  let n ← Size.items (reaches.foldl min (reaches.headD 0))
  ds.mapM (firstItems n)

def length? : Datum → Option Nat
  | str s => some s.length
  | bytes bs | byteArray bs => some bs.length
  | list xs | tuple xs | set xs | frozenset xs => some xs.length
  | dict entries => some entries.length
  | range a b c => some (rangeLength a b c)
  | _ => .none

/-- How many items a value has; there has to be a count for them. -/
def length (d : Datum) : Except Fault Nat :=
  match d.length? with
  | some n => Size.count n
  | .none => .error (.noLength d.typeName)

/-- The place that an index names in a sequence of `n` items; negative ones count from the end. -/
def place? (n : Nat) (i : Int) : Option Nat :=
  if 0 ≤ i ∧ i < n then some i.toNat
  else if i < 0 ∧ 0 ≤ i + n then some (i + n).toNat
  else .none

/-- The place before which a cut at `i` is made in a sequence of `n` items. -/
def cutPlace (n : Nat) (i : Int) : Nat := if i < 0 then (i + n).toNat else min i.toNat n

def slice {α : Type} (xs : List α) (start stop : Int) : List α :=
  let a := cutPlace xs.length start
  let b := cutPlace xs.length stop
  (xs.drop a).take (b - a)

/-- The place that a key names in a sequence of `n` items: it has to be an index. -/
def placeOf (n : Nat) (key : Datum) : Except Fault Nat :=
  match key.int? with
  | .none => .error (.plain .wrongType)
  | some i =>
    match place? n i with
    | some k => .ok k
    | .none => .error (.plain .badIndex)

/-- The item of a collection at a key or an index. -/
def getItem (d key : Datum) : Except Fault Datum :=
  match d with
  | dict entries =>
    if key.isHashable then
      match lookup? entries key with
      | some v => .ok v
      | .none => .error (.plain .missingKey)
    else .error (.plain .wrongType)
  | range a b c => do return rangeAt a c (← placeOf (rangeLength a b c) key)
  | str _ | bytes _ | byteArray _ | list _ | tuple _ => do
    let xs ← d.items
    return xs.getD (← placeOf xs.length key) none
  | d => .error (.notSubscriptable d.typeName)

/-- A collection with an item set at a key or an index. -/
def setItem (d key v : Datum) : Except Fault Datum :=
  match d with
  | dict entries =>
    if key.isHashable then .ok (dict (insertEntry key v entries)) else .error (.plain .wrongType)
  | list xs => do return list (xs.set (← placeOf xs.length key) v)
  | byteArray bs =>
    match key.int?, v.int? with
    | some i, some b =>
      match place? bs.length i with
      | .none => .error (.plain .badIndex)
      | some k =>
        if 0 ≤ b ∧ b < 256 then .ok (byteArray (bs.set k b.toNat)) else .error (.plain .wrongValue)
    | _, _ => .error (.plain .wrongType)
  | _ => .error (.plain .wrongType)

def wholeValue? (d : Datum) : Option Int :=
  match d.numeric? with
  | some (.int n) => some n
  | some (.float x) => whole? x
  | some (.complex x y) => if y == 0 then whole? x else .none
  | .none => .none
where
  whole? (x : Float) : Option Int := if Number.isWhole x then Number.truncate? x else .none

/-- Whether a value can be sought among the members of a set: it can be one, or it is a set, which stands for the
one that has its members and cannot change. -/
def canBeSought : Datum → Bool
  | set _ => true
  | d => d.isHashable

/-- Whether a value is among the members of a collection. -/
def contains (d x : Datum) : Except Fault Bool :=
  match d with
  | str s =>
    match x with
    | str part => .ok (Text.occurs part.toList s.toList)
    | x => .error (.textNeedsText x.typeName)
  | list xs | tuple xs | iterator _ xs => .ok (member x xs)
  | set xs | frozenset xs => if x.canBeSought then .ok (member x xs) else .error (.plain .wrongType)
  | dict entries =>
    if x.isHashable then .ok (lookup? entries x).isSome else .error (.plain .wrongType)
  | range a b c => .ok (x.wholeValue?.any fun n => (rangePlace? a b c n).isSome)
  | bytes bs | byteArray bs =>
    match x with
    | bytes part | byteArray part => .ok (Text.occurs (part.map Char.ofNat) (bs.map Char.ofNat))
    | x =>
      match x.int? with
      | some n => if 0 ≤ n ∧ n < 256 then .ok (bs.contains n.toNat) else .error (.plain .wrongValue)
      | .none => .error (.plain .wrongType)
  | d => .error (.noMembers d.typeName)

/-! ## Sorting

A first run is taken from the front, turned round if it descends strictly; each further item is put in by
halving the sorted part. Items that are equal keep their order, and with values that have no total order
(not-a-number) this fixes the result. -/

abbrev Keyed := Datum × Datum

/-- The place of a new item in a sorted part: after all that are not greater. `lo` and `hi` bound it. -/
def insertionPlace (sorted : Array Keyed) (x : Keyed) (lo hi : Nat) : Nat → Except Fault Nat
  | 0 => .ok lo
  | fuel + 1 =>
    if lo < hi then do
      let mid := (lo + hi) / 2
      match sorted[mid]? with
      | .none => .ok lo
      | some y =>
        if ← before x.1 y.1 then insertionPlace sorted x lo mid fuel
        else insertionPlace sorted x (mid + 1) hi fuel
    else .ok lo

/-- A sort that failed: why, and the values in the order they had got to. -/
structure Unsorted where
  fault : Fault
  left : List Keyed

/-- Puts further items into a sorted part one by one. -/
def insertAll (sorted : Array Keyed) : List Keyed → Except Unsorted (Array Keyed)
  | [] => .ok sorted
  | x :: rest =>
    match insertionPlace sorted x 0 sorted.size (sorted.size + 1) with
    | .ok k => insertAll (sorted.insertIdxIfInBounds k x) rest
    | .error f => .error ⟨f, sorted.toList ++ x :: rest⟩

/-- Takes items while each comes strictly before the one taken last, or while none does. -/
def takeRun (descending : Bool) (run : List Keyed) (last : Keyed) : List Keyed → Except Fault (List Keyed × List Keyed)
  | [] => .ok (run, [])
  | x :: rest => do
    if (← before x.1 last.1) == descending then takeRun descending (x :: run) x rest
    else .ok (run, x :: rest)

/-- The first run of at least two values, in ascending order, and the values after it. -/
def firstRun (x y : Keyed) (rest : List Keyed) : Except Fault (List Keyed × List Keyed) := do
  let descending ← before y.1 x.1
  let (run, rest) ← takeRun descending [y, x] y rest
  return (if descending then run else run.reverse, rest)

/-- Sorts values by their keys, of whatever types; a sort that fails leaves them in the order they had got to. -/
def sortMixed : List Keyed → Except Unsorted (List Keyed)
  | [] => .ok []
  | [x] => .ok [x]
  | x :: y :: rest =>
    match firstRun x y rest with
    | .ok (run, rest) => (insertAll run.toArray rest).map Array.toList
    | .error f => .error ⟨f, x :: y :: rest⟩

/-- Values under keys of one type, if all their keys are of that type. -/
def underKeys? {κ : Type} (key? : Datum → Option κ) (xs : List Keyed) : Option (List (κ × Keyed)) :=
  xs.mapM fun x => (key? x.1).map (·, x)

/-- Sorts values by their keys if these are all whole numbers or all texts: they have a total order then. -/
def sortUniform? (xs : List Keyed) : Option (List Keyed) :=
  let number? : Datum → Option Int
    | int n => some n
    | _ => .none
  let text? : Datum → Option String
    | str s => some s
    | _ => .none
  match underKeys? number? xs with
  | some ys => some ((ys.mergeSort fun a b => decide (a.1 ≤ b.1)).map (·.2))
  | .none => (underKeys? text? xs).map fun ys => (ys.mergeSort fun a b => decide (a.1 ≤ b.1)).map (·.2)

/-- Sorts values by their keys; a sort that fails leaves them in the order they had got to. -/
def sortKeyed (xs : List Keyed) : Except Unsorted (List Keyed) :=
  match sortUniform? xs with
  | some sorted => .ok sorted
  | .none => sortMixed xs

/-- Values after a sort by their keys, ascending or descending, and why it failed if it did. Equal ones keep their
order either way. -/
def arrange (reverse : Bool) (xs : List Keyed) : List Datum × Option Fault :=
  let turned (ys : List Keyed) : List Datum := (if reverse then ys.reverse else ys).map (·.2)
  match sortKeyed (if reverse then xs.reverse else xs) with
  | .ok sorted => (turned sorted, .none)
  | .error u => (turned u.left, some u.fault)

def sortBy (reverse : Bool) (xs : List Keyed) : Except Fault (List Datum) :=
  match arrange reverse xs with
  | (sorted, .none) => .ok sorted
  | (_, some f) => .error f

/-- The first of the values for which none later is better. -/
def bestFrom (r : Relation) (best : Keyed) : List Keyed → Except Fault Keyed
  | [] => .ok best
  | x :: rest => do
    if ← relate r x.1 best.1 then bestFrom r x rest else bestFrom r best rest

end Scriptling.Datum
