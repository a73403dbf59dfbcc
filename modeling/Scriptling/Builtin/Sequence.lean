import Scriptling.Builtin.Numeric

/-!
# Routines on collections

Lengths, ranges, sorting, extremes and sums, and the making of lists, tuples, sets, dictionaries, bytes and
iterators. An iterator holds the items that are left of it.
-/

namespace Scriptling.Builtin

open Act

open Script (World)

variable [Size.Room]

def length (d : Datum) : Act Datum := do return .int (← lift (← look d).length)

def range (start stop step : Datum) : Act Datum := do
  let a ← whole start
  let b ← whole stop
  let c ← whole step
  if c = 0 then wrongValue else return .range a b c

def iterator (cls : String) (items : List Datum) : Act Datum := make (.iterator cls items)

def enumerate (d start : Datum) : Act Datum := do
  let n ← whole start
  let xs ← items d
  iterator "enumerate" (xs.zipIdx.map fun (x, i) => .tuple [.int (n + i), x])

/-- The tuples of the first items, the second items and so on, as long as every list has one. -/
def transpose : Nat → List (List Datum) → List Datum
  | 0, _ => []
  | fuel + 1, lists =>
    if lists.isEmpty then [] else
    match lists.mapM List.head? with
    | none => []
    | some heads => .tuple heads :: transpose fuel (lists.map List.tail)

/-- Goes through several collections together. With `strict` they have to be equally long. -/
def zip (collections : List Datum) (strict : Bool) : Act Datum := do
  let collections ← collections.mapM look
  let reaches ← lift (collections.mapM Datum.reach)
  if strict && reaches.any (· != reaches.headD 0) then wrongValue
  else
    let lists ← lift (Datum.firstTogether collections)
    iterator "zip" (transpose (lists.headD []).length lists)

def keyed (apply : Apply) (key d : Datum) : Act Datum.Keyed := do
  match key with
  | .none => return (← deep d, d)
  | f => return (← deep (← apply f [d]), d)

def sorted (apply : Apply) (d key reverse : Datum) : Act Datum := do
  let xs ← items d
  let reverse ← whole reverse
  let keys ← xs.mapM (keyed apply key)
  make (.list (← lift (Datum.sortBy (reverse != 0) keys)))

/-- The items of a sequence from the last to the first. -/
def reversed (d : Datum) : Act Datum := do
  match ← look d with
  | .set _ | .frozenset _ | .iterator .. => wrongType
  | d => iterator "reversed" (← lift d.items).reverse

/-- Whether all items of a collection are true. The one number that is not is zero. -/
def allTrue (d : Datum) : Act Bool := do
  match ← look d with
  | .range a b c => return (Datum.rangePlace? a b c 0).isNone
  | d => (← lift d.items).allM truth

/-- Whether an item of a collection is true. Of two numbers of a range one is. -/
def anyTrue (d : Datum) : Act Bool := do
  match ← look d with
  | .range a b c => (Datum.rangeFirst 2 a b c).anyM truth
  | d => (← lift d.items).anyM truth

/-- The first of the values for which none is better. -/
def extreme (r : Datum.Relation) (apply : Apply) (xs : List Datum) (key : Datum) (default? : Option Datum) :
    Act Datum := do
  match xs with
  | [] => orFail .wrongValue default?
  | x :: rest =>
    let first ← keyed apply key x
    let rest ← rest.mapM (keyed apply key)
    return (← lift (Datum.bestFrom r first rest)).2

/-- The least or greatest of the items of one collection, or of several values. -/
def extremeOf (r : Datum.Relation) (apply : Apply) (args : List Datum) (key : Datum) (default? : Option Datum) :
    Act Datum := do
  match args with
  | [] => wrongType
  | [d] =>
    match ← look d, key with
    | .range a b c, .none =>
      match Datum.rangeExtremes? a b c with
      | some (least, greatest) => return .int (if r.holds .lt then least else greatest)
      | none => orFail .wrongValue default?
    | _, key => extreme r apply (← items d) key default?
  | args => if default?.isSome then wrongType else extreme r apply args key none

/-- A value added to another; collections are joined into a new one. -/
def add (x y : Datum) : Act Datum := do keep (← lift (Datum.operate .add (← look x) (← look y)))

/-- The items of a collection added up. Texts and bytes are not added up; without items the start is the sum. -/
def sum (d start : Datum) : Act Datum := do
  match ← look d, start.int? with
  | .range a b c, some n =>
    return if Datum.rangeLength a b c = 0 then start else .int (n + Datum.rangeSum a b c)
  | _, _ =>
    let xs ← items d
    match ← look start with
    | .str _ | .bytes _ | .byteArray _ => wrongType
    | _ => xs.foldlM add start

def toList (d : Datum) : Act Datum := do make (.list (← items d))

def toTuple (d : Datum) : Act Datum := do return .tuple (← items d)

/-- The distinct items of a collection, which all have to be able to be members. -/
def distinct (d : Datum) : Act (List Datum) := do
  let xs ← (← items d).mapM deep
  if Datum.allHashable xs then return Datum.setOfList xs else wrongType

def addPair (entries : List (Datum × Datum)) (pair : Datum) : Act (List (Datum × Datum)) := do
  match ← items pair with
  | [k, v] =>
    let k ← deep k
    if k.isHashable then return Datum.insertEntry k v entries else wrongType
  | _ => wrongValue

/-- A dictionary from another or from pairs, with further entries by name. The first number of a range is no
pair. -/
def toDict (source? : Option Datum) (named : List (String × Datum)) : Act Datum := do
  let entries ← match source? with
    | none => pure []
    | some d =>
      match ← look d with
      | .dict entries => pure entries
      | .range a b c => (Datum.rangeFirst 1 a b c).foldlM addPair []
      | d => (← lift d.items).foldlM addPair []
  make (.dict (named.foldl (fun es (k, v) => Datum.insertEntry (.str k) v es) entries))

def byte (d : Datum) : Act Nat := do
  let n ← whole d
  if 0 ≤ n ∧ n < 256 then return n.toNat else wrongValue

/-- The items of a collection as bytes. A range of more than 256 numbers has one among the first 257 that is no
byte. -/
def bytesOf (d : Datum) : Act (List Nat) := do
  match d with
  | .range a b c => (Datum.rangeFirst 257 a b c).mapM byte
  | d => (← lift d.items).mapM byte

def toBytes (source? : Option Datum) : Act (List Nat) := do
  match source? with
  | none => return []
  | some d =>
    match ← look d with
    | .str _ => wrongType
    | d =>
      match d.int? with
      | some n =>
        let n ← lift (Size.word n)
        if n < 0 then wrongValue else return List.replicate (← lift (Size.items n.toNat)) 0
      | none => bytesOf d

/-- Makes room for as many bytes as a range has numbers. -/
def reserve (source? : Option Datum) : Act Unit := do
  if let some (.range a b c) := source? then
    let n ← lift (Size.count (Datum.rangeLength a b c))
    let _ ← lift (Size.chars n)

/-- The next item of an iterator, or the default when nothing is left. -/
def next (d : Datum) (default? : Option Datum) : Act Datum := do
  match ← look d with
  | .iterator cls (x :: rest) =>
    update d (.iterator cls rest)
    return x
  | .iterator _ [] => orFail .exhausted default?
  | _ => wrongType

/-- An iterator over a collection; an iterator is its own. -/
def iterate (d : Datum) : Act Datum := do
  match ← look d with
  | .iterator .. => return d
  | c => iterator (c.typeName ++ "_iterator") (← lift c.items)

/-- A function applied to the items of collections gone through together. -/
def map (apply : Apply) (f : Datum) (collections : List Datum) : Act Datum := do
  if collections.isEmpty then wrongType
  let lists ← lift (Datum.firstTogether (← collections.mapM look))
  let results ← (transpose (lists.headD []).length lists).mapM fun args =>
    match args with
    | .tuple xs => apply f xs
    | _ => wrongType
  iterator "map" results

/-- The items that a function finds true, or that are true themselves. -/
def filter (apply : Apply) (f d : Datum) : Act Datum := do
  let xs ← items d
  let kept ← xs.filterM fun x => do
    match f with
    | .none => truth x
    | f => truth (← apply f [x])
  iterator "filter" kept

def extremeRoutine (r : Datum.Relation) : Routine :=
  ⟨{ more := true, named := [orNothing "key", optional "default"] },
    fun apply b => extremeOf r apply b.rest (b.value 0) (b.given? 1)⟩

/-- A routine that makes a collection of the items of another one, or an empty one. -/
def making (f : Datum → Act Datum) : Routine :=
  .unary (.inOrder [defaulting "iterable" (.tuple [])]) f

/-- The routines on collections that come with the language. -/
def sequenceRoutines : Library := [
  ("len", .unary (unnamed ["obj"]) length),
  ("range", ⟨.inOrder [required "start", optional "stop", optional "step"], fun _ b =>
    match b.given? 1, b.given? 2 with
    | none, _ => range (.int 0) (b.value 0) (.int 1)
    | some stop, step? => range (b.value 0) stop (step?.getD (.int 1))⟩),
  ("enumerate", .binary (.of [required "iterable", defaulting "start" (.int 0)]) enumerate),
  ("zip", ⟨{ more := true, named := [defaulting "strict" (.bool false)] },
    fun _ b => do zip b.rest (← truth (b.value 0))⟩),
  ("sorted", ⟨{ positional := [required "iterable"], unnamed := 1,
                named := [orNothing "key", defaulting "reverse" (.bool false)] },
    fun apply b => sorted apply (b.value 0) (b.value 1) (b.value 2)⟩),
  ("reversed", .unary (unnamed ["sequence"]) reversed),
  ("all", ⟨unnamed ["iterable"], fun _ b => do return .bool (← allTrue (b.value 0))⟩),
  ("any", ⟨unnamed ["iterable"], fun _ b => do return .bool (← anyTrue (b.value 0))⟩),
  ("min", extremeRoutine .less),
  ("max", extremeRoutine .greater),
  ("sum", .binary { positional := [required "iterable", defaulting "start" (.int 0)], unnamed := 1 } sum),
  ("list", making toList),
  ("tuple", making toTuple),
  ("set", making fun d => do make (.set (← distinct d))),
  ("frozenset", making fun d => return .frozenset (← distinct d)),
  ("dict", ⟨{ positional := [optional "mapping"], unnamed := 1, moreNames := true },
    fun _ b => toDict (b.given? 0) b.extra⟩),
  ("bytes", ⟨.of (["source", "encoding", "errors"].map optional), fun _ b => b.upTo 1 do
    reserve (b.given? 0)
    return .bytes (← toBytes (b.given? 0))⟩),
  ("bytearray", ⟨.of (["source", "encoding", "errors"].map optional),
    fun _ b => b.upTo 1 do make (.byteArray (← toBytes (b.given? 0)))⟩),
  ("iter", ⟨.inOrder [required "object", optional "sentinel"], fun _ b => b.upTo 1 (iterate (b.value 0))⟩),
  ("next", ⟨.inOrder [required "iterator", optional "default"], fun _ b => next (b.value 0) (b.given? 1)⟩),
  ("map", ⟨{ positional := [required "function"], unnamed := 1, more := true },
    fun apply b => map apply (b.value 0) b.rest⟩),
  ("filter", ⟨unnamed ["function", "iterable"], fun apply b => filter apply (b.value 0) (b.value 1)⟩)]

end Scriptling.Builtin
