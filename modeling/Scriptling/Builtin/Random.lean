import Scriptling.Builtin.Sequence

/-!
# Random routines

Random numbers come from the world's supply. When it is used up, the middle of the interval stands for them.
-/

namespace Scriptling.Builtin

open Act

open Script (World)

variable [Size.Room]

def nextRandom : Act Float :=
  modifyGet fun w =>
    match w.dice with
    | x :: dice => (x, { w with dice })
    | [] => (0.5, w)

def randomBelow (n : Nat) : Act Nat := do
  let x ← nextRandom
  return min ((Number.floor? (x * Number.floatOfInt n)).getD 0).toNat (n - 1)

/-- A whole number, or something that is equal to one. -/
def wholeOrEqual (d : Datum) : Act Int := do
  let d ← deep d
  match d.int? with
  | some n => return n
  | none =>
    let n ← lift d.toInt
    if Datum.eq (.int n) d then return n else wrongValue

/-- A random member of a range, which must not be empty. -/
def randomInRange (start stop step : Int) : Act Datum := do
  let n := Datum.rangeLength start stop step
  if n = 0 then wrongValue
  else return .int (start + step * (← randomBelow n))

/-- A random member of a range, or of the numbers below `start` if no `stop` is given. -/
def randomFrom (start stop : Datum) (step? : Option Datum) : Act Datum := do
  let start ← wholeOrEqual start
  match stop, step? with
  | .none, none | .none, some (.int 1) => randomInRange 0 start 1
  | .none, some _ => wrongType
  | stop, step? =>
    let stop ← wholeOrEqual stop
    let step ← wholeOrEqual (step?.getD (.int 1))
    randomInRange start stop step

/-- Takes random items out of a list until `k` are taken. -/
def takeRandom : Nat → List Datum → Act (List Datum)
  | 0, _ => return []
  | k + 1, xs => do
    let i ← randomBelow xs.length
    return xs.getD i .none :: (← takeRandom k (xs.eraseIdx i))

/-- `k` different random places below `n`. The places that are taken, in ascending order, are passed over. -/
def takePlaces (n : Nat) : Nat → List Nat → Act (List Nat)
  | 0, _ => return []
  | k + 1, taken => do
    let i := taken.foldl (fun i t => if t ≤ i then i + 1 else i) (← randomBelow (n - taken.length))
    return i :: (← takePlaces n k (taken.takeWhile (· < i) ++ i :: taken.dropWhile (· < i)))

/-- A sequence; other collections have no places to draw from. -/
def sequence (d : Datum) : Act Datum := do
  let d ← look d
  match d with
  | .str _ | .bytes _ | .byteArray _ | .list _ | .tuple _ | .range .. => return d
  | _ => wrongType

/-- `k` random items of a sequence, each place at most once. -/
def draw (d k : Datum) : Act (List Datum) := do
  let n ← lift d.length
  let k ← deep k
  unless ← lift (Datum.relate .lessEqual (.int 0) k) do wrongValue
  unless ← lift (Datum.relate .lessEqual k (.int n)) do wrongValue
  let places ← takePlaces n (← whole k).toNat []
  lift (places.mapM fun (i : Nat) => d.getItem (.int i))

/-- The sums of the first items, of the first two, and so on. -/
def runningSums (total? : Option Datum) : List Datum → Act (List Datum)
  | [] => return []
  | x :: rest => do
    let total ← match total? with
      | some total => add total x
      | none => pure x
    return total :: (← runningSums (some total) rest)

/-- `k` random items of a sequence in which each item counts so many times. -/
def drawCounted (d counts k : Datum) : Act (List Datum) := do
  let n ← lift d.length
  let sums ← runningSums none (← items counts)
  if sums.length != n then wrongValue
  match sums.getLast? with
  | none => failPlain .badIndex
  | some total =>
    let total ← whole total
    if total ≤ 0 then wrongValue
    let places ← draw (.range 0 total 1) k
    places.mapM fun place => do
      let before ← sums.filterM fun sum => lift (Datum.relate .lessEqual sum place)
      lift (d.getItem (.int before.length))

/-- Puts the items of a collection that may change, numbered from zero, into a random order. -/
def shuffle (d : Datum) : Act Datum := do
  match ← look d with
  | .list xs =>
    update d (.list (← takeRandom xs.length xs))
    return .none
  | .byteArray bs =>
    let places ← takePlaces bs.length bs.length []
    update d (.byteArray (places.map fun i => bs.getD i 0))
    return .none
  | .dict entries =>
    if entries.length ≤ 1 then return .none
    let keys := (List.range entries.length).map fun (i : Nat) => Datum.int i
    let values ← orFail .missingKey (keys.mapM (Datum.lookup? entries))
    let values ← takeRandom values.length values
    update d (.dict ((keys.zip values).foldl (fun es (k, v) => Datum.insertEntry k v es) entries))
    return .none
  | c =>
    if (← lift c.length) ≤ 1 then return .none else wrongType

def randomRoutines : Library := [
  ("random", ⟨unnamed [], fun _ _ => return .float (← nextRandom)⟩),
  ("uniform", ⟨.exactly ["a", "b"], fun _ b => do
    let width ← lift (Datum.operate .sub (b.value 1) (b.value 0))
    let x ← nextRandom
    lift (Datum.operate .add (b.value 0) (← lift (Datum.operate .mul width (.float x))))⟩),
  ("randint", ⟨.exactly ["a", "b"], fun _ b => do
    randomFrom (b.value 0) (← add (b.value 1) (.int 1)) none⟩),
  ("randrange", ⟨.of [required "start", orNothing "stop", optional "step"], fun _ b => do
    randomFrom (b.value 0) (b.value 1) (b.given? 2)⟩),
  ("choice", ⟨.exactly ["seq"], fun _ b => do
    match ← look (b.value 0) with
    | .set _ | .frozenset _ => wrongType
    | d =>
      match ← lift d.length with
      | 0 => failPlain .badIndex
      | n => do lift (d.getItem (.int (← randomBelow n)))⟩),
  ("shuffle", .unary (.exactly ["x"]) shuffle),
  ("sample", ⟨{ positional := [required "population", required "k"], named := [orNothing "counts"] }, fun _ b => do
    let d ← sequence (b.value 0)
    match b.value 2 with
    | .none => do make (.list (← draw d (b.value 1)))
    | counts => do make (.list (← drawCounted d counts (b.value 1)))⟩),
  ("seed", ⟨.of [orNothing "a", defaulting "version" (.int 2)], fun _ b => do
    match ← look (b.value 0) with
    | .none | .bool _ | .int _ | .float _ | .str _ | .bytes _ | .byteArray _ => return .none
    | _ => wrongType⟩),
  ("getrandbits", ⟨unnamed ["k"], fun _ b => do
    let k ← lift (Size.short (← whole (b.value 0)))
    if k < 0 then wrongValue else return .int (← randomBelow (Nat.pow 2 k.toNat))⟩)]

end Scriptling.Builtin
