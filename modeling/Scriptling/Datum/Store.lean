import Scriptling.Datum.Basic

/-!
# Shared collections

A store says what each cell holds. `freeze` replaces cells by what they hold, so that a value can be printed
or compared; `thaw` gives each mutable collection of a value a cell of its own.
-/

namespace Scriptling

abbrev Store := Array Datum

namespace Datum

mutual

def replaceCells (f : Nat → Datum) : Datum → Datum
  | cell id => f id
  | list xs => list (replaceAll f xs)
  | tuple xs => tuple (replaceAll f xs)
  | set xs => set (replaceAll f xs)
  | frozenset xs => frozenset (replaceAll f xs)
  | dict es => dict (replaceEntries f es)
  | record fs => record (replaceFields f fs)
  | iterator c xs => iterator c (replaceAll f xs)
  | method r name => method (replaceCells f r) name
  | value t p => value (replaceCells f t) (replaceCells f p)
  | none => none
  | bool b => bool b
  | int n => int n
  | float x => float x
  | complex re im => complex re im
  | str s => str s
  | bytes bs => bytes bs
  | byteArray bs => byteArray bs
  | range a b c => range a b c
  | cls name => cls name
  | function name => function name
  | builtin name => builtin name
  | object c text id => object c text id
  | tag t => tag t
  | token k l v n => token k l v n
  | frame id => frame id

def replaceAll (f : Nat → Datum) : List Datum → List Datum
  | [] => []
  | d :: ds => replaceCells f d :: replaceAll f ds

def replaceEntries (f : Nat → Datum) : List (Datum × Datum) → List (Datum × Datum)
  | [] => []
  | (k, v) :: rest => (replaceCells f k, replaceCells f v) :: replaceEntries f rest

def replaceFields (f : Nat → Datum) : List (String × Datum) → List (String × Datum)
  | [] => []
  | (k, v) :: rest => (k, replaceCells f v) :: replaceFields f rest

end

end Datum

namespace Store

def alloc (store : Store) (d : Datum) : Datum × Store := (.cell store.size, store.push d)

/-- What a value is once its own cell has been looked up. -/
def contents (store : Store) : Datum → Datum
  | .cell id => store.getD id .none
  | d => d

/-- A value with its cells replaced by what they hold. A cell inside itself, which `path` tells, stays. -/
def freezeWithin (store : Store) : Nat → List Nat → Datum → Datum
  | 0, _, d => d
  | n + 1, path, d =>
    d.replaceCells fun id =>
      if path.contains id then .cell id
      else freezeWithin store n (id :: path) (store.getD id .none)

/-- A value with its cells replaced by what they hold. -/
def freeze (store : Store) (d : Datum) : Datum := store.freezeWithin (store.size + 1) [] d

mutual

def thaw (store : Store) : Datum → Datum × Store
  | .list xs => let (xs, store) := thawAll store xs; store.alloc (.list xs)
  | .set xs => let (xs, store) := thawAll store xs; store.alloc (.set xs)
  | .dict es => let (es, store) := thawEntries store es; store.alloc (.dict es)
  | .record fs => let (fs, store) := thawFields store fs; store.alloc (.record fs)
  | .iterator c xs => let (xs, store) := thawAll store xs; store.alloc (.iterator c xs)
  | .byteArray bs => store.alloc (.byteArray bs)
  | .tuple xs => let (xs, store) := thawAll store xs; (.tuple xs, store)
  | .value t p => let (p, store) := thaw store p; (.value t p, store)
  | d => (d, store)

def thawAll (store : Store) : List Datum → List Datum × Store
  | [] => ([], store)
  | d :: ds =>
    let (d, store) := thaw store d
    let (ds, store) := thawAll store ds
    (d :: ds, store)

def thawEntries (store : Store) : List (Datum × Datum) → List (Datum × Datum) × Store
  | [] => ([], store)
  | (k, v) :: rest =>
    let (v, store) := thaw store v
    let (rest, store) := thawEntries store rest
    ((k, v) :: rest, store)

def thawFields (store : Store) : List (String × Datum) → List (String × Datum) × Store
  | [] => ([], store)
  | (k, v) :: rest =>
    let (v, store) := thaw store v
    let (rest, store) := thawFields store rest
    ((k, v) :: rest, store)

end

end Store

end Scriptling
