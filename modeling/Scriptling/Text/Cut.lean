import Scriptling.Text.Search

/-!
# Cutting texts

Cuts at a limited number of places, from either end, and the first and the last occurrence of a part. What is
done from the right is done from the left on the reversed text.
-/

namespace Scriptling.Text

/-- The parts of a text between the first `limit` occurrences of `sep`, which is not empty. -/
def splitUpTo (sep : List Char) : Nat → List Char → List (List Char)
  | _, [] => [[]]
  | 0, cs => [cs]
  | limit + 1, c :: cs =>
    if sep.isPrefixOf (c :: cs) then [] :: splitUpTo sep limit (cs.drop (sep.length - 1))
    else match splitUpTo sep (limit + 1) cs with
      | [] => [[c]]
      | part :: parts => (c :: part) :: parts
termination_by _ cs => cs.length

/-- The first `limit` words of a text between runs of characters of a class, and what follows them. -/
def wordsUpTo (isGap : Char → Bool) : Nat → List Char → List (List Char)
  | 0, cs =>
    let rest := cs.dropWhile isGap
    if rest.isEmpty then [] else [rest]
  | limit + 1, cs =>
    let rest := cs.dropWhile isGap
    if rest.isEmpty then []
    else rest.takeWhile (!isGap ·) :: wordsUpTo isGap limit (rest.dropWhile (!isGap ·))

/-- What a cut from the left gives on the reversed text, turned round again: a cut from the right. -/
def fromRight (cut : List Char → List (List Char)) (cs : List Char) : List (List Char) :=
  ((cut cs.reverse).map List.reverse).reverse

/-- Replaces the first `limit` occurrences of `old`, which is not empty, by `new`. -/
def substituteUpTo (old new : List Char) : Nat → List Char → List Char
  | _, [] => []
  | 0, cs => cs
  | limit + 1, c :: cs =>
    if old.isPrefixOf (c :: cs) then new ++ substituteUpTo old new limit (cs.drop (old.length - 1))
    else c :: substituteUpTo old new (limit + 1) cs
termination_by _ cs => cs.length

/-- Puts `new` before the first `limit` characters; the end counts as one. -/
def interleaveUpTo (new : List Char) : Nat → List Char → List Char
  | 0, cs => cs
  | _ + 1, [] => new
  | limit + 1, c :: cs => new ++ c :: interleaveUpTo new limit cs

/-- Replaces the first `limit` occurrences of `old` by `new`; an empty `old` occurs before every character and at
the end. -/
def replaceUpTo (limit : Nat) (old new cs : List Char) : List Char :=
  if old.isEmpty then interleaveUpTo new limit cs else substituteUpTo old new limit cs

def lastIndexOf? (part cs : List Char) : Option Nat :=
  (indexOf? part.reverse cs.reverse).map fun i => cs.length - part.length - i

/-- How often a part occurs without overlap; the empty part is at every place. -/
def occurrences (part cs : List Char) : Nat := if part.isEmpty then cs.length + 1 else (splitOn part cs).length - 1

/-- A text around the place of a part of `n` characters: what stands before it, the part, and what follows. -/
def around (n : Nat) (cs : List Char) (place : Nat) : List Char × List Char × List Char :=
  (cs.take place, (cs.drop place).take n, cs.drop (place + n))

/-- A text with characters of one kind before and after it. -/
def padded (left right : Nat) (fill : Char) (cs : List Char) : List Char :=
  List.replicate left fill ++ cs ++ List.replicate right fill

/-- How many of `margin` characters stand on the left when a text is centred in a field: half of them, and the odd
one only if the field is odd too. -/
def leftMargin (width margin : Nat) : Nat := margin / 2 + (if margin % 2 = 1 ∧ width % 2 = 1 then 1 else 0)

def zeroFilled (zeros : Nat) (cs : List Char) : List Char :=
  match cs with
  | '+' :: rest => '+' :: (List.replicate zeros '0' ++ rest)
  | '-' :: rest => '-' :: (List.replicate zeros '0' ++ rest)
  | cs => List.replicate zeros '0' ++ cs

def tabWidth (size column : Nat) : Nat := if size = 0 then 0 else size - column % size

/-- How long the rest of a text gets when its tabs are made blanks, from a column on. -/
def expandedLength (size column : Nat) : List Char → Nat
  | [] => 0
  | c :: rest =>
    if c = '\t' then tabWidth size column + expandedLength size (column + tabWidth size column) rest
    else expandedLength size (if c = '\n' ∨ c = '\r' then 0 else column + 1) rest + 1

/-- The rest of a text with its tabs made blanks, from a column on. -/
def expandTabs (size column : Nat) : List Char → List Char
  | [] => []
  | c :: rest =>
    if c = '\t' then
      List.replicate (tabWidth size column) ' ' ++ expandTabs size (column + tabWidth size column) rest
    else c :: expandTabs size (if c = '\n' ∨ c = '\r' then 0 else column + 1) rest

end Scriptling.Text
