/-!
# Searching texts

Splitting, replacing and joining, from left to right and without overlaps.
-/

namespace Scriptling.Text

/-- The parts of a text between occurrences of `sep`, which is not empty. -/
def splitOn (sep : List Char) : List Char → List (List Char)
  | [] => [[]]
  | c :: cs =>
    if sep.isPrefixOf (c :: cs) then [] :: splitOn sep (cs.drop (sep.length - 1))
    else match splitOn sep cs with
      | [] => [[c]]
      | part :: parts => (c :: part) :: parts
termination_by cs => cs.length

/-- Puts `new` before every character and at the end. -/
def interleave (new : List Char) : List Char → List Char
  | [] => new
  | c :: cs => new ++ c :: interleave new cs

/-- Replaces the occurrences of `old`, which is not empty, by `new`. -/
def substitute (old new : List Char) : List Char → List Char
  | [] => []
  | c :: cs =>
    if old.isPrefixOf (c :: cs) then new ++ substitute old new (cs.drop (old.length - 1))
    else c :: substitute old new cs
termination_by cs => cs.length

/-- Replaces `old` by `new`; an empty `old` occurs before every character and at the end. -/
def replaceAll (old new cs : List Char) : List Char := if old.isEmpty then interleave new cs else substitute old new cs

def joinWith (sep : List Char) : List (List Char) → List Char
  | [] => []
  | [part] => part
  | part :: parts => part ++ sep ++ joinWith sep parts

def occurs (part : List Char) : List Char → Bool
  | [] => part.isEmpty
  | c :: cs => part.isPrefixOf (c :: cs) || occurs part cs

def indexOf? (part : List Char) : List Char → Option Nat
  | [] => if part.isEmpty then some 0 else none
  | c :: cs => if part.isPrefixOf (c :: cs) then some 0 else (indexOf? part cs).map (· + 1)

/-- The words of a text between runs of characters of a class. -/
def wordsBy (isGap : Char → Bool) (current : List Char) : List Char → List (List Char)
  | [] => if current.isEmpty then [] else [current.reverse]
  | c :: cs =>
    if isGap c then
      if current.isEmpty then wordsBy isGap [] cs else current.reverse :: wordsBy isGap [] cs
    else wordsBy isGap (c :: current) cs

def trimBy (drops : Char → Bool) (cs : List Char) : List Char := ((cs.dropWhile drops).reverse.dropWhile drops).reverse

end Scriptling.Text
