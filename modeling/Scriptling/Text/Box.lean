import Scriptling.Text.Class
import Scriptling.Text.Search

/-!
# Boxes

A text in a frame of one character. A line that is too long is cut at the last blank that leaves a piece
within the width, or else in the middle of a word; every piece is centred.

The room for text can be nothing or less. Cutting then comes back to the same line for ever, which is why
the pieces of a line are an option.
-/

namespace Scriptling.Text.Box

/-- A cut position within a line; a negative one counts from the end. -/
def position (line : List Char) (i : Int) : Nat := if i < 0 then (line.length + i).toNat else min line.length i.toNat

/-- The position of the last blank, if there is one. -/
def lastBlank? : List Char → Option Nat
  | [] => none
  | c :: rest =>
    match lastBlank? rest with
    | some i => some (i + 1)
    | none => if c = ' ' then some 0 else none

def cut (room : Int) (line : List Char) : Nat :=
  (lastBlank? (line.take (position line (room + 1)))).getD (position line room)

def strip (cs : List Char) : List Char := trimBy isBlank cs

/-- The pieces of a line, in at most so many cuts. An empty line has none. -/
def pieces (room : Int) : Nat → List Char → Option (List (List Char))
  | 0, _ => none
  | fuel + 1, line =>
    if (line.length : Int) > room then
      let k := cut room line
      (pieces room fuel (strip (line.drop k))).map (strip (line.take k) :: ·)
    else some (if line.isEmpty then [] else [line])

/-- The pieces of a line, or nothing if cutting never ends. A cut that gets further makes the line shorter,
so that as many cuts as there are characters are enough. -/
def pieces? (room : Int) (line : List Char) : Option (List (List Char)) := pieces room (line.length + 1) line

def content? (room : Int) (text : String) : Option (List (List Char)) :=
  ((splitOn ['\n'] text.toList).mapM (pieces? room)).map List.flatten

/-- So many blanks; none if the number is negative. -/
def blanks (n : Int) : String := String.ofList (List.replicate n.toNat ' ')

/-- A row with a piece in its middle. With an odd number of blanks the right side has one more. -/
def row (border : String) (width : Int) (piece : List Char) : String :=
  let spare := width - piece.length
  let left := spare.fdiv 2
  border ++ " " ++ blanks left ++ String.ofList piece ++ blanks (spare - left) ++ " " ++ border

/-- The room for text in a terminal of so many columns. -/
def room (columns padding : Int) : Int := columns - 4 - padding * 2

/-- The width of a box inside its border and the blanks next to it. -/
def width (content : List (List Char)) (padding : Int) : Int :=
  (content.foldl (fun n piece => max n piece.length) 0 : Nat) + padding * 2

def emptyRow (border : String) (width : Int) : String := border ++ blanks (width + 2) ++ border

/-- The rows of a box around pieces of text, between an edge above and below. -/
def frame (content : List (List Char)) (padding : Int) (border edge : String) : List String :=
  let width := width content padding
  let margin := List.replicate padding.toNat (emptyRow border width)
  [edge] ++ margin ++ content.map (row border width) ++ margin ++ [edge]

end Scriptling.Text.Box
