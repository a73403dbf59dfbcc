/-!
# Lines

Two ideas of a line. A displayed source breaks at every line boundary that Unicode knows; a text file that
is read breaks at line feeds, once carriage returns have been turned into them.
-/

namespace Scriptling.Text

/-- Characters that end a displayed line. A carriage return and a following line feed end one line together. -/
def isLineBreak (c : Char) : Bool :=
  let n := c.toNat
  (10 ≤ n && n ≤ 13) || (28 ≤ n && n ≤ 30) || n == 0x85 || n == 0x2028 || n == 0x2029

/-- Displayed lines, given what has been read of the current one, last character first. -/
def linesFrom (current : List Char) : List Char → List (List Char)
  | [] => if current.isEmpty then [] else [current.reverse]
  | '\r' :: '\n' :: rest => current.reverse :: linesFrom [] rest
  | c :: rest =>
    if isLineBreak c then current.reverse :: linesFrom [] rest else linesFrom (c :: current) rest

/-- The displayed lines of a text, without their ends. A final line break opens no further line. -/
def splitLines (s : String) : List String := (linesFrom [] s.toList).map String.ofList

/-- Reads carriage returns, alone or before a line feed, as line feeds. -/
def unifyNewlines : List Char → List Char
  | [] => []
  | '\r' :: '\n' :: rest => '\n' :: unifyNewlines rest
  | c :: rest => (if c = '\r' then '\n' else c) :: unifyNewlines rest

/-- The parts of a line between blanks. -/
def words (line : String) : List String :=
  let add (c : Char) (parts : List (List Char)) :=
    if c = ' ' then [] :: parts else (c :: parts.headD []) :: parts.tail
  (line.toList.foldr add [[]]).map String.ofList

def readAsText (s : String) : String := String.ofList (unifyNewlines s.toList)

end Scriptling.Text
