import Scriptling.Text.Case
import Scriptling.Text.Lines

/-!
# Alphabets

What an operation on characters has to know of them: their classes and their cases. Texts use all of Unicode;
bytes are read as characters of which only those of ASCII have a class or a case.
-/

namespace Scriptling.Text

structure Alphabet where
  isBlank : Char → Bool
  isLetter : Char → Bool
  isDigit : Char → Bool
  isAlphanumeric : Char → Bool
  isCapital : Char → Bool
  isSmall : Char → Bool
  /-- Letters that are a capital and a small one together. -/
  isTitleLetter : Char → Bool
  isLineBreak : Char → Bool
  upper : List Char → List Char
  lower : List Char → List Char
  title : List Char → List Char
  capitalize : List Char → List Char
  swapCase : List Char → List Char

namespace Alphabet

def unicode : Alphabet where
  isBlank := Text.isBlank
  isLetter := Text.isLetter
  isDigit := Text.isDigit
  isAlphanumeric := Text.isAlphanumeric
  isCapital := Text.isCapital
  isSmall := Text.isSmall
  isTitleLetter := Text.isTitleLetter
  isLineBreak := Text.isLineBreak
  upper := fun cs => cs.flatMap upperChars
  lower := lowerFrom []
  title := titleFrom []
  capitalize := Text.capitalize
  swapCase := swapCaseFrom []

def ascii : Alphabet where
  isBlank := fun c => c == ' ' || (decide (9 ≤ c.toNat) && decide (c.toNat ≤ 13))
  isLetter := Char.isAlpha
  isDigit := Char.isDigit
  isAlphanumeric := Char.isAlphanum
  isCapital := Char.isUpper
  isSmall := Char.isLower
  isTitleLetter := fun _ => false
  isLineBreak := fun c => c == '\n' || c == '\r'
  upper := fun cs => cs.map Char.toUpper
  lower := fun cs => cs.map Char.toLower
  title := asciiTitleFrom false
  capitalize := asciiCapitalize
  swapCase := fun cs => cs.map asciiSwapCase

/-- Whether a text has small letters and no capitals. -/
def allSmall (a : Alphabet) (cs : List Char) : Bool :=
  cs.all (fun c => !a.isCapital c && !a.isTitleLetter c) && cs.any a.isSmall

/-- Whether a text has capitals and no small letters. -/
def allCapital (a : Alphabet) (cs : List Char) : Bool :=
  cs.all (fun c => !a.isSmall c && !a.isTitleLetter c) && cs.any a.isCapital

/-- Whether the words of the rest of a text begin with capitals and go on with small letters; `inWord` says
whether a letter stands before it. -/
def wordsTitled (a : Alphabet) (inWord : Bool) : List Char → Bool
  | [] => true
  | c :: rest =>
    if a.isCapital c || a.isTitleLetter c then !inWord && wordsTitled a true rest
    else if a.isSmall c then inWord && wordsTitled a true rest
    else wordsTitled a false rest

/-- Whether a text has words and each begins with a capital. -/
def isTitled (a : Alphabet) (cs : List Char) : Bool :=
  wordsTitled a false cs && cs.any fun c => a.isCapital c || a.isTitleLetter c

/-- The lines of a text with their ends, given what has been read of the current one, last character first. -/
def endedLinesFrom (a : Alphabet) (current : List Char) : List Char → List (List Char × List Char)
  | [] => if current.isEmpty then [] else [(current.reverse, [])]
  | '\r' :: '\n' :: rest => (current.reverse, ['\r', '\n']) :: endedLinesFrom a [] rest
  | c :: rest =>
    if a.isLineBreak c then (current.reverse, [c]) :: endedLinesFrom a [] rest
    else endedLinesFrom a (c :: current) rest

/-- The lines of a text, with or without their ends. -/
def lines (a : Alphabet) (keepEnds : Bool) (cs : List Char) : List (List Char) :=
  (endedLinesFrom a [] cs).map fun (line, ending) => if keepEnds then line ++ ending else line

end Alphabet

end Scriptling.Text
