import Scriptling.Text.CaseTable
import Scriptling.Text.Class

/-!
# Upper and lower case

Case mapping of whole texts. A character may map to several; the Greek capital sigma alone looks at its
neighbours, since it has another small form at the end of a word.
-/

namespace Scriptling.Text

def shiftIn? (runs : Array CaseRun) (n : Nat) : Option Char :=
  (runs.find? fun r => decide (r.first ≤ n) && decide (n ≤ r.last) && (n - r.first) % r.step == 0).map
    fun r => Char.ofNat ((n : Int) + r.shift).toNat

def upperChars (c : Char) : List Char :=
  if c.toNat < 0x80 then [c.toUpper] else
  match upperMany.find? (·.1 == c.toNat) with
  | some (_, cs) => cs.map Char.ofNat
  | none => [(shiftIn? upperRuns c.toNat).getD c]

def lowerChars (c : Char) : List Char :=
  if c.toNat < 0x80 then [c.toLower] else
  match lowerMany.find? (·.1 == c.toNat) with
  | some (_, cs) => cs.map Char.ofNat
  | none => [(shiftIn? lowerRuns c.toNat).getD c]

/-! ## Letters with a case -/

/-- Letters that are a capital and a small one together. -/
def isTitleLetter (c : Char) : Bool := inRanges titleLetterRanges c.toNat

/-- A letter with a lower case is a capital, and so are some without. -/
def isCapital (c : Char) : Bool := (lowerChars c != [c] && !isTitleLetter c) || inRanges capitalRanges c.toNat

/-- A letter with an upper case is small, and so are some without. -/
def isSmall (c : Char) : Bool := (upperChars c != [c] && !isTitleLetter c) || inRanges smallRanges c.toNat

def isCased (c : Char) : Bool := isCapital c || isSmall c || isTitleLetter c

/-- Characters that do not end a word when case is decided. -/
def isCaseIgnorable (c : Char) : Bool :=
  if c.toNat < 0x80 then c == '\'' || c == '.' || c == ':' || c == '^' || c.toNat == 0x60
  else inRanges caseIgnorableRanges c.toNat

/-- Whether the nearest character that counts has a case. -/
def nearestCased (cs : List Char) : Bool :=
  match cs.dropWhile isCaseIgnorable with
  | [] => false
  | c :: _ => isCased c

def capitalSigma : Char := 'Σ'

/-- The lower case of a character between the characters before it, nearest first, and those after it. -/
def lowerAmid (before : List Char) (c : Char) (after : List Char) : List Char :=
  if c == capitalSigma then [if nearestCased before && !nearestCased after then 'ς' else 'σ'] else lowerChars c

/-- Lower case of the rest of a text, given the characters before it, nearest first. -/
def lowerFrom (before : List Char) : List Char → List Char
  | [] => []
  | c :: rest => lowerAmid before c rest ++ lowerFrom (c :: before) rest

def upper (s : String) : String := String.ofList (s.toList.flatMap upperChars)

def lower (s : String) : String := String.ofList (lowerFrom [] s.toList)

/-! ## Capitals -/

/-- A character at the start of a word. Of several letters the first alone is a capital, and an iota stands below it. -/
def titleChars (c : Char) : List Char :=
  match shiftIn? titleRuns c.toNat, upperChars c with
  | some t, _ => [t]
  | none, [] => []
  | none, first :: rest =>
    first :: if isCapital first then rest.flatMap fun d => if d == 'Ι' then ['\u0345'] else lowerChars d else rest

/-- Cherokee letters, which are compared as capitals. -/
def isCherokee (c : Char) : Bool := inRanges #[(0x13a0, 0x13fd), (0xab70, 0xabbf)] c.toNat

/-- A character for comparison without regard to case: letters with one upper case are the same. -/
def foldChars (c : Char) : List Char :=
  if c == 'ẞ' then ['s', 's']
  else if c == 'ı' then [c]
  else if isCherokee c then upperChars c
  else (upperChars c).flatMap lowerChars

/-- Every word of the rest of a text with a capital. `before` is what stands before it, nearest first. -/
def titleFrom (before : List Char) : List Char → List Char
  | [] => []
  | c :: rest =>
    (if before.head?.any isCased then lowerAmid before c rest else titleChars c) ++ titleFrom (c :: before) rest

/-- The first character as in a title, and the others in lower case. -/
def capitalize : List Char → List Char
  | [] => []
  | c :: rest => titleChars c ++ lowerFrom [c] rest

/-- Capitals made small and small letters made capital. `before` is what stands before, nearest first. -/
def swapCaseFrom (before : List Char) : List Char → List Char
  | [] => []
  | c :: rest =>
    (if isCapital c then lowerAmid before c rest else if isSmall c then upperChars c else [c]) ++
      swapCaseFrom (c :: before) rest

/-! ## ASCII alone -/

/-- Every word with a capital, where only ASCII letters have a case. -/
def asciiTitleFrom (inWord : Bool) : List Char → List Char
  | [] => []
  | c :: rest => (if inWord then c.toLower else c.toUpper) :: asciiTitleFrom c.isAlpha rest

/-- The first character a capital and the others small, where only ASCII letters have a case. -/
def asciiCapitalize : List Char → List Char
  | [] => []
  | c :: rest => c.toUpper :: rest.map Char.toLower

def asciiSwapCase (c : Char) : Char := if c.isUpper then c.toLower else c.toUpper

end Scriptling.Text
