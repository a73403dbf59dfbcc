import Scriptling.Indented.Lexer

/-!
# Reading indented text

A lexer takes one step after another until nothing is left. What a step does depends on the state of the machine. A
step in the middle of a word or string moves over one character; since the beginning of a step is noted anew each
time, such a token holds only what its last step has read.

A step that reads nothing changes the state, and no two states hand a character back and forth; so a few steps for
each character are enough, and `tokenize` provides for them.
-/

namespace Scriptling.Indented

open Text
open String (ofList singleton)

/-- What a step gives: a lexer, and why it stops if it does. -/
abbrev StepResult := Except Stop Unit × Lexer

namespace Lexer

def goOn (l : Lexer) : StepResult := (.ok (), l)

def stop (l : Lexer) (c : Complaint) : StepResult :=
  let (s, l) := l.complain c
  (.error s, l)

def fail (l : Lexer) (kind : FaultKind) : StepResult := (.error (.fault kind), l)

def enter (l : Lexer) (s : State) : Lexer := { l with state := s }

/-- The width after one more blank: a tab goes to the next multiple of eight. -/
def widen (width : Nat) (c : Char) : Nat := if c = '\t' then (width / 8 + 1) * 8 else width + 1

/-- The width of the blanks at the front of a text. -/
def widthOf (cs : List Char) : Nat := (cs.takeWhile isSpace).foldl widen 0

/-- Closes the indentations that are wider than the line, with a token for each. -/
def closeIndents (l : Lexer) (width : Nat) : Lexer :=
  let closed := l.indents.takeWhile (width < ·)
  { closed.foldl (fun l _ => l.add .dedent "" .none) l with indents := l.indents.dropWhile (width < ·) }

/-- Compares the width of a line with the open indentations. -/
def indentTo (l : Lexer) (width : Nat) : StepResult :=
  let top := l.indents.headD 0
  if top < width then
    (({ l with indents := width :: l.indents }).add .indent (ofList (List.replicate width ' '))
      .none).goOn
  else if width < top then
    let l := l.closeIndents width
    if l.indents.headD 0 = width then l.goOn else l.stop .indentation
  else l.goOn

/-- The end of a line, and the indentation of the next. A line end is counted when it is moved over and once more
here. -/
def readLineEnd (l : Lexer) : StepResult :=
  let isPair := l.current = '\r' ∧ l.next = '\n'
  let text := if isPair then "\r\n" else singleton l.current
  let l := if isPair then l.move else l
  let l := (l.add .newline text .none).move
  let l := { l with line := l.line + 1, column := 1 }
  let width := widthOf l.rest
  let l := l.moveWhile isSpace
  if isLineEnd l.current || l.current = '#' then l.goOn else l.indentTo width

def readComment (l : Lexer) : StepResult := ((l.moveWhile fun c => !isLineEnd c).enter .start).goOn

/-- A sign. The percent sign has no reading before another character. -/
def readSign (l : Lexer) : StepResult :=
  let c := l.current
  match l.rest.drop 1 with
  | d :: _ =>
    if c = '%' then l.fail .wrongType
    else match doubles.lookup (c, d) with
      | some kind => ((l.advance 2).add kind (ofList [c, d]) .none).goOn
      | none => single l c
  | [] => single l c
where
  single (l : Lexer) (c : Char) : StepResult :=
    match singles.lookup c with
    | some kind => ((l.add kind (singleton c) .none).move).goOn
    | none => l.stop (.unexpected c)

def stepStart (l : Lexer) : StepResult :=
  let c := l.current
  if isSpace c then (l.moveWhile isSpace).goOn
  else if isLineEnd c then l.readLineEnd
  else if c = '#' then l.readComment
  else if c = '"' || c = '\x27' then
    ({ l.move with state := .string, quote? := some (singleton c) }).goOn
  else if isDigit c || (c = '.' && isDigit l.next) then (l.enter .number).goOn
  else if isWordStart c then (l.enter .identifier).goOn
  else l.readSign

def stepIdentifier (l : Lexer) : StepResult :=
  if isWordChar l.current then l.move.goOn
  else ((l.add (wordKind l.lexeme) l.lexeme .none).enter .start).goOn

def isDigitOrBar (c : Char) : Bool := isDigit c || c == '_'

/-- The digits of an exponent, with a sign before them if there is one. -/
def exponentDigits : List Char → List Char
  | c :: rest => if c = '+' || c = '-' then c :: rest.takeWhile isDigitOrBar else (c :: rest).takeWhile isDigitOrBar
  | [] => []

def exponentText : List Char → List Char
  | c :: rest => if c = 'e' || c = 'E' then c :: exponentDigits rest else []
  | [] => []

/-- The mark of an imaginary number that a text begins with. -/
def imaginaryText (cs : List Char) : List Char := (cs.take 1).filter fun c => c = 'j' || c = 'J'

def numberText (cs : List Char) : List Char :=
  let body := cs.takeWhile fun c => isDigit c || c == '.' || c == '_'
  let cs := cs.drop body.length
  let exponent := exponentText cs
  body ++ exponent ++ imaginaryText (cs.drop exponent.length)

def stepNumber (l : Lexer) : StepResult :=
  let lexeme := numberText l.rest
  let l := l.advance lexeme.length
  match Number.readFloat? (ofList (lexeme.filter (· != '_'))) with
  | some x => ((l.add .number (ofList lexeme) (.float x)).enter .start).goOn
  | none => l.fail .wrongValue

/-- The mark of a string's kind before its quote; none is ever read. -/
def stringMark : String := ""

/-- A string without what stands before it and the quote after it. -/
def inner (before : Nat) (lexeme : String) : String := ofList (lexeme.toList.drop before).dropLast

def stepString (l : Lexer) : StepResult :=
  let c := l.current
  if c = '\\' then (l.move.enter .escape).goOn
  else match l.quote? with
    | none => l.fail .missingAttribute
    | some quote =>
      if singleton c = quote then
        let l := l.move
        ((l.add .string l.lexeme (.str (inner stringMark.length l.lexeme))).enter .start).goOn
      else if c = '\n' && quote.length = 1 then l.stop .unterminated
      else l.move.goOn

def stepTemplate (l : Lexer) : StepResult :=
  let c := l.current
  if c = '\x7b' then
    let l := l.move
    if l.current = '\x7b' then l.move.goOn
    else ({ l with state := .hole, parens := 1 }).goOn
  else if c = '\x7d' then
    let l := l.move
    if l.current = '\x7d' then l.move.goOn else l.stop .strayBrace
  else match l.quote? with
    | none => l.fail .missingAttribute
    | some quote =>
      if singleton c = quote then
        let l := l.move
        let l := (l.add .string l.lexeme (.str (inner 2 l.lexeme))).enter .start
        match l.templates with
        | 0 => l.fail .badIndex
        | n + 1 => ({ l with templates := n }).goOn
      else l.move.goOn

def stepHole (l : Lexer) : StepResult :=
  let c := l.current
  if c = '\x7b' || c = '(' then ({ l with parens := l.parens + 1 }.move).goOn
  else if c = '\x7d' then
    let l := { l with parens := l.parens - 1 }
    if l.parens = 0 then (l.move.enter .template).goOn else l.move.goOn
  else if c = '[' then ({ l with brackets := l.brackets + 1 }.move).goOn
  else if c = ']' then
    if l.brackets = 0 then l.stop .strayBracket else ({ l with brackets := l.brackets - 1 }.move).goOn
  else if c = ')' then
    if l.parens = 0 then l.stop .strayParen else ({ l with parens := l.parens - 1 }.move).goOn
  else if c = ':' && l.parens = 1 && l.brackets = 0 then (l.move.enter .format).goOn
  else l.move.goOn

/-- A step in the format after an expression in a string. -/
def stepFormat (l : Lexer) : StepResult :=
  let c := l.current
  if c = '\x7d' then
    let l := { l with parens := l.parens - 1 }
    if l.parens = 0 then (l.move.enter .template).goOn else l.move.goOn
  else if c = '\x7b' then
    let l := l.move
    if l.current = '\x7b' then l.move.goOn else ({ l with parens := l.parens + 1 }).goOn
  else l.move.goOn

def step (l : Lexer) : StepResult :=
  let l := l.mark
  match l.state with
  | .start => l.stepStart
  | .identifier => l.stepIdentifier
  | .number => l.stepNumber
  | .string => l.stepString
  | .escape => (l.move.enter .string).goOn
  | .comment => l.readComment
  | .template => l.stepTemplate
  | .hole => l.stepHole
  | .format => l.stepFormat

/-- Takes steps until nothing is left or the lexer stops. -/
def run : Nat → Lexer → StepResult
  | 0, l => if l.atEnd then l.goOn else (.error .outOfFuel, l)
  | n + 1, l =>
    if l.atEnd then l.goOn
    else match l.step with
      | (.ok (), l) => run n l
      | (.error s, l) => (.error s, l)

def fuelFor (length : Nat) : Nat := 4 * length + 4

/-- Reads all that is left, and adds the token of the end. A complaint is noted a second time when it gets out. -/
def tokenize (l : Lexer) : StepResult :=
  match run (fuelFor l.rest.length) l with
  | (.ok (), l) => (l.add .endMarker "" .none).goOn
  | (.error (.complaint c line column), l) =>
    (.error (.complaint c line column), { l with complaints := l.complaints ++ [l.located c.message] })
  | r => r

def skipBlanks (l : Lexer) : Lexer := l.moveWhile isSpace

/-- Moves up to one of some characters, and gives what it moved over. -/
def moveUntil (l : Lexer) (stops : List Char) : String × Lexer :=
  (ofList (l.rest.takeWhile fun c => !stops.contains c), l.moveWhile fun c => !stops.contains c)

end Lexer

def tokenize (filename source : String) : StepResult := (Lexer.start filename source).tokenize

end Scriptling.Indented
