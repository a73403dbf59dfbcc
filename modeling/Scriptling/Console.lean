import Scriptling.Fault
import Scriptling.Text.Lines

/-!
# The console

What a program has printed and what it can still read. Input is text, or bytes that become text at the first
read. A line that begins with the interrupt character stops the program when it is read.
-/

namespace Scriptling

/-- What is still to be read: a text, or bytes that have not been decoded. -/
inductive Input where
  | text (rest : List Char)
  | bytes (all : List Nat)
  deriving Repr, DecidableEq

structure Console where
  out : String
  err : String
  input : Input
  deriving Repr, DecidableEq

namespace Console

def ofInput (input : Input) : Console := ⟨"", "", input⟩

def empty : Console := ofInput (.text [])

instance : Inhabited Console := ⟨empty⟩

def print (c : Console) (s : String) : Console := { c with out := c.out ++ s }

def printLine (c : Console) (s : String) : Console := c.print (s ++ "\n")

def printLines (c : Console) (lines : List String) : Console := lines.foldl printLine c

def printError (c : Console) (s : String) : Console := { c with err := c.err ++ s ++ "\n" }

/-- The character that stands for an interrupt by the user. -/
def interruptMark : Char := '\x03'

def readText (c : Console) (rest : List Char) : Except Fault String × Console :=
  match rest with
  | [] => (.error .endOfInput, { c with input := .text [] })
  | first :: _ =>
    let line := rest.takeWhile (· != '\n')
    let c := { c with input := .text ((rest.dropWhile (· != '\n')).drop 1) }
    if first = interruptMark then (.error (.plain .interrupted), c)
    else (.ok (String.ofList line), c)

/-- Reads a line. Bytes that are no text are lost, all of them. -/
def readLine (c : Console) : Except Fault String × Console :=
  match c.input with
  | .text rest => c.readText rest
  | .bytes bs =>
    match Text.decodeUtf8 bs with
    | .ok s => c.readText (Text.unifyNewlines s.toList)
    | .error f => (.error (.undecodable f), { c with input := .text [] })

end Console

end Scriptling
