import Scriptling.Datum.Basic
import Scriptling.Text.Search

/-!
# Command line arguments

A grammar has switches, which are written with one or two dashes anywhere, and slots, which take words in order. A
word of one dash may hold several short switches. A long switch may be cut short as long as only one fits. After a
lone pair of dashes everything is a word.

The last slot may name a command, which has a grammar of its own for all that follows.
-/

namespace Scriptling.Command

/-- How many words a slot takes. Each takes as many as it can. -/
inductive Take where
  | one
  | optional (default : String)
  | several
  | rest
  /-- The name of a command and all that is left, if anything is. -/
  | command
  deriving Repr, DecidableEq

structure Slot where
  key : String
  take : Take
  deriving Repr, DecidableEq

structure Switch where
  names : List String
  /-- What it sets; a switch that sets nothing asks for help. -/
  key : Option String
  deriving Repr, DecidableEq

def helpSwitch : Switch := ⟨["-h", "--help"], none⟩

inductive Part where
  | switch (s : Switch)
  | slot (s : Slot)
  deriving Repr, DecidableEq

/-- A grammar of arguments: its parts in the order in which their settings are listed. -/
structure Grammar where
  parts : List Part
  deriving Repr, DecidableEq

def Grammar.switches (g : Grammar) : List Switch :=
  g.parts.filterMap fun
    | .switch s => some s
    | .slot _ => none

def Grammar.slots (g : Grammar) : List Slot :=
  g.parts.filterMap fun
    | .switch _ => none
    | .slot s => some s

/-- Why no settings are made: help was asked for, or the arguments are wrong. -/
inductive Refusal where
  | help
  | misuse
  deriving Repr, DecidableEq

def Refusal.code : Refusal → Int
  | help => 0
  | misuse => 2

/-- What arguments set, in the order of the grammar. -/
abbrev Settings : Type := List (String × Datum)

def Settings.put (s : Settings) (key : String) (v : Datum) : Settings :=
  if s.any (·.1 == key) then s.map fun old => if old.1 == key then (key, v) else old else s ++ [(key, v)]

/-! ## Kinds of argument -/

/-- The text in the argument of a switch beyond its name. -/
inductive Attached where
  | nothing
  | joined (cs : List Char)
  | assigned (cs : List Char)
  deriving Repr, DecidableEq

/-- What an argument is taken for. -/
inductive Mark where
  | word
  | divider
  /-- A switch and the text attached to it; nothing if it is unknown. -/
  | switch (found : Option (Switch × Attached))
  deriving Repr, DecidableEq

abbrev Marked : Type := Mark × String

def isSwitch (m : Marked) : Bool :=
  match m.1 with
  | .switch _ => true
  | _ => false

def isDivider (m : Marked) : Bool := m.1 == .divider

namespace Grammar

def written (g : Grammar) : List (Switch × String) := g.switches.flatMap fun s => s.names.map (s, ·)

def named? (g : Grammar) (name : String) : Option Switch := (g.written.find? fun w => w.2 == name).map (·.1)

/-- Whether a text is a negative number, with or without a fraction. A final line feed does not count. -/
def isNegativeNumber (cs : List Char) : Bool :=
  let cs := if cs.getLast? = some '\n' then cs.dropLast else cs
  match cs with
  | '-' :: number =>
    let whole := number.takeWhile Text.isDecimal
    match number.dropWhile Text.isDecimal with
    | [] => whole != []
    | '.' :: fraction => fraction != [] && fraction.all Text.isDecimal
    | _ => false
  | _ => false

/-- The switches that an argument may stand for when it is not written out. -/
def candidates (g : Grammar) (cs : List Char) : List (Switch × Attached) :=
  match cs with
  | '-' :: '-' :: _ =>
    let start := cs.takeWhile (· != '=')
    let attached := if cs.contains '=' then .assigned (cs.drop (start.length + 1)) else .nothing
    (g.written.filter fun w => start.isPrefixOf w.2.toList).map fun w => (w.1, attached)
  | _ =>
    g.written.filterMap fun (s, name) =>
      if name.toList = cs.take 2 then some (s, .joined (cs.drop 2))
      else if cs.isPrefixOf name.toList then some (s, .nothing)
      else none

/-- What an argument is, before any divider. Two switches that fit equally well are a misuse. -/
def mark (g : Grammar) (arg : String) : Except Refusal Mark :=
  let cs := arg.toList
  if cs.head? != some '-' then .ok .word
  else match g.named? arg with
  | some s => .ok (.switch (some (s, .nothing)))
  | none =>
    if cs.length = 1 then .ok .word
    else
      let start := String.ofList (cs.takeWhile (· != '='))
      match (if cs.contains '=' then g.named? start else none) with
      | some s => .ok (.switch (some (s, .assigned (cs.drop (start.length + 1)))))
      | none =>
        match g.candidates cs with
        | [found] => .ok (.switch (some found))
        | _ :: _ :: _ => .error .misuse
        | [] => if isNegativeNumber cs || cs.contains ' ' then .ok .word else .ok (.switch none)

def markAll (g : Grammar) : List String → Except Refusal (List Marked)
  | [] => .ok []
  | arg :: rest =>
    if arg = "--" then .ok ((.divider, arg) :: rest.map (.word, ·))
    else do
      let m ← g.mark arg
      return (m, arg) :: (← g.markAll rest)

/-- The switches in a word of one dash, from one of them on, and whether the word ends in letters that are none. A
dash or an equals sign in it is a misuse. -/
def cluster (g : Grammar) (s : Switch) : List Char → Except Refusal (List Switch × Bool)
  | [] => .ok ([s], false)
  | c :: rest =>
    if c = '-' || c = '=' then .error .misuse
    else match g.named? (String.ofList ['-', c]) with
    | some next => do
      let (later, surplus) ← g.cluster next rest
      return (s :: later, surplus)
    | none => .ok ([s], true)

/-- The switches that an argument stands for, and whether something of it is left. No switch takes a value. -/
def expand (g : Grammar) (s : Switch) : Attached → Except Refusal (List Switch × Bool)
  | .nothing => .ok ([s], false)
  | .joined cs => g.cluster s cs
  | .assigned _ => .error .misuse

/-- The settings of a grammar before any argument. -/
def defaults (g : Grammar) : Settings :=
  g.parts.filterMap fun
    | .switch s => s.key.map fun k => (k, Datum.bool false)
    | .slot s => some (s.key, match s.take with
      | .optional d => .str d
      | _ => .none)

end Grammar

/-! ## Filling slots -/

/-- The arguments that a slot takes, and the rest. -/
def Take.split (t : Take) (items : List Marked) : Option (List String × List Marked) :=
  let dividers := items.takeWhile isDivider
  let after := items.dropWhile isDivider
  match t, after with
  | .rest, _ | .command, (.word, _) :: _ => some (items.map (·.2), [])
  | .one, (.word, w) :: more | .optional _, (.word, w) :: more =>
    some (dividers.map (·.2) ++ [w] ++ (more.takeWhile isDivider).map (·.2), more.dropWhile isDivider)
  | .optional _, _ => some (dividers.map (·.2), after)
  | .several, (.word, w) :: more =>
    some (dividers.map (·.2) ++ [w] ++ (more.takeWhile (!isSwitch ·)).map (·.2), more.dropWhile (!isSwitch ·))
  | _, _ => none

/-- The settings made so far, and the slots that are still open. -/
structure Progress where
  settings : Settings
  slots : List Slot
  /-- Whether there were arguments that have no place. -/
  surplus : Bool

abbrev CommandReader : Type := String → List String → Except Refusal Progress

/-- Puts the arguments of a slot into the settings. -/
def Progress.fill (p : Progress) (command : CommandReader) (slot : Slot) (args : List String) :
    Except Refusal Progress :=
  let words := args.erase "--"
  match slot.take with
  | .one => .ok { p with settings := p.settings.put slot.key (.str (words.headD "")) }
  | .optional d => .ok { p with settings := p.settings.put slot.key (.str (words.headD d)) }
  | .several => .ok { p with settings := p.settings.put slot.key (.list (words.map .str)) }
  | .rest => .ok { p with settings := p.settings.put slot.key (.list (args.map .str)) }
  | .command => do
    let name := args.headD ""
    let inner ← command name (args.drop 1)
    let settings := inner.settings.foldl (fun s e => Settings.put s e.1 e.2) (p.settings.put slot.key (.str name))
    return { p with settings, surplus := p.surplus || inner.surplus }

def Progress.fillAll (command : CommandReader) (p : Progress) :
    List Slot → List Marked → Except Refusal (Progress × List Marked)
  | [], items => .ok ({ p with slots := [] }, items)
  | slot :: slots, items =>
    match slot.take.split items with
    | none => .ok ({ p with slots := slot :: slots }, items)
    | some (args, rest) => do (← p.fill command slot args).fillAll command slots rest

def Progress.set (p : Progress) : List Switch → Except Refusal Progress
  | [] => .ok p
  | s :: rest =>
    match s.key with
    | none => .error .help
    | some key => { p with settings := p.settings.put key (.bool true) }.set rest

/-- Ends reading: what is left goes into slots, and no slot that needs a word may stay empty. -/
def Progress.finish (p : Progress) (command : CommandReader) (items : List Marked) : Except Refusal Progress := do
  let (p, rest) ← p.fillAll command p.slots items
  if p.slots.any fun s => s.take == .one || s.take == .several then throw .misuse
  return { p with surplus := p.surplus || !rest.isEmpty }

/-- Reads arguments. The fuel is spent one unit an argument. -/
def Grammar.advance (g : Grammar) (command : CommandReader) : Nat → Progress → List Marked → Except Refusal Progress
  | 0, p, items => p.finish command items
  | fuel + 1, p, items =>
    if !items.any isSwitch then p.finish command items
    else match items with
    | (.switch none, _) :: rest => g.advance command fuel { p with surplus := true } rest
    | (.switch (some (s, attached)), _) :: rest => do
      let (switches, surplus) ← g.expand s attached
      let p ← p.set switches
      g.advance command fuel { p with surplus := p.surplus || surplus } rest
    | items => do
      let (p, rest) ← p.fillAll command p.slots items
      if rest.length < items.length then g.advance command fuel p rest
      else g.advance command fuel { p with surplus := true } (rest.dropWhile (!isSwitch ·))

def Grammar.readWith (g : Grammar) (command : CommandReader) (args : List String) : Except Refusal Progress := do
  let items ← g.markAll args
  g.advance command items.length ⟨g.defaults, g.slots, false⟩ items

/-- Reads arguments, with the grammars of the commands. An argument without a place is a misuse. -/
def Grammar.read (g : Grammar) (commands : List (String × Grammar)) (args : List String) : Except Refusal Settings := do
  let p ← g.readWith (fun name rest =>
    match commands.lookup name with
    | some inner => inner.readWith (fun _ _ => .error .misuse) rest
    | none => .error .misuse) args
  if p.surplus then throw .misuse
  return p.settings

end Scriptling.Command
