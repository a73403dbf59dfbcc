import Scriptling.Datum.Equality

/-!
# Values as arguments

A request names an operation and gives values with it. These readings take a value for what the operation expects
there; a value of another form counts as nothing of the kind.
-/

namespace Scriptling.Datum

def asText : Datum → String
  | str s => s
  | _ => ""

def text? : Datum → Option String
  | str s => some s
  | _ => .none

def asFlag : Datum → Bool
  | bool b => b
  | _ => false

def asItems : Datum → List Datum
  | list xs => xs
  | _ => []

/-- The entries of a dictionary under words, in order; no other value has any. -/
def asOptions : Datum → List (String × Datum)
  | dict es => es.filterMap fun (k, v) => k.text?.map fun s => (s, v)
  | _ => []

def option? (d : Datum) (word : String) : Option Datum := d.asOptions.lookup word

/-- Whether a dictionary holds something under a word that is not among those known. -/
def hasOther (d : Datum) (known : List String) : Bool := d.asOptions.any fun (k, _) => !known.contains k

/-- What a dictionary holds under a word, or nothing. -/
def optionOrNone (d : Datum) (word : String) : Datum := (d.option? word).getD .none

end Scriptling.Datum
