import Scriptling.Datum.Arithmetic
import Scriptling.Datum.Text

/-!
# Values in words

A number of things in the singular or the plural, and a value as a list of values.
-/

namespace Scriptling.Datum

/-- A value as a list: nothing has no items, a list or tuple has its own, anything else is the only item. -/
def listed : Datum → List Datum
  | none => []
  | list xs | tuple xs => xs
  | d => [d]

/-- So many things. The plural is made with an s if none is given. -/
def counted [Size.Room] (count singular plural : Datum) : Except Fault String := do
  let word ←
    if eq count (int 1) then singular.display
    else if plural.truthy then plural.display
    else (← operate .add singular (str "s")).display
  return (← count.display) ++ " " ++ word

end Scriptling.Datum
