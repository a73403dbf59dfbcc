import Scriptling.Proofs.Script.Restore
import Scriptling.Proofs.Walk.Effect

/-!
# The tree walker comes back to its environment

Whatever statement the walker executes, and however that ends, the environment that was current before is
current again afterwards, unless the program has given the walker another one on a detour. Together with the same about
scripts, this is `execute_restores_scope`.
-/

namespace Scriptling.Walk

open Scope (Forest)

theorem extends_of_stored {name : String} {f f' : Forest} (h : Stored name f f') : f.Extends f' := by
  cases h with
  | nothing => exact .refl f
  | bound id x => exact f.extends_bindNew id name x
  | changed _ g => exact f.extends_updateVariable _ g

theorem extends_of_sprouted {env : Nat} {f f' : Forest} (h : Sprouted f env f') : f.Extends f' := by
  induction h with
  | child => exact f.extends_add (some env) none
  | binds h name x ih => exact ih.trans (Forest.extends_bindNew _ _ name x)

/-- Whatever is stored, and whatever environment a block is in, the one from before is current again. -/
theorem current_effect : Effect (fun _ => True) fun before after => after.current = before.current where
  refl _ := rfl
  trans h h' := h'.trans h
  sprouts _ := rfl
  marks _ _ := rfl
  stores _ _ := rfl
  block _ := rfl

/-- No environment is lost, and each stays inside the same one. -/
theorem extends_effect : Effect (fun _ => True) fun before after => before.forest.Extends after.forest where
  refl _ := .refl _
  trans h h' := h.trans h'
  sprouts h := extends_of_sprouted h
  marks _ v := Forest.extends_updateVariable _ v _
  stores _ h := extends_of_stored h
  block h := (Forest.extends_add _ _ none).trans h

section Runs

variable [Size.Room] [Host] (fuel : Nat) (n : Node)

/-- If no detour gives the walker another current environment, the run does not. -/
theorem execute_current : Follows (fun before after => after.current = before.current) (execute fuel n) :=
  current_effect.execute fuel fun _ _ _ _ => trivial

/-- No environment is lost, nor moved into another one. -/
theorem execute_extends : Follows (fun before after => before.forest.Extends after.forest) (execute fuel n) :=
  extends_effect.execute fuel fun _ _ _ _ => trivial

end Runs

end Scriptling.Walk

namespace Scriptling

namespace Walk

end Walk

-- What follows is computed on an ordinary machine, with nothing behind the walker.
attribute [local instance] Size.ordinary Walk.Host.absent

end Scriptling
