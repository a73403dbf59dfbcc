import Scriptling.Typing.Basic

/-!
# Subtypes

The rules are tried in a fixed order, and the first that applies decides: equal types, the type of everything, the
empty type, a union on the right, an intersection on the left, lists by their elements, functions by their
parameters the other way round and their results, structs by name.
-/

namespace Scriptling.Typing

namespace Ty

mutual

def isSubtype (a b : Ty) : Except TypingError Bool :=
  if eq a b then .ok true
  else if b.kind = .any then .ok (a.kind != .never)
  else if a.kind = .never then .ok true
  else if b.kind = .union then
    match b with
    | union _ ms => isBelowSome a ms
    | _ => .error .noMembers
  else if a.kind = .intersection then
    match a with
    | intersection _ ms => areBelow ms b
    | _ => .error .noMembers
  else
    match a, b with
    | list _ e, list _ e' => isSubtype e e'
    | function _ ps r _, function _ ps' r' _ =>
      if ps.length ≠ ps'.length then .ok false
      else match accepts ps ps' with
        | .ok true => isSubtype r r'
        | stopped => stopped
    | a, b => .ok (a.kind == .struct && b.kind == .struct && a.name == b.name)
termination_by sizeOf a + sizeOf b

/-- Whether a type is a subtype of one of several; the first that it is a subtype of, or that fails, decides. -/
def isBelowSome (a : Ty) : List Ty → Except TypingError Bool
  | [] => .ok false
  | b :: bs =>
    match isSubtype a b with
    | .ok false => isBelowSome a bs
    | decided => decided
termination_by bs => sizeOf a + sizeOf bs

/-- Whether all of several types are subtypes of a type; the first that is not, or that fails, decides. -/
def areBelow : List Ty → Ty → Except TypingError Bool
  | [], _ => .ok true
  | a :: as, b =>
    match isSubtype a b with
    | .ok true => areBelow as b
    | decided => decided
termination_by as b => sizeOf as + sizeOf b

/-- Whether a function with the first parameters takes all arguments for the second ones. -/
def accepts : List Ty → List Ty → Except TypingError Bool
  | p :: ps, q :: qs =>
    match isSubtype q p with
    | .ok true => accepts ps qs
    | decided => decided
  | _, _ => .ok true
termination_by ps qs => sizeOf ps + sizeOf qs

end

/-- Whether a value of one type may stand where the other is expected. -/
def isAssignable (target source : Ty) : Except TypingError Bool :=
  if target.kind = .any then .ok (source.kind != .never)
  else if source.kind = .never then .ok true
  else isSubtype source target

/-- A type above all of several: the empty type for none, and the first if all are equal to it. For different types
it would be their union, which cannot be made without its kind. -/
def commonSupertype : List Ty → Except TypingError Ty
  | [] => .ok neverType
  | t :: ts =>
    if ts.all (eq · t) then .ok t
    else if (t :: ts).all isHashable then .error .missingKind
    else .error .unhashable

/-- Makes a compound type without giving its kind, which has no default. -/
def unkinded (_made : Ty) : Except TypingError Ty := .error .missingKind

mutual

/-- A type with types put in for its type variables. Each compound type is made anew of its parts. -/
def instantiate (arguments : List (String × Ty)) (t : Ty) : Except TypingError Ty :=
  if arguments.isEmpty then .ok t
  else match t with
    | var n => .ok ((arguments.lookup n).getD (var n))
    | list _ e => do unkinded (mkList "" (← instantiate arguments e))
    | function _ ps r ts => do
      let parameters ← instantiateAll arguments ps
      let result ← instantiate arguments r
      unkinded (mkFunction "" parameters result (ts.filter fun n => (arguments.lookup n).isNone))
    | struct n fs ts => do
      let fields ← instantiateFields arguments fs
      unkinded (struct n fields (ts.filter fun n => (arguments.lookup n).isNone))
    | union _ ms => do unkinded (mkUnion "" (← instantiateAll arguments ms))
    | intersection _ ms => do unkinded (mkIntersection "" (← instantiateAll arguments ms))
    | plain k n => .ok (plain k n)
    | primitive k n => .ok (primitive k n)

def instantiateAll (arguments : List (String × Ty)) : List Ty → Except TypingError (List Ty)
  | [] => .ok []
  | t :: ts => do return (← instantiate arguments t) :: (← instantiateAll arguments ts)

def instantiateFields (arguments : List (String × Ty)) :
    List (String × Ty) → Except TypingError (List (String × Ty))
  | [] => .ok []
  | (n, t) :: rest => do return (n, ← instantiate arguments t) :: (← instantiateFields arguments rest)

end

end Ty

end Scriptling.Typing
