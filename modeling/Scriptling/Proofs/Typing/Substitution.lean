import Scriptling.Typing.Subtype

/-!
# Substitution

What it means to put types in for the type variables of a type (`Ty.substitute`), for types of any nesting: no
variable that was replaced is left unless it was put in (`Ty.lookup_eq_none_of_part`), and a type that mentions none of
them stays what it is (`Ty.substitute_of_unmentioned`). Instantiation is this substitution for types without parts
only: to make a compound type anew it would have to give its kind, which it does not (`instantiate_stops_at_compounds`).
-/

namespace Scriptling.Typing

open List

variable {ts : List Ty}

namespace Ty

/-! ## Types and their parts -/

/-- A property of types holds of all if each type has it whose parts have it. -/
theorem of_parts {P : Ty → Prop} (hPlain : ∀ k n, P (plain k n)) (hPrimitive : ∀ k n, P (primitive k n))
    (hList : ∀ n e, P e → P (list n e))
    (hFunction : ∀ n ps r ts, (∀ p ∈ ps, P p) → P r → P (function n ps r ts))
    (hStruct : ∀ n fs ts, (∀ f ∈ fs, P f.2) → P (struct n fs ts))
    (hUnion : ∀ n ms, (∀ m ∈ ms, P m) → P (union n ms))
    (hIntersection : ∀ n ms, (∀ m ∈ ms, P m) → P (intersection n ms)) (hVar : ∀ n, P (var n)) (t : Ty) : P t :=
  @Ty.rec P (fun ts => ∀ t ∈ ts, P t) (fun fs => ∀ f ∈ fs, P f.2) (fun f => P f.2) hPlain hPrimitive hList hFunction
    hStruct hUnion hIntersection hVar (by simp) (fun _ _ ht hts => forall_mem_cons.mpr ⟨ht, hts⟩) (by simp)
    (fun _ _ hf hfs => forall_mem_cons.mpr ⟨hf, hfs⟩) (fun _ _ ht => ht) t

/-- A type occurs in another, or is it. -/
inductive Part (s : Ty) : Ty → Prop
  | whole : Part s s
  | element {n e} (h : Part s e) : Part s (list n e)
  | parameter {n ps r p ts} (hp : p ∈ ps) (h : Part s p) : Part s (function n ps r ts)
  | result {n ps r ts} (h : Part s r) : Part s (function n ps r ts)
  | field {n fs f ts} (hf : f ∈ fs) (h : Part s f.2) : Part s (struct n fs ts)
  | alternative {n ms m} (hm : m ∈ ms) (h : Part s m) : Part s (union n ms)
  | conjunct {n ms m} (hm : m ∈ ms) (h : Part s m) : Part s (intersection n ms)

def typeParameters : Ty → List String
  | function _ _ _ ts | struct _ _ ts => ts
  | _ => []

/-- A name is that of a variable or of a type parameter in a type. -/
def Mentions (t : Ty) (n : String) : Prop := ∃ s, Part s t ∧ (s = var n ∨ n ∈ s.typeParameters)

def isCompound : Ty → Bool
  | plain .. | primitive .. | var _ => false
  | _ => true

/-! ## Putting types in for variables -/

/-- A name that was the text of a type is the text of what becomes of it; a name that was given stays. -/
def renamed (name old new : String) : String := if name = old then new else name

theorem renamed_self (name text : String) : renamed name text text = name := by
  unfold renamed
  split
  next hEq => exact hEq.symm
  · rfl

/-- The names that nothing is put in for. -/
def unreplaced (arguments : List (String × Ty)) (names : List String) : List String :=
  names.filter fun n => (arguments.lookup n).isNone

mutual

/-- A type with each type variable that has an argument replaced by it, and without the type parameters that have
one. -/
def substitute (arguments : List (String × Ty)) : Ty → Ty
  | plain k n => plain k n
  | primitive k n => primitive k n
  | list n e =>
    let e' := substitute arguments e
    list (renamed n (list n e).text (list n e').text) e'
  | function n ps r ts =>
    let ps' := substituteAll arguments ps
    let r' := substitute arguments r
    function (renamed n (function n ps r ts).text (function n ps' r' ts).text) ps' r' (unreplaced arguments ts)
  | struct n fs ts => struct n (substituteFields arguments fs) (unreplaced arguments ts)
  | union n ms =>
    let ms' := substituteAll arguments ms
    union (renamed n (union n ms).text (union n ms').text) ms'
  | intersection n ms =>
    let ms' := substituteAll arguments ms
    intersection (renamed n (intersection n ms).text (intersection n ms').text) ms'
  | var n => (arguments.lookup n).getD (var n)

def substituteAll (arguments : List (String × Ty)) : List Ty → List Ty
  | [] => []
  | t :: ts => substitute arguments t :: substituteAll arguments ts

def substituteFields (arguments : List (String × Ty)) : List (String × Ty) → List (String × Ty)
  | [] => []
  | (n, t) :: rest => (n, substitute arguments t) :: substituteFields arguments rest

end

variable {arguments : List (String × Ty)} {t : Ty} {n : String}

theorem substituteAll_eq (ts : List Ty) : substituteAll arguments ts = ts.map (substitute arguments) := by
  induction ts with
  | nil => rfl
  | cons t ts ih => rw [substituteAll, ih, map_cons]

theorem mem_substituteAll {s : Ty} :
    s ∈ substituteAll arguments ts ↔ ∃ t ∈ ts, substitute arguments t = s := by
  rw [substituteAll_eq, mem_map]

theorem substituteAll_of_fixed (h : ∀ t ∈ ts, substitute arguments t = t) :
    substituteAll arguments ts = ts := by
  rw [substituteAll_eq]
  exact (map_congr_left h).trans (map_id ts)

theorem substituteFields_eq (fs : List (String × Ty)) :
    substituteFields arguments fs = fs.map fun f => (f.1, substitute arguments f.2) := by
  induction fs with
  | nil => rfl
  | cons f fs ih => rw [substituteFields, ih, map_cons]

/-- **Nothing is left to replace.** If no argument has a variable with an argument, neither has the result. -/
theorem lookup_eq_none_of_part (hArguments : ∀ k s, arguments.lookup k = some s → ∀ n, Part (var n) s →
    arguments.lookup n = none) (h : Part (var n) (t.substitute arguments)) : arguments.lookup n = none := by
  induction t using of_parts with
  | hPlain | hPrimitive => cases h
  | hList _ e ih =>
    cases h with
    | element h => exact ih h
  | hFunction _ ps r _ ihps ihr =>
    cases h with
    | parameter hp h =>
      obtain ⟨p, hMem, rfl⟩ := mem_substituteAll.mp hp
      exact ihps p hMem h
    | result h => exact ihr h
  | hStruct _ fs _ ih =>
    cases h with
    | field hf h =>
      rw [substituteFields_eq] at hf
      obtain ⟨f, hMem, rfl⟩ := mem_map.mp hf
      exact ih f hMem h
  | hUnion _ ms ih =>
    cases h with
    | alternative hm h =>
      obtain ⟨m, hMem, rfl⟩ := mem_substituteAll.mp hm
      exact ih m hMem h
  | hIntersection _ ms ih =>
    cases h with
    | conjunct hm h =>
      obtain ⟨m, hMem, rfl⟩ := mem_substituteAll.mp hm
      exact ih m hMem h
  | hVar k =>
    rw [substitute] at h
    cases hLookup : arguments.lookup k with
    | some s =>
      rw [hLookup] at h
      exact hArguments k s hLookup n h
    | none =>
      rw [hLookup] at h
      cases h
      exact hLookup

theorem unreplaced_eq {names : List String} (h : ∀ n ∈ names, arguments.lookup n = none) :
    unreplaced arguments names = names :=
  filter_eq_self.mpr fun n hn => by simp [h n hn]

theorem Mentions.of_part {s : Ty} (hs : ∀ r, Part r s → Part r t) (h : s.Mentions n) : t.Mentions n := by
  obtain ⟨r, hr, hName⟩ := h
  exact ⟨r, hs r hr, hName⟩

/-- **Nothing is replaced that is not mentioned.** -/
theorem substitute_of_unmentioned (h : ∀ n, t.Mentions n → arguments.lookup n = none) : t.substitute arguments = t := by
  induction t using of_parts with
  | hPlain | hPrimitive => rfl
  | hList n e ih =>
    have he : substitute arguments e = e := ih fun n hn => h n (hn.of_part fun _ => .element)
    simp only [substitute, he, renamed_self]
  | hFunction n ps r ts ihps ihr =>
    have hps : substituteAll arguments ps = ps :=
      substituteAll_of_fixed fun p hp => ihps p hp fun n hn => h n (hn.of_part fun _ => .parameter hp)
    have hr : substitute arguments r = r := ihr fun n hn => h n (hn.of_part fun _ => .result)
    have hts : unreplaced arguments ts = ts := unreplaced_eq fun n hn => h n ⟨_, .whole, .inr hn⟩
    simp only [substitute, hps, hr, hts, renamed_self]
  | hStruct n fs ts ih =>
    have hfs : substituteFields arguments fs = fs := by
      rw [substituteFields_eq]
      refine (map_congr_left fun f hf => ?_).trans (map_id fs)
      rw [ih f hf fun n hn => h n (hn.of_part fun _ => .field hf)]
      rfl
    have hts : unreplaced arguments ts = ts := unreplaced_eq fun n hn => h n ⟨_, .whole, .inr hn⟩
    simp only [substitute, hfs, hts]
  | hUnion n ms ih =>
    have hms : substituteAll arguments ms = ms :=
      substituteAll_of_fixed fun m hm => ih m hm fun n hn => h n (hn.of_part fun _ => .alternative hm)
    simp only [substitute, hms, renamed_self]
  | hIntersection n ms ih =>
    have hms : substituteAll arguments ms = ms :=
      substituteAll_of_fixed fun m hm => ih m hm fun n hn => h n (hn.of_part fun _ => .conjunct hm)
    simp only [substitute, hms, renamed_self]
  | hVar n => simp [substitute, h n ⟨_, .whole, .inl rfl⟩]

/-! ## Instantiation -/

/-- If it fails, it is for want of a kind. -/
def LacksKind {α : Type} (r : Except TypingError α) : Prop := ∀ e, r = .error e → e = .missingKind

namespace LacksKind

variable {α β : Type} {r : Except TypingError α} {f : α → Except TypingError β}

theorem ok (a : α) : LacksKind (.ok a) := fun _ h => by cases h

theorem bind (hr : LacksKind r) (hf : ∀ a, LacksKind (f a)) : LacksKind (r >>= f) := by
  cases r with
  | ok a => exact hf a
  | error e => exact fun e' h => hr e' (by cases h; rfl)

theorem bind_eq (hr : LacksKind r) (hf : ∀ a, f a = .error .missingKind) : r >>= f = .error .missingKind := by
  cases r with
  | ok a => exact hf a
  | error e => exact congrArg Except.error (hr e rfl)

end LacksKind

theorem lacksKind_instantiateAll (h : ∀ t ∈ ts, LacksKind (t.instantiate arguments)) :
    LacksKind (instantiateAll arguments ts) := by
  induction ts with
  | nil => exact .ok []
  | cons t ts ih =>
    rw [instantiateAll]
    refine (h t mem_cons_self).bind fun s => ?_
    exact (ih fun t ht => h t (mem_cons_of_mem _ ht)).bind fun _ => .ok _

theorem lacksKind_instantiateFields {fs : List (String × Ty)} (h : ∀ f ∈ fs, LacksKind (f.2.instantiate arguments)) :
    LacksKind (instantiateFields arguments fs) := by
  induction fs with
  | nil => exact .ok []
  | cons f fs ih =>
    rw [instantiateFields]
    refine (h f mem_cons_self).bind fun s => ?_
    exact (ih fun f hf => h f (mem_cons_of_mem _ hf)).bind fun _ => .ok _

/-- A type without parts is instantiated by substitution. A compound type fails, if not for a part of it then for its
own kind. -/
theorem instantiate_eq (hSome : arguments.isEmpty = false) (t : Ty) :
    t.instantiate arguments = if t.isCompound then .error .missingKind else .ok (t.substitute arguments) := by
  have hLacks {s : Ty} (h : s.instantiate arguments =
      if s.isCompound then .error .missingKind else .ok (s.substitute arguments)) :
      LacksKind (s.instantiate arguments) := by
    rw [h]
    split
    · exact fun _ h => by cases h; rfl
    · exact .ok _
  induction t using of_parts <;> rw [instantiate, hSome]
  case hPlain | hPrimitive | hVar => rfl
  case hList n e ih => exact (hLacks ih).bind_eq fun _ => rfl
  case hFunction n ps r ts ihps ihr =>
    exact (lacksKind_instantiateAll fun p hp => hLacks (ihps p hp)).bind_eq fun _ => (hLacks ihr).bind_eq fun _ => rfl
  case hStruct n fs ts ih => exact (lacksKind_instantiateFields fun f hf => hLacks (ih f hf)).bind_eq fun _ => rfl
  case hUnion n ms ih | hIntersection n ms ih =>
    exact (lacksKind_instantiateAll fun m hm => hLacks (ih m hm)).bind_eq fun _ => rfl

end Ty

/-- **Instantiation stops at compound types.** For all types and arguments, instantiation gives the substitution if
there are no arguments or the type is no compound one, and otherwise fails for want of a kind. The substitution has no
variable with an argument if the arguments have none, and is the type itself if that mentions none. -/
theorem instantiate_stops_at_compounds (arguments : List (String × Ty)) (t : Ty) :
    (t.instantiate arguments = if arguments.isEmpty || !t.isCompound then .ok (t.substitute arguments)
      else .error .missingKind) ∧
    ((∀ k s, arguments.lookup k = some s → ∀ n, Ty.Part (.var n) s → arguments.lookup n = none) →
      ∀ n, Ty.Part (.var n) (t.substitute arguments) → arguments.lookup n = none) ∧
    ((∀ n, t.Mentions n → arguments.lookup n = none) → t.substitute arguments = t) := by
  refine ⟨?_, fun h _ => Ty.lookup_eq_none_of_part h, Ty.substitute_of_unmentioned⟩
  cases arguments with
  | nil =>
    have hSame : t.substitute [] = t := Ty.substitute_of_unmentioned fun _ _ => rfl
    rw [hSame]
    cases t <;> rfl
  | cons entry later =>
    rw [Ty.instantiate_eq rfl]
    cases t.isCompound <;> rfl

/-- A list of a type variable cannot be instantiated, though a list of the argument is what it would be. -/
theorem list_not_instantiated :
    let arguments := [("T", Ty.primitive .number "number")]
    (Ty.mkList "" (.var "T")).substitute arguments = .mkList "" (.primitive .number "number") ∧
    (Ty.mkList "" (.var "T")).instantiate arguments = .error .missingKind := by
  refine ⟨?_, by rw [Ty.instantiate_eq rfl]; rfl⟩
  simp [Ty.mkList, Ty.substitute, Ty.renamed, Ty.text, Ty.nameOr]

end Scriptling.Typing
