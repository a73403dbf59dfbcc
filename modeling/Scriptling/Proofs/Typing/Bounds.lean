import Scriptling.Proofs.Typing.Preorder

/-!
# Unions and intersections as bounds

A union is above each of its members. Nothing else of what a union or an intersection means carries over to the test
of subtyping: it has no rule for a union on the left, and it asks of an intersection on the left that all its members
be below the other type, where one would do.

So a union is below a type only where an equal union is one of the alternatives of that type, and two unions of the
same members in different order are below each other only if they are equal in that order too. An intersection is
below one of its members only where all of them are.

The type of everything is left out here, since every union and every intersection is below it.

## Main results

* `below_iff_exists_alternative`: unions on the right are looked through, down to a single alternative.
* `union_below_iff`, `intersection_below_iff`: what stands above a union, and above an intersection.
* `union_intersection_bounds`: which of the laws of bounds hold, and when the others do.
* `commonSupertype_bounds`: a common supertype is found for equal types only, where their union would be above all.
-/

namespace Scriptling.Typing

open List

/-- The kinds of types without parts, those of the empty type and of the type of everything left out. -/
def TypeKind.ground : List TypeKind := [.void, .null, .boolean, .number, .string, .generic]

namespace Ty

variable {a s t u : Ty}

/-- Types without the empty type and the type of everything. -/
abbrev Ground : Ty → Prop := BuiltFrom TypeKind.ground

theorem Ground.proper (h : t.Ground) : t.Proper := h.mono (by decide)

theorem Ground.kind_ne_any (h : t.Ground) : t.kind ≠ .any := by
  cases h with
  | plain hk | primitive hk =>
    intro hAny
    cases hAny
    exact absurd hk (by decide)
  | _ => simp [kind]

/-! ## Alternatives -/

/-- What a type offers: itself, and what the members of a union offer. -/
inductive AlternativeOf : Ty → Ty → Prop
  | self {t : Ty} : AlternativeOf t t
  | member {u : Ty} {n : String} {ms : List Ty} {m : Ty} (hm : m ∈ ms) (h : AlternativeOf u m) :
      AlternativeOf u (union n ms)

theorem AlternativeOf.ground (h : AlternativeOf u t) (ht : t.Ground) : u.Ground := by
  induction h with
  | self => exact ht
  | member hm _ ih => exact ih (ht.part hm)

theorem AlternativeOf.above (h : AlternativeOf u t) (ht : t.Ground) (ha : a.Proper) (hBelow : Below a u) :
    Below a t := by
  induction h with
  | self => exact hBelow
  | member hm _ ih => exact (below_iff_rule ha ht.proper).mpr (.member hm (ih (ht.part hm)))

/-- A type is below another exactly if it is below one of its alternatives that it is equal to or that is no union. -/
theorem below_iff_exists_alternative (ha : a.Proper) (hs : s.Ground) :
    Below a s ↔ ∃ u, AlternativeOf u s ∧ Below a u ∧ (Same a u ∨ u.kind ≠ .union) := by
  constructor
  · intro h
    induction hs with
    | @union n ms hms ih =>
      have hUnion : (union n ms).Ground := .union hms
      cases (below_iff_rule ha hUnion.proper).mp h with
      | same hEq => exact ⟨_, .self, h, .inl hEq⟩
      | member hm hBelow =>
        obtain ⟨u, hu, hResult⟩ := ih _ hm hBelow
        exact ⟨u, .member hm hu, hResult⟩
      | members hb => exact absurd rfl hb
      | any hb | struct _ hb => cases hb
    | plain hk | primitive hk =>
      refine ⟨_, .self, h, .inr ?_⟩
      intro hUnion
      cases hUnion
      exact absurd hk (by decide)
    | _ => exact ⟨_, .self, h, .inr (by simp [kind])⟩
  · rintro ⟨u, hu, hBelow, -⟩
    exact hu.above hs ha hBelow

variable {n : String} {ts ts' : List Ty}

/-- A union stands below the types that offer an equal union. -/
theorem union_below_iff (hts : (union n ts).Ground) (hs : s.Ground) :
    Below (union n ts) s ↔ ∃ u, AlternativeOf u s ∧ Same (union n ts) u := by
  rw [below_iff_exists_alternative hts.proper hs]
  constructor
  · rintro ⟨u, hu, hBelow, hEq | hUnion⟩
    · exact ⟨u, hu, hEq⟩
    · have hGround := hu.ground hs
      cases (below_iff_rule hts.proper hGround.proper).mp hBelow with
      | same hEq => exact ⟨u, hu, hEq⟩
      | any hb => exact absurd hb hGround.kind_ne_any
      | member => exact absurd rfl hUnion
      | struct ha => cases ha
  · rintro ⟨u, hu, hEq⟩
    exact ⟨u, hu, hEq.below hts.proper (hu.ground hs).proper, .inl hEq⟩

/-- An intersection stands below the types that offer an equal intersection, or one alternative above all its
members. -/
theorem intersection_below_iff (hts : (intersection n ts).Ground) (hs : s.Ground) :
    Below (intersection n ts) s ↔
      ∃ u, AlternativeOf u s ∧ (Same (intersection n ts) u ∨ u.kind ≠ .union ∧ ∀ t ∈ ts, Below t u) := by
  rw [below_iff_exists_alternative hts.proper hs]
  constructor
  · rintro ⟨u, hu, hBelow, hEq | hUnion⟩
    · exact ⟨u, hu, .inl hEq⟩
    · have hGround := hu.ground hs
      cases (below_iff_rule hts.proper hGround.proper).mp hBelow with
      | same hEq => exact ⟨u, hu, .inl hEq⟩
      | any hb => exact absurd hb hGround.kind_ne_any
      | member => exact absurd rfl hUnion
      | members _ hAll => exact ⟨u, hu, .inr ⟨hUnion, hAll⟩⟩
      | struct ha => cases ha
  · rintro ⟨u, hu, hEq | ⟨hUnion, hAll⟩⟩
    · exact ⟨u, hu, hEq.below hts.proper (hu.ground hs).proper, .inl hEq⟩
    · have hRule : Rule Below (intersection n ts) u := .members hUnion hAll
      exact ⟨u, hu, (below_iff_rule hts.proper (hu.ground hs).proper).mpr hRule, .inr hUnion⟩

/-! ## Nesting

How deep unions and intersections are nested tells a type from its own alternatives. -/

mutual

/-- How many unions and intersections are nested, from the outside. -/
def nesting : Ty → Nat
  | union _ ms | intersection _ ms => nestingAll ms + 1
  | _ => 0

/-- The deepest nesting among several types. -/
def nestingAll : List Ty → Nat
  | [] => 0
  | t :: ts => max (nesting t) (nestingAll ts)

end

theorem nesting_le_nestingAll (ht : t ∈ ts) : nesting t ≤ nestingAll ts := by
  induction ts with
  | nil => cases ht
  | cons t' ts ih =>
    rw [nestingAll]
    rcases mem_cons.mp ht with rfl | ht
    · omega
    · have := ih ht
      omega

theorem nestingAll_perm (h : ts.Perm ts') : nestingAll ts = nestingAll ts' := by
  induction h with
  | nil => rfl
  | cons t _ ih => simp only [nestingAll, ih]
  | swap t t' ts =>
    simp only [nestingAll]
    omega
  | trans _ _ ih ih' => exact ih.trans ih'

theorem nestingAll_congr (h : List.Forall₂ (fun t t' => nesting t = nesting t') ts ts') :
    nestingAll ts = nestingAll ts' := by
  induction h with
  | nil => rfl
  | cons hEq _ ih => simp only [nestingAll, hEq, ih]

theorem AlternativeOf.nesting_le (h : AlternativeOf u t) : nesting u ≤ nesting t := by
  induction h with
  | self => exact Nat.le_refl _
  | member hm _ ih =>
    have := nesting_le_nestingAll hm
    rw [nesting]
    omega

theorem Same.nesting_eq {a b : Ty} (ha : a.Proper) (hb : b.Proper) (h : Same a b) : nesting a = nesting b := by
  have hParts : ∀ x ∈ a.parts, ∀ y ∈ b.parts, Same x y → nesting x = nesting y := by
    intro x hx y hy hEq
    have hSize := sizeOf_lt_of_mem_parts hx
    exact hEq.nesting_eq (ha.part hx) (hb.part hy)
  cases (same_iff ha hb).mp h with
  | leaf ha hb => cases ha <;> cases hb <;> simp only [nesting]
  | list | function | struct | var => simp only [nesting]
  | union hms | intersection hms => rw [nesting, nesting, nestingAll_congr (forall₂_imp_of_mem hms hParts)]
termination_by sizeOf a

/-! ## The laws of bounds -/

theorem below_union (hts : ∀ t ∈ ts, t.Proper) (ht : t ∈ ts) : Below t (union n ts) :=
  (below_iff_rule (hts t ht) (.union hts)).mpr (.member ht (Below.refl (hts t ht)))

/-- What is above a union is above its members. -/
theorem member_below_of_union_below (hts : ∀ t ∈ ts, t.Ground) (hs : s.Ground) (h : Below (union n ts) s)
    (ht : t ∈ ts) : Below t s := by
  have hUnion : (union n ts).Ground := .union hts
  exact Below.trans (hts t ht).proper hUnion.proper hs.proper (below_union (fun t ht => (hts t ht).proper) ht) h

/-- An intersection is below one of its members where one alternative of that is above them all. -/
theorem intersection_below_member_iff (hts : ∀ t ∈ ts, t.Ground) (ht : t ∈ ts) :
    Below (intersection n ts) t ↔ ∃ u, AlternativeOf u t ∧ u.kind ≠ .union ∧ ∀ t' ∈ ts, Below t' u := by
  have hIntersection : (intersection n ts).Ground := .intersection hts
  rw [intersection_below_iff hIntersection (hts t ht)]
  constructor
  · rintro ⟨u, hu, hEq | hAll⟩
    · -- No alternative of a member is nested as deep as the whole.
      have hSame := hEq.nesting_eq hIntersection.proper (hu.ground (hts t ht)).proper
      have hLe := hu.nesting_le
      have hLe' := nesting_le_nestingAll ht
      rw [nesting] at hSame
      omega
    · exact ⟨u, hu, hAll⟩
  · rintro ⟨u, hu, hAll⟩
    exact ⟨u, hu, .inr hAll⟩

/-- Unions of the same members are below each other only where they are equal. -/
theorem union_below_reordered_iff {n' : String} (hts : ∀ t ∈ ts, t.Ground) (hPerm : ts.Perm ts') :
    Below (union n ts) (union n' ts') ↔ Same (union n ts) (union n' ts') := by
  have hUnion : (union n ts).Ground := .union hts
  have hUnion' : (union n' ts').Ground := .union fun t ht => hts t (hPerm.symm.subset ht)
  rw [union_below_iff hUnion hUnion']
  constructor
  · rintro ⟨u, hu, hEq⟩
    cases hu with
    | self => exact hEq
    | member hm hu =>
      have hGround := hu.ground (hUnion'.part hm)
      have hSame := hEq.nesting_eq hUnion.proper hGround.proper
      have hLe := hu.nesting_le
      have hLe' := nesting_le_nestingAll hm
      rw [nesting, nestingAll_perm hPerm] at hSame
      omega
  · intro hEq
    exact ⟨_, .self, hEq⟩

/-- A union is above its members, and below another type exactly where that offers an equal union; then the members
are below it too. An intersection is below a member exactly where one alternative of it is above all members. A
union in another order is above a union exactly if it is equal to it. -/
theorem union_intersection_bounds (name : String) (hts : ∀ t ∈ ts, t.Ground) (hs : s.Ground) :
    (∀ t ∈ ts, isSubtype t (mkUnion name ts) = .ok true) ∧
    (∀ t ∈ ts, isSubtype (mkIntersection name ts) t = .ok true ↔
      ∃ u, AlternativeOf u t ∧ u.kind ≠ .union ∧ ∀ t' ∈ ts, isSubtype t' u = .ok true) ∧
    (isSubtype (mkUnion name ts) s = .ok true ↔ ∃ u, AlternativeOf u s ∧ eq (mkUnion name ts) u = true) ∧
    (isSubtype (mkUnion name ts) s = .ok true → ∀ t ∈ ts, isSubtype t s = .ok true) ∧
    (∀ ts', ts.Perm ts' → (isSubtype (mkUnion name ts) (mkUnion name ts') = .ok true ↔
      eq (mkUnion name ts) (mkUnion name ts') = true)) := by
  refine ⟨?_, ?_, ?_, ?_, ?_⟩
  · intro t ht
    exact below_union (fun t ht => (hts t ht).proper) ht
  · intro t ht
    exact intersection_below_member_iff hts ht
  · exact union_below_iff (.union hts) hs
  · intro h t ht
    exact member_below_of_union_below hts hs h ht
  · intro ts' hPerm
    exact union_below_reordered_iff hts hPerm

/-- A union is below a union that it is a member of. -/
theorem union_intersection_bounds_nested :
    isSubtype (mkUnion "" [primitive .number "number", primitive .string "string"])
      (mkUnion "" [numberOrString, plain .null "null"]) = .ok true := by
  have hts : ∀ t ∈ [primitive .number "number", primitive .string "string"], t.Ground := by
    rintro t (_ | ⟨_, _ | ⟨_, ⟨⟩⟩⟩) <;> exact .primitive (by decide)
  have hs : (mkUnion "" [numberOrString, plain .null "null"]).Ground := by
    refine .union ?_
    rintro t (_ | ⟨_, _ | ⟨_, ⟨⟩⟩⟩)
    · exact numberOrString_builtFrom (by decide) (by decide)
    · exact .plain (by decide)
  exact (union_intersection_bounds "" hts hs).2.2.1.mpr
    ⟨numberOrString, .member (.head _) .self, by decide +kernel⟩

/-- An intersection need not be below its members, nor a union below what is above its members, nor below itself in
another order. -/
theorem bounds_fail :
    isSubtype (mkIntersection "" [primitive .number "number", primitive .string "string"])
      (primitive .number "number") = .ok false ∧
    (isSubtype (primitive .number "number") (primitive .number "number") = .ok true ∧
      isSubtype (mkUnion "" [primitive .number "number"]) (primitive .number "number") = .ok false) ∧
    isSubtype numberOrString (mkUnion "" [primitive .string "string", primitive .number "number"]) = .ok false := by
  decide +kernel

/-! ## Common supertypes -/

theorem Same.isSubtype_eq {b c : Ty} (ha : a.Proper) (hb : b.Proper) (hc : c.Proper) (h : Same b c) :
    isSubtype a b = isSubtype a c := by
  have hIff : Below a b ↔ Below a c :=
    ⟨fun hab => hab.trans ha hb hc (h.below hb hc), fun hac => hac.trans ha hc hb (h.above hb hc)⟩
  obtain ⟨r, hr⟩ := isSubtype_answers ha hb
  obtain ⟨r', hr'⟩ := isSubtype_answers ha hc
  rw [Below, Below, hr, hr', Except.ok.injEq, Except.ok.injEq, ← Bool.eq_iff_iff] at hIff
  rw [hr, hr', hIff]

/-- The first of several types is their common supertype if the others are equal to it. -/
theorem commonSupertype_eq_ok_iff : commonSupertype (t :: ts) = .ok u ↔ u = t ∧ ∀ s ∈ ts, Same s t := by
  rw [commonSupertype]
  split
  next hAll =>
    rw [all_eq_true] at hAll
    exact ⟨fun h => ⟨(Except.ok.inj h).symm, hAll⟩, fun h => by rw [h.1]⟩
  next hOther =>
    rw [all_eq_true] at hOther
    split <;> simp [Same, hOther]

theorem commonSupertype_of_ok {kinds : List TypeKind} (hts : ∀ t ∈ ts, t.BuiltFrom kinds) (hSome : ts ≠ [])
    (h : commonSupertype ts = .ok u) : u ∈ ts ∧ ∀ s ∈ ts, Same s u := by
  obtain ⟨t, ts, rfl⟩ := exists_cons_of_ne_nil hSome
  obtain ⟨rfl, hAll⟩ := commonSupertype_eq_ok_iff.mp h
  exact ⟨.head _, forall_mem_cons.mpr ⟨.refl (hts u (.head _)), hAll⟩⟩

theorem commonSupertype_of_error {e : TypingError} (h : commonSupertype ts = .error e) :
    e = if ts.all isHashable then .missingKind else .unhashable := by
  cases ts with
  | nil => cases h
  | cons t ts =>
    rw [commonSupertype] at h
    split at h
    · cases h
    · split at h <;> cases h
      next hAll => rw [if_pos hAll]
      next hOther => rw [if_neg hOther]

/-- Whether there is a common supertype does not depend on the order of the types: all of them have to be equal. -/
theorem exists_commonSupertype_iff (hts : ∀ t ∈ ts, t.Proper) (hSome : ts ≠ []) :
    (∃ u, commonSupertype ts = .ok u) ↔ ∀ t ∈ ts, ∀ s ∈ ts, Same t s := by
  constructor
  · rintro ⟨u, h⟩ t ht s hs
    obtain ⟨hu, hAll⟩ := commonSupertype_of_ok hts hSome h
    exact (hAll t ht).trans (hts t ht) (hts u hu) (hts s hs) ((hAll s hs).symm (hts s hs) (hts u hu))
  · intro hAll
    obtain ⟨t, ts, rfl⟩ := exists_cons_of_ne_nil hSome
    exact ⟨t, commonSupertype_eq_ok_iff.mpr ⟨rfl, fun s hs => hAll s (.tail _ hs) t (.head _)⟩⟩

/-- **Only equal types have a common supertype.** If one is found, it is one of the types and above all of them; if
not, a union should be made, and fails for want of its kind, or since its members are to be put into a set. On
well-built types, it is found exactly if they are all equal, in any order, and the types below it are the same for
every order. The union of the types, each of them once at least up to equality, is above all of them. -/
theorem commonSupertype_bounds {types : List Ty} (hSome : types ≠ [])
    (hTypes : ∀ t ∈ types, t.BuiltFrom TypeKind.all) :
    (∀ u, commonSupertype types = .ok u → u ∈ types ∧ ∀ t ∈ types, isSubtype t u = .ok true) ∧
    (∀ e, commonSupertype types = .error e → e = if types.all isHashable then .missingKind else .unhashable) ∧
    ((∀ t ∈ types, t.Proper) →
      ((∃ u, commonSupertype types = .ok u) ↔ ∀ t ∈ types, ∀ s ∈ types, eq t s = true) ∧
      (∀ types' u, types.Perm types' → commonSupertype types = .ok u →
        ∃ u', commonSupertype types' = .ok u' ∧ ∀ a, a.Proper → isSubtype a u' = isSubtype a u) ∧
      ∀ name members, (∀ m ∈ members, m ∈ types) → (∀ t ∈ types, ∃ m ∈ members, eq t m = true) →
        ∀ t ∈ types, isSubtype t (mkUnion name members) = .ok true) := by
  refine ⟨fun u h => ?_, fun e => commonSupertype_of_error, fun hProper => ?_⟩
  · obtain ⟨hu, hAll⟩ := commonSupertype_of_ok hTypes hSome h
    refine ⟨hu, fun s hs => ?_⟩
    have hSame : eq s u = true := hAll s hs
    rw [isSubtype.eq_def, if_pos hSame]
  have hEqual := exists_commonSupertype_iff hProper hSome
  refine ⟨hEqual, fun types' u hPerm h => ?_, fun name members hSub hEach t ht => ?_⟩
  · have hAll := hEqual.mp ⟨u, h⟩
    have hBack : ∀ t ∈ types', t ∈ types := fun t ht => hPerm.symm.subset ht
    have hProper' : ∀ t ∈ types', t.Proper := fun t ht => hProper t (hBack t ht)
    have hSome' : types' ≠ [] := fun hNil => hSome (hNil ▸ hPerm).eq_nil
    obtain ⟨u', h'⟩ := (exists_commonSupertype_iff hProper' hSome').mpr
      fun t ht s hs => hAll t (hBack t ht) s (hBack s hs)
    have hu := (commonSupertype_of_ok hTypes hSome h).1
    have hu' := hBack u' (commonSupertype_of_ok hProper' hSome' h').1
    exact ⟨u', h', fun a ha => Same.isSubtype_eq ha (hProper u' hu') (hProper u hu) (hAll u' hu' u hu)⟩
  · obtain ⟨m, hm, hSame⟩ := hEach t ht
    have hMembers : ∀ m ∈ members, m.Proper := fun m hm => hProper m (hSub m hm)
    exact Below.trans (hProper t ht) (hMembers m hm) (.union hMembers)
      (Same.below (hProper t ht) (hMembers m hm) hSame) (below_union hMembers hm)

/-- A primitive type and a plain one of its kind and name are equal. -/
theorem commonSupertype_bounds_equal :
    let number := primitive .number "number"
    let alike := plain .number "number"
    commonSupertype [number, alike] = .ok number ∧ isSubtype alike number = .ok true ∧
    ∃ u, commonSupertype [alike, number] = .ok u ∧ ∀ a, a.Proper → isSubtype a u = isSubtype a number := by
  intro number alike
  have hBuilt : ∀ {kinds : List TypeKind}, .number ∈ kinds → ∀ t ∈ [number, alike], t.BuiltFrom kinds := by
    rintro kinds hk t (_ | ⟨_, _ | ⟨_, ⟨⟩⟩⟩)
    · exact .primitive hk
    · exact .plain hk
  have hFound : commonSupertype [number, alike] = .ok number := rfl
  have hBounds := commonSupertype_bounds (cons_ne_nil _ _) (hBuilt (by decide))
  exact ⟨hFound, (hBounds.1 number hFound).2 alike (.tail _ (.head _)),
    (hBounds.2.2 (hBuilt (by decide))).2.1 _ number (.swap _ _ _) hFound⟩

/-- Different types have no common supertype. A plain type of the kind of lists is equal to lists that differ, so that
its place in the list decides. -/
theorem no_commonSupertype :
    let number := primitive .number "number"
    let string := primitive .string "string"
    commonSupertype [number, string] = .error .unhashable ∧
    commonSupertype [plain .void "void", plain .null "null"] = .error .missingKind ∧
    commonSupertype [plain .list "L", list "L" number, list "L" string] = .ok (plain .list "L") ∧
    commonSupertype [list "L" number, plain .list "L", list "L" string] = .error .unhashable :=
  ⟨rfl, rfl, rfl, rfl⟩

end Ty

end Scriptling.Typing
