import Mathlib.Data.List.Perm.Subperm
import Scriptling.Typing.Basic

/-!
# Equality of well-built types

The test of equality compares types of one class part by part, and a plain type with any other by kind and name
only. On all types this is no equivalence: a plain type that claims the kind and the name of two different lists is
equal to both. It is one on types whose compound kinds belong to compound types alone, since a plain type then
meets nothing but other leaves.

## Main results

* `BuiltFrom`: types over leaves of given kinds, with compound kinds only where they belong.
* `same_iff`: equal types are of the same class and alike part by part.
* `Same.refl`, `Same.symm`, `Same.trans`: equality of well-built types is an equivalence.
-/

namespace Scriptling.Typing

open List

variable {ts : List String} {ms ps : List Ty} {r : Ty} {α β : Type}

/-- The kinds of types without parts, that of the empty type left out. -/
def TypeKind.leaves : List TypeKind := [.any, .void, .null, .boolean, .number, .string, .generic]

namespace Ty

-- What it takes to open the test of equality.
attribute [local simp] eq eqAll eqFields kind name

/-- Types over plain and primitive types of the given kinds, where a compound type is made by its own constructor
only. A struct has each of its fields once. -/
inductive BuiltFrom (kinds : List TypeKind) : Ty → Prop
  | plain {k n} (hk : k ∈ kinds) : BuiltFrom kinds (plain k n)
  | primitive {k n} (hk : k ∈ kinds) : BuiltFrom kinds (primitive k n)
  | list {n e} (he : BuiltFrom kinds e) : BuiltFrom kinds (list n e)
  | function {n ps r ts} (hps : ∀ p ∈ ps, BuiltFrom kinds p) (hr : BuiltFrom kinds r) :
      BuiltFrom kinds (function n ps r ts)
  | struct {n fs ts} (hOnce : (fs.map Prod.fst).Nodup) (hfs : ∀ f ∈ fs, BuiltFrom kinds f.2) :
      BuiltFrom kinds (struct n fs ts)
  | union {n ms} (hms : ∀ m ∈ ms, BuiltFrom kinds m) : BuiltFrom kinds (union n ms)
  | intersection {n ms} (hms : ∀ m ∈ ms, BuiltFrom kinds m) : BuiltFrom kinds (intersection n ms)
  | var {n} : BuiltFrom kinds (var n)

/-- A type without parts, of the given kind and name. -/
inductive Leaf (k : TypeKind) (n : String) : Ty → Prop
  | plain : Leaf k n (plain k n)
  | primitive : Leaf k n (primitive k n)

/-- Two types of one class, kind and name whose parts are related: fields by their names, others one by one. -/
inductive Alike (R : Ty → Ty → Prop) : Ty → Ty → Prop
  | leaf {k n a b} (ha : Leaf k n a) (hb : Leaf k n b) : Alike R a b
  | list {n e e'} (he : R e e') : Alike R (list n e) (list n e')
  | function {n ps ps' r r' ts} (hps : List.Forall₂ R ps ps') (hr : R r r') :
      Alike R (function n ps r ts) (function n ps' r' ts)
  | struct {n fs fs' ts} (hLength : fs.length = fs'.length) (hfs : ∀ f ∈ fs, ∃ t, (f.1, t) ∈ fs' ∧ R f.2 t) :
      Alike R (struct n fs ts) (struct n fs' ts)
  | union {n ms ms'} (hms : List.Forall₂ R ms ms') : Alike R (union n ms) (union n ms')
  | intersection {n ms ms'} (hms : List.Forall₂ R ms ms') : Alike R (intersection n ms) (intersection n ms')
  | var {n} : Alike R (var n) (var n)

variable {t : Ty} {fs : List (String × Ty)} {n : String}

theorem BuiltFrom.mono {kinds kinds' : List TypeKind} (hSub : kinds ⊆ kinds') (h : BuiltFrom kinds t) :
    BuiltFrom kinds' t := by
  induction h with
  | plain hk => exact .plain (hSub hk)
  | primitive hk => exact .primitive (hSub hk)
  | list _ ih => exact .list ih
  | function _ _ ihps ihr => exact .function ihps ihr
  | struct hOnce _ ih => exact .struct hOnce ih
  | union _ ih => exact .union ih
  | intersection _ ih => exact .intersection ih
  | var => exact .var

/-- The types that a type is made of. -/
def parts : Ty → List Ty
  | list _ e => [e]
  | function _ ps r _ => r :: ps
  | struct _ fs _ => fs.map Prod.snd
  | union _ ms | intersection _ ms => ms
  | plain .. | primitive .. | var _ => []

theorem sizeOf_lt_of_mem_parts {p : Ty} (hp : p ∈ t.parts) : sizeOf p < sizeOf t := by
  cases t with
  | list =>
    obtain rfl := mem_singleton.mp hp
    simp only [list.sizeOf_spec]
    omega
  | function =>
    simp only [function.sizeOf_spec]
    rcases mem_cons.mp hp with rfl | hp
    · omega
    · have hSize := sizeOf_lt_of_mem hp
      omega
  | struct =>
    obtain ⟨⟨name, type⟩, hf, rfl⟩ := mem_map.mp hp
    have hSize := sizeOf_lt_of_mem hf
    simp only [struct.sizeOf_spec, Prod.mk.sizeOf_spec] at hSize ⊢
    omega
  | union _ ms | intersection _ ms =>
    have hSize : sizeOf p < sizeOf ms := sizeOf_lt_of_mem hp
    simp only [union.sizeOf_spec, intersection.sizeOf_spec]
    omega
  | plain | primitive | var => cases hp

theorem BuiltFrom.part {kinds : List TypeKind} {p : Ty} (h : t.BuiltFrom kinds) (hp : p ∈ t.parts) :
    p.BuiltFrom kinds := by
  cases h with
  | list he =>
    obtain rfl := mem_singleton.mp hp
    exact he
  | function hps hr =>
    rcases mem_cons.mp hp with rfl | hp
    · exact hr
    · exact hps p hp
  | struct _ hfs =>
    obtain ⟨f, hf, rfl⟩ := mem_map.mp hp
    exact hfs f hf
  | union hms | intersection hms => exact hms p hp
  | plain | primitive | var => cases hp

/-- Well-built types: any leaf but the empty type. -/
abbrev Proper : Ty → Prop := BuiltFrom TypeKind.leaves

theorem Proper.kind_ne_never (h : t.Proper) : t.kind ≠ .never := by
  cases h with
  | plain hk | primitive hk =>
    intro hNever
    cases hNever
    exact absurd hk (by decide)
  | _ => simp

/-- The two types are equal by the test. -/
abbrev Same (a b : Ty) : Prop := eq a b = true

/-! ## The test on lists and fields -/

theorem eqAll_iff {ts ts' : List Ty} : eqAll ts ts' = true ↔ List.Forall₂ Same ts ts' := by
  induction ts generalizing ts' with
  | nil => cases ts' <;> simp
  | cons t ts ih => cases ts' <;> simp [Same, ih]

theorem eqFields_iff {gs : List (String × Ty)} :
    eqFields fs gs = true ↔ ∀ f ∈ fs, ∃ t, gs.lookup f.1 = some t ∧ Same f.2 t := by
  induction fs with
  | nil => simp
  | cons f fs ih =>
    obtain ⟨n, t⟩ := f
    cases hLookup : gs.lookup n with
    | none => simp [hLookup]
    | some t' => simp [hLookup, ih, Same]

/-- In a list that has each key once, a look-up finds every entry. -/
theorem lookup_eq_some_iff_mem {entries : List (String × α)} (hOnce : (entries.map Prod.fst).Nodup) {x : α} :
    entries.lookup n = some x ↔ (n, x) ∈ entries := by
  induction entries with
  | nil => simp
  | cons entry entries ih =>
    obtain ⟨k, y⟩ := entry
    rw [map_cons, nodup_cons] at hOnce
    by_cases hk : n = k
    · subst hk
      have hOther : (n, x) ∉ entries := fun hMem => hOnce.1 (mem_map.mpr ⟨_, hMem, rfl⟩)
      simp [hOther, eq_comm]
    · have hBeq : (n == k) = false := by simpa using hk
      simp [lookup_cons, hBeq, hk, ih hOnce.2]

/-! ## Classes by kind -/

/-- The type has the form that belongs to the kind. There is none for leaves. -/
def HasForm (t : Ty) : TypeKind → Prop
  | .list => ∃ n e, t = list n e
  | .function => ∃ n ps r ts, t = function n ps r ts
  | .struct => ∃ n fs ts, t = struct n fs ts
  | .union => ∃ n ms, t = union n ms
  | .intersection => ∃ n ms, t = intersection n ms
  | .typeVariable => ∃ n, t = var n
  | _ => True

theorem Proper.hasForm (h : t.Proper) {k : TypeKind} (hKind : t.kind = k) : t.HasForm k := by
  subst hKind
  cases h with
  | @plain k _ hk | @primitive k _ hk => cases k <;> trivial
  | _ => simp [HasForm]

/-! ## Types alike in their parts -/

variable {a b : Ty}

theorem Same.kind_eq (h : Same a b) : a.kind = b.kind := by
  unfold Same at h
  cases a <;> cases b <;> simp_all

theorem Same.name_eq (h : Same a b) : a.name = b.name := by
  unfold Same at h
  cases a <;> cases b <;> simp_all

/-- Well-built types are equal exactly if they are alike and their parts are equal. -/
theorem same_iff (ha : a.Proper) (hb : b.Proper) : Same a b ↔ Alike Same a b := by
  constructor
  · intro h
    have hForm := hb.hasForm h.kind_eq.symm
    cases ha with
    | plain hk | primitive hk =>
      have hLeaf : b.kind ∈ TypeKind.leaves := h.kind_eq ▸ hk
      cases hb with
      | plain | primitive =>
        obtain ⟨rfl, rfl⟩ := And.intro h.kind_eq h.name_eq
        exact .leaf (by constructor) (by constructor)
      | _ => exact absurd hLeaf (by simp [TypeKind.leaves])
    | list =>
      obtain ⟨n', e', rfl⟩ := hForm
      simp only [Same, eq, Bool.and_eq_true, beq_iff_eq] at h
      obtain ⟨rfl, he⟩ := h
      exact .list he
    | function =>
      obtain ⟨n', ps', r', ts', rfl⟩ := hForm
      simp only [Same, eq, Bool.and_eq_true, beq_iff_eq, eqAll_iff] at h
      obtain ⟨⟨⟨rfl, hps⟩, hr⟩, rfl⟩ := h
      exact .function hps hr
    | struct =>
      obtain ⟨n', fs', ts', rfl⟩ := hForm
      cases hb with
      | struct hOnce _ =>
        simp only [Same, eq, Bool.and_eq_true, beq_iff_eq, eqFields_iff, lookup_eq_some_iff_mem hOnce] at h
        obtain ⟨⟨⟨rfl, hLength⟩, hFields⟩, rfl⟩ := h
        exact .struct hLength hFields
    | union =>
      obtain ⟨n', ms', rfl⟩ := hForm
      simp only [Same, eq, Bool.and_eq_true, beq_iff_eq, eqAll_iff] at h
      obtain ⟨rfl, hms⟩ := h
      exact .union hms
    | intersection =>
      obtain ⟨n', ms', rfl⟩ := hForm
      simp only [Same, eq, Bool.and_eq_true, beq_iff_eq, eqAll_iff] at h
      obtain ⟨rfl, hms⟩ := h
      exact .intersection hms
    | var =>
      obtain ⟨n', rfl⟩ := hForm
      simp only [Same, eq, beq_iff_eq] at h
      exact h ▸ .var
  · intro h
    cases h with
    | leaf ha hb => cases ha <;> cases hb <;> simp [Same]
    | list he => simpa [Same] using he
    | function hps hr => simpa [Same, eqAll_iff] using ⟨hps, hr⟩
    | struct hLength hFields =>
      cases hb with
      | struct hOnce _ =>
        simp only [Same, eq, Bool.and_eq_true, beq_iff_eq, eqFields_iff, lookup_eq_some_iff_mem hOnce]
        exact ⟨⟨⟨trivial, hLength⟩, hFields⟩, trivial⟩
    | union hms | intersection hms => simpa [Same, eqAll_iff] using hms
    | var => simp [Same]

/-! ## Equality is an equivalence -/

/-- Lists related one by one stay so where the relation is widened on their members. -/
theorem forall₂_imp_of_mem {R S : α → β → Prop} {as : List α} {bs : List β}
    (h : List.Forall₂ R as bs) (hImp : ∀ a ∈ as, ∀ b ∈ bs, R a b → S a b) : List.Forall₂ S as bs := by
  induction h with
  | nil => exact .nil
  | cons hab _ ih =>
    refine .cons (hImp _ (by simp) _ (by simp) hab) (ih ?_)
    intro a ha b hb
    exact hImp a (by simp [ha]) b (by simp [hb])

/-- What a member of one of two lists related one by one is related to. -/
theorem exists_of_forall₂ {R : α → β → Prop} {as : List α} {bs : List β} (h : List.Forall₂ R as bs)
    {a : α} (ha : a ∈ as) : ∃ b ∈ bs, R a b := by
  induction h with
  | nil => cases ha
  | cons hab _ ih =>
    rcases mem_cons.mp ha with rfl | ha
    · exact ⟨_, by simp, hab⟩
    · obtain ⟨b, hb, hR⟩ := ih ha
      exact ⟨b, by simp [hb], hR⟩

/-- Lists related one by one through a list in the middle. -/
theorem forall₂_trans_of_mem {γ : Type} {R : α → β → Prop} {S : β → γ → Prop} {T : α → γ → Prop}
    {as : List α} {bs : List β} {cs : List γ} (hR : List.Forall₂ R as bs) (hS : List.Forall₂ S bs cs)
    (hTrans : ∀ a ∈ as, ∀ b ∈ bs, ∀ c ∈ cs, R a b → S b c → T a c) : List.Forall₂ T as cs := by
  induction hR generalizing cs with
  | nil =>
    cases hS
    exact .nil
  | cons hab _ ih =>
    cases hS with
    | cons hbc hS =>
      refine .cons (hTrans _ (by simp) _ (by simp) _ (by simp) hab hbc) (ih hS ?_)
      intro a ha b hb c hc
      exact hTrans a (by simp [ha]) b (by simp [hb]) c (by simp [hc])

theorem Same.refl {kinds : List TypeKind} (h : t.BuiltFrom kinds) : Same t t := by
  induction h with
  | plain | primitive | var => simp [Same]
  | list _ ih => simpa [Same] using ih
  | @function n ps r ts _ _ ihps ihr =>
    have hps : eqAll ps ps = true := eqAll_iff.mpr (forall₂_same.mpr ihps)
    simpa [Same, hps] using ihr
  | @struct n fs ts hOnce _ ih =>
    have hfs : eqFields fs fs = true :=
      eqFields_iff.mpr fun f hf => ⟨f.2, (lookup_eq_some_iff_mem hOnce).mpr hf, ih f hf⟩
    simp [Same, hfs]
  | @union n ms _ ih | @intersection n ms _ ih =>
    have hms : eqAll ms ms = true := eqAll_iff.mpr (forall₂_same.mpr ih)
    simp [Same, hms]

/-- Where each field of one list has one in the other, and there are equally many, it is so the other way round. -/
theorem fields_symm {gs : List (String × Ty)} {R S : Ty → Ty → Prop} (hOnce : (fs.map Prod.fst).Nodup)
    (hOnce' : (gs.map Prod.fst).Nodup) (hLength : fs.length = gs.length) (h : ∀ f ∈ fs, ∃ t, (f.1, t) ∈ gs ∧ R f.2 t)
    (hSwap : ∀ f ∈ fs, ∀ g ∈ gs, R f.2 g.2 → S g.2 f.2) : ∀ g ∈ gs, ∃ t, (g.1, t) ∈ fs ∧ S g.2 t := by
  have hSub : fs.map Prod.fst ⊆ gs.map Prod.fst := by
    intro n hn
    obtain ⟨f, hf, rfl⟩ := mem_map.mp hn
    obtain ⟨t, ht, -⟩ := h f hf
    exact mem_map.mpr ⟨(f.1, t), ht, rfl⟩
  have hPerm : (fs.map Prod.fst).Perm (gs.map Prod.fst) :=
    (subperm_of_subset hOnce hSub).perm_of_length_le (by simp [hLength])
  intro g hg
  have hName : g.1 ∈ fs.map Prod.fst := hPerm.symm.subset (mem_map.mpr ⟨g, hg, rfl⟩)
  obtain ⟨f, hf, hfg⟩ := mem_map.mp hName
  obtain ⟨t, ht, hR⟩ := h f hf
  -- Both `t` and the type of `g` stand under one name, so they are one.
  have hType : t = g.2 := by
    rw [hfg, ← lookup_eq_some_iff_mem hOnce'] at ht
    rw [(lookup_eq_some_iff_mem hOnce').mpr (show (g.1, g.2) ∈ gs from hg)] at ht
    exact (Option.some.inj ht).symm
  refine ⟨f.2, hfg ▸ hf, hSwap f hf g hg ?_⟩
  rwa [← hType]

section Alike

variable {R S T : Ty → Ty → Prop} {c : Ty}

theorem Alike.symm (ha : a.Proper) (hb : b.Proper) (h : Alike R a b)
    (hSwap : ∀ x ∈ a.parts, ∀ y ∈ b.parts, R x y → S y x) : Alike S b a := by
  cases h with
  | leaf ha hb => exact .leaf hb ha
  | list he => exact .list (hSwap _ (.head _) _ (.head _) he)
  | function hps hr =>
    refine .function (.flip (forall₂_imp_of_mem hps fun p hp p' hp' => ?_)) (hSwap _ (.head _) _ (.head _) hr)
    exact hSwap p (.tail _ hp) p' (.tail _ hp')
  | struct hLength hFields =>
    cases ha with
    | struct hOnce _ =>
      cases hb with
      | struct hOnce' _ =>
        refine .struct hLength.symm (fields_symm hOnce hOnce' hLength hFields fun f hf g hg => ?_)
        exact hSwap _ (mem_map_of_mem hf) _ (mem_map_of_mem hg)
  | union hms => exact .union (.flip (forall₂_imp_of_mem hms hSwap))
  | intersection hms => exact .intersection (.flip (forall₂_imp_of_mem hms hSwap))
  | var => exact .var

theorem Alike.trans (hab : Alike R a b) (hbc : Alike S b c)
    (hTrans : ∀ x ∈ a.parts, ∀ y ∈ b.parts, ∀ z ∈ c.parts, R x y → S y z → T x z) : Alike T a c := by
  cases hbc with
  | leaf hb hc =>
    cases hb <;> cases hab with
    | leaf ha hb =>
      cases hb
      exact .leaf ha hc
  | list he' =>
    cases hab with
    | leaf _ hb => cases hb
    | list he => exact .list (hTrans _ (.head _) _ (.head _) _ (.head _) he he')
  | function hps' hr' =>
    cases hab with
    | leaf _ hb => cases hb
    | function hps hr =>
      refine .function ?_ (hTrans _ (.head _) _ (.head _) _ (.head _) hr hr')
      refine forall₂_trans_of_mem hps hps' fun p hp p' hp' p'' hp'' => ?_
      exact hTrans p (.tail _ hp) p' (.tail _ hp') p'' (.tail _ hp'')
  | struct hLength' hFields' =>
    cases hab with
    | leaf _ hb => cases hb
    | struct hLength hFields =>
      refine .struct (hLength.trans hLength') fun f hf => ?_
      obtain ⟨t, ht, h⟩ := hFields f hf
      obtain ⟨t', ht', h'⟩ := hFields' _ ht
      exact ⟨t', ht', hTrans _ (mem_map_of_mem hf) _ (mem_map_of_mem ht) _ (mem_map_of_mem ht') h h'⟩
  | union hms' =>
    cases hab with
    | leaf _ hb => cases hb
    | union hms => exact .union (forall₂_trans_of_mem hms hms' hTrans)
  | intersection hms' =>
    cases hab with
    | leaf _ hb => cases hb
    | intersection hms => exact .intersection (forall₂_trans_of_mem hms hms' hTrans)
  | var =>
    cases hab with
    | leaf _ hb => cases hb
    | var => exact .var

theorem Same.symm {a b : Ty} (ha : a.Proper) (hb : b.Proper) (h : Same a b) : Same b a := by
  refine (same_iff hb ha).mpr (((same_iff ha hb).mp h).symm ha hb fun x hx y hy hxy => ?_)
  have hSize := sizeOf_lt_of_mem_parts hx
  exact hxy.symm (ha.part hx) (hb.part hy)
termination_by sizeOf a

theorem Same.trans {a b c : Ty} (ha : a.Proper) (hb : b.Proper) (hc : c.Proper) (hab : Same a b)
    (hbc : Same b c) : Same a c := by
  refine (same_iff ha hc).mpr (((same_iff ha hb).mp hab).trans ((same_iff hb hc).mp hbc) ?_)
  intro x hx y hy z hz hxy hyz
  have hSize := sizeOf_lt_of_mem_parts hx
  exact hxy.trans (ha.part hx) (hb.part hy) (hc.part hz) hyz
termination_by sizeOf a

end Alike

end Ty

end Scriptling.Typing
