import Scriptling.Proofs.Typing.Equality
import Scriptling.Typing.Subtype

/-!
# Subtyping is a preorder

The test of subtyping tries its rules in a fixed order, and the first that applies decides. On well-built types it
always comes to an answer, and `Rule` says which: one rule for each way in which a type can stand below another, with
the test itself for the parts. The order of the rules shows in one place only: an intersection on the left is looked
at where no union stands on the right.

Functions take their parameters the other way round, so transitivity is proved for three types at once, by induction
on their size together.

## Main results

* `below_iff_rule`: the test says yes exactly where a rule holds of the parts.
* `subtyping_preorder`: on well-built types the test answers, and is reflexive and transitive.
-/

namespace Scriptling.Typing.Ty

open List

variable {ms ps : List Ty} {n' : String}

/-- The first type is a subtype of the second by the test. -/
def Below (a b : Ty) : Prop := isSubtype a b = .ok true

/-- The ways in which a type other than the empty one can stand below another, over a relation for the parts. -/
inductive Rule (R : Ty → Ty → Prop) : Ty → Ty → Prop
  | same {a b} (h : Same a b) : Rule R a b
  | any {a b} (hb : b.kind = .any) : Rule R a b
  | member {a n ms m} (hm : m ∈ ms) (h : R a m) : Rule R a (union n ms)
  /-- An intersection all of whose members are below a type that is no union. -/
  | members {b n ms} (hb : b.kind ≠ .union) (h : ∀ m ∈ ms, R m b) : Rule R (intersection n ms) b
  | list {n n' e e'} (h : R e e') : Rule R (list n e) (list n' e')
  /-- Functions of equally many parameters, by these the other way round and by their results. -/
  | function {n n' ps ps' r r' ts ts'} (hps : List.Forall₂ (fun p p' => R p' p) ps ps') (hr : R r r') :
      Rule R (function n ps r ts) (function n' ps' r' ts')
  | struct {a b} (ha : a.kind = .struct) (hb : b.kind = .struct) (hName : a.name = b.name) : Rule R a b

/-! ## The test decides the rules -/

/-- The test answers, and says yes exactly if the proposition holds. -/
def Decides (test : Except TypingError Bool) (P : Prop) : Prop := ∃ r, test = .ok r ∧ (r = true ↔ P)

variable {a b c : Ty} {P : Prop} {n : String}

theorem Decides.of_true (h : P) : Decides (.ok true) P := ⟨true, rfl, by simp [h]⟩

theorem Decides.of_false (h : ¬ P) : Decides (.ok false) P := ⟨false, rfl, by simp [h]⟩

theorem Decides.iff {test : Except TypingError Bool} (h : Decides test P) : test = .ok true ↔ P := by
  obtain ⟨r, rfl, hr⟩ := h
  rw [← hr]
  constructor
  · intro hTrue
    exact Except.ok.inj hTrue
  · rintro rfl
    rfl

theorem Decides.congr {test : Except TypingError Bool} {Q : Prop} (h : Decides test P) (hPQ : P ↔ Q) :
    Decides test Q := by
  obtain ⟨r, hTest, hr⟩ := h
  exact ⟨r, hTest, hr.trans hPQ⟩

variable {R : Ty → Ty → Prop}

theorem isBelowSome_decides {bs : List Ty} (h : ∀ b ∈ bs, Decides (isSubtype a b) (R a b)) :
    Decides (isBelowSome a bs) (∃ b ∈ bs, R a b) := by
  induction bs with
  | nil =>
    rw [isBelowSome]
    exact .of_false (by simp)
  | cons b bs ih =>
    obtain ⟨r, hTest, hr⟩ := h b (by simp)
    have hRest := ih fun b' hb' => h b' (by simp [hb'])
    rw [isBelowSome, hTest]
    cases r with
    | true => exact .of_true ⟨b, by simp, hr.mp rfl⟩
    | false =>
      have hNot : ¬ R a b := by simpa using hr
      simpa [hNot] using hRest

theorem areBelow_decides {as : List Ty} (h : ∀ a ∈ as, Decides (isSubtype a b) (R a b)) :
    Decides (areBelow as b) (∀ a ∈ as, R a b) := by
  induction as with
  | nil =>
    rw [areBelow]
    exact .of_true (by simp)
  | cons a as ih =>
    obtain ⟨r, hTest, hr⟩ := h a (by simp)
    have hRest := ih fun a' ha' => h a' (by simp [ha'])
    rw [areBelow, hTest]
    cases r with
    | true => simpa [hr.mp rfl] using hRest
    | false =>
      have hNot : ¬ R a b := by simpa using hr
      exact .of_false fun hAll => hNot (hAll a (by simp))

theorem accepts_decides {qs : List Ty} (hLength : ps.length = qs.length)
    (h : ∀ p ∈ ps, ∀ q ∈ qs, Decides (isSubtype q p) (R q p)) :
    Decides (accepts ps qs) (List.Forall₂ (fun p q => R q p) ps qs) := by
  induction ps generalizing qs with
  | nil =>
    cases qs with
    | nil =>
      rw [accepts]
      · exact .of_true .nil
      · simp
    | cons => cases hLength
  | cons p ps ih =>
    cases qs with
    | nil => cases hLength
    | cons q qs =>
      obtain ⟨r, hTest, hr⟩ := h p (by simp) q (by simp)
      have hRest := ih (Nat.succ.inj hLength) fun p' hp' q' hq' => h p' (by simp [hp']) q' (by simp [hq'])
      rw [accepts, hTest]
      cases r with
      | true => simpa [hr.mp rfl] using hRest
      | false =>
        have hNot : ¬ R q p := by simpa using hr
        exact .of_false (by simp [hNot])

/-! ### One rule at a time

Each lemma takes up the test where the rules before its own have not applied. -/

theorem union_decides (ha : a.Proper) (hSame : ¬ Same a (union n ms))
    (h : ∀ m ∈ ms, Decides (isSubtype a m) (R a m)) : Decides (isSubtype a (union n ms)) (Rule R a (union n ms)) := by
  rw [isSubtype.eq_def, if_neg hSame, if_neg (by simp [kind]), if_neg ha.kind_ne_never,
    if_pos (show (union n ms).kind = .union from rfl)]
  refine (isBelowSome_decides h).congr ⟨fun ⟨m, hm, hR⟩ => .member hm hR, fun hRule => ?_⟩
  cases hRule with
  | same hEq => exact absurd hEq hSame
  | member hm hR => exact ⟨_, hm, hR⟩
  | members hb => exact absurd rfl hb
  | any hb | struct _ hb => cases hb

theorem intersection_decides (hSame : ¬ Same (intersection n ms) b) (hAny : b.kind ≠ .any)
    (hUnion : b.kind ≠ .union) (h : ∀ m ∈ ms, Decides (isSubtype m b) (R m b)) :
    Decides (isSubtype (intersection n ms) b) (Rule R (intersection n ms) b) := by
  rw [isSubtype.eq_def, if_neg hSame, if_neg hAny, if_neg (by simp [kind]), if_neg hUnion,
    if_pos (show (intersection n ms).kind = .intersection from rfl)]
  refine (areBelow_decides h).congr ⟨fun hAll => .members hUnion hAll, fun hRule => ?_⟩
  cases hRule with
  | same hEq => exact absurd hEq hSame
  | any hb => exact absurd hb hAny
  | member => exact absurd rfl hUnion
  | members _ hAll => exact hAll
  | struct ha => cases ha

theorem list_decides {e e' : Ty} (hSame : ¬ Same (list n e) (list n' e'))
    (h : Decides (isSubtype e e') (R e e')) :
    Decides (isSubtype (list n e) (list n' e')) (Rule R (list n e) (list n' e')) := by
  rw [isSubtype, if_neg hSame]
  simp only [kind, reduceCtorEq, if_false]
  refine h.congr ⟨.list, fun hRule => ?_⟩
  cases hRule with
  | same hEq => exact absurd hEq hSame
  | list hR => exact hR
  | any hb | struct _ hb => cases hb

theorem function_decides {ps' : List Ty} {r r' : Ty} {ts ts' : List String}
    (hSame : ¬ Same (function n ps r ts) (function n' ps' r' ts'))
    (hps : ∀ p ∈ ps, ∀ p' ∈ ps', Decides (isSubtype p' p) (R p' p)) (hr : Decides (isSubtype r r') (R r r')) :
    Decides (isSubtype (function n ps r ts) (function n' ps' r' ts'))
      (Rule R (function n ps r ts) (function n' ps' r' ts')) := by
  have hRule : Rule R (function n ps r ts) (function n' ps' r' ts') ↔
      List.Forall₂ (fun p p' => R p' p) ps ps' ∧ R r r' := by
    constructor
    · intro h
      cases h with
      | same hEq => exact absurd hEq hSame
      | function hParameters hResult => exact ⟨hParameters, hResult⟩
      | any hb | struct _ hb => cases hb
    · rintro ⟨hParameters, hResult⟩
      exact .function hParameters hResult
  rw [isSubtype, if_neg hSame]
  simp only [kind, reduceCtorEq, if_false]
  by_cases hLength : ps.length = ps'.length
  · rw [if_neg (not_not.mpr hLength)]
    obtain ⟨answer, hTest, hAnswer⟩ := accepts_decides hLength hps
    rw [hTest]
    cases answer with
    | true => exact hr.congr (by rw [hRule, and_iff_right (hAnswer.mp rfl)])
    | false =>
      have hNone : ¬ List.Forall₂ (fun p p' => R p' p) ps ps' := by simpa using hAnswer
      exact .of_false fun h => hNone (hRule.mp h).1
  · rw [if_pos hLength]
    exact .of_false fun h => hLength (hRule.mp h).1.length_eq

/-- Where neither a union stands on the right nor an intersection on the left, and the two are neither lists nor
functions, only structs of one name are related. -/
theorem struct_decides (hSame : ¬ Same a b) (hAny : b.kind ≠ .any) (hNever : a.kind ≠ .never)
    (hUnion : b.kind ≠ .union) (hIntersection : a.kind ≠ .intersection)
    (hLists : ¬ (a.kind = .list ∧ b.kind = .list)) (hFunctions : ¬ (a.kind = .function ∧ b.kind = .function)) :
    Decides (isSubtype a b) (Rule R a b) := by
  rw [isSubtype.eq_def, if_neg hSame, if_neg hAny, if_neg hNever, if_neg hUnion, if_neg hIntersection]
  split
  · exact absurd ⟨rfl, rfl⟩ hLists
  · exact absurd ⟨rfl, rfl⟩ hFunctions
  · refine ⟨_, rfl, ?_⟩
    simp only [Bool.and_eq_true, beq_iff_eq]
    constructor
    · rintro ⟨⟨ha, hb⟩, hName⟩
      exact .struct ha hb hName
    · intro hRule
      cases hRule with
      | same hEq => exact absurd hEq hSame
      | any hb => exact absurd hb hAny
      | member => exact absurd rfl hUnion
      | members => exact absurd rfl hIntersection
      | list => exact absurd ⟨rfl, rfl⟩ hLists
      | function => exact absurd ⟨rfl, rfl⟩ hFunctions
      | struct ha hb hName => exact ⟨⟨ha, hb⟩, hName⟩

/-- The test decides the rules if it decides what they say of smaller types. -/
theorem isSubtype_decides_of_smaller (ha : a.Proper) (hb : b.Proper)
    (hSmaller : ∀ x y, sizeOf x + sizeOf y < sizeOf a + sizeOf b → x.Proper → y.Proper →
      Decides (isSubtype x y) (R x y)) : Decides (isSubtype a b) (Rule R a b) := by
  by_cases hSame : Same a b
  · rw [isSubtype.eq_def, if_pos hSame]
    exact .of_true (.same hSame)
  by_cases hAny : b.kind = .any
  · rw [isSubtype.eq_def, if_neg hSame, if_pos hAny]
    exact ⟨_, rfl, by simpa [ha.kind_ne_never] using Rule.any hAny⟩
  by_cases hUnion : b.kind = .union
  · obtain ⟨n, ms, rfl⟩ := hb.hasForm hUnion
    refine union_decides ha hSame fun m hm => ?_
    have hSize : sizeOf m < sizeOf (union n ms) := sizeOf_lt_of_mem_parts hm
    exact hSmaller a m (by omega) ha (hb.part hm)
  by_cases hIntersection : a.kind = .intersection
  · obtain ⟨n, ms, rfl⟩ := ha.hasForm hIntersection
    refine intersection_decides hSame hAny hUnion fun m hm => ?_
    have hSize : sizeOf m < sizeOf (intersection n ms) := sizeOf_lt_of_mem_parts hm
    exact hSmaller m b (by omega) (ha.part hm) hb
  have hParts : ∀ x ∈ a.parts, ∀ y ∈ b.parts, Decides (isSubtype x y) (R x y) ∧ Decides (isSubtype y x) (R y x) := by
    intro x hx y hy
    have hSize := sizeOf_lt_of_mem_parts hx
    have hSize' := sizeOf_lt_of_mem_parts hy
    exact ⟨hSmaller x y (by omega) (ha.part hx) (hb.part hy), hSmaller y x (by omega) (hb.part hy) (ha.part hx)⟩
  by_cases hLists : a.kind = .list ∧ b.kind = .list
  · obtain ⟨n, e, rfl⟩ := ha.hasForm hLists.1
    obtain ⟨n', e', rfl⟩ := hb.hasForm hLists.2
    exact list_decides hSame (hParts e (.head _) e' (.head _)).1
  by_cases hFunctions : a.kind = .function ∧ b.kind = .function
  · obtain ⟨n, ps, r, ts, rfl⟩ := ha.hasForm hFunctions.1
    obtain ⟨n', ps', r', ts', rfl⟩ := hb.hasForm hFunctions.2
    exact function_decides hSame (fun p hp p' hp' => (hParts p (.tail _ hp) p' (.tail _ hp')).2)
      (hParts r (.head _) r' (.head _)).1
  exact struct_decides hSame hAny ha.kind_ne_never hUnion hIntersection hLists hFunctions

/-- On well-built types the test always answers. -/
theorem isSubtype_answers (ha : a.Proper) (hb : b.Proper) : ∃ r, isSubtype a b = .ok r := by
  induction hSize : sizeOf a + sizeOf b using Nat.strongRecOn generalizing a b with
  | ind size ih =>
    have hSmaller : ∀ x y, sizeOf x + sizeOf y < sizeOf a + sizeOf b → x.Proper → y.Proper →
        Decides (isSubtype x y) (Below x y) := by
      intro x y hLt hx hy
      obtain ⟨r, hr⟩ := ih _ (hSize ▸ hLt) hx hy rfl
      exact ⟨r, hr, by simp [Below, hr]⟩
    obtain ⟨r, hr, -⟩ := isSubtype_decides_of_smaller ha hb hSmaller
    exact ⟨r, hr⟩

/-- The test says yes exactly where a rule holds, with the test itself for the parts. -/
theorem below_iff_rule (ha : a.Proper) (hb : b.Proper) : Below a b ↔ Rule Below a b := by
  refine (isSubtype_decides_of_smaller ha hb fun x y _ hx hy => ?_).iff
  obtain ⟨r, hr⟩ := isSubtype_answers hx hy
  exact ⟨r, hr, by simp [Below, hr]⟩

/-! ## Reflexivity and transitivity -/

theorem Below.refl (ha : a.Proper) : Below a a := (below_iff_rule ha ha).mpr (.same (.refl ha))

theorem Same.below (ha : a.Proper) (hb : b.Proper) (h : Same a b) : Below a b := (below_iff_rule ha hb).mpr (.same h)

theorem Same.above (ha : a.Proper) (hb : b.Proper) (h : Same a b) : Below b a := (h.symm ha hb).below hb ha

/-- Transitivity for three types whose size together is below a bound. -/
def TransitiveWithin (size : Nat) : Prop :=
  ∀ a b c : Ty, sizeOf a + sizeOf b + sizeOf c < size → a.Proper → b.Proper → c.Proper →
    Below a b → Below b c → Below a c

namespace TransitiveWithin

variable {n : String}

/-- Parts of all three types go through the middle. -/
theorem parts (ih : TransitiveWithin (sizeOf a + sizeOf b + sizeOf c)) (ha : a.Proper) (hb : b.Proper) (hc : c.Proper)
    {x y z : Ty} (hx : x ∈ a.parts) (hy : y ∈ b.parts) (hz : z ∈ c.parts) :
    (Below x y → Below y z → Below x z) ∧ (Below y x → Below z y → Below z x) := by
  have hSize := sizeOf_lt_of_mem_parts hx
  have hSize' := sizeOf_lt_of_mem_parts hy
  have hSize'' := sizeOf_lt_of_mem_parts hz
  exact ⟨ih x y z (by omega) (ha.part hx) (hb.part hy) (hc.part hz),
    fun h h' => ih z y x (by omega) (hc.part hz) (hb.part hy) (ha.part hx) h' h⟩

/-- An intersection below the middle type is below the last one, unless that is a union. -/
theorem members (ih : TransitiveWithin (sizeOf (intersection n ms) + sizeOf b + sizeOf c))
    (ha : (intersection n ms).Proper) (hb : b.Proper) (hc : c.Proper) (hUnion : c.kind ≠ .union)
    (hab : ∀ m ∈ ms, Below m b) (hbc : Below b c) : Rule Below (intersection n ms) c := by
  apply Rule.members hUnion
  intro m hm
  have hSize : sizeOf m < sizeOf (intersection n ms) := sizeOf_lt_of_mem_parts hm
  exact ih m b c (by omega) (ha.part hm) hb hc (hab m hm) hbc

theorem function {n'' : String} {ps' ps'' : List Ty} {r r' r'' : Ty} {ts ts' ts'' : List String}
    (ih : TransitiveWithin
      (sizeOf (function n ps r ts) + sizeOf (function n' ps' r' ts') + sizeOf (function n'' ps'' r'' ts'')))
    (ha : (Ty.function n ps r ts).Proper) (hb : (Ty.function n' ps' r' ts').Proper)
    (hc : (Ty.function n'' ps'' r'' ts'').Proper) (hps : List.Forall₂ (fun p p' => Below p' p) ps ps')
    (hps' : List.Forall₂ (fun p p' => Below p' p) ps' ps'') (hr : Below r r') (hr' : Below r' r'') :
    Rule Below (function n ps r ts) (function n'' ps'' r'' ts'') := by
  refine .function (forall₂_trans_of_mem hps hps' fun p hp p' hp' p'' hp'' => ?_)
    ((ih.parts ha hb hc (.head _) (.head _) (.head _)).1 hr hr')
  -- The parameters are compared the other way round, from the last function to the first.
  exact (ih.parts ha hb hc (.tail _ hp) (.tail _ hp') (.tail _ hp'')).2

/-- A rule for the first two types holds with a type equal to the second in its place. -/
theorem same_right (ih : TransitiveWithin (sizeOf a + sizeOf b + sizeOf c)) (ha : a.Proper) (hb : b.Proper)
    (hc : c.Proper) (hab : Rule Below a b) (hbc : Same b c) : Rule Below a c := by
  have hAlike := (same_iff hb hc).mp hbc
  cases hab with
  | same h => exact .same (h.trans ha hb hc hbc)
  | any hAny => exact .any (hbc.kind_eq ▸ hAny)
  | @member _ n ms m hm h =>
    cases hAlike with
    | leaf hLeaf => cases hLeaf
    | @union _ _ ms' hSame =>
      obtain ⟨m', hm', hEq⟩ := exists_of_forall₂ hSame hm
      have hSize : sizeOf m < sizeOf (union n ms) := sizeOf_lt_of_mem_parts hm
      have hSize' : sizeOf m' < sizeOf (union n ms') := sizeOf_lt_of_mem_parts hm'
      have hBelow := hEq.below (hb.part hm) (hc.part hm')
      exact .member hm' (ih a m m' (by omega) ha (hb.part hm) (hc.part hm') h hBelow)
  | members hUnion h => exact ih.members ha hb hc (hbc.kind_eq ▸ hUnion) h (hbc.below hb hc)
  | list h =>
    cases hAlike with
    | leaf hLeaf => cases hLeaf
    | list hEq =>
      have hBelow := hEq.below (hb.part (.head _)) (hc.part (.head _))
      exact .list ((ih.parts ha hb hc (.head _) (.head _) (.head _)).1 h hBelow)
  | function hps hr =>
    cases hAlike with
    | leaf hLeaf => cases hLeaf
    | function hSame hEq =>
      refine ih.function ha hb hc hps ?_ hr (hEq.below (hb.part (.head _)) (hc.part (.head _)))
      exact forall₂_imp_of_mem hSame fun p' hp' p'' hp'' h => h.above (hb.part (.tail _ hp')) (hc.part (.tail _ hp''))
  | struct hA hB hName => exact .struct hA (hbc.kind_eq ▸ hB) (hName.trans hbc.name_eq)

/-- Two rules that meet in the middle make one, where smaller triples of types are known to be transitive. -/
theorem rule (ih : TransitiveWithin (sizeOf a + sizeOf b + sizeOf c)) (ha : a.Proper) (hb : b.Proper)
    (hc : c.Proper) (hab : Rule Below a b) (hbc : Rule Below b c) : Rule Below a c := by
  have hBelow : Below a b := (below_iff_rule ha hb).mpr hab
  have hBelow' : Below b c := (below_iff_rule hb hc).mpr hbc
  -- The right side comes first: under a union or the type of everything nothing has to be known of the left.
  cases hbc with
  | same h => exact ih.same_right ha hb hc hab h
  | any hAny => exact .any hAny
  | @member _ n ms m hm h =>
    have hSize : sizeOf m < sizeOf (union n ms) := sizeOf_lt_of_mem_parts hm
    exact .member hm (ih a b m (by omega) ha hb (hc.part hm) hBelow h)
  | @members _ n ms hUnion h =>
    cases hab with
    | same hEq =>
      cases (same_iff ha hb).mp hEq with
      | leaf _ hLeaf => cases hLeaf
      | @intersection _ ms' _ hSame =>
        refine .members hUnion fun m' hm' => ?_
        obtain ⟨m, hm, hEq'⟩ := exists_of_forall₂ hSame hm'
        have hSize : sizeOf m < sizeOf (intersection n ms) := sizeOf_lt_of_mem_parts hm
        have hSize' : sizeOf m' < sizeOf (intersection n ms') := sizeOf_lt_of_mem_parts hm'
        have hBelow'' := hEq'.below (ha.part hm') (hb.part hm)
        exact ih m' m c (by omega) (ha.part hm') (hb.part hm) hc hBelow'' (h m hm)
    | members _ hAll => exact ih.members ha hb hc hUnion hAll hBelow'
    | any hB | struct _ hB => cases hB
  | list h =>
    cases hab with
    | same hEq =>
      cases (same_iff ha hb).mp hEq with
      | leaf _ hLeaf => cases hLeaf
      | list hSame =>
        have hBelow'' := hSame.below (ha.part (.head _)) (hb.part (.head _))
        exact .list ((ih.parts ha hb hc (.head _) (.head _) (.head _)).1 hBelow'' h)
    | members _ hAll => exact ih.members ha hb hc (by simp [kind]) hAll hBelow'
    | list h' => exact .list ((ih.parts ha hb hc (.head _) (.head _) (.head _)).1 h' h)
    | any hB | struct _ hB => cases hB
  | function hps hr =>
    cases hab with
    | same hEq =>
      cases (same_iff ha hb).mp hEq with
      | leaf _ hLeaf => cases hLeaf
      | function hSame hSame' =>
        refine ih.function ha hb hc ?_ hps (hSame'.below (ha.part (.head _)) (hb.part (.head _))) hr
        exact forall₂_imp_of_mem hSame fun p' hp' p hp h => h.above (ha.part (.tail _ hp')) (hb.part (.tail _ hp))
    | members _ hAll => exact ih.members ha hb hc (by simp [kind]) hAll hBelow'
    | function hps' hr' => exact ih.function ha hb hc hps' hps hr' hr
    | any hB | struct _ hB => cases hB
  | struct hB hC hName =>
    cases hab with
    | same hEq => exact .struct (hEq.kind_eq.trans hB) hC (hEq.name_eq.trans hName)
    | members _ hAll => exact ih.members ha hb hc (by simp [hC]) hAll hBelow'
    | struct hA _ hName' => exact .struct hA hC (hName'.trans hName)
    | any hAny => exact absurd (hAny.symm.trans hB) (by decide)
    | member | list | function => cases hB

end TransitiveWithin

theorem Below.trans (ha : a.Proper) (hb : b.Proper) (hc : c.Proper) (hab : Below a b) (hbc : Below b c) :
    Below a c := by
  induction hSize : sizeOf a + sizeOf b + sizeOf c using Nat.strongRecOn generalizing a b c with
  | ind size ih =>
    have hSmaller : TransitiveWithin (sizeOf a + sizeOf b + sizeOf c) := by
      intro x y z hLt hx hy hz hxy hyz
      exact ih _ (hSize ▸ hLt) hx hy hz hxy hyz rfl
    rw [below_iff_rule ha hb] at hab
    rw [below_iff_rule hb hc] at hbc
    rw [below_iff_rule ha hc]
    exact hSmaller.rule ha hb hc hab hbc

/-- On types without the empty type, and with compound kinds only where they belong, the test of subtyping answers,
and what it says is a preorder. -/
theorem subtyping_preorder (ha : a.Proper) (hb : b.Proper) (hc : c.Proper) :
    (∃ r, isSubtype a b = .ok r) ∧
    isSubtype a a = .ok true ∧
    (isSubtype a b = .ok true → isSubtype b c = .ok true → isSubtype a c = .ok true) := by
  refine ⟨isSubtype_answers ha hb, Below.refl ha, ?_⟩
  intro hab hbc
  exact Below.trans ha hb hc hab hbc

def numberOrString : Ty := mkUnion "" [primitive .number "number", primitive .string "string"]

theorem numberOrString_builtFrom {kinds : List TypeKind} (hNumber : .number ∈ kinds) (hString : .string ∈ kinds) :
    numberOrString.BuiltFrom kinds := by
  refine .union ?_
  rintro m (_ | ⟨_, _ | ⟨_, ⟨⟩⟩⟩)
  · exact .primitive hNumber
  · exact .primitive hString

/-- Functions that take less and give more, from `any -> number` to `number -> number | string | null`. -/
theorem subtyping_preorder_functions :
    isSubtype (mkFunction "" [anyType] (primitive .number "number") [])
      (mkFunction "" [numberOrString] numberOrString []) = .ok true ∧
    isSubtype (mkFunction "" [numberOrString] numberOrString [])
      (mkFunction "" [primitive .number "number"] (mkUnion "" [numberOrString, plain .null "null"]) []) = .ok true ∧
    isSubtype (mkFunction "" [anyType] (primitive .number "number") [])
      (mkFunction "" [primitive .number "number"] (mkUnion "" [numberOrString, plain .null "null"]) []) =
        .ok true := by
  have hEither : numberOrString.Proper := numberOrString_builtFrom (by decide) (by decide)
  have hFirst : (mkFunction "" [anyType] (primitive .number "number") []).Proper := by
    refine .function ?_ (.primitive (by decide))
    rintro p (_ | ⟨_, ⟨⟩⟩)
    exact .plain (by decide)
  have hSecond : (mkFunction "" [numberOrString] numberOrString []).Proper := by
    refine .function ?_ hEither
    rintro p (_ | ⟨_, ⟨⟩⟩)
    exact hEither
  have hThird : (mkFunction "" [primitive .number "number"] (mkUnion "" [numberOrString, plain .null "null"])
      []).Proper := by
    refine .function ?_ (.union ?_)
    · rintro p (_ | ⟨_, ⟨⟩⟩)
      exact .primitive (by decide)
    · rintro m (_ | ⟨_, _ | ⟨_, ⟨⟩⟩⟩)
      · exact hEither
      · exact .plain (by decide)
  refine ⟨by decide +kernel, by decide +kernel, ?_⟩
  exact (subtyping_preorder hFirst hSecond hThird).2.2 (by decide +kernel) (by decide +kernel)

end Scriptling.Typing.Ty
