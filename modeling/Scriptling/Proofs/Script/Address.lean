import Scriptling.Script.Run

/-!
# What a value leads to

A value can name scopes, cells of the store, native functions and functions that leave loops. These are its
addresses. Operations on values make no addresses: those of a result are among the addresses of what it was made
from. And a value is frozen the same in two stores that hold the same in all cells it leads to (`freeze_congr`).
-/

namespace Scriptling

open List

variable {es : List (Datum × Datum)}

/-- Something outside a value that the value leads to. -/
inductive Address where
  | frame (id : Nat)
  | cell (id : Nat)
  | native (name : String)
  | countdown (index : Nat)
  deriving Repr, DecidableEq

namespace Datum

variable {a : Address}

/-! ## Addresses -/

mutual

def addresses : Datum → List Address
  | frame id => [.frame id]
  | cell id => [.cell id]
  | function name => [.native name]
  | object _ _ id => [.countdown id]
  | list xs | tuple xs | set xs | frozenset xs | iterator _ xs => addressesOfAll xs
  | dict es => addressesOfEntries es
  | record fs => addressesOfFields fs
  | method r _ => addresses r
  | value t p => addresses t ++ addresses p
  | token _ _ literal _ => addresses literal
  | none | bool _ | int _ | float _ | complex _ _ | str _ | bytes _ | byteArray _ | range _ _ _ | cls _
  | builtin _ | tag _ => []

def addressesOfAll : List Datum → List Address
  | [] => []
  | d :: ds => addresses d ++ addressesOfAll ds

def addressesOfEntries : List (Datum × Datum) → List Address
  | [] => []
  | (k, v) :: rest => addresses k ++ (addresses v ++ addressesOfEntries rest)

def addressesOfFields : List (String × Datum) → List Address
  | [] => []
  | (_, v) :: rest => addresses v ++ addressesOfFields rest

end

/-- The value leads only to what is told. -/
def Within (R : Address → Prop) (d : Datum) : Prop := ∀ a ∈ d.addresses, R a

theorem mem_addressesOfAll {ds : List Datum} : a ∈ addressesOfAll ds ↔ ∃ d ∈ ds, a ∈ d.addresses := by
  induction ds with
  | nil => simp [addressesOfAll]
  | cons d ds ih => simp [addressesOfAll, ih]

theorem mem_addressesOfEntries :
    a ∈ addressesOfEntries es ↔ ∃ e ∈ es, a ∈ e.1.addresses ∨ a ∈ e.2.addresses := by
  induction es with
  | nil => simp [addressesOfEntries]
  | cons e es ih => simp [addressesOfEntries, ih, or_assoc]

theorem mem_addressesOfFields {fs : List (String × Datum)} :
    a ∈ addressesOfFields fs ↔ ∃ f ∈ fs, a ∈ f.2.addresses := by
  induction fs with
  | nil => simp [addressesOfFields]
  | cons f fs ih => simp [addressesOfFields, ih]

section Within

variable {R : Address → Prop} {d x : Datum} {xs : List Datum} {n : Int} {id : Nat} {op : Operator}

theorem within_of_nil (h : d.addresses = []) : d.Within R := by
  intro a ha
  rw [h] at ha
  cases ha

theorem allWithin_iff : (∀ a ∈ addressesOfAll xs, R a) ↔ ∀ x ∈ xs, x.Within R := by
  simp only [mem_addressesOfAll, Within]
  exact ⟨fun h x hx a ha => h a ⟨x, hx, ha⟩, fun h a ⟨x, hx, ha⟩ => h x hx a ha⟩

@[simp] theorem within_list : (list xs).Within R ↔ ∀ x ∈ xs, x.Within R := allWithin_iff

@[simp] theorem within_tuple : (tuple xs).Within R ↔ ∀ x ∈ xs, x.Within R := allWithin_iff

@[simp] theorem within_dict :
    (dict es).Within R ↔ ∀ e ∈ es, e.1.Within R ∧ e.2.Within R := by
  simp only [Within, addresses, mem_addressesOfEntries]
  refine ⟨fun h e he => ⟨fun a ha => h a ⟨e, he, .inl ha⟩, fun a ha => h a ⟨e, he, .inr ha⟩⟩, ?_⟩
  rintro h a ⟨e, he, ha | ha⟩
  · exact (h e he).1 a ha
  · exact (h e he).2 a ha

@[simp] theorem within_record {fs : List (String × Datum)} : (record fs).Within R ↔ ∀ f ∈ fs, f.2.Within R := by
  simp only [Within, addresses, mem_addressesOfFields]
  exact ⟨fun h f hf a ha => h a ⟨f, hf, ha⟩, fun h a ⟨f, hf, ha⟩ => h f hf a ha⟩

@[simp] theorem within_value {t p : Datum} : (value t p).Within R ↔ t.Within R ∧ p.Within R := by
  simp only [Within, addresses, forall_mem_append]

@[simp] theorem within_tagged {t : ValueTag} {p : Datum} : (tagged t p).Within R ↔ p.Within R :=
  within_value.trans (and_iff_right (within_of_nil rfl))

theorem within_null : null.Within R := within_of_nil rfl

@[simp] theorem within_frame : (frame id).Within R ↔ R (.frame id) := forall_mem_singleton

@[simp] theorem within_cell : (cell id).Within R ↔ R (.cell id) := forall_mem_singleton

@[simp] theorem within_function {name : String} : (function name).Within R ↔ R (.native name) := forall_mem_singleton

@[simp] theorem within_object {c text : String} : (object c text id).Within R ↔ R (.countdown id) :=
  forall_mem_singleton

/-! ## Parts and results -/

theorem lookup?_within {key v : Datum} (h : (dict es).Within R)
    (hFound : lookup? es key = some v) : v.Within R := by
  obtain ⟨e, hFind, rfl⟩ := Option.map_eq_some_iff.mp hFound
  exact (within_dict.mp h e (mem_of_find?_eq_some hFind)).2

theorem ok_of_bind {α β : Type} {x : Except Fault α} {f : α → Except Fault β} {b : β} (h : x >>= f = .ok b) :
    ∃ a, x = .ok a ∧ f a = .ok b := by
  cases x with
  | ok a => exact ⟨a, rfl, h⟩
  | error e => cases h

theorem rangeAll_within [Size.Room] {a b c : Int} (h : rangeAll a b c = .ok xs) : ∀ x ∈ xs, x.Within R := by
  obtain ⟨n, -, h⟩ := ok_of_bind h
  obtain ⟨k, -, h⟩ := ok_of_bind h
  cases h
  rw [rangeFirst, forall_mem_map]
  exact fun i _ => within_of_nil rfl

theorem items_within [Size.Room] (h : d.Within R) (hItems : d.items = .ok xs) : ∀ x ∈ xs, x.Within R := by
  unfold items at hItems
  split at hItems
  case h_10 => exact rangeAll_within hItems
  case h_9 =>
    cases hItems
    exact forall_mem_map.mpr fun e he => (within_dict.mp h e he).1
  -- characters and bytes lead nowhere, and the items of a collection are its parts
  all_goals cases hItems
  iterate 3 exact forall_mem_map.mpr fun _ _ => within_of_nil rfl
  all_goals exact allWithin_iff.mp h

/-- A number, be it complex. -/
inductive IsNumber : Datum → Prop where
  | int {n : Int} : IsNumber (int n)
  | float {x : Float} : IsNumber (float x)
  | complex {re im : Float} : IsNumber (complex re im)

theorem IsNumber.within (h : d.IsNumber) : d.Within R := by
  cases h <;> exact within_of_nil rfl

theorem finiteComplex_isNumber {r : Float × Float} (h : finiteComplex r = .ok d) : d.IsNumber := by
  unfold finiteComplex at h
  split at h <;> cases h
  exact .complex

theorem complexPow_isNumber {x y : Float × Float} (h : complexPow x y = .ok d) : d.IsNumber := by
  unfold complexPow at h
  split at h
  · cases h
    exact .complex
  · split at h
    · dsimp only at h
      split at h
      · exact finiteComplex_isNumber h
      · split at h
        · exact finiteComplex_isNumber h
        · cases h
    · split at h
      · split at h <;> cases h
        exact .complex
      · exact finiteComplex_isNumber h

theorem floatOperation_isNumber {x y : Float} (h : floatOperation op x y = .ok d) : d.IsNumber := by
  cases op with
  | add | sub | mul =>
    cases h
    exact .float
  | div | floorDiv | mod =>
    simp only [floatOperation] at h
    split at h <;> cases h
    exact .float
  | pow =>
    simp only [floatOperation] at h
    split at h
    · cases h
      exact .float
    · cases h
    · cases h
    · exact complexPow_isNumber h

theorem complexOperation_isNumber {x y : Float × Float} (h : complexOperation op x y = .ok d) : d.IsNumber := by
  cases op with
  | add | sub | mul =>
    cases h
    exact .complex
  | div =>
    simp only [complexOperation] at h
    split at h <;> cases h
    exact .complex
  | floorDiv | mod => cases h
  | pow => exact complexPow_isNumber h

variable [Size.Room]

theorem intOperation_isNumber {m : Int} (h : intOperation op m n = .ok d) : d.IsNumber := by
  cases op with
  | add | sub | mul =>
    cases h
    exact .int
  | div =>
    simp only [intOperation, divideInts] at h
    split at h
    · cases h
    · split at h <;> cases h
      exact .float
  | floorDiv | mod =>
    simp only [intOperation] at h
    split at h <;> cases h
    exact .int
  | pow =>
    simp only [intOperation] at h
    split at h
    · obtain ⟨k, -, h⟩ := ok_of_bind h
      cases h
      exact .int
    · obtain ⟨x, -, h⟩ := ok_of_bind h
      obtain ⟨y, -, h⟩ := ok_of_bind h
      exact floatOperation_isNumber h

theorem numericOperation_isNumber {x y : Numeric} (h : numericOperation op x y = .ok d) : d.IsNumber := by
  unfold numericOperation at h
  split at h
  · exact intOperation_isNumber h
  · obtain ⟨x, -, h⟩ := ok_of_bind h
    exact floatOperation_isNumber h
  · obtain ⟨y, -, h⟩ := ok_of_bind h
    exact floatOperation_isNumber h
  · exact floatOperation_isNumber h
  · obtain ⟨x, -, h⟩ := ok_of_bind h
    obtain ⟨y, -, h⟩ := ok_of_bind h
    exact complexOperation_isNumber h

/-- A power is one of numbers; nothing else has powers. -/
theorem pow_isNumber {y : Datum} (h : operate .pow x y = .ok d) : d.IsNumber := by
  unfold operate at h
  split at h
  · exact numericOperation_isNumber h
  · cases h

/-- A sum leads nowhere else than what it is made of. -/
theorem add_within {y : Datum} (h : operate .add x y = .ok d) (hx : x.Within R) (hy : y.Within R) : d.Within R := by
  unfold operate at h
  split at h
  · exact (numericOperation_isNumber h).within
  · simp only [sequenceOperation] at h
    split at h <;> cases h
    iterate 5 exact within_of_nil rfl
    all_goals exact allWithin_iff.mpr (forall_mem_append.mpr ⟨allWithin_iff.mp hx, allWithin_iff.mp hy⟩)

end Within

/-! ## Cells replaced -/

section Replaced

variable {R : Address → Prop} {f g : Nat → Datum} (hfg : ∀ id, R (.cell id) → (f id).Within R ∧ f id = g id)

include hfg

set_option linter.unusedSectionVars false in
mutual

/-- If all cells that a value leads to are replaced alike, the value is the same either way. -/
theorem replaceCells_congr :
    (d : Datum) → d.Within R → (d.replaceCells f).Within R ∧ d.replaceCells f = d.replaceCells g
  | cell id, h => hfg id (within_cell.mp h)
  | list xs, h => (replaceAll_congr xs (allWithin_iff.mp h)).imp allWithin_iff.mpr (congrArg list)
  | tuple xs, h => (replaceAll_congr xs (allWithin_iff.mp h)).imp allWithin_iff.mpr (congrArg tuple)
  | set xs, h => (replaceAll_congr xs (allWithin_iff.mp h)).imp allWithin_iff.mpr (congrArg set)
  | frozenset xs, h => (replaceAll_congr xs (allWithin_iff.mp h)).imp allWithin_iff.mpr (congrArg frozenset)
  | iterator c xs, h => (replaceAll_congr xs (allWithin_iff.mp h)).imp allWithin_iff.mpr (congrArg (iterator c))
  | dict es, h => (replaceEntries_congr es (within_dict.mp h)).imp within_dict.mpr (congrArg dict)
  | record fs, h => (replaceFields_congr fs (within_record.mp h)).imp within_record.mpr (congrArg record)
  | method r name, h => (replaceCells_congr r h).imp id (congrArg (method · name))
  | value t p, h => by
      obtain ⟨ht, hp⟩ := within_value.mp h
      obtain ⟨htWithin, htSame⟩ := replaceCells_congr t ht
      obtain ⟨hpWithin, hpSame⟩ := replaceCells_congr p hp
      exact ⟨within_value.mpr ⟨htWithin, hpWithin⟩, by simp only [replaceCells, htSame, hpSame]⟩
  | none, h | bool _, h | int _, h | float _, h | complex _ _, h | str _, h | bytes _, h | byteArray _, h
  | range _ _ _, h | cls _, h | function _, h | builtin _, h | object _ _ _, h | tag _, h | token _ _ _ _, h
  | frame _, h => ⟨h, rfl⟩

theorem replaceAll_congr : (ds : List Datum) → (∀ d ∈ ds, d.Within R) →
    (∀ d ∈ replaceAll f ds, d.Within R) ∧ replaceAll f ds = replaceAll g ds
  | [], h => ⟨h, rfl⟩
  | d :: ds, h => by
      obtain ⟨hd, hds⟩ := forall_mem_cons.mp h
      obtain ⟨hWithin, hSame⟩ := replaceCells_congr d hd
      obtain ⟨hAll, hRest⟩ := replaceAll_congr ds hds
      exact ⟨forall_mem_cons.mpr ⟨hWithin, hAll⟩, by simp only [replaceAll, hSame, hRest]⟩

theorem replaceEntries_congr : (es : List (Datum × Datum)) → (∀ e ∈ es, e.1.Within R ∧ e.2.Within R) →
    (∀ e ∈ replaceEntries f es, e.1.Within R ∧ e.2.Within R) ∧ replaceEntries f es = replaceEntries g es
  | [], h => ⟨h, rfl⟩
  | (k, v) :: es, h => by
      obtain ⟨⟨hk, hv⟩, hes⟩ := forall_mem_cons.mp h
      obtain ⟨hKey, hSameKey⟩ := replaceCells_congr k hk
      obtain ⟨hWithin, hSame⟩ := replaceCells_congr v hv
      obtain ⟨hAll, hRest⟩ := replaceEntries_congr es hes
      exact ⟨forall_mem_cons.mpr ⟨⟨hKey, hWithin⟩, hAll⟩, by simp only [replaceEntries, hSameKey, hSame, hRest]⟩

theorem replaceFields_congr : (fs : List (String × Datum)) → (∀ e ∈ fs, e.2.Within R) →
    (∀ e ∈ replaceFields f fs, e.2.Within R) ∧ replaceFields f fs = replaceFields g fs
  | [], h => ⟨h, rfl⟩
  | (k, v) :: fs, h => by
      obtain ⟨hv, hfs⟩ := forall_mem_cons.mp h
      obtain ⟨hWithin, hSame⟩ := replaceCells_congr v hv
      obtain ⟨hAll, hRest⟩ := replaceFields_congr fs hfs
      exact ⟨forall_mem_cons.mpr ⟨hWithin, hAll⟩, by simp only [replaceFields, hSame, hRest]⟩

end

end Replaced

end Datum

/-! ## Frozen values -/

namespace Store

/-- In cells that may be led to there are only values that lead no further. -/
def Holds (R : Address → Prop) (store : Store) : Prop := ∀ id, R (.cell id) → (store.getD id .none).Within R

/-- Two stores hold the same in the cells that may be led to. -/
def AgreeOn (R : Address → Prop) (store1 store2 : Store) : Prop :=
  ∀ id, R (.cell id) → store1.getD id .none = store2.getD id .none

variable {R : Address → Prop} {store store1 store2 : Store} {d : Datum}

theorem Holds.push (h : store.Holds R) (hd : d.Within R) : Holds R (store.push d) := by
  intro id hId
  have hOld := h id hId
  rw [Array.getD_eq_getD_getElem?] at hOld ⊢
  rw [Array.getElem?_push]
  split
  · exact hd
  · exact hOld

theorem Holds.set (h : store.Holds R) (place : Nat) (hd : d.Within R) : Holds R (store.setIfInBounds place d) := by
  intro id hId
  have hOld := h id hId
  rw [Array.getD_eq_getD_getElem?] at hOld ⊢
  rw [Array.getElem?_setIfInBounds]
  split
  · split
    · exact hd
    · exact Datum.within_of_nil rfl
  · exact hOld

theorem AgreeOn.push (h : AgreeOn R store1 store2) (hSize : store1.size = store2.size) (d : Datum) :
    AgreeOn R (store1.push d) (store2.push d) := by
  intro id hId
  have hOld := h id hId
  simp only [Array.getD_eq_getD_getElem?] at hOld ⊢
  simp only [Array.getElem?_push, hSize]
  split
  · rfl
  · exact hOld

theorem AgreeOn.set (h : AgreeOn R store1 store2) (hSize : store1.size = store2.size) (place : Nat) (d : Datum) :
    AgreeOn R (store1.setIfInBounds place d) (store2.setIfInBounds place d) := by
  intro id hId
  have hOld := h id hId
  simp only [Array.getD_eq_getD_getElem?] at hOld ⊢
  simp only [Array.getElem?_setIfInBounds, hSize]
  split
  · rfl
  · exact hOld

theorem freezeWithin_congr (hHolds : store1.Holds R) (hAgree : AgreeOn R store1 store2) (n : Nat) :
    ∀ (path : List Nat) (d : Datum), d.Within R →
      (store1.freezeWithin n path d).Within R ∧ store1.freezeWithin n path d = store2.freezeWithin n path d := by
  induction n with
  | zero => exact fun _ _ h => ⟨h, rfl⟩
  | succ n ih =>
    intro path d h
    refine Datum.replaceCells_congr (fun id hId => ?_) d h
    by_cases hPath : path.contains id = true
    · simp only [hPath, if_true]
      exact ⟨Datum.within_cell.mpr hId, trivial⟩
    · simp only [hPath, if_false, Bool.false_eq_true, ← hAgree id hId]
      exact ih (id :: path) _ (hHolds id hId)

/-- The cells of a store that are not on the path. -/
def off (store : Store) (path : List Nat) : Nat := (List.range store.size).countP fun id => !path.contains id

theorem off_cons_lt {path : List Nat} {id : Nat} (hId : id < store.size) (hPath : path.contains id = false) :
    store.off (id :: path) < store.off path := by
  have hLess : (fun i => !(id :: path).contains i) = fun i => !(i == id) && !path.contains i := by
    funext i
    rw [contains_cons, Bool.not_or]
  have hMember : id ∈ (List.range store.size).filter fun i => !path.contains i :=
    mem_filter.mpr ⟨mem_range.mpr hId, by rw [hPath]; rfl⟩
  rw [off, off, countP_eq_length_filter, countP_eq_length_filter, hLess, ← filter_filter]
  exact length_filter_lt_length_iff_exists.mpr ⟨id, hMember, by simp⟩

/-- Freezing needs no more fuel than there are cells off the path. -/
theorem freezeWithin_of_off_lt (n : Nat) : ∀ (path : List Nat) (d : Datum) (m : Nat), store.off path < n → n ≤ m →
    store.freezeWithin n path d = store.freezeWithin m path d := by
  induction n with
  | zero => exact fun _ _ _ hOff => absurd hOff (Nat.not_lt_zero _)
  | succ n ih =>
    intro path d m hOff hm
    obtain ⟨m, rfl⟩ := Nat.exists_eq_succ_of_ne_zero (Nat.ne_of_gt (Nat.lt_of_lt_of_le (Nat.succ_pos n) hm))
    have hAll : d.Within fun _ => True := fun _ _ => trivial
    refine (Datum.replaceCells_congr (fun id _ => ⟨fun _ _ => trivial, ?_⟩) d hAll).2
    by_cases hPath : path.contains id = true
    · simp only [hPath, if_true]
    · simp only [hPath, if_false, Bool.false_eq_true]
      by_cases hId : id < store.size
      · have hLess := off_cons_lt hId (Bool.eq_false_iff.mpr hPath)
        exact ih (id :: path) _ m (by omega) (by omega)
      · -- a cell that is not there holds nothing
        have hNone : store.getD id .none = .none := by simp [Array.getD, hId]
        rw [hNone]
        cases n <;> cases m <;> rfl

/-- A value that leads only to cells in which two stores hold the same is frozen to the same value in both. -/
theorem freeze_congr (hHolds : store1.Holds R) (hAgree : AgreeOn R store1 store2) (h : d.Within R) :
    (store1.freeze d).Within R ∧ store1.freeze d = store2.freeze d := by
  have hOff : ∀ store : Store, store.off [] < store.size + 1 := by
    intro store
    have hCount := countP_le_length (p := fun id => !([] : List Nat).contains id) (l := List.range store.size)
    rw [length_range] at hCount
    exact Nat.lt_succ_of_le hCount
  have hEnough := Nat.le_max_left (store1.size + 1) (store2.size + 1)
  have hEnough' := Nat.le_max_right (store1.size + 1) (store2.size + 1)
  obtain ⟨hWithin, hSame⟩ := freezeWithin_congr hHolds hAgree (max (store1.size + 1) (store2.size + 1)) [] d h
  rw [freeze, freeze, freezeWithin_of_off_lt _ [] d _ (hOff store1) hEnough,
    freezeWithin_of_off_lt _ [] d _ (hOff store2) hEnough']
  exact ⟨hWithin, hSame⟩

end Store

theorem Script.field_within {R : Address → Prop} {r v : Datum} {key : String} (h : r.Within R)
    (hField : Script.field r key = .ok v) : v.Within R := by
  unfold Script.field at hField
  split at hField
  · split at hField <;> cases hField
    exact Datum.lookup?_within h ‹_›
  · cases hField

end Scriptling
