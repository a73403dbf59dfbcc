import Scriptling.Proofs.Script.Address
import Scriptling.Proofs.Script.Payload
import Scriptling.Proofs.TwoRuns

/-!
# What native functions hand on

Native functions are watched in two worlds at once. A `Contract` says how the worlds are related and which values may
be handed to a function; it is lawful if the few things that functions do to the world keep to it. Then every function
does the same in both worlds, leaves them related, and gives what the contract allows (`Contract.Lawful.act`).

With the same world on both sides, the contract may be that values are well tagged. Native functions hand such values
on, from their arguments to their results and to the lists in the store, with four exceptions (`Native.act_tags`):
`min` and `max` label whatever they choose as a number, and `pow` and `sqrt` may give complex numbers.
-/

namespace Scriptling.Script

open List Act Native

variable {xs : List Datum} {k : Native} {t : ValueTag}

/-! ## Contracts -/

/-- How two worlds are related, and which values are handed on between functions and the world. What is known of a
value may depend on the number of cells in the store. -/
structure Contract where
  Near : World → World → Prop
  /-- Values that may be handed to a function, and stand in lists. -/
  Known : Nat → Datum → Prop
  /-- What a function may give. -/
  Outcome : Native → Nat → Datum → Prop

namespace Contract

variable (C : Contract) {α β : Type}

/-- The worlds are related, and there are so many cells at least. -/
def Since (cells : Nat) (w1 w2 : World) : Prop := C.Near w1 w2 ∧ cells ≤ w1.store.size

/-- An act that ends the same in both worlds, with a result that does not depend on the number of cells. -/
abbrev Reads (cells : Nat) (Q : α → Prop) (r : Act α) : Prop :=
  Alike (C.Since cells) Q (fun _ : Refusal => True) r r

abbrev Runs (cells : Nat) (r : Act α) : Prop := C.Reads cells (fun _ => True) r

/-- An act that ends the same in both worlds, and its result is as `Q` says of the number of cells by then. -/
def Handles (cells : Nat) (Q : Nat → α → Prop) (r : Act α) : Prop :=
  ∀ w1 w2, C.Since cells w1 w2 → (r.run w1).1 = (r.run w2).1 ∧ C.Since cells (r.run w1).2 (r.run w2).2 ∧
    Meets (Q (r.run w1).2.store.size) (fun _ => True) (r.run w1).1

variable {C} {cells : Nat} {P : α → Prop} {Q : Nat → α → Prop} {R : Nat → β → Prop}

namespace Handles

theorem pure {a : α} (h : ∀ more, cells ≤ more → Q more a) : C.Handles cells Q (pure a) :=
  fun w1 _ hw => ⟨rfl, hw, h w1.store.size hw.2⟩

theorem throw (refusal : Refusal) : C.Handles cells Q (throw refusal) := fun _ _ hw => ⟨rfl, hw, trivial⟩

/-- What an act reads is handed on. -/
theorem after {r : Act α} {f : α → Act β} (hr : C.Reads cells P r) (hf : ∀ a, P a → C.Handles cells R (f a)) :
    C.Handles cells R (r >>= f) := by
  intro w1 w2 hw
  obtain ⟨hSame, hMeets, hWorlds⟩ := hr w1 w2 hw
  rcases run_bind_cases hSame f f with ⟨a, hOk, h1, h2⟩ | ⟨e, -, h1, h2⟩
  · rw [hOk] at hMeets
    rw [h1, h2]
    exact hf a hMeets _ _ hWorlds
  · rw [h1, h2]
    exact ⟨rfl, hWorlds, trivial⟩

/-- What is done with the world may rely on the number of its cells. -/
theorem get_bind {f : World → Act β}
    (h : ∀ w1 w2, C.Since cells w1 w2 → f w1 = f w2 ∧ C.Handles w1.store.size R (f w1)) :
    C.Handles cells R (get >>= f) := by
  intro w1 w2 hw
  obtain ⟨hEq, hf⟩ := h w1 w2 hw
  obtain ⟨hSame, hSince, hMeets⟩ := hf w1 w2 ⟨hw.1, Nat.le_refl _⟩
  rw [run_get_bind, run_get_bind, ← hEq]
  exact ⟨hSame, ⟨hSince.1, Nat.le_trans hw.2 hSince.2⟩, hMeets⟩

theorem mono {Q' : Nat → α → Prop} {r : Act α} (hr : C.Handles cells Q r) (h : ∀ more a, Q more a → Q' more a) :
    C.Handles cells Q' r := by
  intro w1 w2 hw
  obtain ⟨hSame, hWorlds, hMeets⟩ := hr w1 w2 hw
  refine ⟨hSame, hWorlds, ?_⟩
  cases hOut : (r.run w1).1 with
  | ok a =>
    rw [hOut] at hMeets
    exact h _ a hMeets
  | error e => trivial

theorem map {r : Act α} {f : α → β} (hr : C.Handles cells (fun more a => R more (f a)) r) :
    C.Handles cells R (do return f (← r)) := by
  intro w1 w2 hw
  obtain ⟨hSame, hWorlds, hMeets⟩ := hr w1 w2 hw
  rcases run_bind_cases hSame (fun a => Pure.pure (f a)) (fun a => Pure.pure (f a)) with
    ⟨a, hOk, h1, h2⟩ | ⟨e, -, h1, h2⟩
  · rw [hOk] at hMeets
    rw [h1, h2]
    exact ⟨rfl, hWorlds, hMeets⟩
  · rw [h1, h2]
    exact ⟨rfl, hWorlds, trivial⟩

end Handles

/-- What the things that functions do to the world, and the payloads that they come across, have to do with the
contract. -/
structure Lawful [Size.Room] (C : Contract) : Prop where
  mono {m n v} : C.Known m v → m ≤ n → C.Known n v
  real {n p} : isReal p = true → C.Known n (number p)
  string {n s} : C.Known n (string s)
  boolean {n b} : C.Known n (boolean b)
  null {n} : C.Known n .null
  outcome {k n v} : C.Known n v → C.Outcome k n v
  choice {k n v p} : k = .min ∨ k = .max → C.Known n v → payloadOf v = .ok p → C.Outcome k n (number p)
  power {k n p} : k = .pow ∨ k = .sqrt → p.IsNumber → C.Outcome k n (number p)
  freeze {w1 w2 v p} : C.Near w1 w2 → C.Known w1.store.size v → payloadOf v = .ok p →
    w1.store.freeze p = w2.store.freeze p
  contents {w1 w2 v p} : C.Near w1 w2 → C.Known w1.store.size v → payloadOf v = .ok p →
    w1.store.contents p = w2.store.contents p
  items {w1 w2 p xs} : C.Near w1 w2 → C.Known w1.store.size (.tagged .list p) →
    (w1.store.contents p).items = .ok xs → ∀ x ∈ xs, C.Known w1.store.size x
  letters {w1 w2 p xs} : C.Near w1 w2 → C.Known w1.store.size (.tagged .string p) →
    (w1.store.contents p).items = .ok xs → ∀ x ∈ xs, C.Known w1.store.size (.tagged .string x)
  part {n t p} (start stop : Int) : t = .list ∨ t = .string → C.Known n (.tagged t p) →
    C.Handles n (fun more d => C.Known more (.tagged t d)) (cut p start stop)
  newList {n xs} : (∀ x ∈ xs, C.Known n x) → C.Handles n C.Known (newList xs)
  replaced {w1 w2 xs} (id : Nat) : C.Near w1 w2 → (∀ x ∈ xs, C.Known w1.store.size x) →
    C.Near { w1 with store := w1.store.setIfInBounds id (.list xs) }
      { w2 with store := w2.store.setIfInBounds id (.list xs) }
  print {w1 w2} (s : String) : C.Near w1 w2 →
    C.Near { w1 with console := w1.console.print s } { w2 with console := w2.console.print s }
  readLine {w1 w2} : C.Near w1 w2 → w1.console.readLine.1 = w2.console.readLine.1 ∧
    C.Near { w1 with console := w1.console.readLine.2 } { w2 with console := w2.console.readLine.2 }
  files {w1 w2} : C.Near w1 w2 → w1.files = w2.files ∧ ∀ files, C.Near { w1 with files } { w2 with files }
  dice {w1 w2} : C.Near w1 w2 → w1.dice = w2.dice ∧ ∀ dice, C.Near { w1 with dice } { w2 with dice }

/-! ## Parts of native functions -/

theorem lift_reads {r : Except Fault α} (h : ∀ a, r = .ok a → P a) : C.Reads cells P (lift r) := by
  cases r with
  | ok a => exact .pure (h a rfl)
  | error f => exact .throw trivial

theorem lift_bind {r : Except Fault α} {f : α → Act β} (h : ∀ a, r = .ok a → C.Handles cells R (f a)) :
    C.Handles cells R (lift r >>= f) := .after (lift_reads fun _ ha => ha) h

theorem eq_tag_of_isTag {u : Datum} (h : isTag t u = true) : u = .tag t := by
  cases u with
  | tag u => rw [eq_of_beq h]
  | _ => cases h

theorem hasTag_reads (t : ValueTag) (v : Datum) :
    C.Reads cells (fun b => b = true → ∃ p, v = .tagged t p) (hasTag t v) := by
  cases v with
  | value u p => exact .pure fun hTag => ⟨p, congrArg (Datum.value · p) (eq_tag_of_isTag hTag)⟩
  | _ => exact .throw trivial

/-- What follows a check of a tag may rely on the tag. -/
theorem unless_hasTag {v : Datum} {refusal : Refusal} {rest : Act β}
    (h : ∀ p, v = .tagged t p → C.Handles cells R rest) :
    C.Handles cells R
      (do unless ← hasTag t v do throw refusal
          rest) := by
  refine .after (hasTag_reads t v) fun b hb => ?_
  cases b with
  | true =>
    obtain ⟨p, hp⟩ := hb rfl
    exact h p hp
  | false => exact .throw _

theorem callEach_runs (xs : List Datum) : C.Runs cells (callEach xs) := by
  cases xs with
  | nil => exact .pure trivial
  | cons x xs => exact .throw trivial

/-- Where a function is asked for, the first argument is a list. -/
theorem checkCallback_reads (n : Native) (x f : Datum) :
    C.Reads cells (fun _ => ∃ p, x = .tagged .list p) (checkCallback n x f) := by
  refine (hasTag_reads .list x).bind fun b hb => ?_
  cases b with
  | true =>
    refine (hasTag_reads .function f).bind fun b _ => ?_
    cases b with
    | true => exact .pure (hb rfl)
    | false => exact .throw trivial
  | false => exact .throw trivial

namespace Lawful

variable [Size.Room] (hC : C.Lawful) {v x y z p : Datum}

include hC

/-- A value that may be handed to a function may be what it gives. -/
theorem give (h : C.Known cells v) : C.Handles cells (C.Outcome k) (Pure.pure v) :=
  .pure fun _ hMore => hC.outcome (hC.mono h hMore)

theorem makeList (h : ∀ x ∈ xs, C.Known cells x) :
    C.Handles cells (C.Outcome k) (Act.newList xs) := (hC.newList h).mono fun _ _ => hC.outcome

theorem makeStrings (parts : List (List Char)) :
    C.Handles cells (C.Outcome k) (Act.newList (parts.map (Act.string ∘ String.ofList))) := by
  refine hC.makeList ?_
  rw [forall_mem_map]
  exact fun part _ => hC.string

section Payload

variable (hv : C.Known cells v)

include hv

theorem frozen (hp : payloadOf v = .ok p) : C.Runs cells (Act.frozen p) := by
  refine .get_bind fun w1 w2 hw => ?_
  rw [← hC.freeze hw.1 (hC.mono hv hw.2) hp]
  exact .pure trivial

theorem frozenPayload : C.Runs cells (Act.frozenPayload v) :=
  (lift_reads fun _ hp => hp).bind fun _ hp => hC.frozen hv hp

theorem textOf (hp : payloadOf v = .ok p) : C.Runs cells (Act.textOf p) :=
  (hC.frozen hv hp).bind fun _ _ => lift_reads fun _ _ => trivial

theorem payloadText : C.Runs cells (do Act.textOf (← payload v)) :=
  (lift_reads fun _ hp => hp).bind fun _ hp => hC.textOf hv hp

theorem whole : C.Runs cells (Act.whole v) :=
  (hC.frozenPayload hv).bind fun _ _ => lift_reads fun _ _ => trivial

theorem textFor (property : String) : C.Runs cells (Act.textFor property v) := by
  refine (hC.frozenPayload hv).bind fun d _ => ?_
  split
  · exact .pure trivial
  · exact .throw trivial

theorem path : C.Runs cells (Act.path v) := by
  refine (hC.frozenPayload hv).bind fun d _ => ?_
  split
  · exact .pure trivial
  · exact .throw trivial

end Payload

theorem roll : C.Runs cells Act.roll := by
  refine .get_bind fun w1 w2 hw => ?_
  rw [← (hC.dice hw.1).1]
  split
  · exact .pure trivial
  · refine (Alike.modify (Q := fun _ => True) trivial fun v1 v2 hv => ?_).bind fun _ _ => .pure trivial
    exact ⟨(hC.dice hv.1).2 _, hv.2⟩

theorem files_bind {f : α → Act β} (g : FileTree → Except Fault α) (h : ∀ a, C.Handles cells R (f a)) :
    C.Handles cells R (do f (← lift (g (← get).files))) := by
  have hRead : C.Runs cells (do lift (g (← get).files)) := by
    refine .get_bind fun w1 w2 hw => ?_
    rw [← (hC.files hw.1).1]
    exact lift_reads fun _ _ => trivial
  rw [← bind_assoc get (fun w => lift (g w.files)) f]
  exact .after hRead fun a _ => h a

theorem setFiles (files : FileTree) : C.Runs cells (modify fun w => { w with files }) :=
  .modify trivial fun _ _ hw => ⟨(hC.files hw.1).2 files, hw.2⟩

theorem setList (id : Nat) (h : ∀ x ∈ xs, C.Known cells x) :
    C.Runs cells (modify fun w => { w with store := w.store.setIfInBounds id (.list xs) }) := by
  refine .modify trivial fun w1 w2 hw => ⟨hC.replaced id hw.1 fun x hx => hC.mono (h x hx) hw.2, ?_⟩
  rw [Array.size_setIfInBounds]
  exact hw.2

/-- What is done with the contents of a list may rely on its items. -/
theorem contents_bind {f : Datum → Act β} (hx : C.Known cells (.tagged .list p))
    (h : ∀ d more, cells ≤ more → (∀ xs, d.items = .ok xs → ∀ x ∈ xs, C.Known more x) →
      C.Handles more R (f d)) : C.Handles cells R (Act.contents p >>= f) := by
  have hGet : (Act.contents p >>= f) = get >>= fun w => f (w.store.contents p) := rfl
  rw [hGet]
  refine .get_bind fun w1 w2 hw => ?_
  have hThere := hC.mono hx hw.2
  exact ⟨congrArg f (hC.contents hw.1 hThere rfl), h _ _ hw.2 fun xs hxs => hC.items hw.1 hThere hxs⟩

theorem items_bind {f : List Datum → Act β} (hx : C.Known cells (.tagged .list p))
    (h : ∀ xs more, cells ≤ more → (∀ x ∈ xs, C.Known more x) → C.Handles more R (f xs)) :
    C.Handles cells R (Native.itemsOf p >>= f) := by
  unfold Native.itemsOf
  rw [bind_assoc]
  exact hC.contents_bind hx fun d more hMore hItems => lift_bind fun xs hxs => h xs more hMore (hItems xs hxs)

/-! ## Native functions -/

theorem choose (hk : k = .min ∨ k = .max) (relation : Datum.Relation) (hx : C.Known cells x)
    (hy : C.Known cells y) : C.Handles cells (C.Outcome k)
      (do
        let p ← payload x
        let q ← payload y
        return number (if ← lift (Datum.relate relation (← Act.frozen q) (← Act.frozen p)) then q else p)) := by
  refine lift_bind fun p hp => lift_bind fun q hq => ?_
  refine .after (hC.frozen hy hq) fun _ _ => .after (hC.frozen hx hp) fun _ _ => lift_bind fun b _ => ?_
  refine .pure fun _ hMore => ?_
  split
  · exact hC.choice hk (hC.mono hy hMore) hq
  · exact hC.choice hk (hC.mono hx hMore) hp

theorem push (hx : C.Known cells x) (hy : C.Known cells y) :
    C.Handles cells (C.Outcome .push) (Native.push.act [x, y]) := by
  refine unless_hasTag fun p hp => lift_bind fun p' hp' => ?_
  subst hp
  cases hp'
  refine hC.contents_bind hx fun d more hMore hItems => ?_
  split
  next xs =>
    have hPushed : ∀ v ∈ xs ++ [y], C.Known more v := by
      rw [forall_mem_append, forall_mem_singleton]
      exact ⟨hItems xs rfl, hC.mono hy hMore⟩
    exact .after (hC.setList _ hPushed) fun _ _ => hC.give (hC.mono hx hMore)
  · exact .throw _

theorem pop (hx : C.Known cells x) : C.Handles cells (C.Outcome .pop) (Native.pop.act [x]) := by
  refine unless_hasTag fun p hp => lift_bind fun p' hp' => ?_
  subst hp
  cases hp'
  refine hC.contents_bind hx fun d more hMore hItems => ?_
  cases hSome : d.truthy with
  | false => exact .throw _
  | true =>
    simp only [if_true]
    split
    next xs =>
      have hLeft : ∀ v ∈ xs.dropLast, C.Known more v := fun v hv => hItems xs rfl v (dropLast_subset _ hv)
      refine .after (hC.setList _ hLeft) fun _ _ => hC.give (hItems xs rfl _ ?_)
      cases xs with
      | nil => cases hSome
      | cons y ys =>
        rw [getLastD_eq_getLast?, getLast?_eq_some_getLast (cons_ne_nil y ys)]
        exact getLast_mem _
    · exact .throw _

theorem slice (hx : C.Known cells x) (hy : C.Known cells y) (hz : C.Known cells z) :
    C.Handles cells (C.Outcome .slice) (Native.slice.act [x, y, z]) := by
  refine lift_bind fun t ht => ?_
  extract_lets go
  have hGo : ∀ u : ValueTag, u = .list ∨ u = .string → t = .tag u → ∀ e, C.Handles cells (C.Outcome .slice) (go e) := by
    intro u hu hTag e
    refine .after (hC.whole hy) fun start _ => .after (hC.whole hz) fun stop _ => lift_bind fun p hp => ?_
    obtain rfl : x = .tagged u p := by
      cases x <;> cases ht
      cases hp
      rw [hTag]
      rfl
    refine .map ((hC.part start stop hu hx).mono fun more d hd => hC.outcome ?_)
    rw [hTag]
    rcases hu with rfl | rfl <;> exact hd
  split
  next hTags =>
    rcases Bool.or_eq_true_iff.mp hTags with hTag | hTag
    · exact hGo .list (.inl rfl) (eq_tag_of_isTag hTag) ()
    · exact hGo .string (.inr rfl) (eq_tag_of_isTag hTag) ()
  · exact .throw _

/-- What `map` and `filter` have in common: only an empty list is gone through. -/
theorem emptied (n : Native) (hx : C.Known cells x) (f : Datum) : C.Handles cells (C.Outcome k)
      (do checkCallback n x f
          callEach (← Native.itemsOf (← payload x))
          Act.newList []) := by
  refine .after (checkCallback_reads _ x f) fun _ hList => lift_bind fun p hp => ?_
  obtain ⟨p, rfl⟩ := hList
  cases hp
  refine hC.items_bind hx fun xs more _ _ => .after (callEach_runs xs) fun _ _ => ?_
  exact hC.makeList (by simp)

theorem reduce (hx : C.Known cells x) (f : Datum) : C.Handles cells (C.Outcome .reduce) (Native.reduce.act [x, f]) := by
  refine .after (checkCallback_reads _ x f) fun _ hList => lift_bind fun p hp => ?_
  obtain ⟨p, rfl⟩ := hList
  cases hp
  refine hC.contents_bind hx fun d more hMore _ => ?_
  cases hSome : d.truthy with
  | false => exact .throw _
  | true =>
    unfold firstOf
    rw [bind_assoc]
    refine hC.contents_bind (hC.mono hx hMore) fun d later _ hItems => ?_
    have hFirst : ∀ first rest, d.items = .ok (first :: rest) → C.Handles later (C.Outcome .reduce)
        (do callEach rest
            return first) :=
      fun first rest hd => .after (callEach_runs rest) fun _ _ => hC.give (hItems _ hd first mem_cons_self)
    split
    · exact hFirst _ _ rfl
    · exact hFirst _ _ rfl
    next s =>
      split
      next c cs hChars => exact hFirst (.ofChar c) (cs.map Datum.ofChar) (by simp [Datum.items, hChars])
      · exact .throw _
    · exact .throw _

theorem listOf (hx : C.Known cells x) : C.Handles cells (C.Outcome .list) (Native.list.act [x]) := by
  refine lift_bind fun t ht => ?_
  split
  · exact hC.give hx
  · refine lift_bind fun p hp => ?_
    obtain rfl : x = .tagged .string p := by
      cases x <;> cases ht
      cases hp
      rfl
    have hGet : (do Act.newList ((← Native.itemsOf p).map (Datum.tagged .string))) = (get >>= fun w => do
        Act.newList ((← lift (w.store.contents p).items).map (Datum.tagged .string)) : Act Datum) := rfl
    rw [hGet]
    refine .get_bind fun w1 w2 hw => ?_
    have hThere := hC.mono hx hw.2
    refine ⟨by rw [hC.contents hw.1 hThere rfl], lift_bind fun xs hxs => hC.makeList ?_⟩
    rw [forall_mem_map]
    exact hC.letters hw.1 hThere hxs
  · exact hC.makeList (by simpa using hx)

theorem join (hx : C.Known cells x) (hy : C.Known cells y) :
    C.Handles cells (C.Outcome .join) (Native.join.act [x, y]) := by
  refine unless_hasTag fun p hp => .after (hC.textFor hy _) fun sep _ => lift_bind fun p' hp' => ?_
  subst hp
  cases hp'
  refine hC.items_bind hx fun items more _ hItems => ?_
  exact .after (.mapM fun item hItem => hC.payloadText (hItems item hItem)) fun texts _ => hC.give hC.string

theorem writeFile (hx : C.Known cells x) (hy : C.Known cells y) :
    C.Handles cells (C.Outcome .writeFile) (Native.writeFile.act [x, y]) := by
  refine .after (hC.path hx) fun shown _ => hC.files_bind (·.write shown "") fun files => ?_
  refine .after (hC.setFiles files) fun _ _ => .after (hC.frozenPayload hy) fun d _ => ?_
  split
  next text =>
    refine hC.files_bind (·.write shown text) fun files => ?_
    exact .after (hC.setFiles files) fun _ _ => hC.give hC.null
  · exact .throw _

theorem input : C.Handles cells (C.Outcome .input) (Native.input.act []) := by
  have hRead : C.Runs cells Act.readLine := by
    intro w1 w2 hw
    obtain ⟨hLine, hNear⟩ := hC.readLine hw.1
    have hRun : ∀ w : World, Act.readLine.run w =
        (lift w.console.readLine.1).run { w with console := w.console.readLine.2 } := fun _ => rfl
    rw [hRun, hRun, hLine]
    exact lift_reads (fun _ _ => trivial) _ _ ⟨hNear, hw.2⟩
  exact .after hRead fun _ _ => hC.give hC.string

end Lawful

end Contract

theorem absolute_isReal {d r : Datum} (h : d.absolute = .ok r) : isReal r = true := by
  unfold Datum.absolute at h
  split at h
  · cases h; rfl
  · cases h; rfl
  · dsimp only at h
    split at h
    · cases h
    · cases h; rfl
  · cases h

theorem roundWhole_isReal {d r : Datum} (h : d.roundWhole = .ok r) : isReal r = true := by
  unfold Datum.roundWhole at h
  split at h
  · cases h; rfl
  · cases h; rfl
  · next x =>
    rcases hWhole : Datum.wholeBy Number.nearest? x with f | n <;> rw [hWhole] at h <;> cases h
    rfl
  · cases h

/-- **Native functions keep to every lawful contract**: they do the same in related worlds, which stay related, and
give what is allowed. -/
theorem Contract.Lawful.act [Size.Room] {C : Contract} (hC : C.Lawful) {cells : Nat} (n : Native) {args : List Datum}
    (hArgs : ∀ v ∈ args, C.Known cells v) : C.Handles cells (C.Outcome n) (n.act args) := by
  have hInt : ∀ {cells : Nat} {n : Native} (i : Int), C.Handles cells (C.Outcome n) (pure (number (.int i))) :=
    fun _ => hC.give (hC.real rfl)
  unfold Native.act
  split <;> try simp only [mem_cons, not_mem_nil, or_false, forall_eq_or_imp, forall_eq] at hArgs
  · -- abs
    refine .after (hC.frozenPayload hArgs) fun d _ => lift_bind fun r hr => ?_
    exact hC.give (hC.real (absolute_isReal hr))
  · exact hC.choose (.inl rfl) .less hArgs.1 hArgs.2
  · exact hC.choose (.inr rfl) .greater hArgs.1 hArgs.2
  · -- pow
    refine .after (hC.frozenPayload hArgs.1) fun p _ => .after (hC.frozenPayload hArgs.2) fun q _ => ?_
    exact lift_bind fun r hr => .pure fun _ _ => hC.power (.inl rfl) (Datum.pow_isNumber hr)
  · -- sqrt
    refine .after (hC.frozenPayload hArgs) fun p _ => lift_bind fun r hr => ?_
    exact .pure fun _ _ => hC.power (.inr rfl) (Datum.pow_isNumber hr)
  · -- floor
    exact .after (hC.frozenPayload hArgs) fun p _ => lift_bind fun q _ => lift_bind fun k _ => hInt k
  · -- ceil
    refine .after (hC.frozenPayload hArgs) fun p _ => lift_bind fun m _ => lift_bind fun q _ => ?_
    exact lift_bind fun r _ => lift_bind fun k _ => hInt k
  · -- round
    refine .after (hC.frozenPayload hArgs) fun d _ => lift_bind fun r hr => ?_
    exact hC.give (hC.real (roundWhole_isReal hr))
  · -- rand
    exact .after hC.roll fun x _ => hC.give (hC.real rfl)
  · -- randint
    refine .after (hC.whole hArgs.1) fun a _ => .after (hC.whole hArgs.2) fun b _ => ?_
    split
    · exact .throw _
    · exact .after hC.roll fun x _ => hInt _
  · -- len
    refine .after (hasTag_reads _ _) fun _ _ => .after (hasTag_reads _ _) fun _ _ => ?_
    split
    · exact .after (hC.frozenPayload hArgs) fun d _ => lift_bind fun k _ => hInt _
    · exact .throw _
  · exact .after (hC.textFor hArgs _) fun s _ => hC.give hC.string
  · exact .after (hC.textFor hArgs _) fun s _ => hC.give hC.string
  · exact .after (hC.textFor hArgs _) fun s _ => hC.give hC.string
  · -- split
    refine .after (hC.textFor hArgs.1 _) fun s _ => .after (hC.frozenPayload hArgs.2) fun d _ => ?_
    split
    · exact hC.makeStrings _
    · exact .throw _
    · exact hC.makeStrings _
    · exact .throw _
  · exact hC.join hArgs.1 hArgs.2
  · -- contains
    refine .after (hC.frozenPayload hArgs.2) fun q _ => .after (hC.frozenPayload hArgs.1) fun p _ => ?_
    exact lift_bind fun b _ => hC.give hC.boolean
  · -- replace
    refine .after (hC.textFor hArgs.1 _) fun s _ => .after (hC.frozenPayload hArgs.2.1) fun p _ => ?_
    refine .after (hC.frozenPayload hArgs.2.2) fun q _ => ?_
    split
    · exact hC.give hC.string
    · exact .throw _
    · exact .throw _
  · exact hC.push hArgs.1 hArgs.2
  · exact hC.pop hArgs
  · exact hC.slice hArgs.1 hArgs.2.1 hArgs.2.2
  · exact hC.emptied .map hArgs.1 _
  · exact hC.emptied .filter hArgs.1 _
  · exact hC.reduce hArgs.1 _
  · -- str
    exact lift_bind fun p hp => .after (hC.textOf hArgs hp) fun s _ => hC.give hC.string
  · -- num
    refine .after (hC.frozenPayload hArgs) fun d _ => ?_
    split
    · exact hC.give (hC.real rfl)
    · split
      · exact lift_bind fun p hp => .after (hC.textOf hArgs hp) fun s _ => .throw _
      · exact .throw _
  · -- bool
    refine lift_bind fun t _ => ?_
    split
    · exact hC.give hArgs
    · exact .after (hC.frozenPayload hArgs) fun d _ => hC.give hC.boolean
    · exact .after (hC.frozenPayload hArgs) fun d _ => hC.give hC.boolean
    · exact .after (hC.frozenPayload hArgs) fun d _ => hC.give hC.boolean
    · exact hC.give hC.boolean
  · exact hC.listOf hArgs
  · -- print
    refine .after (.mapM fun v hv => hC.payloadText (hArgs v hv)) fun texts _ => ?_
    refine .after (.modify (Q := fun _ => True) trivial fun _ _ hw => ?_) fun _ _ => hC.give hC.null
    exact ⟨hC.print _ hw.1, hw.2⟩
  · exact hC.input
  · -- read_file
    refine .after (hC.path hArgs) fun shown _ => ?_
    exact hC.files_bind (·.read shown) fun s => hC.give hC.string
  · exact hC.writeFile hArgs.1 hArgs.2
  · exact .throw _

/-! ## Tags -/

namespace Native

variable {r : Datum} {loose : Prop} {store : Store}

/-- Whether a payload is a complex number. -/
def isComplex : Datum → Bool
  | .complex _ _ => true
  | _ => false

/-- Whether a function may label the payload as a number by mistake: `min` and `max` whatever is no number, `pow` and
`sqrt` a complex number. -/
def mislabels (n : Native) (p : Datum) : Bool :=
  match n with
  | min | max => !isReal p
  | pow | sqrt => isComplex p
  | _ => false

/-- A well-tagged value, or one that the function mislabels. -/
def Labels (loose : Prop) (n : Native) (cells : Nat) (v : Datum) : Prop :=
  WellTagged loose cells v ∨ ∃ p, v = .tagged .number p ∧ n.mislabels p = true

/-- In one and the same world, values are well tagged. -/
def tagging (loose : Prop) : Contract where
  Near w1 w2 := w1 = w2 ∧ HoldsLists loose w1.store
  Known := WellTagged loose
  Outcome := Labels loose

/-- A new list is well tagged. -/
theorem alloc_handles {cells : Nat} (h : ∀ x ∈ xs, WellTagged loose cells x) :
    (tagging loose).Handles cells (fun more d => WellTagged loose more (.tagged .list d))
      (do let (d, store) := (← get).store.alloc (.list xs)
          modify fun w => { w with store }
          return d) := by
  rintro w _ ⟨⟨rfl, hw⟩, hCells⟩
  have hSize : w.store.size < (w.store.push (.list xs)).size := by simp
  have hNew := hw.push fun x hx => (h x hx).mono id hCells
  exact ⟨rfl, ⟨⟨rfl, hNew⟩, Nat.le_trans hCells (Nat.le_of_lt hSize)⟩, .list hSize⟩

/-- A part of a list is a new list, and a part of a text is a text. -/
theorem cut_handles {cells : Nat} {p : Datum} (ht : t = .list ∨ t = .string)
    (hp : WellTagged loose cells (.tagged t p)) (start stop : Int) :
    (tagging loose).Handles cells (fun more d => WellTagged loose more (.tagged t d)) (cut p start stop) := by
  rcases ht with rfl | rfl
  · obtain ⟨id, rfl, hId⟩ := hp.exists_cell
    refine .get_bind fun w1 w2 hw => ?_
    obtain ⟨⟨rfl, hLists⟩, hCells⟩ := hw
    obtain ⟨xs, hList, hItems⟩ := hLists.contents (Nat.lt_of_lt_of_le hId hCells)
    refine ⟨rfl, ?_⟩
    rw [hList]
    exact alloc_handles fun x hx => hItems x (mem_of_mem_drop (mem_of_mem_take hx))
  · obtain ⟨s, rfl⟩ := hp.exists_text
    exact .pure fun _ _ => .string

theorem tagging_lawful [Size.Room] : (tagging loose).Lawful where
  mono h hMore := h.mono id hMore
  real := .of_isReal
  string := .string
  boolean := .boolean
  null := .null
  outcome := .inl
  choice {k _ _ p} hk _ _ := by
    cases hReal : isReal p with
    | true => exact .inl (.of_isReal hReal)
    | false => exact .inr ⟨p, rfl, by rcases hk with rfl | rfl <;> simp [mislabels, hReal]⟩
  power hk hp := by
    cases hp with
    | int | float => exact .inl (.of_isReal rfl)
    | complex => exact .inr ⟨_, rfl, by rcases hk with rfl | rfl <;> rfl⟩
  freeze h _ _ := by rw [h.1]
  contents h _ _ := by rw [h.1]
  items h hp hItems := by
    obtain ⟨id, rfl, hId⟩ := hp.exists_cell
    obtain ⟨xs, hList, hKnown⟩ := h.2.contents hId
    rw [hList] at hItems
    cases hItems
    exact hKnown
  letters _ hp hItems := by
    obtain ⟨s, rfl⟩ := hp.exists_text
    cases hItems
    rw [forall_mem_map]
    exact fun c _ => .string
  part start stop ht hp := cut_handles ht hp start stop
  newList h := (alloc_handles h).map
  replaced id h hItems := ⟨by rw [h.1], h.2.set hItems id⟩
  print _ h := ⟨by rw [h.1], h.2⟩
  readLine h := ⟨by rw [h.1], by rw [h.1], h.2⟩
  files h := ⟨by rw [h.1], fun _ => ⟨by rw [h.1], h.2⟩⟩
  dice h := ⟨by rw [h.1], fun _ => ⟨by rw [h.1], h.2⟩⟩

/-- **What native functions give.** Well-tagged arguments and lists lead to well-tagged results and lists, but for
what the function mislabels. -/
theorem act_tags [Size.Room] (n : Native) {args : List Datum} (hArgs : ∀ v ∈ args, WellTagged loose store.size v) :
    KeepsTags World.store loose store (n.act args) (Labels loose n) := by
  intro w hw
  have hRun := (@tagging_lawful loose _).act n hArgs w w ⟨⟨rfl, hw.lists⟩, hw.grows⟩
  revert hRun
  rcases (n.act args).run w with ⟨e | v, w'⟩
  · exact fun ⟨_, ⟨⟨_, hLists⟩, hGrows⟩, _⟩ => ⟨hLists, hGrows⟩
  · exact fun ⟨_, ⟨⟨_, hLists⟩, hGrows⟩, hLabels⟩ => ⟨⟨hLists, hGrows⟩, hLabels⟩

end Native

end Scriptling.Script
