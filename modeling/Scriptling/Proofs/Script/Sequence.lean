import Mathlib.Tactic.ByContra
import Scriptling.Proofs.Script.Payload

/-!
# Native functions on texts and lists

What the native functions for splitting, joining, replacing and cutting do, as equations on their runs, and the laws
that follow: to split a text and join the parts with another text is to replace (`join_split_eq_replace`), and a text
or list that is cut in two at any place is the two parts together (`slice_slice_eq`).
-/

namespace Scriptling.Text

open List

variable {sep old new cs part : List Char} {c : Char} {p : Datum}

/-- The first part of a split text is what the text begins with. -/
theorem exists_splitOn (sep cs : List Char) : ∃ part parts, splitOn sep cs = part :: parts ∧ part <+: cs := by
  cases cs with
  | nil => exact ⟨[], [], by rw [splitOn], prefix_rfl⟩
  | cons c cs =>
    rw [splitOn]
    split
    · exact ⟨[], _, rfl, nil_prefix⟩
    · obtain ⟨part, parts, hSplit, hPart⟩ := exists_splitOn sep cs
      rw [hSplit]
      exact ⟨c :: part, parts, rfl, cons_prefix_cons.mpr ⟨rfl, hPart⟩⟩

theorem joinWith_splitOn (sep new cs : List Char) : joinWith new (splitOn sep cs) = substitute sep new cs := by
  induction cs using substitute.induct sep with
  | case1 => rw [splitOn, substitute, joinWith]
  | case2 c cs hPrefix ih =>
    obtain ⟨part, parts, hSplit, -⟩ := exists_splitOn sep (cs.drop (sep.length - 1))
    rw [splitOn, substitute, if_pos hPrefix, if_pos hPrefix, ← ih, hSplit]
    rfl
  | case3 c cs hOther ih =>
    obtain ⟨part, parts, hSplit, -⟩ := exists_splitOn sep cs
    rw [splitOn, substitute, if_neg hOther, if_neg hOther, ← ih, hSplit]
    cases parts <;> rfl

/-- What is replaced by itself stays. -/
theorem substitute_self (hOld : old ≠ []) (cs : List Char) : substitute old old cs = cs := by
  induction cs using substitute.induct old with
  | case1 => rw [substitute]
  | case2 c cs hPrefix ih =>
    obtain ⟨later, hText⟩ := isPrefixOf_iff_prefix.mp hPrefix
    obtain ⟨d, ds, rfl⟩ := exists_cons_of_ne_nil hOld
    obtain ⟨rfl, rfl⟩ := List.cons.inj hText
    rw [substitute, if_pos hPrefix, ih]
    simp
  | case3 c cs hOther ih => rw [substitute, if_neg hOther, ih]

/-- No part of a split text has the separator in it. -/
theorem not_occurs_splitOn (hSep : sep ≠ []) (cs : List Char) : ∀ part ∈ splitOn sep cs, occurs sep part = false := by
  have hNil : occurs sep [] = false := by simp [occurs, hSep]
  induction cs using substitute.induct sep with
  | case1 =>
    rw [splitOn]
    exact forall_mem_singleton.mpr hNil
  | case2 c cs hPrefix ih =>
    rw [splitOn, if_pos hPrefix]
    exact forall_mem_cons.mpr ⟨hNil, ih⟩
  | case3 c cs hOther ih =>
    obtain ⟨part, parts, hSplit, hPart⟩ := exists_splitOn sep cs
    rw [splitOn, if_neg hOther, hSplit]
    rw [hSplit] at ih
    obtain ⟨hFirst, hLater⟩ := forall_mem_cons.mp ih
    refine forall_mem_cons.mpr ⟨?_, hLater⟩
    -- what begins the part begins the text
    have hBegins : List.isPrefixOf sep (c :: part) = false := by
      refine Bool.of_not_eq_true fun hPrefix => hOther ?_
      rw [ isPrefixOf_iff_prefix] at hPrefix ⊢
      exact hPrefix.trans (cons_prefix_cons.mpr ⟨rfl, hPart⟩)
    rw [occurs, hBegins, hFirst]
    rfl

end Scriptling.Text

/-! ## Cutting -/

namespace Scriptling.Datum

variable {α : Type}

theorem slice_append (xs : List α) (i : Int) : slice xs 0 i ++ slice xs i xs.length = xs := by
  have hStart : cutPlace xs.length 0 = 0 := by simp [cutPlace]
  have hStop : cutPlace xs.length xs.length = xs.length := by
    rw [cutPlace, if_neg (by omega), Int.toNat_natCast, Nat.min_self]
  have hBack (k : Nat) : (xs.drop k).take (xs.length - k) = xs.drop k := List.take_of_length_le (by simp)
  rw [slice, slice, hStart, hStop, List.drop_zero, Nat.sub_zero, hBack, List.take_append_drop]

theorem length_slice_zero (xs : List α) (i : Int) :
    ((slice xs 0 i).length : Int) = if 0 ≤ i then min i xs.length else max (xs.length + i) 0 := by
  have hStart : cutPlace xs.length 0 = 0 := by simp [cutPlace]
  rw [slice, hStart, List.drop_zero, Nat.sub_zero, List.length_take, cutPlace]
  split <;> split <;> omega

end Scriptling.Datum

namespace Scriptling.Script

open Act Native

variable {m : Machine} {w : World}

/-! ## What the functions do -/

theorem run_native [Size.Room] {n : Native} {args : List Datum} {v : Datum} (hArity : n.arity = some args.length)
    (h : (n.act args).run m.world = (.ok v, w)) : (Run.native n args).run m = (.ok v, { m with world := w }) := by
  unfold Run.native
  rw [hArity]
  dsimp only
  rw [if_neg (by simp), run_get_bind, show n.act args m.world = (.ok v, w) from h]
  rfl

theorem act_replace [Size.Room] (s old new : String) : (replace.act [string s, string old, string new]).run w =
    (.ok (string (String.ofList (Text.replaceAll old.toList new.toList s.toList))), w) := rfl

theorem act_contains [Size.Room] (s part : String) : (contains.act [string s, string part]).run w =
    (.ok (boolean (Text.occurs part.toList s.toList)), w) := rfl

theorem act_split [Size.Room] {sep : String} (hSep : sep ≠ "") (s : String) : (split.act [string s, string sep]).run w =
    (.ok (.tagged .list (.cell w.store.size)), { w with store := w.store.push (.list
      ((Text.splitOn sep.toList s.toList).map (string ∘ String.ofList))) }) := by
  unfold act
  have hText : (textFor "split" (string s)).run w = (.ok s, w) := rfl
  have hPayload : (frozenPayload (string sep)).run w = (.ok (.str sep), w) := rfl
  rw [run_bind_of_ok hText, run_bind_of_ok hPayload]
  split
  next h => cases h
  next h =>
    cases h
    exact absurd rfl hSep
  next h =>
    cases h
    rfl
  next _ hOther => exact absurd rfl (hOther sep)

theorem contents_push {store : Store} {xs : List Datum} (h : store.contents p = .list xs) (d : Datum) :
    Store.contents (store.push d) p = .list xs := by
  cases p with
  | cell id =>
    have hId : id < store.size := by
      by_contra hOut
      simp [Store.contents, Array.getD, hOut] at h
    have hOther : id ≠ store.size := Nat.ne_of_lt hId
    rw [← h]
    simp [Store.contents, Array.getD, hId, Array.getElem_push, Nat.lt_succ_of_lt hId]
  | _ => exact h

theorem contents_pushed (store : Store) (d : Datum) : Store.contents (store.push d) (.cell store.size) = d := by
  simp [Store.contents]

theorem run_mapM_texts (parts : List String) :
    ((parts.map string).mapM fun item => do textOf (← payload item) : Act (List String)).run w = (.ok parts, w) := by
  induction parts with
  | nil => rfl
  | cons part parts ih =>
    rw [List.map_cons, List.mapM_cons]
    have hText : (do textOf (← payload (string part)) : Act String).run w = (.ok part, w) := rfl
    rw [run_bind_of_ok hText, run_bind_of_ok ih]
    rfl

theorem act_join [Size.Room] {parts : List String} (hItems : w.store.contents p = .list (parts.map string))
    (sep : String) : (join.act [.tagged .list p, string sep]).run w =
      (.ok (string (String.ofList (Text.joinWith sep.toList (parts.map String.toList)))), w) := by
  have hCells : (Native.itemsOf p).run w = (.ok (parts.map string), w) := by
    show (Act.lift (w.store.contents p).items).run w = _
    rw [hItems]
    rfl
  have hRest : (Native.itemsOf p >>= fun items => (items.mapM fun item => do textOf (← payload item)) >>= fun texts =>
      pure (string (String.ofList (Text.joinWith sep.toList (texts.map String.toList)))) : Act Datum).run w =
        (.ok (string (String.ofList (Text.joinWith sep.toList (parts.map String.toList)))), w) := by
    rw [run_bind_of_ok hCells, run_bind_of_ok (run_mapM_texts parts)]
    rfl
  exact hRest

theorem cut_list {xs : List Datum} (hList : w.store.contents p = .list xs) (start stop : Int) :
    (cut p start stop).run w =
      (.ok (.cell w.store.size), { w with store := w.store.push (.list (Datum.slice xs start stop)) }) := by
  have hContents : (Act.contents p).run w = (.ok (.list xs), w) := by
    rw [← hList]
    rfl
  unfold cut
  rw [run_bind_of_ok hContents]
  rfl

theorem act_slice [Size.Room] {t : ValueTag} {y z d : Datum} {start stop : Int} {w' : World}
    (ht : t = .list ∨ t = .string) (hStart : (whole y).run w = (.ok start, w)) (hStop : (whole z).run w = (.ok stop, w))
    (hCut : (cut p start stop).run w = (.ok d, w')) :
    (slice.act [.tagged t p, y, z]).run w = (.ok (.tagged t d), w') := by
  have hRest : (whole y >>= fun start => whole z >>= fun stop => cut p start stop >>= fun d =>
      pure (.tagged t d) : Act Datum).run w = (.ok (.tagged t d), w') := by
    rw [run_bind_of_ok hStart, run_bind_of_ok hStop, run_bind_of_ok hCut]
    rfl
  rcases ht with rfl | rfl
  · exact hRest
  · exact hRest

/-- The payload is a number with this integer part. -/
def HasIntegerPart (k : Datum) (i : Int) : Prop := isReal k = true ∧ k.toInt = .ok i

theorem whole_number {k : Datum} {i : Int} (h : HasIntegerPart k i) : (whole (number k)).run w = (.ok i, w) := by
  obtain ⟨hReal, hk⟩ := h
  have hPayload : (frozenPayload (number k)).run w = (.ok k, w) := by
    cases k with
    | int | float => rfl
    | _ => cases hReal
  unfold whole
  rw [run_bind_of_ok hPayload, hk]
  rfl

/-! ## Laws -/

/-- **Splitting, joining and replacing agree.** Texts can be split at every text that is not empty. To join the parts
with another text gives what replacing gives, with the separator itself the text that was split, and no part contains
the separator. -/
theorem join_split_eq_replace [Size.Room] (m : Machine) (s a b : String) (ha : a ≠ "") :
    ∃ (p : Datum) (parts : List String) (m' : Machine),
      (Run.native .split [string s, string a]).run m = (.ok (.tagged .list p), m') ∧
      m'.world.store.contents p = .list (parts.map string) ∧
      (∃ r, (Run.native .join [.tagged .list p, string b]).run m' = (.ok (string r), m') ∧
        (Run.native .replace [string s, string a, string b]).run m = (.ok (string r), m)) ∧
      (Run.native .join [.tagged .list p, string a]).run m' = (.ok (string s), m') ∧
      ∀ part ∈ parts, (Run.native .contains [string part, string a]).run m' = (.ok (boolean false), m') := by
  have hSome : a.toList ≠ [] := by simpa using ha
  generalize hParts : (Text.splitOn a.toList s.toList).map String.ofList = parts
  have hTexts : parts.map String.toList = Text.splitOn a.toList s.toList := by
    simp [← hParts, Function.comp_def]
  have hSplit := run_native rfl (act_split (w := m.world) ha s)
  rw [← List.map_map, hParts] at hSplit
  have hItems := contents_pushed m.world.store (.list (parts.map string))
  refine ⟨_, parts, _, hSplit, hItems, ⟨_, run_native rfl (act_join hItems b), ?_⟩, ?_, fun part hPart => ?_⟩
  · refine (run_native rfl (act_replace s a b)).trans ?_
    rw [Text.replaceAll, if_neg (by simpa using hSome), ← Text.joinWith_splitOn, ← hTexts]
  · refine (run_native rfl (act_join hItems a)).trans ?_
    rw [hTexts, Text.joinWith_splitOn, Text.substitute_self hSome, String.ofList_toList]
  · have hPart : part.toList ∈ Text.splitOn a.toList s.toList := hTexts ▸ List.mem_map_of_mem hPart
    refine (run_native rfl (act_contains part a)).trans ?_
    rw [Text.not_occurs_splitOn hSome _ _ hPart]

-- What follows is computed on an ordinary machine.
attribute [local instance] Size.ordinary

/-- A separator that overlaps itself. -/
theorem join_split_eq_replace_overlap : ∃ (p : Datum) (parts : List String) (m' : Machine),
    (Run.native .split [string "aaab", string "aa"]).run default = (.ok (.tagged .list p), m') ∧
    m'.world.store.contents p = .list (parts.map string) ∧
    (Run.native .join [.tagged .list p, string "aa"]).run m' = (.ok (string "aaab"), m') := by
  obtain ⟨p, parts, m', hSplit, hItems, -, hJoin, -⟩ := join_split_eq_replace default "aaab" "aa" "-" (by decide)
  exact ⟨p, parts, m', hSplit, hItems, hJoin⟩

/-- **Nothing is lost by cutting.** A text or a list that is cut at any number, from the front to it and from it to the
end, is the two parts together, and the length of the first is told by the number. Cutting never refuses, and every
list that there was stays as it is. -/
theorem slice_slice_eq [Size.Room] (m : Machine) {zero k stop : Datum} {i : Int} {n : Nat}
    (hZero : HasIntegerPart zero 0) (hk : HasIntegerPart k i) (hStop : HasIntegerPart stop n) :
    (∀ s : String, s.length = n → ∃ front back : String,
      (Run.native .slice [string s, number zero, number k]).run m = (.ok (string front), m) ∧
      (Run.native .slice [string s, number k, number stop]).run m = (.ok (string back), m) ∧
      front ++ back = s ∧ (front.length : Int) = if 0 ≤ i then min i n else max (n + i) 0) ∧
    ∀ (p : Datum) (xs : List Datum), m.world.store.contents p = .list xs → xs.length = n →
      ∃ (q r : Datum) (m₁ m₂ : Machine) (front back : List Datum),
        (Run.native .slice [.tagged .list p, number zero, number k]).run m = (.ok (.tagged .list q), m₁) ∧
        (Run.native .slice [.tagged .list p, number k, number stop]).run m₁ = (.ok (.tagged .list r), m₂) ∧
        m₂.world.store.contents q = .list front ∧ m₂.world.store.contents r = .list back ∧
        front ++ back = xs ∧ ((front.length : Int) = if 0 ≤ i then min i n else max (n + i) 0) ∧
        ∀ d ys, m.world.store.contents d = .list ys →
          m₁.world.store.contents d = .list ys ∧ m₂.world.store.contents d = .list ys := by
  constructor
  · rintro s rfl
    have hCut (start stop : Int) : (cut (.str s) start stop).run m.world =
      (.ok (.str (String.ofList (Datum.slice s.toList start stop))), m.world) := rfl
    have hFront := run_native rfl (act_slice (.inr rfl) (whole_number hZero) (whole_number hk) (hCut _ _))
    have hBack := run_native rfl (act_slice (.inr rfl) (whole_number hk) (whole_number hStop) (hCut _ _))
    refine ⟨_, _, hFront, hBack, ?_, ?_⟩
    · rw [← String.ofList_append, ← String.length_toList, Datum.slice_append, String.ofList_toList]
    · rw [String.length_ofList, Datum.length_slice_zero, String.length_toList]
  · rintro p xs hList rfl
    have hFront := run_native rfl (act_slice (.inl rfl) (whole_number hZero) (whole_number hk) (cut_list hList 0 i))
    have hBack := run_native (m := { m with world := { m.world with store := _ } }) rfl
      (act_slice (.inl rfl) (whole_number hk) (whole_number hStop)
        (cut_list (contents_push hList (.list (Datum.slice xs 0 i))) i xs.length))
    refine ⟨_, _, _, _, _, _, hFront, hBack, contents_push (contents_pushed _ _) _, contents_pushed _ _,
      Datum.slice_append xs i, Datum.length_slice_zero xs i, fun d ys hd => ?_⟩
    exact ⟨contents_push hd _, contents_push (contents_push hd _) _⟩

/-- A cut before the front and one that is counted from the end. -/
theorem slice_slice_eq_negative :
    (∃ front back : String,
      (Run.native .slice [string "abc", number (.int 0), number (.int (-5))]).run default =
        (.ok (string front), default) ∧
      (Run.native .slice [string "abc", number (.int (-5)), number (.int 3)]).run default =
        (.ok (string back), default) ∧ front ++ back = "abc") ∧
    ∃ front : String,
      (Run.native .slice [string "abc", number (.int 0), number (.int (-1))]).run default =
        (.ok (string front), default) ∧ (front.length : Int) = 2 := by
  have hInt (i : Int) : HasIntegerPart (.int i) i := ⟨rfl, rfl⟩
  obtain ⟨front, back, hFront, hBack, hAll, -⟩ := (slice_slice_eq default (hInt 0) (hInt (-5)) (hInt 3)).1 "abc" rfl
  obtain ⟨front', -, hFront', -, -, hLength⟩ := (slice_slice_eq default (hInt 0) (hInt (-1)) (hInt 3)).1 "abc" rfl
  exact ⟨⟨front, back, hFront, hBack, hAll⟩, front', hFront', hLength⟩

end Scriptling.Script
