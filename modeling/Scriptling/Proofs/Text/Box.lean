import Scriptling.Builtin.Display
import Scriptling.Proofs.Script.Sequence

/-!
# Boxes around texts

The lines of a text are cut to fit between the borders. Cutting ends if there is room for a character, and else only if
there is room for nothing and nothing but blanks to cut (`cutting_ends_iff`). What is printed then is a rectangle within
the width of the terminal, with all of the text inside (`printed_box`).
-/

namespace Scriptling.Text

open List

variable {rounds : Nat}

/-- The characters of a text that are not blank. -/
def ink (cs : List Char) : List Char := cs.filter (!isBlank ·)

theorem ink_append (xs ys : List Char) : ink (xs ++ ys) = ink xs ++ ink ys := filter_append xs ys

theorem ink_reverse (cs : List Char) : ink cs.reverse = (ink cs).reverse := filter_reverse ..

theorem ink_eq_nil_iff {cs : List Char} : ink cs = [] ↔ ∀ c ∈ cs, isBlank c = true := by simp [ink]

theorem ink_dropWhile (cs : List Char) : ink (cs.dropWhile isBlank) = ink cs := by
  induction cs with
  | nil => rfl
  | cons c cs ih =>
    rw [dropWhile_cons]
    split
    next hBlank => simpa [ink, hBlank] using ih
    next => rfl

/-- Splitting a text into lines loses nothing but blanks. -/
theorem ink_flatten_splitOn (cs : List Char) : ink (splitOn ['\n'] cs).flatten = ink cs := by
  have hJoin (parts : List (List Char)) : ink (joinWith ['\n'] parts) = ink parts.flatten := by
    fun_induction joinWith ['\n'] parts with
    | case1 => rfl
    | case2 part => simp
    | case3 part parts _ ih =>
      rw [ink_append, ink_append, ih, flatten_cons, ink_append, show ink ['\n'] = [] from rfl, append_nil]
  rw [← hJoin, joinWith_splitOn, substitute_self (by simp)]

namespace Box

variable {room : Int} {line cs : List Char} {parts content : List (List Char)}

theorem ink_strip (cs : List Char) : ink (strip cs) = ink cs := by
  rw [strip, trimBy, ink_reverse, ink_dropWhile, ink_reverse, reverse_reverse, ink_dropWhile]

theorem length_strip_le (cs : List Char) : (strip cs).length ≤ (cs.dropWhile isBlank).length := by
  have hDrop := (dropWhile_sublist isBlank (l := (cs.dropWhile isBlank).reverse)).length_le
  rwa [length_reverse, ← length_reverse] at hDrop

/-! ## One cut -/

theorem of_lastBlank?_eq_some {i : Nat} (h : lastBlank? cs = some i) : i < cs.length ∧ cs[i]? = some ' ' := by
  induction cs generalizing i with
  | nil => cases h
  | cons c cs ih =>
    rw [lastBlank?] at h
    cases hLater : lastBlank? cs with
    | some k =>
      rw [hLater] at h
      obtain rfl : k + 1 = i := Option.some.inj h
      simpa using ih hLater
    | none => grind

/-- A long line is cut behind at most as many characters as there is room for, and behind none only where it begins
with a blank or there is no room. -/
theorem cut_le (hRoom : 0 ≤ room) (hLong : room < line.length) :
    (cut room line : Int) ≤ room ∧ (cut room line = 0 → room = 0 ∨ line.head? = some ' ') := by
  have hPosition : position line room = room.toNat := by rw [position, if_neg (by omega)]; omega
  have hWindow : position line (room + 1) = room.toNat + 1 := by rw [position, if_neg (by omega)]; omega
  rw [cut, hPosition, hWindow]
  cases hBlank : lastBlank? (line.take (room.toNat + 1)) with
  | none =>
    rw [Option.getD_none]
    omega
  | some i =>
    obtain ⟨hBefore, hAt⟩ := of_lastBlank?_eq_some hBlank
    rw [length_take] at hBefore
    rw [getElem?_take_of_lt (by omega)] at hAt
    refine ⟨by rw [Option.getD_some]; omega, fun hStart => .inr ?_⟩
    rw [head?_eq_getElem?]
    exact hStart ▸ hAt

/-- There is room for a character, or for none and there are only blanks. -/
def Fits (room : Int) (text : List Char) : Prop := 0 < room ∨ room = 0 ∧ ink text = []

instance (room : Int) (text : List Char) : Decidable (Fits room text) := inferInstanceAs (Decidable (_ ∨ _))

/-- The rest of a line behind its cut is shorter. -/
theorem length_strip_drop_lt (h : Fits room line) (hLong : room < line.length) :
    (strip (line.drop (cut room line))).length < line.length := by
  obtain ⟨hCut, hStart⟩ := cut_le (by rcases h with _ | ⟨_, _⟩ <;> omega) hLong
  have hStrip := length_strip_le (line.drop (cut room line))
  generalize cut room line = k at *
  have hDrop := (dropWhile_sublist isBlank (l := line.drop k)).length_le
  rw [length_drop] at hDrop
  cases k with
  | succ k => omega
  | zero =>
    -- nothing is cut off, but there is a blank to be stripped
    obtain ⟨c, rest, rfl⟩ := exists_cons_of_length_pos (l := line) (by omega)
    have hBlank : isBlank c = true := by
      rcases h with hSome | ⟨-, hInk⟩
      · obtain rfl : c = ' ' := by simpa using (hStart rfl).resolve_left (by omega)
        rfl
      · exact ink_eq_nil_iff.mp hInk c mem_cons_self
    have hRest := (dropWhile_sublist isBlank (l := rest)).length_le
    rw [drop_zero, dropWhile_cons_of_pos hBlank] at hStrip
    rw [drop_zero, length_cons]
    omega

/-! ## Cutting a line -/

/-- Cutting that ends gives pieces for which there is room, and loses nothing but blanks. -/
theorem pieces_sound (h : pieces room rounds line = some parts) :
    0 ≤ room ∧ (∀ part ∈ parts, (part.length : Int) ≤ room) ∧ ink parts.flatten = ink line := by
  induction rounds generalizing line parts with
  | zero => cases h
  | succ rounds ih =>
    rw [pieces] at h
    split at h
    next hLong =>
      obtain ⟨later, hLater, rfl⟩ := Option.map_eq_some_iff.mp h
      obtain ⟨hRoom, hParts, hInk⟩ := ih hLater
      refine ⟨hRoom, forall_mem_cons.mpr ⟨?_, hParts⟩, ?_⟩
      · have hStrip := length_strip_le (line.take (cut room line))
        have hDrop := (dropWhile_sublist isBlank (l := line.take (cut room line))).length_le
        have hCut := (cut_le hRoom hLong).1
        rw [length_take] at hDrop
        omega
      · rw [flatten_cons, ink_append, hInk, ink_strip, ink_strip, ← ink_append, take_append_drop]
    next hFits =>
      obtain rfl := Option.some.inj h
      refine ⟨by omega, ?_⟩
      cases line <;> simp_all

theorem fits_of_pieces (h : pieces room rounds line = some parts) : Fits room line := by
  obtain ⟨hRoom, hParts, hInk⟩ := pieces_sound h
  rcases Int.lt_or_eq_of_le hRoom with hSome | rfl
  · exact .inl hSome
  · have hEmpty : parts.flatten = [] := flatten_eq_nil_iff.mpr fun part hPart =>
      eq_nil_of_length_eq_zero (by have := hParts part hPart; omega)
    exact .inr ⟨rfl, by rw [← hInk, hEmpty]; rfl⟩

/-- As many rounds as there are characters are enough. -/
theorem Fits.pieces (h : Fits room line) (hRounds : line.length < rounds) :
    (pieces room rounds line).isSome = true := by
  induction rounds generalizing line with
  | zero => omega
  | succ rounds ih =>
    rw [Box.pieces]
    split
    next hLong =>
      have hShorter := length_strip_drop_lt h hLong
      have hRest : Fits room (strip (line.drop (cut room line))) := by
        refine h.imp_right fun hNone => ⟨hNone.1, ?_⟩
        have hInk := hNone.2
        rw [← take_append_drop (cut room line) line, ink_append] at hInk
        rw [ink_strip, (append_eq_nil_iff.mp hInk).2]
      rw [Option.isSome_map]
      exact ih hRest (by omega)
    next => rfl

theorem exists_pieces_iff : (∃ rounds, (pieces room rounds line).isSome = true) ↔ Fits room line := by
  constructor
  · rintro ⟨rounds, h⟩
    exact fits_of_pieces (Option.get_mem h)
  · intro h
    exact ⟨_, h.pieces (Nat.lt_succ_self _)⟩

theorem pieces?_isSome_iff : (pieces? room line).isSome = true ↔ Fits room line :=
  ⟨fun h => exists_pieces_iff.mp ⟨_, h⟩, fun h => h.pieces (Nat.lt_succ_self _)⟩

/-! ## Cutting a text -/

theorem fits_lines_iff {text : List Char} : (∀ line ∈ splitOn ['\n'] text, Fits room line) ↔ Fits room text := by
  obtain ⟨first, later, hSplit, -⟩ := exists_splitOn ['\n'] text
  have hInk : ink text = [] ↔ ∀ line ∈ first :: later, ink line = [] := by
    rw [← ink_flatten_splitOn, hSplit]
    simp only [ink_eq_nil_iff, mem_flatten]
    grind
  rw [hSplit]
  refine ⟨fun h => ?_, fun h line hLine => h.imp_right fun hNone => ⟨hNone.1, hInk.mp hNone.2 line hLine⟩⟩
  refine (h first mem_cons_self).imp_right fun hNone => ⟨hNone.1, hInk.mpr fun line hLine => ?_⟩
  exact ((h line hLine).resolve_left (by omega)).2

/-- Lines are cut if they all fit, and then there is room for the pieces and nothing but blanks is lost. -/
theorem mapM_pieces? (lines : List (List Char)) :
    ((lines.mapM (pieces? room)).isSome = true ↔ ∀ line ∈ lines, Fits room line) ∧
      ∀ cut ∈ lines.mapM (pieces? room),
        (∀ part ∈ cut.flatten, (part.length : Int) ≤ room) ∧ ink cut.flatten.flatten = ink lines.flatten := by
  induction lines with
  | nil => simp
  | cons line lines ih =>
    rw [mapM_cons, forall_mem_cons, ← ih.1, ← pieces?_isSome_iff]
    cases hFirst : pieces? room line with
    | none => simp
    | some first =>
      cases hLater : lines.mapM (pieces? room) with
      | none => simp
      | some later =>
        obtain ⟨-, hParts, hInk⟩ := pieces_sound hFirst
        obtain ⟨hLaterParts, hLaterInk⟩ := ih.2 later hLater
        refine ⟨by simp, fun cut hCut => ?_⟩
        obtain rfl := Option.some.inj hCut
        rw [flatten_cons, flatten_append, ink_append, hInk, hLaterInk, flatten_cons, ink_append]
        exact ⟨forall_mem_append.mpr ⟨hParts, hLaterParts⟩, rfl⟩

theorem content?_isSome_iff {text : String} : (content? room text).isSome = true ↔ Fits room text.toList := by
  rw [content?, Option.isSome_map, (mapM_pieces? _).1, fits_lines_iff]

theorem content?_sound {text : String} (h : content? room text = some content) :
    0 ≤ room ∧ (∀ part ∈ content, (part.length : Int) ≤ room) ∧ ink content.flatten = ink text.toList := by
  have hFits := content?_isSome_iff.mp (Option.isSome_of_eq_some h)
  obtain ⟨cut, hCut, rfl⟩ := Option.map_eq_some_iff.mp h
  obtain ⟨hLengths, hInk⟩ := (mapM_pieces? _).2 cut hCut
  exact ⟨by rcases hFits with _ | ⟨_, _⟩ <;> omega, hLengths, hInk.trans (ink_flatten_splitOn _)⟩

/-! ## Rows -/

variable {padding : Int} {inner : Nat} {border : Char}

theorem foldl_max_le_iff (content : List (List Char)) (start most : Nat) :
    content.foldl (fun n piece => max n piece.length) start ≤ most ↔
      start ≤ most ∧ ∀ part ∈ content, part.length ≤ most := by
  induction content generalizing start with
  | nil => simp
  | cons part content ih => rw [foldl_cons, ih, forall_mem_cons, Nat.max_le, and_assoc]

/-- The width of a box suffices for its pieces, and needs no more than the room for them. -/
theorem width_bounds (padding : Int) (hRoom : 0 ≤ room) (h : ∀ part ∈ content, (part.length : Int) ≤ room) :
    (∀ part ∈ content, part.length + padding * 2 ≤ width content padding) ∧
      padding * 2 ≤ width content padding ∧ width content padding ≤ room + padding * 2 := by
  have hMost := (foldl_max_le_iff content 0 _).mp (Nat.le_refl _)
  have hLeast := (foldl_max_le_iff content 0 room.toNat).mpr
    ⟨Nat.zero_le _, fun part hPart => by have := h part hPart; omega⟩
  unfold width
  exact ⟨fun part hPart => by have := hMost.2 part hPart; omega, by omega, by omega⟩

/-- What stands between the borders of a row. -/
def middle (width : Int) (piece : List Char) : List Char :=
  let spare := width - piece.length
  ' ' :: padded (spare.fdiv 2).toNat (spare - spare.fdiv 2).toNat ' ' piece ++ [' ']

def framed (border : Char) (cs : List Char) : String := String.ofList (border :: cs ++ [border])

theorem row_eq (border : Char) (width : Int) : row (String.singleton border) width = framed border ∘ middle width := by
  funext piece
  simp [row, framed, middle, padded, blanks, ← String.toList_inj]

theorem length_middle {width : Int} {piece : List Char} (h : piece.length ≤ width) :
    ((middle width piece).length : Int) = width + 2 := by
  have hHalf := Int.fdiv_eq_ediv_of_nonneg (width - piece.length) (show (0 : Int) ≤ 2 by decide)
  simp only [middle, padded, length_append, length_replicate, length_cons, length_nil]
  omega

theorem ink_flatten_middle (width : Int) (content : List (List Char)) :
    ink (content.map (middle width)).flatten = ink content.flatten := by
  have hBlanks (n : Nat) : ink (replicate n ' ') = [] := by simp [ink_eq_nil_iff, isBlank]
  have hBlank : ink [' '] = [] := rfl
  induction content with
  | nil => rfl
  | cons part content ih =>
    rw [map_cons, flatten_cons, flatten_cons, ink_append, ih, ink_append, middle, padded, ← singleton_append]
    simp only [ink_append, hBlanks, hBlank, nil_append, append_nil]

/-- The rows above the text, with so many characters between the borders: the edge and the padding. -/
def top (border : Char) (padding inner : Nat) : List String :=
  String.ofList (replicate (inner + 2) border) :: replicate padding (framed border (replicate inner ' '))

theorem of_mem_top {padding : Nat} {row : String} (h : row ∈ top border padding inner) :
    row.length = inner + 2 ∧ ∀ c ∈ row.toList, c = border ∨ c = ' ' := by
  rcases mem_cons.mp h with rfl | h
  · simp +contextual
  · obtain rfl := eq_of_mem_replicate h
    simp [framed]
    grind

theorem repeatText_singleton (border : Char) (n : Nat) :
    Datum.repeatText n (String.singleton border) = String.ofList (replicate n border) := by
  induction n using Nat.strongRecOn with
  | ind n ih =>
    rw [Datum.repeatText]
    split
    next hNone => rw [hNone]; rfl
    next hSome =>
      dsimp only
      rw [ih (n / 2) (by omega), show String.singleton border = String.ofList [border] from rfl]
      simp only [← String.ofList_append, replicate_append_replicate, ← replicate_succ']
      split <;> congr 2 <;> omega

/-- A frame is the same from above and from below. -/
theorem frame_eq (border : Char) (h : width content padding + 2 = inner) :
    frame content padding (String.singleton border) (Datum.repeatText (inner + 2) (String.singleton border)) =
      top border padding.toNat inner ++ (content.map (middle (width content padding))).map (framed border) ++
        (top border padding.toNat inner).reverse := by
  have hEmpty : emptyRow (String.singleton border) (width content padding) = framed border (replicate inner ' ') := by
    simp [emptyRow, framed, blanks, ← String.toList_inj, h]
  simp [frame, row_eq, hEmpty, repeatText_singleton, top]

theorem eq_toNat_of_textCopies [Size.Room] {m : Int} {n : Nat} (h : Size.textCopies 1 m = .ok n) : n = m.toNat := by
  simp only [Size.textCopies, Size.word, Size.chars, Size.within, bind, Except.bind, pure, Except.pure, throw,
    throwThe, MonadExceptOf.throw] at h
  grind

end Box

end Scriptling.Text

namespace Scriptling.Builtin

open Text Text.Box Act List

variable {columns padding : Int} {text : String} {w w' : Script.World} {content : List (List Char)}

/-! ## Printing -/

theorem run_printBox [Size.Room] (columns padding : Int) (text : String) (border : Datum) (w : Script.World) :
    (printBox columns (.str text) (.int padding) border).run w =
      ((content? (room columns padding) text).elim (failPlain .endless) fun content => do
        printFrame content padding (← deep border)
        return .none).run w := by
  unfold printBox
  rw [if_neg (show ¬ (Datum.int padding).numeric?.isNone = true from Bool.false_ne_true)]
  dsimp only
  rw [run_bind_of_ok (show (whole (.int padding)).run w = (.ok padding, w) from rfl)]
  cases content? (room columns padding) text <;> rfl

/-- A frame that is printed in full. -/
theorem exists_of_run_printFrame [Size.Room] {border : String} {u : Unit}
    (h : (printFrame content padding (.str border)).run w = (.ok u, w')) :
    ∃ n, Size.textCopies border.length (width content padding + 4) = .ok n ∧
      w' = { w with console := w.console.printLines (frame content padding border (Datum.repeatText n border)) } := by
  have hEdge (n : Int) : Datum.operate .mul (.str border) (.int n) =
      (Size.textCopies border.length n).map fun k => .str (Datum.repeatText k border) := by
    show ((do return .str (Datum.repeatText (← Size.textCopies border.length n) border)) : Except Fault Datum) = _
    cases Size.textCopies border.length n <;> rfl
  unfold printFrame at h
  dsimp only at h
  rw [hEdge] at h
  cases hCopies : Size.textCopies border.length (width content padding + 4) with
  | error f =>
    rw [hCopies] at h
    cases h
  | ok n =>
    rw [hCopies] at h
    refine ⟨n, rfl, ?_⟩
    have hShow (s : String) : (display (.str s)).run w = (.ok s, w) := rfl
    rw [Except.map, run_bind_of_ok (show (lift _).run w = (.ok _, w) from rfl), run_bind_of_ok (hShow _),
      run_bind_of_ok (hShow _)] at h
    split at h
    · split at h
      · cases h
      · exact (congrArg Prod.snd h).symm
    · exact (congrArg Prod.snd h).symm

/-- **When cutting ends.** Cutting the lines of a text ends if the terminal is wider than four columns and the padding
on both sides; if it is just as wide, only with a text of nothing but blanks; and else never. Then there are no pieces
to be printed, and the call does not return. -/
theorem cutting_ends_iff [Size.Room] (columns padding : Int) (text : String) :
    let ends := ∀ line ∈ splitOn ['\n'] text.toList,
      ∃ rounds, (pieces (room columns padding) rounds line).isSome = true
    (ends ↔ 4 + padding * 2 < columns ∨ columns = 4 + padding * 2 ∧ ∀ c ∈ text.toList, isBlank c = true) ∧
      ((content? (room columns padding) text).isSome = true ↔ ends) ∧
      (¬ ends → ∀ (border : Datum) (w : Script.World),
        (printBox columns (.str text) (.int padding) border).run w = (failPlain .endless).run w) := by
  intro ends
  have hEnds : ends ↔ Fits (room columns padding) text.toList := by simp only [ends, exists_pieces_iff, fits_lines_iff]
  have hContent : (content? (room columns padding) text).isSome = true ↔ ends := by rw [hEnds, content?_isSome_iff]
  refine ⟨?_, hContent, fun hEndless border w => ?_⟩
  · have hSome : 0 < room columns padding ↔ 4 + padding * 2 < columns := by unfold room; omega
    have hNone : room columns padding = 0 ↔ columns = 4 + padding * 2 := by unfold room; omega
    rw [hEnds, Fits, ink_eq_nil_iff, hSome, hNone]
  · have hNone : content? (room columns padding) text = none := by simpa using mt hContent.mp hEndless
    rw [run_printBox, hNone, Option.elim_none]

/-- In a terminal of six columns a letter is never cut off. -/
theorem cutting_endless :
    ¬ ∀ (columns padding : Int) (text : String), 1 ≤ columns → 0 ≤ padding →
      ∀ line ∈ splitOn ['\n'] text.toList, ∃ rounds, (pieces (room columns padding) rounds line).isSome = true := by
  intro h
  have hFits : Fits (room 6 1) ['a'] := fits_lines_iff.mp fun line hLine =>
    exists_pieces_iff.mp (h 6 1 "a" (by decide) (by decide) line hLine)
  exact absurd hFits (by decide +kernel)

/-- **A printed box is a rectangle with all of the text inside.** What a call prints that returns are rows of one length
within the width of the terminal: the rows above the text and those below it, one more than the padding, and between
them rows that hold the characters of the text that are not blank, in order, between border characters. -/
theorem printed_box [Size.Room] {columns padding : Int} {text : String} {border : Char} {w w' : Script.World}
    {v : Datum} (hPadding : 0 ≤ padding)
    (hDone : (printBox columns (.str text) (.int padding) (.str (String.singleton border))).run w = (.ok v, w')) :
    ∃ (size : Nat) (above below : List String) (inside : List (List Char)),
      let rows := above ++ inside.map (framed border) ++ below
      w' = { w with console := w.console.printLines rows } ∧
        (∀ row ∈ rows, row.length = size) ∧ (size : Int) ≤ columns ∧
        (above.length : Int) = padding + 1 ∧ (below.length : Int) = padding + 1 ∧
        (∀ row ∈ above ++ below, ∀ c ∈ row.toList, c = border ∨ c = ' ') ∧
        ink inside.flatten = ink text.toList := by
  rw [run_printBox] at hDone
  cases hContent : content? (room columns padding) text with
  | none =>
    rw [hContent] at hDone
    cases hDone
  | some content =>
    rw [hContent, Option.elim_some] at hDone
    obtain ⟨b, w1, hBorder, hDone⟩ := exists_of_run_bind_ok hDone
    cases hBorder
    obtain ⟨u, w2, hFrame, hDone⟩ := exists_of_run_bind_ok hDone
    cases hDone
    obtain ⟨n, hCount, rfl⟩ := exists_of_run_printFrame hFrame
    obtain ⟨hRoom, hParts, hInk⟩ := content?_sound hContent
    obtain ⟨hWithin, hLeast, hMost⟩ := width_bounds padding hRoom hParts
    obtain ⟨inner, hInner⟩ := Int.eq_ofNat_of_zero_le (show 0 ≤ width content padding + 2 by omega)
    obtain rfl : n = inner + 2 := by
      rw [String.length_singleton] at hCount
      rw [eq_toNat_of_textCopies hCount]
      omega
    have hTop := @of_mem_top inner border padding.toNat
    have hLength : ((top border padding.toNat inner).length : Int) = padding + 1 := by
      simp [top]
      omega
    rw [frame_eq border hInner]
    have hFits : ((inner + 2 : Nat) : Int) ≤ columns := by
      unfold room at hMost
      omega
    refine ⟨inner + 2, _, _, _, rfl, ?_, hFits, hLength, by rw [length_reverse, hLength], ?_, ?_⟩
    · simp only [forall_mem_append, forall_mem_map, mem_reverse]
      refine ⟨⟨fun row hRow => (hTop hRow).1, fun part hPart => ?_⟩, fun row hRow => (hTop hRow).1⟩
      have := length_middle (show part.length ≤ width content padding by have := hWithin part hPart; omega)
      simp [framed]
      omega
    · simp only [forall_mem_append, mem_reverse]
      exact ⟨fun row hRow => (hTop hRow).2, fun row hRow => (hTop hRow).2⟩
    · rw [ink_flatten_middle, hInk]

-- What follows is computed on an ordinary machine.
attribute [local instance] Size.ordinary

/-- A word that is longer than the room for it is printed in pieces. -/
theorem printed_box_long_word :
    let box := (printBox 9 (.str "to concatenate") (.int 1) (.str (String.singleton '#'))).run default
    ∃ (v : Datum) (w' : Script.World) (size : Nat) (above below : List String) (inside : List (List Char)),
      box = (.ok v, w') ∧ w'.console = Console.printLines default (above ++ inside.map (framed '#') ++ below) ∧
        (∀ row ∈ above ++ inside.map (framed '#') ++ below, row.length = size) ∧ size ≤ 9 ∧
        above.length = 2 ∧ below.length = 2 ∧ ink inside.flatten = "toconcatenate".toList := by
  intro box
  have hOk : box.1.isOk = true := by decide +kernel
  rcases hRun : box with ⟨_ | v, w'⟩
  · rw [hRun] at hOk
    cases hOk
  · obtain ⟨size, above, below, inside, hRows, hLengths, hSize, hAbove, hBelow, -, hInk⟩ := printed_box (by decide) hRun
    exact ⟨v, w', size, above, below, inside, rfl, by rw [hRows]; rfl, hLengths, by omega, by omega, by omega, hInk⟩

end Scriptling.Builtin
