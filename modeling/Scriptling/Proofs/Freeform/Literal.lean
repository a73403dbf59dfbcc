import Scriptling.Freeform.Lex

/-!
# String literals

What stands between two quotes is a sequence of marks: characters that stand for themselves, and a backslash with a
character that it may stand before. Reading a string gives what its marks stand for (`Spells.readString`).

Every text can be written as a string: a backslash goes before each backslash and each quote of the kind that
encloses it, and line feeds, tabs and carriage returns are written with letters. Reading such a literal gives back
the text, whatever blanks stand around it (`lex_stringLiteral`).
-/

namespace Scriptling.Freeform

open List
open String (ofList toList_ofList)

variable {q c : Char}

open Text

/-- The two characters that enclose strings. -/
def IsQuote (q : Char) : Prop := q = '"' ∨ q = '\x27'

/-- A character as it is written in a string with these quotes. -/
def escape (q c : Char) : List Char :=
  if c = '\\' ∨ c = q then ['\\', c]
  else if c = '\n' then ['\\', 'n']
  else if c = '\t' then ['\\', 't']
  else if c = '\r' then ['\\', 'r']
  else [c]

/-- A text as a string with these quotes. -/
def stringLiteral (q : Char) (text : List Char) : List Char := q :: (text.flatMap (escape q) ++ [q])

/-! ## What a string stands for -/

/-- The characters that may follow a backslash in a string with these quotes, and what they stand for there. -/
def escapes (q : Char) : List (Char × Char) := [('n', '\n'), ('t', '\t'), ('r', '\r'), ('\\', '\\'), (q, q)]

/-- How a character may be written inside a string with these quotes. -/
inductive Mark (q : Char) : List Char → Char → Prop where
  | plain {c : Char} : c ≠ '\n' → c ≠ q → c ≠ '\\' → Mark q [c] c
  | escaped {e x : Char} : (e, x) ∈ escapes q → Mark q ['\\', e] x

/-- What the text between two quotes stands for. -/
inductive Spells (q : Char) : List Char → List Char → Prop where
  | nil : Spells q [] []
  | cons {mark body s : List Char} {x : Char} : Mark q mark x → Spells q body s → Spells q (mark ++ body) (x :: s)

@[simp] theorem Cursor.advance_advance (p : Cursor) (m n : Nat) : (p.advance m).advance n = p.advance (m + n) := by
  simp [Cursor.advance, Nat.add_assoc]

/-- A quote is nothing else that a step may begin with, and no letter of an escape. -/
theorem IsQuote.plain (h : IsQuote q) :
    q ≠ '\n' ∧ q ≠ '\\' ∧ isBlank q = false ∧ q ≠ '/' ∧ isWordStart q = false ∧ isDigit q = false := by
  rcases h with rfl | rfl <;> decide

theorem unescape?_eq_some_iff (hQuote : IsQuote q) {e x : Char} : unescape? q e = some x ↔ (e, x) ∈ escapes q := by
  simp only [unescape?, escapes, mem_cons, Prod.mk.injEq, not_mem_nil, or_false]
  rcases hQuote with rfl | rfl
  · grind
  · grind

/-- **Reading a mark.** It is what the mark stands for, and reading goes on behind it. -/
theorem Mark.readString {x : Char} {mark : List Char} (hQuote : IsQuote q) (h : Mark q mark x) (held : List Char)
    (place : Cursor) (rest : List Char) :
    readString q held place (mark ++ rest) = readString q (x :: held) (place.advance mark.length) rest := by
  cases h with
  | plain hLine hq hBackslash =>
    rw [singleton_append, Freeform.readString.eq_def]
    simp [hLine, hq, hBackslash]
  | @escaped e _ hMem =>
    have hBackslash : '\\' ≠ q := hQuote.plain.2.1.symm
    have hEscape : unescape? q e = some x := (unescape?_eq_some_iff hQuote).mpr hMem
    rw [Freeform.readString.eq_def]
    simp [hBackslash, hEscape]

theorem Spells.readString (hQuote : IsQuote q) {body s : List Char} (h : Spells q body s) (held : List Char)
    (place : Cursor) (rest : List Char) :
    readString q held place (body ++ q :: rest) = .ok (held.reverse ++ s, place.advance (body.length + 1), rest) := by
  induction h generalizing held place with
  | nil =>
    rw [nil_append, Freeform.readString.eq_def]
    simp [hQuote.plain.1]
  | cons hMark _ ih =>
    rw [append_assoc, hMark.readString hQuote, ih]
    simp [Nat.add_assoc]

theorem step_quote (hQuote : IsQuote q) (place : Cursor) (cs : List Char) :
    step place q cs = (readString q [] (place.advance 1) cs).map fun read =>
      ⟨some (.ofCursor .string (.str (ofList read.1)) place), read.2.1, read.2.2⟩ := by
  obtain ⟨-, -, hBlank, hSlash, hWord, hDigit⟩ := hQuote.plain
  have hMark : (q = '"' || q = '\x27') = true := by simpa [IsQuote] using hQuote
  simp only [step, hBlank, hSlash, hWord, hDigit, hMark, if_true, if_false, Bool.false_eq_true]
  cases readString q [] (place.advance 1) cs with
  | ok | error => rfl

theorem step_string (hQuote : IsQuote q) {body s : List Char} (h : Spells q body s) (place : Cursor)
    (rest : List Char) :
    step place q (body ++ q :: rest) =
      .ok ⟨some (.ofCursor .string (.str (ofList s)) place), place.advance (body.length + 2), rest⟩ := by
  have hLength : 1 + (body.length + 1) = body.length + 2 := by omega
  rw [step_quote hQuote, h.readString hQuote, Cursor.advance_advance, hLength]
  rfl

/-! ## Written texts -/

theorem mark_escape (q c : Char) : Mark q (escape q c) c := by
  unfold escape
  split
  next hSelf => exact .escaped (by rcases hSelf with rfl | rfl <;> simp [escapes])
  split
  · subst_vars
    exact .escaped (by simp [escapes])
  split
  · subst_vars
    exact .escaped (by simp [escapes])
  split
  · subst_vars
    exact .escaped (by simp [escapes])
  next hPlain hLine hTab hReturn =>
    obtain ⟨hBackslash, hq⟩ := not_or.mp hPlain
    exact .plain hLine hq hBackslash

theorem spells_flatMap_escape (q : Char) (text : List Char) : Spells q (text.flatMap (escape q)) text := by
  induction text with
  | nil => exact .nil
  | cons c text ih =>
    rw [flatMap_cons]
    exact .cons (mark_escape q c) ih

/-! ## Literals and blanks in a text -/

theorem lexFrom_nil (place : Cursor) : lexFrom place [] = ⟨[.ofCursor .endOfText .none place], none, place, []⟩ := by
  rw [lexFrom.eq_def]

theorem lexFrom_of_step {place : Cursor} {cs : List Char} {l : Lexeme} (h : step place c cs = .ok l) :
    lexFrom place (c :: cs) =
      { lexFrom l.place l.rest with tokens := l.token?.toList ++ (lexFrom l.place l.rest).tokens } := by
  rw [lexFrom.eq_def]
  dsimp only
  split
  next hError => cases h.symm.trans hError
  next hOk =>
    cases h.symm.trans hOk
    rfl

theorem lexFrom_of_error {place : Cursor} {cs : List Char} {f : Failure} (h : step place c cs = .error f) :
    lexFrom place (c :: cs) = ⟨[], some f, f.place, f.rest⟩ := by
  rw [lexFrom.eq_def]
  dsimp only
  split
  next hError =>
    cases h.symm.trans hError
    rfl
  next hOk => cases h.symm.trans hOk

theorem step_blank (h : isBlank c = true) (place : Cursor) (cs : List Char) :
    step place c cs = .ok ⟨none, place.skip c, cs⟩ := by
  rw [step, if_pos h]

theorem lexFrom_blanks {blanks : List Char} (h : ∀ c ∈ blanks, isBlank c = true) (place : Cursor)
    (rest : List Char) : lexFrom place (blanks ++ rest) = lexFrom (blanks.foldl Cursor.skip place) rest := by
  induction blanks generalizing place with
  | nil => rfl
  | cons c blanks ih =>
    obtain ⟨hc, hLater⟩ := forall_mem_cons.mp h
    rw [cons_append, lexFrom_of_step (step_blank hc place _), foldl_cons, ← ih hLater]
    rfl

theorem step_stringLiteral (hQuote : IsQuote q) (text : List Char) (place : Cursor) (rest : List Char) :
    step place q (text.flatMap (escape q) ++ q :: rest) =
      .ok ⟨some (.ofCursor .string (.str (ofList text)) place),
        place.advance (stringLiteral q text).length, rest⟩ := by
  rw [step_string hQuote (spells_flatMap_escape q text)]
  simp [stringLiteral]

theorem lexFrom_stringLiteral (hQuote : IsQuote q) (text : List Char) (place : Cursor) {blanks : List Char}
    (h : ∀ c ∈ blanks, isBlank c = true) :
    let finish := blanks.foldl Cursor.skip (place.advance (stringLiteral q text).length)
    lexFrom place (stringLiteral q text ++ blanks) =
      ⟨[.ofCursor .string (.str (ofList text)) place, .ofCursor .endOfText .none finish], none, finish, []⟩ := by
  have hInput : stringLiteral q text ++ blanks = q :: (text.flatMap (escape q) ++ q :: blanks) := by
    simp [stringLiteral]
  have hBlanks := lexFrom_blanks h (place.advance (stringLiteral q text).length) []
  rw [append_nil, lexFrom_nil] at hBlanks
  rw [hInput, lexFrom_of_step (step_stringLiteral hQuote text place blanks), hBlanks]
  rfl

/-- **String literals are read back.** A text written as a literal is read as one string token that holds the text,
at the beginning, and the end of the text. With blanks before and behind, there is still that one string. -/
theorem lex_stringLiteral (q : Char) (hQuote : IsQuote q) (s before after : String)
    (hBefore : ∀ c ∈ before.toList, isBlank c = true) (hAfter : ∀ c ∈ after.toList, isBlank c = true) :
    let literal := stringLiteral q s.toList
    let start := before.toList.foldl Cursor.skip Cursor.start
    let finish := after.toList.foldl Cursor.skip (start.advance literal.length)
    lex (String.ofList literal) =
      ⟨[⟨.string, .str s, 1, 1⟩, ⟨.endOfText, .none, 1, literal.length + 1⟩], none,
        ⟨literal.length, 1, literal.length + 1⟩, []⟩ ∧
    lex (before ++ String.ofList literal ++ after) =
      ⟨[.ofCursor .string (.str s) start, .ofCursor .endOfText .none finish], none, finish, []⟩ := by
  intro literal start finish
  constructor
  · have hAlone := @lexFrom_stringLiteral q hQuote s.toList Cursor.start [] (by simp)
    rw [append_nil, String.ofList_toList] at hAlone
    rw [lex, String.toList_ofList, hAlone]
    simp [literal, Cursor.advance, Cursor.start, Token.ofCursor, Nat.add_comm]
  · have hSource : (before ++ String.ofList literal ++ after).toList = before.toList ++ (literal ++ after.toList) := by
      simp
    rw [lex, hSource, lexFrom_blanks hBefore, lexFrom_stringLiteral hQuote s.toList start hAfter, String.ofList_toList]

/-- Backslashes, both quotes and control characters between single quotes, with blanks of several kinds around. -/
theorem lex_stringLiteral_crowded :
    let s := "\\'\"\n\\n\t\r"
    let before := " \n\u2003"
    let after := "\r\n"
    let literal := stringLiteral '\x27' s.toList
    let start := before.toList.foldl Cursor.skip Cursor.start
    let finish := after.toList.foldl Cursor.skip (start.advance literal.length)
    String.ofList literal = "'\\\\\\'\"\\n\\\\n\\t\\r'" ∧
    lex (String.ofList literal) =
      ⟨[⟨.string, .str s, 1, 1⟩, ⟨.endOfText, .none, 1, literal.length + 1⟩], none,
        ⟨literal.length, 1, literal.length + 1⟩, []⟩ ∧
    lex (before ++ String.ofList literal ++ after) =
      ⟨[.ofCursor .string (.str s) start, .ofCursor .endOfText .none finish], none, finish, []⟩ := by
  intro s before after literal start finish
  have hBefore : ∀ c ∈ before.toList, isBlank c = true := all_eq_true.mp (by decide +kernel)
  have hAfter : ∀ c ∈ after.toList, isBlank c = true := all_eq_true.mp (by decide +kernel)
  exact ⟨by decide +kernel, lex_stringLiteral '\x27' (Or.inr rfl) s before after hBefore hAfter⟩

end Scriptling.Freeform
