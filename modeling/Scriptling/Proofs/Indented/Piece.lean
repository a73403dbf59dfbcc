import Scriptling.Proofs.Indented.Nesting
import Scriptling.Proofs.Indented.Numeral

/-!
# What may stand where a token can begin

The lexical rules of indented text, said without the lexer. A piece is a run of blanks, a comment, a line end with
the blanks behind it, a word, a number, a string or a sign (`Piece.Stands`). What begins with no piece is a string that
is not closed (`Unclosed`), or stops the lexer: with a complaint (`Complains`), or with a fault of a primitive operation
(`Faults`), which only a percent sign before another character and a number that is not written as a float can do.
Whatever is in front of a text, it is one of these (`piece_or_stop`).
-/

namespace Scriptling.Indented

open Text List
open Freeform (Run)

variable (indents : List Nat)

/-! ## Strings -/

/-- The text between the quotes of a string. A backslash goes with the character behind it, whatever it is; without
one there is neither the quote nor a line feed. -/
inductive Body (q : Char) : List Char → Prop where
  | nil : Body q []
  | plain {c : Char} {cs : List Char} : c ≠ '\\' → c ≠ q → c ≠ '\n' → Body q cs → Body q (c :: cs)
  | escaped {c : Char} {cs : List Char} : Body q cs → Body q ('\\' :: c :: cs)

/-- The text is a quote with all that is left behind it, and the string is not closed. -/
def Unclosed (text : List Char) : Prop :=
  ∃ q body, IsQuote q ∧ text = q :: body ∧ (Body q body ∨ ∃ inner, body = inner ++ ['\\'] ∧ Body q inner)

/-! ## Signs -/

/-- A sign of a kind, with this behind it. A point before a digit begins a number. -/
inductive Sign : List Char → Kind → List Char → Prop where
  | double {c d : Char} {kind : Kind} {following : List Char} : doubles.lookup (c, d) = some kind →
      Sign [c, d] kind following
  | single {c : Char} {kind : Kind} {following : List Char} : singles.lookup c = some kind →
      (c = '.' → ∀ d ∈ following.head?, isDigit d = false) → Sign [c] kind following

/-! ## Pieces -/

/-- A piece of a text. -/
inductive Piece where
  | blank (text : List Char)
  | comment (body : List Char)
  /-- A line end and the blanks at the front of the next line. -/
  | lineEnd (ending blanks : List Char)
  | word (text : List Char)
  | number (n : Numeral)
  | string (quote : Char) (body : List Char)
  | sign (kind : Kind) (text : List Char)

namespace Piece

/-- The text of a piece. -/
def text : Piece → List Char
  | blank text => text
  | comment body => '#' :: body
  | lineEnd ending blanks => ending ++ blanks
  | word text => text
  | number n => n.text
  | string quote body => quote :: (body ++ [quote])
  | sign _ text => text

/-- The piece stands where a token can begin, with this behind it. -/
inductive Stands : Piece → List Char → Prop where
  | blank {c : Char} {cs following : List Char} : isSpace c = true → Run isSpace cs following →
      Stands (blank (c :: cs)) following
  | comment {body following : List Char} : Run (fun c => !isLineEnd c) body following → Stands (comment body) following
  | lineEnd {ending blanks following : List Char} : LineBreak ending (blanks ++ following) →
      Run isSpace blanks following → Stands (lineEnd ending blanks) following
  | word {c : Char} {cs following : List Char} : isWordStart c = true → Run isWordChar cs following →
      Stands (word (c :: cs)) following
  | number {n : Numeral} {following : List Char} : n.Stands following → ¬n.Malformed → Stands (number n) following
  | string {q : Char} {body following : List Char} : IsQuote q → Body q body → Stands (string q body) following
  | sign {kind : Kind} {text following : List Char} : Sign text kind following → Stands (sign kind text) following

end Piece

/-! ## Indentation -/

/-- The open indentations at a line of some width, if it fits: one is opened for a wider line, and for one of the width
of an open indentation those inside that are closed. -/
def fit? (indents : List Nat) (width : Nat) : Option (List Nat) :=
  if indents.headD 0 < width then some (width :: indents)
  else if width ∈ indents then some (indents.dropWhile (width < ·))
  else none

/-- The open indentations after a line end with these blanks and this behind them. A line that is blank or holds a
comment only changes nothing. -/
def reindent? (indents : List Nat) (blanks following : List Char) : Option (List Nat) :=
  if following.head?.any fun c => isLineEnd c || c == '#' then some indents else fit? indents (Lexer.widthOf blanks)

/-- The open indentations after a piece, if it fits. -/
def Piece.indents? (p : Piece) (indents : List Nat) (following : List Char) : Option (List Nat) :=
  match p with
  | lineEnd _ blanks => reindent? indents blanks following
  | _ => some indents

/-! ## What stops the lexer -/

/-- With these indentations open, the lexer complains of what is in front of the text. -/
inductive Complains (indents : List Nat) : List Char → Complaint → Prop where
  -- a character that begins nothing
  | stray {c : Char} {cs : List Char} : isSpace c = false → isLineEnd c = false → c ≠ '#' → ¬IsQuote c →
      isDigit c = false → isWordStart c = false → singles.lookup c = none →
      (∀ d ∈ cs.head?, c ≠ '%' ∧ doubles.lookup (c, d) = none) → Complains indents (c :: cs) (.unexpected c)
  -- a string that is not closed on its line
  | unterminated {q : Char} {body later : List Char} : IsQuote q → Body q body →
      Complains indents (q :: (body ++ '\n' :: later)) .unterminated
  -- a line narrower than the innermost indentation and as wide as none
  | indentation {ending blanks following : List Char} : LineBreak ending (blanks ++ following) →
      Run isSpace blanks following → reindent? indents blanks following = none →
      Complains indents (ending ++ blanks ++ following) .indentation

/-- A primitive operation fails on what is in front of the text. -/
inductive Faults : List Char → FaultKind → Prop where
  | percent {c : Char} {cs : List Char} : Faults ('%' :: c :: cs) .wrongType
  | number {n : Numeral} {following : List Char} : n.Stands following → n.Malformed →
      Faults (n.text ++ following) .wrongValue

/-! ## Every text begins with one of these -/

/-- What becomes of a string with this text behind its opening quote: it is closed, it reaches the next line, or the
text ends inside it, perhaps behind a lone backslash. -/
inductive StringEnd (q : Char) : List Char → Prop where
  | closed {body later : List Char} : Body q body → StringEnd q (body ++ q :: later)
  | broken {body later : List Char} : Body q body → StringEnd q (body ++ '\n' :: later)
  | inside {body : List Char} : Body q body → StringEnd q body
  | hanging {inner : List Char} : Body q inner → StringEnd q (inner ++ ['\\'])

theorem StringEnd.prepend {q : Char} {cs : List Char} (h : StringEnd q cs) (mark : List Char)
    (hMark : ∀ body, Body q body → Body q (mark ++ body)) : StringEnd q (mark ++ cs) := by
  cases h with
  | closed hBody =>
    rw [← append_assoc]
    exact .closed (hMark _ hBody)
  | broken hBody =>
    rw [← append_assoc]
    exact .broken (hMark _ hBody)
  | inside hBody => exact .inside (hMark _ hBody)
  | hanging hBody =>
    rw [← append_assoc]
    exact .hanging (hMark _ hBody)

theorem stringEnd (q : Char) (cs : List Char) : StringEnd q cs := by
  induction hLength : cs.length using Nat.strongRecOn generalizing cs with
  | ind n ih =>
    cases cs with
    | nil => exact .inside .nil
    | cons c cs =>
      rw [length_cons] at hLength
      by_cases hBackslash : c = '\\'
      · subst hBackslash
        cases cs with
        | nil => exact .hanging .nil
        | cons d cs =>
          rw [length_cons] at hLength
          exact (ih cs.length (by omega) cs rfl).prepend ['\\', d] fun _ => .escaped
      by_cases hQuote : c = q
      · subst hQuote
        exact .closed .nil
      by_cases hLine : c = '\n'
      · subst hLine
        exact .broken .nil
      · exact (ih cs.length (by omega) cs rfl).prepend [c] fun _ => .plain hBackslash hQuote hLine

/-- What is in front of a text if it is a line end. -/
theorem lineEnd_or_complaint {ending after : List Char} (hBreak : LineBreak ending after) :
    (∃ (p : Piece) (following : List Char) (indents' : List Nat), ending ++ after = p.text ++ following ∧
      p.Stands following ∧ p.indents? indents following = some indents') ∨
    Complains indents (ending ++ after) .indentation := by
  have hAfter : after = after.takeWhile isSpace ++ after.dropWhile isSpace := takeWhile_append_dropWhile.symm
  have hRun : Run isSpace (after.takeWhile isSpace) (after.dropWhile isSpace) := .of_takeWhile isSpace after
  rw [hAfter] at hBreak ⊢
  rw [← append_assoc]
  cases hIndents : reindent? indents (after.takeWhile isSpace) (after.dropWhile isSpace) with
  | some indents' => exact .inl ⟨.lineEnd ending _, _, indents', rfl, .lineEnd hBreak hRun, hIndents⟩
  | none => exact .inr (.indentation hBreak hRun hIndents)

/-- What is in front of a text if it is neither layout nor a literal nor a word. -/
theorem sign_or_stop {c : Char} {cs : List Char} (hSpace : isSpace c = false)
    (hLine : isLineEnd c = false) (hComment : c ≠ '#') (hQuote : ¬IsQuote c) (hDigit : isDigit c = false)
    (hWord : isWordStart c = false) (hPoint : c = '.' → ∀ d ∈ cs.head?, isDigit d = false) :
    (∃ kind text following, c :: cs = text ++ following ∧ Sign text kind following) ∨
    Complains indents (c :: cs) (.unexpected c) ∨ Faults (c :: cs) .wrongType := by
  by_cases hPercent : c = '%' ∧ cs ≠ []
  · obtain ⟨rfl, hMore⟩ := hPercent
    obtain ⟨d, cs, rfl⟩ := exists_cons_of_ne_nil hMore
    exact .inr (.inr .percent)
  by_cases hDouble : ∃ d ∈ cs.head?, ∃ kind, doubles.lookup (c, d) = some kind
  · obtain ⟨d, hHead, kind, hKind⟩ := hDouble
    obtain ⟨rest, rfl⟩ := List.head?_eq_some_iff.mp hHead
    exact .inl ⟨kind, [c, d], rest, rfl, .double hKind⟩
  cases hSingle : singles.lookup c with
  | some kind => exact .inl ⟨kind, [c], cs, rfl, .single hSingle hPoint⟩
  | none =>
    refine .inr (.inl (.stray hSpace hLine hComment hQuote hDigit hWord hSingle fun d hd => ⟨?_, ?_⟩))
    · rintro rfl
      exact hPercent ⟨rfl, fun hNil => by simp [hNil] at hd⟩
    · exact Option.eq_none_iff_forall_ne_some.mpr fun kind hKind => hDouble ⟨d, hd, kind, hKind⟩

/-- **What is in front of a text is a piece, an unclosed string, or stops the lexer.** -/
theorem piece_or_stop (c : Char) (cs : List Char) :
    (∃ (p : Piece) (following : List Char) (indents' : List Nat), c :: cs = p.text ++ following ∧ p.Stands following ∧
      p.indents? indents following = some indents') ∨ Unclosed (c :: cs) ∨
    (∃ complaint, Complains indents (c :: cs) complaint) ∨ ∃ kind, Faults (c :: cs) kind := by
  have hRun (p : Char → Bool) : c :: cs = c :: cs.takeWhile p ++ cs.dropWhile p := by simp
  by_cases hSpace : isSpace c = true
  · exact .inl ⟨.blank _, _, indents, hRun isSpace, .blank hSpace (.of_takeWhile _ cs), rfl⟩
  by_cases hLine : isLineEnd c = true
  · obtain ⟨ending, after, hText, hBreak⟩ := Lexer.exists_lineBreak hLine cs
    rw [hText]
    rcases lineEnd_or_complaint indents hBreak with hPiece | hComplaint
    · exact .inl hPiece
    · exact .inr (.inr (.inl ⟨_, hComplaint⟩))
  by_cases hComment : c = '#'
  · subst hComment
    exact .inl ⟨.comment _, _, indents, hRun _, .comment (.of_takeWhile _ cs), rfl⟩
  by_cases hQuote : IsQuote c
  · cases stringEnd c cs with
    | @closed body later hBody =>
      exact .inl ⟨.string c body, later, indents, by simp [Piece.text], .string hQuote hBody, rfl⟩
    | broken hBody => exact .inr (.inr (.inl ⟨_, .unterminated hQuote hBody⟩))
    | inside hBody => exact .inr (.inl ⟨c, _, hQuote, rfl, .inl hBody⟩)
    | @hanging inner hBody => exact .inr (.inl ⟨c, _, hQuote, rfl, .inr ⟨inner, rfl, hBody⟩⟩)
  by_cases hNumber : isDigit c = true ∨ c = '.' ∧ ∃ d ∈ cs.head?, isDigit d = true
  · obtain ⟨n, following, hText, hStands⟩ := exists_numeral hNumber
    rw [hText]
    by_cases hMalformed : n.Malformed
    · exact .inr (.inr (.inr ⟨_, .number hStands hMalformed⟩))
    · exact .inl ⟨.number n, following, indents, rfl, .number hStands hMalformed, rfl⟩
  by_cases hWord : isWordStart c = true
  · exact .inl ⟨.word _, _, indents, hRun _, .word hWord (.of_takeWhile _ cs), rfl⟩
  rw [not_or] at hNumber
  have hPoint : c = '.' → ∀ d ∈ cs.head?, isDigit d = false := fun hPoint d hd =>
    Bool.of_not_eq_true fun hDigit => hNumber.2 ⟨hPoint, d, hd, hDigit⟩
  rcases sign_or_stop indents (by simpa using hSpace) (by simpa using hLine) hComment hQuote (by simpa using hNumber.1)
    (by simpa using hWord) hPoint with ⟨kind, text, following, hText, hSign⟩ | hComplaint | hFault
  · exact .inl ⟨.sign kind text, following, indents, hText, .sign hSign, rfl⟩
  · exact .inr (.inr (.inl ⟨_, hComplaint⟩))
  · exact .inr (.inr (.inr ⟨_, hFault⟩))

end Scriptling.Indented
