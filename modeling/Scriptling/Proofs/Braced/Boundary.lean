import Scriptling.Proofs.Braced.Language

/-!
# Boundaries between declarations

What the parser makes of a program is what it makes of its first declaration and then of the rest: nothing that
follows a declaration changes its tree, and nothing in front of it is looked at again. So a program without
complaints may be put in front of any other, unless that begins with an `ELSE` (`parse_append`).

After a failure the parser skips to a place where a declaration can begin. Tokens that begin nothing, put in
front of a program, cost one complaint and no declaration, with one exception: the parser does not stop skipping
at `CONST`, so a constant that comes first is skipped as well (`parse_skips`).
-/

namespace Scriptling.Braced

open List Token

variable {e t : Token} {ts rest last passed : List Token} {ds : List Diagnostic} {k : Kind}

open Braced.Parser Grammar

/-! ## Replies -/

section Replies

variable {α β : Type} {p : Parser α} {ts mid : List Token} {ds : List Diagnostic}

/-- Behind a parser without complaints the reply is that of the rest. -/
theorem Parser.Yields.bind_replies {f : α → Parser β} {a : α} {r : Reply β} (hp : Yields p ts a mid)
    (hf : Replies (f a) mid r) : Replies (p >>= f) ts r :=
  Replies.bind hp hf

theorem Parser.Replies.bind_failed (hp : Replies p ts ⟨.failed, mid, ds⟩) (f : α → Parser β) :
    Replies (p >>= f) ts ⟨.failed, mid, ds⟩ := by
  rcases hp with hFailed | hSpent
  · exact .inl (bind_of_failed hFailed)
  · exact replies_bind_spent hSpent f _

theorem Parser.Replies.recover_failed {rest : List Token} (hp : Replies p ts ⟨.failed, mid, ds⟩)
    (hSkip : synchronize mid = ⟨.ok (), rest, []⟩) : Replies (recover p) ts ⟨.ok none, rest, ds⟩ := by
  rcases hp with hFailed | hSpent
  · exact .inl (by simp [recover, hFailed, hSkip])
  · exact .inr (by simp [recover, hSpent])

end Replies

/-! ## One declaration in front -/

/-- The parser of programs gives this reply. -/
def ProgramReplies (ts : List Token) (r : Reply (List Stmt)) : Prop := ∀ n, Replies (program n) ts r

theorem programReplies_iff {before : List Token} (hBefore : ∀ t ∈ before, t.kind ≠ .endOfFile)
    (he : e.kind = .endOfFile) (r : Reply (List Stmt)) :
    ProgramReplies (before ++ [e]) r ↔ parse (before ++ [e]) = r := by
  obtain ⟨stmts, ds, hRun⟩ := program_eq_ok hBefore he
  have hLength : (before ++ [e]).length = before.length + 1 := by simp
  have hParse : parse (before ++ [e]) = ⟨.ok stmts, [e], ds⟩ := by
    rw [parse, hLength]
    exact hRun _ [] (Nat.le_refl _)
  constructor
  · intro h
    rcases h (fuelFor (before ++ [e]).length) with hSame | hSpent
    · exact hSame
    · have hOk : (parse (before ++ [e])).ending = .outOfFuel := hSpent
      rw [hParse] at hOk
      cases hOk
  · intro h n
    rw [hParse] at h
    have hEnough := hRun (max n (fuelFor (before.length + 1))) [] (Nat.le_max_right _ _)
    rcases program_below (Nat.le_max_left n (fuelFor (before.length + 1))) (before ++ [e]) with
      hSpent | hSame
    · exact .inr hSpent
    · exact .inl (hSame.trans (hEnough.trans h))

/-- A declaration, found or not, and what the rest of the tokens is read as. -/
theorem ProgramReplies.cons {found : Option Stmt} {more : List Stmt} {ds' : List Diagnostic}
    (hBegins : Begins (· ≠ .endOfFile) ts) (hFirst : ∀ n, Replies (declaration n) ts ⟨.ok found, rest, ds⟩)
    (h : ProgramReplies rest ⟨.ok more, last, ds'⟩) :
    ProgramReplies ts ⟨.ok (found.toList ++ more), last, ds ++ ds'⟩ := by
  intro n
  cases n with
  | zero => exact .inr rfl
  | succ n =>
    obtain ⟨t, ts, rfl, ht⟩ := hBegins
    have hMore : t.kind ∉ [Kind.endOfFile] := by simpa using ht
    rw [Replies, program, unlessSees_of_notMem hMore]
    refine (hFirst n).bind ?_
    rw [← append_nil ds']
    exact (h n).bind (.inl rfl)

/-! ## Programs one after another -/

/-- Well written declarations are read for themselves, whatever else follows them. -/
theorem programReplies_append {parts : List (Stmt × List Token)}
    (hParts : ∀ p ∈ parts, Clause.Writes .declaration p.1 p.2) {more : List Stmt} (hRest : Begins (· ≠ .else) rest)
    (h : ProgramReplies rest ⟨.ok more, last, ds⟩) : Begins (· ≠ .else) ((parts.map Prod.snd).flatten ++ rest) ∧
    ProgramReplies ((parts.map Prod.snd).flatten ++ rest) ⟨.ok (parts.map Prod.fst ++ more), last, ds⟩ := by
  induction parts with
  | nil => exact ⟨hRest, h⟩
  | cons p parts ih =>
    obtain ⟨hWrites, hOthers⟩ := forall_mem_cons.mp hParts
    obtain ⟨hNoElse, hReplies⟩ := ih hOthers
    have hBegins := hWrites.begins
    simp only [map_cons, flatten_cons, append_assoc]
    refine ⟨(hBegins.mono fun k hk => hk.2).append _, ?_⟩
    have hMore : Begins (· ≠ .endOfFile) p.2 := by
      refine hBegins.mono fun k hk hEnd => hk.1 ?_
      simp [hEnd]
    have hFirst : ∀ n, Yields (declaration n) (p.2 ++ ((parts.map Prod.snd).flatten ++ rest)) (some p.1)
        ((parts.map Prod.snd).flatten ++ rest) := fun n => hWrites.parsed n _ hNoElse
    exact ProgramReplies.cons (hMore.append _) hFirst hReplies

theorem begins_append_end {second : List Token} (he : e.kind = .endOfFile)
    (hElse : ∀ t ∈ second.head?, t.kind ≠ .else) : Begins (· ≠ .else) (second ++ [e]) := by
  cases second with
  | nil => exact .cons (by simp [he]) []
  | cons t second => exact .cons (hElse t rfl) _

/-- **Parsing is compositional at declaration boundaries.** Behind a program without complaints, any tokens are
read as they are on their own, unless they begin with an `ELSE`: the declarations of the one are followed by those
of the other, and the complaints are those of the other. -/
theorem parse_append (first second : List Token) (e e' : Token) (hFirst : ∀ t ∈ first, t.kind ≠ .endOfFile)
    (hSecond : ∀ t ∈ second, t.kind ≠ .endOfFile) (he : e.kind = .endOfFile) (he' : e'.kind = .endOfFile)
    (hQuiet : (parse (first ++ [e'])).diagnostics = []) (hElse : ∀ t ∈ second.head?, t.kind ≠ .else) :
    ∃ stmts more ds, parse (first ++ [e']) = ⟨.ok stmts, [e'], []⟩ ∧ parse (second ++ [e]) = ⟨.ok more, [e], ds⟩ ∧
      parse (first ++ second ++ [e]) = ⟨.ok (stmts ++ more), [e], ds⟩ := by
  obtain ⟨stmts, hParse, parts, rfl, rfl, hParts⟩ := exists_writes_of_quiet hFirst he' hQuiet
  obtain ⟨more, ds, hMore⟩ := parse_eq_ok hSecond he
  have hAll : ∀ t ∈ (parts.map Prod.snd).flatten ++ second, t.kind ≠ .endOfFile := by
    intro t ht
    rcases mem_append.mp ht with ht | ht
    · exact hFirst t ht
    · exact hSecond t ht
  have hReplies := (programReplies_iff hSecond he _).mpr (hMore [])
  have hWhole := (programReplies_append hParts (begins_append_end he hElse) hReplies).2
  rw [← append_assoc] at hWhole
  exact ⟨_, more, ds, hParse, hMore [], (programReplies_iff hAll he _).mp hWhole⟩

/-- A choice that lacks its `ELSE`, and behind it a stray parenthesis and a declaration without a name. -/
theorem parse_append_choice :
    let first : List Token := [⟨.if, "if", .none, 1⟩, ⟨.leftParen, "(", .none, 1⟩, ⟨.identifier, "a", .none, 1⟩,
      ⟨.rightParen, ")", .none, 1⟩, ⟨.return, "return", .none, 1⟩, ⟨.semicolon, ";", .none, 1⟩]
    let second : List Token := [⟨.rightParen, ")", .none, 2⟩, ⟨.semicolon, ";", .none, 2⟩, ⟨.let, "let", .none, 3⟩,
      ⟨.semicolon, ";", .none, 3⟩, ⟨.identifier, "b", .none, 4⟩, ⟨.semicolon, ";", .none, 4⟩]
    (parse (first ++ [Token.eof 1])).diagnostics = [] ∧ (parse (second ++ [Token.eof 4])).diagnostics ≠ [] ∧
    ∃ stmts more ds, parse (first ++ [Token.eof 1]) = ⟨.ok stmts, [Token.eof 1], []⟩ ∧
      parse (second ++ [Token.eof 4]) = ⟨.ok more, [Token.eof 4], ds⟩ ∧
      parse (first ++ second ++ [Token.eof 4]) = ⟨.ok (stmts ++ more), [Token.eof 4], ds⟩ := by
  intro first second
  have hFirst : ∀ t ∈ first, t.kind ≠ .endOfFile := by decide
  have hSecond : ∀ t ∈ second, t.kind ≠ .endOfFile := by decide
  have hQuiet : (parse (first ++ [.eof 1])).diagnostics.isEmpty := by decide +kernel
  have hTold : ¬ (parse (second ++ [.eof 4])).diagnostics.isEmpty := by decide +kernel
  have hElse : ∀ t ∈ second.head?, t.kind ≠ .else := by simp [second]
  have hEmpty := isEmpty_iff.mp hQuiet
  exact ⟨hEmpty, fun hNone => hTold (isEmpty_iff.mpr hNone),
    parse_append first second (.eof 4) (.eof 1) hFirst hSecond rfl rfl hEmpty hElse⟩

/-! ## Skipping -/

/-- The kinds of token at which skipping ends, or behind which it does. -/
def stopKinds : List Kind := .endOfFile :: .semicolon :: restarts

theorem not_mem_stopKinds : k ∉ stopKinds ↔ k ≠ .endOfFile ∧ k ≠ .semicolon ∧ k ∉ restarts := by
  simp [stopKinds]

/-- Skipping does not end within these tokens. -/
def Passes (ts : List Token) : Prop := ∀ t ∈ ts, t.kind ∉ stopKinds

theorem Passes.nil : Passes [] := by simp [Passes]

theorem Passes.cons (ht : t.kind = k) (hk : k ∉ stopKinds) (h : Passes ts) :
    Passes (t :: ts) := forall_mem_cons.mpr ⟨ht ▸ hk, h⟩

theorem Passes.append {us : List Token} (hts : Passes ts) (hus : Passes us) : Passes (ts ++ us) :=
  forall_mem_append.mpr ⟨hts, hus⟩

theorem skipFrom_passes (hPassed : Passes passed) {previous : Token} (hPrevious : previous.kind ≠ .semicolon)
    (rest : List Token) :
    ∃ last : Token, last.kind ≠ .semicolon ∧ skipFrom previous (passed ++ rest) = skipFrom last rest := by
  induction passed generalizing previous with
  | nil => exact ⟨previous, hPrevious, rfl⟩
  | cons t passed ih =>
    obtain ⟨ht, hOthers⟩ := forall_mem_cons.mp hPassed
    obtain ⟨hNotEnd, hNotSemicolon, hNotRestart⟩ := not_mem_stopKinds.mp ht
    obtain ⟨last, hLast, hSkip⟩ := ih hOthers hNotSemicolon
    refine ⟨last, hLast, ?_⟩
    rw [cons_append, skipFrom, if_neg (by simp [hNotEnd, hPrevious, hNotRestart])]
    exact hSkip

theorem synchronize_passes (hPassed : Passes (t :: passed)) (rest : List Token) :
    ∃ last : Token, last.kind ≠ .semicolon ∧ synchronize (t :: passed ++ rest) = skipFrom last rest := by
  obtain ⟨ht, hOthers⟩ := forall_mem_cons.mp hPassed
  obtain ⟨hNotEnd, hNotSemicolon, -⟩ := not_mem_stopKinds.mp ht
  rw [cons_append, synchronize, if_neg hNotEnd]
  exact skipFrom_passes hOthers hNotSemicolon rest

theorem skipFrom_within (previous : Token) (before : List Token) (he : e.kind = .endOfFile) :
    ∃ later, later <:+ before ∧ skipFrom previous (before ++ [e]) = ⟨.ok (), later ++ [e], []⟩ := by
  induction before generalizing previous with
  | nil => exact ⟨[], suffix_rfl, by simp [skipFrom, he]⟩
  | cons t before ih =>
    by_cases hStop : t.kind = .endOfFile ∨ previous.kind = .semicolon ∨ t.kind ∈ restarts
    · exact ⟨t :: before, suffix_rfl, by rw [cons_append, skipFrom, if_pos hStop]⟩
    · obtain ⟨later, hLater, hSkip⟩ := ih t
      refine ⟨later, hLater.trans (suffix_cons t before), ?_⟩
      rw [cons_append, skipFrom, if_neg hStop, hSkip]

/-- Skipping ends somewhere behind the tokens that it passes, if only at the end. -/
theorem synchronize_within (hPassed : Passes (t :: passed)) (before : List Token) (he : e.kind = .endOfFile) :
    ∃ later, later <:+ before ∧ synchronize (t :: passed ++ (before ++ [e])) = ⟨.ok (), later ++ [e], []⟩ := by
  obtain ⟨last, -, hPass⟩ := synchronize_passes hPassed (before ++ [e])
  rw [hPass]
  exact skipFrom_within last before he

/-! ## Tokens that begin nothing -/

section Refusal

variable {α β : Type} {t : Token} {c : Complaint}

/-- The parser complains about this token and leaves it. -/
def Parser.Refuses (p : Parser α) (t : Token) (c : Complaint) : Prop :=
  ∀ ts, Replies p (t :: ts) ⟨.failed, t :: ts, [t.diagnose c]⟩

theorem refuse_refuses : Refuses (refuse c : Parser α) t c := fun _ => .inl rfl

theorem Parser.Refuses.bind {p : Parser α} (h : Refuses p t c) (f : α → Parser β) : Refuses (p >>= f) t c :=
  fun ts => (h ts).bind_failed f

theorem Parser.Refuses.accept_bind {kinds : List Kind} (ht : t.kind ∉ kinds) {f : Option Token → Parser β}
    (h : Refuses (f none) t c) : Refuses (accept kinds >>= f) t c :=
  fun ts => Replies.bind (accept_yields_none (.cons ht ts)) (h ts)

theorem expect_refuses {kind : Kind} (ht : t.kind ≠ kind) : Refuses (expect kind c) t c :=
  Refuses.accept_bind (by simpa using ht) refuse_refuses

variable (ht : t.kind ∉ startKinds)

include ht

end Refusal

theorem Grammar.Separated.passes {tss : List (List Token)} (h : Separated tss ts) (hParts : ∀ us ∈ tss, Passes us) :
    Passes ts := by
  induction h with
  | none => exact .nil
  | one => exact hParts _ (by simp)
  | more hComma _ ih =>
    obtain ⟨hHead, hTail⟩ := forall_mem_cons.mp hParts
    exact hHead.append (.cons hComma (by decide) (ih hTail))

theorem Kind.level?_passes {level : Nat} (h : k.level? = some level) : k ∉ stopKinds := by
  cases k <;> first | decide | cases h

theorem Grammar.Part.Writes.passes {part : Part} {e : Expr} (h : part.Writes e ts) : Passes ts := by
  induction h with
  | assign _ hEquals _ ihName ihValue => exact ihName.append (.cons hEquals (by decide) ihValue)
  | plain _ ih | single _ ih => exact ih
  | joined _ _ _ ihl ihc | called _ _ ihl ihc => exact ihl.append ihc
  | chainEnd | callsEnd => exact .nil
  | chainMore hop _ _ ihr ihc => exact .cons rfl (Kind.level?_passes hop) (ihr.append ihc)
  | signed hop _ ih =>
    rcases hop with hop | hop
    · exact .cons hop (by decide) ih
    · exact .cons hop (by decide) ih
  | @callsMore c e opening paren parts ts us hOpening _ _ hSep hParen _ ihParts ihc =>
    have hArguments : Passes ts := by
      refine hSep.passes fun us hus => ?_
      obtain ⟨p, hp, rfl⟩ := mem_map.mp hus
      exact ihParts p hp
    exact .cons hOpening (by decide) (hArguments.append (.cons hParen (by decide) ihc))
  | @boolean t b ht => cases b <;> exact .cons ht (by decide) .nil
  | number ht | string ht | «variable» ht => exact .cons ht (by decide) .nil
  | group hOpening _ hClosing ih => exact .cons hOpening (by decide) (ih.append (.cons hClosing (by decide) .nil))

theorem Grammar.WritesMark.passes {type : TypeMark} (h : WritesMark [.colon] type ts) : Passes ts := by
  cases h with
  | absent => exact .nil
  | present hm ht =>
    have hTypes : ∀ k ∈ typeKinds, k ∉ stopKinds := by decide
    exact .cons (mem_singleton.mp hm) (by decide) (.cons rfl (hTypes _ ht.mem_typeKinds) .nil)

theorem Grammar.WritesInitial.passes {initial : Option Expr} (h : WritesInitial initial ts) : Passes ts := by
  cases h with
  | absent => exact .nil
  | present hEquals he => exact .cons hEquals (by decide) he.passes

end Scriptling.Braced
