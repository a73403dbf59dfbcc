import Scriptling.Proofs.Braced.Reading
import Scriptling.Proofs.Braced.Writing

/-!
# What is parsed without complaint is well written

If a parser has a result and nothing to complain about, the tokens it has read write that result. `Parser.Reads` has
a rule for each way in which parsers are put together, so that what a parser reads follows its definition; the
parsers that call each other go by induction on fuel. A failure never counts as silence, since it is always told.
-/

namespace Scriptling.Braced

open Braced.Parser Grammar List
open Grammar (Writes)
open Grammar.Part (Writes parser)

variable {α β : Type} {keyword : Token} {block : Parser (List Stmt)} {arm : Parser Stmt} (n : Nat)

/-- Without complaint, a parser reads the tokens that write its result. -/
def Parser.Reads (p : Parser α) (W : α → List Token → Prop) : Prop :=
  ∀ ts a rest, p ts = ⟨.ok a, rest, []⟩ → ∃ used, ts = used ++ rest ∧ W a used

/-- The items are written by their tokens, one after the other. -/
def Grammar.InRow (W : α → List Token → Prop) (as : List α) (ts : List Token) : Prop :=
  ∃ parts : List (α × List Token), as = parts.map Prod.fst ∧ ts = (parts.map Prod.snd).flatten ∧ ∀ p ∈ parts, W p.1 p.2

/-- The items are written by their tokens with commas between them, after `count` others. -/
def Grammar.Listed (W : α → List Token → Prop) (count : Nat) (as : List α) (ts : List Token) : Prop :=
  ∃ parts : List (α × List Token), as = parts.map Prod.fst ∧ Separated (parts.map Prod.snd) ts ∧
    (∀ p ∈ parts, W p.1 p.2) ∧ count + parts.length ≤ 255

section

variable {p : Parser α} {V W : α → List Token → Prop} {R : β → List Token → Prop} {f : α → Parser β}
  {kinds : List Kind} {kind : Kind} {c : Complaint}

theorem Grammar.InRow.nil : InRow W [] [] := ⟨[], rfl, rfl, by simp⟩

theorem Grammar.InRow.cons {a : α} {as : List α} {ts us : List Token} (ha : W a ts) (has : InRow W as us) :
    InRow W (a :: as) (ts ++ us) := by
  obtain ⟨parts, rfl, rfl, hParts⟩ := has
  exact ⟨(a, ts) :: parts, rfl, by simp, forall_mem_cons.mpr ⟨ha, hParts⟩⟩

namespace Parser

theorem spent_reads : Reads spent W := by
  intro ts a rest h
  cases h

theorem refuse_reads : Reads (refuse c) W := by
  intro ts a rest h
  cases ts <;> cases h

theorem pure_reads {a : α} (h : W a []) : Reads (pure a) W := by
  intro ts b rest hRun
  obtain ⟨rfl, rfl, -⟩ := pure_eq_ok hRun
  exact ⟨[], rfl, h⟩

theorem peek_reads : peek.Reads fun _ used => used = [] := by
  intro ts t rest h
  cases ts <;> cases h
  exact ⟨[], rfl, rfl⟩

theorem complain_reads (t : Token) (c : Complaint) : (complain t c).Reads fun _ _ => False := by
  intro ts u rest h
  cases h

theorem accept_reads (kinds : List Kind) : (accept kinds).Reads fun found used =>
    found = none ∧ used = [] ∨ ∃ t, found = some t ∧ t.kind ∈ kinds ∧ used = [t] := by
  intro ts found rest h
  obtain ⟨-, ⟨t, rfl, hKind, rfl⟩ | ⟨rfl, rfl, -⟩⟩ := accept_eq_ok h
  · exact ⟨[t], rfl, .inr ⟨t, rfl, hKind, rfl⟩⟩
  · exact ⟨[], rfl, .inl ⟨rfl, rfl⟩⟩

namespace Reads

theorem mono (hp : p.Reads V) (h : ∀ a used, V a used → W a used) : p.Reads W := by
  intro ts a rest hRun
  obtain ⟨used, hTs, hUsed⟩ := hp _ _ _ hRun
  exact ⟨used, hTs, h a used hUsed⟩

theorem bind (hp : p.Reads W) (hf : ∀ a used, W a used → (f a).Reads fun b more => R b (used ++ more)) :
    (p >>= f).Reads R := by
  intro ts b rest h
  obtain ⟨a, mid, hRun, hMore⟩ := bind_eq_quiet h
  obtain ⟨used, rfl, hUsed⟩ := hp _ _ _ hRun
  obtain ⟨more, rfl, hBoth⟩ := hf a used hUsed _ _ _ hMore
  exact ⟨used ++ more, by simp, hBoth⟩

theorem bind_pure {g : α → β} (hp : p.Reads fun a used => R (g a) used) : (p >>= fun a => pure (g a)).Reads R :=
  hp.bind fun a used h => pure_reads (by simpa using h)

theorem accept_bind {f : Option Token → Parser β} (hNone : (f none).Reads R)
    (hSome : ∀ t, t.kind ∈ kinds → (f (some t)).Reads fun b used => R b (t :: used)) :
    (accept kinds >>= f).Reads R := by
  refine (accept_reads kinds).bind ?_
  rintro found used (⟨rfl, rfl⟩ | ⟨t, rfl, hKind, rfl⟩)
  · exact hNone
  · exact hSome t hKind

theorem expect_bind {f : Token → Parser β} (hf : ∀ t, t.kind = kind → (f t).Reads fun b used => R b (t :: used)) :
    (expect kind c >>= f).Reads R := by
  have hExpect : (expect kind c).Reads fun t used => t.kind = kind ∧ used = [t] :=
    accept_bind refuse_reads fun t ht => pure_reads ⟨mem_singleton.mp ht, rfl⟩
  refine hExpect.bind ?_
  rintro t used ⟨hKind, rfl⟩
  exact hf t hKind

theorem endedBy (hp : p.Reads fun a used => ∀ t, t.kind = kind → W a (used ++ [t])) :
    (endedBy p kind c).Reads W :=
  hp.bind fun _ _ h => expect_bind fun t ht => pure_reads (h t ht)

theorem ifMarked {W : Option α → List Token → Prop} (hNone : W none [])
    (hp : p.Reads fun a used => ∀ m, m.kind ∈ kinds → W (some a) (m :: used)) : (ifMarked kinds p).Reads W :=
  accept_bind (pure_reads hNone) fun m hm => bind_pure (hp.mono fun _ _ h => h m hm)

theorem unlessSees {a : α} (ha : W a []) (hp : p.Reads W) : (unlessSees kinds a p).Reads W := by
  intro ts b rest h
  rcases unlessSees_eq_ok h with ⟨t, more, -, -, rfl, rfl, -⟩ | ⟨t, more, -, -, hRun⟩
  · exact ⟨[], rfl, ha⟩
  · exact hp _ _ _ hRun

/-- A failure is told, so what is made up for in silence did not fail. -/
theorem recover {W : Option α → List Token → Prop} (hO : Orderly p) (hp : p.Reads fun a used => W (some a) used) :
    (recover p).Reads W := by
  intro ts found rest h
  have hTold := (hO ts).2
  rcases hRun : p ts with ⟨a | _ | _ | _, mid, ds⟩ <;> rw [hRun] at hTold <;>
    simp only [Parser.recover, hRun] at h
  · cases h
    exact hp _ _ _ hRun
  · rcases hSkip : synchronize mid with ⟨u | _ | _ | _, left, more⟩ <;> simp only [hSkip] at h
    · rw [Reply.mk.injEq, append_eq_nil_iff] at h
      exact absurd h.2.2.1 (hTold rfl)
    · cases h
    · cases h
    · cases h
  · cases h
  · cases h

end Reads

theorem checkCount_reads (count : Nat) (c : Complaint) :
    (checkCount count c).Reads fun _ used => used = [] ∧ count < 255 := by
  unfold checkCount
  split
  · exact peek_reads.bind fun t _ _ => (complain_reads t c).mono fun _ _ h => h.elim
  next hCount =>
    have hLimit : arityLimit = 255 := rfl
    exact pure_reads ⟨rfl, by omega⟩

theorem items_reads (hp : p.Reads W) (c : Complaint) (n count : Nat) :
    (items p c n count).Reads fun as used => as ≠ [] ∧ Listed W count as used := by
  induction n generalizing count with
  | zero => exact spent_reads
  | succ n ih =>
    refine (checkCount_reads count c).bind fun _ _ hCheck => hp.bind fun first used hUsed => ?_
    obtain ⟨rfl, hCount⟩ := hCheck
    refine .accept_bind (pure_reads ⟨by simp, [(first, used)], rfl, ?_, by simpa using hUsed, hCount⟩)
      fun comma hComma => .bind_pure ((ih (count + 1)).mono fun others more h => ?_)
    · simpa using Separated.one
    · obtain ⟨hNe, parts, rfl, hSep, hParts, hLength⟩ := h
      refine ⟨by simp, (first, used) :: parts, rfl, ?_, forall_mem_cons.mpr ⟨hUsed, hParts⟩, ?_⟩
      · cases parts with
        | nil => exact absurd rfl hNe
        | cons p parts => exact .more (mem_singleton.mp hComma) hSep
      · simp only [length_cons]
        omega

theorem listed_reads (hp : p.Reads W) (c : Complaint) (n : Nat) : (listed p c n).Reads (Listed W 0) :=
  .unlessSees ⟨[], rfl, .none, by simp, by simp⟩ ((items_reads hp c n 0).mono fun _ _ h => h.2)

end Parser

end

/-! ## Expressions -/

/-- The levels that operands and chains of operators have. -/
def Grammar.Part.HasLevel : Part → Prop
  | .operand level => level ≤ 6
  | .chain level _ => level < 6
  | _ => True

theorem assignTo_reads {value : Parser Expr} (hValue : value.Reads (Writes .expression)) {target : Expr}
    {ts : List Token} (hTarget : Writes (.operand 0) target ts) :
    (assignTo value target).Reads fun e used => Writes .expression e (ts ++ used) := by
  refine .accept_bind (pure_reads (by simpa using Part.Writes.plain hTarget)) fun equals hKind => ?_
  refine hValue.bind fun v used hUsed => ?_
  cases target with
  | «variable» name => exact pure_reads (by simpa using Part.Writes.assign hTarget (mem_singleton.mp hKind) hUsed)
  | _ => exact (complain_reads _ _).bind fun _ _ h => h.elim

theorem atom_reads {inner : Parser Expr} (hInner : inner.Reads (Writes .expression)) {t : Token}
    (ht : t.kind ∈ [Kind.false, .true, .number, .string, .identifier, .leftParen]) :
    (atom inner t).Reads fun e used => Writes .primary e (t :: used) := by
  simp only [mem_cons, not_mem_nil, or_false] at ht
  rcases ht with hKind | hKind | hKind | hKind | hKind | hKind <;> simp only [atom, hKind, literalOf]
  · exact pure_reads (.boolean hKind)
  · exact pure_reads (.boolean hKind)
  · exact pure_reads (.number hKind)
  · exact pure_reads (.string hKind)
  · exact pure_reads (.variable hKind)
  · exact .bind_pure (.endedBy (hInner.mono fun _ _ hUsed _ hClosing => .group hKind hUsed hClosing))

/-- Without complaint, the parser of a part of an expression reads what writes its result. -/
theorem partParser_reads (part : Part) (hLevel : part.HasLevel) : (part.parser n).Reads part.Writes := by
  induction n generalizing part with
  | zero => cases part <;> exact spent_reads
  | succ n ih =>
    have hExpression : (expression n).Reads (Writes .expression) := ih .expression trivial
    cases part with
    | expression =>
      rw [parser, expression]
      exact (ih (.operand 0) (Nat.zero_le 6)).bind fun target used hUsed => assignTo_reads hExpression hUsed
    | operand level =>
      rw [parser, operand]
      split
      next hLess =>
        refine (ih (.operand (level + 1)) hLess).bind fun left used hUsed => ?_
        exact (ih (.chain level left) hLess).mono fun _ _ hMore => .joined hLess hUsed hMore
      next hNot =>
        obtain rfl : level = 6 := Nat.le_antisymm hLevel (Nat.le_of_not_lt hNot)
        exact (ih .unary trivial).mono fun _ _ => .single
    | chain level left =>
      rw [parser, chain]
      refine .accept_bind (pure_reads .chainEnd) fun op hKind => ?_
      refine (ih (.operand (level + 1)) hLevel).bind fun right used hUsed => ?_
      refine (ih (.chain level (joinLevel level left op right)) hLevel).mono fun _ _ hMore => ?_
      exact .chainMore (mem_levelKinds.mp hKind) hUsed hMore
    | unary =>
      rw [parser, unary]
      refine .accept_bind ((ih .primary trivial).bind fun callee used hUsed => ?_) fun op hKind => .bind_pure ?_
      · exact (ih (.calls callee) trivial).mono fun _ _ hMore => .called hUsed hMore
      · exact (ih .unary trivial).mono fun _ _ hUsed => .signed (by simpa using hKind) hUsed
    | calls callee =>
      rw [parser, calls]
      refine .accept_bind (pure_reads .callsEnd) fun opening hKind => ?_
      refine (listed_reads hExpression _ n).bind fun arguments used hArguments => .expect_bind fun paren hParen => ?_
      obtain ⟨parts, rfl, hSep, hParts, hCount⟩ := hArguments
      refine (ih (.calls _) trivial).mono fun _ _ hMore => ?_
      exact .callsMore (mem_singleton.mp hKind) hParts (by omega) hSep hParen hMore
    | primary =>
      rw [parser, primary]
      exact .accept_bind refuse_reads fun t ht => atom_reads hExpression ht

theorem expression_reads : (expression n).Reads (Writes .expression) := partParser_reads n .expression trivial

/-! ## Types, parameters and fields -/

theorem typeName_reads : typeName.Reads fun type ts => ∃ t, ts = [t] ∧ WritesType type t := by
  refine .accept_bind ?_ fun t ht => ?_
  · exact peek_reads.bind fun t _ _ => (complain_reads t _).bind fun _ _ h => h.elim
  · simp only [mem_cons, not_mem_nil, or_false] at ht
    rcases ht with hKind | hKind | hKind | hKind <;> simp only [hKind]
    · exact pure_reads ⟨t, rfl, .number hKind⟩
    · exact pure_reads ⟨t, rfl, .string hKind⟩
    · exact pure_reads ⟨t, rfl, .boolean hKind⟩
    · exact pure_reads ⟨t, rfl, .named hKind⟩

theorem typeMark_reads (marks : List Kind) : (typeMark marks).Reads (WritesMark marks) := by
  refine .bind_pure (.ifMarked .absent (typeName_reads.mono ?_))
  rintro type _ ⟨t, rfl, ht⟩ m hm
  exact .present hm ht

theorem parameter_reads : parameter.Reads WritesParam :=
  .expect_bind fun _ hName => .bind_pure ((typeMark_reads _).mono fun _ _ hMark => .mk hName hMark)

theorem structField_reads : structField.Reads WritesField := by
  refine (accept_reads _).bind fun marker used hMarker => .expect_bind fun name hName => ?_
  refine .expect_bind fun colon hColon => .bind_pure (.endedBy (typeName_reads.mono ?_))
  rintro type _ ⟨t, rfl, ht⟩ semicolon hSemicolon
  rcases hMarker with ⟨rfl, rfl⟩ | ⟨m, rfl, hKind, rfl⟩
  · exact .fixed hName hColon ht hSemicolon
  · exact .changing (mem_singleton.mp hKind) hName hColon ht hSemicolon

theorem structFields_reads : (structFields n).Reads (InRow WritesField) := by
  induction n with
  | zero => exact spent_reads
  | succ n ih =>
    refine .unlessSees .nil (structField_reads.bind fun first used hFirst => ?_)
    exact .bind_pure (ih.mono fun _ _ hOthers => .cons hFirst hOthers)

/-! ## Declarations and statements -/

/-- The statement is written by the tokens behind the keyword that it begins with. -/
def Grammar.Clause.WritesBehind (keyword : Token) (clause : Clause) (s : Stmt) (ts : List Token) : Prop :=
  clause.Writes s (keyword :: ts)

theorem structDeclaration_reads (hKeyword : keyword.kind = .struct) :
    (structDeclaration n).Reads (Clause.WritesBehind keyword .declaration) := by
  refine .expect_bind fun name hName => .expect_bind fun left hLeft => ?_
  refine .bind_pure (.endedBy ((structFields_reads n).mono ?_))
  rintro fields _ ⟨parts, rfl, rfl, hParts⟩ right hRight
  exact .struct hKeyword hName hLeft hParts hRight

theorem varDeclaration_reads {isConst : Bool} (hKeyword : keyword.kind = if isConst then .const else .let) :
    (varDeclaration n isConst).Reads (Clause.WritesBehind keyword .declaration) := by
  have hInitial : (ifMarked [.equal] (expression n)).Reads WritesInitial :=
    .ifMarked .absent ((expression_reads n).mono fun _ _ hValue _ hEquals => .present (mem_singleton.mp hEquals) hValue)
  refine .expect_bind fun name hName => (typeMark_reads _).bind fun type used hUsed => ?_
  refine .bind_pure (.endedBy (hInitial.mono fun initial more hMore semicolon hSemicolon => ?_))
  simpa [Clause.WritesBehind] using Clause.Writes.variable hKeyword hName hUsed hMore hSemicolon

theorem functionDeclaration_reads (hBody : block.Reads Writes) (hKeyword : keyword.kind = .fn) :
    (functionDeclaration n block).Reads (Clause.WritesBehind keyword .declaration) := by
  have hParams : (endedBy (listed parameter .tooManyParameters n) .rightParen .parametersClose).Reads fun params ts =>
      ∃ used closing, ts = used ++ [closing] ∧ Listed WritesParam 0 params used ∧ closing.kind = .rightParen :=
    .endedBy ((listed_reads parameter_reads _ n).mono fun _ used h t ht => ⟨used, t, rfl, h, ht⟩)
  refine .expect_bind fun name hName => .expect_bind fun opening hOpening => hParams.bind ?_
  rintro params _ ⟨used, closing, rfl, ⟨ps, rfl, hSep, hPs, hCount⟩, hClosing⟩
  refine (typeMark_reads _).bind fun result mark hMark => .expect_bind fun left hLeft => ?_
  refine .bind_pure (.endedBy (hBody.mono ?_))
  rintro body _ ⟨parts, rfl, rfl, hParts⟩ right hRight
  simpa [Clause.WritesBehind] using Clause.Writes.function hKeyword hName hOpening hPs (by omega) hSep hClosing hMark
    hLeft hParts hRight

theorem keywordDeclaration_reads (hBody : block.Reads Writes)
    (hKeyword : keyword.kind ∈ [Kind.fn, .struct, .let, .const]) :
    (keywordDeclaration n block keyword).Reads (Clause.WritesBehind keyword .declaration) := by
  simp only [mem_cons, not_mem_nil, or_false] at hKeyword
  rcases hKeyword with hKind | hKind | hKind | hKind <;> simp only [keywordDeclaration, hKind]
  · exact functionDeclaration_reads n hBody hKind
  · exact structDeclaration_reads n hKind
  · exact varDeclaration_reads n hKind
  · exact varDeclaration_reads n hKind

/-- No `ELSE` is left behind a statement that lacks one. -/
def Parser.TakesElse (p : Parser Stmt) : Prop :=
  ∀ ts s rest ds, p ts = ⟨.ok s, rest, ds⟩ → lacksElse s = true → ∃ t more, rest = t :: more ∧ t.kind ≠ .else

namespace Parser.TakesElse

theorem pure {s : Stmt} (h : lacksElse s = false) : TakesElse (pure s) := by
  intro ts s' rest ds hRun hLacks
  obtain ⟨rfl, -⟩ := pure_eq_ok hRun
  exact absurd hLacks (by simp [h])

theorem bind {p : Parser α} {f : α → Parser Stmt} (hf : ∀ a, (f a).TakesElse) : TakesElse (p >>= f) := by
  intro ts s rest ds h
  obtain ⟨a, mid, _, ds', -, hMore, -⟩ := bind_eq_ok h
  exact hf a mid s rest ds' hMore

theorem ifStatement (hArm : arm.TakesElse) : TakesElse (ifStatement n arm) := by
  refine bind fun _ => bind fun condition => bind fun yes ts s rest ds h hLacks => ?_
  obtain ⟨no, mid, _, _, hNo, hPure, -⟩ := bind_eq_ok h
  obtain ⟨rfl, rfl, -⟩ := pure_eq_ok hPure
  rcases ifMarked_eq_ok hNo with ⟨m, left, s, -, rfl, rfl, hRun⟩ | ⟨rfl, rfl, -, hNext⟩
  · exact hArm _ _ _ _ hRun hLacks
  · simpa using hNext

theorem of_statement : TakesElse (statement n) := by
  induction n with
  | zero => intro ts s rest ds h; cases h
  | succ n ih =>
    rw [statement]
    refine bind fun found => ?_
    cases found with
    | none => exact bind fun _ => pure rfl
    | some t =>
      unfold keywordStatement
      simp only
      split
      · exact ifStatement n ih
      · exact bind fun _ => bind fun _ => pure rfl
      · exact bind fun _ => pure rfl
      · exact bind fun _ => pure rfl

end Parser.TakesElse

theorem ifStatement_reads (hArm : arm.Reads (Clause.Writes .statement)) (hTakes : arm.TakesElse)
    (hKeyword : keyword.kind = .if) :
    (ifStatement n arm).Reads (Clause.WritesBehind keyword .statement) := by
  have hCondition : (endedBy (expression n) .rightParen .ifClose).Reads fun e ts =>
      ∃ used closing, ts = used ++ [closing] ∧ Writes .expression e used ∧ closing.kind = .rightParen :=
    .endedBy ((expression_reads n).mono fun _ used h t ht => ⟨used, t, rfl, h, ht⟩)
  refine .expect_bind fun opening hOpening => hCondition.bind ?_
  rintro condition _ ⟨used, closing, rfl, hUsed, hClosing⟩ ts s rest h
  obtain ⟨yes, mid, hYes, hMore⟩ := bind_eq_quiet h
  obtain ⟨first, rfl, hFirst⟩ := hArm _ _ _ hYes
  obtain ⟨no, mid', hNo, hPure⟩ := bind_eq_quiet hMore
  obtain ⟨rfl, rfl, -⟩ := pure_eq_ok hPure
  rcases ifMarked_eq_ok hNo with ⟨other, left, s, hKind, rfl, rfl, hRun⟩ | ⟨rfl, rfl, -, -⟩
  · obtain ⟨second, rfl, hSecond⟩ := hArm _ _ _ hRun
    have hElse : other.kind = .else := mem_singleton.mp hKind
    -- A first arm that lacks an `ELSE` would have taken this one.
    have hClosed : lacksElse yes = false := by
      refine Bool.eq_false_iff.mpr fun hLacks => ?_
      obtain ⟨t, more, hMore, hNot⟩ := hTakes _ _ _ _ hYes hLacks
      obtain ⟨rfl, -⟩ := List.cons.inj hMore
      exact hNot hElse
    refine ⟨first ++ other :: second, by simp, ?_⟩
    simpa [Clause.WritesBehind] using
      Clause.Writes.ifElse hKeyword hOpening hUsed hClosing hFirst hClosed hElse hSecond
  · refine ⟨first, rfl, ?_⟩
    simpa [Clause.WritesBehind] using Clause.Writes.ifThen hKeyword hOpening hUsed hClosing hFirst

theorem returnStatement_reads (hKeyword : keyword.kind = .return) :
    (returnStatement n keyword).Reads (Clause.WritesBehind keyword .statement) := by
  refine .bind_pure (.endedBy (.unlessSees (fun _ hSemicolon => .leave hKeyword hSemicolon) (.bind_pure ?_)))
  exact (expression_reads n).mono fun _ _ hUsed _ hSemicolon => .leaveWith hKeyword hUsed hSemicolon

theorem keywordStatement_reads (hArm : arm.Reads (Clause.Writes .statement)) (hTakes : arm.TakesElse)
    (hBody : block.Reads Writes) (hKeyword : keyword.kind ∈ [Kind.if, .loop, .return, .leftBrace]) :
    (keywordStatement n arm block keyword).Reads (Clause.WritesBehind keyword .statement) := by
  simp only [mem_cons, not_mem_nil, or_false] at hKeyword
  rcases hKeyword with hKind | hKind | hKind | hKind <;> simp only [keywordStatement, hKind]
  · exact ifStatement_reads n hArm hTakes hKind
  · refine .expect_bind fun left hLeft => .bind_pure (.endedBy (hBody.mono ?_))
    rintro body _ ⟨parts, rfl, rfl, hParts⟩ right hRight
    exact .loop hKind hLeft hParts hRight
  · exact returnStatement_reads n hKind
  · refine .bind_pure (.endedBy (hBody.mono ?_))
    rintro body _ ⟨parts, rfl, rfl, hParts⟩ right hRight
    exact .block hKind hParts hRight

/-- Without complaint, the parsers of statements read what writes their results. -/
structure StatementsRead (n : Nat) : Prop where
  declaration : (declaration n).Reads fun found ts => ∃ s, found = some s ∧ Clause.Writes .declaration s ts
  statement : (statement n).Reads (Clause.Writes .statement)
  declarations : (declarations n).Reads Writes

theorem declarationsMore_reads {n : Nat}
    (hDeclaration : (declaration n).Reads fun found ts => ∃ s, found = some s ∧ Clause.Writes .declaration s ts)
    (hMore : block.Reads Writes) :
    Parser.Reads (declaration n >>= fun first => block >>= fun others => pure (first.toList ++ others)) Writes := by
  refine hDeclaration.bind ?_
  rintro _ used ⟨s, rfl, hUsed⟩
  exact .bind_pure (hMore.mono fun _ _ hOthers => InRow.cons hUsed hOthers)

theorem writes_nil : Writes [] [] := InRow.nil

theorem statements_read : StatementsRead n := by
  induction n with
  | zero => constructor <;> exact spent_reads
  | succ n ih =>
    constructor
    · rw [declaration]
      refine .recover (declarationBody_orderly n) (.accept_bind ?_ fun t hKind => ?_)
      · exact ih.statement.mono fun s _ hUsed => ⟨s, rfl, .plain hUsed⟩
      · exact (keywordDeclaration_reads n ih.declarations hKind).mono fun s _ hUsed => ⟨s, rfl, hUsed⟩
    · rw [statement]
      refine .accept_bind (.bind_pure (.endedBy ?_)) fun t hKind => ?_
      · exact (expression_reads n).mono fun _ _ hUsed _ hSemicolon => .expression hUsed hSemicolon
      · exact keywordStatement_reads n ih.statement (.of_statement n) ih.declarations hKind
    · rw [declarations]
      exact .unlessSees writes_nil (declarationsMore_reads ih.declaration ih.declarations)

/-- Without complaint, the parser of programs reads the declarations that it returns. -/
theorem program_reads : (program n).Reads Writes := by
  induction n with
  | zero => exact spent_reads
  | succ n ih => exact .unlessSees writes_nil (declarationsMore_reads (statements_read n).declaration ih)

end Scriptling.Braced
