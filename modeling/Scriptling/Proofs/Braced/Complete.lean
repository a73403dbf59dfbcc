import Scriptling.Proofs.Braced.Writing
import Scriptling.Proofs.Braced.Parser

/-!
# What is well written is parsed without complaint

A parser that is given the tokens of a tree, and behind them a token that cannot belong to it, returns the
tree, leaves what is behind and has nothing to complain about. The induction is on the written form; it does
not count fuel, since running out of it is allowed for, and ruled out once the whole program is parsed.
-/

namespace Scriptling.Braced

open List

variable {P : Kind → Prop} {t : Token} {ts all rest : List Token} {part : Grammar.Part} {e : Expr} {type : TypeMark}
  {clause : Grammar.Clause} {s : Stmt} {kind : Kind} {marks : List Kind}

/-- The tokens begin with one of such a kind. -/
def Begins (P : Kind → Prop) (ts : List Token) : Prop := ∃ t more, ts = t :: more ∧ P t.kind

theorem Begins.cons (h : P t.kind) (ts : List Token) : Begins P (t :: ts) := ⟨t, ts, rfl, h⟩

theorem Begins.mono {Q : Kind → Prop} (h : Begins P ts) (hPQ : ∀ k, P k → Q k) : Begins Q ts := by
  obtain ⟨t, more, rfl, ht⟩ := h
  exact ⟨t, more, rfl, hPQ _ ht⟩

theorem Begins.append (h : Begins P ts) (us : List Token) : Begins P (ts ++ us) := by
  obtain ⟨t, more, rfl, ht⟩ := h
  exact ⟨t, more ++ us, rfl, ht⟩

namespace Parser

variable {α β : Type} {p : Parser α} {ts rest : List Token} {a : α} {kinds : List Kind} {t : Token}

/-- The parser gives this reply to these tokens, if it has fuel enough. -/
def Replies (p : Parser α) (ts : List Token) (r : Reply α) : Prop := p ts = r ∨ (p ts).ending = .outOfFuel

theorem replies_bind_spent (h : (p ts).ending = .outOfFuel) (f : α → Parser β) (r : Reply β) :
    Replies (p >>= f) ts r := by
  rcases hRun : p ts with ⟨_ | _ | _ | _, left, ds⟩ <;> rw [hRun] at h <;> cases h
  exact .inr (by rw [bind_of_outOfFuel hRun])

theorem Replies.bind {f : α → Parser β} {mid : List Token} {x : Ending β} {ds ds' : List Diagnostic}
    (hp : Replies p ts ⟨.ok a, mid, ds⟩) (hf : Replies (f a) mid ⟨x, rest, ds'⟩) :
    Replies (p >>= f) ts ⟨x, rest, ds ++ ds'⟩ := by
  rcases hp with hOk | hSpent
  · rw [Replies, bind_of_ok hOk]
    rcases hf with hNext | hSpent
    · exact .inl (by rw [hNext])
    · exact .inr hSpent
  · exact replies_bind_spent hSpent f _

/-- A parser returns this result and leaves these tokens without complaint, if it has fuel enough. -/
def Yields (p : Parser α) (ts : List Token) (a : α) (rest : List Token) : Prop := Replies p ts ⟨.ok a, rest, []⟩

theorem spent_yields (ts : List Token) (a : α) (rest : List Token) : Yields spent ts a rest := .inr rfl

theorem pure_yields (a : α) (ts : List Token) : Yields (pure a) ts a ts := .inl rfl

theorem Yields.bind {f : α → Parser β} {mid : List Token} {b : β} (hp : Yields p ts a mid)
    (hf : Yields (f a) mid b rest) : Yields (p >>= f) ts b rest :=
  Replies.bind hp hf

/-- What is made of a result is returned. -/
theorem Yields.returned {f : α → β} (hp : Yields p ts a rest) : Yields (do return f (← p)) ts (f a) rest :=
  hp.bind (pure_yields (f a) rest)

theorem accept_yields_some (h : t.kind ∈ kinds) (ts : List Token) : Yields (accept kinds) (t :: ts) (some t) ts := by
  refine .inl ?_
  simp [accept, h]

theorem accept_yields_none (h : Begins (· ∉ kinds) ts) : Yields (accept kinds) ts none ts := by
  obtain ⟨t, more, rfl, ht⟩ := h
  refine .inl ?_
  simp [accept, ht]

theorem expect_yields (h : t.kind = kind) (c : Complaint) (ts : List Token) :
    Yields (expect kind c) (t :: ts) t ts :=
  (accept_yields_some (by simp [h]) ts).bind (pure_yields _ _)

theorem Yields.endedBy (hp : Yields p ts a (t :: rest)) (h : t.kind = kind) (c : Complaint) :
    Yields (endedBy p kind c) ts a rest :=
  hp.bind ((expect_yields h c rest).bind (pure_yields a rest))

theorem Yields.ifMarked (h : t.kind ∈ marks) (hp : Yields p ts a rest) :
    Yields (ifMarked marks p) (t :: ts) (some a) rest :=
  (accept_yields_some h ts).bind (hp.bind (pure_yields (some a) rest))

theorem ifMarked_yields_none (h : Begins (· ∉ marks) ts) (p : Parser α) :
    Yields (ifMarked marks p) ts none ts :=
  (accept_yields_none h).bind (pure_yields none ts)

theorem Yields.unlessSees {b : α} (hp : Yields p ts b rest) (h : Begins (· ∉ kinds) ts) :
    Yields (unlessSees kinds a p) ts b rest := by
  obtain ⟨t, more, rfl, ht⟩ := h
  rw [Yields, Replies, unlessSees_of_notMem ht]
  exact hp

theorem unlessSees_yields (h : t.kind ∈ kinds) (a : α) (p : Parser α) (ts : List Token) :
    Yields (unlessSees kinds a p) (t :: ts) a (t :: ts) :=
  .inl (unlessSees_of_mem h a p ts)

theorem Yields.recover (hp : Yields p ts a rest) : Yields (recover p) ts (some a) rest := by
  rcases hp with hOk | hSpent
  · exact .inl (by simp [Parser.recover, hOk])
  · exact .inr (by simp [Parser.recover, hSpent])

theorem checkCount_yields {count : Nat} (h : count < 255) (c : Complaint) (ts : List Token) :
    Yields (checkCount count c) ts () ts := by
  have hLimit : ¬ count ≥ arityLimit := Nat.not_le.mpr h
  rw [checkCount, if_neg hLimit]
  exact pure_yields () ts

end Parser

open Braced.Parser Grammar

variable {α : Type}

/-! ## Lists of items -/

theorem Grammar.Separated.begins {others : List (List Token)} (h : Separated (ts :: others) all) (hts : Begins P ts) :
    Begins P all := by
  cases h with
  | one => exact hts
  | more => exact hts.append _

/-- Items with commas between them are read one by one; a closing parenthesis follows. -/
theorem items_yields {item : Parser α} {parts : List (α × List Token)}
    (hItem : ∀ p ∈ parts, ∀ rest, Begins (fun k => k = .comma ∨ k = .rightParen) rest →
      Yields item (p.2 ++ rest) p.1 rest)
    (hNe : parts ≠ []) {count : Nat} (hCount : count + parts.length ≤ 255) (hSep : Separated (parts.map Prod.snd) all)
    (c : Complaint) (n : Nat) {paren : Token} (hParen : paren.kind = .rightParen) (rest : List Token) :
    Yields (items item c n count) (all ++ paren :: rest) (parts.map Prod.fst) (paren :: rest) := by
  induction parts generalizing n count all with
  | nil => exact absurd rfl hNe
  | cons p parts ih =>
    cases n with
    | zero => exact spent_yields ..
    | succ n =>
      refine (checkCount_yields (by simp at hCount; omega) c _).bind ?_
      cases parts with
      | nil =>
        cases hSep
        refine (hItem p (by simp) _ (.cons (.inr hParen) rest)).bind ?_
        have hNoComma : Begins (· ∉ [Kind.comma]) (paren :: rest) := .cons (by simp [hParen]) rest
        exact (accept_yields_none hNoComma).bind (pure_yields _ _)
      | cons q parts =>
        cases hSep with
        | @more _ _ all _ comma hComma hSep =>
          rw [append_assoc]
          refine (hItem p (by simp) _ (.cons (.inl hComma) _)).bind ?_
          refine (accept_yields_some (by simp [hComma]) _).bind ?_
          have hMore : Yields (items item c n (count + 1)) (all ++ paren :: rest)
              ((q :: parts).map Prod.fst) (paren :: rest) :=
            ih (fun r hr => hItem r (by simp [hr])) (by simp) (by simp at hCount ⊢; omega)
              hSep n
          exact hMore.returned

theorem listed_yields {item : Parser α} {parts : List (α × List Token)}
    (hItem : ∀ p ∈ parts, ∀ rest, Begins (fun k => k = .comma ∨ k = .rightParen) rest →
      Yields item (p.2 ++ rest) p.1 rest)
    (hBegins : ∀ p ∈ parts, Begins (· ≠ .rightParen) p.2) (hCount : parts.length ≤ 255)
    (hSep : Separated (parts.map Prod.snd) all) (c : Complaint) (n : Nat) {paren : Token}
    (hParen : paren.kind = .rightParen) (rest : List Token) :
    Yields (listed item c n) (all ++ paren :: rest) (parts.map Prod.fst) (paren :: rest) := by
  cases parts with
  | nil =>
    cases hSep
    exact unlessSees_yields (by simp [hParen]) [] _ rest
  | cons p parts =>
    have hItems : Yields (items item c n 0) (all ++ paren :: rest) ((p :: parts).map Prod.fst)
        (paren :: rest) := items_yields hItem (by simp) (by omega) hSep c n hParen rest
    have hFirst : Begins (· ≠ .rightParen) all := hSep.begins (hBegins p (by simp))
    exact hItems.unlessSees ((hFirst.mono fun k hk => by simpa using hk).append _)

/-! ## Expressions -/

/-- The kinds of token that cannot belong to a part of an expression any more. -/
def Grammar.Part.Follow : Part → Kind → Prop
  | .expression, k => k ≠ .leftParen ∧ k ≠ .equal ∧ k.level? = none
  | .operand level, k | .chain level _, k => k ≠ .leftParen ∧ ∀ l, k.level? = some l → l < level
  | .unary, k | .calls _, k => k ≠ .leftParen
  | .primary, _ => True

/-- The kinds of token with which an expression begins. -/
def startKinds : List Kind := [.bang, .minus, .false, .true, .number, .string, .identifier, .leftParen]

/-- Expressions, operands, and unary and primary expressions begin with such a token. -/
def Grammar.Part.Starts : Part → List Token → Prop
  | .chain .., _ | .calls _, _ => True
  | _, ts => Begins (· ∈ startKinds) ts

theorem Grammar.Part.Writes.starts (h : part.Writes e ts) : part.Starts ts := by
  induction h with
  | assign _ _ _ ih _ | joined _ _ _ ih _ | called _ _ ih _ => exact ih.append _
  | plain _ ih | single _ ih => exact ih
  | chainEnd | chainMore | callsEnd | callsMore => trivial
  | signed hop => exact .cons (by rcases hop with hop | hop <;> simp [startKinds, hop]) _
  | @boolean t b ht => exact .cons (by cases b <;> simp_all [startKinds]) _
  | number ht | string ht | «variable» ht | group ht => exact .cons (by simp [startKinds, ht]) _

theorem Grammar.Part.Follow.mono {level k : Nat} (h : Follow (.operand level) kind)
    (hk : level ≤ k) : Follow (.operand k) kind :=
  ⟨h.1, fun l hl => Nat.lt_of_lt_of_le (h.2 l hl) hk⟩

/-- A chain of operators, or what is behind it, cannot belong to the operand before it. -/
theorem Grammar.Part.Writes.chain_begins {level : Nat} {l : Expr} (h : Part.Writes (.chain level l) e ts)
    (hRest : Begins (Follow (.operand level)) rest) : Begins (Follow (.operand (level + 1))) (ts ++ rest) := by
  cases h with
  | chainEnd => exact hRest.mono fun _ hk => hk.mono (Nat.le_succ level)
  | @chainMore _ _ _ _ op us vs hop =>
    refine .cons ⟨?_, fun l hl => ?_⟩ _
    · intro hParen
      simp [hParen, Kind.level?] at hop
    · rw [hop] at hl
      cases hl
      exact Nat.lt_succ_self level

theorem Grammar.Part.Writes.calls_begins {c : Expr} (h : Part.Writes (.calls c) e ts)
    (hRest : Begins (Follow .unary) rest) : Begins (Follow .primary) (ts ++ rest) := by
  cases h with
  | callsEnd => exact hRest.mono fun _ _ => trivial
  | callsMore => exact .cons trivial _

theorem assignTo_yields_target {value : Parser Expr} {target : Expr} (h : Begins (Part.Follow .expression) rest) :
    Yields (assignTo value target) rest target rest := by
  have hNoEqual : Begins (· ∉ [Kind.equal]) rest := h.mono fun k hk => by simpa using hk.2.1
  exact (accept_yields_none hNoEqual).bind (pure_yields _ _)

/-- It is enough to look at parsers that have some fuel. -/
theorem partParser_yields (h : ∀ n, Yields (part.parser (n + 1)) ts e rest) (n : Nat) :
    Yields (part.parser n) ts e rest := by
  cases n with
  | zero => cases part <;> exact spent_yields ..
  | succ n => exact h n

/-- **A well written part of an expression is parsed to its tree.** -/
theorem Grammar.Part.Writes.yields (h : part.Writes e ts) (n : Nat) (rest : List Token)
    (hRest : Begins part.Follow rest) : Yields (part.parser n) (ts ++ rest) e rest := by
  -- Parsers without fuel are told apart once, for all parts.
  induction h generalizing n rest with (refine partParser_yields (fun n => ?_) n; rw [Part.parser])
  | @assign name equals v ts us hName hEquals hv ihName ihv =>
    rw [Braced.expression, append_assoc]
    have hFollow : Begins (Follow (.operand 0)) (equals :: (us ++ rest)) :=
      .cons ⟨by simp [hEquals], by simp [hEquals, Kind.level?]⟩ _
    refine (ihName n _ hFollow).bind ?_
    refine (accept_yields_some (by simp [hEquals]) _).bind ?_
    exact (ihv n rest hRest).returned
  | @plain e ts h ih =>
    rw [Braced.expression]
    have hFollow : Begins (Follow (.operand 0)) rest :=
      hRest.mono fun k hk => ⟨hk.1, fun l hl => by simp [hk.2.2] at hl⟩
    exact (ih n rest hFollow).bind (assignTo_yields_target hRest)
  | @joined level l e ts us hLess hl hc ihl ihc =>
    rw [Braced.operand, if_pos (show level < topLevel from hLess), append_assoc]
    exact (ihl n _ (hc.chain_begins hRest)).bind (ihc n rest hRest)
  | @single e ts h ih =>
    rw [Braced.operand, if_neg (show ¬ 6 < topLevel by decide)]
    exact ih n rest (hRest.mono fun k hk => hk.1)
  | @chainEnd level l =>
    rw [Braced.chain]
    have hNoOperator : Begins (· ∉ levelKinds level) rest := hRest.mono fun k hk hMem =>
      Nat.lt_irrefl level (hk.2 level (mem_levelKinds.mp hMem))
    exact (accept_yields_none hNoOperator).bind (pure_yields _ _)
  | @chainMore level l r e op ts us hop hr hc ihr ihc =>
    rw [Braced.chain, cons_append, append_assoc]
    refine (accept_yields_some (mem_levelKinds.mpr hop) _).bind ?_
    exact (ihr n _ (hc.chain_begins hRest)).bind (ihc n rest hRest)
  | @signed op e ts hop h ih =>
    rw [Braced.unary]
    refine (accept_yields_some (by rcases hop with hop | hop <;> simp [hop]) _).bind ?_
    exact (ih n rest hRest).returned
  | @called c e ts us hp hc ihp ihc =>
    rw [Braced.unary, append_assoc]
    -- The first token of a primary expression decides against a sign.
    have hNoSign : Begins (· ∉ [Kind.bang, .minus]) ts := by
      cases hp with
      | @boolean t b ht => exact .cons (by cases b <;> simp [ht]) _
      | number ht | string ht | «variable» ht | group ht => exact .cons (by simp [ht]) _
    refine (accept_yields_none (hNoSign.append _)).bind ?_
    exact (ihp n _ (hc.calls_begins hRest)).bind (ihc n rest hRest)
  | @callsEnd c =>
    rw [Braced.calls]
    have hNoParen : Begins (· ∉ [Kind.leftParen]) rest := hRest.mono fun k hk => by simpa [Follow] using hk
    exact (accept_yields_none hNoParen).bind (pure_yields _ _)
  | @callsMore c e opening paren parts ts us hOpening hParts hCount hSep hParen hc ihParts ihc =>
    rw [Braced.calls, cons_append, append_assoc]
    refine (accept_yields_some (by simp [hOpening]) _).bind ?_
    have hItem : ∀ p ∈ parts, ∀ rest, Begins (fun k => k = .comma ∨ k = .rightParen) rest →
        Yields (Braced.expression n) (p.2 ++ rest) p.1 rest := by
      intro p hp rest hNext
      refine ihParts p hp n rest (hNext.mono fun k hk => ?_)
      rcases hk with rfl | rfl <;> exact ⟨by decide, by decide, rfl⟩
    have hBegins : ∀ p ∈ parts, Begins (· ≠ .rightParen) p.2 := fun p hp =>
      (hParts p hp).starts.mono fun k hk hEq => by simp [hEq, startKinds] at hk
    refine (listed_yields hItem hBegins hCount hSep _ n hParen (us ++ rest)).bind ?_
    exact (expect_yields hParen _ _).bind (ihc n rest hRest)
  | @boolean t b ht =>
    rw [Braced.primary]
    refine (accept_yields_some (by cases b <;> simp [ht]) rest).bind ?_
    cases b <;> simp only [atom, ht] <;> exact pure_yields _ _
  | number ht | string ht | «variable» ht =>
    rw [Braced.primary]
    refine (accept_yields_some (by simp [ht]) rest).bind ?_
    simp only [atom, ht, literalOf]
    exact pure_yields _ _
  | @group opening closing e ts hOpening h hClosing ih =>
    rw [Braced.primary, cons_append, append_assoc]
    refine (accept_yields_some (by simp [hOpening]) _).bind ?_
    simp only [atom, hOpening]
    have hFollow : Begins (Follow .expression) (closing :: rest) :=
      .cons ⟨by simp [hClosing], by simp [hClosing], by simp [hClosing, Kind.level?]⟩ _
    exact ((ih n _ hFollow).endedBy hClosing _).returned

theorem expression_yields (h : Part.Writes .expression e ts) (n : Nat) (ht : t.kind ∈ [Kind.rightParen, .semicolon])
    (rest : List Token) : Yields (expression n) (ts ++ t :: rest) e (t :: rest) := by
  refine h.yields n (t :: rest) (.cons ?_ rest)
  simp only [mem_cons, not_mem_nil, or_false] at ht
  rcases ht with ht | ht <;> rw [ht] <;> exact ⟨by decide, by decide, rfl⟩

/-! ## Types, parameters and fields -/

theorem typeName_yields (h : WritesType type t) (rest : List Token) : Yields typeName (t :: rest) type rest := by
  cases h with
  | number ht | string ht | boolean ht | named ht =>
    refine (accept_yields_some (by simp [ht]) rest).bind ?_
    simp only [ht]
    exact pure_yields _ _

theorem typeMark_yields (h : WritesMark marks type ts) (hRest : Begins (· ∉ marks) rest) :
    Yields (typeMark marks) (ts ++ rest) type rest := by
  cases h with
  | absent => exact (ifMarked_yields_none hRest typeName).returned
  | present hm ht => exact ((typeName_yields ht rest).ifMarked hm).returned

theorem parameter_yields {p : Param} (h : WritesParam p ts)
    (hRest : Begins (fun k => k = .comma ∨ k = .rightParen) rest) : Yields parameter (ts ++ rest) p rest := by
  cases h with
  | mk hName hMark =>
    have hNoColon : Begins (· ∉ [Kind.colon]) rest := hRest.mono fun k hk => by rcases hk with rfl | rfl <;> decide
    exact (expect_yields hName _ _).bind (typeMark_yields hMark hNoColon).returned

theorem Grammar.WritesParam.begins {p : Param} (h : WritesParam p ts) : Begins (· ≠ .rightParen) ts := by
  cases h with
  | mk hName => exact .cons (by simp [hName]) _

theorem parameters_yields {ps : List (Param × List Token)} (hPs : ∀ p ∈ ps, WritesParam p.1 p.2)
    (hCount : ps.length ≤ 255) (hSep : Separated (ps.map Prod.snd) ts) (n : Nat) {closing : Token}
    (hClosing : closing.kind = .rightParen) (rest : List Token) :
    Yields (listed parameter .tooManyParameters n) (ts ++ closing :: rest) (ps.map Prod.fst) (closing :: rest) :=
  listed_yields (fun p hp _ => parameter_yields (hPs p hp)) (fun p hp => (hPs p hp).begins) hCount hSep _ n hClosing
    rest

theorem structField_yields {f : Field} (h : WritesField f ts) (rest : List Token) :
    Yields structField (ts ++ rest) f rest := by
  cases h with
  | fixed hName hColon hType hSemicolon =>
    refine (accept_yields_none (.cons (by simp [hName]) _)).bind ?_
    refine (expect_yields hName _ _).bind ((expect_yields hColon _ _).bind ?_)
    exact ((typeName_yields hType _).endedBy hSemicolon _).returned
  | changing hMarker hName hColon hType hSemicolon =>
    refine (accept_yields_some (by simp [hMarker]) _).bind ?_
    refine (expect_yields hName _ _).bind ((expect_yields hColon _ _).bind ?_)
    exact ((typeName_yields hType _).endedBy hSemicolon _).returned

theorem Grammar.WritesField.begins {f : Field} (h : WritesField f ts) :
    Begins (· ∉ [Kind.rightBrace, .endOfFile]) ts := by
  cases h with
  | fixed hName => exact .cons (by simp [hName]) _
  | changing hMarker => exact .cons (by simp [hMarker]) _

theorem structFields_yields {parts : List (Field × List Token)}
    (h : ∀ p ∈ parts, WritesField p.1 p.2) (n : Nat) {right : Token}
    (hRight : right.kind = .rightBrace) (rest : List Token) :
    Yields (structFields n) ((parts.map Prod.snd).flatten ++ right :: rest) (parts.map Prod.fst)
      (right :: rest) := by
  induction parts generalizing n with
  | nil =>
    cases n with
    | zero => exact spent_yields ..
    | succ n => exact unlessSees_yields (by simp [hRight]) [] _ rest
  | cons p parts ih =>
    cases n with
    | zero => exact spent_yields ..
    | succ n =>
      have hField : WritesField p.1 p.2 := h p (by simp)
      have hOthers := ih (fun q hq => h q (by simp [hq])) n
      simp only [map_cons, flatten_cons, append_assoc]
      refine Yields.unlessSees ?_ (hField.begins.append _)
      exact (structField_yields hField _).bind hOthers.returned

/-! ## Declarations and statements -/

/-- The kinds of token with which a declaration or a statement begins if it is not an expression. -/
def Grammar.Clause.keywords : Clause → List Kind
  | .declaration => [.fn, .struct, .let, .const, .if, .loop, .return, .leftBrace]
  | .statement => [.if, .loop, .return, .leftBrace]

theorem Grammar.Clause.Writes.starts (h : clause.Writes s ts) : Begins (· ∈ clause.keywords ++ startKinds) ts := by
  induction h with
  | function hKind | struct hKind | ifThen hKind | ifElse hKind | loop hKind | leave hKind
  | leaveWith hKind | block hKind => exact .cons (by simp [keywords, hKind]) _
  | @«variable» _ _ _ isConst _ _ _ _ hKind => exact .cons (by cases isConst <;> simp [keywords, hKind]) _
  | plain _ ih => exact ih.mono fun k hk => by simp_all [keywords]
  | expression he => exact (he.starts.mono fun k hk => mem_append_right _ hk).append _

theorem Grammar.Clause.Writes.begins (h : clause.Writes s ts) :
    Begins (fun k => k ∉ [Kind.rightBrace, .endOfFile] ∧ k ≠ .else) ts := by
  have hKinds : ∀ k ∈ clause.keywords ++ startKinds, k ∉ [Kind.rightBrace, .endOfFile] ∧ k ≠ .else := by
    cases clause <;> decide
  exact h.starts.mono hKinds

/-- What completes a clause is parsed to its tree; a statement that lacks an `ELSE` is not followed by one. -/
def Grammar.Clause.Parsed : Clause → Stmt → List Token → Prop
  | .declaration, s, ts => ∀ n rest, Begins (· ≠ .else) rest → Yields (Braced.declaration n) (ts ++ rest) (some s) rest
  | .statement, s, ts => ∀ n rest, Begins (fun k => lacksElse s = true → k ≠ .else) rest →
      Yields (Braced.statement n) (ts ++ rest) s rest

/-- Both loops over declarations, up to a closing brace and up to the end. -/
theorem declarationLoop_yields {p : Nat → Parser (List Stmt)} {kinds : List Kind}
    (hZero : p 0 = spent) (hSucc : ∀ n, p (n + 1) = unlessSees kinds [] (do
      let first ← declaration n
      return first.toList ++ (← p n)))
    (hKinds : ∀ k ∈ kinds, k ∈ [Kind.rightBrace, .endOfFile])
    {parts : List (Stmt × List Token)} (hParts : ∀ q ∈ parts, Clause.Writes .declaration q.1 q.2)
    (hParsed : ∀ q ∈ parts, Clause.Parsed .declaration q.1 q.2) (n : Nat) {closing : Token}
    (hClosing : closing.kind ∈ kinds) (rest : List Token) :
    Yields (p n) ((parts.map Prod.snd).flatten ++ closing :: rest) (parts.map Prod.fst)
      (closing :: rest) := by
  induction parts generalizing n with
  | nil =>
    cases n with
    | zero => exact hZero ▸ spent_yields ..
    | succ n => exact hSucc n ▸ unlessSees_yields hClosing [] _ rest
  | cons q parts ih =>
    cases n with
    | zero => exact hZero ▸ spent_yields ..
    | succ n =>
      rw [hSucc]
      obtain ⟨hWrites, hMore⟩ := forall_mem_cons.mp hParts
      obtain ⟨hHead, hTail⟩ := forall_mem_cons.mp hParsed
      have hOthers := ih hMore hTail n
      simp only [map_cons, flatten_cons, append_assoc]
      have hBegins : Begins (· ∉ kinds) q.2 := hWrites.begins.mono fun k hk hMem => hk.1 (hKinds k hMem)
      -- What follows is another declaration or the closing token; neither is an `ELSE`.
      have hNoElse : Begins (· ≠ .else) ((parts.map Prod.snd).flatten ++ closing :: rest) := by
        cases parts with
        | nil =>
          refine .cons (fun hElse => ?_) rest
          have hMem := hKinds _ hClosing
          simp [hElse] at hMem
        | cons r parts =>
          rw [map_cons, flatten_cons, append_assoc]
          exact ((hMore r (by simp)).begins.mono fun k hk => hk.2).append _
      refine Yields.unlessSees ?_ (hBegins.append _)
      exact (hHead n _ hNoElse).bind hOthers.returned

theorem blockBody_yields {parts : List (Stmt × List Token)}
    (hParts : ∀ q ∈ parts, Clause.Writes .declaration q.1 q.2)
    (hParsed : ∀ q ∈ parts, Clause.Parsed .declaration q.1 q.2) (n : Nat) {right : Token}
    (hRight : right.kind = .rightBrace) (rest : List Token) :
    Yields (blockBody (declarations n)) ((parts.map Prod.snd).flatten ++ right :: rest)
      (parts.map Prod.fst) rest :=
  Yields.endedBy (declarationLoop_yields (by rw [declarations]) (fun n => by rw [declarations])
    (fun _ hk => hk) hParts hParsed n (by simp [hRight]) rest) hRight _

theorem varDeclaration_yields {name semicolon : Token} {initial : Option Expr} {us : List Token}
    (hName : name.kind = .identifier) (hType : WritesMark [.colon] type ts) (hInitial : WritesInitial initial us)
    (hSemicolon : semicolon.kind = .semicolon) (n : Nat) (isConst : Bool) (rest : List Token) :
    Yields (varDeclaration n isConst) (name :: (ts ++ (us ++ semicolon :: rest)))
      (.var name.lexeme type initial isConst) rest := by
  refine (expect_yields hName _ _).bind ?_
  cases hInitial with
  | absent =>
    refine (typeMark_yields hType (.cons (by simp [hSemicolon]) _)).bind ?_
    have hNone : Yields (ifMarked [.equal] (expression n)) (semicolon :: rest) none
      (semicolon :: rest) := ifMarked_yields_none (.cons (by simp [hSemicolon]) _) _
    exact (hNone.endedBy hSemicolon _).returned
  | @present equals e us hEquals he =>
    refine (typeMark_yields hType (.cons (by simp [hEquals]) _)).bind ?_
    have hSome : Yields (ifMarked [.equal] (expression n)) (equals :: (us ++ semicolon :: rest))
        (some e) (semicolon :: rest) :=
      (expression_yields he n (by simp [hSemicolon]) rest).ifMarked (by simp [hEquals])
    exact (hSome.endedBy hSemicolon _).returned

/-- A declaration that its keyword tells from a statement. -/
theorem declaration_yields (ht : t.kind ∈ [Kind.fn, .struct, .let, .const]) (n : Nat)
    (h : ∀ m, Yields (keywordDeclaration m (declarations m) t) ts s rest) :
    Yields (declaration n) (t :: ts) (some s) rest := by
  cases n with
  | zero => rw [declaration]; exact spent_yields ..
  | succ n =>
    rw [declaration]
    exact ((accept_yields_some ht ts).bind (h n)).recover

/-- A statement that its keyword tells from an expression. -/
theorem statement_yields (ht : t.kind ∈ [Kind.if, .loop, .return, .leftBrace]) (n : Nat)
    (h : ∀ m, Yields (keywordStatement m (statement m) (declarations m) t) ts s rest) :
    Yields (statement n) (t :: ts) s rest := by
  cases n with
  | zero => rw [statement]; exact spent_yields ..
  | succ n =>
    rw [statement]
    exact (accept_yields_some ht ts).bind (h n)

/-- **A well written declaration or statement is parsed to its tree.** -/
theorem Grammar.Clause.Writes.parsed (h : clause.Writes s ts) : clause.Parsed s ts := by
  induction h with
    (intro n rest hRest; try simp only [append_assoc, cons_append, nil_append])
  | @function fn name opening closing left right ps body result ts us hFn hName hOpening hPs hCount
      hSep hClosing hResult hLeft hBody hRight ih =>
      refine declaration_yields (by simp [hFn]) n fun m => ?_
      simp only [keywordDeclaration, hFn]
      refine (expect_yields hName _ _).bind ((expect_yields hOpening _ _).bind ?_)
      refine ((parameters_yields hPs hCount hSep m hClosing _).endedBy hClosing _).bind ?_
      refine (typeMark_yields hResult (.cons (by simp [hLeft]) _)).bind ?_
      refine (expect_yields hLeft _ _).bind ?_
      exact (blockBody_yields hBody ih m hRight rest).returned
  | @struct keyword name left right fields hKind hName hLeft hFields hRight =>
    refine declaration_yields (by simp [hKind]) n fun m => ?_
    simp only [keywordDeclaration, hKind]
    refine (expect_yields hName _ _).bind ((expect_yields hLeft _ _).bind ?_)
    exact ((structFields_yields hFields m hRight rest).endedBy hRight _).returned
  | @«variable» keyword name semicolon isConst type initial ts us hKind hName hType hInitial
      hSemicolon =>
      refine declaration_yields (by cases isConst <;> simp [hKind]) n fun m => ?_
      cases isConst <;> simp only [keywordDeclaration, hKind] <;>
        exact varDeclaration_yields hName hType hInitial hSemicolon m _ rest
  | @plain s ts h ih =>
    cases n with
    | zero => rw [Braced.declaration]; exact spent_yields ..
    | succ n =>
      rw [Braced.declaration]
      have hKinds : ∀ k ∈ keywords .statement ++ startKinds, k ∉ [Kind.fn, .struct, .let, .const] := by decide
      have hNone := accept_yields_none ((h.starts.mono hKinds).append rest)
      exact (hNone.bind (ih n rest (hRest.mono fun k hk _ => hk))).recover
  | @ifThen keyword opening closing c yes ts us hKind hOpening hc hClosing hYes ih =>
    refine statement_yields (by simp [hKind]) n fun m => ?_
    simp only [keywordStatement, hKind]
    refine (expect_yields hOpening _ _).bind ?_
    refine ((expression_yields hc m (by simp [hClosing]) _).endedBy hClosing _).bind ?_
    have hNext : Begins (· ≠ .else) rest := hRest.mono fun k hk => hk rfl
    refine (ih m rest (hNext.mono fun k hk _ => hk)).bind ?_
    have hNone : Yields (ifMarked [.else] (Braced.statement m)) rest none rest :=
      ifMarked_yields_none (hNext.mono fun k hk => by simpa using hk) _
    exact hNone.returned
  | @ifElse keyword opening closing other c yes no ts us vs hKind hOpening hc hClosing hYes hClosed
      hOther hNo ihYes ihNo =>
      refine statement_yields (by simp [hKind]) n fun m => ?_
      simp only [keywordStatement, hKind]
      refine (expect_yields hOpening _ _).bind ?_
      refine ((expression_yields hc m (by simp [hClosing]) _).endedBy hClosing _).bind ?_
      -- The first arm lacks no `ELSE`, so the one behind it may follow.
      refine (ihYes m _ (.cons (by simp [hClosed]) _)).bind ?_
      have hSome : Yields (ifMarked [.else] (Braced.statement m)) (other :: (vs ++ rest)) (some no)
        rest := (ihNo m rest hRest).ifMarked (by simp [hOther])
      exact hSome.returned
  | @loop keyword left right body hKind hLeft hBody hRight ih =>
    refine statement_yields (by simp [hKind]) n fun m => ?_
    simp only [keywordStatement, hKind]
    refine (expect_yields hLeft _ _).bind ?_
    exact (blockBody_yields hBody ih m hRight rest).returned
  | @leave keyword semicolon hKind hSemicolon =>
    refine statement_yields (by simp [hKind]) n fun m => ?_
    simp only [keywordStatement, hKind]
    have hNone : Yields (unlessSees [.semicolon] none (some <$> Braced.expression m))
      (semicolon :: rest) none (semicolon :: rest) := unlessSees_yields (by simp [hSemicolon]) _ _ _
    exact (hNone.endedBy hSemicolon _).returned
  | @leaveWith keyword semicolon e ts hKind he hSemicolon =>
    refine statement_yields (by simp [hKind]) n fun m => ?_
    simp only [keywordStatement, hKind]
    have hValue : Yields (some <$> Braced.expression m) (ts ++ semicolon :: rest) (some e)
        (semicolon :: rest) :=
      (expression_yields he m (by simp [hSemicolon]) rest).returned
    have hKinds : ∀ k ∈ startKinds, k ∉ [Kind.semicolon] := by decide
    have hSome := hValue.unlessSees (a := none) ((he.starts.mono hKinds).append _)
    exact (hSome.endedBy hSemicolon _).returned
  | @block left right body hLeft hBody hRight ih =>
    refine statement_yields (by simp [hLeft]) n fun m => ?_
    simp only [keywordStatement, hLeft]
    exact (blockBody_yields hBody ih m hRight rest).returned
  | @expression e ts semicolon he hSemicolon =>
    cases n with
    | zero => rw [Braced.statement]; exact spent_yields ..
    | succ n =>
      rw [Braced.statement]
      have hKinds : ∀ k ∈ startKinds, k ∉ [Kind.if, .loop, .return, .leftBrace] := by decide
      refine (accept_yields_none ((he.starts.mono hKinds).append _)).bind ?_
      have hValue := expression_yields he n (t := semicolon) (by simp [hSemicolon]) rest
      exact (hValue.endedBy hSemicolon _).returned

/-- **A well written program is parsed to its declarations.** -/
theorem program_yields {stmts : List Stmt} (h : Grammar.Writes stmts ts) (n : Nat) {e : Token}
    (he : e.kind = .endOfFile) (rest : List Token) : Yields (program n) (ts ++ e :: rest) stmts (e :: rest) := by
  obtain ⟨parts, rfl, rfl, hParts⟩ := h
  exact declarationLoop_yields rfl (fun _ => rfl) (by simp) hParts
    (fun q hq => (hParts q hq).parsed) n (by simp [he]) rest

end Scriptling.Braced
