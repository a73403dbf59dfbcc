import Scriptling.Proofs.Braced.Complete
import Scriptling.Proofs.Braced.Recovery
import Scriptling.Proofs.Braced.Sound

/-!
# The language of the parser

The sequences of tokens that write a tree are those that the grammar derives: `Writes.program` forgets the
trees, `Program.writes` finds them. The grammar does not say to which `IF` an `ELSE` belongs and the trees
do; `Clause.Writes.graft` moves an `ELSE` to the nearest `IF` that lacks one. With both directions of the
parser's correctness it follows that the parser has nothing to complain about exactly on the programs of the
grammar.
-/

namespace Scriptling.Braced

open List Token

namespace Grammar

variable {α : Type} {ts : List Token} {t : Token} {clause : Clause} {ks : List Kind}

/-! ## From trees to the grammar -/

theorem Separated.kinds {tss : List (List Token)} (h : Separated tss ts) :
    ts.map kind = [.comma].intercalate (tss.map (·.map kind)) := by
  induction h with
  | none => rfl
  | one => simp
  | more hComma _ ih => simp [hComma, ih, intercalate_cons_cons]

/-- What holds of the kinds of each item holds of each list of kinds. -/
theorem forall_kinds {P : List Kind → Prop} {parts : List (α × List Token)}
    (h : ∀ p ∈ parts, P (p.2.map kind)) : ∀ ks ∈ (parts.map Prod.snd).map (·.map kind), P ks := by
  simp only [map_map, mem_map]
  rintro ks ⟨p, hp, rfl⟩
  exact h p hp

@[simp] def Part.phrase : Part → Phrase
  | .expression => .expression
  | .operand level => .operand level
  | .chain level _ => .chain level
  | .unary => .unary
  | .calls _ => .calls
  | .primary => .primary

theorem Part.Writes.derives {part : Part} {e : Expr} (h : part.Writes e ts) : part.phrase.Derives (ts.map kind) := by
  induction h with
  | assign hName hEquals _ _ ihv =>
    -- An operand whose tree is a variable is a single identifier.
    obtain ⟨t, rfl, ht, -⟩ := hName.names rfl
    simpa [ht, hEquals] using Phrase.Derives.assignment ihv
  | plain _ ih => exact .plain ih
  | joined hLess _ _ ihl ihc => simpa using Phrase.Derives.joined hLess ihl ihc
  | single _ ih => exact .single ih
  | chainEnd => exact .chainEnd
  | chainMore hop _ _ ihr ihc => simpa using Phrase.Derives.chainMore hop ihr ihc
  | signed hop _ ih => exact .signed hop ih
  | called _ _ ihp ihc => simpa using Phrase.Derives.called ihp ihc
  | callsEnd => exact .callsEnd
  | callsMore hOpening _ hCount hSep hParen _ ihParts ihc =>
    have hCalls := Phrase.Derives.callsMore (forall_kinds ihParts) (by simpa using hCount) ihc
    simpa [hOpening, hParen, hSep.kinds] using hCalls
  | @boolean t b ht => exact .atom (by cases b <;> simp [ht])
  | number ht | string ht | «variable» ht => exact .atom (by simp [ht])
  | group hOpening _ hClosing ih => simpa [hOpening, hClosing] using Phrase.Derives.group ih

theorem WritesType.mem_typeKinds {type : TypeMark} (h : WritesType type t) : t.kind ∈ typeKinds := by
  cases h with
  | number ht | string ht | boolean ht | named ht => simp [typeKinds, ht]

theorem WritesMark.annotation {marks : List Kind} {type : TypeMark} (h : WritesMark marks type ts) :
    Annotation marks (ts.map kind) := by
  cases h with
  | absent => exact .absent
  | present hm ht => exact .present hm ht.mem_typeKinds

theorem WritesParam.parameter {p : Param} (h : WritesParam p ts) : Parameter (ts.map kind) := by
  cases h with
  | mk hName hMark => simpa [hName] using Parameter.mk hMark.annotation

theorem WritesField.member {f : Field} (h : WritesField f ts) : Member (ts.map kind) := by
  cases h with
  | fixed hName hColon ht hSemicolon => simpa [hName, hColon, hSemicolon] using Member.fixed ht.mem_typeKinds
  | changing hMarker hName hColon ht hSemicolon =>
    simpa [hMarker, hName, hColon, hSemicolon] using Member.changing ht.mem_typeKinds

theorem WritesInitial.initial {i : Option Expr} (h : WritesInitial i ts) : Initial (ts.map kind) := by
  cases h with
  | absent => exact .absent
  | present hEquals he => simpa [hEquals] using Initial.present he.derives

theorem Clause.Writes.derives {s : Stmt} (h : clause.Writes s ts) : clause.Derives (ts.map kind) := by
  induction h with
  | function hFn hName hOpening hPs hCount hSep hClosing hResult hLeft _ hRight ih =>
    have hFunction := Clause.Derives.function (forall_kinds fun p hp => (hPs p hp).parameter)
      (by simpa using hCount) hResult.annotation (forall_kinds ih)
    simpa [hFn, hName, hOpening, hClosing, hLeft, hRight, hSep.kinds, map_flatten]
      using hFunction
  | struct hKind hName hLeft hFields hRight =>
    have hStruct := Clause.Derives.struct (forall_kinds fun p hp => (hFields p hp).member)
    simpa [hKind, hName, hLeft, hRight, map_flatten] using hStruct
  | @«variable» _ _ _ isConst _ _ _ _ hKind hName hType hInitial hSemicolon =>
    have hVar := Clause.Derives.variable (k := if isConst then .const else .let)
      (by cases isConst <;> simp) hType.annotation hInitial.initial
    simpa [hKind, hName, hSemicolon] using hVar
  | plain _ ih => exact .plain ih
  | ifThen hKind hOpening hc hClosing _ ih =>
    simpa [hKind, hOpening, hClosing] using Clause.Derives.ifThen hc.derives ih
  | ifElse hKind hOpening hc hClosing _ _ hOther _ ihYes ihNo =>
    simpa [hKind, hOpening, hClosing, hOther] using Clause.Derives.ifElse hc.derives ihYes ihNo
  | loop hKind hLeft _ hRight ih =>
    simpa [hKind, hLeft, hRight, map_flatten] using Clause.Derives.loop (forall_kinds ih)
  | leave hKind hSemicolon => simpa [hKind, hSemicolon] using Clause.Derives.leave
  | leaveWith hKind he hSemicolon => simpa [hKind, hSemicolon] using Clause.Derives.leaveWith he.derives
  | block hLeft _ hRight ih => simpa [hLeft, hRight, map_flatten] using Clause.Derives.block (forall_kinds ih)
  | expression he hSemicolon => simpa [hSemicolon] using Clause.Derives.expression he.derives

/-- The kinds of what writes declarations are a program. -/
theorem Writes.program {stmts : List Stmt} (h : Writes stmts ts) : Program (ts.map kind) := by
  obtain ⟨parts, rfl, rfl, hParts⟩ := h
  exact ⟨_, map_flatten, forall_kinds fun p hp => (hParts p hp).derives⟩

/-! ## From the grammar to trees -/

/-- Items whose kinds have commas between them are separated by commas. -/
theorem exists_separated {W : α → List Token → Prop} {kss : List (List Kind)}
    (h : ∀ ks ∈ kss, ∀ ts : List Token, ts.map kind = ks → ∃ a, W a ts)
    (hts : ts.map kind = [.comma].intercalate kss) :
    ∃ parts : List (α × List Token), parts.length = kss.length ∧
      Separated (parts.map Prod.snd) ts ∧ ∀ p ∈ parts, W p.1 p.2 := by
  induction kss generalizing ts with
  | nil =>
    obtain rfl : ts = [] := by simpa using hts
    exact ⟨[], rfl, .none, by simp⟩
  | cons ks kss ih =>
    obtain ⟨hHead, hTail⟩ := forall_mem_cons.mp h
    cases kss with
    | nil =>
      obtain ⟨a, ha⟩ := hHead ts (by simpa using hts)
      exact ⟨[(a, ts)], rfl, .one, by simpa using ha⟩
    | cons ks' kss =>
      rw [intercalate_cons_cons, append_assoc, map_eq_append_iff] at hts
      obtain ⟨us, _, rfl, hus, hMore⟩ := hts
      obtain ⟨comma, vs, rfl, hComma, hvs⟩ := map_eq_cons_iff.mp hMore
      obtain ⟨a, ha⟩ := hHead us hus
      obtain ⟨parts, hLength, hSep, hParts⟩ := ih hTail hvs
      refine ⟨(a, us) :: parts, by simp [hLength], ?_, forall_mem_cons.mpr ⟨ha, hParts⟩⟩
      cases parts with
      | nil => simp at hLength
      | cons p parts => exact .more hComma hSep

/-- Items whose kinds follow each other follow each other. -/
theorem exists_flatten {W : α → List Token → Prop} {kss : List (List Kind)}
    (h : ∀ ks ∈ kss, ∀ ts : List Token, ts.map kind = ks → ∃ a, W a ts) (hts : ts.map kind = kss.flatten) :
    ∃ parts : List (α × List Token), ts = (parts.map Prod.snd).flatten ∧ ∀ p ∈ parts, W p.1 p.2 := by
  induction kss generalizing ts with
  | nil => exact ⟨[], by simpa using hts, by simp⟩
  | cons ks kss ih =>
    obtain ⟨hHead, hTail⟩ := forall_mem_cons.mp h
    obtain ⟨us, vs, rfl, hus, hvs⟩ := map_eq_append_iff.mp hts
    obtain ⟨a, ha⟩ := hHead us hus
    obtain ⟨parts, rfl, hParts⟩ := ih hTail hvs
    exact ⟨(a, us) :: parts, rfl, forall_mem_cons.mpr ⟨ha, hParts⟩⟩

/-- The tokens write a tree; a chain and a sequence of calls do so behind every tree. -/
def Phrase.HasTree : Phrase → List Token → Prop
  | .expression, ts => ∃ e, Part.Writes .expression e ts
  | .operand level, ts => ∃ e, Part.Writes (.operand level) e ts
  | .chain level, ts => ∀ left, ∃ e, Part.Writes (.chain level left) e ts
  | .unary, ts => ∃ e, Part.Writes .unary e ts
  | .calls, ts => ∀ callee, ∃ e, Part.Writes (.calls callee) e ts
  | .primary, ts => ∃ e, Part.Writes .primary e ts

theorem exists_atom (h : t.kind ∈ [Kind.false, .true, .number, .string, .identifier]) :
    ∃ e, Part.Writes .primary e [t] := by
  simp only [mem_cons, not_mem_nil, or_false] at h
  rcases h with ht | ht | ht | ht | ht
  · exact ⟨_, .boolean (b := false) ht⟩
  · exact ⟨_, .boolean (b := true) ht⟩
  · exact ⟨_, .number ht⟩
  · exact ⟨_, .string ht⟩
  · exact ⟨_, .variable ht⟩

theorem Phrase.Derives.hasTree {phrase : Phrase} (h : phrase.Derives ks) (hts : ts.map kind = ks) :
    phrase.HasTree ts := by
  induction h generalizing ts with
    (try simp only [map_eq_append_iff, map_eq_cons_iff, map_eq_nil_iff] at hts)
  | assignment _ ih =>
    obtain ⟨t, _, rfl, ht, equals, us, rfl, hEquals, hus⟩ := hts
    obtain ⟨v, hv⟩ := ih hus
    have hTarget : Part.Writes .unary (.variable t.lexeme) [t] := .called (.variable ht) .callsEnd
    exact ⟨_, .assign (hTarget.operand (Nat.zero_le 6)) hEquals hv⟩
  | plain _ ih =>
    obtain ⟨e, he⟩ := ih hts
    exact ⟨e, .plain he⟩
  | joined hLess _ _ iho ihc =>
    obtain ⟨us, vs, rfl, hus, hvs⟩ := hts
    obtain ⟨left, hLeft⟩ := iho hus
    obtain ⟨e, he⟩ := ihc hvs left
    exact ⟨e, .joined hLess hLeft he⟩
  | single _ ih =>
    obtain ⟨e, he⟩ := ih hts
    exact ⟨e, .single he⟩
  | chainEnd =>
    subst hts
    exact fun left => ⟨left, .chainEnd⟩
  | chainMore hop _ _ iho ihc =>
    intro left
    obtain ⟨op, _, rfl, rfl, us, vs, rfl, hus, hvs⟩ := hts
    obtain ⟨right, hRight⟩ := iho hus
    obtain ⟨e, he⟩ := ihc hvs (joinLevel _ left op right)
    exact ⟨e, .chainMore hop hRight he⟩
  | signed hop _ ih =>
    obtain ⟨op, us, rfl, rfl, hus⟩ := hts
    obtain ⟨e, he⟩ := ih hus
    exact ⟨_, .signed hop he⟩
  | called _ _ ihp ihc =>
    obtain ⟨us, vs, rfl, hus, hvs⟩ := hts
    obtain ⟨callee, hCallee⟩ := ihp hus
    obtain ⟨e, he⟩ := ihc hvs callee
    exact ⟨e, .called hCallee he⟩
  | callsEnd =>
    subst hts
    exact fun callee => ⟨callee, .callsEnd⟩
  | callsMore _ hCount _ ihArguments ihc =>
    intro callee
    obtain ⟨opening, _, rfl, hOpening, us, _, rfl, hus, paren, vs, rfl, hParen, hvs⟩ := hts
    obtain ⟨parts, hLength, hSep, hParts⟩ := exists_separated (fun ks hks ts hts => ihArguments ks hks hts) hus
    obtain ⟨e, he⟩ := ihc hvs (.call callee (parts.map Prod.fst) paren)
    exact ⟨e, .callsMore hOpening hParts (hLength ▸ hCount) hSep hParen he⟩
  | atom hk =>
    obtain ⟨t, _, rfl, rfl, rfl⟩ := hts
    exact exists_atom hk
  | group _ ih =>
    obtain ⟨opening, _, rfl, hOpening, us, _, rfl, hus, closing, _, rfl, hClosing, rfl⟩ := hts
    obtain ⟨e, he⟩ := ih hus
    exact ⟨_, .group hOpening he hClosing⟩

theorem exists_type (h : t.kind ∈ typeKinds) : ∃ type, WritesType type t := by
  simp only [typeKinds, mem_cons, not_mem_nil, or_false] at h
  rcases h with ht | ht | ht | ht
  · exact ⟨_, .number ht⟩
  · exact ⟨_, .string ht⟩
  · exact ⟨_, .boolean ht⟩
  · exact ⟨_, .named ht⟩

theorem Annotation.exists_mark {marks : List Kind} (h : Annotation marks ks) (hts : ts.map kind = ks) :
    ∃ type, WritesMark marks type ts := by
  cases h with
  | absent =>
    obtain rfl := map_eq_nil_iff.mp hts
    exact ⟨.absent, .absent⟩
  | present hm ht =>
    simp only [map_eq_cons_iff, map_eq_nil_iff] at hts
    obtain ⟨m, _, rfl, rfl, t, _, rfl, rfl, rfl⟩ := hts
    obtain ⟨type, hType⟩ := exists_type ht
    exact ⟨type, .present hm hType⟩

theorem Parameter.exists_param (h : Parameter ks) (hts : ts.map kind = ks) : ∃ p, WritesParam p ts := by
  cases h with
  | mk ha =>
    obtain ⟨name, us, rfl, hName, hus⟩ := map_eq_cons_iff.mp hts
    obtain ⟨type, hType⟩ := ha.exists_mark hus
    exact ⟨⟨name.lexeme, type⟩, .mk hName hType⟩

theorem Member.exists_field (h : Member ks) (hts : ts.map kind = ks) : ∃ f, WritesField f ts := by
  cases h with
  | fixed ht =>
    simp only [map_eq_cons_iff, map_eq_nil_iff] at hts
    obtain ⟨name, _, rfl, hName, colon, _, rfl, hColon, t, _, rfl, rfl, semicolon, _, rfl, hSemicolon, rfl⟩ := hts
    obtain ⟨type, hType⟩ := exists_type ht
    exact ⟨_, .fixed hName hColon hType hSemicolon⟩
  | changing ht =>
    simp only [map_eq_cons_iff, map_eq_nil_iff] at hts
    obtain ⟨marker, _, rfl, hMarker, name, _, rfl, hName, colon, _, rfl, hColon, t, _, rfl, rfl,
      semicolon, _, rfl, hSemicolon, rfl⟩ := hts
    obtain ⟨type, hType⟩ := exists_type ht
    exact ⟨_, .changing hMarker hName hColon hType hSemicolon⟩

theorem Initial.exists_initial (h : Initial ks) (hts : ts.map kind = ks) : ∃ i, WritesInitial i ts := by
  cases h with
  | absent =>
    obtain rfl := map_eq_nil_iff.mp hts
    exact ⟨none, .absent⟩
  | present he =>
    obtain ⟨equals, us, rfl, hEquals, hus⟩ := map_eq_cons_iff.mp hts
    obtain ⟨e, he⟩ := he.hasTree hus
    exact ⟨some e, .present hEquals he⟩

/-- An `ELSE` after a statement that lacks one goes to the nearest choice without. -/
theorem Clause.Writes.graft {s : Stmt} (h : clause.Writes s ts) (hStatement : clause = .statement)
    (hLacks : lacksElse s = true) {other : Token} (hOther : other.kind = .else) {no : Stmt} {us : List Token}
    (hNo : Clause.Writes .statement no us) : ∃ s', Clause.Writes .statement s' (ts ++ other :: us) := by
  induction h with
  | @ifThen keyword opening closing c yes cs vs hKind hOpening hc hClosing hYes ih =>
    cases hYesLacks : lacksElse yes with
    | true =>
      obtain ⟨yes', hYes'⟩ := ih rfl hYesLacks
      exact ⟨_, by simpa using Clause.Writes.ifThen hKind hOpening hc hClosing hYes'⟩
    | false =>
      have hChoice := Clause.Writes.ifElse hKind hOpening hc hClosing hYes hYesLacks hOther hNo
      exact ⟨_, by simpa using hChoice⟩
  | @ifElse keyword opening closing other' c yes no' cs vs ws hKind hOpening hc hClosing hYes hClosed
      hOther' _ _ ih =>
      obtain ⟨no'', hNo''⟩ := ih rfl hLacks
      have hChoice := Clause.Writes.ifElse hKind hOpening hc hClosing hYes hClosed hOther' hNo''
      exact ⟨_, by simpa using hChoice⟩
  | function | struct | «variable» | plain => cases hStatement
  | _ => cases hLacks

theorem Clause.Derives.exists_writes (h : clause.Derives ks) (hts : ts.map kind = ks) : ∃ s, clause.Writes s ts := by
  induction h generalizing ts with
    (try simp only [map_eq_append_iff, map_eq_cons_iff, map_eq_nil_iff] at hts)
  | function hPs hCount hResult _ ih =>
    obtain ⟨_, _, rfl, ⟨_, bs, rfl, ⟨_, _, rfl, ⟨_, rs, rfl, ⟨_, _, rfl, ⟨_, ps, rfl,
      ⟨fn, _, rfl, hFn, name, _, rfl, hName, opening, _, rfl, hOpening, rfl⟩, hps⟩,
      closing, _, rfl, hClosing, rfl⟩, hrs⟩, left, _, rfl, hLeft, rfl⟩, hbs⟩, right, _, rfl, hRight, rfl⟩ := hts
    obtain ⟨params, hLength, hSep, hParams⟩ := exists_separated (fun ks hks ts => (hPs ks hks).exists_param) hps
    obtain ⟨result, hResult⟩ := hResult.exists_mark hrs
    obtain ⟨body, rfl, hBody⟩ := exists_flatten (fun ks hks ts hts => ih ks hks hts) hbs
    exact ⟨_, .function hFn hName hOpening hParams (hLength ▸ hCount) hSep hClosing hResult hLeft
      hBody hRight⟩
  | struct hMembers =>
    obtain ⟨_, _, rfl, ⟨_, ms, rfl, ⟨keyword, _, rfl, hKind, name, _, rfl, hName, left, _, rfl,
      hLeft, rfl⟩, hms⟩, right, _, rfl, hRight, rfl⟩ := hts
    obtain ⟨fields, rfl, hFields⟩ := exists_flatten (fun ks hks ts => (hMembers ks hks).exists_field) hms
    exact ⟨_, .struct hKind hName hLeft hFields hRight⟩
  | «variable» hk hType hInitial =>
    obtain ⟨_, _, rfl, ⟨_, is, rfl, ⟨_, as, rfl, ⟨keyword, _, rfl, rfl, name, _, rfl, hName, rfl⟩,
      has⟩, his⟩, semicolon, _, rfl, hSemicolon, rfl⟩ := hts
    obtain ⟨type, hType⟩ := hType.exists_mark has
    obtain ⟨initial, hInitial⟩ := hInitial.exists_initial his
    obtain ⟨isConst, hKind⟩ : ∃ isConst : Bool, keyword.kind = if isConst then .const else .let := by
      rcases hk with hLet | hConst
      · exact ⟨false, hLet⟩
      · exact ⟨true, hConst⟩
    exact ⟨_, .variable hKind hName hType hInitial hSemicolon⟩
  | plain _ ih =>
    obtain ⟨s, hs⟩ := ih hts
    exact ⟨s, .plain hs⟩
  | ifThen hc _ ih =>
    obtain ⟨_, ys, rfl, ⟨_, _, rfl, ⟨_, cs, rfl, ⟨keyword, _, rfl, hKind, opening, _, rfl,
      hOpening, rfl⟩, hcs⟩, closing, _, rfl, hClosing, rfl⟩, hys⟩ := hts
    obtain ⟨c, hc⟩ := hc.hasTree hcs
    obtain ⟨yes, hYes⟩ := ih hys
    exact ⟨_, .ifThen hKind hOpening hc hClosing hYes⟩
  | ifElse hc _ _ ihYes ihNo =>
    obtain ⟨_, ns, rfl, ⟨_, _, rfl, ⟨_, ys, rfl, ⟨_, _, rfl, ⟨_, cs, rfl, ⟨keyword, _, rfl, hKind,
      opening, _, rfl, hOpening, rfl⟩, hcs⟩, closing, _, rfl, hClosing, rfl⟩, hys⟩,
      other, _, rfl, hOther, rfl⟩, hns⟩ := hts
    obtain ⟨c, hc⟩ := hc.hasTree hcs
    obtain ⟨yes, hYes⟩ := ihYes hys
    obtain ⟨no, hNo⟩ := ihNo hns
    -- The derivation may give the `ELSE` to this `IF` although one in its first arm lacks it.
    cases hLacks : lacksElse yes with
    | true =>
      obtain ⟨yes', hYes'⟩ := hYes.graft rfl hLacks hOther hNo
      exact ⟨_, by simpa using Clause.Writes.ifThen hKind hOpening hc hClosing hYes'⟩
    | false => exact ⟨_, .ifElse hKind hOpening hc hClosing hYes hLacks hOther hNo⟩
  | loop _ ih =>
    obtain ⟨_, _, rfl, ⟨_, bs, rfl, ⟨keyword, _, rfl, hKind, left, _, rfl, hLeft, rfl⟩, hbs⟩,
      right, _, rfl, hRight, rfl⟩ := hts
    obtain ⟨body, rfl, hBody⟩ := exists_flatten (fun ks hks ts hts => ih ks hks hts) hbs
    exact ⟨_, .loop hKind hLeft hBody hRight⟩
  | leave =>
    obtain ⟨keyword, _, rfl, hKind, semicolon, _, rfl, hSemicolon, rfl⟩ := hts
    exact ⟨_, .leave hKind hSemicolon⟩
  | leaveWith he =>
    obtain ⟨_, _, rfl, ⟨_, es, rfl, ⟨keyword, _, rfl, hKind, rfl⟩, hes⟩, semicolon, _, rfl, hSemicolon, rfl⟩ := hts
    obtain ⟨e, he⟩ := he.hasTree hes
    exact ⟨_, .leaveWith hKind he hSemicolon⟩
  | block _ ih =>
    obtain ⟨_, _, rfl, ⟨_, bs, rfl, ⟨left, _, rfl, hLeft, rfl⟩, hbs⟩, right, _, rfl, hRight, rfl⟩ := hts
    obtain ⟨body, rfl, hBody⟩ := exists_flatten (fun ks hks ts hts => ih ks hks hts) hbs
    exact ⟨_, .block hLeft hBody hRight⟩
  | expression he =>
    obtain ⟨es, _, rfl, hes, semicolon, _, rfl, hSemicolon, rfl⟩ := hts
    obtain ⟨e, he⟩ := he.hasTree hes
    exact ⟨_, .expression he hSemicolon⟩

/-- Tokens whose kinds are a program write declarations. -/
theorem Program.writes (h : Program (ts.map kind)) : ∃ stmts, Writes stmts ts := by
  obtain ⟨ds, hts, hDs⟩ := h
  obtain ⟨parts, rfl, hParts⟩ := exists_flatten (fun ks hks ts => (hDs ks hks).exists_writes) hts
  exact ⟨_, parts, rfl, rfl, hParts⟩

end Grammar

/-! ## The parser and the grammar -/

/-- Without complaint, the declarations that the parser returns are those the tokens write. -/
theorem parse_quiet_iff {ts : List Token} {e : Token} (hts : ∀ t ∈ ts, t.kind ≠ .endOfFile)
    (he : e.kind = .endOfFile) (stmts : List Stmt) :
    parse (ts ++ [e]) = ⟨.ok stmts, [e], []⟩ ↔ Grammar.Writes stmts ts := by
  constructor
  · intro h
    obtain ⟨used, hUsed, hWrites⟩ := program_reads _ _ _ _ h
    rw [append_cancel_right hUsed]
    exact hWrites
  · intro h
    obtain ⟨stmts', ds, hParse⟩ := parse_eq_ok hts he
    rcases program_yields h (fuelFor (ts ++ [e]).length) he [] with hOk | hSpent
    · exact hOk
    · rw [show program _ _ = _ from hParse []] at hSpent
      cases hSpent

theorem exists_writes_of_quiet {ts : List Token} {e : Token} (hts : ∀ t ∈ ts, t.kind ≠ .endOfFile)
    (he : e.kind = .endOfFile) (hQuiet : (parse (ts ++ [e])).diagnostics = []) :
    ∃ stmts, parse (ts ++ [e]) = ⟨.ok stmts, [e], []⟩ ∧ Grammar.Writes stmts ts := by
  obtain ⟨stmts, ds, hParse⟩ := parse_eq_ok hts he
  rw [hParse []] at hQuiet
  obtain rfl : ds = [] := hQuiet
  exact ⟨stmts, hParse [], (parse_quiet_iff hts he stmts).mp (hParse [])⟩

end Scriptling.Braced
