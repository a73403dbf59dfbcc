import Scriptling.Proofs.Braced.Flatten
import Scriptling.Proofs.Braced.Language
import Scriptling.Proofs.Braced.Precedence

/-!
# Parsing loses no token

If a text is scanned and parsed without complaint, flattening the trees tells its tokens one for one.
The induction is on the written form; a chain of operators or of calls is told together with the tokens of
the tree it extends.
-/

namespace Scriptling.Braced

open List

variable {t : Token} {ts : List Token} {type : TypeMark}

open Grammar

variable {α : Type}

/-- The pieces tell the tokens one for one. -/
def Tells (ps : List Piece) (ts : List Token) : Prop := List.Forall₂ Piece.Matches ps ts

theorem tells_nil : Tells [] [] := .nil

theorem Tells.cons {p : Piece} {ps : List Piece} (h : p.Matches t) (hps : Tells ps ts) :
    Tells (p :: ps) (t :: ts) := List.Forall₂.cons h hps

theorem Tells.append {ps qs : List Piece} {us : List Token} (hps : Tells ps ts) (hqs : Tells qs us) :
    Tells (ps ++ qs) (ts ++ us) := rel_append hps hqs

theorem tells_single {p : Piece} (h : p.Matches t) : Tells [p] [t] := .cons h tells_nil

/-! ## Scanned tokens -/

def AllScanned (ts : List Token) : Prop := ∀ t ∈ ts, t.Scanned

@[simp] theorem allScanned_cons : AllScanned (t :: ts) ↔ t.Scanned ∧ AllScanned ts := forall_mem_cons

@[simp] theorem allScanned_append {us : List Token} :
    AllScanned (ts ++ us) ↔ AllScanned ts ∧ AllScanned us := forall_mem_append

/-- A scanned token of a kind with one text is told by its kind. -/
theorem Token.Scanned.sign_matches (h : t.Scanned) {kind : Kind} (hKind : t.kind = kind) (hText : kind.text?.isSome) :
    (Piece.sign kind).Matches t := by
  obtain ⟨text, hText⟩ := Option.isSome_iff_exists.mp hText
  obtain ⟨hLexeme, hLiteral⟩ := h.of_text (hKind ▸ hText)
  exact ⟨hKind, hLexeme ▸ hText, hLiteral⟩

theorem Token.Scanned.name_matches (h : t.Scanned) (hKind : t.kind = .identifier) :
    (Piece.word .identifier t.lexeme).Matches t :=
  ⟨hKind, rfl, (h.of_identifier hKind).2⟩

theorem Token.Scanned.tells_sign (h : t.Scanned) {kind : Kind} (hKind : t.kind = kind) (hText : kind.text?.isSome) :
    Tells [.sign kind] [t] :=
  tells_single (h.sign_matches hKind hText)

/-! ## Lists -/

theorem tells_commas {flatten : α → List Piece} {parts : List (α × List Token)}
    (hItem : ∀ p ∈ parts, AllScanned p.2 → Tells (flatten p.1) p.2) (hSep : Separated (parts.map Prod.snd) ts)
    (hts : AllScanned ts) : Tells (commas ((parts.map Prod.fst).map flatten)) ts := by
  induction parts generalizing ts with
  | nil =>
    cases hSep
    exact tells_nil
  | cons p parts ih =>
    obtain ⟨hFirst, hOthers⟩ := forall_mem_cons.mp hItem
    cases parts with
    | nil =>
      cases hSep
      simpa [commas] using hFirst hts
    | cons q parts =>
      cases hSep with
      | more hComma hSep =>
        simp only [allScanned_append, allScanned_cons] at hts
        obtain ⟨hHead, hCommaScanned, hTail⟩ := hts
        have hMore := ih hOthers hSep hTail
        have hSign := hCommaScanned.sign_matches hComma rfl
        simpa [commas, intercalate_cons_cons] using (hFirst hHead).append (.cons hSign hMore)

theorem tells_flatten {flatten : α → List Piece} {parts : List (α × List Token)}
    (hItem : ∀ p ∈ parts, AllScanned p.2 → Tells (flatten p.1) p.2)
    (hts : AllScanned (parts.map Prod.snd).flatten) :
    Tells ((parts.map Prod.fst).map flatten).flatten (parts.map Prod.snd).flatten := by
  induction parts with
  | nil => exact tells_nil
  | cons p parts ih =>
    obtain ⟨hFirst, hOthers⟩ := forall_mem_cons.mp hItem
    rw [map_cons, flatten_cons, allScanned_append] at hts
    exact (hFirst hts.1).append (ih hOthers hts.2)

/-! ## Expressions -/

/-- The tokens of the tree that a part extends; there are none if it extends none. -/
def Grammar.Part.After (before : List Token) : Part → Prop
  | .chain _ left => Tells left.flatten before
  | .calls callee => Tells callee.flatten before
  | _ => before = []

theorem joinLevel_flatten (level : Nat) (l r : Expr) (op : Token) :
    (joinLevel level l op r).flatten = l.flatten ++ .token op :: r.flatten := by
  unfold joinLevel
  split <;> rw [Expr.flatten]

/-- **A written expression tells its tokens.** -/
theorem Grammar.Part.Writes.tells {part : Part} {e : Expr} (h : part.Writes e ts) (hts : AllScanned ts)
    {before : List Token} (hBefore : part.After before) : Tells e.flatten (before ++ ts) := by
  induction h generalizing before with
  | assign hName hEquals _ _ ihv =>
    obtain ⟨t, rfl, ht, rfl⟩ := hName.names rfl
    simp only [allScanned_append, allScanned_cons] at hts
    obtain ⟨⟨hTarget, -⟩, hEqual, hValue⟩ := hts
    obtain rfl := hBefore
    rw [Expr.flatten]
    exact .cons (hTarget.name_matches ht) (.cons (hEqual.sign_matches hEquals rfl) (ihv hValue rfl))
  | plain _ ih => exact ih hts hBefore
  | joined _ _ _ ihl ihc =>
    obtain ⟨hLeft, hRight⟩ := allScanned_append.mp hts
    rw [← append_assoc]
    exact ihc hRight (ihl hLeft hBefore)
  | single _ ih => exact ih hts hBefore
  | chainEnd => simpa [After] using hBefore
  | @chainMore level l r e op us vs _ _ _ ihr ihc =>
    simp only [allScanned_append, allScanned_cons] at hts
    obtain ⟨-, hRight, hChain⟩ := hts
    -- The chain goes on from the tree that this operator joins.
    have hJoined : Tells (joinLevel level l op r).flatten (before ++ op :: us) := by
      rw [joinLevel_flatten]
      exact Tells.append hBefore (.cons rfl (ihr hRight rfl))
    simpa using ihc hChain hJoined
  | signed _ _ ih =>
    obtain rfl := hBefore
    rw [Expr.flatten]
    exact .cons rfl (ih (allScanned_cons.mp hts).2 rfl)
  | called _ _ ihp ihc =>
    obtain ⟨hCallee, hCalls⟩ := allScanned_append.mp hts
    rw [← append_assoc]
    exact ihc hCalls (ihp hCallee hBefore)
  | callsEnd => simpa [After] using hBefore
  | @callsMore c e opening paren parts us vs hOpening _ _ hSep _ _ ihParts ihc =>
    simp only [allScanned_append, allScanned_cons] at hts
    obtain ⟨hOpen, hArguments, -, hCalls⟩ := hts
    have hItems : Tells (commas (exprPieces (parts.map Prod.fst))) us := by
      rw [exprPieces_eq]
      exact tells_commas (fun p hp hScanned => ihParts p hp hScanned rfl) hSep hArguments
    have hCall : Tells (Expr.call c (parts.map Prod.fst) paren).flatten
        (before ++ opening :: (us ++ [paren])) := by
      rw [Expr.flatten]
      refine Tells.append hBefore (.cons (hOpen.sign_matches hOpening rfl) ?_)
      exact hItems.append (tells_single rfl)
    simpa using ihc hCalls hCall
  | @boolean t b ht =>
    obtain rfl := hBefore
    have hScanned := (allScanned_cons.mp hts).1
    cases b <;> exact hScanned.tells_sign ht rfl
  | number ht | string ht =>
    obtain rfl := hBefore
    exact tells_single ⟨ht, rfl⟩
  | «variable» ht =>
    obtain rfl := hBefore
    exact tells_single ((allScanned_cons.mp hts).1.name_matches ht)
  | group hOpening _ hClosing ih =>
    simp only [allScanned_append, allScanned_cons] at hts
    obtain ⟨hOpen, hInner, hClose, -⟩ := hts
    obtain rfl := hBefore
    rw [Expr.flatten]
    refine .cons (hOpen.sign_matches hOpening rfl) ((ih hInner rfl).append ?_)
    exact hClose.tells_sign hClosing rfl

theorem expression_tells {e : Expr} (h : Part.Writes .expression e ts) (hts : AllScanned ts) :
    Tells e.flatten ts := h.tells hts rfl

/-! ## Types, parameters and fields -/

theorem Grammar.WritesType.matches (h : WritesType type t) (ht : t.Scanned) :
    ∃ name, type = .named name ∧ (Piece.word (wordKind name) name).Matches t := by
  cases h with
  | number hKind | string hKind | boolean hKind =>
    obtain ⟨hLexeme, hLiteral⟩ := ht.of_text (congrArg Kind.text? hKind)
    exact ⟨_, rfl, hKind.trans (by decide), hLexeme, hLiteral⟩
  | named hKind =>
    obtain ⟨hWord, hLiteral⟩ := ht.of_identifier hKind
    exact ⟨_, rfl, hKind.trans hWord.symm, rfl, hLiteral⟩

theorem Grammar.WritesType.tells (h : WritesType type t) (ht : t.Scanned) : Tells (type.flatten []) [t] := by
  obtain ⟨name, rfl, hMatches⟩ := h.matches ht
  exact tells_single hMatches

theorem Grammar.WritesMark.tells {marks : List Kind} (h : WritesMark marks type ts) (hts : AllScanned ts) {mark : Piece}
    (hMark : ∀ m : Token, m.Scanned → m.kind ∈ marks → mark.Matches m) : Tells (type.flatten [mark]) ts := by
  cases h with
  | absent => exact tells_nil
  | present hm hType =>
    simp only [allScanned_cons] at hts
    obtain ⟨hMarkScanned, ht, -⟩ := hts
    obtain ⟨name, rfl, hMatches⟩ := hType.matches ht
    exact .cons (hMark _ hMarkScanned hm) (tells_single hMatches)

theorem colon_matches {m : Token} (h : m.Scanned) (hKind : m.kind ∈ [Kind.colon]) : (Piece.sign .colon).Matches m :=
  h.sign_matches (by simpa using hKind) rfl

theorem arrow_matches {m : Token} (hKind : m.kind ∈ [Kind.minus, .greater]) : Piece.arrow.Matches m := by
  simpa [Piece.Matches] using hKind

theorem Grammar.WritesParam.tells {p : Param} (h : WritesParam p ts) (hts : AllScanned ts) : Tells p.flatten ts := by
  cases h with
  | mk hName hMark =>
    obtain ⟨hNameScanned, hMore⟩ := allScanned_cons.mp hts
    exact .cons (hNameScanned.name_matches hName) (hMark.tells hMore fun _ => colon_matches)

theorem Grammar.WritesField.tells {f : Field} (h : WritesField f ts) (hts : AllScanned ts) : Tells f.flatten ts := by
  cases h with
  | fixed hName hColon hType hSemicolon =>
    simp only [allScanned_cons] at hts
    obtain ⟨hNameScanned, hColonScanned, ht, hEnd, -⟩ := hts
    refine .cons (hNameScanned.name_matches hName) (.cons (hColonScanned.sign_matches hColon rfl) ?_)
    exact (hType.tells ht).append (hEnd.tells_sign hSemicolon rfl)
  | changing hMarker hName hColon hType hSemicolon =>
    simp only [allScanned_cons] at hts
    obtain ⟨hMarkerScanned, hNameScanned, hColonScanned, ht, hEnd, -⟩ := hts
    refine .cons (hMarkerScanned.sign_matches hMarker rfl) ?_
    refine .cons (hNameScanned.name_matches hName) (.cons (hColonScanned.sign_matches hColon rfl) ?_)
    exact (hType.tells ht).append (hEnd.tells_sign hSemicolon rfl)

theorem Grammar.WritesInitial.tells {initial : Option Expr} (h : WritesInitial initial ts) (hts : AllScanned ts) :
    Tells (flattenOption [.sign .equal] initial) ts := by
  cases h with
  | absent => exact tells_nil
  | present hEquals he =>
    obtain ⟨hEqual, hValue⟩ := allScanned_cons.mp hts
    exact .cons (hEqual.sign_matches hEquals rfl) (expression_tells he hValue)

/-! ## Statements -/

/-- **A written statement tells its tokens.** -/
theorem Grammar.Clause.Writes.tells {clause : Clause} {s : Stmt} (h : clause.Writes s ts) (hts : AllScanned ts) :
    Tells s.flatten ts := by
  induction h with (try simp only [allScanned_append, allScanned_cons] at hts)
  | function hFn hName hOpening hPs _ hSep hClosing hResult hLeft _ hRight ih =>
    obtain ⟨⟨⟨⟨⟨⟨⟨h1, h2, h3, -⟩, hParams⟩, h4, -⟩, hMark⟩, h5, -⟩, hBody⟩, h6, -⟩ := hts
    rw [Stmt.flatten, flattenAll_eq]
    refine Tells.append (.append (.append (.append (.append (.append ?_ ?_) ?_) ?_) ?_) ?_) ?_
    · exact .cons (h1.sign_matches hFn rfl) (.cons (h2.name_matches hName)
        (h3.tells_sign hOpening rfl))
    · exact tells_commas (fun p hp => (hPs p hp).tells) hSep hParams
    · exact h4.tells_sign hClosing rfl
    · exact hResult.tells hMark fun _ _ => arrow_matches
    · exact h5.tells_sign hLeft rfl
    · exact tells_flatten ih hBody
    · exact h6.tells_sign hRight rfl
  | struct hKind hName hLeft hFields hRight =>
    obtain ⟨⟨⟨h1, h2, h3, -⟩, hMembers⟩, h4, -⟩ := hts
    rw [Stmt.flatten]
    refine Tells.append (.append ?_ ?_) ?_
    · exact .cons (h1.sign_matches hKind rfl) (.cons (h2.name_matches hName)
        (h3.tells_sign hLeft rfl))
    · exact tells_flatten (fun p hp => (hFields p hp).tells) hMembers
    · exact h4.tells_sign hRight rfl
  | @«variable» _ _ _ isConst _ _ _ _ hKind hName hType hInitial hSemicolon =>
    obtain ⟨⟨⟨⟨h1, h2, -⟩, hMark⟩, hValue⟩, h3, -⟩ := hts
    rw [Stmt.flatten]
    refine Tells.append (.append (.append ?_ ?_) ?_) ?_
    · refine .cons (h1.sign_matches hKind ?_) (tells_single (h2.name_matches hName))
      cases isConst <;> rfl
    · exact hType.tells hMark fun _ => colon_matches
    · exact hInitial.tells hValue
    · exact h3.tells_sign hSemicolon rfl
  | plain _ ih => exact ih hts
  | ifThen hKind hOpening hc hClosing _ ih =>
    obtain ⟨⟨⟨⟨h1, h2, -⟩, hCondition⟩, h3, -⟩, hYes⟩ := hts
    rw [Stmt.flatten, flattenElse, append_nil]
    refine Tells.append (.append (.append ?_ ?_) ?_) (ih hYes)
    · exact .cons (h1.sign_matches hKind rfl) (h2.tells_sign hOpening rfl)
    · exact expression_tells hc hCondition
    · exact h3.tells_sign hClosing rfl
  | ifElse hKind hOpening hc hClosing _ _ hOther _ ihYes ihNo =>
    obtain ⟨⟨⟨⟨⟨⟨h1, h2, -⟩, hCondition⟩, h3, -⟩, hYes⟩, h4, -⟩, hNo⟩ := hts
    rw [Stmt.flatten, flattenElse, append_cons]
    refine Tells.append (.append (.append (.append (.append ?_ ?_) ?_) (ihYes hYes)) ?_) (ihNo hNo)
    · exact .cons (h1.sign_matches hKind rfl) (h2.tells_sign hOpening rfl)
    · exact expression_tells hc hCondition
    · exact h3.tells_sign hClosing rfl
    · exact h4.tells_sign hOther rfl
  | loop hKind hLeft _ hRight ih =>
    obtain ⟨⟨⟨h1, h2, -⟩, hBody⟩, h3, -⟩ := hts
    rw [Stmt.flatten, flattenAll_eq]
    refine Tells.append (.append ?_ (tells_flatten ih hBody)) ?_
    · exact .cons (h1.sign_matches hKind rfl) (h2.tells_sign hLeft rfl)
    · exact h3.tells_sign hRight rfl
  | leave _ hSemicolon => exact .cons rfl (hts.2.1.tells_sign hSemicolon rfl)
  | leaveWith _ he hSemicolon =>
    obtain ⟨⟨-, hValue⟩, h1, -⟩ := hts
    rw [Stmt.flatten]
    refine Tells.append (.append (tells_single rfl) ?_) (h1.tells_sign hSemicolon rfl)
    exact expression_tells he hValue
  | block hLeft _ hRight ih =>
    obtain ⟨⟨⟨h1, -⟩, hBody⟩, h2, -⟩ := hts
    rw [Stmt.flatten, flattenAll_eq]
    refine Tells.append (.append ?_ (tells_flatten ih hBody)) ?_
    · exact h1.tells_sign hLeft rfl
    · exact h2.tells_sign hRight rfl
  | expression he hSemicolon =>
    obtain ⟨hValue, h1, -⟩ := hts
    rw [Stmt.flatten]
    exact (expression_tells he hValue).append (h1.tells_sign hSemicolon rfl)

theorem Grammar.Writes.tells {stmts : List Stmt} (h : Grammar.Writes stmts ts) (hts : AllScanned ts) :
    Tells (flattenAll stmts) ts := by
  obtain ⟨parts, rfl, rfl, hParts⟩ := h
  rw [flattenAll_eq]
  exact tells_flatten (fun p hp => (hParts p hp).tells) hts

/-- **Parsing is faithful.** If a text is scanned and parsed without complaint, the records of what was
parsed flatten back to the tokens, one for one and without the end token; all expressions respect precedence
and associativity, and each `ELSE` has the nearest `IF`. -/
theorem parse_scan_faithful (source : String) (hScan : (scan source).stopped = none)
    (hQuiet : (parse (scan source).tokens).diagnostics = []) :
    ∃ (stmts : List Stmt) (body : List Token) (last : Int),
      (scan source).tokens = body ++ [.eof last] ∧ (∀ t ∈ body, t.kind ≠ .endOfFile) ∧
      parse (scan source).tokens = ⟨.ok stmts, [.eof last], []⟩ ∧
      (∀ stmts', stmtData stmts' = stmtData stmts →
        List.Forall₂ Piece.Matches (flattenAll stmts') body) ∧
      ∀ s ∈ stmts, s.Arranged := by
  obtain ⟨body, last, stmts, ds, hTokens, hBody, hParse⟩ := exists_parse_scan hScan
  have hNoEnd : ∀ t ∈ body, t.kind ≠ .endOfFile := fun t ht => (hBody t ht).kind_ne
  rw [hParse] at hQuiet
  obtain rfl : ds = [] := hQuiet
  have hWrites : Grammar.Writes stmts body := (parse_quiet_iff hNoEnd rfl stmts).mp (hTokens ▸ hParse)
  refine ⟨stmts, body, last, hTokens, hNoEnd, hParse, fun stmts' hRecords => ?_, ?_⟩
  · rw [flattenAll_congr hRecords]
    exact hWrites.tells hBody
  · obtain ⟨parts, rfl, -, hParts⟩ := hWrites
    exact forall_trees fun p hp => (hParts p hp).arranged

/-- A function with a type for its result, and in it a choice within a choice with one `ELSE`. -/
theorem parse_scan_faithful_function :
    let source :=
      "fn f(a: Number) - Bool \x7b if (!a) if (a - b - c) return; else g(a, a = a); \x7d"
    (scan source).stopped = none ∧ (parse (scan source).tokens).diagnostics = [] ∧
      ∃ stmts body last, (scan source).tokens = body ++ [.eof last] ∧
        parse (scan source).tokens = ⟨.ok stmts, [.eof last], []⟩ ∧
        List.Forall₂ Piece.Matches (flattenAll stmts) body ∧ ∀ s ∈ stmts, s.Arranged := by
  intro source
  have hScan : (scan source).stopped = none := by decide +kernel
  have hEmpty : (parse (scan source).tokens).diagnostics.isEmpty := by decide +kernel
  have hQuiet := isEmpty_iff.mp hEmpty
  obtain ⟨stmts, body, last, hTokens, -, hParse, hTells, hArranged⟩ :=
    parse_scan_faithful source hScan hQuiet
  exact ⟨hScan, hQuiet, stmts, body, last, hTokens, hParse, hTells stmts rfl, hArranged⟩

end Scriptling.Braced
