import Scriptling.Proofs.Braced.Record
import Scriptling.Proofs.Braced.Scanned

/-!
# Trees back to tokens

A tree is flattened to one piece for each token it was written with. A piece says what the tree knows of
its token: punctuation and keywords by their kind, names by their text, literals by their value, and
operators, closing parentheses of calls and `RETURN` in full, since the tree keeps them. Only of the token
that announces the type of a result the tree does not know which of two it was.
-/

namespace Scriptling.Braced

open List

inductive Piece where
  | sign (kind : Kind)
  | word (kind : Kind) (text : String)
  | literal (kind : Kind) (value : Datum)
  | token (t : Token)
  | arrow

def Piece.Matches : Piece → Token → Prop
  | .sign kind, t => t.kind = kind ∧ kind.text? = some t.lexeme ∧ t.literal = .none
  | .word kind text, t => t.kind = kind ∧ t.lexeme = text ∧ t.literal = .none
  | .literal kind value, t => t.kind = kind ∧ t.literal = value
  | .token u, t => t = u
  | .arrow, t => t.kind = .minus ∨ t.kind = .greater

/-! ## Flattening -/

/-- Lists of pieces with commas between them. -/
def commas (pss : List (List Piece)) : List Piece := [.sign .comma].intercalate pss

/-- A literal: a keyword if it is a truth value. -/
def literalPiece : LiteralKind → Datum → Piece
  | .number, value => .literal .number value
  | .string, value => .literal .string value
  | .boolean, value => .sign (if value matches .bool true then .true else .false)

mutual

def Expr.flatten : Expr → List Piece
  | .literal kind value => [literalPiece kind value]
  | .variable name => [.word .identifier name]
  | .assign name value => .word .identifier name :: .sign .equal :: value.flatten
  | .logical left operator right | .binary left operator right => left.flatten ++ .token operator :: right.flatten
  | .unary operator right => .token operator :: right.flatten
  | .call callee arguments paren =>
    callee.flatten ++ .sign .leftParen :: (commas (exprPieces arguments) ++ [.token paren])
  | .grouping inner => .sign .leftParen :: (inner.flatten ++ [.sign .rightParen])

def exprPieces : List Expr → List (List Piece)
  | [] => []
  | e :: es => e.flatten :: exprPieces es

end

/-- A type after these pieces, if there is one. -/
def TypeMark.flatten (mark : List Piece) : TypeMark → List Piece
  | .named type => mark ++ [.word (wordKind type) type]
  | _ => []

def Param.flatten (p : Param) : List Piece := .word .identifier p.name :: p.typeMark.flatten [.sign .colon]

def Field.flatten (f : Field) : List Piece :=
  (if f.isMutable then [.sign .mut] else []) ++ .word .identifier f.name :: .sign .colon ::
    (f.typeMark.flatten [] ++ [.sign .semicolon])

/-- The pieces of an expression after these pieces, if there is one. -/
def flattenOption (mark : List Piece) : Option Expr → List Piece
  | none => []
  | some e => mark ++ e.flatten

mutual

def Stmt.flatten : Stmt → List Piece
  | .function name params result body =>
    [.sign .fn, .word .identifier name, .sign .leftParen] ++ commas (params.map Param.flatten) ++
      [.sign .rightParen] ++ result.flatten [.arrow] ++ [.sign .leftBrace] ++ flattenAll body ++ [.sign .rightBrace]
  | .struct name fields =>
    [.sign .struct, .word .identifier name, .sign .leftBrace] ++
      (fields.map Field.flatten).flatten ++ [.sign .rightBrace]
  | .var name type initial isConst =>
    [.sign (if isConst then .const else .let), .word .identifier name] ++
      type.flatten [.sign .colon] ++ flattenOption [.sign .equal] initial ++ [.sign .semicolon]
  | .branch condition yes no =>
    [.sign .if, .sign .leftParen] ++ condition.flatten ++ [.sign .rightParen] ++ yes.flatten ++ flattenElse no
  | .loop body => [.sign .loop, .sign .leftBrace] ++ flattenAll body ++ [.sign .rightBrace]
  | .ret keyword value => [.token keyword] ++ flattenOption [] value ++ [.sign .semicolon]
  | .block body => [.sign .leftBrace] ++ flattenAll body ++ [.sign .rightBrace]
  | .expression e => e.flatten ++ [.sign .semicolon]

/-- The pieces of the second arm of a choice. -/
def flattenElse : Option Stmt → List Piece
  | none => []
  | some s => .sign .else :: s.flatten

def flattenAll : List Stmt → List Piece
  | [] => []
  | s :: ss => s.flatten ++ flattenAll ss

end

theorem exprPieces_eq (es : List Expr) : exprPieces es = es.map Expr.flatten := by
  induction es with
  | nil => rfl
  | cons e es ih => rw [exprPieces, ih, map_cons]

theorem flattenAll_eq (ss : List Stmt) : flattenAll ss = (ss.map Stmt.flatten).flatten := by
  induction ss with
  | nil => rfl
  | cons s ss ih => rw [flattenAll, ih, map_cons, flatten_cons]

/-! ## Flattening and records -/

/-- An absent type and one that was not found have the same record, and no pieces. -/
theorem TypeMark.flatten_congr {m m' : TypeMark} (h : m.toDatum = m'.toDatum) (mark : List Piece) :
    m.flatten mark = m'.flatten mark := by
  cases m <;> cases m' <;> simp_all [TypeMark.toDatum, TypeMark.flatten]

theorem Param.flatten_congr {p p' : Param} (h : p.toDatum = p'.toDatum) : p.flatten = p'.flatten := by
  obtain ⟨name, mark⟩ := p
  obtain ⟨name', mark'⟩ := p'
  cases mark <;> cases mark' <;>
    simp_all [Param.toDatum, Param.flatten, TypeMark.toDatum, TypeMark.flatten, record]

theorem Field.flatten_congr {f f' : Field} (h : f.toDatum = f'.toDatum) : f.flatten = f'.flatten := by
  simp only [Field.toDatum, record, Datum.dict.injEq, map_cons, map_nil, List.cons.injEq,
    Prod.mk.injEq, Datum.str.injEq, Datum.bool.injEq, true_and, and_true] at h
  obtain ⟨hName, hType, hMutable⟩ := h
  rw [Field.flatten, Field.flatten, hName, hMutable, TypeMark.flatten_congr hType]

theorem map_flatten_congr {α : Type} {toDatum : α → Datum} {flatten : α → List Piece}
    (hItem : ∀ {a a'}, toDatum a = toDatum a' → flatten a = flatten a') {as as' : List α}
    (h : as.map toDatum = as'.map toDatum) : as.map flatten = as'.map flatten := by
  induction as generalizing as' with
  | nil =>
    cases as' with
    | nil => rfl
    | cons => cases h
  | cons a as ih =>
    cases as' with
    | nil => cases h
    | cons a' as' =>
      simp only [map_cons, List.cons.injEq] at h ⊢
      exact ⟨hItem h.1, ih h.2⟩

attribute [local simp] Stmt.toDatum record

mutual

/-- **Flattening reads no more of a statement than its record.** -/
theorem Stmt.flatten_congr : ∀ {s s' : Stmt}, s.toDatum = s'.toDatum → s.flatten = s'.flatten
  | .function name params result body, s', h => by
      cases s' <;> simp at h
      obtain ⟨rfl, hParams, hResult, hBody⟩ := h
      rw [Stmt.flatten, Stmt.flatten, map_flatten_congr Param.flatten_congr hParams,
        TypeMark.flatten_congr hResult, flattenAll_congr hBody]
  | .struct name fields, s', h => by
      cases s' <;> simp at h
      obtain ⟨rfl, hFields⟩ := h
      rw [Stmt.flatten, Stmt.flatten, map_flatten_congr Field.flatten_congr hFields]
  | .var name type initial isConst, s', h => by
      cases s' <;> simp at h
      obtain ⟨rfl, hType, hInitial, rfl⟩ := h
      rw [Stmt.flatten, Stmt.flatten, TypeMark.flatten_congr hType, optionalDatum_injective hInitial]
  | .branch condition yes no, s', h => by
      cases s' <;> simp at h
      obtain ⟨hCondition, hYes, hNo⟩ := h
      rw [Stmt.flatten, Stmt.flatten, Expr.toDatum_injective hCondition, Stmt.flatten_congr hYes, flattenElse_congr hNo]
  | .loop body, s', h => by
      cases s' <;> simp at h
      rw [Stmt.flatten, Stmt.flatten, flattenAll_congr h]
  | .ret keyword value, s', h => by
      cases s' <;> simp at h
      rw [Token.toDatum_injective h.1, optionalDatum_injective h.2]
  | .block body, s', h => by
      cases s' <;> simp at h
      rw [Stmt.flatten, Stmt.flatten, flattenAll_congr h]
  | .expression e, s', h => by
      cases s' <;> simp at h
      rw [Expr.toDatum_injective h]

theorem flattenElse_congr : ∀ {no no' : Option Stmt}, elseDatum no = elseDatum no' → flattenElse no = flattenElse no'
  | none, none, _ => rfl
  | none, some s', h => absurd h.symm s'.toDatum_ne_none
  | some s, none, h => absurd h s.toDatum_ne_none
  | some s, some s', h => by rw [flattenElse, flattenElse, Stmt.flatten_congr h]

theorem flattenAll_congr : ∀ {ss ss' : List Stmt}, stmtData ss = stmtData ss' → flattenAll ss = flattenAll ss'
  | [], ss', h => by
      cases ss' with
      | nil => rfl
      | cons => cases h
  | s :: ss, ss', h => by
      cases ss' with
      | nil => cases h
      | cons s' ss' =>
        simp only [stmtData, List.cons.injEq] at h
        rw [flattenAll, flattenAll, Stmt.flatten_congr h.1, flattenAll_congr h.2]

end

end Scriptling.Braced
