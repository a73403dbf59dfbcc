import Scriptling.Proofs.Braced.Reading

/-!
# Enough fuel

Every result costs a token: expressions and statements read one, and a declaration that fails is skipped over by at
least one unless it stands at the end. So no token is read twice, and fuel in proportion to the tokens is enough
(`program_fed`).

A parser is fed if it does not run out of fuel on so many tokens, and its results cost so many of them; what follows
it need not be fed for those.
-/

namespace Scriptling.Braced

variable {k n : Nat} {kinds : List Kind}

namespace Parser

variable {α β : Type} {p : Parser α} {k c c' : Nat} {f : α → Parser β} {t : Token} {ts : List Token}

/-- On these tokens the parser does not run out of fuel, and a result costs so many of them. -/
def FedOn (p : Parser α) (ts : List Token) (cost : Nat) : Prop :=
  (p ts).ending ≠ .outOfFuel ∧ ∀ a rest ds, p ts = ⟨.ok a, rest, ds⟩ → rest.length + cost ≤ ts.length

/-- A parser has fuel enough for `k` tokens, and its results cost so many. -/
def Fed (p : Parser α) (k cost : Nat) : Prop := ∀ ts, ts.length ≤ k → FedOn p ts cost

theorem Fed.mono {j : Nat} (h : Fed p k c) (hj : j ≤ k) : Fed p j c := fun ts hts => h ts (Nat.le_trans hts hj)

theorem FedOn.le (h : FedOn p ts c) (hc : c' ≤ c) : FedOn p ts c' :=
  ⟨h.1, fun a rest ds hRun => Nat.le_trans (Nat.add_le_add_left hc _) (h.2 a rest ds hRun)⟩

theorem Fed.le (h : Fed p k c) (hc : c' ≤ c) : Fed p k c' := fun ts hts => (h ts hts).le hc

theorem FedOn.bind (hp : FedOn p ts c) (hf : ∀ a mid, mid.length + c ≤ ts.length → FedOn (f a) mid c') :
    FedOn (p >>= f) ts (c + c') := by
  obtain ⟨hFuel, hCost⟩ := hp
  rcases h : p ts with ⟨a | _ | _ | _, mid, ds⟩ <;> rw [h] at hFuel
  · have hMid := hCost a mid ds h
    rw [FedOn, bind_of_ok h]
    refine ⟨(hf a mid hMid).1, fun b rest ds' hRun => ?_⟩
    obtain ⟨hEnding, hRest, -⟩ := Reply.mk.injEq .. ▸ hRun
    have := (hf a mid hMid).2 b rest _ (by rw [← hEnding, ← hRest])
    omega
  · simp [FedOn, bind_of_failed h]
  · simp [FedOn, bind_of_offEnd h]
  · exact absurd rfl hFuel

/-- What follows a parser has fewer tokens to deal with. -/
theorem Fed.bind (hp : Fed p k c) (hf : ∀ a j, j + c ≤ k → Fed (f a) j c') : Fed (p >>= f) k (c + c') :=
  fun ts hts => (hp ts hts).bind fun a mid hMid => hf a mid.length (Nat.le_trans hMid hts) mid (Nat.le_refl _)

/-- The same where it does not matter what a result costs. -/
theorem Fed.bind_free (hp : Fed p k c) (hf : ∀ a j, j + c ≤ k → Fed (f a) j 0) : Fed (p >>= f) k 0 :=
  (hp.bind hf).le (Nat.zero_le _)

theorem pure_fed (a : α) (k : Nat) : Fed (pure a) k 0 := by
  refine fun ts _ => ⟨by simp [pure_apply], fun b rest ds h => ?_⟩
  obtain ⟨-, rfl, -⟩ := pure_eq_ok h
  exact Nat.le_refl _

theorem Fed.bind_pure (hp : Fed p k c) (f : α → β) : Fed (p >>= fun a => pure (f a)) k c :=
  hp.bind fun a j _ => pure_fed (f a) j

theorem complain_fed (t : Token) (m : Complaint) (k : Nat) : Fed (complain t m) k 0 := by
  refine fun ts _ => ⟨by simp [complain], fun a rest ds h => ?_⟩
  obtain ⟨-, rfl, -⟩ := Reply.mk.injEq .. ▸ h
  exact Nat.le_refl _

theorem peek_fed (k : Nat) : Fed peek k 0 := by
  intro ts _
  cases ts with
  | nil => simp [FedOn, peek]
  | cons t ts => exact ⟨by simp [peek], fun a rest ds h => by simp [← (Reply.mk.injEq .. ▸ h).2.1]⟩

theorem refuse_fed (m : Complaint) (k c : Nat) : Fed (refuse m : Parser α) k c := by
  intro ts _
  cases ts <;> simp [FedOn, refuse]

/-- Behind a token that is read there is one less to deal with, and less to be paid. -/
theorem Fed.accept_bind {f : Option Token → Parser β}
    (hSome : ∀ t, ∀ j < k, Fed (f (some t)) j (c - 1)) (hNone : Fed (f none) k c) : Fed (accept kinds >>= f) k c := by
  intro ts hts
  cases ts with
  | nil => simp [FedOn, accept, Bind.bind, Parser.bind]
  | cons t ts =>
    by_cases hMem : t.kind ∈ kinds
    · have hRead : accept kinds (t :: ts) = ⟨.ok (some t), ts, []⟩ := by simp [accept, hMem]
      obtain ⟨hFuel, hCost⟩ := hSome t ts.length hts ts (Nat.le_refl _)
      rw [FedOn, bind_of_ok hRead]
      refine ⟨hFuel, fun b rest ds hRun => ?_⟩
      have := hCost b rest ds hRun
      rw [List.length_cons]
      omega
    · have hLeft : accept kinds (t :: ts) = ⟨.ok none, t :: ts, []⟩ := by simp [accept, hMem]
      rw [FedOn, bind_of_ok hLeft]
      exact hNone (t :: ts) hts

theorem expect_fed (kind : Kind) (m : Complaint) (k : Nat) : Fed (expect kind m) k 1 :=
  Fed.accept_bind (fun t j _ => pure_fed t j) (refuse_fed m k 1)

theorem Fed.expect_bind {kind : Kind} {m : Complaint} {f : Token → Parser β} (hf : ∀ t, ∀ j < k, Fed (f t) j 0) :
    Fed (expect kind m >>= f) k 1 :=
  (expect_fed kind m k).bind hf

theorem Fed.endedBy (hp : Fed p k c) (kind : Kind) (m : Complaint) : Fed (endedBy p kind m) k (c + 1) :=
  hp.bind fun a j _ => (expect_fed kind m j).bind_pure fun _ => a

theorem FedOn.unlessSees (a : α) (hp : ∀ t more, ts = t :: more → t.kind ∉ kinds → FedOn p ts 0) :
    FedOn (unlessSees kinds a p) ts 0 := by
  cases ts with
  | nil => simp [FedOn, unlessSees_nil]
  | cons t ts =>
    by_cases hMem : t.kind ∈ kinds
    · rw [FedOn, unlessSees_of_mem hMem]
      exact ⟨by simp, fun b rest ds h => by simp [← (Reply.mk.injEq .. ▸ h).2.1]⟩
    · rw [FedOn, unlessSees_of_notMem hMem]
      exact hp t ts rfl hMem

theorem Fed.unlessSees (hp : Fed p k 0) (kinds : List Kind) (a : α) : Fed (unlessSees kinds a p) k 0 :=
  fun ts hts => .unlessSees a fun _ _ _ _ => hp ts hts

theorem Fed.ifMarked (hp : ∀ j < k, Fed p j 0) (marks : List Kind) : Fed (ifMarked marks p) k 0 :=
  .accept_bind (fun _ j hj => (hp j hj).bind_pure some) (pure_fed _ k)

theorem Fed.items (hp : Fed p k 1) (m : Complaint) (hn : k < n) (count : Nat) : Fed (items p m n count) k 0 := by
  induction n generalizing k count with
  | zero => omega
  | succ n ih =>
    have hCheck : Fed (checkCount count m) k 0 := by
      unfold checkCount
      split
      · exact (peek_fed k).bind fun t j _ => complain_fed t m j
      · exact pure_fed () k
    refine hCheck.bind_free fun _ i _ => (hp.mono (by omega)).bind_free fun first j hj => ?_
    refine .accept_bind (fun _ h hh => ?_) (pure_fed _ j)
    exact (ih (hp.mono (by omega)) (by omega) (count + 1)).bind_pure _

theorem Fed.listed (hp : Fed p k 1) (m : Complaint) (hn : k < n) : Fed (listed p m n) k 0 :=
  (hp.items m hn 0).unlessSees _ _

/-- Reading goes on behind a failure, or the failure itself has moved on. -/
theorem FedOn.recover (hp : FedOn p (t :: ts) 1) (hO : Orderly p) (ht : t.kind ≠ .endOfFile) :
    FedOn (recover p) (t :: ts) 1 := by
  obtain ⟨hFuel, hCost⟩ := hp
  rcases hRun : p (t :: ts) with ⟨a | _ | _ | _, mid, ds⟩ <;> rw [hRun] at hFuel <;>
    simp only [FedOn, Parser.recover, hRun]
  · refine ⟨by simp, fun b rest ds' h => ?_⟩
    obtain ⟨-, rfl, -⟩ := Reply.mk.injEq .. ▸ h
    exact hCost a mid ds hRun
  · have hMid : mid <:+ t :: ts := by
      have hRest := (hO (t :: ts)).1
      rwa [hRun] at hRest
    have hSkip := synchronize_ending mid
    rcases hSync : synchronize mid with ⟨u | _ | _ | _, left, more⟩ <;> rw [hSync] at hSkip
    · refine ⟨by simp, fun b rest ds' h => ?_⟩
      obtain ⟨-, rfl, -⟩ := Reply.mk.injEq .. ▸ h
      have hLeft : left.length ≤ mid.length := synchronize_orderly.length_le hSync
      have hLe := hMid.length_le
      show left.length + 1 ≤ _
      by_cases hSame : mid = t :: ts
      · subst hSame
        rw [synchronize, if_neg ht] at hSync
        exact Nat.succ_le_succ ((skipFrom_orderly t).length_le hSync)
      · have hNe : mid.length ≠ (t :: ts).length := fun hLen => hSame (hMid.eq_of_length hLen)
        omega
    · simp
    · simp
    · simp at hSkip
  · simp
  · exact absurd rfl hFuel

end Parser

open Braced.Parser

variable {α : Type}

/-! ## Fuel for the tokens there are

A list of `k` tokens needs 16 units of fuel for each of them. On the way to the next token the parsers go
down at most 13 steps, from a list of declarations to a primary expression; the steps that remain to be
gone are the small number that each bound adds. -/

theorem assignTo_fed {p : Parser Expr} (hp : ∀ j < k, Fed p j 1) (target : Expr) : Fed (assignTo p target) k 0 := by
  refine .accept_bind (fun equals j hj => (hp j hj).bind_free fun value i _ => ?_) (pure_fed _ k)
  cases target with
  | «variable» name => exact pure_fed _ i
  | _ => exact (complain_fed _ _ i).bind_pure _

theorem atom_fed {p : Parser Expr} (hp : Fed p k 1) (t : Token) : Fed (atom p t) k 0 := by
  unfold atom
  split
  · exact pure_fed _ k
  · exact pure_fed _ k
  · exact pure_fed _ k
  · exact (hp.endedBy _ _).bind_free fun _ j _ => pure_fed _ j
  · exact pure_fed _ k

/-- Fuel enough for the parsers of expressions on `k` tokens. -/
structure ExpressionsFed (n : Nat) : Prop where
  expression : ∀ k, 16 * k + 10 ≤ n → Fed (expression n) k 1
  operand : ∀ k level, 16 * k + 3 + (topLevel - level) ≤ n → Fed (operand n level) k 1
  chain : ∀ k level left, 16 * k + 1 ≤ n → Fed (chain n level left) k 0
  unary : ∀ k, 16 * k + 2 ≤ n → Fed (unary n) k 1
  calls : ∀ k callee, 16 * k + 1 ≤ n → Fed (calls n callee) k 0
  primary : ∀ k, 16 * k + 1 ≤ n → Fed (primary n) k 1

theorem expressions_fed (n : Nat) : ExpressionsFed n := by
  induction n with
  | zero => constructor <;> intros <;> omega
  | succ n ih =>
    have hTop : topLevel = 6 := rfl
    constructor
    · intro k hk
      rw [expression]
      exact (ih.operand k 0 (by omega)).bind fun target j _ =>
        assignTo_fed (fun i hi => ih.expression i (by omega)) target
    · intro k level hk
      rw [operand]
      split
      · exact (ih.operand k (level + 1) (by omega)).bind fun left j _ => ih.chain j level left (by omega)
      · exact ih.unary k (by omega)
    · intro k level left hk
      rw [chain]
      refine .accept_bind (fun op j hj => ?_) (pure_fed _ k)
      exact (ih.operand j (level + 1) (by omega)).bind_free fun right i _ => ih.chain i level _ (by omega)
    · intro k hk
      rw [unary]
      refine .accept_bind (fun op j hj => ?_) ?_
      · exact (ih.unary j (by omega)).bind_free fun right i _ => pure_fed _ i
      · exact (ih.primary k (by omega)).bind fun callee j _ => ih.calls j callee (by omega)
    · intro k callee hk
      rw [calls]
      refine .accept_bind (fun _ j hj => ?_) (pure_fed _ k)
      refine ((ih.expression j (by omega)).listed _ (by omega)).bind_free fun arguments i _ => ?_
      exact (expect_fed _ _ i).bind_free fun paren h _ => ih.calls h _ (by omega)
    · intro k hk
      rw [primary]
      exact .accept_bind (fun t j hj => atom_fed (ih.expression j (by omega)) t) (refuse_fed _ k 1)

theorem typeName_fed (k : Nat) : Fed typeName k 0 := by
  refine .accept_bind (fun t j _ => ?_) ?_
  · dsimp only
    split <;> exact pure_fed _ j
  · exact (peek_fed k).bind_free fun t j _ => (complain_fed t _ j).bind_pure _

theorem typeMark_fed (marks : List Kind) (k : Nat) : Fed (typeMark marks) k 0 :=
  (Fed.ifMarked (fun j _ => typeName_fed j) marks).bind_pure _

theorem parameter_fed (k : Nat) : Fed parameter k 1 := .expect_bind fun _ j _ => (typeMark_fed _ j).bind_pure _

theorem structField_fed (k : Nat) : Fed structField k 1 := by
  have hName (k : Nat) (mutable : Bool) : Fed (do
      let name ← expect .identifier .fieldName
      let _ ← expect .colon .fieldColon
      let type ← endedBy typeName .semicolon .fieldEnd
      return (⟨name.lexeme, type, mutable⟩ : Field)) k 1 := by
    refine .expect_bind fun _ j _ => (expect_fed _ _ j).bind_free fun _ i _ => ?_
    exact ((typeName_fed i).endedBy _ _).bind_free fun _ h _ => pure_fed _ h
  exact .accept_bind (fun _ j _ => (hName j true).le (Nat.zero_le 1)) (hName k false)

theorem structFields_fed (hn : k < n) : Fed (structFields n) k 0 := by
  induction n generalizing k with
  | zero => omega
  | succ n ih =>
    refine Fed.unlessSees ?_ _ _
    exact (structField_fed k).bind_free fun _ j _ => (ih (by omega)).bind_pure _

theorem keywordDeclaration_fed (hn : 16 * k + 10 ≤ n) {p : Parser (List Stmt)} (hp : ∀ j ≤ k, Fed p j 0) (t : Token) :
    Fed (keywordDeclaration n p t) k 0 := by
  unfold keywordDeclaration
  split
  · refine (expect_fed _ _ k).bind_free fun _ j _ => (expect_fed _ _ j).bind_free fun _ i _ => ?_
    refine (((parameter_fed i).listed _ (by omega)).endedBy _ _).bind_free fun _ j _ => ?_
    refine (typeMark_fed _ j).bind_free fun _ i _ => (expect_fed _ _ i).bind_free fun _ j _ => ?_
    exact ((hp j (by omega)).endedBy _ _).bind_free fun _ i _ => pure_fed _ i
  · refine (expect_fed _ _ k).bind_free fun _ j _ => (expect_fed _ _ j).bind_free fun _ i _ => ?_
    exact ((structFields_fed (by omega)).endedBy _ _).bind_free fun _ j _ => pure_fed _ j
  · refine (expect_fed _ _ k).bind_free fun _ j _ => (typeMark_fed _ j).bind_free fun _ i _ => ?_
    have hInitial : Fed (ifMarked [.equal] (expression n)) i 0 :=
      .ifMarked (fun j hj => ((expressions_fed n).expression j (by omega)).le (Nat.zero_le 1)) _
    exact (hInitial.endedBy _ _).bind_free fun _ j _ => pure_fed _ j

theorem keywordStatement_fed (hn : 16 * k + 10 ≤ n) {p : Parser Stmt} {q : Parser (List Stmt)}
    (hp : ∀ j ≤ k, Fed p j 1) (hq : ∀ j ≤ k, Fed q j 0) (t : Token) : Fed (keywordStatement n p q t) k 0 := by
  have hE (j : Nat) (hj : j ≤ k) : Fed (expression n) j 1 := (expressions_fed n).expression j (by omega)
  unfold keywordStatement
  split
  · refine (expect_fed _ _ k).bind_free fun _ j _ => ((hE j (by omega)).endedBy _ _).bind_free fun _ i _ => ?_
    refine (hp i (by omega)).bind_free fun _ j _ => Fed.bind_pure (c := 0) ?_ _
    exact .ifMarked (fun h hh => (hp h (by omega)).le (Nat.zero_le 1)) _
  · refine (expect_fed _ _ k).bind_free fun _ j _ => ?_
    exact ((hq j (by omega)).endedBy _ _).bind_free fun _ i _ => pure_fed _ i
  · have hValue : Fed (some <$> expression n) k 0 := (hE k (Nat.le_refl k)).bind_free fun _ j _ => pure_fed _ j
    exact ((hValue.unlessSees _ _).endedBy _ _).bind_free fun _ j _ => pure_fed _ j
  · exact ((hq k (Nat.le_refl k)).endedBy _ _).bind_free fun _ j _ => pure_fed _ j

/-- Fuel enough for the parsers of statements. No declaration is looked for at the end. -/
structure StatementsFed (n : Nat) : Prop where
  declaration : ∀ t ts, t.kind ≠ .endOfFile → 16 * (t :: ts).length + 12 ≤ n → FedOn (declaration n) (t :: ts) 1
  statement : ∀ k, 16 * k + 11 ≤ n → Fed (statement n) k 1
  declarations : ∀ k, 16 * k + 13 ≤ n → Fed (declarations n) k 0

/-- One more declaration of a list needs fuel for itself, and for the others with a token less. -/
theorem StatementsFed.more (h : StatementsFed n) {p : Parser (List Stmt)} (hk : 16 * k + 12 ≤ n)
    (hOthers : ∀ j < k, Fed p j 0) (hEnd : .endOfFile ∈ kinds) : Fed (unlessSees kinds [] do
      let first ← Braced.declaration n
      return first.toList ++ (← p)) k 0 := by
  refine fun ts hts => .unlessSees [] fun t more hMore hKind => ?_
  subst hMore
  have hFirst := h.declaration t more (fun hLast => hKind (hLast ▸ hEnd)) (by omega)
  refine (hFirst.bind fun first mid hMid => ?_).le (Nat.zero_le (1 + 0))
  exact (hOthers mid.length (by omega)).bind_pure _ mid (Nat.le_refl _)

theorem statements_fed (n : Nat) : StatementsFed n := by
  induction n with
  | zero => constructor <;> intros <;> omega
  | succ n ih =>
    constructor
    · intro t ts ht hk
      rw [declaration]
      refine FedOn.recover ?_ (declarationBody_orderly n) ht
      refine Fed.accept_bind (fun t j hj => ?_) (ih.statement _ (by omega)) (t :: ts) (Nat.le_refl _)
      exact keywordDeclaration_fed (by omega) (fun i hi => ih.declarations i (by omega)) t
    · intro k hk
      rw [statement]
      refine .accept_bind (fun t j hj => ?_) ?_
      · exact keywordStatement_fed (by omega) (fun i hi => ih.statement i (by omega))
          (fun i hi => ih.declarations i (by omega)) t
      · exact ((((expressions_fed n).expression k (by omega)).endedBy _ _).le (Nat.le_succ 1)).bind_pure _
    · intro k hk
      rw [declarations]
      exact ih.more (by omega) (fun j hj => ih.declarations j (by omega)) (by decide)

/-- The parser of programs has fuel enough for as many tokens as `fuelFor` counts. -/
theorem program_fed (hn : 16 * k + 13 ≤ n) : Fed (program n) k 0 := by
  induction n generalizing k with
  | zero => omega
  | succ n ih =>
    rw [program]
    exact (statements_fed n).more (by omega) (fun j hj => ih (by omega)) (by decide)

end Scriptling.Braced
