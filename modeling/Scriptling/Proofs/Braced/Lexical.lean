import Mathlib.Data.List.TakeWhile
import Scriptling.Braced.Scan
import Scriptling.Proofs.Text.Class

/-!
# Longest match

The lexical grammar of braced scripts says which texts are of which class, and nothing about how a text is read.
A text is cut into segments by taking, again and again, the longest text of any class that stands in front.
There is exactly one such segmentation, and it is the scanner's (`segmentation_iff`). So how the scanner cuts a text
is known from the grammar alone: a segment is the same before a blank (`segment_append`), and when the text is cut
behind it (`segment_cut`).
-/

namespace Scriptling.Braced

open List Text

variable {back front : List Char}

/-! ## The lexical grammar -/

def signs : List (List Char × Kind) :=
  [(['('], .leftParen), ([')'], .rightParen), (['\x7b'], .leftBrace), (['\x7d'], .rightBrace), ([','], .comma),
   (['.'], .dot), (['-'], .minus), (['+'], .plus), ([';'], .semicolon), (['*'], .star), (['\x60'], .backtick),
   ([':'], .colon), (['/'], .slash), (['!'], .bang), (['!', '='], .bangEqual), (['='], .equal),
   (['=', '='], .equalEqual), (['<'], .less), (['<', '='], .lessEqual), (['>'], .greater),
   (['>', '='], .greaterEqual)]

/-- Whether no token, comment or blank begins with `c`. -/
def beginsNothing (c : Char) : Prop :=
  singleKind? c = none ∧ extensible? c = none ∧ isGap c = false ∧ c ≠ '/' ∧ c ≠ '"' ∧
    isDigit c = false ∧ isWordStart c = false

/-- The texts of each class. Strings and block comments may lack their end. -/
inductive Lexical : Content → List Char → Prop where
  | sign {text kind} : (text, kind) ∈ signs → Lexical (.token kind) text
  | word {c cs} : isWordStart c = true → (∀ d ∈ cs, isWordChar d = true) → Lexical .word (c :: cs)
  | whole {ds} : ds ≠ [] → (∀ d ∈ ds, isDigit d = true) → Lexical .number ds
  | fraction {ds es} : ds ≠ [] → (∀ d ∈ ds, isDigit d = true) → es ≠ [] → (∀ e ∈ es, isDigit e = true) →
      Lexical .number (ds ++ '.' :: es)
  | string {body} : '"' ∉ body → Lexical .string ('"' :: body ++ ['"'])
  | blank {c} : isGap c = true → Lexical .skipped [c]
  | lineComment {body} : '\n' ∉ body → Lexical .skipped ('/' :: '/' :: body)
  | blockComment {body} : ¬ ['*', '/'] <:+: body → Lexical .skipped ('/' :: '*' :: body ++ ['*', '/'])
  | openComment {body} : ¬ ['*', '/'] <:+: body → Lexical .skipped ('/' :: '*' :: body)
  | stray {c} : beginsNothing c → Lexical .unexpected [c]
  | openString {body} : '"' ∉ body → Lexical .unterminated ('"' :: body)

/-- The segment is the longest text of any class in front of its input. -/
structure Segment.Longest (s : Segment) : Prop where
  lexical : Lexical s.content s.text
  longest : ∀ {content : Content} {text : List Char}, Lexical content text → text <+: s.text ++ s.rest →
    text.length ≤ s.text.length

/-- The text cut into its longest matches, one after another. -/
inductive Segmentation : List Char → List Segment → Prop where
  | nil : Segmentation [] []
  | cons {s later} : s.Longest → Segmentation s.rest later → Segmentation (s.text ++ s.rest) (s :: later)

/-! ## Blanks, comments and strings -/

variable {c g : Char} {cs text body : List Char} {content : Content} {s : Segment}

theorem isGap_iff (c : Char) : isGap c = true ↔ c ∈ [' ', '\r', '\t', '\n'] := by
  simp [isGap, or_assoc]

theorem segment_gap (h : isGap c = true) (cs : List Char) : segment c cs = ⟨.skipped, [c], cs⟩ := by
  obtain rfl | rfl | rfl | rfl : c = ' ' ∨ c = '\r' ∨ c = '\t' ∨ c = '\n' := by
    simpa using (isGap_iff c).mp h
  all_goals rfl

theorem segment_slash (cs : List Char) : segment '/' cs = afterSlash cs := rfl

theorem segment_quote (cs : List Char) : segment '"' cs = afterQuote cs := rfl

theorem not_infix_cons {c : Char} {body : List Char} (hBody : ¬ ['*', '/'] <:+: body)
    (hFirst : ¬ ['*', '/'] <+: c :: body) : ¬ ['*', '/'] <:+: c :: body := by
  rw [infix_cons_iff]
  exact not_or.mpr ⟨hFirst, hBody⟩

/-- A block comment goes on up to the first end mark, or to the end of the text. -/
theorem closeComment_cases (cs : List Char) :
    ∃ body, ¬ ['*', '/'] <:+: body ∧
      ((closeComment cs).1 = body ++ ['*', '/'] ∨ (closeComment cs).1 = body ∧ (closeComment cs).2 = []) := by
  induction cs using closeComment.induct with
  | case1 => exact ⟨[], by simp, .inr ⟨rfl, rfl⟩⟩
  | case2 rest => exact ⟨[], by simp, .inl rfl⟩
  | case3 c cs hMark text rest hClose ih =>
    obtain ⟨body, hBody, hText⟩ := ih
    rw [closeComment.eq_3 c cs hMark]
    have hAppend := closeComment_append cs
    refine ⟨c :: body, not_infix_cons hBody ?_, ?_⟩
    · -- a body that begins with the slash would have closed the comment here
      rintro ⟨tail, hTail⟩
      obtain ⟨rfl, rfl⟩ : '*' = c ∧ '/' :: tail = body := by simpa using hTail
      rcases hText with hText | ⟨hText, -⟩ <;>
        exact hMark _ rfl (by rw [← hAppend, hText]; rfl)
    · rcases hText with hText | ⟨hText, hRest⟩
      · exact .inl (by simp [hText])
      · exact .inr ⟨by simp [hText], hRest⟩

theorem closeComment_of_body {body : List Char} (h : ¬ ['*', '/'] <:+: body) (rest : List Char) :
    closeComment (body ++ '*' :: '/' :: rest) = (body ++ ['*', '/'], rest) := by
  induction body with
  | nil => rfl
  | cons c body ih =>
    have hBody : ¬ ['*', '/'] <:+: body := fun hIn => h (infix_cons_iff.mpr (.inr hIn))
    have hMark : ∀ tail, c = '*' → body ++ '*' :: '/' :: rest = '/' :: tail → False := by
      rintro tail rfl hTail
      cases body with
      | nil => cases hTail
      | cons d body =>
        obtain ⟨rfl, -⟩ := cons_eq_cons.mp hTail
        exact h ⟨[], body, rfl⟩
    rw [cons_append, closeComment.eq_3 c _ hMark, ih hBody]
    rfl

/-! ## The first character decides -/

theorem singleKind?_sign {k : Kind} (h : singleKind? c = some k) : ([c], k) ∈ signs := by
  unfold singleKind? at h
  split at h <;> cases h <;> decide

theorem extensible?_sign {alone joined : Kind} (h : extensible? c = some (alone, joined)) :
    ([c], alone) ∈ signs ∧ ([c, '='], joined) ∈ signs := by
  unfold extensible? at h
  split at h <;> cases h <;> decide

/-- A digit, a letter or an underscore begins nothing but numbers and words. -/
theorem plain_first (h : (isDigit c || isWordStart c) = true) :
    singleKind? c = none ∧ extensible? c = none ∧ c ≠ '/' ∧ isGap c = false ∧ c ≠ '"' := by
  have hSigns : signs.all (fun entry => entry.1.all fun x => !(isDigit x || isWordStart x)) = true := by decide
  have hNoSign : ∀ {k : Kind}, ([c], k) ∉ signs := fun hMem => by
    have hPlain := all_eq_true.mp hSigns _ hMem
    simp only [all_cons, h, Bool.not_true, Bool.false_and, reduceCtorEq] at hPlain
  have hGaps : [' ', '\r', '\t', '\n'].all (fun x => !(isDigit x || isWordStart x)) = true := by decide
  refine ⟨?_, ?_, ?_, ?_, ?_⟩
  · exact Option.eq_none_iff_forall_ne_some.mpr fun k hk => hNoSign (singleKind?_sign hk)
  · exact Option.eq_none_iff_forall_ne_some.mpr fun k hk => hNoSign (extensible?_sign hk).1
  · rintro rfl
    exact absurd h (by decide)
  · refine Bool.of_not_eq_true fun hGap => ?_
    simpa [h] using all_eq_true.mp hGaps c ((isGap_iff c).mp hGap)
  · rintro rfl
    exact absurd h (by decide)

theorem segment_digit (h : isDigit c = true) (cs : List Char) : segment c cs = afterDigit c cs := by
  obtain ⟨hSingle, hExtensible, hSlash, hGap, hQuote⟩ := plain_first (by rw [h, Bool.true_or])
  simp [segment, hSingle, hExtensible, hSlash, hGap, hQuote, h]

theorem segment_word (h : isWordStart c = true) (cs : List Char) :
    segment c cs = ⟨.word, c :: cs.takeWhile isWordChar, cs.dropWhile isWordChar⟩ := by
  obtain ⟨hSingle, hExtensible, hSlash, hGap, hQuote⟩ := plain_first (by rw [h, Bool.or_true])
  have hDigit : isDigit c = false := Bool.of_not_eq_true fun hDigit => by
    simp [isWordStart_of_isDigit hDigit] at h
  simp [segment, hSingle, hExtensible, hSlash, hGap, hQuote, hDigit, h]

theorem segment_stray (h : beginsNothing c) (cs : List Char) : segment c cs = ⟨.unexpected, [c], cs⟩ := by
  obtain ⟨hSingle, hExtensible, hGap, hSlash, hQuote, hDigit, hWord⟩ := h
  simp [segment, hSingle, hExtensible, hSlash, hGap, hQuote, hDigit, hWord]

/-! ## The scanner finds texts of the grammar -/

theorem orEqual_lexical {alone joined : Kind} (h : extensible? c = some (alone, joined)) (cs : List Char) :
    Lexical (orEqual c alone joined cs).content (orEqual c alone joined cs).text := by
  unfold orEqual
  split
  · exact .sign (extensible?_sign h).2
  · exact .sign (extensible?_sign h).1

theorem afterSlash_lexical (cs : List Char) : Lexical (afterSlash cs).content (afterSlash cs).text := by
  unfold afterSlash
  split
  next rest => exact .lineComment (not_mem_takeWhile_ne '\n' rest)
  next rest =>
    obtain ⟨body, hBody, hText | ⟨hText, -⟩⟩ := closeComment_cases rest
    · simpa [hText] using Lexical.blockComment hBody
    · simpa [hText] using Lexical.openComment hBody
  · exact show Lexical (.token .slash) ['/'] from .sign (by decide)

theorem afterQuote_lexical (cs : List Char) : Lexical (afterQuote cs).content (afterQuote cs).text := by
  have hBody := not_mem_takeWhile_ne '"' cs
  have hHead := dropWhile_ne_cases '"' cs
  unfold afterQuote
  cases hDrop : cs.dropWhile (· != '"') with
  | nil => exact .openString hBody
  | cons q rest =>
    obtain rfl : q = '"' := by simpa [hDrop] using hHead
    exact .string hBody

theorem afterDigit_lexical (h : isDigit c = true) (cs : List Char) :
    Lexical (afterDigit c cs).content (afterDigit c cs).text := by
  have hWhole : ∀ d ∈ c :: cs.takeWhile isDigit, isDigit d = true :=
    forall_mem_cons.mpr ⟨h, fun d hd => mem_takeWhile hd⟩
  unfold afterDigit
  dsimp only
  split
  next e rest hDrop =>
    split
    next hFirst =>
      exact .fraction (by simp) hWhole (by simp)
        (forall_mem_cons.mpr ⟨hFirst, fun d hd => mem_takeWhile hd⟩)
    · exact .whole (by simp) hWhole
  · exact .whole (by simp) hWhole

theorem segment_lexical (c : Char) (cs : List Char) : Lexical (segment c cs).content (segment c cs).text := by
  unfold segment
  split
  next hSingle => exact .sign (singleKind?_sign hSingle)
  next hExtensible => exact orEqual_lexical hExtensible cs
  next hSingle hExtensible =>
    split
    · exact afterSlash_lexical cs
    next hSlash =>
      split
      next hGap => exact .blank hGap
      next hGap =>
        split
        · exact afterQuote_lexical cs
        next hQuote =>
          split
          next hDigit => exact afterDigit_lexical hDigit cs
          next hDigit =>
            split
            next hWord => exact .word hWord fun d hd => mem_takeWhile hd
            next hWord =>
              exact .stray ⟨hSingle, hExtensible, by simpa using hGap, hSlash, hQuote, by simpa using hDigit,
                by simpa using hWord⟩

/-! ## The scanner reaches as far as the grammar allows -/

/-- The scanner takes the text, or more, where the text stands in front, and knows its class where nothing follows. -/
def Reached (content : Content) (text : List Char) : Prop :=
  ∃ c cs, text = c :: cs ∧ (∀ more, text.length ≤ (segment c (cs ++ more)).text.length) ∧
    (segment c cs).content = content

theorem length_le_takeWhile {p : Char → Bool} (h : ∀ c ∈ cs, p c = true) (more : List Char) :
    cs.length ≤ ((cs ++ more).takeWhile p).length := by
  rw [takeWhile_append_of_pos h, length_append]
  exact Nat.le_add_right _ _

theorem bne_of_not_mem (h : c ∉ cs) : ∀ d ∈ cs, (d != c) = true := by
  intro d hd
  rw [bne_iff_ne]
  exact fun hEq => h (hEq ▸ hd)

theorem segment_text_pos (c : Char) (cs : List Char) : 1 ≤ (segment c cs).text.length :=
  length_pos_iff.mpr (segment_text_ne_nil c cs)

theorem sign_reached {kind : Kind} (h : (text, kind) ∈ signs) : Reached (.token kind) text := by
  -- a sign is one character, or two of which the second is `=`
  have hTable : ∀ entry ∈ signs,
      entry.1 = [entry.1.headD ' '] ∧ (segment (entry.1.headD ' ') []).content = .token entry.2 ∨
      entry.1 = [entry.1.headD ' ', '='] ∧ singleKind? (entry.1.headD ' ') = none ∧
        (extensible? (entry.1.headD ' ')).map Prod.snd = some entry.2 := by decide
  rcases hTable _ h with ⟨hText, hContent⟩ | ⟨hText, hSingle, hJoined⟩
  · refine ⟨_, [], hText, fun more => ?_, hContent⟩
    rw [show text.length = 1 from congrArg List.length hText]
    exact segment_text_pos _ _
  · obtain ⟨⟨alone, joined⟩, hExtensible, rfl⟩ := Option.map_eq_some_iff.mp hJoined
    have hSegment (more : List Char) : segment (text.headD ' ') ('=' :: more) = ⟨.token joined, text, more⟩ := by
      rw [segment, hSingle, hExtensible]
      simp only [orEqual]
      rw [← hText]
    exact ⟨_, ['='], hText, fun more => by rw [singleton_append, hSegment], by rw [hSegment]⟩

theorem afterDigit_number (c : Char) (cs : List Char) :
    (afterDigit c cs).content = .number ∧ (cs.takeWhile isDigit).length + 1 ≤ (afterDigit c cs).text.length := by
  unfold afterDigit
  dsimp only
  split
  · split
    · exact ⟨rfl, by simp⟩
    · exact ⟨rfl, by simp⟩
  · exact ⟨rfl, by simp⟩

theorem whole_reached {ds : List Char} (hSome : ds ≠ []) (hDigits : ∀ d ∈ ds, isDigit d = true) :
    Reached .number ds := by
  obtain ⟨c, cs, rfl⟩ := exists_cons_of_ne_nil hSome
  obtain ⟨hFirst, hLater⟩ := forall_mem_cons.mp hDigits
  refine ⟨c, cs, rfl, fun more => ?_, by rw [segment_digit hFirst, (afterDigit_number c cs).1]⟩
  rw [segment_digit hFirst]
  exact Nat.le_trans (Nat.succ_le_succ (length_le_takeWhile hLater more)) (afterDigit_number c (cs ++ more)).2

theorem fraction_reached {ds es : List Char} (hSome : ds ≠ []) (hDigits : ∀ d ∈ ds, isDigit d = true)
    (hSome' : es ≠ []) (hFraction : ∀ e ∈ es, isDigit e = true) : Reached .number (ds ++ '.' :: es) := by
  obtain ⟨c, cs, rfl⟩ := exists_cons_of_ne_nil hSome
  obtain ⟨e, es, rfl⟩ := exists_cons_of_ne_nil hSome'
  obtain ⟨hFirst, hLater⟩ := forall_mem_cons.mp hDigits
  obtain ⟨hFirst', hLater'⟩ := forall_mem_cons.mp hFraction
  refine ⟨c, cs ++ '.' :: e :: es, rfl, fun more => ?_, by rw [segment_digit hFirst, (afterDigit_number c _).1]⟩
  have hPoint : isDigit '.' = false := by decide
  obtain ⟨hTake, hDrop⟩ := takeWhile_append_stop hLater (r := '.' :: e :: (es ++ more)) (by simp [hPoint])
  have hLength := length_le_takeWhile hLater' more
  have hInput : cs ++ '.' :: e :: es ++ more = cs ++ '.' :: e :: (es ++ more) := by simp
  rw [segment_digit hFirst, hInput, afterDigit, hTake, hDrop]
  simp only [hFirst', if_true, cons_append, length_cons, length_append]
  omega

/-- A comment without its end mark goes on over all that follows, up to that mark. -/
theorem length_le_closeComment (h : ¬ ['*', '/'] <:+: body) (more : List Char) :
    body.length ≤ (closeComment (body ++ more)).1.length := by
  have hAppend := closeComment_append (body ++ more)
  obtain ⟨closed, -, hText | ⟨-, hRest⟩⟩ := closeComment_cases (body ++ more)
  · refine Nat.le_of_not_lt fun hShort => h ?_
    -- the end mark would stand inside the body
    have hBody : (closeComment (body ++ more)).1 <+: body :=
      prefix_of_prefix_length_le ⟨_, hAppend⟩ (prefix_append body more) (Nat.le_of_lt hShort)
    rw [hText] at hBody
    exact (suffix_append closed ['*', '/']).isInfix.trans hBody.isInfix
  · rw [hRest, append_nil] at hAppend
    rw [hAppend, length_append]
    exact Nat.le_add_right _ _

theorem string_reached (hBody : '"' ∉ body) : Reached .string ('"' :: body ++ ['"']) := by
  have hSegment (more : List Char) : segment '"' (body ++ ['"'] ++ more) = ⟨.string, '"' :: body ++ ['"'], more⟩ := by
    obtain ⟨hTake, hDrop⟩ := takeWhile_append_ne hBody more
    rw [segment_quote, afterQuote, append_assoc, singleton_append, hTake, hDrop]
  refine ⟨'"', body ++ ['"'], rfl, fun more => by rw [hSegment], ?_⟩
  rw [← append_nil (body ++ ['"']), hSegment]

/-- A string without its end goes on over all that follows, up to a quote. -/
theorem openString_reached (hBody : '"' ∉ body) : Reached .unterminated ('"' :: body) := by
  have hOpen := bne_of_not_mem hBody
  have hText (cs : List Char) : (cs.takeWhile (· != '"')).length + 1 ≤ (segment '"' cs).text.length := by
    rw [segment_quote]
    unfold afterQuote
    split
    · simp
    · simp
  refine ⟨'"', body, rfl, fun more => ?_, ?_⟩
  · have hBodyText := length_le_takeWhile hOpen more
    exact Nat.le_trans (Nat.succ_le_succ hBodyText) (hText (body ++ more))
  · have hDrop : body.dropWhile (· != '"') = [] := dropWhile_eq_nil_iff.mpr hOpen
    rw [segment_quote, afterQuote, hDrop]

/-- **The scanner reaches as far as the grammar allows.** Open strings and comments need no rule of their own: what
closes them makes them longer. -/
theorem Lexical.reached (h : Lexical content text) : Reached content text := by
  cases h with
  | sign hMem => exact sign_reached hMem
  | @word c cs hFirst hLater =>
    refine ⟨c, cs, rfl, fun more => ?_, by rw [segment_word hFirst]⟩
    rw [segment_word hFirst]
    exact Nat.succ_le_succ (length_le_takeWhile hLater more)
  | whole hSome hDigits => exact whole_reached hSome hDigits
  | fraction hSome hDigits hSome' hFraction => exact fraction_reached hSome hDigits hSome' hFraction
  | string hBody => exact string_reached hBody
  | @blank c hGap => exact ⟨c, [], rfl, segment_text_pos c, by rw [segment_gap hGap]⟩
  | @lineComment body hBody =>
    refine ⟨'/', '/' :: body, rfl, fun more => ?_, rfl⟩
    exact Nat.succ_le_succ (Nat.succ_le_succ (length_le_takeWhile (bne_of_not_mem hBody) more))
  | @blockComment body hBody =>
    refine ⟨'/', '*' :: body ++ ['*', '/'], rfl, fun more => ?_, rfl⟩
    have hInput : '*' :: body ++ ['*', '/'] ++ more = '*' :: (body ++ '*' :: '/' :: more) := by simp
    rw [hInput, segment_slash, afterSlash, closeComment_of_body hBody]
    exact Nat.le_refl _
  | @openComment body hBody =>
    refine ⟨'/', '*' :: body, rfl, fun more => ?_, rfl⟩
    exact Nat.succ_le_succ (Nat.succ_le_succ (length_le_closeComment hBody more))
  | @stray c hNothing => exact ⟨c, [], rfl, segment_text_pos c, by rw [segment_stray hNothing]⟩
  | openString hBody => exact openString_reached hBody

theorem Lexical.numeral (h : Lexical .number text) : ∀ c ∈ text, isDigit c = true ∨ c = '.' := by
  cases h with
  | whole _ hDigits => exact fun c hc => .inl (hDigits c hc)
  | fraction _ hDigits _ hFraction =>
    intro c hc
    rcases mem_append.mp hc with hc | hc
    · exact .inl (hDigits c hc)
    · exact (mem_cons.mp hc).elim .inr fun hc => .inl (hFraction c hc)

/-! ## One segmentation -/

theorem Lexical.content_unique {content' : Content} (h : Lexical content text) (h' : Lexical content' text) :
    content = content' := by
  obtain ⟨c, cs, rfl, -, hContent⟩ := h.reached
  obtain ⟨c', cs', hText, -, hContent'⟩ := h'.reached
  obtain ⟨rfl, rfl⟩ := List.cons.inj hText
  exact hContent.symm.trans hContent'

/-- **The scanner takes the longest match.** -/
theorem segment_longest (c : Char) (cs : List Char) : (segment c cs).Longest where
  lexical := segment_lexical c cs
  longest := by
    intro content text hLexical hBegins
    obtain ⟨d, ds, rfl, hFar, -⟩ := hLexical.reached
    rw [segment_text] at hBegins
    obtain ⟨more, hMore⟩ := hBegins
    obtain ⟨rfl, rfl⟩ : d = c ∧ ds ++ more = cs := by simpa using hMore
    exact hFar more

theorem Segment.Longest.unique {s' : Segment} (h : s.Longest) (h' : s'.Longest)
    (hInput : s.text ++ s.rest = s'.text ++ s'.rest) : s = s' := by
  have hLe := h'.longest h.lexical ⟨s.rest, hInput⟩
  have hGe := h.longest h'.lexical ⟨s'.rest, hInput.symm⟩
  obtain ⟨content, text, rest⟩ := s
  obtain ⟨content', text', rest'⟩ := s'
  obtain ⟨rfl, rfl⟩ : text = text' ∧ rest = rest' := append_inj hInput (Nat.le_antisymm hLe hGe)
  obtain rfl : content = content' := h.lexical.content_unique h'.lexical
  rfl

/-- The segments of a text as the scanner finds them. -/
def segments : List Char → List Segment
  | [] => []
  | c :: cs => segment c cs :: segments (segment c cs).rest
termination_by cs => cs.length
decreasing_by exact segment_rest_lt c cs

theorem segmentation_segments (cs : List Char) : Segmentation cs (segments cs) := by
  induction cs using segments.induct with
  | case1 =>
    rw [segments]
    exact .nil
  | case2 c cs ih =>
    rw [segments]
    have hCons := Segmentation.cons (segment_longest c cs) ih
    rwa [segment_text] at hCons

/-- **A text has one segmentation by longest match, and it is the scanner's.** -/
theorem segmentation_iff {ss : List Segment} : Segmentation cs ss ↔ ss = segments cs := by
  constructor
  · intro h
    induction h with
    | nil => rw [segments]
    | @cons s later hLongest _ ih =>
      obtain ⟨c, cs, hText, -⟩ := hLongest.lexical.reached
      have hSegment : s = segment c (cs ++ s.rest) := by
        refine hLongest.unique (segment_longest _ _) ?_
        rw [segment_text, hText]
        rfl
      rw [hText, cons_append, segments, ← hSegment, ih]
  · rintro rfl
    exact segmentation_segments cs

/-- A segment stands behind the texts of those before it. -/
theorem Segmentation.split {before after : List Segment} (h : Segmentation cs (before ++ s :: after)) :
    s.Longest ∧ cs = before.flatMap Segment.text ++ (s.text ++ s.rest) ∧ Segmentation s.rest after := by
  induction before generalizing cs with
  | nil =>
    cases h with
    | cons hLongest hLater => exact ⟨hLongest, rfl, hLater⟩
  | cons b before ih =>
    cases h with
    | cons _ hLater =>
      obtain ⟨hLongest, hRest, hAfter⟩ := ih hLater
      exact ⟨hLongest, by rw [hRest, flatMap_cons, append_assoc], hAfter⟩

/-! ## Cutting a text and going on behind it -/

/-- A text of the grammar that is the whole input is its one segment. -/
theorem Lexical.segment_eq (h : Lexical content (c :: cs)) : segment c cs = ⟨content, c :: cs, []⟩ := by
  refine (segment_longest c cs).unique ⟨h, fun _ hBegins => ?_⟩ (by rw [segment_text, append_nil])
  rw [append_nil] at hBegins
  exact hBegins.length_le

/-- With less behind it, the longest match is still the longest. -/
theorem Segment.Longest.cut (h : s.Longest) (hFront : front <+: s.rest) :
    Segment.Longest ⟨s.content, s.text, front⟩ where
  lexical := h.lexical
  longest := fun hLexical hBegins =>
    h.longest hLexical (hBegins.trans (prefix_append_right_inj s.text |>.mpr hFront))

theorem segment_cut (hFront : front <+: (segment c cs).rest) :
    ∃ tail, (segment c cs).text = c :: tail ∧
      segment c (tail ++ front) = ⟨(segment c cs).content, (segment c cs).text, front⟩ := by
  obtain ⟨d, tail, hText, -⟩ := (segment_lexical c cs).reached
  obtain rfl : d = c := by
    have hInput := segment_text c cs
    rw [hText] at hInput
    exact (List.cons.inj hInput).1
  refine ⟨tail, hText, (segment_longest d (tail ++ front)).unique ((segment_longest d cs).cut hFront) ?_⟩
  rw [segment_text, hText]
  rfl

/-- The segment would take in this character behind the text: it is an open string, an open block comment, or a
line comment, which only a line feed ends. -/
def Segment.reaches (s : Segment) (next : Char) : Bool :=
  s.rest.isEmpty &&
    (s.content == .unterminated ||
      s.content == .skipped && s.text.take 2 == ['/', '*'] && !(List.isSuffixOf ['*', '/'] (s.text.drop 2)) ||
      s.content == .skipped && s.text.take 2 == ['/', '/'] && next != '\n')

/-- The same segment with more behind it. -/
def Segment.extend (s : Segment) (more : List Char) : Segment := { s with rest := s.rest ++ more }

theorem isGap_false_of (hGap : isGap g = true) {p : Char → Bool} (hp : [' ', '\r', '\t', '\n'].any p = false) :
    p g = false :=
  Bool.of_not_eq_true (any_eq_false.mp hp g ((isGap_iff g).mp hGap))

/-- What stands before a character that is not in the second part is in the first part. -/
theorem prefix_of_append_eq {tail : List Char} (h : body ++ tail = front ++ g :: back) (hg : g ∉ tail) :
    front <+: body := by
  rcases append_eq_append_iff.mp h with ⟨more, -, rfl⟩ | ⟨more, rfl, -⟩
  · simp at hg
  · exact prefix_append _ _

theorem front_of_append_eq {m : Char} {more : List Char} (h : front ++ g :: back = m :: more) (hg : g ≠ m) :
    ∃ inner, front = m :: inner ∧ inner ++ g :: back = more := by
  cases front with
  | nil => exact absurd (List.cons.inj h).1 hg
  | cons d front =>
    obtain ⟨rfl, rfl⟩ := List.cons.inj h
    exact ⟨front, rfl, rfl⟩

theorem openComment_reaches (h : ¬ ['*', '/'] <:+: body) (hFront : front <+: body) (next : Char) :
    ∃ content, Lexical content ('/' :: '*' :: front) ∧
      Segment.reaches ⟨content, '/' :: '*' :: front, []⟩ next = true := by
  have hOpen : ¬ ['*', '/'] <:+: front := fun hIn => h (hIn.trans hFront.isInfix)
  have hSuffix : List.isSuffixOf ['*', '/'] front = false := Bool.of_not_eq_true fun hEnd =>
    hOpen (isSuffixOf_iff_suffix.mp hEnd).isInfix
  exact ⟨_, .openComment hOpen, by simp [Segment.reaches, hSuffix]⟩

/-- Only strings and comments go on over a blank, and before it they are open. -/
theorem Lexical.open_before_gap (hGap : isGap g = true)
    (h : Lexical content (c :: (front ++ g :: back))) :
    ∃ content', Lexical content' (c :: front) ∧ Segment.reaches ⟨content', c :: front, []⟩ g = true := by
  have hMem : g ∈ c :: (front ++ g :: back) := by simp
  have hDigit : isDigit g = false := isGap_false_of hGap (by decide)
  have hStar : g ≠ '*' := by simpa using isGap_false_of hGap (p := (· == '*')) (by decide)
  have hSlash : g ≠ '/' := by simpa using isGap_false_of hGap (p := (· == '/')) (by decide)
  have hQuote : g ≠ '"' := by simpa using isGap_false_of hGap (p := (· == '"')) (by decide)
  generalize hInput : front ++ g :: back = input at h hMem
  generalize hText : c :: input = text at h hMem
  cases h with
  | sign hSign =>
    have hSigns : signs.all (fun entry => entry.1.all fun x => !isGap x) = true := by decide
    simpa [hGap] using all_eq_true.mp (all_eq_true.mp hSigns _ hSign) g hMem
  | word _ hLater =>
    obtain ⟨rfl, rfl⟩ := List.cons.inj hText
    have hWord : isWordChar g = false := isGap_false_of hGap (by decide)
    simp [hLater g (by simp [← hInput])] at hWord
  | whole hSome hDigits => simp [hDigits g hMem] at hDigit
  | fraction hSome hDigits hSome' hFraction =>
    rcases (Lexical.fraction hSome hDigits hSome' hFraction).numeral g hMem with h | rfl
    · simp [h] at hDigit
    · cases hGap
  | string hBody =>
    obtain ⟨rfl, rfl⟩ := List.cons.inj hText
    have hFront := prefix_of_append_eq hInput.symm (by simpa using hQuote)
    exact ⟨_, .openString fun hIn => hBody (hFront.subset hIn), rfl⟩
  | openString hBody =>
    obtain ⟨rfl, rfl⟩ := List.cons.inj hText
    exact ⟨_, .openString fun hIn => hBody (by simp [← hInput, hIn]), rfl⟩
  | blank | stray => simp [← hInput] at hText
  | lineComment hBody =>
    obtain ⟨rfl, rfl⟩ := List.cons.inj hText
    obtain ⟨inner, rfl, rfl⟩ := front_of_append_eq hInput hSlash
    have hFeed : g ≠ '\n' := fun hEq => hBody (by simp [hEq])
    exact ⟨_, .lineComment fun hIn => hBody (by simp [hIn]), by simp [Segment.reaches, hFeed]⟩
  | blockComment hBody =>
    obtain ⟨rfl, rfl⟩ := List.cons.inj hText
    obtain ⟨inner, rfl, hInner⟩ := front_of_append_eq hInput hStar
    exact openComment_reaches hBody (prefix_of_append_eq hInner.symm (by simp [hStar, hSlash])) g
  | openComment hBody =>
    obtain ⟨rfl, rfl⟩ := List.cons.inj hText
    obtain ⟨inner, rfl, rfl⟩ := front_of_append_eq hInput hStar
    exact openComment_reaches hBody (prefix_append _ _) g

/-- **A segment before a blank** stays as it is, unless it is inside a string or a comment. -/
theorem segment_append (hGap : isGap g = true) (c : Char) {cs : List Char} (hOpen : (segment c cs).reaches g = false)
    (rest : List Char) : segment c (cs ++ g :: rest) = (segment c cs).extend (g :: rest) := by
  have hInput : (segment c cs).text ++ ((segment c cs).rest ++ g :: rest) = c :: cs ++ g :: rest := by
    rw [← append_assoc, segment_text]
  refine (segment_longest c _).unique ⟨segment_lexical c cs, fun {_ text} hLexical hBegins => ?_⟩
    (by rw [segment_text]; exact hInput.symm)
  rw [Segment.extend, hInput] at hBegins
  by_cases hShort : text.length ≤ (c :: cs).length
  · refine (segment_longest c cs).longest hLexical ?_
    rw [segment_text]
    exact prefix_of_prefix_length_le hBegins (prefix_append _ _) hShort
  · -- a longer text goes on over the blank
    obtain ⟨_ | ⟨d, back⟩, rfl⟩ := prefix_of_prefix_length_le (prefix_append (c :: cs) (g :: rest)) hBegins (by omega)
    · simp at hShort
    obtain rfl : d = g := by
      have hMore := (prefix_append_right_inj (c :: cs)).mp hBegins
      exact (cons_prefix_cons.mp hMore).1
    obtain ⟨_, hWhole, hReaches⟩ := hLexical.open_before_gap hGap
    rw [hWhole.segment_eq] at hOpen
    simp [hReaches] at hOpen

end Scriptling.Braced
