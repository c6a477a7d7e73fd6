import K64Gateway.Lib.Strtod
import K64Gateway.Expression.Parser

/-
  Expression trees and their texts: white space in front of every token and at the end, and the
  keywords in any letter case.

  Proved: the tokens of a text are those of its tree, and an error where white space ends it
  (`lexemes_renders`).
-/

namespace K64Gateway.Expression

open CString Strtod

/-! ## Trees -/

/-- A number literal: digits, and maybe a point and more of them. -/
structure Literal where
  whole : List UInt8
  frac : Option (List UInt8)
  whole_ne : whole ≠ []
  whole_digits : ∀ c ∈ whole, isDigit c = true
  frac_digits : ∀ es ∈ frac, ∀ c ∈ es, isDigit c = true

def Literal.text (l : Literal) : List UInt8 :=
  l.whole ++ match l.frac with
    | some es => 46 :: es
    | none => []

/-- The decimal value. -/
def Literal.value (l : Literal) : ℚ :=
  ofDigits l.whole + match l.frac with
    | some es => (ofDigits es : ℚ) / 10 ^ es.length
    | none => 0

inductive TermSign where
  | multiply
  | divide
  | and

inductive ExpressionSign where
  | plus
  | minus
  | or

inductive Level where
  | factor
  | term
  | expression

/-- The trees of the three levels; operators of a level stand to the left of one another. -/
inductive Tree : Level → Type where
  | literal (l : Literal) : Tree .factor
  | call (f : Token) (hfunc : isFunctionToken f = true) (e : Tree .expression) : Tree .factor
  | paren (e : Tree .expression) : Tree .factor
  | ofFactor (f : Tree .factor) : Tree .term
  | termOp (op : TermSign) (t : Tree .term) (f : Tree .factor) : Tree .term
  | ofTerm (t : Tree .term) : Tree .expression
  | signed (minus : Bool) (t : Tree .term) : Tree .expression
  | expressionOp (op : ExpressionSign) (e : Tree .expression) (t : Tree .term) : Tree .expression

def TermSign.token : TermSign → Token
  | multiply => .multiply
  | divide => .divide
  | and => .opAnd

def ExpressionSign.token : ExpressionSign → Token
  | plus => .plus
  | minus => .minus
  | or => .opOr

namespace Tree

variable {k : Level}

/-- The tokens, from left to right. -/
def lexemes {k : Level} : Tree k → List (Lexeme Literal)
  | literal l => [.number l]
  | call f _ e => .tok f :: .tok .leftBanana :: (e.lexemes ++ [.tok .rightBanana])
  | paren e => .tok .leftBanana :: (e.lexemes ++ [.tok .rightBanana])
  | ofFactor f => f.lexemes
  | termOp op t f => t.lexemes ++ .tok op.token :: f.lexemes
  | ofTerm t => t.lexemes
  | signed minus t => .tok (if minus then .minus else .plus) :: t.lexemes
  | expressionOp op e t => e.lexemes ++ .tok op.token :: t.lexemes

def literals {k : Level} : Tree k → List Literal
  | literal l => [l]
  | call _ _ e => e.literals
  | paren e => e.literals
  | ofFactor f => f.literals
  | termOp _ t f => t.literals ++ f.literals
  | ofTerm t => t.literals
  | signed _ t => t.literals
  | expressionOp _ e t => e.literals ++ t.literals

end Tree

/-! ## Texts -/

/-- How a token is written. -/
inductive Spells : Lexeme Literal → List UInt8 → Prop where
  | char {c : UInt8} {t : Token} (h : (c, t) ∈ charToTokens) : Spells (.tok t) [c]
  | keyword {k s : List UInt8} {t : Token} (h : (k, t) ∈ keywordToTokens)
      (hcase : s.map toLower = k.map toLower) : Spells (.tok t) s
  | number (l : Literal) : Spells (.number l) l.text

def Spaces (ws : List UInt8) : Prop := ∀ c ∈ ws, isSpace c = true

/-- Tokens with any white space around them. -/
inductive Renders : List (Lexeme Literal) → List UInt8 → Prop where
  | done {ws : List UInt8} (hws : Spaces ws) : Renders [] ws
  | piece {ws s text : List UInt8} {l : Lexeme Literal} {ls : List (Lexeme Literal)}
      (hws : Spaces ws) (hspell : Spells l s) (hrest : Renders ls text) :
      Renders (l :: ls) (ws ++ (s ++ text))

/-- A tree with a text of it. -/
structure Rendering where
  tree : Tree .expression
  text : List UInt8
  renders : Renders tree.lexemes text

/-! ## Characters -/

theorem isDigit_toLower {c : UInt8} (h : isDigit c = true) : toLower c = c := by
  unfold isDigit at h
  unfold toLower
  grind

theorem isSpace_toLower {c : UInt8} (h : isSpace c = true) : toLower c = c := by
  unfold isSpace at h
  unfold toLower
  grind

theorem hasKeyword_iff (p k : List UInt8) :
    hasKeyword p k = true ↔ k.map toLower <+: p.map toLower := by
  unfold hasKeyword
  rw [beq_iff_eq, List.prefix_iff_eq_take, List.length_map, List.map_take, eq_comm]

/-- What may stand behind a number: no digit, no point and no exponent. -/
def Ends (rest : List UInt8) : Prop :=
  ∀ c, rest.head? = some c → isDigit c = false ∧ c ≠ 46 ∧ toLower c ≠ 101

theorem Ends.stops {rest : List UInt8} (h : Ends rest) : Stops rest := by
  intro c hc
  obtain ⟨hdigit, -, hexp⟩ := h c hc
  refine ⟨hdigit, ?_, ?_⟩
  · rintro rfl
    exact hexp rfl
  · rintro rfl
    exact hexp rfl

theorem ends_nil : Ends [] := nofun

theorem ends_space {c : UInt8} (h : isSpace c = true) (rest : List UInt8) : Ends (c :: rest) := by
  intro d hd
  obtain rfl : c = d := Option.some.inj hd
  refine ⟨Bool.eq_false_iff.mpr fun hdigit => ?_, ?_, ?_⟩
  · rw [isDigit_not_space hdigit] at h
    exact Bool.false_ne_true h
  · rintro rfl
    exact Bool.false_ne_true h
  · rw [isSpace_toLower h]
    rintro rfl
    exact Bool.false_ne_true h

/-! ## One token -/

namespace Literal

variable (l : Literal)

theorem text_ne : l.text ≠ [] := List.append_ne_nil_of_left_ne_nil l.whole_ne _

/-- Digits and points. -/
theorem of_mem_text {c : UInt8} (h : c ∈ l.text) : isDigit c = true ∨ c = 46 := by
  unfold text at h
  rcases List.mem_append.mp h with hc | hc
  · exact .inl (l.whole_digits c hc)
  · cases hfrac : l.frac with
    | none =>
      rw [hfrac] at hc
      exact nomatch hc
    | some es =>
      rw [hfrac] at hc
      rcases List.mem_cons.mp hc with rfl | hes
      · exact .inr rfl
      · exact .inl (l.frac_digits es hfrac c hes)

theorem text_head : ∃ c rest, l.text = c :: rest ∧ isDigit c = true := by
  obtain ⟨c, rest, hwhole⟩ := List.exists_cons_of_ne_nil l.whole_ne
  refine ⟨c, rest ++ match l.frac with
    | some es => 46 :: es
    | none => [], ?_, l.whole_digits c (hwhole ▸ List.mem_cons_self)⟩
  unfold text
  rw [hwhole]
  rfl

/-- The number that is read of a literal, whatever stands behind it. -/
theorem strtod_text {rest : List UInt8} (h : Ends rest) : strtod (l.text ++ rest) = l.value := by
  obtain ⟨c, tail, htext, hdigit⟩ := l.text_head
  have hunsigned : strtod (l.text ++ rest) = unsigned (l.text ++ rest) := by
    rw [htext]
    exact strtod_of_digit hdigit (tail ++ rest)
  rw [hunsigned]
  unfold text value
  cases hfrac : l.frac with
  | none =>
    dsimp only
    rw [List.append_nil, unsigned_whole l.whole_digits h.stops, add_zero]
    intro hpoint
    exact (h _ hpoint).2.1 rfl
  | some es =>
    have hpow : (10 : ℚ) ^ es.length ≠ 0 := pow_ne_zero _ (by norm_num)
    dsimp only
    rw [List.append_assoc, List.cons_append,
      unsigned_fraction l.whole_digits (l.frac_digits es hfrac) h.stops, ofDigits_append]
    push_cast
    field_simp

end Literal

/-- The characters of the keywords. -/
theorem keywordToTokens_eq : keywordToTokens =
    [([65, 66, 83], .funcAbs), ([83, 73, 78], .funcSin), ([67, 79, 83], .funcCos),
      ([73, 78, 84], .funcInt), ([84, 65, 78], .funcTan), ([83, 81, 82], .funcSqr),
      ([83, 71, 78], .funcSgn), ([76, 79, 71], .funcLog), ([69, 88, 80], .funcExp),
      ([65, 84, 78], .funcAtn), ([78, 79, 84], .funcNot), ([66, 67, 68, 50, 78], .funcBcd2n),
      ([70, 86, 65, 82], .funcVar), ([79, 82], .opOr), ([65, 78, 68], .opAnd)] := by
  simp [keywordToTokens, chars]

/-- A token has no white space. -/
theorem Spells.solid {l : Lexeme Literal} {s : List UInt8} (h : Spells l s) :
    s ≠ [] ∧ ∀ c ∈ s, isSpace c = false := by
  cases h with
  | @char c t h =>
    have hall : ∀ k ∈ charToTokens, isSpace k.1 = false := by decide
    refine ⟨List.cons_ne_nil _ _, fun d hd => ?_⟩
    rw [List.mem_singleton.mp hd]
    exact hall _ h
  | @keyword k _ t h hcase =>
    have hall : ∀ k ∈ keywordToTokens, k.1 ≠ [] ∧ ∀ c ∈ k.1.map toLower, isSpace c = false := by
      rw [keywordToTokens_eq]
      simp [toLower, isSpace]
    obtain ⟨hne, hsolid⟩ := hall _ h
    refine ⟨?_, fun c hc => Bool.eq_false_iff.mpr fun hspace => ?_⟩
    · rintro rfl
      exact hne (List.map_eq_nil_iff.mp hcase.symm)
    · have hmem := hsolid (toLower c) (hcase ▸ List.mem_map_of_mem hc)
      rw [isSpace_toLower hspace, hspace] at hmem
      exact Bool.false_ne_true hmem.symm
  | number l =>
    refine ⟨l.text_ne, fun c hc => ?_⟩
    rcases l.of_mem_text hc with hdigit | rfl
    · exact isDigit_not_space hdigit
    · rfl

/-! ## The tokens of a text -/

/-- The tokens that may stand behind a number. -/
def afterNumber : List Token :=
  [.plus, .minus, .multiply, .divide, .rightBanana, .opOr, .opAnd]

/-- Behind a number stands an operator or a right parenthesis. -/
def Apart (a b : Lexeme Literal) : Prop :=
  ∀ l, a = .number l → ∃ t ∈ afterNumber, b = .tok t

/-- A number, or a token without anything more to it. -/
def Simple : Lexeme Literal → Prop
  | .number _ => True
  | .tok t => t ≠ .eof ∧ t ≠ .error ∧ t ≠ .number ∧ t ≠ .funcVar
  | .name _ => False

theorem ends_of_afterNumber {t : Token} (ht : t ∈ afterNumber) {s : List UInt8}
    (h : Spells (.tok t) s) (rest : List UInt8) : Ends (s ++ rest) := by
  cases h with
  | @char c _ h =>
    have hall : ∀ k ∈ charToTokens, isDigit k.1 = false ∧ k.1 ≠ 46 ∧ toLower k.1 ≠ 101 := by
      decide
    intro d hd
    obtain rfl : c = d := Option.some.inj hd
    exact hall _ h
  | @keyword k _ _ h hcase =>
    have hall : ∀ k ∈ keywordToTokens, k.2 ∈ afterNumber →
        k.1.map toLower = [111, 114] ∨ k.1.map toLower = [97, 110, 100] := by
      rw [keywordToTokens_eq]
      decide
    obtain ⟨c, tail, hk, hdigit, hpoint, hexp⟩ : ∃ c tail, k.map toLower = c :: tail ∧
        isDigit c = false ∧ c ≠ 46 ∧ c ≠ 101 := by
      rcases hall _ h ht with hor | hand
      · exact ⟨_, _, hor, by decide⟩
      · exact ⟨_, _, hand, by decide⟩
    intro d hd
    cases s with
    | nil => exact nomatch hk.symm.trans hcase.symm
    | cons e s =>
      obtain rfl : e = d := Option.some.inj hd
      rw [hk, List.map_cons, List.cons.injEq] at hcase
      obtain ⟨rfl, -⟩ := hcase
      refine ⟨Bool.eq_false_iff.mpr fun htrue => ?_, ?_, hexp⟩
      · rw [isDigit_toLower htrue, htrue] at hdigit
        exact Bool.false_ne_true hdigit.symm
      · rintro rfl
        exact hpoint rfl

/-- Behind a number nothing of it goes on. -/
theorem Renders.ends {ls : List (Lexeme Literal)} {text : List UInt8} (h : Renders ls text)
    (hnext : ∀ b ∈ ls.head?, ∃ t ∈ afterNumber, b = .tok t) : Ends text := by
  have hspace : ∀ {ws : List UInt8} {rest : List UInt8}, Spaces ws → ws ≠ [] →
      Ends (ws ++ rest) := fun {ws} {rest} hws hne => by
    obtain ⟨c, ws, rfl⟩ := List.exists_cons_of_ne_nil hne
    exact ends_space (hws c List.mem_cons_self) _
  cases h with
  | done hws =>
    by_cases hnil : text = []
    · rw [hnil]
      exact ends_nil
    · rw [← List.append_nil text]
      exact hspace hws hnil
  | @piece ws s text l ls hws hspell hrest =>
    by_cases hnil : ws = []
    · obtain ⟨t, ht, rfl⟩ := hnext l rfl
      rw [hnil]
      exact ends_of_afterNumber ht hspell text
    · exact hspace hws hnil

theorem skipSpace_spells {ws s : List UInt8} {l : Lexeme Literal} (hws : Spaces ws)
    (h : Spells l s) (text : List UInt8) : skipSpace (ws ++ (s ++ text)) = s ++ text := by
  obtain ⟨hne, hsolid⟩ := h.solid
  obtain ⟨c, s, rfl⟩ := List.exists_cons_of_ne_nil hne
  unfold skipSpace
  rw [List.dropWhile_append_of_pos hws, List.cons_append, List.dropWhile_cons_of_neg]
  rw [hsolid c List.mem_cons_self]
  exact Bool.false_ne_true

theorem nextToken_spells {ws s : List UInt8} {l : Lexeme Literal} (hws : Spaces ws)
    (h : Spells l s) (text : List UInt8) :
    nextToken (ws ++ (s ++ text)) = tokenAt (s ++ text) := by
  have hne : ws ++ (s ++ text) ≠ [] :=
    List.append_ne_nil_of_right_ne_nil _ (List.append_ne_nil_of_left_ne_nil h.solid.1 _)
  unfold nextToken
  rw [if_neg hne, skipSpace_spells hws h]

/-- What `tokenizer_get_next_token` makes of a token that is written out, whatever stands behind
    it. -/
theorem tokenAt_char {c : UInt8} {t : Token} (h : (c, t) ∈ charToTokens) (text : List UInt8) :
    tokenAt (c :: text) = (t, text) := by
  have hall : ∀ k ∈ charToTokens,
      charToTokens.find? (fun k' => some k.1 == some k'.1) = some k := by decide
  unfold tokenAt
  rw [List.head?_cons, hall _ h]
  rfl

theorem tokenAt_number (l : Literal) {text : List UInt8} (h : Ends text) :
    tokenAt (l.text ++ text) = (.number, text) := by
  obtain ⟨c, tail, htext, hdigit⟩ := l.text_head
  have hhead : (l.text ++ text).head? = some c := by
    rw [htext]
    rfl
  have hchar : charToTokens.find? (fun k => some c == some k.1) = none := by
    have hall : ∀ k ∈ charToTokens, isDigit k.1 = false := by decide
    refine List.find?_eq_none.mpr fun k hk heq => ?_
    rw [beq_iff_eq, Option.some.injEq] at heq
    rw [heq, hall k hk] at hdigit
    exact Bool.false_ne_true hdigit
  have hrest : text.dropWhile (fun c => isDigit c || c == 46) = text := by
    cases text with
    | nil => rfl
    | cons d text =>
      obtain ⟨hd, hpoint, -⟩ := h d rfl
      rw [List.dropWhile_cons_of_neg]
      simp [hd, hpoint]
  unfold tokenAt
  rw [hhead, hchar]
  dsimp only
  rw [Option.any_some, if_pos hdigit, List.dropWhile_append_of_pos, hrest]
  intro d hd
  rcases l.of_mem_text hd with hdigit | rfl
  · rw [hdigit, Bool.true_or]
  · rfl

/-- No keyword is in front of another one. -/
theorem keyword_unique : ∀ k ∈ keywordToTokens, ∀ k' ∈ keywordToTokens,
    k.1.map toLower <+: k'.1.map toLower → k = k' := by
  have hapart : (keywordToTokens.map fun k => k.1.map toLower).Pairwise fun s s' =>
      ¬ s <+: s' ∧ ¬ s' <+: s := by
    rw [keywordToTokens_eq]
    decide
  have hsymm : Std.Symm fun k k' : List UInt8 × Token =>
      ¬ k.1.map toLower <+: k'.1.map toLower ∧ ¬ k'.1.map toLower <+: k.1.map toLower :=
    ⟨fun _ _ h => ⟨h.2, h.1⟩⟩
  intro k hk k' hk' hprefix
  by_contra hne
  exact ((List.pairwise_map.mp hapart).forall hk hk' hne).1 hprefix

theorem tokenAt_keyword {k s : List UInt8} {t : Token} (h : (k, t) ∈ keywordToTokens)
    (hcase : s.map toLower = k.map toLower) (text : List UInt8) :
    tokenAt (s ++ text) = (t, text) := by
  have hletters : ∀ k ∈ keywordToTokens, ∃ c ∈ (k.1.map toLower).head?, 97 ≤ c := by
    rw [keywordToTokens_eq]
    decide
  obtain ⟨d, hd, hletter⟩ := hletters _ h
  obtain ⟨c, tail, rfl, rfl⟩ : ∃ c tail, s = c :: tail ∧ toLower c = d := by
    rw [← hcase] at hd
    cases s with
    | nil => exact nomatch hd
    | cons c tail => exact ⟨c, tail, rfl, Option.some.inj hd⟩
  have hge := letter_ge hletter
  have hchar : charToTokens.find? (fun k => (c :: tail ++ text).head? == some k.1) = none := by
    have hsmall : ∀ k ∈ charToTokens, k.1.toNat < 65 := by decide
    refine List.find?_eq_none.mpr fun k hk heq => ?_
    have hlt := hsmall k hk
    rw [← Option.some.inj (beq_iff_eq.mp heq)] at hlt
    omega
  have hdigit : ¬ (c :: tail ++ text).head?.any isDigit = true := by
    show ¬ isDigit c = true
    rw [isDigit_letter hge]
    exact Bool.false_ne_true
  have hfind : keywordToTokens.find? (fun k => hasKeyword (c :: tail ++ text) k.1) =
      some (k, t) := by
    have hprefix : k.map toLower <+: (c :: tail ++ text).map toLower := by
      rw [List.map_append, hcase]
      exact List.prefix_append _ _
    obtain ⟨k', hk'⟩ : ∃ k', keywordToTokens.find?
        (fun k => hasKeyword (c :: tail ++ text) k.1) = some k' := by
      refine Option.isSome_iff_exists.mp (List.find?_isSome.mpr ⟨_, h, ?_⟩)
      exact (hasKeyword_iff _ _).mpr hprefix
    have htrue := List.find?_some hk'
    have hprefix' := (hasKeyword_iff _ k'.1).mp htrue
    have hmem := List.mem_of_find?_eq_some hk'
    rcases List.prefix_or_prefix_of_prefix hprefix hprefix' with hle | hle
    · rw [hk', ← keyword_unique _ h _ hmem hle]
    · rw [hk', keyword_unique _ hmem _ h hle]
  have hlen : (c :: tail).length = k.length := by
    have := congrArg List.length hcase
    rwa [List.length_map, List.length_map] at this
  unfold tokenAt
  rw [hchar]
  dsimp only
  rw [if_neg hdigit, hfind]
  show (t, (c :: tail ++ text).drop k.length) = (t, text)
  rw [← hlen, List.drop_left]

/-! ## The token sequence of a text -/

/-- A token of a tree, with the values of the literals. -/
def Lexeme.map {L R : Type} (f : L → R) : Lexeme L → Lexeme R
  | .tok t => .tok t
  | .number x => .number (f x)
  | .name s => .name s

/-- The error that white space at the end leaves. -/
def trail {R : Type} (text : List UInt8) : List (Lexeme R) :=
  if text.getLast?.any isSpace then [.tok .error] else []

theorem trail_of_noTrail {R : Type} {text : List UInt8} (h : NoTrail text) :
    (trail text : List (Lexeme R)) = [] := by
  unfold trail
  rw [if_neg]
  intro hany
  obtain ⟨c, hc, hspace⟩ := (Option.any_eq_true _ _).mp hany
  rw [h c hc] at hspace
  exact Bool.false_ne_true hspace

theorem trail_of_not_noTrail {R : Type} {text : List UInt8} (h : ¬ NoTrail text) :
    (trail text : List (Lexeme R)) = [.tok .error] := by
  unfold trail
  rw [if_pos]
  by_contra hany
  refine h fun c hc => Bool.eq_false_iff.mpr fun hspace => hany ?_
  exact (Option.any_eq_true _ _).mpr ⟨c, hc, hspace⟩

/-- Only the end of the text counts. -/
theorem trail_append {R : Type} {s : List UInt8} (hne : s ≠ [])
    (hsolid : ∀ c ∈ s, isSpace c = false) (ws text : List UInt8) :
    (trail (ws ++ (s ++ text)) : List (Lexeme R)) = trail text := by
  cases text with
  | nil =>
    have hnil : (trail [] : List (Lexeme R)) = [] := trail_of_noTrail nofun
    rw [hnil]
    refine trail_of_noTrail fun c hc => hsolid c ?_
    rw [List.append_nil, List.getLast?_append_of_ne_nil _ hne] at hc
    exact List.mem_of_getLast? hc
  | cons d text =>
    unfold trail
    rw [List.getLast?_append_of_ne_nil _ (List.append_ne_nil_of_left_ne_nil hne _),
      List.getLast?_append_of_ne_nil _ (List.cons_ne_nil d text)]

theorem stream_simple {R : Type} {t : Token} (h : Simple (.tok t))
    (lex : List UInt8 → List (Lexeme R)) (x : R) (p : List UInt8) :
    stream lex t x p = .tok t :: lex p := by
  obtain ⟨heof, herror, hnumber, hvar⟩ := h
  cases t
  all_goals first | rfl | contradiction

section

variable {R : Type} {num : List UInt8 → R} {f : Literal → R}

theorem lexemes_spaces {ws : List UInt8} (hws : Spaces ws) :
    lexemes num ws = trail ws := by
  by_cases hnil : ws = []
  · rw [hnil]
    rfl
  · have hskip : skipSpace ws = [] := List.dropWhile_eq_nil_iff.mpr hws
    have htoken : nextToken ws = (.error, []) := by
      unfold nextToken
      rw [if_neg hnil, hskip]
      rfl
    rw [lexemes_eq, htoken, trail_of_not_noTrail]
    · rfl
    · intro h
      have hlast := h _ (List.getLast?_eq_some_getLast hnil)
      rw [hws _ (List.getLast_mem hnil)] at hlast
      exact Bool.false_ne_true hlast.symm

/-- The tokens of a text are those it was written from; `f` is what is read of a literal. -/
theorem lexemes_renders (hnum : ∀ l rest, Ends rest → num (l.text ++ rest) = f l)
    {ls : List (Lexeme Literal)} {text : List UInt8} (h : Renders ls text)
    (hsimple : ∀ l ∈ ls, Simple l) (hapart : ls.IsChain Apart) :
    lexemes num text = ls.map (Lexeme.map f) ++ trail text := by
  induction h with
  | done hws => exact lexemes_spaces hws
  | @piece ws s text l ls hws hspell hrest ih =>
    have hlex := ih (fun l hl => hsimple l (List.mem_cons_of_mem _ hl)) hapart.tail
    have hl := hsimple l List.mem_cons_self
    obtain ⟨hne, hsolid⟩ := hspell.solid
    have hskip := skipSpace_spells hws hspell text
    rw [lexemes_eq, nextToken_spells hws hspell, hskip, trail_append hne hsolid, List.map_cons,
      List.cons_append, ← hlex]
    cases hspell with
    | char h =>
      rw [List.singleton_append, tokenAt_char h]
      exact stream_simple hl _ _ _
    | keyword h hcase =>
      rw [tokenAt_keyword h hcase]
      exact stream_simple hl _ _ _
    | number l =>
      have hends : Ends text := hrest.ends fun b hb => hapart.rel_head? hb l rfl
      rw [tokenAt_number l hends, hnum l text hends]
      rfl

end

end K64Gateway.Expression
