import K64Gateway.Expression.Parser

/-
  The grammar of the expressions and the evaluator.

  Proved: the evaluator comes to its end, leaves no error exactly on the strings whose tokens are
  derivable, and returns the value of the derivation there (`evaluate_derives`). `AND` and `OR`,
  which the header of the file lists among the functions too, are operators only.
-/

namespace K64Gateway.Expression

variable {R : Type}

/-! ## The grammar -/

/-- `"*" | "/" | "AND"` -/
inductive TermOp (ops : Ops R) : Token → (R → R → R) → Prop where
  | mul : TermOp ops .multiply ops.mul
  | div : TermOp ops .divide ops.div
  | and : TermOp ops .opAnd ops.and

/-- `"+" | "-" | "OR"` -/
inductive ExpressionOp (ops : Ops R) : Token → (R → R → R) → Prop where
  | add : ExpressionOp ops .plus ops.add
  | sub : ExpressionOp ops .minus ops.sub
  | or : ExpressionOp ops .opOr ops.or

/-- `FVAR "(" name ")"`, where the name may be empty. -/
def varLexemes : Option (List UInt8) → List (Lexeme R)
  | some name => [.tok .funcVar, .tok .leftBanana, .name name, .tok .rightBanana]
  | none => [.tok .funcVar, .tok .leftBanana, .tok .rightBanana]

/-- What the tokens of a phrase are, and its value; a repetition is read from the left. `func` tells
    which tokens are functions. -/
inductive Derives (ops : Ops R) (func : Token → Bool) : Phrase R → List (Lexeme R) → R → Prop where
  | number (x : R) : Derives ops func .factor [.number x] x
  | call {f : Token} {ts : List (Lexeme R)} {x : R} (hfunc : func f = true)
      (harg : Derives ops func .expression ts x) :
      Derives ops func .factor (.tok f :: .tok .leftBanana :: (ts ++ [.tok .rightBanana]))
        (ops.func f x)
  | var (name : Option (List UInt8)) : Derives ops func .factor (varLexemes name) (ops.getvar name)
  | paren {ts : List (Lexeme R)} {x : R} (h : Derives ops func .expression ts x) :
      Derives ops func .factor (.tok .leftBanana :: (ts ++ [.tok .rightBanana])) x
  | term {ts us : List (Lexeme R)} {x y : R} (hfactor : Derives ops func .factor ts x)
      (hrest : Derives ops func (.termRest x) us y) : Derives ops func .term (ts ++ us) y
  | termDone (x : R) : Derives ops func (.termRest x) [] x
  | termNext {t : Token} {op : R → R → R} {ts us : List (Lexeme R)} {x y z : R}
      (hop : TermOp ops t op) (hfactor : Derives ops func .factor ts y)
      (hrest : Derives ops func (.termRest (op x y)) us z) :
      Derives ops func (.termRest x) (.tok t :: (ts ++ us)) z
  | expression {ts us : List (Lexeme R)} {x y : R} (hterm : Derives ops func .term ts x)
      (hrest : Derives ops func (.expressionRest x) us y) :
      Derives ops func .expression (ts ++ us) y
  | plus {ts us : List (Lexeme R)} {x y : R} (hterm : Derives ops func .term ts x)
      (hrest : Derives ops func (.expressionRest x) us y) :
      Derives ops func .expression (.tok .plus :: (ts ++ us)) y
  | minus {ts us : List (Lexeme R)} {x y : R} (hterm : Derives ops func .term ts x)
      (hrest : Derives ops func (.expressionRest (ops.mul ops.minusOne x)) us y) :
      Derives ops func .expression (.tok .minus :: (ts ++ us)) y
  | expressionDone (x : R) : Derives ops func (.expressionRest x) [] x
  | expressionNext {t : Token} {op : R → R → R} {ts us : List (Lexeme R)} {x y z : R}
      (hop : ExpressionOp ops t op) (hterm : Derives ops func .term ts y)
      (hrest : Derives ops func (.expressionRest (op x y)) us z) :
      Derives ops func (.expressionRest x) (.tok t :: (ts ++ us)) z

/-- The names of the variables are names. -/
def NamesOk (ts : List (Lexeme R)) : Prop := ∀ name, Lexeme.name name ∈ ts → NameOk name

/-! ## Single steps -/

variable {ops : Ops R}

theorem termOp_eq_some {t : Token} {op : R → R → R} : termOp ops t = some op ↔ TermOp ops t op := by
  constructor
  · intro h
    cases t <;> simp only [termOp, Option.some.injEq, reduceCtorEq] at h
    · exact h ▸ .mul
    · exact h ▸ .div
    · exact h ▸ .and
  · rintro (_ | _ | _) <;> rfl

theorem expressionOp_eq_some {t : Token} {op : R → R → R} :
    expressionOp ops t = some op ↔ ExpressionOp ops t op := by
  constructor
  · intro h
    cases t <;> simp only [expressionOp, Option.some.injEq, reduceCtorEq] at h
    · exact h ▸ .add
    · exact h ▸ .sub
    · exact h ▸ .or
  · rintro (_ | _ | _) <;> rfl

variable (ops) in
/-- The tokens from the current one on. -/
def Parser.rest (s : Parser R) : List (Lexeme R) := stream (lexemes ops.num) s.sym s.number s.p

theorem rest_getSym (s : Parser R) : (getSym ops s).rest ops = lexemes ops.num s.p := by
  rw [lexemes_eq]
  unfold Parser.rest getSym
  dsimp only
  split
  · rfl
  · next h =>
    generalize (nextToken s.p).1 = t at h ⊢
    cases t <;> first | rfl | exact absurd rfl h

/-- A token that is not the last one, a number or a variable. -/
def Token.Plain (t : Token) : Prop := t ≠ .eof ∧ t ≠ .error ∧ t ≠ .number ∧ t ≠ .funcVar

theorem rest_plain {s : Parser R} (h : s.sym.Plain) :
    s.rest ops = .tok s.sym :: (getSym ops s).rest ops := by
  rw [rest_getSym]
  unfold Parser.rest
  obtain ⟨heof, herror, hnumber, hvar⟩ := h
  generalize s.sym = t at heof herror hnumber hvar ⊢
  cases t <;> first | rfl | contradiction

theorem rest_number {s : Parser R} (h : s.sym = .number) :
    s.rest ops = .number s.number :: (getSym ops s).rest ops := by
  rw [rest_getSym]
  unfold Parser.rest
  rw [h]
  rfl

/-- The current token is read off from the first of the sequence. -/
theorem sym_of_rest {s : Parser R} {t : Token} {ts : List (Lexeme R)}
    (h : s.rest ops = .tok t :: ts) : s.sym = t := by
  unfold Parser.rest at h
  generalize s.sym = u at h ⊢
  cases u <;> simp_all [stream]

theorem sym_of_rest_number {s : Parser R} {x : R} {ts : List (Lexeme R)}
    (h : s.rest ops = .number x :: ts) : s.sym = .number ∧ s.number = x := by
  unfold Parser.rest at h
  generalize s.sym = u at h ⊢
  cases u <;> simp_all [stream]

theorem rest_eq_nil {s : Parser R} : s.rest ops = [] ↔ s.sym = .eof := by
  unfold Parser.rest
  generalize s.sym = u
  cases u <;> simp [stream]

theorem termOp_plain {t : Token} {op : R → R → R} (h : TermOp ops t op) : t.Plain := by
  cases h <;> simp [Token.Plain]

theorem expressionOp_plain {t : Token} {op : R → R → R} (h : ExpressionOp ops t op) : t.Plain := by
  cases h <;> simp [Token.Plain]

theorem function_plain {t : Token} (h : isFunctionToken t = true) : t.Plain := by
  have hall : ∀ t ∈ tokenToFunctions, t ≠ .eof ∧ t ≠ .error ∧ t ≠ .number ∧ t ≠ .funcVar := by
    decide
  exact hall t (of_decide_eq_true h)

/-- An error stays. -/
theorem lastError_expect {s : Parser R} (t : Token) (h : s.lastError ≠ none) :
    (expect ops t s).lastError ≠ none := by
  unfold expect
  split
  · exact h
  · exact Option.some_ne_none _

theorem expect_of_eq {s : Parser R} {t : Token} (h : s.sym = t) :
    expect ops t s = getSym ops s := if_pos h.symm

theorem sym_of_expect {s : Parser R} {t : Token} (h : (expect ops t s).lastError = none) :
    s.sym = t ∧ s.lastError = none := by
  unfold expect at h
  split at h
  · next heq => exact ⟨heq.symm, h⟩
  · exact absurd h (Option.some_ne_none _)

variable (ops) in
/-- What the string is promised: no white space at its end where a variable is to be read, and names
    that are names. -/
structure Parser.Ok (s : Parser R) : Prop where
  noTrail : .tok .funcVar ∈ s.rest ops → NoTrail s.p
  names : NamesOk (s.rest ops)

theorem Parser.Ok.of_append {s s' : Parser R} {ts : List (Lexeme R)} (h : s.Ok ops)
    (hp : s'.p <:+ s.p) (hrest : s.rest ops = ts ++ s'.rest ops) : s'.Ok ops :=
  ⟨fun hvar => (h.noTrail (hrest ▸ List.mem_append_right ts hvar)).suffix hp,
    fun name hname => h.names name (hrest ▸ List.mem_append_right ts hname)⟩

/-- A token is passed. -/
theorem rest_tail {s : Parser R} {t : Token} {ts : List (Lexeme R)} (h : s.Ok ops)
    (hrest : s.rest ops = .tok t :: ts) (ht : t.Plain) :
    s.sym = t ∧ (getSym ops s).rest ops = ts ∧ (getSym ops s).Ok ops := by
  have hsym := sym_of_rest hrest
  have hplain : s.rest ops = _ := rest_plain (hsym.symm ▸ ht)
  rw [hrest] at hplain
  have hts := (List.cons.inj hplain).2.symm
  exact ⟨hsym, hts, h.of_append (getSym_shrinks ops s).suffix (hts ▸ hrest : _ = [_] ++ _)⟩

/-! ## The branch for a variable -/

theorem nextToken_right {q r : List UInt8} (h : skipSpace q = 41 :: r) :
    nextToken q = (.rightBanana, r) := by
  have hq : q ≠ [] := by
    rintro rfl
    exact List.cons_ne_nil _ _ h.symm
  unfold nextToken
  rw [if_neg hq, h]
  rfl

/-- The argument has no parenthesis behind it, is empty, or is a name. -/
theorem lexArg_cases (lex : List UInt8 → List (Lexeme R)) (q : List UInt8) :
    ((41 : UInt8) ∉ skipSpace q ∧ lexArg lex q = [.tok .error]) ∨
    (∃ r, skipSpace q = 41 :: r ∧ lexArg lex q = .tok .rightBanana :: lex r) ∨
    (∃ name r, skipSpace q = name ++ 41 :: r ∧ name ≠ [] ∧ (41 : UInt8) ∉ name ∧
      lexArg lex q = .name name :: .tok .rightBanana :: lex r) := by
  have hsplit := List.takeWhile_append_dropWhile (p := (· != (41 : UInt8))) (l := skipSpace q)
  have hname : (41 : UInt8) ∉ (skipSpace q).takeWhile (· != 41) := fun hmem => by
    simpa using List.mem_takeWhile_imp hmem
  unfold lexArg
  dsimp only
  generalize (skipSpace q).takeWhile (· != 41) = name at hsplit hname ⊢
  cases hrest : (skipSpace q).dropWhile (· != 41) with
  | nil =>
    rw [hrest, List.append_nil] at hsplit
    exact Or.inl ⟨hsplit ▸ hname, if_pos rfl⟩
  | cons c r =>
    have hc : c = 41 := by
      have hhead := List.head_dropWhile_not (· != (41 : UInt8)) (l := skipSpace q)
        (by rw [hrest]; exact List.cons_ne_nil c r)
      simpa [hrest] using hhead
    rw [hrest, hc] at hsplit
    rw [if_neg (List.cons_ne_nil c r), List.tail_cons]
    by_cases hnil : name = []
    · rw [if_pos hnil]
      rw [hnil] at hsplit
      exact Or.inr (Or.inl ⟨r, hsplit.symm, rfl⟩)
    · rw [if_neg hnil]
      exact Or.inr (Or.inr ⟨name, r, hsplit.symm, hnil, hname, rfl⟩)

theorem nextToken_suffix_skipSpace (q : List UInt8) : (nextToken q).2 <:+ skipSpace q := by
  unfold nextToken
  split
  · exact List.nil_suffix
  · exact tokenAt_suffix _

/-- Only a parenthesis is read as one. -/
theorem skipSpace_of_right {q : List UInt8} (h : (nextToken q).1 = .rightBanana) :
    ∃ r, skipSpace q = 41 :: r := by
  have hchars : ∀ k ∈ charToTokens, k.2 = .rightBanana → k.1 = 41 := by decide
  have hkeys : ∀ k ∈ keywordToTokens, k.2 ≠ .rightBanana := by decide
  unfold nextToken at h
  split at h
  · exact absurd h Token.noConfusion
  · unfold tokenAt at h
    split at h
    · next k hk =>
      have hc := hchars k (List.mem_of_find?_eq_some hk) h
      have hhead := List.find?_some hk
      rw [hc, beq_iff_eq] at hhead
      exact ⟨_, List.eq_cons_of_mem_head? hhead⟩
    · split at h
      · exact absurd h Token.noConfusion
      · split at h
        · next k hk => exact absurd h (hkeys k (List.mem_of_find?_eq_some hk))
        · exact absurd h Token.noConfusion

theorem nextRight_of_not_mem {behind p : List UInt8} (h : NoTrail p) (hp : (41 : UInt8) ∉ p) :
    (nextRight behind p).1 = .eof := by
  unfold nextRight
  split
  · rfl
  · next hne =>
    have hnot : (41 : UInt8) ∉ skipSpace p := fun hmem => hp ((skipSpace_suffix p).mem hmem)
    have hnil : (skipSpace p).dropWhile (· != 41) = [] := by
      rw [List.dropWhile_eq_nil_iff]
      intro c hc
      rw [bne_iff_ne]
      rintro rfl
      exact hnot hc
    rw [if_neg (h.skipSpace hne), if_pos hnil]

theorem nextRight_name {behind name : List UInt8} (hname : (41 : UInt8) ∉ name) {r : List UInt8}
    (hskip : skipSpace (name ++ 41 :: r) = name ++ 41 :: r) :
    nextRight behind (name ++ 41 :: r) = (.rightBanana, some name, r) := by
  have hall : ∀ c ∈ name, (c != (41 : UInt8)) = true := fun c hc => by
    rw [bne_iff_ne]
    rintro rfl
    exact hname hc
  have hne : name ++ 41 :: r ≠ [] := List.append_ne_nil_of_right_ne_nil _ (List.cons_ne_nil _ _)
  have hdrop : (name ++ 41 :: r).dropWhile (· != 41) = 41 :: r := by
    rw [List.dropWhile_append_of_pos hall]
    rfl
  have htake : (name ++ 41 :: r).takeWhile (· != 41) = name := by
    rw [List.takeWhile_append_of_pos hall, List.takeWhile_cons_of_neg (by decide),
      List.append_nil]
  unfold nextRight
  rw [if_neg hne, hskip, if_neg hne]
  dsimp only
  rw [hdrop, htake, if_neg (List.cons_ne_nil _ _)]
  rfl

theorem getStr_name {s : Parser R} {name : List UInt8} (h : NameOk name) (hs : s.str = some name) :
    getStr s = some name := by
  unfold getStr
  rw [hs, Option.filter_some, if_pos]
  have hpos := List.length_pos_of_ne_nil h.ne_nil
  have hle := h.length
  rw [Bool.and_eq_true, decide_eq_true_eq, decide_eq_true_eq]
  omega

theorem rest_var {s : Parser R} (h : s.sym = .funcVar) :
    s.rest ops = .tok .funcVar :: lexVar (lexemes ops.num) s.p := by
  unfold Parser.rest
  rw [h]
  rfl

theorem Parser.Ok.noTrail_var {s : Parser R} (h : s.Ok ops) (hsym : s.sym = .funcVar) :
    NoTrail s.p :=
  h.noTrail (by rw [rest_var hsym]; exact List.mem_cons_self)

/-- The argument is read as it is in the sequence, or there is no parenthesis behind it. -/
theorem varFactor_arg {s : Parser R} (hleft : (getSym ops s).sym = .leftBanana)
    (hnoTrail : NoTrail s.p) (hnames : NamesOk (lexArg (lexemes ops.num) (getSym ops s).p)) :
    (∃ name, .tok .funcVar :: .tok .leftBanana :: lexArg (lexemes ops.num) (getSym ops s).p =
        varLexemes name ++ (varFactor ops s).2.rest ops ∧
      (varFactor ops s).1 = ops.getvar name ∧ (varFactor ops s).2.lastError = s.lastError) ∨
    ((varFactor ops s).2.lastError ≠ none ∧
      lexArg (lexemes ops.num) (getSym ops s).p = [.tok .error]) := by
  have hq : NoTrail (getSym ops s).p := hnoTrail.suffix (getSym_shrinks ops s).suffix
  unfold varFactor
  rw [expect_of_eq hleft]
  have herror : (getSym ops (getSym ops s)).lastError = s.lastError := rfl
  have hstr : (getSym ops (getSym ops s)).str = none := rfl
  have hsym : (getSym ops (getSym ops s)).sym = (nextToken (getSym ops s).p).1 := rfl
  have hp : (getSym ops (getSym ops s)).p = (nextToken (getSym ops s).p).2 := rfl
  generalize (getSym ops s).p = q at hq hnames hsym hp ⊢
  generalize getSym ops (getSym ops s) = s₂ at herror hstr hsym hp ⊢
  dsimp only
  rcases lexArg_cases (lexemes ops.num) q with
    ⟨hnot, hlex⟩ | ⟨r, hr, hlex⟩ | ⟨name, r, hr, -, hnot, hlex⟩
  · have hright : s₂.sym ≠ .rightBanana := fun heq => by
      obtain ⟨r, hr⟩ := skipSpace_of_right (hsym ▸ heq)
      exact hnot (hr ▸ List.mem_cons_self)
    have hnot' : (41 : UInt8) ∉ s₂.p := fun hmem =>
      hnot ((nextToken_suffix_skipSpace q).mem (hp ▸ hmem))
    have heof : (getRight ops s₂).sym = .eof :=
      nextRight_of_not_mem (hq.suffix (hp ▸ nextToken_suffix q)) hnot'
    refine Or.inr ⟨?_, hlex⟩
    rw [if_pos hright]
    intro hnone
    exact absurd (heof.symm.trans (sym_of_expect hnone).1) Token.noConfusion
  · rw [nextToken_right hr] at hsym hp
    refine Or.inl ⟨none, ?_⟩
    rw [hsym, if_neg (not_not_intro rfl), if_pos hsym, expect_of_eq hsym, rest_getSym, hp, hlex]
    refine ⟨rfl, ?_, herror⟩
    unfold getStr
    rw [hstr]
    rfl
  · have hname : NameOk name := hnames name (hlex ▸ List.mem_cons_self)
    have hne : q ≠ [] := by
      rintro rfl
      exact List.append_ne_nil_of_left_ne_nil hname.ne_nil _ hr.symm
    have htoken : nextToken q = (.error, name ++ 41 :: r) := by
      unfold nextToken
      rw [if_neg hne, hr, tokenAt_name hname]
    rw [htoken] at hsym hp
    have hget : nextRight ops.behind s₂.p = (.rightBanana, some name, r) := by
      rw [hp, nextRight_name hnot (hname.skipSpace _)]
    have hright : (getRight ops s₂).sym = .rightBanana := by
      unfold getRight
      rw [hget]
    have hrest : (getRight ops s₂).p = r := by
      unfold getRight
      rw [hget]
    have hstr' : getStr (getRight ops s₂) = some name := getStr_name hname (by
      unfold getRight
      rw [hget])
    refine Or.inl ⟨some name, ?_⟩
    rw [if_pos (show s₂.sym ≠ .rightBanana by rw [hsym]; exact Token.noConfusion), if_pos hright,
      expect_of_eq hright, rest_getSym, hrest, hlex, hstr']
    exact ⟨rfl, rfl, herror⟩

theorem varFactor_sticky {s : Parser R} (h : (varFactor ops s).2.lastError = none) :
    (getSym ops s).sym = .leftBanana ∧ s.lastError = none := by
  by_contra hnot
  have herror : (expect ops .leftBanana (getSym ops s)).lastError ≠ none := fun hnone =>
    hnot (sym_of_expect hnone)
  refine absurd h ?_
  unfold varFactor
  generalize expect ops .leftBanana (getSym ops s) = s₂ at herror
  refine lastError_expect _ ?_
  split
  · exact herror
  · exact herror

/-- The branch reads `FVAR "(" name ")"`, or leaves an error on something else. -/
theorem varFactor_cases {s : Parser R} (h : s.Ok ops) (hsym : s.sym = .funcVar) :
    (∃ name, s.rest ops = varLexemes name ++ (varFactor ops s).2.rest ops ∧
      (varFactor ops s).1 = ops.getvar name ∧ (varFactor ops s).2.lastError = s.lastError) ∨
    ((varFactor ops s).2.lastError ≠ none ∧
      ∀ name us, s.rest ops ≠ varLexemes name ++ us) := by
  have hvar : s.rest ops = _ := rest_var hsym
  by_cases hleft : (getSym ops s).sym = .leftBanana
  · have hrest : s.rest ops =
        .tok .funcVar :: .tok .leftBanana :: lexArg (lexemes ops.num) (getSym ops s).p := by
      rw [hvar]
      exact congrArg _ (if_pos hleft)
    have hnames : NamesOk (lexArg (lexemes ops.num) (getSym ops s).p) := fun name hname =>
      h.names name (hrest ▸ List.mem_cons_of_mem _ (List.mem_cons_of_mem _ hname))
    rw [hrest]
    rcases varFactor_arg hleft (h.noTrail_var hsym) hnames with hread | ⟨herror, hlex⟩
    · exact Or.inl hread
    · refine Or.inr ⟨herror, fun name us => ?_⟩
      rw [hlex]
      cases name <;> simp [varLexemes]
  · refine Or.inr ⟨fun hnone => hleft (varFactor_sticky hnone).1, fun name us heq => ?_⟩
    have hrest : s.rest ops = .tok .funcVar :: (getSym ops s).rest ops := by
      rw [hvar, rest_getSym]
      exact congrArg _ (if_neg hleft)
    rw [hrest] at heq
    obtain ⟨ts, hts⟩ : ∃ ts, (getSym ops s).rest ops = .tok .leftBanana :: ts := by
      cases name <;> exact ⟨_, (List.cons.inj heq).2⟩
    exact hleft (sym_of_rest hts)

/-! ## Soundness -/

/-- From one state to another a phrase is read. -/
def Reads (ops : Ops R) (ph : Phrase R) (s : Parser R) (x : R) (s' : Parser R) : Prop :=
  s'.Ok ops ∧ ∃ ts, s.rest ops = ts ++ s'.rest ops ∧ Derives ops isFunctionToken ph ts x

/-- What leaves no error was begun without one, and has read a phrase. -/
def Sound (ops : Ops R) (parse : Phrase R → Parser R → Option (R × Parser R)) : Prop :=
  ∀ (ph : Phrase R) (s : Parser R) (x : R) (s' : Parser R), parse ph s = some (x, s') →
    s'.lastError = none → s.lastError = none ∧ (s.Ok ops → Reads ops ph s x s')

theorem Parser.Ok.next {s : Parser R} (h : s.Ok ops) (ht : s.sym.Plain) :
    (getSym ops s).Ok ops ∧ s.rest ops = .tok s.sym :: (getSym ops s).rest ops :=
  (rest_tail h (rest_plain ht) ht).2.symm.imp_right fun _ => rest_plain ht

section
variable {rec : Phrase R → Parser R → Option (R × Parser R)}

/-- An expression and its right parenthesis. -/
theorem paren_sound (hrec : Sound ops rec) {s : Parser R} {s₁ : Parser R} {x : R}
    (hparse : rec .expression s = some (x, s₁))
    (hnone : (expect ops .rightBanana s₁).lastError = none) :
    s.lastError = none ∧ (s.Ok ops → (expect ops .rightBanana s₁).Ok ops ∧
      ∃ ts, s.rest ops = ts ++ .tok .rightBanana :: (expect ops .rightBanana s₁).rest ops ∧
        Derives ops isFunctionToken .expression ts x) := by
  obtain ⟨hright, hnone'⟩ := sym_of_expect hnone
  obtain ⟨hs, hread⟩ := hrec .expression s x s₁ hparse hnone'
  refine ⟨hs, fun hok => ?_⟩
  obtain ⟨hok', ts, hts, hderives⟩ := hread hok
  obtain ⟨hok'', hrest⟩ := hok'.next (by rw [hright]; simp [Token.Plain])
  rw [expect_of_eq hright]
  rw [hright] at hrest
  exact ⟨hok'', ts, hrest ▸ hts, hderives⟩

theorem factor_sound (hrec : Sound ops rec) {s s' : Parser R} {x : R}
    (h : factor ops rec s = some (x, s')) (hnone : s'.lastError = none) :
    s.lastError = none ∧ (s.Ok ops → Reads ops .factor s x s') := by
  unfold factor at h
  split at h
  · next hfunc =>
    obtain ⟨⟨y, s₁⟩, hparse, heq⟩ := Option.bind_eq_some_iff.mp h
    simp only [Option.some.injEq, Prod.mk.injEq] at heq
    obtain ⟨rfl, rfl⟩ := heq
    obtain ⟨hs, hread⟩ := paren_sound hrec hparse hnone
    obtain ⟨hleft, hnone'⟩ := sym_of_expect hs
    rw [expect_of_eq hleft] at hread
    refine ⟨hnone', fun hok => ?_⟩
    obtain ⟨hok₁, hrest₁⟩ := hok.next (function_plain hfunc)
    obtain ⟨hok₂, hrest₂⟩ := hok₁.next (by rw [hleft]; simp [Token.Plain])
    obtain ⟨hok', ts, hts, hderives⟩ := hread hok₂
    refine ⟨hok', _, ?_, .call hfunc hderives⟩
    rw [hrest₁, hrest₂, hleft, hts]
    simp
  · split at h
    · next hvar =>
      have heq := Option.some.inj h
      obtain ⟨rfl, rfl⟩ : (varFactor ops s).1 = x ∧ (varFactor ops s).2 = s' :=
        ⟨congrArg Prod.fst heq, congrArg Prod.snd heq⟩
      refine ⟨(varFactor_sticky hnone).2, fun hok => ?_⟩
      rcases varFactor_cases hok hvar with ⟨name, hrest, hx, -⟩ | ⟨herror, -⟩
      · rw [hx]
        exact ⟨hok.of_append (varFactor_shrinks (hok.noTrail_var hvar)).suffix hrest, _, hrest,
          .var name⟩
      · exact absurd hnone herror
    · split at h
      · next hnumber =>
        simp only [Option.some.injEq, Prod.mk.injEq] at h
        obtain ⟨rfl, rfl⟩ := h
        refine ⟨hnone, fun hok => ?_⟩
        have hrest : s.rest ops = _ := rest_number hnumber
        exact ⟨hok.of_append (getSym_shrinks ops s).suffix (show _ = [_] ++ _ from hrest), [_],
          hrest, .number _⟩
      · split at h
        · next hleft =>
          obtain ⟨⟨y, s₁⟩, hparse, heq⟩ := Option.bind_eq_some_iff.mp h
          simp only [Option.some.injEq, Prod.mk.injEq] at heq
          obtain ⟨rfl, rfl⟩ := heq
          obtain ⟨hs, hread⟩ := paren_sound hrec hparse hnone
          refine ⟨hs, fun hok => ?_⟩
          obtain ⟨hok₁, hrest₁⟩ := hok.next (by rw [hleft]; simp [Token.Plain])
          obtain ⟨hok', ts, hts, hderives⟩ := hread hok₁
          refine ⟨hok', _, ?_, .paren hderives⟩
          rw [hrest₁, hleft, hts]
          simp
        · simp only [Option.some.injEq, Prod.mk.injEq] at h
          obtain ⟨-, rfl⟩ := h
          exact absurd hnone (Option.some_ne_none _)

/-- Two phrases one after the other. -/
theorem seq_sound (hrec : Sound ops rec) {ph : Phrase R} (next : R → Phrase R) {s s' : Parser R}
    {x : R} (h : (do let (y, s₁) ← rec ph s; rec (next y) s₁) = some (x, s'))
    (hnone : s'.lastError = none) :
    s.lastError = none ∧ (s.Ok ops → s'.Ok ops ∧ ∃ y ts us, s.rest ops = ts ++ us ++ s'.rest ops ∧
      Derives ops isFunctionToken ph ts y ∧ Derives ops isFunctionToken (next y) us x) := by
  obtain ⟨⟨y, s₁⟩, hparse, hnext⟩ := Option.bind_eq_some_iff.mp h
  obtain ⟨hs₁, hread'⟩ := hrec _ _ _ _ hnext hnone
  obtain ⟨hs, hread⟩ := hrec _ _ _ _ hparse hs₁
  refine ⟨hs, fun hok => ?_⟩
  obtain ⟨hok₁, ts, hts, hderives⟩ := hread hok
  obtain ⟨hok', us, hus, hderives'⟩ := hread' hok₁
  exact ⟨hok', y, ts, us, by rw [hts, hus, List.append_assoc], hderives, hderives'⟩

/-- A phrase after an operator or a sign. -/
theorem next_sound (hrec : Sound ops rec) {ph : Phrase R} (next : R → Phrase R) {s s' : Parser R}
    {x : R} (ht : s.sym.Plain)
    (h : (do let (y, s₁) ← rec ph (getSym ops s); rec (next y) s₁) = some (x, s'))
    (hnone : s'.lastError = none) :
    s.lastError = none ∧ (s.Ok ops → s'.Ok ops ∧ ∃ y ts us,
      s.rest ops = .tok s.sym :: (ts ++ us) ++ s'.rest ops ∧
        Derives ops isFunctionToken ph ts y ∧ Derives ops isFunctionToken (next y) us x) := by
  obtain ⟨hs, hread⟩ := seq_sound hrec next h hnone
  refine ⟨hs, fun hok => ?_⟩
  obtain ⟨hok₁, hrest⟩ := hok.next ht
  obtain ⟨hok', y, ts, us, hts, hderives⟩ := hread hok₁
  exact ⟨hok', y, ts, us, by rw [hrest, hts, List.cons_append], hderives⟩

theorem term_sound (hrec : Sound ops rec) {s s' : Parser R} {x : R}
    (h : term rec s = some (x, s')) (hnone : s'.lastError = none) :
    s.lastError = none ∧ (s.Ok ops → Reads ops .term s x s') := by
  obtain ⟨hs, hread⟩ := seq_sound hrec .termRest h hnone
  refine ⟨hs, fun hok => ?_⟩
  obtain ⟨hok', y, ts, us, hts, hfactor, hrest⟩ := hread hok
  exact ⟨hok', _, hts, .term hfactor hrest⟩

theorem termRest_sound (hrec : Sound ops rec) {f1 : R} {s s' : Parser R} {x : R}
    (h : termRest ops rec f1 s = some (x, s')) (hnone : s'.lastError = none) :
    s.lastError = none ∧ (s.Ok ops → Reads ops (.termRest f1) s x s') := by
  unfold termRest at h
  split at h
  · next op hop =>
    rw [termOp_eq_some] at hop
    obtain ⟨hs, hread⟩ := next_sound hrec (fun f2 => .termRest (op f1 f2)) (termOp_plain hop)
      h hnone
    refine ⟨hs, fun hok => ?_⟩
    obtain ⟨hok', y, ts, us, hts, hfactor, hrest⟩ := hread hok
    exact ⟨hok', _, hts, .termNext hop hfactor hrest⟩
  · simp only [Option.some.injEq, Prod.mk.injEq] at h
    obtain ⟨rfl, rfl⟩ := h
    exact ⟨hnone, fun hok => ⟨hok, [], rfl, .termDone _⟩⟩

theorem expression_sound (hrec : Sound ops rec) {s s' : Parser R} {x : R}
    (h : expression ops rec s = some (x, s')) (hnone : s'.lastError = none) :
    s.lastError = none ∧ (s.Ok ops → Reads ops .expression s x s') := by
  unfold expression at h
  dsimp only at h
  by_cases hminus : s.sym = .minus
  · rw [if_pos (Or.inr hminus)] at h
    simp only [if_pos hminus] at h
    obtain ⟨hs, hread⟩ := next_sound hrec
      (fun t1 => .expressionRest (ops.mul ops.minusOne t1))
      (by rw [hminus]; simp [Token.Plain]) h hnone
    refine ⟨hs, fun hok => ?_⟩
    obtain ⟨hok', y, ts, us, hts, hterm, hrest⟩ := hread hok
    rw [hminus] at hts
    exact ⟨hok', _, hts, .minus hterm hrest⟩
  · simp only [if_neg hminus] at h
    by_cases hplus : s.sym = .plus
    · rw [if_pos (Or.inl hplus)] at h
      obtain ⟨hs, hread⟩ := next_sound hrec .expressionRest
        (by rw [hplus]; simp [Token.Plain]) h hnone
      refine ⟨hs, fun hok => ?_⟩
      obtain ⟨hok', y, ts, us, hts, hterm, hrest⟩ := hread hok
      rw [hplus] at hts
      exact ⟨hok', _, hts, .plus hterm hrest⟩
    · rw [if_neg (not_or.mpr ⟨hplus, hminus⟩)] at h
      obtain ⟨hs, hread⟩ := seq_sound hrec .expressionRest h hnone
      refine ⟨hs, fun hok => ?_⟩
      obtain ⟨hok', y, ts, us, hts, hterm, hrest⟩ := hread hok
      exact ⟨hok', _, hts, .expression hterm hrest⟩

theorem expressionRest_sound (hrec : Sound ops rec) {t1 : R} {s s' : Parser R} {x : R}
    (h : expressionRest ops rec t1 s = some (x, s')) (hnone : s'.lastError = none) :
    s.lastError = none ∧ (s.Ok ops → Reads ops (.expressionRest t1) s x s') := by
  unfold expressionRest at h
  split at h
  · next op hop =>
    rw [expressionOp_eq_some] at hop
    obtain ⟨hs, hread⟩ := next_sound hrec (fun t2 => .expressionRest (op t1 t2))
      (expressionOp_plain hop) h hnone
    refine ⟨hs, fun hok => ?_⟩
    obtain ⟨hok', y, ts, us, hts, hterm, hrest⟩ := hread hok
    exact ⟨hok', _, hts, .expressionNext hop hterm hrest⟩
  · simp only [Option.some.injEq, Prod.mk.injEq] at h
    obtain ⟨rfl, rfl⟩ := h
    exact ⟨hnone, fun hok => ⟨hok, [], rfl, .expressionDone _⟩⟩

end

theorem parse_sound (ops : Ops R) (depth : Nat) : Sound ops (parse ops depth) := by
  induction depth with
  | zero => exact fun _ _ _ _ h => nomatch h
  | succ depth ih =>
    intro ph s x s' h hnone
    cases ph with
    | factor => exact factor_sound ih h hnone
    | term => exact term_sound ih h hnone
    | termRest f1 => exact termRest_sound ih h hnone
    | expression => exact expression_sound ih h hnone
    | expressionRest t1 => exact expressionRest_sound ih h hnone

/-! ## Completeness -/

/-- What may follow a phrase: it does not go on there. -/
def Follows (ops : Ops R) : Phrase R → List (Lexeme R) → Prop
  | .factor, _ => True
  | .term, us | .termRest _, us => ∀ t op, us.head? = some (.tok t) → ¬ TermOp ops t op
  | .expression, us | .expressionRest _, us =>
      ∀ t op, us.head? = some (.tok t) → ¬ TermOp ops t op ∧ ¬ ExpressionOp ops t op

theorem follows_right (us : List (Lexeme R)) :
    Follows ops .expression (.tok .rightBanana :: us) := by
  intro t op ht
  rw [List.head?_cons, Option.some.injEq, Lexeme.tok.injEq] at ht
  subst ht
  exact ⟨nofun, nofun⟩

/-- Behind a term stands an operator of the expression, or what follows the expression. -/
theorem follows_term {ts us : List (Lexeme R)} {x y : R}
    (h : Derives ops isFunctionToken (.expressionRest x) ts y)
    (hus : Follows ops .expression us) : Follows ops .term (ts ++ us) := by
  intro t op ht hop
  cases h with
  | expressionDone => exact (hus t op ht).1 hop
  | expressionNext hop' =>
    rw [List.cons_append, List.head?_cons, Option.some.injEq, Lexeme.tok.injEq] at ht
    subst ht
    cases hop' <;> cases hop

theorem term_head {ts : List (Lexeme R)} {x : R} (h : Derives ops isFunctionToken .term ts x) :
    ∃ l us, ts = l :: us ∧ l ≠ .tok .plus ∧ l ≠ .tok .minus := by
  cases h with | term hfactor _ =>
  cases hfactor with
  | number => exact ⟨_, _, rfl, nofun, nofun⟩
  | call hfunc => refine ⟨_, _, rfl, ?_, ?_⟩ <;> (rintro ⟨⟩; cases hfunc)
  | var name => cases name <;> exact ⟨_, _, rfl, by simp, by simp⟩
  | paren => exact ⟨_, _, rfl, by simp, by simp⟩

/-- Where a phrase that derives stands in front, it is read. -/
def Complete (ops : Ops R) (ph : Phrase R) (ts : List (Lexeme R)) (x : R) : Prop :=
  ∀ us, Follows ops ph us → ∀ s : Parser R, s.Ok ops → s.rest ops = ts ++ us →
    ∀ depth y s', parse ops depth ph s = some (y, s') →
      y = x ∧ s'.Ok ops ∧ s'.rest ops = us ∧ s'.lastError = s.lastError

theorem expect_rest {s : Parser R} {t : Token} {ts : List (Lexeme R)} (h : s.Ok ops)
    (hrest : s.rest ops = .tok t :: ts) (ht : t.Plain) :
    (expect ops t s).Ok ops ∧ (expect ops t s).rest ops = ts ∧
      (expect ops t s).lastError = s.lastError := by
  obtain ⟨hsym, hts, hok⟩ := rest_tail h hrest ht
  rw [expect_of_eq hsym]
  exact ⟨hok, hts, rfl⟩

theorem paren_complete {ts us : List (Lexeme R)} {x : R} (ih : Complete ops .expression ts x)
    {s : Parser R} (hok : s.Ok ops) (hrest : s.rest ops = ts ++ .tok .rightBanana :: us)
    {depth : Nat} {y : R} {s' : Parser R} (h : parse ops depth .expression s = some (y, s')) :
    y = x ∧ (expect ops .rightBanana s').Ok ops ∧ (expect ops .rightBanana s').rest ops = us ∧
      (expect ops .rightBanana s').lastError = s.lastError := by
  obtain ⟨hy, hok', hrest', herror⟩ := ih _ (follows_right us) s hok hrest depth y s' h
  obtain ⟨hok'', hus, herror'⟩ := expect_rest hok' hrest' (by simp [Token.Plain])
  exact ⟨hy, hok'', hus, herror'.trans herror⟩

theorem call_complete {f : Token} {ts : List (Lexeme R)} {x : R} (hfunc : isFunctionToken f = true)
    (ih : Complete ops .expression ts x) :
    Complete ops .factor (.tok f :: .tok .leftBanana :: (ts ++ [.tok .rightBanana]))
      (ops.func f x) := by
  intro us _ s hok hrest depth y s' h
  cases depth with
  | zero => exact nomatch h
  | succ depth =>
    rw [List.cons_append, List.cons_append, List.append_assoc] at hrest
    obtain ⟨hsym, hrest₁, hok₁⟩ := rest_tail hok hrest (function_plain hfunc)
    obtain ⟨hok₂, hrest₂, herror⟩ := expect_rest hok₁ hrest₁ (by simp [Token.Plain])
    unfold parse factor at h
    rw [if_pos (hsym.symm ▸ hfunc)] at h
    obtain ⟨⟨z, s₁⟩, hparse, heq⟩ := Option.bind_eq_some_iff.mp h
    simp only [Option.some.injEq, Prod.mk.injEq] at heq
    obtain ⟨rfl, rfl⟩ := heq
    obtain ⟨rfl, hok', hus, herror'⟩ := paren_complete ih hok₂ hrest₂ hparse
    rw [hsym]
    exact ⟨rfl, hok', hus, herror'.trans herror⟩

theorem paren_factor_complete {ts : List (Lexeme R)} {x : R}
    (ih : Complete ops .expression ts x) :
    Complete ops .factor (.tok .leftBanana :: (ts ++ [.tok .rightBanana])) x := by
  intro us _ s hok hrest depth y s' h
  cases depth with
  | zero => exact nomatch h
  | succ depth =>
    rw [List.cons_append, List.append_assoc] at hrest
    obtain ⟨hsym, hrest₁, hok₁⟩ := rest_tail hok hrest (by simp [Token.Plain])
    unfold parse factor at h
    rw [hsym] at h
    obtain ⟨⟨z, s₁⟩, hparse, heq⟩ := Option.bind_eq_some_iff.mp h
    simp only [Option.some.injEq, Prod.mk.injEq] at heq
    obtain ⟨rfl, rfl⟩ := heq
    exact paren_complete ih hok₁ hrest₁ hparse

theorem number_complete (x : R) : Complete ops .factor [.number x] x := by
  intro us _ s hok hrest depth y s' h
  cases depth with
  | zero => exact nomatch h
  | succ depth =>
    obtain ⟨hsym, hnumber⟩ := sym_of_rest_number hrest
    have hus : s.rest ops = _ := rest_number hsym
    unfold parse factor at h
    rw [hsym] at h
    obtain ⟨rfl, rfl⟩ := Prod.mk.inj (Option.some.inj h)
    have hok' := hok.of_append (getSym_shrinks ops s).suffix (show _ = [_] ++ _ from hus)
    rw [hrest] at hus
    exact ⟨hnumber, hok', (List.cons.inj hus).2.symm, rfl⟩

theorem varLexemes_inj {name name' : Option (List UInt8)} {us vs : List (Lexeme R)}
    (h : varLexemes name ++ us = varLexemes name' ++ vs) : name = name' ∧ us = vs := by
  cases name <;> cases name' <;> simp_all [varLexemes]

theorem var_complete (name : Option (List UInt8)) :
    Complete ops .factor (varLexemes name) (ops.getvar name) := by
  intro us _ s hok hrest depth y s' h
  cases depth with
  | zero => exact nomatch h
  | succ depth =>
    have hsym : s.sym = .funcVar := by
      cases name <;> exact sym_of_rest hrest
    have heq : varFactor ops s = (y, s') := by
      unfold parse factor at h
      rw [hsym] at h
      exact Option.some.inj h
    rcases varFactor_cases hok hsym with ⟨name', hrest', hx, herror⟩ | ⟨-, hnot⟩
    · have hok' := hok.of_append (varFactor_shrinks (hok.noTrail_var hsym)).suffix hrest'
      obtain ⟨rfl, rfl⟩ := varLexemes_inj (hrest.symm.trans hrest')
      rw [heq] at hx hok' herror ⊢
      exact ⟨hx, hok', rfl, herror⟩
    · exact absurd hrest (hnot name us)

/-- Two phrases one after the other. -/
theorem seq_complete {ph : Phrase R} (next : R → Phrase R) {ts us vs : List (Lexeme R)} {x z : R}
    (ih : Complete ops ph ts x) (ih' : Complete ops (next x) us z)
    (hph : Follows ops ph (us ++ vs)) (hnext : Follows ops (next x) vs) {s : Parser R}
    (hok : s.Ok ops) (hrest : s.rest ops = ts ++ us ++ vs) {depth : Nat} {y : R} {s' : Parser R}
    (h : (do let (w, s₁) ← parse ops depth ph s; parse ops depth (next w) s₁) = some (y, s')) :
    y = z ∧ s'.Ok ops ∧ s'.rest ops = vs ∧ s'.lastError = s.lastError := by
  obtain ⟨⟨w, s₁⟩, hparse, hparse'⟩ := Option.bind_eq_some_iff.mp h
  rw [List.append_assoc] at hrest
  obtain ⟨rfl, hok₁, hrest₁, herror⟩ := ih _ hph s hok hrest depth w s₁ hparse
  obtain ⟨hy, hok', hvs, herror'⟩ := ih' _ hnext s₁ hok₁ hrest₁ depth y s' hparse'
  exact ⟨hy, hok', hvs, herror'.trans herror⟩

/-- And behind a token. -/
theorem next_complete {ph : Phrase R} (next : R → Phrase R) {t : Token}
    {ts us vs : List (Lexeme R)} {x z : R} (ht : t.Plain) (ih : Complete ops ph ts x)
    (ih' : Complete ops (next x) us z) (hph : Follows ops ph (us ++ vs))
    (hnext : Follows ops (next x) vs) {s : Parser R} (hok : s.Ok ops)
    (hrest : s.rest ops = .tok t :: (ts ++ us) ++ vs) {depth : Nat} {y : R} {s' : Parser R}
    (h : (do let (w, s₁) ← parse ops depth ph (getSym ops s); parse ops depth (next w) s₁) =
      some (y, s')) :
    y = z ∧ s'.Ok ops ∧ s'.rest ops = vs ∧ s'.lastError = s.lastError := by
  obtain ⟨-, hrest₁, hok₁⟩ := rest_tail hok hrest ht
  exact seq_complete next ih ih' hph hnext hok₁ hrest₁ h

theorem termNext_complete {t : Token} {op : R → R → R} {ts us : List (Lexeme R)} {x y z : R}
    (hop : TermOp ops t op) (ih : Complete ops .factor ts y)
    (ih' : Complete ops (.termRest (op x y)) us z) :
    Complete ops (.termRest x) (.tok t :: (ts ++ us)) z := by
  intro vs hvs s hok hrest depth w s' h
  cases depth with
  | zero => exact nomatch h
  | succ depth =>
    unfold parse termRest at h
    rw [sym_of_rest hrest, termOp_eq_some.mpr hop] at h
    exact next_complete (fun f2 => .termRest (op x f2)) (termOp_plain hop) ih ih' trivial hvs hok
      hrest h

theorem expressionNext_complete {t : Token} {op : R → R → R} {ts us : List (Lexeme R)}
    {x y z : R} (hop : ExpressionOp ops t op)
    (hderives : Derives ops isFunctionToken (.expressionRest (op x y)) us z)
    (ih : Complete ops .term ts y) (ih' : Complete ops (.expressionRest (op x y)) us z) :
    Complete ops (.expressionRest x) (.tok t :: (ts ++ us)) z := by
  intro vs hvs s hok hrest depth w s' h
  cases depth with
  | zero => exact nomatch h
  | succ depth =>
    unfold parse expressionRest at h
    rw [sym_of_rest hrest, expressionOp_eq_some.mpr hop] at h
    exact next_complete (fun t2 => .expressionRest (op x t2)) (expressionOp_plain hop) ih ih'
      (follows_term hderives hvs) hvs hok hrest h

/-- Nothing more is read where an operator does not follow. -/
theorem termDone_complete (x : R) : Complete ops (.termRest x) [] x := by
  intro us hus s hok hrest depth y s' h
  cases depth with
  | zero => exact nomatch h
  | succ depth =>
    have hnone : termOp ops s.sym = none := by
      rw [Option.eq_none_iff_forall_ne_some]
      intro op hop
      rw [termOp_eq_some] at hop
      refine hus s.sym op ?_ hop
      rw [← List.nil_append us, ← hrest, rest_plain (termOp_plain hop), List.head?_cons]
    unfold parse termRest at h
    rw [hnone] at h
    obtain ⟨rfl, rfl⟩ := Prod.mk.inj (Option.some.inj h)
    exact ⟨rfl, hok, hrest, rfl⟩

theorem expressionDone_complete (x : R) : Complete ops (.expressionRest x) [] x := by
  intro us hus s hok hrest depth y s' h
  cases depth with
  | zero => exact nomatch h
  | succ depth =>
    have hnone : expressionOp ops s.sym = none := by
      rw [Option.eq_none_iff_forall_ne_some]
      intro op hop
      rw [expressionOp_eq_some] at hop
      refine (hus s.sym op ?_).2 hop
      rw [← List.nil_append us, ← hrest, rest_plain (expressionOp_plain hop), List.head?_cons]
    unfold parse expressionRest at h
    rw [hnone] at h
    obtain ⟨rfl, rfl⟩ := Prod.mk.inj (Option.some.inj h)
    exact ⟨rfl, hok, hrest, rfl⟩

/-- A term in front has no sign. -/
theorem sym_of_term {s : Parser R} {ts us : List (Lexeme R)} {x : R}
    (h : Derives ops isFunctionToken .term ts x) (hrest : s.rest ops = ts ++ us) :
    s.sym ≠ .plus ∧ s.sym ≠ .minus := by
  obtain ⟨l, vs, rfl, hplus, hminus⟩ := term_head h
  rw [List.cons_append] at hrest
  constructor <;> intro hsym <;>
    rw [rest_plain (by rw [hsym]; simp [Token.Plain]), hsym] at hrest
  · exact hplus (List.cons.inj hrest).1.symm
  · exact hminus (List.cons.inj hrest).1.symm

/-- What derives is read. -/
theorem parse_complete {ph : Phrase R} {ts : List (Lexeme R)} {x : R}
    (h : Derives ops isFunctionToken ph ts x) : Complete ops ph ts x := by
  induction h with
  | number x => exact number_complete x
  | call hfunc _ ih => exact call_complete hfunc ih
  | var name => exact var_complete name
  | paren _ ih => exact paren_factor_complete ih
  | termDone x => exact termDone_complete x
  | termNext hop _ _ ih ih' => exact termNext_complete hop ih ih'
  | expressionDone x => exact expressionDone_complete x
  | expressionNext hop _ hderives ih ih' => exact expressionNext_complete hop hderives ih ih'
  | term _ _ ih ih' =>
    intro us hus s hok hrest depth y s' h
    cases depth with
    | zero => exact nomatch h
    | succ depth => exact seq_complete .termRest ih ih' trivial hus hok hrest h
  | expression hterm hderives ih ih' =>
    intro us hus s hok hrest depth y s' h
    cases depth with
    | zero => exact nomatch h
    | succ depth =>
      obtain ⟨hplus, hminus⟩ := sym_of_term hterm (hrest.trans (List.append_assoc _ _ us))
      unfold parse expression at h
      simp only [hplus, hminus, or_self, if_false] at h
      exact seq_complete .expressionRest ih ih' (follows_term hderives hus) hus hok hrest h
  | plus hterm hderives ih ih' =>
    intro us hus s hok hrest depth y s' h
    cases depth with
    | zero => exact nomatch h
    | succ depth =>
      unfold parse expression at h
      rw [sym_of_rest hrest] at h
      exact next_complete .expressionRest (by simp [Token.Plain]) ih ih'
        (follows_term hderives hus) hus hok hrest h
  | minus hterm hderives ih ih' =>
    intro us hus s hok hrest depth y s' h
    cases depth with
    | zero => exact nomatch h
    | succ depth =>
      unfold parse expression at h
      rw [sym_of_rest hrest] at h
      exact next_complete (fun t1 => .expressionRest (ops.mul ops.minusOne t1))
        (by simp [Token.Plain]) ih ih' (follows_term hderives hus) hus hok hrest h

/-! ## The evaluator -/

theorem start_ok {expression_string : List UInt8} (h : NoTrail expression_string)
    (hnames : NamesOk (lexemes ops.num expression_string)) :
    (start ops expression_string).Ok ops ∧
      (start ops expression_string).rest ops = lexemes ops.num expression_string := by
  have hrest : (start ops expression_string).rest ops = lexemes ops.num expression_string :=
    rest_getSym _
  exact ⟨⟨fun _ => h.suffix (nextToken_suffix _), hrest.symm ▸ hnames⟩, hrest⟩

/-- The evaluator comes to its end; it leaves no error exactly on what the grammar derives, and
    returns the value of the derivation there. -/
theorem evaluate_derives (ops : Ops R) (expression_string : List UInt8)
    (h : NoTrail expression_string) (hnames : NamesOk (lexemes ops.num expression_string)) :
    ∃ result last_error, evaluate ops expression_string = some (result, last_error) ∧
      (last_error = none ↔ ∃ x,
        Derives ops isFunctionToken .expression (lexemes ops.num expression_string) x) ∧
      ∀ x, Derives ops isFunctionToken .expression (lexemes ops.num expression_string) x →
        result = x := by
  obtain ⟨result, s, hparse, heval⟩ := evaluate_isSome ops h
  obtain ⟨hok, hrest⟩ := start_ok h hnames
  have hcomplete : ∀ x,
      Derives ops isFunctionToken .expression (lexemes ops.num expression_string) x →
      result = x ∧ s.rest ops = [] ∧ s.lastError = none := fun x hderives => by
    obtain ⟨hx, -, hs, herror⟩ := parse_complete hderives [] (fun _ _ ht => nomatch ht) _ hok
      (by rw [hrest, List.append_nil]) _ _ _ hparse
    exact ⟨hx, hs, herror⟩
  refine ⟨result, _, heval, ⟨fun hnone => ?_, ?_⟩, fun x hderives => (hcomplete x hderives).1⟩
  · obtain ⟨heof, hnone'⟩ := sym_of_expect hnone
    obtain ⟨-, hread⟩ := parse_sound ops _ _ _ _ _ hparse hnone'
    obtain ⟨-, ts, hts, hderives⟩ := hread hok
    rw [rest_eq_nil.mpr heof, List.append_nil, hrest] at hts
    exact ⟨result, hts ▸ hderives⟩
  · rintro ⟨x, hderives⟩
    obtain ⟨-, hs, hnone⟩ := hcomplete x hderives
    rw [expect_of_eq (rest_eq_nil.mp hs)]
    exact hnone

/-- Whole numbers; the variables have the length of their name. -/
def wholeOps : Ops Int32 where
  add := (· + ·)
  sub := (· - ·)
  mul := (· * ·)
  div := (· / ·)
  and := (· &&& ·)
  or := (· ||| ·)
  minusOne := -1
  func t x := if t = .funcNot then ~~~x else if t = .funcAbs ∧ x < 0 then -x else x
  num p := (p.takeWhile isDigit).foldl (fun n c => 10 * n + Int32.ofNat (c.toNat - 48)) 0
  getvar name := Int32.ofNat (name.getD []).length
  nan := 0
  unset := 0
  behind := []

theorem product_evaluated :
    evaluate wholeOps (CString.chars "-2+3*FVAR(ab) OR 8".toList) = some (12, none) ∧
      Derives wholeOps isFunctionToken .expression
        (lexemes wholeOps.num (CString.chars "-2+3*FVAR(ab) OR 8".toList)) 12 := by
  have heval : evaluate wholeOps (CString.chars "-2+3*FVAR(ab) OR 8".toList) = some (12, none) := by
    decide +kernel
  have hlex : lexemes wholeOps.num (CString.chars "-2+3*FVAR(ab) OR 8".toList) =
      [.tok .minus, .number 2, .tok .plus, .number 3, .tok .multiply, .tok .funcVar,
        .tok .leftBanana, .name [97, 98], .tok .rightBanana, .tok .opOr, .number 8] := by
    decide +kernel
  obtain ⟨result, last_error, heq, hiff, hvalue⟩ := evaluate_derives wholeOps
    (CString.chars "-2+3*FVAR(ab) OR 8".toList) (by unfold NoTrail; decide +kernel) (by
      rw [hlex]
      intro name hname
      obtain rfl : name = [97, 98] := by simpa using hname
      exact ⟨by decide, ⟨97, [98], rfl, by decide, by decide⟩, by decide⟩)
  rw [heval] at heq
  obtain ⟨rfl, rfl⟩ := Prod.mk.inj (Option.some.inj heq)
  obtain ⟨x, hx⟩ := hiff.mp rfl
  rw [← hvalue x hx] at hx
  exact ⟨heval, hx⟩

/-- The functions with those that the header lists with them: `AND` and `OR`. -/
def headerFunc (t : Token) : Bool := isFunctionToken t || t = .opAnd || t = .opOr

/-- `AND` and `OR` are operators only: a call of them derives and leaves an error. -/
theorem and_call_error :
    NoTrail (CString.chars "AND(1)".toList) ∧
      NamesOk (lexemes wholeOps.num (CString.chars "AND(1)".toList)) ∧
      ¬ ∃ result last_error,
        evaluate wholeOps (CString.chars "AND(1)".toList) = some (result, last_error) ∧
          (last_error = none ↔ ∃ x, Derives wholeOps headerFunc .expression
            (lexemes wholeOps.num (CString.chars "AND(1)".toList)) x) := by
  have hlex : lexemes wholeOps.num (CString.chars "AND(1)".toList) =
      [.tok .opAnd, .tok .leftBanana, .number 1, .tok .rightBanana] := by decide +kernel
  refine ⟨by unfold NoTrail; decide +kernel, by rw [hlex]; simp [NamesOk], ?_⟩
  rintro ⟨result, last_error, heval, hiff⟩
  have herror : (evaluate wholeOps (CString.chars "AND(1)".toList)).map Prod.snd =
      some (some "Expect: unexpected symbol") := by decide +kernel
  rw [heval, Option.map_some, Option.some.injEq] at herror
  refine absurd ((hiff.mpr ?_).symm.trans herror) nofun
  have hone : ∀ x : Int32, Derives wholeOps headerFunc .expression [.number x] x := fun x =>
    .expression (.term (.number x) (.termDone x)) (.expressionDone x)
  rw [hlex]
  exact ⟨_, .expression (.term (.call rfl (hone 1)) (.termDone _)) (.expressionDone _)⟩

end K64Gateway.Expression
