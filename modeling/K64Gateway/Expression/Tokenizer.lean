import Mathlib
import K64Gateway.Lib.CString

/-
  The tokenizer of the expressions, `expression/tokenizer.c`, on the characters that are left of the
  string.
-/

namespace K64Gateway.Expression

open CString

/-! ## Tokens -/

inductive Token where
  | plus | minus | multiply | divide | leftBanana | rightBanana | number
  | funcAbs | funcSin | funcCos | funcInt | funcTan | funcSqr | funcSgn | funcLog | funcExp
  | funcAtn | funcNot | funcBcd2n | funcVar | opOr | opAnd | error | eof
deriving DecidableEq

/-- `char_to_tokens` -/
def charToTokens : List (UInt8 × Token) :=
  [(43, .plus), (45, .minus), (42, .multiply), (47, .divide), (40, .leftBanana),
    (41, .rightBanana)]

/-- `keyword_to_tokens` -/
def keywordToTokens : List (List UInt8 × Token) :=
  [("ABS", Token.funcAbs), ("SIN", .funcSin), ("COS", .funcCos), ("INT", .funcInt),
    ("TAN", .funcTan), ("SQR", .funcSqr), ("SGN", .funcSgn), ("LOG", .funcLog),
    ("EXP", .funcExp), ("ATN", .funcAtn), ("NOT", .funcNot), ("BCD2N", .funcBcd2n),
    ("FVAR", .funcVar), ("OR", .opOr), ("AND", .opAnd)].map fun k => (chars k.1.toList, k.2)

def isDigit (c : UInt8) : Bool := 48 ≤ c && c ≤ 57

/-- `tolower` -/
def toLower (c : UInt8) : UInt8 := if 65 ≤ c ∧ c ≤ 90 then c + 32 else c

/-- `strncasecmp(p, keyword, strlen(keyword)) == 0` -/
def hasKeyword (p keyword : List UInt8) : Bool :=
  (p.take keyword.length).map toLower == keyword.map toLower

def skipSpace (p : List UInt8) : List UInt8 := p.dropWhile isSpace

/-- A token from the first character that is not white space. -/
def tokenAt (p : List UInt8) : Token × List UInt8 :=
  match charToTokens.find? (fun k => p.head? == some k.1) with
  | some k => (k.2, p.tail)
  | none =>
      if p.head?.any isDigit then (.number, p.dropWhile fun c => isDigit c || c == 46)
      else
        match keywordToTokens.find? (fun k => hasKeyword p k.1) with
        | some k => (k.2, p.drop k.1.length)
        | none => (.error, p)

/-- `tokenizer_get_next_token(T_EOF)`, with the characters that are left. -/
def nextToken (p : List UInt8) : Token × List UInt8 :=
  if p = [] then (.eof, []) else tokenAt (skipSpace p)

/-- `tokenizer_get_next_token(T_RIGHT_BANANA)`, with the characters up to the parenthesis and those
    that are left. Where white space ends the string, the loop runs on into the memory behind it. -/
def nextRight (behind p : List UInt8) : Token × Option (List UInt8) × List UInt8 :=
  if p = [] then (.eof, none, [])
  else
    let p := if skipSpace p = [] then 0 :: behind else skipSpace p
    let rest := p.dropWhile (· != 41)
    if rest = [] then (.eof, none, []) else (.rightBanana, some (p.takeWhile (· != 41)), rest.tail)

/-! ## What is left -/

theorem skipSpace_suffix (p : List UInt8) : skipSpace p <:+ p := List.dropWhile_suffix _

theorem tokenAt_suffix (p : List UInt8) : (tokenAt p).2 <:+ p := by
  unfold tokenAt
  split
  · exact List.tail_suffix p
  · split
    · exact List.dropWhile_suffix _
    · split
      · exact List.drop_suffix _ _
      · exact List.suffix_refl p

theorem nextToken_suffix (p : List UInt8) : (nextToken p).2 <:+ p := by
  unfold nextToken
  split
  · exact List.nil_suffix
  · exact (tokenAt_suffix _).trans (skipSpace_suffix p)

/-- A token other than the end and the error takes a character at least. -/
theorem tokenAt_length_lt {p : List UInt8} (h : (tokenAt p).1 ≠ .error) :
    (tokenAt p).2.length < p.length := by
  cases p with
  | nil => exact absurd rfl h
  | cons c p =>
    unfold tokenAt at h ⊢
    cases hchar : charToTokens.find? (fun k => (c :: p).head? == some k.1) with
    | some k => exact Nat.lt_succ_self _
    | none =>
      rw [hchar] at h
      dsimp only at h ⊢
      by_cases hdigit : ((c :: p).head?.any isDigit) = true
      · have hc : isDigit c = true := by simpa using hdigit
        have hle := (List.dropWhile_suffix (fun c => isDigit c || c == 46) (l := p)).length_le
        rw [if_pos hdigit, List.dropWhile_cons_of_pos (by rw [hc, Bool.true_or])]
        exact Nat.lt_succ_of_le hle
      · rw [if_neg hdigit] at h ⊢
        cases hkey : keywordToTokens.find? (fun k => hasKeyword (c :: p) k.1) with
        | some k =>
          have hall : ∀ k ∈ keywordToTokens, 0 < k.1.length := by decide
          have hpos := hall k (List.mem_of_find?_eq_some hkey)
          dsimp only
          rw [List.length_drop, List.length_cons]
          omega
        | none =>
          rw [hkey] at h
          exact absurd rfl h

theorem tokenAt_ne_eof (p : List UInt8) : (tokenAt p).1 ≠ .eof := by
  have hchars : ∀ k ∈ charToTokens, k.2 ≠ .eof := by decide
  have hkeys : ∀ k ∈ keywordToTokens, k.2 ≠ .eof := by decide
  unfold tokenAt
  split
  · next k hk => exact hchars k (List.mem_of_find?_eq_some hk)
  · split
    · exact Token.noConfusion
    · split
      · next k hk => exact hkeys k (List.mem_of_find?_eq_some hk)
      · exact Token.noConfusion

theorem nextToken_length_lt {p : List UInt8} (heof : (nextToken p).1 ≠ .eof)
    (herror : (nextToken p).1 ≠ .error) : (nextToken p).2.length < p.length := by
  unfold nextToken at heof herror ⊢
  split
  · next h => exact absurd (if_pos h ▸ rfl) heof
  · next h =>
    rw [if_neg h] at herror
    exact Nat.lt_of_lt_of_le (tokenAt_length_lt herror) (skipSpace_suffix p).length_le

/-! ## The token sequence -/

/-- A token, a number with its value, or the name of a variable. -/
inductive Lexeme (R : Type) where
  | tok (t : Token)
  | number (x : R)
  | name (s : List UInt8)
deriving DecidableEq

section
variable {R : Type}

/-- The argument of `FVAR`: the text up to the parenthesis, or nothing. -/
def lexArg (lex : List UInt8 → List (Lexeme R)) (p : List UInt8) : List (Lexeme R) :=
  let arg := skipSpace p
  let name := arg.takeWhile (· != 41)
  let rest := arg.dropWhile (· != 41)
  if rest = [] then [.tok .error]
  else (if name = [] then [] else [.name name]) ++ .tok .rightBanana :: lex rest.tail

/-- What follows `FVAR`. -/
def lexVar (lex : List UInt8 → List (Lexeme R)) (p : List UInt8) : List (Lexeme R) :=
  if (nextToken p).1 = .leftBanana then .tok .leftBanana :: lexArg lex (nextToken p).2 else lex p

/-- The tokens from one on that has been read; a number has its value with it. The tokenizer does
    not get past an error. -/
def stream (lex : List UInt8 → List (Lexeme R)) (t : Token) (x : R) (p : List UInt8) :
    List (Lexeme R) :=
  match t with
  | .eof => []
  | .error => [.tok .error]
  | .number => .number x :: lex p
  | .funcVar => .tok .funcVar :: lexVar lex p
  | t => .tok t :: lex p

variable (num : List UInt8 → R)

def lexFuel : Nat → List UInt8 → List (Lexeme R)
  | 0, _ => []
  | fuel + 1, p => stream (lexFuel fuel) (nextToken p).1 (num (skipSpace p)) (nextToken p).2

/-- The token sequence of a string; `num` is the value of the number that a text begins with. -/
def lexemes (p : List UInt8) : List (Lexeme R) := lexFuel num (p.length + 1) p

variable {num}

theorem stream_congr {f g : List UInt8 → List (Lexeme R)} {p : List UInt8}
    (h : ∀ q : List UInt8, q.length ≤ p.length → f q = g q) (t : Token) (x : R) :
    stream f t x p = stream g t x p := by
  have harg : lexArg f (nextToken p).2 = lexArg g (nextToken p).2 := by
    have hle : ((skipSpace (nextToken p).2).dropWhile (· != 41)).tail.length ≤ p.length :=
      ((List.tail_suffix _).trans ((List.dropWhile_suffix _).trans
        ((skipSpace_suffix _).trans (nextToken_suffix p)))).length_le
    unfold lexArg
    dsimp only
    rw [h _ hle]
  have hvar : lexVar f p = lexVar g p := by
    unfold lexVar
    rw [harg, h p (Nat.le_refl _)]
  unfold stream
  split <;> first | rfl | rw [h p (Nat.le_refl _)] | rw [hvar]

theorem lexFuel_eq {n m : Nat} {p : List UInt8} (hn : p.length < n) (hm : p.length < m) :
    lexFuel num n p = lexFuel num m p := by
  induction n generalizing m p with
  | zero => omega
  | succ n ih =>
    obtain ⟨m, rfl⟩ := Nat.exists_eq_succ_of_ne_zero (Nat.ne_of_gt (Nat.zero_lt_of_lt hm))
    unfold lexFuel
    by_cases heof : (nextToken p).1 = .eof
    · rw [heof]
      rfl
    · by_cases herror : (nextToken p).1 = .error
      · rw [herror]
        rfl
      · have hlt := nextToken_length_lt heof herror
        exact stream_congr (fun q hq => ih (by omega) (by omega)) _ _

/-- The sequence is that of the first token on. -/
theorem lexemes_eq (p : List UInt8) :
    lexemes num p =
      stream (lexemes num) (nextToken p).1 (num (skipSpace p)) (nextToken p).2 := by
  conv_lhs => unfold lexemes lexFuel
  by_cases heof : (nextToken p).1 = .eof
  · rw [heof]
    rfl
  · by_cases herror : (nextToken p).1 = .error
    · rw [herror]
      rfl
    · have hlt := nextToken_length_lt heof herror
      exact stream_congr (fun q hq => lexFuel_eq (by omega) (Nat.lt_succ_self _)) _ _

end

/-! ## Names -/

/-- The name of a variable: up to 31 characters, a letter first, and no keyword in front. -/
structure NameOk (name : List UInt8) : Prop where
  length : name.length ≤ 31
  letter : ∃ c rest, name = c :: rest ∧ 97 ≤ toLower c ∧ toLower c ≤ 122
  keyword : ∀ k ∈ keywordToTokens, hasKeyword name k.1 = false

theorem NameOk.ne_nil {name : List UInt8} (h : NameOk name) : name ≠ [] := by
  obtain ⟨c, rest, rfl, -⟩ := h.letter
  exact List.cons_ne_nil c rest

/-- A letter lies behind the digits, the operators and white space. -/
theorem letter_ge {c : UInt8} (hlow : 97 ≤ toLower c) : 65 ≤ c.toNat := by
  unfold toLower at hlow
  split at hlow
  · next h => exact UInt8.le_iff_toNat_le.mp h.1
  · have h := UInt8.le_iff_toNat_le.mp hlow
    simp only [UInt8.reduceToNat] at h
    omega

theorem isSpace_letter {c : UInt8} (h : 65 ≤ c.toNat) : isSpace c = false := by
  unfold isSpace
  rw [Bool.or_eq_false_iff, Bool.and_eq_false_iff]
  refine ⟨beq_eq_false_iff_ne.mpr ?_, Or.inr (decide_eq_false fun hle => ?_)⟩
  · rintro rfl
    exact absurd h (by decide)
  · have hle := UInt8.le_iff_toNat_le.mp hle
    simp only [UInt8.reduceToNat] at hle
    omega

theorem isDigit_letter {c : UInt8} (h : 65 ≤ c.toNat) : isDigit c = false := by
  unfold isDigit
  rw [Bool.and_eq_false_iff]
  refine Or.inr (decide_eq_false fun hle => ?_)
  have hle := UInt8.le_iff_toNat_le.mp hle
  simp only [UInt8.reduceToNat] at hle
  omega

theorem NameOk.skipSpace {name : List UInt8} (h : NameOk name) (rest : List UInt8) :
    skipSpace (name ++ rest) = name ++ rest := by
  obtain ⟨c, tail, rfl, hlow, -⟩ := h.letter
  have hspace := isSpace_letter (letter_ge hlow)
  rw [Expression.skipSpace, List.cons_append, List.dropWhile_cons_of_neg (by rw [hspace]; decide)]

/-- A keyword in front of a name and its parenthesis is one in front of the name. -/
theorem hasKeyword_append {name keyword : List UInt8} (rest : List UInt8)
    (hkey : (41 : UInt8) ∉ keyword.map toLower)
    (h : hasKeyword (name ++ 41 :: rest) keyword = true) : hasKeyword name keyword = true := by
  unfold hasKeyword at h ⊢
  rw [beq_iff_eq] at h ⊢
  by_cases hle : keyword.length ≤ name.length
  · rwa [List.take_append_of_le_length hle] at h
  · refine absurd ?_ hkey
    rw [← h, List.take_append, List.map_append]
    obtain ⟨n, hn⟩ := Nat.exists_eq_succ_of_ne_zero (Nat.sub_ne_zero_of_lt (Nat.lt_of_not_le hle))
    rw [hn, List.take_succ_cons]
    exact List.mem_append_right _ (List.mem_cons_self ..)

/-- A name in front of its parenthesis is no token. -/
theorem tokenAt_name {name : List UInt8} (h : NameOk name) (rest : List UInt8) :
    tokenAt (name ++ 41 :: rest) = (.error, name ++ 41 :: rest) := by
  obtain ⟨c, tail, hname, hlow, -⟩ := h.letter
  have hletter := letter_ge hlow
  have hhead : (name ++ 41 :: rest).head? = some c := by
    rw [hname]
    rfl
  have hchar : charToTokens.find? (fun k => (name ++ 41 :: rest).head? == some k.1) = none := by
    rw [List.find?_eq_none]
    intro k hk heq
    have hsmall : ∀ k ∈ charToTokens, k.1.toNat < 65 := by decide
    have hlt := hsmall k hk
    rw [hhead, beq_iff_eq, Option.some.injEq] at heq
    rw [← heq] at hlt
    omega
  have hdigit : ¬ ((name ++ 41 :: rest).head?.any isDigit) = true := by
    rw [hhead, Option.any_some, isDigit_letter hletter]
    exact Bool.false_ne_true
  have hkey : keywordToTokens.find? (fun k => hasKeyword (name ++ 41 :: rest) k.1) = none := by
    rw [List.find?_eq_none]
    intro k hk htrue
    have hparen : ∀ k ∈ keywordToTokens, (41 : UInt8) ∉ k.1.map toLower := by decide
    have hfalse := h.keyword k hk
    rw [hasKeyword_append rest (hparen k hk) htrue] at hfalse
    exact Bool.false_ne_true hfalse.symm
  unfold tokenAt
  rw [hchar]
  dsimp only
  rw [if_neg hdigit, hkey]

end K64Gateway.Expression
