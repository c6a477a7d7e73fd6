import K64Gateway.Expression.Tokenizer

/-
  The evaluator of the expressions, `expression/exp_parser.c`: a recursive descent over the tokens,
  with the current one and the last error in variables.

  Proved: it comes to its end on every string (`evaluate_isSome`).
-/

namespace K64Gateway.Expression

/-! ## The state -/

/-- The operations on numbers, the value of the number that a text begins with, and the values of
    the variables (that of the default name, where there is none). What the code leaves open is a
    parameter too: the number of a token that is none, a number that was not set, and the memory
    behind the string. -/
structure Ops (R : Type) where
  add : R → R → R
  sub : R → R → R
  mul : R → R → R
  div : R → R → R
  and : R → R → R
  or : R → R → R
  minusOne : R
  func : Token → R → R
  num : List UInt8 → R
  getvar : Option (List UInt8) → R
  nan : R
  unset : R
  behind : List UInt8

/-- The characters that are left, `tokenizer_actual_str` with its size, `tokenizer_actual_number`,
    `sym` and `last_error`. -/
structure Parser (R : Type) where
  p : List UInt8
  str : Option (List UInt8)
  number : R
  sym : Token
  lastError : Option String

variable {R : Type} (ops : Ops R)

/-- `_get_sym` -/
def getSym (s : Parser R) : Parser R :=
  let t := nextToken s.p
  { s with
    p := t.2, str := none, sym := t.1
    number :=
      if t.1 = .number then ops.num (skipSpace s.p)
      else if t.1 ∈ charToTokens.map Prod.snd then ops.nan else s.number }

/-- `sym = tokenizer_get_next_token(T_RIGHT_BANANA)` -/
def getRight (s : Parser R) : Parser R :=
  let t := nextRight ops.behind s.p
  { s with p := t.2.2, str := t.2.1, sym := t.1 }

/-- `tokenizer_get_str` -/
def getStr (s : Parser R) : Option (List UInt8) :=
  s.str.filter fun str => 0 < str.length && str.length < 32

/-- `_error` -/
def setError (s : Parser R) (msg : String) : Parser R := { s with lastError := some msg }

/-- `_expect`, whose result nobody looks at. -/
def expect (t : Token) (s : Parser R) : Parser R :=
  if t = s.sym then getSym ops s else setError s "Expect: unexpected symbol"

/-- `token_to_functions` -/
def tokenToFunctions : List Token :=
  [.funcAbs, .funcSin, .funcCos, .funcInt, .funcTan, .funcSqr, .funcSgn, .funcLog, .funcExp,
    .funcAtn, .funcNot, .funcBcd2n]

def isFunctionToken (t : Token) : Bool := t ∈ tokenToFunctions

/-- The operators of `_term`. -/
def termOp : Token → Option (R → R → R)
  | .multiply => some ops.mul
  | .divide => some ops.div
  | .opAnd => some ops.and
  | _ => none

/-- The operators of `_expression`. -/
def expressionOp : Token → Option (R → R → R)
  | .plus => some ops.add
  | .minus => some ops.sub
  | .opOr => some ops.or
  | _ => none

/-! ## The descent -/

/-- What is parsed: `_factor`, `_term` and `_expression`, and the loops of the last two with the
    number that they have come to. -/
inductive Phrase (R : Type) where
  | factor
  | term
  | termRest (f1 : R)
  | expression
  | expressionRest (t1 : R)

/-- The branch of `_factor` for a variable. -/
def varFactor (s : Parser R) : R × Parser R :=
  let s := expect ops .leftBanana (getSym ops s)
  let s := if s.sym ≠ .rightBanana then getRight ops s else s
  let number := if s.sym = .rightBanana then ops.getvar (getStr s) else ops.unset
  (number, expect ops .rightBanana s)

section
variable (rec : Phrase R → Parser R → Option (R × Parser R))

/-- `_factor` -/
def factor (s : Parser R) : Option (R × Parser R) :=
  if isFunctionToken s.sym then do
    let (x, s') ← rec .expression (expect ops .leftBanana (getSym ops s))
    some (ops.func s.sym x, expect ops .rightBanana s')
  else if s.sym = .funcVar then some (varFactor ops s)
  else if s.sym = .number then some (s.number, getSym ops s)
  else if s.sym = .leftBanana then do
    let (x, s') ← rec .expression (getSym ops s)
    some (x, expect ops .rightBanana s')
  else some (ops.unset, getSym ops (setError s "Factor: syntax error"))

/-- `_term` -/
def term (s : Parser R) : Option (R × Parser R) := do
  let (f1, s) ← rec .factor s
  rec (.termRest f1) s

/-- The loop of `_term`. -/
def termRest (f1 : R) (s : Parser R) : Option (R × Parser R) :=
  match termOp ops s.sym with
  | some op => do
      let (f2, s) ← rec .factor (getSym ops s)
      rec (.termRest (op f1 f2)) s
  | none => some (f1, s)

/-- `_expression` -/
def expression (s : Parser R) : Option (R × Parser R) := do
  let signed := s.sym = .plus ∨ s.sym = .minus
  let (t1, s') ← rec .term (if signed then getSym ops s else s)
  rec (.expressionRest (if s.sym = .minus then ops.mul ops.minusOne t1 else t1)) s'

/-- The loop of `_expression`. -/
def expressionRest (t1 : R) (s : Parser R) : Option (R × Parser R) :=
  match expressionOp ops s.sym with
  | some op => do
      let (t2, s) ← rec .term (getSym ops s)
      rec (.expressionRest (op t1 t2)) s
  | none => some (t1, s)

end

/-- The calls, up to a depth. -/
def parse : Nat → Phrase R → Parser R → Option (R × Parser R)
  | 0, _, _ => none
  | depth + 1, .factor, s => factor ops (parse depth) s
  | depth + 1, .term, s => term (parse depth) s
  | depth + 1, .termRest f1, s => termRest ops (parse depth) f1 s
  | depth + 1, .expression, s => expression ops (parse depth) s
  | depth + 1, .expressionRest t1, s => expressionRest ops (parse depth) t1 s

/-- The state at the first token of a string. -/
def start (expression_string : List UInt8) : Parser R :=
  getSym ops ⟨expression_string, none, ops.unset, .eof, none⟩

/-- `evaluate`, with `evaluate_last_error`. The depth is enough for the characters of the string
    (`evaluate_isSome`). -/
def evaluate (expression_string : List UInt8) : Option (R × Option String) := do
  let (result, s) ← parse ops (8 * expression_string.length + 8) .expression
    (start ops expression_string)
  some (result, (expect ops .eof s).lastError)

/-! ## Termination -/

/-- No white space at the end. -/
def NoTrail (p : List UInt8) : Prop := ∀ c ∈ p.getLast?, CString.isSpace c = false

theorem NoTrail.suffix {p q : List UInt8} (h : NoTrail p) (hq : q <:+ p) : NoTrail q := by
  obtain ⟨r, rfl⟩ := hq
  intro c hc
  refine h c ?_
  rw [List.getLast?_append, Option.mem_def.mp hc]
  rfl

/-- Then there is a character behind white space. -/
theorem NoTrail.skipSpace {p : List UInt8} (h : NoTrail p) (hp : p ≠ []) : skipSpace p ≠ [] := by
  intro hnil
  have hlast := h _ (List.getLast?_eq_some_getLast hp)
  have hall := List.dropWhile_eq_nil_iff.mp hnil _ (List.getLast_mem hp)
  rw [hlast] at hall
  exact Bool.false_ne_true hall

/-- The characters that are left, counted twice, and the current token. -/
def weight (s : Parser R) : Nat :=
  2 * s.p.length + if s.sym = .eof ∨ s.sym = .error then 0 else 1

/-- A step of the descent: what is left is left of what was, and it does not get more. -/
structure Shrinks (s s' : Parser R) : Prop where
  suffix : s'.p <:+ s.p
  weight : weight s' ≤ weight s

theorem Shrinks.trans {s s' s'' : Parser R} (h : Shrinks s s') (h' : Shrinks s' s'') :
    Shrinks s s'' :=
  ⟨h'.suffix.trans h.suffix, Nat.le_trans h'.weight h.weight⟩

theorem weight_getSym_le (s : Parser R) : weight (getSym ops s) ≤ 2 * s.p.length := by
  have hle := (nextToken_suffix s.p).length_le
  show 2 * (nextToken s.p).2.length +
    (if (nextToken s.p).1 = .eof ∨ (nextToken s.p).1 = .error then 0 else 1) ≤ 2 * s.p.length
  split
  · omega
  · next h =>
    have hlt := nextToken_length_lt (fun heof => h (Or.inl heof)) (fun herr => h (Or.inr herr))
    omega

theorem getSym_shrinks (s : Parser R) : Shrinks s (getSym ops s) :=
  ⟨nextToken_suffix s.p, Nat.le_trans (weight_getSym_le ops s) (Nat.le_add_right _ _)⟩

/-- A token is left behind. -/
theorem weight_getSym_lt {s : Parser R} (heof : s.sym ≠ .eof) (herror : s.sym ≠ .error) :
    weight (getSym ops s) < weight s := by
  have hle := weight_getSym_le ops s
  have hs : weight s = 2 * s.p.length + 1 := by
    unfold weight
    rw [if_neg (not_or.mpr ⟨heof, herror⟩)]
  omega

theorem getRight_shrinks {s : Parser R} (h : NoTrail s.p) : Shrinks s (getRight ops s) := by
  have hright : (nextRight ops.behind s.p).2.2 <:+ s.p ∧
      ((nextRight ops.behind s.p).1 = .eof ∨
        (nextRight ops.behind s.p).2.2.length < s.p.length) := by
    unfold nextRight
    split
    · exact ⟨List.nil_suffix, Or.inl rfl⟩
    · next hp =>
      rw [if_neg (h.skipSpace hp)]
      have hdrop : (skipSpace s.p).dropWhile (· != 41) <:+ s.p :=
        (List.dropWhile_suffix _).trans (skipSpace_suffix s.p)
      dsimp only
      split
      · exact ⟨List.nil_suffix, Or.inl rfl⟩
      · next hrest =>
        refine ⟨(List.tail_suffix _).trans hdrop, Or.inr ?_⟩
        have hpos := List.length_pos_of_ne_nil hrest
        have hle := hdrop.length_le
        dsimp only
        rw [List.length_tail]
        omega
  refine ⟨hright.1, ?_⟩
  have hle := hright.1.length_le
  show 2 * (nextRight ops.behind s.p).2.2.length +
    (if (nextRight ops.behind s.p).1 = .eof ∨ (nextRight ops.behind s.p).1 = .error then 0 else 1) ≤
      2 * s.p.length + (if s.sym = .eof ∨ s.sym = .error then 0 else 1)
  rcases hright.2 with heof | hlt
  · rw [if_pos (Or.inl heof)]
    omega
  · split <;> omega

theorem expect_shrinks (t : Token) (s : Parser R) : Shrinks s (expect ops t s) := by
  unfold expect
  split
  · exact getSym_shrinks ops s
  · exact ⟨List.suffix_refl _, Nat.le_refl _⟩

variable {ops}

theorem varFactor_shrinks {s : Parser R} (h : NoTrail s.p) : Shrinks s (varFactor ops s).2 := by
  have hparen := (getSym_shrinks ops s).trans (expect_shrinks ops .leftBanana _)
  have hright := getRight_shrinks ops (h.suffix hparen.suffix)
  unfold varFactor
  dsimp only
  refine Shrinks.trans (hparen.trans ?_) (expect_shrinks ops _ _)
  split
  · exact hright
  · exact ⟨List.suffix_refl _, Nat.le_refl _⟩

/-- The depth that a phrase needs. -/
def depthOf (w : Nat) : Phrase R → Nat
  | .factor | .termRest _ | .expressionRest _ => 4 * w + 1
  | .term => 4 * w + 2
  | .expression => 4 * w + 3

theorem function_ne {t : Token} (h : isFunctionToken t = true) : t ≠ .eof ∧ t ≠ .error := by
  have hall : ∀ t ∈ tokenToFunctions, t ≠ .eof ∧ t ≠ .error := by decide
  exact hall t (of_decide_eq_true h)

theorem termOp_ne {t : Token} {op : R → R → R} (h : termOp ops t = some op) :
    t ≠ .eof ∧ t ≠ .error := by
  constructor <;> rintro rfl <;> exact nomatch h

theorem expressionOp_ne {t : Token} {op : R → R → R} (h : expressionOp ops t = some op) :
    t ≠ .eof ∧ t ≠ .error := by
  constructor <;> rintro rfl <;> exact nomatch h

section
variable {depth : Nat}

/-- What the induction says about the phrases of a smaller depth. -/
def Parsed (ops : Ops R) (depth : Nat) : Prop :=
  ∀ (ph : Phrase R) (s : Parser R), NoTrail s.p → depthOf (weight s) ph ≤ depth →
    ∃ x s', parse ops depth ph s = some (x, s') ∧ Shrinks s s'

theorem factor_isSome (ih : Parsed ops depth) {s : Parser R} (h : NoTrail s.p)
    (hdepth : 4 * weight s ≤ depth) :
    ∃ x s', factor ops (parse ops depth) s = some (x, s') ∧ Shrinks s s' := by
  -- The expression in parentheses begins behind a token, so it needs less depth.
  have harg : ∀ s' : Parser R, Shrinks s s' → weight s' < weight s →
      ∃ x s'', parse ops depth .expression s' = some (x, s'') ∧ Shrinks s s'' := fun s' hs hlt => by
    obtain ⟨x, s'', hparse, hs'⟩ := ih .expression s' (h.suffix hs.suffix)
      (by simp only [depthOf]; omega)
    exact ⟨x, s'', hparse, hs.trans hs'⟩
  unfold factor
  split
  · next hfunc =>
    have hlt := weight_getSym_lt ops (function_ne hfunc).1 (function_ne hfunc).2
    have hs := (getSym_shrinks ops s).trans (expect_shrinks ops .leftBanana _)
    have hle := (expect_shrinks ops .leftBanana (getSym ops s)).weight
    obtain ⟨x, s', hparse, hs'⟩ := harg _ hs (Nat.lt_of_le_of_lt hle hlt)
    rw [hparse]
    exact ⟨_, _, rfl, hs'.trans (expect_shrinks ops _ _)⟩
  · split
    · exact ⟨_, _, rfl, varFactor_shrinks h⟩
    · split
      · exact ⟨_, _, rfl, getSym_shrinks ops s⟩
      · split
        · next hparen =>
          have hlt := weight_getSym_lt ops (s := s) (by rw [hparen]; exact Token.noConfusion)
            (by rw [hparen]; exact Token.noConfusion)
          obtain ⟨x, s', hparse, hs'⟩ := harg _ (getSym_shrinks ops s) hlt
          rw [hparse]
          exact ⟨_, _, rfl, hs'.trans (expect_shrinks ops _ _)⟩
        · have hs := getSym_shrinks ops (setError s "Factor: syntax error")
          exact ⟨_, _, rfl, hs.suffix, hs.weight⟩

/-- Two phrases one after the other. -/
theorem seq_isSome (ih : Parsed ops depth) {s : Parser R} (h : NoTrail s.p) (ph : Phrase R)
    (next : R → Phrase R) (hph : depthOf (weight s) ph ≤ depth)
    (hnext : ∀ x w, w ≤ weight s → depthOf w (next x) ≤ depth) :
    ∃ x s', (do let (y, s') ← parse ops depth ph s; parse ops depth (next y) s') = some (x, s') ∧
      Shrinks s s' := by
  obtain ⟨y, s', hparse, hs⟩ := ih ph s h hph
  obtain ⟨x, s'', hparse', hs'⟩ := ih (next y) s' (h.suffix hs.suffix) (hnext y _ hs.weight)
  refine ⟨x, s'', ?_, hs.trans hs'⟩
  rw [hparse]
  exact hparse'

end

/-- With enough depth a phrase is parsed. -/
theorem parse_isSome (ops : Ops R) (depth : Nat) : Parsed ops depth := by
  induction depth with
  | zero =>
    intro ph s h hdepth
    cases ph <;> simp [depthOf] at hdepth
  | succ depth ih =>
    intro ph s h hdepth
    cases ph with
    | factor => exact factor_isSome ih h (by simp only [depthOf] at hdepth; omega)
    | term =>
      simp only [depthOf] at hdepth
      exact seq_isSome ih h .factor .termRest (by simp only [depthOf]; omega)
        (fun _ _ _ => by simp only [depthOf]; omega)
    | termRest f1 =>
      simp only [depthOf] at hdepth
      unfold parse termRest
      split
      · next op hop =>
        have hlt := weight_getSym_lt ops (termOp_ne hop).1 (termOp_ne hop).2
        have hs := getSym_shrinks ops s
        obtain ⟨x, s', hparse, hs'⟩ := seq_isSome ih (h.suffix hs.suffix) .factor
          (fun f2 => .termRest (op f1 f2)) (by simp only [depthOf]; omega)
          (fun _ _ _ => by simp only [depthOf]; omega)
        exact ⟨x, s', hparse, hs.trans hs'⟩
      · exact ⟨_, _, rfl, List.suffix_refl _, Nat.le_refl _⟩
    | expression =>
      simp only [depthOf] at hdepth
      unfold parse expression
      have hs : Shrinks s (if s.sym = .plus ∨ s.sym = .minus then getSym ops s else s) := by
        split
        · exact getSym_shrinks ops s
        · exact ⟨List.suffix_refl _, Nat.le_refl _⟩
      have hle := hs.weight
      obtain ⟨x, s', hparse, hs'⟩ := seq_isSome ih (h.suffix hs.suffix) .term
        (fun t1 => .expressionRest
          (if s.sym = .minus then ops.mul ops.minusOne t1 else t1)) (by simp only [depthOf]; omega)
        (fun _ _ _ => by simp only [depthOf]; omega)
      exact ⟨x, s', hparse, hs.trans hs'⟩
    | expressionRest t1 =>
      simp only [depthOf] at hdepth
      unfold parse expressionRest
      split
      · next op hop =>
        have hlt := weight_getSym_lt ops (expressionOp_ne hop).1 (expressionOp_ne hop).2
        have hs := getSym_shrinks ops s
        obtain ⟨x, s', hparse, hs'⟩ := seq_isSome ih (h.suffix hs.suffix) .term
          (fun t2 => .expressionRest (op t1 t2)) (by simp only [depthOf]; omega)
          (fun _ _ _ => by simp only [depthOf]; omega)
        exact ⟨x, s', hparse, hs.trans hs'⟩
      · exact ⟨_, _, rfl, List.suffix_refl _, Nat.le_refl _⟩

/-- The evaluator comes to its end. -/
theorem evaluate_isSome (ops : Ops R) {expression_string : List UInt8}
    (h : NoTrail expression_string) :
    ∃ x s, parse ops (8 * expression_string.length + 8) .expression
        (start ops expression_string) = some (x, s) ∧
      evaluate ops expression_string = some (x, (expect ops .eof s).lastError) := by
  have hs : (start ops expression_string).p <:+ expression_string := nextToken_suffix _
  have hw : weight (start ops expression_string) ≤ 2 * expression_string.length :=
    weight_getSym_le ops _
  obtain ⟨x, s, hparse, -⟩ := parse_isSome ops (8 * expression_string.length + 8) .expression
    (start ops expression_string) (h.suffix hs) (by simp only [depthOf]; omega)
  refine ⟨x, s, hparse, ?_⟩
  unfold evaluate
  rw [hparse]
  rfl

end K64Gateway.Expression
