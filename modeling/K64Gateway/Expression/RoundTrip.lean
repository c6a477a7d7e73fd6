import K64Gateway.Expression.Grammar
import K64Gateway.Expression.Rendering

/-
  The evaluator on the texts of expression trees. `tokenizer_get_next_token` asks for the end of
  the string before it passes white space, so white space at the end is an error; a literal goes
  through a buffer of 16 characters that has no NUL from 16 characters on, and `sscanf` reads on
  behind it.

  Proved: exactly the texts without white space at the end and without a literal of more than 15
  characters are evaluated to the value of the tree, whatever the arithmetic is and whatever stands
  behind the buffer (`evaluates_iff`).
-/

namespace K64Gateway.Expression

open CString Strtod

/-! ## Values -/

variable {R : Type}

def TermSign.apply (ops : Ops R) : TermSign → R → R → R
  | multiply => ops.mul
  | divide => ops.div
  | and => ops.and

def ExpressionSign.apply (ops : Ops R) : ExpressionSign → R → R → R
  | plus => ops.add
  | minus => ops.sub
  | or => ops.or

namespace Tree

variable {k : Level}

/-- The value of a tree, with the values of its literals. -/
def value (ops : Ops R) (f : Literal → R) {k : Level} : Tree k → R
  | literal l => f l
  | call func _ e => ops.func func (e.value ops f)
  | paren e => e.value ops f
  | ofFactor t => t.value ops f
  | termOp op t u => op.apply ops (t.value ops f) (u.value ops f)
  | ofTerm t => t.value ops f
  | signed minus t => if minus then ops.mul ops.minusOne (t.value ops f) else t.value ops f
  | expressionOp op e t => op.apply ops (e.value ops f) (t.value ops f)

theorem value_congr (ops : Ops R) {f g : Literal → R} (t : Tree k)
    (h : ∀ l ∈ t.literals, f l = g l) : t.value ops f = t.value ops g := by
  induction t with
  | literal l => exact h l List.mem_cons_self
  | call func _ e ih => exact congrArg (ops.func func) (ih h)
  | paren e ih => exact ih h
  | ofFactor t ih => exact ih h
  | termOp op t u iht ihu =>
    exact congrArg₂ (op.apply ops) (iht fun l hl => h l (List.mem_append_left _ hl))
      (ihu fun l hl => h l (List.mem_append_right _ hl))
  | ofTerm t ih => exact ih h
  | signed minus t ih =>
    unfold value
    rw [ih h]
  | expressionOp op e t ihe iht =>
    exact congrArg₂ (op.apply ops) (ihe fun l hl => h l (List.mem_append_left _ hl))
      (iht fun l hl => h l (List.mem_append_right _ hl))

end Tree

/-! ## The tokens of a tree -/

theorem TermSign.token_mem (op : TermSign) : op.token ∈ afterNumber := by
  cases op <;> decide

theorem ExpressionSign.token_mem (op : ExpressionSign) : op.token ∈ afterNumber := by
  cases op <;> decide

theorem simple_of_afterNumber : ∀ t ∈ afterNumber, Simple (.tok t) := by
  unfold Simple
  decide

theorem simple_leftBanana : Simple (.tok .leftBanana) := by
  unfold Simple
  decide

theorem simple_rightBanana : Simple (.tok .rightBanana) := simple_of_afterNumber _ (by decide)

theorem apart_afterNumber (a : Lexeme Literal) {t : Token} (ht : t ∈ afterNumber) :
    Apart a (.tok t) := fun _ _ => ⟨t, ht, rfl⟩

/-- Tokens between a token and a right parenthesis. -/
theorem isChain_paren {ts : List (Lexeme Literal)} (h : ts.IsChain Apart) (t : Token) :
    (Lexeme.tok t :: (ts ++ [.tok .rightBanana])).IsChain Apart := by
  refine List.IsChain.cons (h.append (List.isChain_singleton _) fun a _ b hb => ?_) nofun
  rw [← Option.some.inj hb]
  exact apart_afterNumber a (by decide)

/-- Tokens on both sides of an operator. -/
theorem isChain_op {ts us : List (Lexeme Literal)} (hts : ts.IsChain Apart)
    (hus : us.IsChain Apart) {t : Token} (ht : t ∈ afterNumber) :
    (ts ++ .tok t :: us).IsChain Apart := by
  refine hts.append (hus.cons nofun) fun a _ b hb => ?_
  rw [← Option.some.inj hb]
  exact apart_afterNumber a ht

namespace Tree

variable {k : Level}

theorem simple_of_mem (t : Tree k) : ∀ l ∈ t.lexemes, Simple l := by
  induction t with
  | literal l => exact List.forall_mem_singleton.mpr trivial
  | call func hfunc e ih =>
    exact List.forall_mem_cons.mpr ⟨function_plain hfunc, List.forall_mem_cons.mpr
      ⟨simple_leftBanana, List.forall_mem_append.mpr
        ⟨ih, List.forall_mem_singleton.mpr simple_rightBanana⟩⟩⟩
  | paren e ih =>
    exact List.forall_mem_cons.mpr ⟨simple_leftBanana, List.forall_mem_append.mpr
      ⟨ih, List.forall_mem_singleton.mpr simple_rightBanana⟩⟩
  | ofFactor t ih => exact ih
  | termOp op t u iht ihu =>
    exact List.forall_mem_append.mpr
      ⟨iht, List.forall_mem_cons.mpr ⟨simple_of_afterNumber _ op.token_mem, ihu⟩⟩
  | ofTerm t ih => exact ih
  | signed minus t ih =>
    refine List.forall_mem_cons.mpr ⟨?_, ih⟩
    cases minus
    · exact simple_of_afterNumber _ (by decide)
    · exact simple_of_afterNumber _ (by decide)
  | expressionOp op e t ihe iht =>
    exact List.forall_mem_append.mpr
      ⟨ihe, List.forall_mem_cons.mpr ⟨simple_of_afterNumber _ op.token_mem, iht⟩⟩

theorem isChain_apart (t : Tree k) : t.lexemes.IsChain Apart := by
  induction t with
  | literal l => exact List.isChain_singleton _
  | call func hfunc e ih => exact (isChain_paren ih .leftBanana).cons nofun
  | paren e ih => exact isChain_paren ih .leftBanana
  | ofFactor t ih => exact ih
  | termOp op t u iht ihu => exact isChain_op iht ihu op.token_mem
  | ofTerm t ih => exact ih
  | signed minus t ih => exact ih.cons nofun
  | expressionOp op e t ihe iht => exact isChain_op ihe iht op.token_mem

end Tree

/-! ## The derivation of a tree -/

/-- The tokens of a tree derive to its value, and those of a term or an expression go on with the
    loop of its level. -/
def Tree.Derived (ops : Ops R) (f : Literal → R) : {k : Level} → Tree k → Prop
  | .factor, t =>
      Derives ops isFunctionToken .factor (t.lexemes.map (Lexeme.map f)) (t.value ops f)
  | .term, t => ∀ us y, Derives ops isFunctionToken (.termRest (t.value ops f)) us y →
      Derives ops isFunctionToken .term (t.lexemes.map (Lexeme.map f) ++ us) y
  | .expression, t => ∀ us y, Derives ops isFunctionToken (.expressionRest (t.value ops f)) us y →
      Derives ops isFunctionToken .expression (t.lexemes.map (Lexeme.map f) ++ us) y

theorem TermSign.termOp (ops : Ops R) (op : TermSign) : TermOp ops op.token (op.apply ops) := by
  cases op
  · exact .mul
  · exact .div
  · exact .and

theorem ExpressionSign.expressionOp (ops : Ops R) (op : ExpressionSign) :
    ExpressionOp ops op.token (op.apply ops) := by
  cases op
  · exact .add
  · exact .sub
  · exact .or

theorem Tree.derived (ops : Ops R) (f : Literal → R) {k : Level} (t : Tree k) :
    t.Derived ops f := by
  induction t with
  | literal l => exact .number _
  | call func hfunc e ih =>
    have harg := ih [] _ (.expressionDone _)
    rw [List.append_nil] at harg
    have hlex : (Tree.call func hfunc e).lexemes.map (Lexeme.map f) =
        .tok func :: .tok .leftBanana :: (e.lexemes.map (Lexeme.map f) ++ [.tok .rightBanana]) := by
      simp [Tree.lexemes, Lexeme.map]
    show Derives ops isFunctionToken .factor ((Tree.call func hfunc e).lexemes.map _) _
    rw [hlex]
    exact .call hfunc harg
  | paren e ih =>
    have harg := ih [] _ (.expressionDone _)
    rw [List.append_nil] at harg
    have hlex : (Tree.paren e).lexemes.map (Lexeme.map f) = .tok .leftBanana ::
        (e.lexemes.map (Lexeme.map f) ++ [.tok .rightBanana]) := by
      simp [Tree.lexemes, Lexeme.map]
    show Derives ops isFunctionToken .factor ((Tree.paren e).lexemes.map _) _
    rw [hlex]
    exact .paren harg
  | ofFactor t ih => exact fun us y hrest => .term ih hrest
  | termOp op t u iht ihu =>
    intro us y hrest
    have hterm := iht _ y (.termNext (op.termOp ops) ihu hrest)
    simpa [Tree.lexemes, Lexeme.map] using hterm
  | ofTerm t ih =>
    intro us y hrest
    have hterm := ih [] _ (.termDone _)
    rw [List.append_nil] at hterm
    exact .expression hterm hrest
  | signed minus t ih =>
    intro us y hrest
    have hterm := ih [] _ (.termDone _)
    rw [List.append_nil] at hterm
    cases minus with
    | true => exact .minus hterm hrest
    | false => exact .plus hterm hrest
  | expressionOp op e t ihe iht =>
    intro us y hrest
    have hterm := iht [] _ (.termDone _)
    rw [List.append_nil] at hterm
    have hexpression := ihe _ y (.expressionNext (op.expressionOp ops) hterm hrest)
    simpa [Tree.lexemes, Lexeme.map] using hexpression

/-! ## The evaluation of a text -/

theorem tok_of_mem_map {f : Literal → R} {ls : List (Lexeme Literal)} {t : Token}
    (h : .tok t ∈ ls.map (Lexeme.map f)) : .tok t ∈ ls := by
  obtain ⟨l, hl, heq⟩ := List.mem_map.mp h
  cases l with
  | tok u =>
    obtain rfl : u = t := Lexeme.tok.inj heq
    exact hl
  | number x => exact nomatch heq
  | name s => exact nomatch heq

theorem name_not_mem_map {f : Literal → R} {ls : List (Lexeme Literal)}
    (hsimple : ∀ l ∈ ls, Simple l) (name : List UInt8) : .name name ∉ ls.map (Lexeme.map f) := by
  intro h
  obtain ⟨l, hl, heq⟩ := List.mem_map.mp h
  cases l with
  | tok t => exact nomatch heq
  | number x => exact nomatch heq
  | name s => exact hsimple _ hl

section

variable {ops : Ops R} {f : Literal → R}
variable (hnum : ∀ l rest, Ends rest → ops.num (l.text ++ rest) = f l) (x : Rendering)

include hnum

theorem Rendering.lexemes_eq :
    lexemes ops.num x.text = x.tree.lexemes.map (Lexeme.map f) ++ trail x.text :=
  lexemes_renders hnum x.renders x.tree.simple_of_mem x.tree.isChain_apart

/-- Without white space at the end the value of the tree is returned. -/
theorem evaluate_of_noTrail (h : NoTrail x.text) :
    evaluate ops x.text = some (x.tree.value ops f, none) := by
  have hlex : lexemes ops.num x.text = x.tree.lexemes.map (Lexeme.map f) := by
    rw [x.lexemes_eq hnum, trail_of_noTrail h, List.append_nil]
  have hderives := x.tree.derived ops f [] _ (.expressionDone _)
  rw [List.append_nil] at hderives
  have hnames : NamesOk (lexemes ops.num x.text) := fun name hname =>
    absurd (hlex ▸ hname) (name_not_mem_map x.tree.simple_of_mem name)
  obtain ⟨result, last_error, heval, hiff, hvalue⟩ := evaluate_derives ops x.text h hnames
  rw [hlex] at hiff hvalue
  rw [heval, hvalue _ hderives, hiff.mpr ⟨_, hderives⟩]

/-- With white space at the end an error is left. -/
theorem evaluate_of_trail (h : ¬ NoTrail x.text) (y : R) :
    evaluate ops x.text ≠ some (y, none) := by
  intro heval
  have hlex : lexemes ops.num x.text = x.tree.lexemes.map (Lexeme.map f) ++ [.tok .error] := by
    rw [x.lexemes_eq hnum, trail_of_not_noTrail h]
  have hderives := x.tree.derived ops f [] _ (.expressionDone _)
  rw [List.append_nil] at hderives
  obtain ⟨⟨z, s⟩, hparse, heq⟩ := Option.bind_eq_some_iff.mp heval
  obtain ⟨rfl, hnone⟩ := Prod.mk.inj (Option.some.inj heq)
  have hrest : (start ops x.text).rest ops = lexemes ops.num x.text := rest_getSym _
  have hok : (start ops x.text).Ok ops := by
    rw [hlex] at hrest
    refine ⟨fun hvar => ?_, fun name hname => ?_⟩
    · rw [hrest] at hvar
      rcases List.mem_append.mp hvar with hmem | hmem
      · exact absurd rfl (x.tree.simple_of_mem _ (tok_of_mem_map hmem)).2.2.2
      · exact nomatch Lexeme.tok.inj (List.mem_singleton.mp hmem)
    · rw [hrest] at hname
      rcases List.mem_append.mp hname with hmem | hmem
      · exact absurd hmem (name_not_mem_map x.tree.simple_of_mem name)
      · exact nomatch List.mem_singleton.mp hmem
  have hfollows : Follows ops .expression [.tok .error] := by
    intro t op ht
    obtain rfl := Lexeme.tok.inj (Option.some.inj ht)
    exact ⟨nofun, nofun⟩
  obtain ⟨-, -, hs, -⟩ := parse_complete hderives _ hfollows _ hok (hrest.trans hlex) _ _ _ hparse
  -- the token that is left is the error, where the end is expected
  exact nomatch (sym_of_rest hs).symm.trans (sym_of_expect hnone).1

end

/-! ## The buffer of a number -/

/-- `char number[16]` behind `strncpy`. -/
def numberBuf (p : List UInt8) : List UInt8 := p.take 16 ++ List.replicate (16 - p.length) 0

/-- The numbers as `sscanf` reads them from the buffer; `stack` stands behind it, and `ofRat` rounds
    to a number. -/
def withNumbers (ops : Ops R) (ofRat : ℚ → R) (stack : List UInt8) : Ops R :=
  { ops with num := fun p => ofRat (strtod (numberBuf p ++ stack)) }

/-- What is read of a literal. -/
def readLiteral (stack : List UInt8) (l : Literal) : ℚ :=
  if l.text.length ≤ 15 then l.value else strtod (l.text.take 16 ++ stack)

/-- Behind a literal that leaves room in the buffer stands what follows it, or a NUL. -/
theorem ends_buffer {rest : List UInt8} (h : Ends rest) {n : Nat} (hn : 0 < n)
    (stack : List UInt8) : Ends (rest.take n ++ (List.replicate (n - rest.length) 0 ++ stack)) := by
  obtain ⟨m, rfl⟩ := Nat.exists_eq_succ_of_ne_zero (Nat.ne_of_gt hn)
  cases rest with
  | nil =>
    intro c hc
    obtain rfl : 0 = c := Option.some.inj hc
    decide
  | cons c rest =>
    intro d hd
    exact h d hd

theorem num_withNumbers (ops : Ops R) (ofRat : ℚ → R) (stack : List UInt8) (l : Literal)
    (rest : List UInt8) (h : Ends rest) :
    (withNumbers ops ofRat stack).num (l.text ++ rest) = ofRat (readLiteral stack l) := by
  refine congrArg ofRat ?_
  unfold readLiteral numberBuf
  split
  · next hshort =>
    have hends := ends_buffer h (n := 16 - l.text.length) (by omega) stack
    rw [List.take_append, List.take_of_length_le (by omega), List.length_append, ← Nat.sub_sub,
      List.append_assoc, List.append_assoc, l.strtod_text hends]
  · next hlong =>
    have hpad : 16 - (l.text ++ rest).length = 0 := by
      rw [List.length_append]
      omega
    rw [hpad, List.replicate_zero, List.append_nil, List.take_append_of_le_length (by omega)]

theorem Tree.value_withNumbers (ops : Ops R) (ofRat : ℚ → R) (stack : List UInt8)
    (f : Literal → R) {k : Level} (t : Tree k) :
    t.value (withNumbers ops ofRat stack) f = t.value ops f := by
  induction t with
  | literal l => rfl
  | call func _ e ih => exact congrArg (ops.func func) ih
  | paren e ih => exact ih
  | ofFactor t ih => exact ih
  | termOp op t u iht ihu =>
    have hop : op.apply (withNumbers ops ofRat stack) = op.apply ops := by cases op <;> rfl
    exact congrArg₂ _ iht ihu |>.trans (congrFun₂ hop _ _)
  | ofTerm t ih => exact ih
  | signed minus t ih =>
    cases minus
    · exact ih
    · exact congrArg (ops.mul ops.minusOne) ih
  | expressionOp op e t ihe iht =>
    have hop : op.apply (withNumbers ops ofRat stack) = op.apply ops := by cases op <;> rfl
    exact congrArg₂ _ ihe iht |>.trans (congrFun₂ hop _ _)

/-! ## Which texts are evaluated -/

/-- The value of the tree is returned without an error, whatever the arithmetic is and whatever
    stands behind the buffer. -/
def Rendering.Evaluates (x : Rendering) : Prop :=
  ∀ (R : Type) (ops : Ops R) (ofRat : ℚ → R) (stack : List UInt8),
    evaluate (withNumbers ops ofRat stack) x.text =
      some (x.tree.value ops (fun l => ofRat l.value), none)

/-- Every literal leaves room for a NUL in the buffer. -/
def Rendering.Fits (x : Rendering) : Prop := ∀ l ∈ x.tree.literals, l.text.length ≤ 15

/-- An arithmetic that keeps the literals. -/
def listOps : Ops (List ℚ) where
  add := (· ++ ·)
  sub := (· ++ ·)
  mul := (· ++ ·)
  div := (· ++ ·)
  and := (· ++ ·)
  or := (· ++ ·)
  minusOne := []
  func _ x := x
  num _ := []
  getvar _ := []
  nan := []
  unset := []
  behind := []

theorem Tree.value_listOps (g : Literal → ℚ) {k : Level} (t : Tree k) :
    t.value listOps (fun l => [g l]) = t.literals.map g := by
  induction t with
  | literal l => rfl
  | call func _ e ih => exact ih
  | paren e ih => exact ih
  | ofFactor t ih => exact ih
  | termOp op t u iht ihu =>
    have hop : op.apply listOps = (· ++ ·) := by cases op <;> rfl
    unfold value literals
    rw [hop, iht, ihu, List.map_append]
  | ofTerm t ih => exact ih
  | signed minus t ih =>
    cases minus
    · exact ih
    · exact ih
  | expressionOp op e t ihe iht =>
    have hop : op.apply listOps = (· ++ ·) := by cases op <;> rfl
    unfold value literals
    rw [hop, ihe, iht, List.map_append]

/-- The front of a literal is one. -/
theorem Literal.exists_take (l : Literal) {n : Nat} (hn : 0 < n) :
    ∃ w : Literal, w.text = l.text.take n := by
  by_cases hle : n ≤ l.whole.length
  · refine ⟨⟨l.whole.take n, none, ?_, fun c hc => l.whole_digits c (List.mem_of_mem_take hc),
      nofun⟩, ?_⟩
    · rw [Ne, List.take_eq_nil_iff]
      exact fun h => h.elim (Nat.ne_of_gt hn) l.whole_ne
    · unfold text
      rw [List.take_append_of_le_length hle, List.append_nil]
  · have hlt : l.whole.length < n := Nat.lt_of_not_le hle
    cases hfrac : l.frac with
    | none =>
      refine ⟨l, (List.take_of_length_le ?_).symm⟩
      unfold text
      rw [hfrac, List.append_nil]
      exact Nat.le_of_lt hlt
    | some es =>
      refine ⟨⟨l.whole, some (es.take (n - l.whole.length - 1)), l.whole_ne, l.whole_digits, ?_⟩,
        ?_⟩
      · intro fs hfs c hc
        obtain rfl := Option.some.inj hfs
        exact l.frac_digits es hfrac c (List.mem_of_mem_take hc)
      · obtain ⟨m, hm⟩ := Nat.exists_eq_succ_of_ne_zero (Nat.sub_ne_zero_of_lt hlt)
        unfold text
        rw [hfrac, List.take_append, List.take_of_length_le (Nat.le_of_lt hlt), hm]
        rfl

/-- A digit behind a literal changes the number. -/
theorem Literal.strtod_push_ne (l : Literal) : strtod l.text ≠ strtod (l.text ++ [49]) := by
  have hone : ofDigits [49] = 1 := rfl
  have hdigit : ∀ {ds : List UInt8}, (∀ c ∈ ds, isDigit c = true) →
      ∀ c ∈ ds ++ [49], isDigit c = true := fun h =>
    List.forall_mem_append.mpr ⟨h, List.forall_mem_singleton.mpr rfl⟩
  have hread := l.strtod_text ends_nil
  rw [List.append_nil] at hread
  rw [hread]
  cases hfrac : l.frac with
  | none =>
    let w : Literal := ⟨l.whole ++ [49], none, List.append_ne_nil_of_left_ne_nil l.whole_ne _,
      hdigit l.whole_digits, nofun⟩
    have htext : l.text ++ [49] = w.text ++ [] := by
      simp [w, text, hfrac]
    have hvalue : l.value = ofDigits l.whole := by
      simp [value, hfrac]
    have hvalue' : w.value = ofDigits l.whole * 10 + 1 := by
      simp [value, w, ofDigits_append, hone]
    rw [htext, w.strtod_text ends_nil, hvalue, hvalue']
    intro heq
    have hnat : ofDigits l.whole = ofDigits l.whole * 10 + 1 := by exact_mod_cast heq
    omega
  | some es =>
    let w : Literal := ⟨l.whole, some (es ++ [49]), l.whole_ne, l.whole_digits, fun fs hfs => by
      obtain rfl := Option.some.inj hfs
      exact hdigit (l.frac_digits es hfrac)⟩
    have htext : l.text ++ [49] = w.text ++ [] := by
      simp [w, text, hfrac]
    have hvalue : l.value = ofDigits l.whole + (ofDigits es : ℚ) / 10 ^ es.length := by
      simp [value, hfrac]
    have hvalue' : w.value =
        ofDigits l.whole + (ofDigits es * 10 + 1 : ℚ) / 10 ^ (es.length + 1) := by
      simp [value, w, ofDigits_append, hone]
    rw [htext, w.strtod_text ends_nil, hvalue, hvalue']
    intro heq
    have hpow : (10 : ℚ) ^ es.length ≠ 0 := pow_ne_zero _ (by norm_num)
    have hdiv : (ofDigits es : ℚ) / 10 ^ es.length =
        (ofDigits es * 10 + 1) / 10 ^ (es.length + 1) := add_left_cancel heq
    rw [pow_succ] at hdiv
    field_simp at hdiv
    have hnat : ofDigits es * 10 = ofDigits es * 10 + 1 := by exact_mod_cast hdiv
    omega

/-- A text is evaluated to the value of its tree if it has no white space at the end and no literal
    fills the buffer. -/
theorem evaluates_iff (x : Rendering) : x.Evaluates ↔ NoTrail x.text ∧ x.Fits := by
  constructor
  · intro heval
    have htrail : NoTrail x.text := by
      by_contra htrail
      exact evaluate_of_trail (num_withNumbers listOps (fun q => [q]) []) x htrail _
        (heval _ listOps (fun q => [q]) [])
    have hread : ∀ stack, ∀ l ∈ x.tree.literals, readLiteral stack l = l.value := fun stack => by
      have hvalue := (evaluate_of_noTrail (num_withNumbers listOps (fun q => [q]) stack) x
        htrail).symm.trans (heval _ listOps (fun q => [q]) stack)
      have heq := (Prod.mk.inj (Option.some.inj hvalue)).1
      rw [Tree.value_withNumbers, Tree.value_listOps, Tree.value_listOps] at heq
      exact List.map_inj_left.mp heq
    refine ⟨htrail, fun l hl => ?_⟩
    by_contra hlong
    obtain ⟨w, hw⟩ := l.exists_take (show 0 < 16 by decide)
    have hfull : ∀ stack, strtod (w.text ++ stack) = l.value := fun stack => by
      have := hread stack l hl
      unfold readLiteral at this
      rwa [if_neg hlong, ← hw] at this
    have hempty := hfull []
    rw [List.append_nil] at hempty
    exact w.strtod_push_ne (hempty.trans (hfull [49]).symm)
  · rintro ⟨htrail, hfits⟩ R ops ofRat stack
    rw [evaluate_of_noTrail (num_withNumbers ops ofRat stack) x htrail, Tree.value_withNumbers]
    refine congrArg (fun v => some (v, none)) (x.tree.value_congr ops fun l hl => ?_)
    exact congrArg ofRat (if_pos (hfits l hl))

/-- The literal `1`. -/
def one : Literal :=
  ⟨[49], none, List.cons_ne_nil _ _, List.forall_mem_singleton.mpr rfl, nofun⟩

/-- `1` with white space behind it. -/
def oneSpace : Rendering where
  tree := .ofTerm (.ofFactor (.literal one))
  text := [49, 32]
  renders :=
    have hfront : Spaces [] := nofun
    .piece hfront (.number one) (.done (List.forall_mem_singleton.mpr rfl))

theorem oneSpace_error : ¬ ∀ x : Rendering, x.Evaluates := by
  intro h
  refine evaluate_of_trail (num_withNumbers listOps (fun q => [q]) []) oneSpace ?_ _
    (h oneSpace _ listOps (fun q => [q]) [])
  unfold NoTrail
  decide

end K64Gateway.Expression
