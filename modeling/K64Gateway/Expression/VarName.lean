import K64Gateway.Expression.Grammar
import K64Gateway.VarManage.ExtDataLink
import K64Gateway.VarManage.Registers

/-
  The variable of `FVAR(n)`. When `_factor` switches to the names, `_expect` has read the first
  token behind the parenthesis, as it would in an expression; the name is what is left of `n`
  behind that token, and where nothing is left the default name of `evaluate` is taken.

  Proved: for every variable list and name, when the value of the variable is returned
  (`fvar_iff`), and that each name with a token in front fails on some list
  (`exists_not_evaluates`).
-/

namespace K64Gateway.Expression

open CString VarManage LinkedHeap

variable {R : Type} [VarReal R]

/-! ## The variables -/

/-- What `bVarManage_GetExtValue` reads of a variable; one of an unknown type leaves the 0 of
    `_getvar`. -/
def curValue (data : ExtData R) : R :=
  (getExtValue data.xIo.btVarType data.xIo.xValue).getD (VarReal.ofInt 0)

/-- The first variable of a name. -/
def firstNamed (vars : List (ExtData R)) (name : CStr) : Option (ExtData R) :=
  vars.find? fun data => name = data.nameStr

/-- `_getvar`, with `_exp_defstr`. -/
def getvar (vars : List (ExtData R)) (defstr name : Option CStr) : R :=
  match name <|> defstr with
  | some s => ((firstNamed vars s).map curValue).getD (VarReal.ofInt 0)
  | none => VarReal.ofInt 0

theorem getvar_some (vars : List (ExtData R)) (defstr : Option CStr) (name : CStr) :
    getvar vars defstr (some name) =
      ((firstNamed vars name).map curValue).getD (VarReal.ofInt 0) := rfl

/-- The evaluator with the variables of a list. -/
def withVars (ops : Ops R) (vars : List (ExtData R)) (defstr : Option CStr) : Ops R :=
  { ops with getvar := getvar vars defstr }

omit [VarReal R] in
/-- The walk of `__GetExtDataWithName` along the links comes to the first variable of the name. -/
theorem getExtDataWithName_first {s : ExtDataList R} {vars : List (ExtData R)}
    (h : Represents s vars) (name : CStr) :
    ∃ fuel r, getExtDataWithName s.heap name fuel s.pList = some r ∧
      (r.bind s.heap).map Cell.data = firstNamed vars name := by
  obtain ⟨L, ⟨last, hseg⟩, -, rfl⟩ := h
  obtain ⟨r, hr⟩ := getExtDataWithName_total name hseg
  refine ⟨_, r, hr, ?_⟩
  rcases getExtDataWithName_eq hseg hr with ⟨rfl, hall⟩ | ⟨x, c, A, B, rfl, rfl, hc, hname, hall⟩
  · symm
    refine List.find?_eq_none.mpr fun data hdata => ?_
    rw [decide_eq_true_eq]
    exact fun heq => hall data hdata heq.symm
  · have hfront : (payloads s.heap A).find? (fun data => decide (name = data.nameStr)) = none := by
      refine List.find?_eq_none.mpr fun data hdata => ?_
      rw [decide_eq_true_eq]
      exact fun heq => hall data hdata heq.symm
    rw [Option.bind_some, hc, Option.map_some, firstNamed, payloads_append, payloads_cons hc,
      List.find?_append, hfront, Option.none_or,
      List.find?_cons_of_pos (by rw [decide_eq_true_eq]; exact hname.symm)]

/-! ## The names -/

/-- A name of a variable: 1 to 8 characters, without the right parenthesis and white space. -/
structure FvarName (name : CStr) : Prop where
  pos : 0 < name.length
  length : name.length ≤ 8
  chars : ∀ c ∈ name, c ≠ 0 ∧ c ≠ 41 ∧ isSpace c = false

/-- The text `FVAR(name)`. -/
def fvar (name : CStr) : List UInt8 := 70 :: 86 :: 65 :: 82 :: 40 :: (name ++ [41])

/-- An operator, a digit or a keyword stands in front. -/
def BeginsToken (name : CStr) : Prop :=
  (∃ c ∈ name.head?, c ∈ charToTokens.map Prod.fst ∨ isDigit c = true) ∨
    ∃ k ∈ keywordToTokens, hasKeyword name k.1 = true

/-- What is left of a name behind its first token. -/
def nameLeft (name : CStr) : CStr := (tokenAt name).2

/-- The name that is looked up, if there is one. -/
def nameRead (name : CStr) : Option CStr :=
  if nameLeft name = [] then none else some (nameLeft name)

theorem tokenAt_of_not_begins {name : CStr} (h : ¬ BeginsToken name) :
    tokenAt name = (.error, name) := by
  obtain ⟨hhead, hkey⟩ := not_or.mp h
  have hchar : charToTokens.find? (fun k => name.head? == some k.1) = none := by
    refine List.find?_eq_none.mpr fun k hk heq => hhead ⟨k.1, ?_, .inl (List.mem_map_of_mem hk)⟩
    exact beq_iff_eq.mp heq
  have hdigit : ¬ name.head?.any isDigit = true := fun hany => by
    obtain ⟨c, hc, hdigit⟩ := Option.any_eq_true _ _ |>.mp hany
    exact hhead ⟨c, hc, .inr hdigit⟩
  have hkeys : keywordToTokens.find? (fun k => hasKeyword name k.1) = none :=
    List.find?_eq_none.mpr fun k hk heq => hkey ⟨k, hk, heq⟩
  unfold tokenAt
  rw [hchar]
  dsimp only
  rw [if_neg hdigit, hkeys]

theorem nameLeft_length_lt {name : CStr} (h : BeginsToken name) :
    (nameLeft name).length < name.length := by
  have hchars : ∀ k ∈ charToTokens, k.2 ≠ .error := by decide
  have hkeys : ∀ k ∈ keywordToTokens, k.2 ≠ .error := by decide
  refine tokenAt_length_lt ?_
  unfold tokenAt
  split
  · next k hk => exact hchars k (List.mem_of_find?_eq_some hk)
  · next hchar =>
    split
    · exact Token.noConfusion
    · next hdigit =>
      split
      · next k hk => exact hkeys k (List.mem_of_find?_eq_some hk)
      · next hkey =>
        exfalso
        rcases h with ⟨c, hc, hmem | hd⟩ | ⟨k, hk, heq⟩
        · obtain ⟨k, hk, rfl⟩ := List.mem_map.mp hmem
          exact List.find?_eq_none.mp hchar k hk (beq_iff_eq.mpr hc)
        · exact hdigit (Option.any_eq_true _ _ |>.mpr ⟨c, hc, hd⟩)
        · exact List.find?_eq_none.mp hkey k hk heq

/-- A keyword in front of a name is not longer. -/
theorem length_le_of_hasKeyword {name keyword : List UInt8} (h : hasKeyword name keyword = true) :
    keyword.length ≤ name.length := by
  have hlen := congrArg List.length (beq_iff_eq.mp h)
  rw [List.length_map, List.length_map, List.length_take] at hlen
  omega

theorem hasKeyword_right (name : CStr) {k : List UInt8 × Token} (hk : k ∈ keywordToTokens) :
    hasKeyword (name ++ [41]) k.1 = hasKeyword name k.1 := by
  have hparen : ∀ k ∈ keywordToTokens, (41 : UInt8) ∉ k.1.map toLower := by decide
  rw [Bool.eq_iff_iff]
  refine ⟨hasKeyword_append [] (hparen k hk), fun h => ?_⟩
  have hle := length_le_of_hasKeyword h
  unfold hasKeyword at h ⊢
  rwa [List.take_append_of_le_length hle]

/-- The parenthesis behind a name is not read with its first token. -/
theorem tokenAt_right {name : CStr} (h : FvarName name) :
    tokenAt (name ++ [41]) = ((tokenAt name).1, nameLeft name ++ [41]) := by
  obtain ⟨c, rest, rfl⟩ := List.exists_cons_of_length_pos h.pos
  have hkeyword : keywordToTokens.find? (fun k => hasKeyword (c :: rest ++ [41]) k.1) =
      keywordToTokens.find? (fun k => hasKeyword (c :: rest) k.1) :=
    List.find?_congr fun k hk => hasKeyword_right _ hk
  have hhead : (c :: rest ++ [41]).head? = (c :: rest).head? := rfl
  unfold nameLeft tokenAt
  rw [hkeyword, hhead]
  cases charToTokens.find? (fun k => (c :: rest).head? == some k.1) with
  | some k => rfl
  | none =>
    dsimp only
    by_cases hdigit : (c :: rest).head?.any isDigit = true
    · rw [if_pos hdigit, if_pos hdigit, List.dropWhile_append]
      split
      · next hnil =>
        rw [List.isEmpty_iff.mp hnil]
        rfl
      · rfl
    · rw [if_neg hdigit, if_neg hdigit]
      cases hkey : keywordToTokens.find? (fun k => hasKeyword (c :: rest) k.1) with
      | some k =>
        have htrue := List.find?_some hkey
        have hle := length_le_of_hasKeyword htrue
        dsimp only
        rw [List.drop_append_of_le_length hle]
      | none => rfl

theorem nameLeft_suffix (name : CStr) : nameLeft name <:+ name := tokenAt_suffix name

/-- No white space is passed in front of what is left of a name. -/
theorem FvarName.skipSpace {name s : CStr} (h : FvarName name) (hs : s <:+ name) :
    Expression.skipSpace (s ++ [41]) = s ++ [41] := by
  cases s with
  | nil => rfl
  | cons c s =>
    have hspace := (h.chars c (hs.mem List.mem_cons_self)).2.2
    unfold Expression.skipSpace
    rw [List.cons_append, List.dropWhile_cons_of_neg (by rw [hspace]; exact Bool.false_ne_true)]

/-! ## The evaluation -/

omit [VarReal R] in
theorem varFactor_name (ops : Ops R) {name : CStr} (h : FvarName name) (s : Parser R)
    (hp : s.p = 40 :: (name ++ [41])) :
    (varFactor ops s).1 = ops.getvar (nameRead name) ∧ (varFactor ops s).2.sym = .eof ∧
      (varFactor ops s).2.lastError = s.lastError := by
  have hleft : nextToken s.p = (.leftBanana, name ++ [41]) := by
    rw [hp]
    rfl
  have hne : name ++ [41] ≠ [] := List.append_ne_nil_of_right_ne_nil _ (List.cons_ne_nil _ _)
  have htoken : nextToken (name ++ [41]) = ((tokenAt name).1, nameLeft name ++ [41]) := by
    unfold nextToken
    rw [if_neg hne, h.skipSpace (List.suffix_refl _), tokenAt_right h]
  have hparen : (41 : UInt8) ∉ nameLeft name := fun hmem =>
    (h.chars 41 ((nameLeft_suffix name).mem hmem)).2.1 rfl
  have hlen : (nameLeft name).length < 32 := by
    have := (nameLeft_suffix name).length_le
    have := h.length
    omega
  have hright : nextRight ops.behind (nameLeft name ++ [41]) =
      (.rightBanana, some (nameLeft name), []) :=
    nextRight_name hparen (h.skipSpace (nameLeft_suffix name))
  -- the first token of the name is read with the left parenthesis
  have hsym : (getSym ops s).sym = .leftBanana := by
    unfold getSym
    rw [hleft]
  unfold varFactor
  rw [expect_of_eq hsym]
  have herror : (getSym ops (getSym ops s)).lastError = s.lastError := rfl
  have hsym₂ : (getSym ops (getSym ops s)).sym = (nextToken (name ++ [41])).1 := by
    show (nextToken (nextToken s.p).2).1 = _
    rw [hleft]
  have hp₂ : (getSym ops (getSym ops s)).p = nameLeft name ++ [41] := by
    show (nextToken (nextToken s.p).2).2 = _
    rw [hleft, htoken]
  generalize getSym ops (getSym ops s) = s₂ at herror hsym₂ hp₂ ⊢
  have hnot : s₂.sym ≠ .rightBanana := fun heq => by
    obtain ⟨r, hr⟩ := skipSpace_of_right (hsym₂ ▸ heq)
    rw [h.skipSpace (List.suffix_refl _)] at hr
    obtain ⟨c, rest, hname⟩ := List.exists_cons_of_length_pos h.pos
    rw [hname] at hr
    exact (h.chars c (hname ▸ List.mem_cons_self)).2.1 (List.cons.inj hr).1
  have hright₂ : getRight ops s₂ =
      { s₂ with p := [], str := some (nameLeft name), sym := .rightBanana } := by
    unfold getRight
    rw [hp₂, hright]
  have hstr : getStr (getRight ops s₂) = nameRead name := by
    rw [hright₂]
    unfold getStr nameRead
    rw [Option.filter_some]
    by_cases hnil : nameLeft name = []
    · rw [hnil]
      rfl
    · have hpos := List.length_pos_of_ne_nil hnil
      rw [if_neg hnil, if_pos (by simp only [Bool.and_eq_true, decide_eq_true_eq]; omega)]
  have hsym₃ : (getRight ops s₂).sym = .rightBanana := by
    rw [hright₂]
  dsimp only
  rw [if_pos hnot, if_pos hsym₃, hstr, expect_of_eq hsym₃, hright₂]
  exact ⟨rfl, rfl, herror⟩

omit [VarReal R] in
/-- The value of what is left of the name. -/
theorem evaluate_fvar (ops : Ops R) {name : CStr} (h : FvarName name) :
    evaluate ops (fvar name) = some (ops.getvar (nameRead name), none) := by
  have hfirst : nextToken (fvar name) = (.funcVar, 40 :: (name ++ [41])) := rfl
  have hsym : (start ops (fvar name)).sym = .funcVar := by
    show (nextToken (fvar name)).1 = _
    rw [hfirst]
  have hp : (start ops (fvar name)).p = 40 :: (name ++ [41]) := by
    show (nextToken (fvar name)).2 = _
    rw [hfirst]
  have herror : (start ops (fvar name)).lastError = none := rfl
  unfold evaluate
  generalize start ops (fvar name) = s at hsym hp herror ⊢
  obtain ⟨hvalue, heof, herror'⟩ := varFactor_name ops h s hp
  have hfactor : ∀ depth,
      parse ops (depth + 1) .factor s = some (varFactor ops s) := fun depth => by
    unfold parse factor
    rw [hsym]
    rfl
  rw [← hvalue]
  generalize varFactor ops s = r at heof herror' hfactor ⊢
  obtain ⟨x, s'⟩ := r
  have hterm : ∀ depth, parse ops (depth + 2) .term s = some (x, s') := fun depth => by
    unfold parse term
    rw [hfactor]
    show parse ops (depth + 1) (.termRest x) s' = _
    unfold parse termRest
    rw [show s'.sym = .eof from heof]
    rfl
  have hexpression : ∀ depth, parse ops (depth + 3) .expression s = some (x, s') := fun depth => by
    unfold parse expression
    rw [hsym]
    simp only [reduceCtorEq, or_self, if_false]
    rw [hterm]
    show parse ops (depth + 2) (.expressionRest x) s' = _
    unfold parse expressionRest
    rw [show s'.sym = .eof from heof]
    rfl
  rw [show 8 * (fvar name).length + 8 = 8 * (fvar name).length + 5 + 3 from rfl, hexpression]
  show some (x, (expect ops .eof s').lastError) = some (x, none)
  rw [expect_of_eq heof]
  show some (x, s'.lastError) = some (x, none)
  rw [show s'.lastError = none from herror'.trans herror]

/-! ## Names with a token in front -/

/-- A variable list, the default name, and a name that is configured with its first variable. -/
structure FvarCase (R : Type) where
  vars : List (ExtData R)
  defstr : Option CStr
  name : CStr
  data : ExtData R
  isName : FvarName name
  first : firstNamed vars name = some data

/-- The value of the variable is returned, without an error. -/
def FvarCase.Evaluates (x : FvarCase R) (ops : Ops R) : Prop :=
  evaluate (withVars ops x.vars x.defstr) (fvar x.name) = some (curValue x.data, none)

/-- What is left of the name, or the default name where nothing is left, finds a variable with the
    same value. -/
def FvarCase.SameValue (x : FvarCase R) : Prop :=
  getvar x.vars x.defstr (nameRead x.name) = curValue x.data

/-- A name without a token in front is read; of another one the token is lost, and only a variable
    with the same value may be found instead. -/
theorem fvar_iff (x : FvarCase R) (ops : Ops R) :
    x.Evaluates ops ↔ ¬ BeginsToken x.name ∨ x.SameValue := by
  have hiff : x.Evaluates ops ↔ x.SameValue := by
    unfold FvarCase.Evaluates FvarCase.SameValue
    rw [evaluate_fvar _ x.isName, Option.some.injEq, Prod.mk.injEq]
    exact and_iff_left rfl
  rw [hiff]
  refine ⟨.inr, fun h => h.elim (fun hname => ?_) id⟩
  have hread : nameRead x.name = some x.name := by
    unfold nameRead nameLeft
    rw [tokenAt_of_not_begins hname, if_neg (List.ne_nil_of_length_pos x.isName.pos)]
  unfold FvarCase.SameValue
  rw [hread, getvar_some, x.first]
  rfl

/-- A variable of one byte. -/
def byteVar (name : CStr) (value : UInt8) : ExtData R :=
  let zero := ExtData.zero (VarReal.ofInt 0 : R)
  { zero with
    szName := name
    xIo := { zero.xIo with btVarType := eVarUint8, xValue := fun _ => value } }

theorem firstNamed_byteVar {name : CStr} (h : FvarName name) (value : UInt8) (s : CStr) :
    firstNamed [(byteVar name value : ExtData R)] s =
      if s = name then some (byteVar name value) else none := by
  have hstr : (byteVar name value : ExtData R).nameStr = name :=
    if_pos (Nat.lt_succ_of_le h.length)
  unfold firstNamed
  rw [List.find?_singleton, hstr]
  simp only [decide_eq_true_eq]

/-- The list of one variable, without a default name. -/
def FvarCase.single {name : CStr} (h : FvarName name) (value : UInt8) : FvarCase R where
  vars := [byteVar name value]
  defstr := none
  name := name
  data := byteVar name value
  isName := h
  first := (firstNamed_byteVar h value name).trans (if_pos rfl)

/-- Every name with a token in front is read wrong on some list. -/
theorem exists_not_evaluates (hne : (VarReal.ofInt 1 : R) ≠ VarReal.ofInt 0) (ops : Ops R)
    {name : CStr} (h : FvarName name) (hbegins : BeginsToken name) :
    ∃ x : FvarCase R, x.name = name ∧ ¬ x.Evaluates ops := by
  refine ⟨.single h 1, rfl, fun heval => ?_⟩
  rcases (fvar_iff _ ops).mp heval with hnot | hsame
  · exact hnot hbegins
  · refine hne (Eq.symm ?_)
    have hlt := nameLeft_length_lt hbegins
    have hleft : nameLeft name ≠ name := fun heq => by rw [heq] at hlt; exact lt_irrefl _ hlt
    calc VarReal.ofInt 0 = getvar [(byteVar name 1 : ExtData R)] none (nameRead name) := ?_
      _ = curValue (byteVar name 1 : ExtData R) := hsame
    unfold nameRead
    split
    · rfl
    · rw [getvar_some, firstNamed_byteVar h, if_neg hleft]
      rfl

theorem orpName : FvarName (CString.chars "ORP".toList) := ⟨by decide, by decide, by decide +kernel⟩

/-- `FVAR(ORP)` looks for a variable `P`. -/
theorem orp_not_evaluated :
    ¬ ∀ (x : FvarCase Int) (ops : Ops Int), x.Evaluates ops := by
  intro h
  let ops : Ops Int :=
    { add := (· + ·), sub := (· - ·), mul := (· * ·), div := (· / ·), and := fun _ _ => 0
      or := fun _ _ => 0, minusOne := -1, func := fun _ x => x, num := fun _ => 0
      getvar := fun _ => 0, nan := 0, unset := 0, behind := [] }
  have hread : nameRead (CString.chars "ORP".toList) = some [80] := by decide +kernel
  have hzero : getvar [(byteVar (CString.chars "ORP".toList) 7 : ExtData Int)] none (some [80]) =
      0 := by
    rw [getvar_some, firstNamed_byteVar orpName, if_neg (by decide +kernel)]
    rfl
  have heval : evaluate (withVars ops [(byteVar (CString.chars "ORP".toList) 7 : ExtData Int)] none)
      (fvar (CString.chars "ORP".toList)) = some (7, none) := h (.single orpName 7) ops
  rw [evaluate_fvar _ orpName, hread] at heval
  exact absurd (hzero.symm.trans (Prod.mk.inj (Option.some.inj heval)).1) (by decide)

end K64Gateway.Expression
