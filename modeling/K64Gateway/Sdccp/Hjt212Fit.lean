import Mathlib
import K64Gateway.Lib.Cursor
import K64Gateway.Sdccp.Hjt212
import K64Gateway.Sdccp.Hjt212Report
import K64Gateway.Sdccp.Hjt212Sound

/-
  `Hjt212Encode` as the writes into `sBuf` that it makes, through `index` and at fixed places. A
  write outside the buffer has no result.

  Proved: with room for the frame the writes make the frame of `hjt212Encode` and return its
  length (`hjt212EncodeInto_eq`), and the frames of the upload rounds, whose data are kept below
  960 bytes, always have room in 1024 bytes (`reportFrame_fits`, `reportData_fits`).
-/

namespace K64Gateway.Hjt212

open CString Cursor VarManage

/-! ## The writes of `Hjt212Encode` -/

/-- `for (i=0;i<n;i++) { if ('\0' == s[i]) break; sBuf[index++]=s[i]; }` -/
def copyLoop : Nat → List UInt8 → Out UInt8 → Option (Out UInt8)
  | 0, _, o => some o
  | _ + 1, [], o => some o
  | n + 1, c :: s, o =>
      if c = 0 then some o
      else do
        let o ← o.put c
        copyLoop n s o

/-- `if (ST) { .. }`, and so for QN, CN, PW and MN. -/
def putField (tag : List UInt8) (n : Nat) (s : Option (List UInt8)) (o : Out UInt8) :
    Option (Out UInt8) :=
  match s with
  | none => some o
  | some s => do
      let o ← o.puts tag
      let o ← copyLoop n s o
      o.put semicolon

/-- `if (Flag) { .. }` -/
def putFlag (s : Option (List UInt8)) (o : Out UInt8) : Option (Out UInt8) :=
  match s with
  | none => some o
  | some s => do
      let o ← o.puts tagFlag
      let o ← o.put (s.headD 0)
      o.put semicolon

/-- `if (CP) { .. }`; the loop ends at `strlen(CP)`. -/
def putCP (s : Option (List UInt8)) (o : Out UInt8) : Option (Out UInt8) :=
  match s with
  | none => some o
  | some s => do
      let o ← o.puts tagCP
      let o ← copyLoop (cstr s).length s o
      o.puts (chars ['&', '&'])

/-- `for (i=0; i<4; i++) { sBuf[5-i]='0'+length%10; length/=10; }` -/
def pokeLen (length : Nat) (sBuf : List UInt8) : Option (List UInt8) := do
  let sBuf ← poke sBuf 5 (UInt8.ofNat (48 + length % 10))
  let sBuf ← poke sBuf 4 (UInt8.ofNat (48 + length / 10 % 10))
  let sBuf ← poke sBuf 3 (UInt8.ofNat (48 + length / 10 / 10 % 10))
  poke sBuf 2 (UInt8.ofNat (48 + length / 10 / 10 / 10 % 10))

/-- `buf[i] = buf[i]-32` if it is a small letter. -/
def pokeUpper (buf : List UInt8) (i : Nat) : Option (List UInt8) := do
  let c ← buf[i]?
  poke buf i (upper c)

/-- `Hex2Str(hex, &sBuf[index])`: `sprintf` ends the two digits with a NUL. -/
def hex2StrInto (hex : UInt8) (sBuf : List UInt8) (index : Nat) : Option (List UInt8) := do
  let sBuf ← poke sBuf index (hexDigit (hex / 16))
  let sBuf ← poke sBuf (index + 1) (hexDigit (hex % 16))
  let sBuf ← poke sBuf (index + 2) 0
  let sBuf ← pokeUpper sBuf index
  pokeUpper sBuf (index + 1)

/-- The fields of `Hjt212Encode`. -/
def putFields (x : Fields) (o : Out UInt8) : Option (Out UInt8) := do
  let o ← putField tagQN 17 x.QN o
  let o ← putField tagST 5 x.ST o
  let o ← putField tagCN 4 x.CN o
  let o ← putField tagPW 6 x.PW o
  let o ← putField tagMN 14 x.MN o
  let o ← putFlag x.Flag o
  putCP x.CP o

/-- The rest of `Hjt212Encode`, from `sBuf[0]='#'` on, with `index` behind the fields. -/
def closeFrame (o : Out UInt8) : Option (List UInt8 × Nat) := do
  let sBuf ← poke o.buf 0 35
  let sBuf ← poke sBuf 1 35
  let sBuf ← pokeLen (o.index - 6) sBuf
  let usCrc16 := hjt212GetCrc16 (sBuf.drop 6) (UInt32.ofNat (o.index - 6))
  let sBuf ← hex2StrInto (usCrc16 >>> 8).toUInt8 sBuf o.index
  let sBuf ← hex2StrInto usCrc16.toUInt8 sBuf (o.index + 2)
  let sBuf ← poke sBuf (o.index + 4) 0x0d
  let sBuf ← poke sBuf (o.index + 5) 0x0a
  some (sBuf, o.index + 6)

/-- `Hjt212Encode`: the buffer after it, and the length it returns. -/
def hjt212EncodeInto (x : Fields) (sBuf : List UInt8) : Option (List UInt8 × Nat) := do
  let o ← putFields x ⟨sBuf, 6⟩
  closeFrame o

/-! ## The fields are one run of writes -/

theorem copyLoop_eq (n : Nat) (s : List UInt8) (o : Out UInt8) :
    copyLoop n s o = o.puts ((cstr s).take n) := by
  induction n generalizing s o with
  | zero => rfl
  | succ n ih =>
    cases s with
    | nil => rfl
    | cons c s =>
      unfold copyLoop cstr
      by_cases hc : c = 0
      · rw [if_pos hc, List.takeWhile_cons_of_neg (by simp [hc])]
        rfl
      · rw [if_neg hc, List.takeWhile_cons_of_pos (by simp [hc]), List.take_succ_cons]
        simp only [Out.puts, ih]
        rfl

theorem putField_eq (tag : List UInt8) (n : Nat) (s : Option (List UInt8)) (o : Out UInt8) :
    putField tag n s o = o.puts (encodeField tag n s) := by
  cases s with
  | none => rfl
  | some s =>
    simp only [putField, encodeField, Out.puts_append, copyLoop_eq, Out.puts_singleton,
      Option.bind_eq_bind, Option.bind_assoc]

theorem putFlag_eq (s : Option (List UInt8)) (o : Out UInt8) :
    putFlag s o = o.puts (encodeFlag s) := by
  cases s with
  | none => rfl
  | some s =>
    simp only [putFlag, encodeFlag, Out.puts_append, Out.puts_singleton, Option.bind_eq_bind,
      Option.bind_assoc]

theorem putCP_eq (s : Option (List UInt8)) (o : Out UInt8) : putCP s o = o.puts (encodeCP s) := by
  cases s with
  | none => rfl
  | some s =>
    simp only [putCP, encodeCP, Out.puts_append, copyLoop_eq, List.take_length,
      Option.bind_eq_bind, Option.bind_assoc]

theorem putFields_eq (x : Fields) (o : Out UInt8) : putFields x o = o.puts (encodeData x) := by
  simp only [putFields, encodeData, putField_eq, putFlag_eq, putCP_eq, Out.puts_append,
    Option.bind_eq_bind, Option.bind_assoc]

/-! ## The head and the end -/

theorem pokeLen_eq (length : Nat) (a b c d e f : UInt8) (rest : List UInt8) :
    pokeLen length (a :: b :: c :: d :: e :: f :: rest) =
      some (a :: b :: (encodeLen length ++ rest)) := by
  simp only [pokeLen, poke_succ, poke_zero, Option.map_some, Option.bind_eq_bind, Option.bind_some,
    encodeLen, Nat.div_div_eq_div_mul, List.map_cons, List.map_nil, List.cons_append,
    List.nil_append]

theorem pokeUpper_zero (a : UInt8) (buf : List UInt8) :
    pokeUpper (a :: buf) 0 = some (upper a :: buf) :=
  poke_zero a buf (upper a)

theorem pokeUpper_one (a b : UInt8) (buf : List UInt8) :
    pokeUpper (a :: b :: buf) 1 = some (a :: upper b :: buf) := by
  show poke (a :: b :: buf) (0 + 1) (upper b) = _
  rw [poke_succ, poke_zero]
  rfl

theorem pokeUpper_append (front buf : List UInt8) (i : Nat) :
    pokeUpper (front ++ buf) (front.length + i) = (pokeUpper buf i).map (front ++ ·) := by
  unfold pokeUpper
  rw [List.getElem?_append_right (by omega), Nat.add_sub_cancel_left]
  cases buf[i]? with
  | none => rfl
  | some c => exact poke_append front buf i (upper c)

theorem hex2StrInto_append (hex : UInt8) (front : List UInt8) (a b c : UInt8) (rest : List UInt8) :
    hex2StrInto hex (front ++ a :: b :: c :: rest) front.length =
      some (front ++ (hex2Str hex ++ 0 :: rest)) := by
  have hpoke := fun buf : List UInt8 => poke_append front buf 0
  have hupper := fun buf : List UInt8 => pokeUpper_append front buf 0
  simp only [Nat.add_zero] at hpoke hupper
  unfold hex2StrInto
  simp only [hpoke, hupper, poke_append, pokeUpper_append, poke_zero, poke_succ, pokeUpper_zero,
    pokeUpper_one, Option.map_some, Option.bind_eq_bind, Option.bind_some]
  rfl

/-- The crc sees nothing behind the data. -/
theorem hjt212GetCrc16_front (data rest : List UInt8) :
    hjt212GetCrc16 (data ++ rest) (UInt32.ofNat data.length) =
      hjt212GetCrc16 data (UInt32.ofNat data.length) := by
  have hle : (UInt32.ofNat data.length).toNat ≤ data.length := by
    rw [UInt32.toNat_ofNat']
    exact Nat.mod_le _ _
  exact hjt212GetCrc16_append hle rest

theorem exists_six {l : List UInt8} (h : 6 ≤ l.length) :
    ∃ a b c d e f rest, l = a :: b :: c :: d :: e :: f :: rest := by
  match l, h with
  | a :: b :: c :: d :: e :: f :: rest, _ => exact ⟨a, b, c, d, e, f, rest, rfl⟩

/-- The head, the check and the end mark around `data`, which is followed by six bytes of room. -/
theorem closeFrame_eq (data : List UInt8) (a b c d e f t0 t1 t2 t3 t4 t5 : UInt8)
    (tail : List UInt8) :
    closeFrame ⟨a :: b :: c :: d :: e :: f :: (data ++ t0 :: t1 :: t2 :: t3 :: t4 :: t5 :: tail),
        6 + data.length⟩ =
      some (frameOf data ++ tail, (frameOf data).length) := by
  generalize hcrc : hjt212GetCrc16 data (UInt32.ofNat data.length) = crc
  generalize hhigh : hex2Str (crc >>> 8).toUInt8 = high
  generalize hlow : hex2Str crc.toUInt8 = low
  have hlen4 : (encodeLen data.length).length = 4 := rfl
  have hlenh : high.length = 2 := by rw [← hhigh]; rfl
  have hlenl : low.length = 2 := by rw [← hlow]; rfl
  -- the buffer up to the check
  obtain ⟨front, hfront⟩ : ∃ front, front = hjt212Pre ++ encodeLen data.length ++ data := ⟨_, rfl⟩
  have hindex : 6 + data.length = front.length := by
    rw [hfront, List.length_append, List.length_append, hlen4]
    rfl
  have hframe : frameOf data = front ++ high ++ low ++ hjt212Eom := by
    rw [frameOf, hcrc, usCheck, hhigh, hlow, ← hfront]
    simp only [List.append_assoc]
  have hbuf : (35 : UInt8) :: 35 :: (encodeLen data.length ++
      (data ++ t0 :: t1 :: t2 :: t3 :: t4 :: t5 :: tail)) =
        front ++ t0 :: t1 :: t2 :: t3 :: t4 :: t5 :: tail := by
    rw [hfront, List.append_assoc, List.append_assoc]
    rfl
  have hdrop : (front ++ t0 :: t1 :: t2 :: t3 :: t4 :: t5 :: tail).drop 6 =
      data ++ t0 :: t1 :: t2 :: t3 :: t4 :: t5 :: tail := by
    rw [← hbuf]
    rfl
  unfold closeFrame
  dsimp only
  rw [poke_zero, Option.bind_eq_bind, Option.bind_some, poke_succ, poke_zero]
  simp only [Option.map_some, Option.bind_some, pokeLen_eq, Nat.add_sub_cancel_left]
  rw [hbuf, hdrop, hjt212GetCrc16_front, hcrc, hindex, hex2StrInto_append, Option.bind_some, hhigh,
    ← List.append_assoc, show front.length + 2 = (front ++ high).length by
      rw [List.length_append, hlenh], hex2StrInto_append, Option.bind_some, hlow,
    ← List.append_assoc, show front.length + 4 = (front ++ high ++ low).length + 0 by
      rw [List.length_append, List.length_append, hlenh, hlenl], poke_append, poke_zero,
    Option.map_some, Option.bind_some, show front.length + 5 = (front ++ high ++ low).length + 1 by
      rw [List.length_append, List.length_append, hlenh, hlenl], poke_append, poke_succ, poke_zero,
    Option.map_some, Option.map_some, Option.bind_some, hframe]
  congr 2
  · simp only [List.append_assoc]
    rfl
  · rw [List.length_append, List.length_append, List.length_append, hlenh, hlenl]
    rfl

/-- A buffer that has room for the frame holds it afterwards, with what was behind it. -/
theorem hjt212EncodeInto_eq (x : Fields) (sBuf : List UInt8)
    (h : (encodeData x).length + 12 ≤ sBuf.length) :
    hjt212EncodeInto x sBuf =
      some (hjt212Encode x ++ sBuf.drop (hjt212Encode x).length, (hjt212Encode x).length) := by
  obtain ⟨a, b, c, d, e, f, rest, rfl⟩ := exists_six (l := sBuf) (by omega)
  simp only [List.length_cons] at h
  obtain ⟨t0, t1, t2, t3, t4, t5, tail, htail⟩ := exists_six (l := rest.drop (encodeData x).length)
    (by rw [List.length_drop]; omega)
  have hputs := Out.puts_eq [a, b, c, d, e, f] rest (encodeData x) (by omega)
  rw [htail] at hputs
  have hdrop : (a :: b :: c :: d :: e :: f :: rest).drop (hjt212Encode x).length = tail := by
    have hadd : (hjt212Encode x).length = 6 + ((encodeData x).length + 6) := by
      rw [length_hjt212Encode]
      omega
    rw [hadd, ← List.drop_drop, ← List.drop_drop]
    show ((rest.drop (encodeData x).length).drop 6) = tail
    rw [htail]
    rfl
  unfold hjt212EncodeInto
  rw [putFields_eq, hdrop]
  show Option.bind _ _ = _
  refine (congrArg (·.bind closeFrame) hputs).trans ?_
  exact closeFrame_eq (encodeData x) a b c d e f t0 t1 t2 t3 t4 t5 tail

/-! ## The frames of the reports -/

/-- `_CC_BUF_SZ` of the report functions. -/
def ccBufSz : Nat := 1024

/-- `rt_calloc(1, _CC_BUF_SZ)`, as a report finds it: the last text is still in it. -/
structure CcBuf where
  bytes : List UInt8
  length_bytes : bytes.length = ccBufSz

/-- `if(sCPlen + strlen(buf) < 960) { strcat(sCp, buf); strcat(sCp,";"); } else break;` for one
    text after the other. -/
def appendItems (sCp : List UInt8) : List (List UInt8) → List UInt8
  | [] => sCp
  | buf :: items =>
      if sCp.length + (cstr buf).length < 960 then
        appendItems (sCp ++ cstr buf ++ [semicolon]) items
      else sCp

/-- The arguments of `Hjt212Encode(NULL, ST, CN, PW, MN, NULL, sCp, buf)`. -/
def reportFields (ST CN PW MN sCp : List UInt8) : Fields where
  QN := none
  ST := some ST
  CN := some CN
  PW := some PW
  MN := some MN
  Flag := none
  CP := some sCp

theorem length_appendItems (items : List (List UInt8)) {sCp : List UInt8} (h : sCp.length ≤ 960) :
    (appendItems sCp items).length ≤ 960 := by
  induction items generalizing sCp with
  | nil => exact h
  | cons buf items ih =>
    unfold appendItems
    split
    · next hlt =>
      refine ih ?_
      rw [List.length_append, List.length_append, List.length_singleton]
      omega
    · exact h

theorem length_encodeField_le (tag : List UInt8) (n : Nat) (s : List UInt8) :
    (encodeField tag n (some s)).length ≤ tag.length + n + 1 := by
  unfold encodeField
  rw [List.length_append, List.length_append, List.length_take, List.length_singleton]
  omega

/-- Four fields with their limits make 45 bytes, the brackets of CP seven. -/
theorem length_reportData_le (ST CN PW MN sCp : List UInt8) :
    (encodeData (reportFields ST CN PW MN sCp)).length ≤ 52 + sCp.length := by
  have hST := length_encodeField_le tagST 5 ST
  have hCN := length_encodeField_le tagCN 4 CN
  have hPW := length_encodeField_le tagPW 6 PW
  have hMN := length_encodeField_le tagMN 14 MN
  have hCP : (encodeCP (some sCp)).length ≤ 7 + sCp.length := by
    have := length_cstr_le sCp
    have h5 : tagCP.length = 5 := rfl
    have h2 : (chars ['&', '&']).length = 2 := rfl
    unfold encodeCP
    rw [List.length_append, List.length_append]
    omega
  have h3 : tagST.length = 3 ∧ tagCN.length = 3 ∧ tagPW.length = 3 ∧ tagMN.length = 3 :=
    ⟨rfl, rfl, rfl, rfl⟩
  unfold encodeData reportFields
  simp only [List.length_append]
  have hQN : (encodeField tagQN 17 none).length = 0 := rfl
  have hFlag : (encodeFlag none).length = 0 := rfl
  omega

/-- The four digits are the length as a number. -/
theorem digits_encodeLen {n : Nat} (h : n ≤ 9999) : digits 0 (encodeLen n) = n := by
  have hdigit : ∀ (m d : Nat) (s : List UInt8), d < 10 →
      digits m (UInt8.ofNat (48 + d) :: s) = digits (10 * m + d) s := by
    intro m d s hd
    have hval : (UInt8.ofNat (48 + d)).toNat = 48 + d := by
      rw [UInt8.toNat_ofNat']
      exact Nat.mod_eq_of_lt (by omega)
    rw [digits, if_pos, hval, Nat.add_sub_cancel_left]
    rw [UInt8.le_iff_toNat_le, UInt8.le_iff_toNat_le, hval]
    exact ⟨Nat.le_add_right _ _, by show 48 + d ≤ 57; omega⟩
  simp only [encodeLen, List.map_cons, List.map_nil]
  rw [hdigit _ _ _ (by omega), hdigit _ _ _ (by omega), hdigit _ _ _ (by omega),
    hdigit _ _ _ (by omega), digits]
  omega

/-- What `Hjt212Encode` leaves in `sBuf`: the frame, whose length it returns, and behind it what
    was there before. -/
structure WritesFrame (x : Fields) (sBuf : CcBuf) : Prop where
  writes : hjt212EncodeInto x sBuf.bytes =
    some (hjt212Encode x ++ sBuf.bytes.drop (hjt212Encode x).length, (hjt212Encode x).length)
  fits : (hjt212Encode x).length ≤ ccBufSz
  layout : ∃ btLen btCheck, hjt212Encode x =
      hjt212Pre ++ btLen ++ encodeData x ++ btCheck ++ hjt212Eom ∧
    btLen.length = 4 ∧ btCheck.length = 4 ∧ digits 0 btLen = (encodeData x).length

theorem writesFrame_report (ST CN PW MN : List UInt8) {sCp : List UInt8} (h : sCp.length ≤ 960)
    (sBuf : CcBuf) : WritesFrame (reportFields ST CN PW MN sCp.dropLast) sBuf := by
  have hdata := length_reportData_le ST CN PW MN sCp.dropLast
  have hlen := length_hjt212Encode (reportFields ST CN PW MN sCp.dropLast)
  have hbuf := sBuf.length_bytes
  rw [List.length_dropLast] at hdata
  unfold ccBufSz at hbuf
  refine ⟨hjt212EncodeInto_eq _ _ (by omega), by unfold ccBufSz; omega, _, _, rfl, rfl, rfl, ?_⟩
  exact digits_encodeLen (by omega)

theorem reportFrame_fits (items : List (List UInt8)) (ST CN PW MN : List UInt8) (sBuf : CcBuf) :
    WritesFrame (reportFields ST CN PW MN (appendItems [] items).dropLast) sBuf := by
  have hstart : ([] : List UInt8).length ≤ 960 := Nat.zero_le 960
  exact writesFrame_report ST CN PW MN (length_appendItems items hstart) sBuf

/-! ## The reports -/

section Reports

variable {R : Type} [VarReal R] [NumberText R] {cfg : Hjt212Cfg} {index : UInt8} {clock : Clock}

/-- The loop of a report keeps its data at 960 bytes. -/
theorem reportLoop_length {kind : Kind} {fuel : Nat} {node : Option Nat} {b b' : Batch R}
    (hb : reportLoop cfg index clock kind fuel node b = some b') (h : b.sCp.length ≤ 960) :
    b'.sCp.length ≤ 960 := by
  induction fuel generalizing node b with
  | zero => exact absurd hb (by simp [reportLoop])
  | succ fuel ih =>
    rw [reportLoop] at hb
    split at hb
    · obtain rfl := Option.some.inj hb
      exact h
    · obtain ⟨v, -, hb⟩ := Option.bind_eq_some_iff.mp hb
      split at hb
      · split at hb
        · obtain ⟨mynid, -, hb⟩ := Option.bind_eq_some_iff.mp hb
          split at hb
          · obtain ⟨buf, -, hb⟩ := Option.bind_eq_some_iff.mp hb
            split at hb
            · next hlt =>
              refine ih hb ?_
              show (b.sCp ++ buf ++ [semicolon]).length ≤ 960
              rw [List.length_append, List.length_append, List.length_singleton]
              omega
            · obtain rfl := Option.some.inj hb
              exact h
          · exact ih hb h
        · obtain rfl := Option.some.inj hb
          exact h
      · exact ih hb h

/-- Every frame that a report sends fits its buffer. -/
theorem reportData_fits {kind : Kind} {vars : List (ExtData R)} {node : Option Nat} {r : Report R}
    (hr : reportData cfg index clock kind vars node = some r) {frame : List UInt8}
    (hsent : r.sent = some frame) (sBuf : CcBuf) :
    ∃ x, frame = hjt212Encode x ∧ WritesFrame x sBuf := by
  obtain ⟨b, hb, hr⟩ := Option.bind_eq_some_iff.mp hr
  obtain rfl := Option.some.inj hr
  dsimp only at hsent
  split at hsent
  · obtain rfl := Option.some.inj hsent
    exact ⟨_, rfl, writesFrame_report _ _ _ _ (reportLoop_length hb (Nat.zero_le 960)) sBuf⟩
  · exact absurd hsent (by simp)

end Reports

end K64Gateway.Hjt212
