import K64Gateway.Backup.ZigbeeCfg

/-
  The work configuration of the GPRS module, `board/cfg/gprs_cfg.c`: its registration and its
  heartbeat packet are exported as hexadecimal texts, and read back from such texts.

  Proved: the packets come back from their export, the export of 1 to 31 bytes stays in its buffer,
  and a text that is neither blank nor too long nor hexadecimal changes nothing
  (`packets_importExport`).
-/

namespace K64Gateway.Backup

open CString Cjson
open VarManage (hexDigitX hex02X)

variable {R : Type} [CNumber R]

/-! ## The configuration -/

/-- A length with its `rt_uint8_t [32]`. -/
structure Packet where
  len : UInt8
  buf : Fin 32 → UInt8
deriving DecidableEq

/-- The byte at an index; what is read behind the array is 0. -/
def Packet.byte (p : Packet) (i : Nat) : UInt8 := if h : i < 32 then p.buf ⟨i, h⟩ else 0

/-- `gprs_work_cfg_t`, where the two packets are `btRegLen` with `btRegBuf`, and `btHeartLen` with
    `btHeartBuf`. -/
structure GprsWorkCfg where
  eWMode : UInt8
  eOMode : UInt8
  btDebugLvl : UInt8
  szSIMNo : Fin 12 → UInt8
  ulInterval : UInt32
  reg : Packet
  heart : Packet
  ulRetry : UInt32
deriving DecidableEq

def gprsWmShutdown : UInt8 := 3

/-! ## The export -/

/-- The string in `buf`, and the indices that were written. The memory goes on on both sides. -/
structure TextBuf where
  text : List UInt8
  writes : List Int

/-- `buf[0] = '\0'` -/
def TextBuf.empty : TextBuf := ⟨[], [0]⟩

/-- `strcat(buf, tmp)`, with the zero behind `tmp` -/
def TextBuf.strcat (b : TextBuf) (tmp : List UInt8) : TextBuf where
  text := b.text ++ tmp
  writes := b.writes ++ (List.range (tmp.length + 1)).map fun k => ((b.text.length + k : Nat) : Int)

/-- `buf[strlen(buf) - 1] = '\0'` -/
def TextBuf.chop (b : TextBuf) : TextBuf where
  text := b.text.dropLast
  writes := b.writes ++ [(b.text.length : Int) - 1]

/-- The loop of `jsonGPRSWorkCfg` for a packet, with `"%02X "` for each byte. -/
def packetText (p : Packet) : TextBuf :=
  ((List.range p.len.toNat).foldl (fun (b : TextBuf) i => b.strcat (hex02X (p.byte i) ++ [32]))
    TextBuf.empty).chop

/-- The keys of the packets. -/
def keyReg : List UInt8 := chars ['r', 'e', 'g']
def keyHrt : List UInt8 := chars ['h', 'r', 't']

/-- `jsonGPRSWorkCfg` -/
def jsonGPRSWorkCfg (g : GprsWorkCfg) : Item R :=
  .object [(chars ['w', 'm'], number g.eWMode.toNat), (chars ['o', 'm'], number g.eOMode.toNat),
    (chars ['d', 'l'], number g.btDebugLvl.toNat),
    (chars ['s', 'i', 'm', 'n', 'o'], .string (cstr (List.ofFn g.szSIMNo))),
    (chars ['i', 't'], number g.ulInterval.toNat), (chars ['r', 't'], number g.ulRetry.toNat),
    (keyReg, .string (packetText g.reg).text), (keyHrt, .string (packetText g.heart).text)]

/-! ## The import -/

/-- `isxdigit` and `getxnum` -/
def isxdigit (c : UInt8) : Bool :=
  (48 ≤ c && c ≤ 57) || ((97 ≤ c && c ≤ 102) || (65 ≤ c && c ≤ 70))

def getxnum (c : UInt8) : UInt8 :=
  if 48 ≤ c ∧ c ≤ 57 then c - 48 else 10 + (if 97 ≤ c ∧ c ≤ 122 then c - 97 else c - 65)

/-- The string in `tmp_str` after `rt_strncpy(tmp_str, str, 127)`: a text that fills the array is
    not ended there, but by what is behind. -/
def tmpStr (behind str : List UInt8) : List UInt8 :=
  if str.length < 127 then str else str.take 127 ++ cstr behind

/-- `rt_trim` -/
def rtTrim (s : List UInt8) : List UInt8 := (s.dropWhile (· == 32)).rdropWhile (· == 32)

/-- `btRegBuf[i] = (getxnum(c) << 4) | getxnum(d)` -/
def setByte (buf : Fin 32 → UInt8) (i : Nat) (c d : UInt8) : Fin 32 → UInt8 := fun k =>
  if k.val = i then (getxnum c <<< 4) ||| getxnum d else buf k

/-- The loop over the text, from byte `i` of the packet on; false is an error. -/
def hexLoop (i : Nat) (buf : Fin 32 → UInt8) : List UInt8 → (Fin 32 → UInt8) × Bool
  | [] => (buf, true)
  | [_] => (buf, false)
  | [c, d] => if isxdigit c && isxdigit d then (setByte buf i c d, true) else (buf, false)
  | c :: d :: e :: tmp =>
    if e = 32 ∧ isxdigit c ∧ isxdigit d then hexLoop (i + 1) (setByte buf i c d) tmp
    else (buf, false)

/-- The part of `setGPRSWorkCfgWithJson` for a packet; false is an error. -/
def setPacket (behind : List UInt8) (str : Option (List UInt8)) (p : Packet) : Packet × Bool :=
  match str with
  | none => (p, true)
  | some str =>
    let tmp := rtTrim (tmpStr behind str)
    if tmp.length < 3 * 32 then
      if tmp = [] then ({ p with len := 0 }, true)
      else
        let loop := hexLoop 0 p.buf tmp
        (⟨UInt8.ofNat ((tmp.length + 1) / 3), loop.1⟩, loop.2)
    else (p, true)

/-- What is behind `tmp_str` for each of the texts, and whether `board_cfg_write` succeeds. -/
structure GprsEnv where
  behindReg : List UInt8
  behindHrt : List UInt8
  boardCfgWrite : GprsWorkCfg → Bool

/-- `prvSaveGPRSWorkCfgToFs` -/
def prvSaveGPRSWorkCfgToFs (env : GprsEnv) (g : GprsWorkCfg) : GprsWorkCfg :=
  if env.boardCfgWrite g then g else { g with eWMode := gprsWmShutdown }

/-- The fields that `setGPRSWorkCfgWithJson` sets before the packets. -/
def setGPRSWorkFields (pCfg : Item R) (g : GprsWorkCfg) : GprsWorkCfg :=
  { g with
    eWMode := setIn 0 3 (intAt pCfg (chars ['w', 'm'])) UInt8.ofNat g.eWMode
    eOMode := setIn 0 2 (intAt pCfg (chars ['o', 'm'])) UInt8.ofNat g.eOMode
    btDebugLvl := setIn 0 2 (intAt pCfg (chars ['d', 'l'])) UInt8.ofNat g.btDebugLvl
    ulInterval := setIf (intAt pCfg (chars ['i', 't'])) UInt32.ofNat g.ulInterval
    ulRetry := setIf (intAt pCfg (chars ['r', 't'])) UInt32.ofNat g.ulRetry
    szSIMNo :=
      match strAt pCfg (chars ['s', 'i', 'm', 'n', 'o']) with
      | some simno => if simno.length < 12 then fun k => simno.getD k.val 0 else g.szSIMNo
      | none => g.szSIMNo }

/-- `setGPRSWorkCfgWithJson` -/
def setGPRSWorkCfgWithJson (env : GprsEnv) (pCfg : Item R) (gprs_cfg_bak : GprsWorkCfg) :
    GprsWorkCfg :=
  let g := setGPRSWorkFields pCfg gprs_cfg_bak
  let reg := setPacket env.behindReg (strAt pCfg keyReg) g.reg
  let heart := setPacket env.behindHrt (strAt pCfg keyHrt) g.heart
  if reg.2 && heart.2 then
    let g := { g with
      reg := reg.1
      heart := heart.1 }
    if g ≠ gprs_cfg_bak then prvSaveGPRSWorkCfgToFs env g else g
  else gprs_cfg_bak

/-! ## Hexadecimal texts -/

/-- Bytes of two digits, with a space between any two. -/
inductive HexText : List UInt8 → Prop
  | byte {c d : UInt8} (hc : isxdigit c = true) (hd : isxdigit d = true) : HexText [c, d]
  | cons {c d : UInt8} {s : List UInt8} (hc : isxdigit c = true) (hd : isxdigit d = true)
      (h : HexText s) : HexText (c :: d :: 32 :: s)

theorem HexText.ne_nil {s : List UInt8} (h : HexText s) : s ≠ [] := by
  cases h <;> exact List.cons_ne_nil _ _

/-- The loop takes a text that does not end in a space if and only if it is hexadecimal. -/
theorem hexLoop_ok_iff {i : Nat} {buf : Fin 32 → UInt8} {s : List UInt8} (hne : s ≠ [])
    (hlast : s.getLast? ≠ some 32) : (hexLoop i buf s).2 = true ↔ HexText s := by
  fun_induction hexLoop i buf s with
  | case1 => exact absurd rfl hne
  | case2 => exact iff_of_false Bool.false_ne_true (fun h => nomatch h)
  | case3 i buf c d hdigits =>
    rw [Bool.and_eq_true] at hdigits
    exact iff_of_true rfl (.byte hdigits.1 hdigits.2)
  | case4 i buf c d hnot =>
    refine iff_of_false Bool.false_ne_true fun h => hnot ?_
    cases h with
    | byte hc hd => rw [hc, hd]; rfl
  | case5 i buf c d e tmp hdigits ih =>
    obtain ⟨rfl, hc, hd⟩ := hdigits
    cases tmp with
    | nil => exact absurd rfl hlast
    | cons f tmp =>
      refine (ih (List.cons_ne_nil f tmp) (by simpa using hlast)).trans ⟨.cons hc hd, fun h => ?_⟩
      cases h with
      | cons _ _ h => exact h
  | case6 i buf c d e tmp hnot =>
    refine iff_of_false Bool.false_ne_true fun h => hnot ?_
    cases h with
    | cons hc hd _ => exact ⟨rfl, hc, hd⟩

/-- A trimmed text does not end in a space. -/
theorem getLast?_rtTrim (s : List UInt8) : (rtTrim s).getLast? ≠ some 32 := by
  intro h
  unfold rtTrim at h
  have hne : (s.dropWhile (· == 32)).rdropWhile (· == 32) ≠ [] := by
    intro hnil
    rw [hnil] at h
    exact nomatch h
  rw [List.getLast?_eq_some_getLast hne, Option.some.injEq] at h
  have hnot := List.rdropWhile_last_not (· == 32) _ hne
  rw [h] at hnot
  exact hnot rfl

theorem isxdigit_ne_space {c : UInt8} (h : isxdigit c = true) : c ≠ 32 := by
  rintro rfl
  exact absurd h (by decide)

theorem HexText.getLast {s : List UInt8} (h : HexText s) (hne : s ≠ []) :
    isxdigit (s.getLast hne) = true := by
  induction h with
  | byte hc hd => exact hd
  | cons hc hd h ih =>
    rw [List.getLast_cons (by simp), List.getLast_cons (by simp), List.getLast_cons h.ne_nil]
    exact ih h.ne_nil

/-- There is nothing to trim from a hexadecimal text. -/
theorem HexText.rtTrim_eq {s : List UInt8} (h : HexText s) : rtTrim s = s := by
  have hhead : s.dropWhile (· == 32) = s := by
    cases h with
    | byte hc _ => exact List.dropWhile_cons_of_neg (by simpa using isxdigit_ne_space hc)
    | cons hc _ _ => exact List.dropWhile_cons_of_neg (by simpa using isxdigit_ne_space hc)
  unfold rtTrim
  rw [hhead]
  refine List.rdropWhile_eq_self_iff.mpr fun hne => ?_
  simpa using isxdigit_ne_space (h.getLast hne)

/-! ## The text of a packet -/

/-- `%02X` of the bytes, with a space between any two. -/
def hexJoin (bytes : List UInt8) : List UInt8 := [32].intercalate (bytes.map hex02X)

def Packet.bytes (p : Packet) : List UInt8 := (List.range p.len.toNat).map p.byte

theorem isxdigit_hexDigitX (b : UInt8) : isxdigit (hexDigitX (b / 16)) = true ∧
    isxdigit (hexDigitX (b % 16)) = true ∧
      (getxnum (hexDigitX (b / 16)) <<< 4) ||| getxnum (hexDigitX (b % 16)) = b := by
  have hall : ∀ n < 256, isxdigit (hexDigitX (UInt8.ofNat n / 16)) = true ∧
      isxdigit (hexDigitX (UInt8.ofNat n % 16)) = true ∧
        (getxnum (hexDigitX (UInt8.ofNat n / 16)) <<< 4) |||
          getxnum (hexDigitX (UInt8.ofNat n % 16)) = UInt8.ofNat n := by decide +kernel
  have h := hall b.toNat b.toNat_lt
  rwa [UInt8.ofNat_toNat] at h

theorem hexJoin_cons_cons (b c : UInt8) (bytes : List UInt8) :
    hexJoin (b :: c :: bytes) =
      hexDigitX (b / 16) :: hexDigitX (b % 16) :: 32 :: hexJoin (c :: bytes) := by
  unfold hexJoin
  rw [List.map_cons, List.map_cons, List.intercalate_cons_cons]
  rfl

theorem hexText_hexJoin {bytes : List UInt8} (hne : bytes ≠ []) : HexText (hexJoin bytes) := by
  induction bytes with
  | nil => exact absurd rfl hne
  | cons b bytes ih =>
    obtain ⟨hhigh, hlow, -⟩ := isxdigit_hexDigitX b
    cases bytes with
    | nil => exact .byte hhigh hlow
    | cons c bytes =>
      rw [hexJoin_cons_cons]
      exact .cons hhigh hlow (ih (List.cons_ne_nil c bytes))

theorem length_hexJoin (bytes : List UInt8) : (hexJoin bytes).length = 3 * bytes.length - 1 := by
  induction bytes with
  | nil => rfl
  | cons b bytes ih =>
    cases bytes with
    | nil => rfl
    | cons c bytes =>
      rw [hexJoin_cons_cons, List.length_cons, List.length_cons, List.length_cons, ih]
      simp only [List.length_cons]
      omega

/-- The loop takes the bytes of a packet from its text. -/
theorem hexLoop_hexJoin (bytes : List UInt8) (i : Nat) (buf : Fin 32 → UInt8) :
    (hexLoop i buf (hexJoin bytes)).2 = true ∧
      ∀ k : Fin 32, (hexLoop i buf (hexJoin bytes)).1 k =
        if i ≤ k.val ∧ k.val < i + bytes.length then bytes.getD (k.val - i) 0 else buf k := by
  induction bytes generalizing i buf with
  | nil => exact ⟨rfl, fun k => (if_neg (by simp)).symm⟩
  | cons b bytes ih =>
    obtain ⟨hhigh, hlow, hbyte⟩ := isxdigit_hexDigitX b
    have hset (k : Fin 32) : setByte buf i (hexDigitX (b / 16)) (hexDigitX (b % 16)) k =
        if k.val = i then b else buf k := by
      unfold setByte
      rw [hbyte]
    cases bytes with
    | nil =>
      have hloop : hexLoop i buf (hexJoin [b]) =
          (setByte buf i (hexDigitX (b / 16)) (hexDigitX (b % 16)), true) :=
        if_pos (by rw [hhigh, hlow]; rfl)
      rw [hloop]
      refine ⟨rfl, fun k => (hset k).trans ?_⟩
      by_cases hk : k.val = i
      · rw [if_pos hk, if_pos (by simp; omega), hk, Nat.sub_self]
        rfl
      · rw [if_neg hk, if_neg (by simp; omega)]
    | cons c bytes =>
      obtain ⟨hok, hbuf⟩ := ih (i + 1) (setByte buf i (hexDigitX (b / 16)) (hexDigitX (b % 16)))
      have hloop : hexLoop i buf (hexJoin (b :: c :: bytes)) =
          hexLoop (i + 1) (setByte buf i (hexDigitX (b / 16)) (hexDigitX (b % 16)))
            (hexJoin (c :: bytes)) := by
        rw [hexJoin_cons_cons]
        exact if_pos ⟨rfl, hhigh, hlow⟩
      rw [hloop]
      refine ⟨hok, fun k => (hbuf k).trans ?_⟩
      rw [hset]
      rcases Nat.lt_trichotomy k.val i with hk | hk | hk
      · rw [if_neg (by omega), if_neg (by omega), if_neg (by omega)]
      · rw [if_neg (by omega), if_pos hk, if_pos (by simp; omega), hk, Nat.sub_self]
        rfl
      · have hsucc : k.val - i = k.val - (i + 1) + 1 := by omega
        rw [if_neg (by omega : ¬ k.val = i), hsucc, List.getD_cons_succ]
        simp only [List.length_cons]
        by_cases hin : k.val < i + (bytes.length + 1 + 1)
        · rw [if_pos ⟨by omega, by omega⟩, if_pos ⟨by omega, hin⟩]
        · rw [if_neg (by omega), if_neg (by omega)]

/-- The digits of the first bytes, each with its space. -/
def spaced (bytes : List UInt8) : List UInt8 := bytes.flatMap fun b => hex02X b ++ [32]

theorem length_spaced (bytes : List UInt8) : (spaced bytes).length = 3 * bytes.length := by
  induction bytes with
  | nil => rfl
  | cons b bytes ih =>
    unfold spaced at ih ⊢
    rw [List.flatMap_cons, List.length_append, ih, List.length_cons, Nat.mul_succ, Nat.add_comm]
    rfl

theorem dropLast_spaced (bytes : List UInt8) : (spaced bytes).dropLast = hexJoin bytes := by
  induction bytes with
  | nil => rfl
  | cons b bytes ih =>
    cases bytes with
    | nil => rfl
    | cons c bytes =>
      have hne : spaced (c :: bytes) ≠ [] := by
        intro hnil
        have hlen := length_spaced (c :: bytes)
        rw [hnil] at hlen
        simp at hlen
      have hcons : spaced (b :: c :: bytes) =
          [hexDigitX (b / 16), hexDigitX (b % 16), 32] ++ spaced (c :: bytes) := rfl
      rw [hcons, List.dropLast_append_of_ne_nil hne, ih, hexJoin_cons_cons]
      rfl

/-- After `n` turns of the export's loop. -/
theorem packetLoop (p : Packet) (n : Nat) :
    ((List.range n).foldl (fun (b : TextBuf) i => b.strcat (hex02X (p.byte i) ++ [32]))
        TextBuf.empty).text = spaced ((List.range n).map p.byte) ∧
      ∀ w ∈ ((List.range n).foldl (fun (b : TextBuf) i => b.strcat (hex02X (p.byte i) ++ [32]))
        TextBuf.empty).writes, 0 ≤ w ∧ w ≤ 3 * n := by
  induction n with
  | zero =>
    refine ⟨rfl, fun w hw => ?_⟩
    rw [List.mem_singleton.mp hw]
    omega
  | succ n ih =>
    obtain ⟨htext, hwrites⟩ := ih
    rw [List.range_succ, List.foldl_append, List.foldl_cons, List.foldl_nil]
    generalize (List.range n).foldl (fun (b : TextBuf) i => b.strcat (hex02X (p.byte i) ++ [32]))
      TextBuf.empty = b at htext hwrites
    unfold TextBuf.strcat
    dsimp only
    refine ⟨?_, fun w hw => ?_⟩
    · unfold spaced at htext ⊢
      rw [htext, List.map_append, List.flatMap_append]
      rfl
    · have hlen : b.text.length = 3 * n := by
        rw [htext, length_spaced, List.length_map, List.length_range]
      rcases List.mem_append.mp hw with hw | hw
      · have hle := hwrites w hw
        omega
      · obtain ⟨k, hk, rfl⟩ := List.mem_map.mp hw
        have hlt : k < 4 := List.mem_range.mp hk
        omega

theorem packetText_text (p : Packet) : (packetText p).text = hexJoin p.bytes := by
  unfold packetText TextBuf.chop
  dsimp only
  rw [(packetLoop p p.len.toNat).1, dropLast_spaced]
  rfl

/-- The text of 1 to 31 bytes is written inside the buffer. -/
theorem packetText_writes {p : Packet} (hpos : 1 ≤ p.len.toNat) (hle : p.len.toNat ≤ 31) :
    ∀ w ∈ (packetText p).writes, 0 ≤ w ∧ w < 96 := by
  intro w hw
  obtain ⟨htext, hwrites⟩ := packetLoop p p.len.toNat
  unfold packetText TextBuf.chop at hw
  dsimp only at hw
  rcases List.mem_append.mp hw with hw | hw
  · have hbound := hwrites w hw
    omega
  · rw [List.mem_singleton.mp hw, htext, length_spaced, List.length_map, List.length_range]
    omega

theorem zero_not_mem_hexJoin (bytes : List UInt8) : (0 : UInt8) ∉ hexJoin bytes := by
  refine zero_not_mem_intercalate (by decide) fun s hs hmem => ?_
  obtain ⟨b, -, rfl⟩ := List.mem_map.mp hs
  obtain ⟨hhigh, hlow, -⟩ := isxdigit_hexDigitX b
  rcases List.mem_pair.mp hmem with h0 | h0
  · exact absurd (h0 ▸ hhigh) (by decide)
  · exact absurd (h0 ▸ hlow) (by decide)

/-! ## Importing the text of a packet -/

/-- Two packets have the same length and the same bytes up to it. -/
def Packet.Same (p q : Packet) : Prop :=
  p.len = q.len ∧ ∀ k : Fin 32, k.val < p.len.toNat → p.buf k = q.buf k

theorem bytes_getD (p : Packet) {k : Fin 32} (hk : k.val < p.len.toNat) :
    p.bytes.getD k.val 0 = p.buf k := by
  unfold Packet.bytes
  rw [List.getD_eq_getElem _ _ (by simpa using hk), List.getElem_map, List.getElem_range,
    Packet.byte, dif_pos k.isLt]

theorem setPacket_text (behind : List UInt8) {p : Packet} (hle : p.len.toNat ≤ 32) (q : Packet) :
    (setPacket behind (some (packetText p).text) q).2 = true ∧
      p.Same (setPacket behind (some (packetText p).text) q).1 := by
  have hlen : p.bytes.length = p.len.toNat := by
    unfold Packet.bytes
    rw [List.length_map, List.length_range]
  have hjoin := length_hexJoin p.bytes
  have htmp : rtTrim (tmpStr behind (hexJoin p.bytes)) = hexJoin p.bytes := by
    unfold tmpStr
    rw [if_pos (by omega)]
    by_cases hnil : p.bytes = []
    · rw [hnil]
      rfl
    · exact (hexText_hexJoin hnil).rtTrim_eq
  rw [packetText_text]
  unfold setPacket
  dsimp only
  rw [htmp, if_pos (by omega)]
  by_cases hzero : p.len.toNat = 0
  · have hnil : hexJoin p.bytes = [] := List.length_eq_zero_iff.mp (by omega)
    rw [if_pos hnil]
    exact ⟨rfl, UInt8.toNat_inj.mp hzero, fun k hk => absurd hk (by omega)⟩
  · have hne : hexJoin p.bytes ≠ [] := by
      intro hnil
      rw [hnil, List.length_nil] at hjoin
      omega
    obtain ⟨hok, hbuf⟩ := hexLoop_hexJoin p.bytes 0 q.buf
    rw [if_neg hne]
    refine ⟨hok, ?_, fun k hk => ?_⟩
    · have hcount : ((hexJoin p.bytes).length + 1) / 3 = p.len.toNat := by omega
      rw [hcount, UInt8.ofNat_toNat]
    · refine Eq.trans ?_ (hbuf k).symm
      rw [if_pos (by omega), Nat.sub_zero, bytes_getD p hk]

/-- The text that is read for a packet. -/
def seenText (behind str : List UInt8) : List UInt8 := rtTrim (tmpStr behind str)

/-- A text that is neither blank nor too long nor hexadecimal. -/
def Malformed (behind : List UInt8) (str : Option (List UInt8)) : Prop :=
  ∃ s, str = some s ∧ seenText behind s ≠ [] ∧ (seenText behind s).length < 96 ∧
    ¬ HexText (seenText behind s)

/-- Exactly the malformed texts are errors. -/
theorem setPacket_error_iff (behind : List UInt8) (str : Option (List UInt8)) (p : Packet) :
    (setPacket behind str p).2 = false ↔ Malformed behind str := by
  unfold setPacket
  cases str with
  | none => exact iff_of_false (fun h => nomatch h) fun ⟨s, h, _⟩ => nomatch h
  | some s =>
    dsimp only
    split
    · next hlt =>
      split
      · next hnil =>
        refine iff_of_false (fun h => nomatch h) fun ⟨s', hs, hne, _⟩ => hne ?_
        rw [← Option.some.inj hs]
        exact hnil
      · next hne =>
        rw [← Bool.not_eq_true, hexLoop_ok_iff hne (getLast?_rtTrim _)]
        refine ⟨fun hnot => ⟨s, rfl, hne, hlt, hnot⟩, fun ⟨s', hs, _, _, hnot⟩ => ?_⟩
        rwa [← Option.some.inj hs] at hnot
    · next hge =>
      refine iff_of_false (fun h => nomatch h) fun ⟨s', hs, _, hlt, _⟩ => hge ?_
      rw [← Option.some.inj hs] at hlt
      exact hlt

/-- What an import without an error makes of a packet whose text is blank or too long. -/
def PassedOver (behind : List UInt8) (str : Option (List UInt8)) (p q : Packet) : Prop :=
  ∀ s, str = some s → (seenText behind s = [] → q = { p with len := 0 }) ∧
    (96 ≤ (seenText behind s).length → q = p)

theorem passedOver_setPacket (behind : List UInt8) (str : Option (List UInt8)) (p : Packet) :
    PassedOver behind str p (setPacket behind str p).1 := by
  rintro s rfl
  unfold setPacket
  dsimp only
  refine ⟨fun hnil => ?_, fun hlong => ?_⟩
  · unfold seenText at hnil
    rw [hnil]
    rfl
  · unfold seenText at hlong
    rw [if_neg (by omega)]

/-- An import without an error has both packets. -/
theorem setGPRSWorkCfg_packets (env : GprsEnv) {pCfg : Item R} {g : GprsWorkCfg}
    (hreg : (setPacket env.behindReg (strAt pCfg keyReg) g.reg).2 = true)
    (hheart : (setPacket env.behindHrt (strAt pCfg keyHrt) g.heart).2 = true) :
    (setGPRSWorkCfgWithJson env pCfg g).reg =
        (setPacket env.behindReg (strAt pCfg keyReg) g.reg).1 ∧
      (setGPRSWorkCfgWithJson env pCfg g).heart =
        (setPacket env.behindHrt (strAt pCfg keyHrt) g.heart).1 := by
  have hsave (g' : GprsWorkCfg) : (prvSaveGPRSWorkCfgToFs env g').reg = g'.reg ∧
      (prvSaveGPRSWorkCfgToFs env g').heart = g'.heart := by
    unfold prvSaveGPRSWorkCfgToFs
    split <;> exact ⟨rfl, rfl⟩
  have hfields : (setGPRSWorkFields pCfg g).reg = g.reg ∧
      (setGPRSWorkFields pCfg g).heart = g.heart := ⟨rfl, rfl⟩
  unfold setGPRSWorkCfgWithJson
  dsimp only
  rw [hfields.1, hfields.2, hreg, hheart, Bool.and_true, if_pos rfl]
  split
  · exact hsave _
  · exact ⟨rfl, rfl⟩

theorem setGPRSWorkCfg_error (env : GprsEnv) {pCfg : Item R} {g : GprsWorkCfg}
    (h : Malformed env.behindReg (strAt pCfg keyReg) ∨
      Malformed env.behindHrt (strAt pCfg keyHrt)) :
    setGPRSWorkCfgWithJson env pCfg g = g := by
  unfold setGPRSWorkCfgWithJson
  dsimp only
  have hfalse : ((setPacket env.behindReg (strAt pCfg keyReg) (setGPRSWorkFields pCfg g).reg).2 &&
      (setPacket env.behindHrt (strAt pCfg keyHrt) (setGPRSWorkFields pCfg g).heart).2) = false := by
    rcases h with h | h
    · rw [(setPacket_error_iff _ _ _).mpr h, Bool.false_and]
    · rw [(setPacket_error_iff _ _ _).mpr h, Bool.and_false]
  rw [if_neg (by rw [hfalse]; exact Bool.false_ne_true)]

/-! ## Export and import -/

section Both

variable (R)

/-- The export of the packets stays in its buffer, and the import takes it back, but for malformed
    texts, which change nothing. -/
structure ImportsExports (env : GprsEnv) : Prop where
  inside : ∀ p : Packet, 1 ≤ p.len.toNat → p.len.toNat ≤ 31 →
    ∀ w ∈ (packetText p).writes, 0 ≤ w ∧ w < 96
  roundTrip : ∀ g prior : GprsWorkCfg, g.reg.len.toNat ≤ 32 → g.heart.len.toNat ≤ 32 →
    g.reg.Same (setGPRSWorkCfgWithJson env (jsonGPRSWorkCfg (R := R) g) prior).reg ∧
      g.heart.Same (setGPRSWorkCfgWithJson env (jsonGPRSWorkCfg (R := R) g) prior).heart
  malformed : ∀ (pCfg : Item R) (prior : GprsWorkCfg),
    Malformed env.behindReg (strAt pCfg keyReg) ∨ Malformed env.behindHrt (strAt pCfg keyHrt) →
      setGPRSWorkCfgWithJson env pCfg prior = prior
  passedOver : ∀ (pCfg : Item R) (prior : GprsWorkCfg),
    ¬ Malformed env.behindReg (strAt pCfg keyReg) →
    ¬ Malformed env.behindHrt (strAt pCfg keyHrt) →
      PassedOver env.behindReg (strAt pCfg keyReg) prior.reg
          (setGPRSWorkCfgWithJson env pCfg prior).reg ∧
        PassedOver env.behindHrt (strAt pCfg keyHrt) prior.heart
          (setGPRSWorkCfgWithJson env pCfg prior).heart

theorem packets_importExport (env : GprsEnv) : ImportsExports R env := by
  refine ⟨fun p => packetText_writes, fun g prior hreg hheart => ?_, fun pCfg prior h =>
    setGPRSWorkCfg_error env h, fun pCfg prior hreg hheart => ?_⟩
  · have htext (p : Packet) : cstr (packetText p).text = (packetText p).text := by
      rw [packetText_text]
      exact cstr_of_not_mem (zero_not_mem_hexJoin _)
    have hr : strAt (jsonGPRSWorkCfg (R := R) g) keyReg = some (packetText g.reg).text :=
      (strAt_string (s := (packetText g.reg).text) rfl).trans (congrArg some (htext g.reg))
    have hh : strAt (jsonGPRSWorkCfg (R := R) g) keyHrt = some (packetText g.heart).text :=
      (strAt_string (s := (packetText g.heart).text) rfl).trans (congrArg some (htext g.heart))
    obtain ⟨hregOk, hregSame⟩ := setPacket_text env.behindReg hreg prior.reg
    obtain ⟨hheartOk, hheartSame⟩ := setPacket_text env.behindHrt hheart prior.heart
    rw [← hr] at hregOk hregSame
    rw [← hh] at hheartOk hheartSame
    obtain ⟨heq, heq'⟩ := setGPRSWorkCfg_packets env hregOk hheartOk
    rw [heq, heq']
    exact ⟨hregSame, hheartSame⟩
  · rw [← setPacket_error_iff _ _ prior.reg, Bool.not_eq_false] at hreg
    rw [← setPacket_error_iff _ _ prior.heart, Bool.not_eq_false] at hheart
    obtain ⟨heq, heq'⟩ := setGPRSWorkCfg_packets env hreg hheart
    rw [heq, heq']
    exact ⟨passedOver_setPacket _ _ _, passedOver_setPacket _ _ _⟩

end Both

/-- A registration packet of one byte. -/
def registered : GprsWorkCfg where
  eWMode := 0
  eOMode := 0
  btDebugLvl := 0
  szSIMNo := fun _ => 0
  ulInterval := 0
  reg := ⟨1, fun _ => 1⟩
  heart := ⟨0, fun _ => 0⟩
  ulRetry := 0

def workingFlash : GprsEnv where
  behindReg := []
  behindHrt := []
  boardCfgWrite := fun _ => true

/-- A blank text takes the packet away. -/
theorem blank_not_unchanged :
    ¬ ∀ (env : GprsEnv) (str : List UInt8) (prior : GprsWorkCfg), ¬ HexText str →
      setGPRSWorkCfgWithJson env (.object [(keyReg, .string str)] : Item Int) prior = prior := by
  intro h
  have hblank := h workingFlash [32] registered fun hhex => nomatch hhex
  exact absurd (congrArg (fun g => g.reg.len) hblank) (by decide)

end K64Gateway.Backup
