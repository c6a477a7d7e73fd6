import Mathlib
import K64Gateway.Lib.CString
import K64Gateway.Lib.Framing

/-
  The frames of the HJ/T 212 protocol in `sdccp/hjt212.c`: `Hjt212Encode` builds one,
  `HJT212_PutBytes` cuts the received stream into them and passes each package with a good
  length and check to `__HJT212_ParsePack`.

  Proved: a frame of `Hjt212Encode` that arrives after the bytes `g` is passed on once exactly
  if `g` is cut into frames without a rest and the frame fits the receive buffer
  (`hjt212PutBytes_resync`).
-/

namespace K64Gateway.Hjt212

open CString Framing

def hjt212BufSize : Nat := 2048

/-- `HJT212_PRE`, 0x2323: "##". -/
def hjt212Pre : List UInt8 := chars ['#', '#']

/-- `HJT212_EOM`, 0x0A0D: carriage return and line feed. -/
def hjt212Eom : List UInt8 := [0x0d, 0x0a]

/-! ## Check and length -/

/-- The inner loop of `hjt212_GetCrc16`, one bit. -/
def crcBit (crc : UInt16) : UInt16 :=
  if crc &&& 1 = 1 then (crc >>> 1) ^^^ 0xA001 else crc >>> 1

/-- One byte of `hjt212_GetCrc16`: only the high half of the crc goes into the next one. -/
def crcByte (crc : UInt16) (b : UInt8) : UInt16 :=
  crcBit (crcBit (crcBit (crcBit (crcBit (crcBit (crcBit (crcBit (b.toUInt16 ^^^ (crc >>> 8)))))))))

/-- `hjt212_GetCrc16`. `count` is stored in an `int`, so from 2^31 on the loop does not run. -/
def hjt212GetCrc16 (ptr : List UInt8) (count : UInt32) : UInt16 :=
  (ptr.take (if count.toNat < 2 ^ 31 then count.toNat else 0)).foldl crcByte 0xFFFF

/-- A digit of `%02x`. -/
def hexDigit (n : UInt8) : UInt8 := if n < 10 then 48 + n else 87 + n

/-- `if (buf[i] >= 'a' && buf[i] <= 'z') buf[i] = buf[i] - 32;` -/
def upper (c : UInt8) : UInt8 := if 97 ≤ c ∧ c ≤ 122 then c - 32 else c

/-- `Hex2Str`. -/
def hex2Str (hex : UInt8) : List UInt8 := [upper (hexDigit (hex / 16)), upper (hexDigit (hex % 16))]

/-- The check of a frame: the crc as four hex digits. -/
def usCheck (crc : UInt16) : List UInt8 := hex2Str (crc >>> 8).toUInt8 ++ hex2Str crc.toUInt8

/-- `((btLen[0]-'0')*1000) + ((btLen[1]-'0')*100) + ((btLen[2]-'0')*10) + (btLen[3]-'0')`. -/
def ulLen (btLen : List UInt8) : UInt32 :=
  ((btLen.getD 0 0).toUInt32 - 48) * 1000 + ((btLen.getD 1 0).toUInt32 - 48) * 100 +
    ((btLen.getD 2 0).toUInt32 - 48) * 10 + ((btLen.getD 3 0).toUInt32 - 48)

/-! ## Encoding -/

/-- The arguments of `Hjt212Encode`; `none` is a null pointer. -/
structure Fields where
  QN : Option (List UInt8)
  ST : Option (List UInt8)
  CN : Option (List UInt8)
  PW : Option (List UInt8)
  MN : Option (List UInt8)
  Flag : Option (List UInt8)
  CP : Option (List UInt8)

def tagQN : List UInt8 := chars ['Q', 'N', '=']
def tagST : List UInt8 := chars ['S', 'T', '=']
def tagCN : List UInt8 := chars ['C', 'N', '=']
def tagPW : List UInt8 := chars ['P', 'W', '=']
def tagMN : List UInt8 := chars ['M', 'N', '=']
def tagFlag : List UInt8 := chars ['F', 'l', 'a', 'g', '=']
def tagCP : List UInt8 := chars ['C', 'P', '=', '&', '&']

/-- `;` -/
def semicolon : UInt8 := 59

/-- One of the fields with a limit of `n` bytes, as QN, ST, CN, PW and MN. -/
def encodeField (tag : List UInt8) (n : Nat) : Option (List UInt8) → List UInt8
  | none => []
  | some s => tag ++ (cstr s).take n ++ [semicolon]

/-- Flag: its first byte, also when it is the terminating NUL. -/
def encodeFlag : Option (List UInt8) → List UInt8
  | none => []
  | some s => tagFlag ++ [s.headD 0] ++ [semicolon]

def encodeCP : Option (List UInt8) → List UInt8
  | none => []
  | some s => tagCP ++ cstr s ++ chars ['&', '&']

/-- The data of the frame, `sBuf[6]` to `sBuf[index-1]`. -/
def encodeData (x : Fields) : List UInt8 :=
  encodeField tagQN 17 x.QN ++ encodeField tagST 5 x.ST ++ encodeField tagCN 4 x.CN ++
    encodeField tagPW 6 x.PW ++ encodeField tagMN 14 x.MN ++ encodeFlag x.Flag ++ encodeCP x.CP

/-- `sBuf[5-i] = '0' + length % 10; length /= 10;` for the four digits. -/
def encodeLen (length : Nat) : List UInt8 :=
  [length / 1000 % 10, length / 100 % 10, length / 10 % 10, length % 10].map
    fun d => UInt8.ofNat (48 + d)

/-- `Hjt212Encode`. -/
def hjt212Encode (x : Fields) : List UInt8 :=
  let data := encodeData x
  hjt212Pre ++ encodeLen data.length ++ data ++
    usCheck (hjt212GetCrc16 data (UInt32.ofNat data.length)) ++ hjt212Eom

/-- The frame around `data`. -/
def frameOf (data : List UInt8) : List UInt8 :=
  hjt212Pre ++ encodeLen data.length ++ data ++
    usCheck (hjt212GetCrc16 data (UInt32.ofNat data.length)) ++ hjt212Eom

/-! ## Receiving -/

/-- `HJT212_Package_t`, its words as bytes. `pData` is a pointer into the receive buffer: the
    memory from there on. -/
structure Package where
  usPre : List UInt8
  btLen : List UInt8
  pData : List UInt8
  btCheck : List UInt8
  usEom : List UInt8
deriving DecidableEq

/-- The package at an end mark: `pBuffer[0..6)`, `pBuffer[nPos-6..nPos)` and the pointer
    `&pBuffer[6]`. `beyond` is the memory behind the buffer. -/
def package (beyond buf : List UInt8) (nPos : Nat) : Package where
  usPre := buf.take 2
  btLen := (buf.drop 2).take 4
  pData := buf.drop 6 ++ beyond
  btCheck := (buf.drop (nPos - 6)).take 4
  usEom := (buf.drop (nPos - 2)).take 2

/-- `(ulLen + 12) == nPos && strncmp(btCheck, usCheck, 4) == 0`; the check is four hex digits,
    so the comparison is one of four bytes. -/
def Package.ok (p : Package) (nPos : Nat) : Bool :=
  decide (ulLen p.btLen + 12 = UInt32.ofNat nPos) &&
    decide (p.btCheck = usCheck (hjt212GetCrc16 p.pData (ulLen p.btLen)))

/-- What happens at an end mark: a good package goes to `__HJT212_ParsePack`. -/
def hjt212Frame (beyond buf : List UInt8) (nPos : Nat) : List UInt8 × List Package :=
  let xPack := package beyond buf nPos
  if xPack.ok nPos then (buf, [xPack]) else (buf, [])

/-- The receiver of `HJT212_PutBytes`, on a buffer with the memory `beyond` behind it. -/
def hjt212Format (beyond : List UInt8) : Format UInt8 Package where
  size := hjt212BufSize
  pre := hjt212Pre
  keep := 1
  eom := hjt212Eom
  eomFrom := 4
  minLen := 18
  frame := hjt212Frame beyond
  keep_pos := by decide
  pre_double := rfl
  pre_length := rfl
  eomFrom_le := by decide
  mark_le := by decide
  pre_lt := by decide
  minLen_le := by decide
  frame_length := fun buf nPos => by
    unfold hjt212Frame
    dsimp only
    split <;> rfl

/-- `HJT212_PutBytes`; the packages are its calls of `__HJT212_ParsePack`. -/
def hjt212PutBytes {beyond : List UInt8} (s : Receiver (hjt212Format beyond))
    (pBytes : List UInt8) : Receiver (hjt212Format beyond) × List Package :=
  s.putBytes pBytes

/-- The receiver `hjt212_open` sets up: a zeroed buffer, head state, position 0. -/
def hjt212Open (beyond : List UInt8) : Receiver (hjt212Format beyond) :=
  Receiver.start (List.replicate hjt212BufSize 0) List.length_replicate

/-- The bytes of the frame that the package was cut from. -/
def Package.bytes (p : Package) : List UInt8 :=
  p.usPre ++ p.btLen ++ p.pData.take (ulLen p.btLen).toNat ++ p.btCheck ++ p.usEom

/-- After `g`, the frame `f` makes one package, its own, and the receiver is at the start of its
    head state again. -/
def Accepts (beyond g f : List UInt8) : Prop :=
  ∃ p, (hjt212PutBytes (hjt212Open beyond) (g ++ f)).2 =
      (hjt212PutBytes (hjt212Open beyond) g).2 ++ [p] ∧ p.bytes = f ∧
    (hjt212PutBytes (hjt212Open beyond) (g ++ f)).1.state = .head ∧
    (hjt212PutBytes (hjt212Open beyond) (g ++ f)).1.pos = 0

theorem drop_hjt212Open (beyond : List UInt8) {n : Nat} (hn : n < hjt212BufSize) :
    (hjt212Open beyond).buf.drop n = 0 :: List.replicate (hjt212BufSize - n - 1) 0 := by
  show (List.replicate hjt212BufSize 0).drop n = _
  rw [List.drop_replicate, ← List.replicate_succ, Nat.sub_add_cancel (by omega)]

/-! ## A frame has its end mark at its end only -/

/-- No carriage return is followed by a line feed. -/
def NoCrLf (l : List UInt8) : Prop := l.IsChain fun a b => ¬ (a = 0x0d ∧ b = 0x0a)

instance (l : List UInt8) : Decidable (NoCrLf l) := by
  unfold NoCrLf
  infer_instance

theorem noCrLf_of_not_mem {l : List UInt8} (h : (0x0d : UInt8) ∉ l) : NoCrLf l := by
  induction l with
  | nil => exact List.isChain_nil
  | cons a l ih =>
    have ha : a ≠ 0x0d := fun he => h (he ▸ List.mem_cons_self)
    have hl := ih fun hm => h (List.mem_cons_of_mem a hm)
    cases l with
    | nil => exact List.isChain_singleton a
    | cons b l => exact List.isChain_cons_cons.mpr ⟨fun hab => ha hab.1, hl⟩

theorem NoCrLf.append {l m : List UInt8} (hl : NoCrLf l) (hm : NoCrLf m)
    (hlast : l.getLast? ≠ some 0x0d ∨ m.head? ≠ some 0x0a) : NoCrLf (l ++ m) := by
  refine List.isChain_append.mpr ⟨hl, hm, ?_⟩
  rintro a ha b hb ⟨rfl, rfl⟩
  rcases hlast with h | h
  · exact h (Option.mem_def.mp ha)
  · exact h (Option.mem_def.mp hb)

theorem not_noCrLf_of_infix {l : List UInt8} (h : hjt212Eom <:+: l) : ¬ NoCrLf l := by
  intro hl
  have := List.IsChain.infix hl h
  exact absurd this (by decide)

/-- No carriage return and line feed in `l`, and `l` does not start in the middle of one. -/
def Clean (l : List UInt8) : Prop := NoCrLf l ∧ l.head? ≠ some 0x0a

theorem clean_nil : Clean [] := ⟨List.isChain_nil, by decide⟩

theorem clean_of_not_mem {l : List UInt8} (h : (0x0d : UInt8) ∉ l) (h' : (0x0a : UInt8) ∉ l) :
    Clean l :=
  ⟨noCrLf_of_not_mem h, fun hl => h' (List.mem_of_head? hl)⟩

theorem Clean.append {l m : List UInt8} (hl : Clean l) (hm : Clean m) : Clean (l ++ m) := by
  refine ⟨hl.1.append hm.1 (Or.inr hm.2), ?_⟩
  cases l with
  | nil => exact hm.2
  | cons a l => exact hl.2

/-- The fields of a frame, each without a carriage return and line feed. -/
def Fields.NoCrLf (x : Fields) : Prop :=
  ∀ s, (x.QN = some s ∨ x.ST = some s ∨ x.CN = some s ∨ x.PW = some s ∨ x.MN = some s ∨
    x.CP = some s) → Hjt212.NoCrLf (cstr s)

/-- A tag, a text and the byte behind it. -/
theorem clean_tagged {tag text : List UInt8} {stop : List UInt8} (htag : (0x0d : UInt8) ∉ tag)
    (hhead : tag.head?.isSome ∧ tag.head? ≠ some 0x0a) (htext : NoCrLf text) (hstop : Clean stop) :
    Clean (tag ++ text ++ stop) := by
  have hfront : NoCrLf (tag ++ text) :=
    (noCrLf_of_not_mem htag).append htext (Or.inl fun h => htag (List.mem_of_getLast? h))
  refine ⟨hfront.append hstop.1 (Or.inr hstop.2), ?_⟩
  cases tag with
  | nil => exact absurd hhead.1 (by simp)
  | cons a tag => exact hhead.2

theorem clean_encodeField {tag : List UInt8} (htag : (0x0d : UInt8) ∉ tag)
    (hhead : tag.head?.isSome ∧ tag.head? ≠ some 0x0a) (n : Nat) {s : Option (List UInt8)}
    (hs : ∀ t, s = some t → NoCrLf (cstr t)) : Clean (encodeField tag n s) := by
  cases s with
  | none => exact clean_nil
  | some s =>
    have hcut : NoCrLf ((cstr s).take n) := List.IsChain.prefix (hs s rfl) (List.take_prefix n _)
    have hstop : Clean [semicolon] := clean_of_not_mem (by decide) (by decide)
    exact clean_tagged htag hhead hcut hstop

theorem clean_encodeFlag (s : Option (List UInt8)) : Clean (encodeFlag s) := by
  cases s with
  | none => exact clean_nil
  | some s =>
    have hstop : Clean [semicolon] := clean_of_not_mem (by decide) (by decide)
    exact clean_tagged (by decide) (by decide) (List.isChain_singleton _) hstop

theorem clean_encodeCP {s : Option (List UInt8)} (hs : ∀ t, s = some t → NoCrLf (cstr t)) :
    Clean (encodeCP s) := by
  cases s with
  | none => exact clean_nil
  | some s =>
    have hstop : Clean (chars ['&', '&']) := clean_of_not_mem (by decide) (by decide)
    exact clean_tagged (by decide) (by decide) (hs s rfl) hstop

theorem clean_encodeData {x : Fields} (h : x.NoCrLf) : Clean (encodeData x) := by
  unfold encodeData
  refine ((((((?_ : Clean _).append ?_).append ?_).append ?_).append ?_).append ?_).append ?_
  · exact clean_encodeField (by decide) (by decide) _ fun t ht => h t (by simp [ht])
  · exact clean_encodeField (by decide) (by decide) _ fun t ht => h t (by simp [ht])
  · exact clean_encodeField (by decide) (by decide) _ fun t ht => h t (by simp [ht])
  · exact clean_encodeField (by decide) (by decide) _ fun t ht => h t (by simp [ht])
  · exact clean_encodeField (by decide) (by decide) _ fun t ht => h t (by simp [ht])
  · exact clean_encodeFlag _
  · exact clean_encodeCP fun t ht => h t (by simp [ht])

theorem upper_hexDigit {n : UInt8} (h : n.toNat < 16) : upper (hexDigit n) ∈
    chars ['0', '1', '2', '3', '4', '5', '6', '7', '8', '9', 'A', 'B', 'C', 'D', 'E', 'F'] := by
  have hall : ∀ d < 16, upper (hexDigit (UInt8.ofNat d)) ∈
      chars ['0', '1', '2', '3', '4', '5', '6', '7', '8', '9', 'A', 'B', 'C', 'D', 'E', 'F'] := by
    decide
  have := hall n.toNat h
  rwa [UInt8.ofNat_toNat] at this

/-- The characters of `Hex2Str` are the digits and `A` to `F`. -/
theorem mem_hex2Str {hex c : UInt8} (h : c ∈ hex2Str hex) :
    c ∈ chars ['0', '1', '2', '3', '4', '5', '6', '7', '8', '9', 'A', 'B', 'C', 'D', 'E', 'F'] := by
  have hlt := UInt8.toNat_lt hex
  unfold hex2Str at h
  rcases List.mem_cons.mp h with rfl | h
  · refine upper_hexDigit ?_
    rw [UInt8.toNat_div]
    exact Nat.div_lt_of_lt_mul hlt
  · rw [List.mem_singleton] at h
    subst h
    refine upper_hexDigit ?_
    rw [UInt8.toNat_mod]
    exact Nat.mod_lt _ (by decide)

theorem mem_usCheck {crc : UInt16} {c : UInt8} (h : c ∈ usCheck crc) :
    c ∈ chars ['0', '1', '2', '3', '4', '5', '6', '7', '8', '9', 'A', 'B', 'C', 'D', 'E', 'F'] := by
  rcases List.mem_append.mp h with h | h
  · exact mem_hex2Str h
  · exact mem_hex2Str h

theorem length_usCheck (crc : UInt16) : (usCheck crc).length = 4 := rfl

theorem mem_encodeLen {n : Nat} {c : UInt8} (h : c ∈ encodeLen n) :
    c ∈ chars ['0', '1', '2', '3', '4', '5', '6', '7', '8', '9'] := by
  have hall : ∀ d < 10, UInt8.ofNat (48 + d) ∈
      chars ['0', '1', '2', '3', '4', '5', '6', '7', '8', '9'] := by decide
  obtain ⟨d, hd, rfl⟩ := List.mem_map.mp h
  refine hall d ?_
  simp only [List.mem_cons, List.not_mem_nil, or_false] at hd
  omega

theorem clean_of_subset {l m : List UInt8} (h : ∀ c ∈ l, c ∈ m) (hm : (0x0d : UInt8) ∉ m)
    (hm' : (0x0a : UInt8) ∉ m) : Clean l :=
  clean_of_not_mem (fun hc => hm (h _ hc)) (fun hc => hm' (h _ hc))

/-- A frame of `Hjt212Encode` in front of its end mark. -/
def encodeFront (x : Fields) : List UInt8 :=
  hjt212Pre ++ encodeLen (encodeData x).length ++ encodeData x ++
    usCheck (hjt212GetCrc16 (encodeData x) (UInt32.ofNat (encodeData x).length))

theorem hjt212Encode_eq (x : Fields) : hjt212Encode x = encodeFront x ++ hjt212Eom := rfl

theorem hjt212Encode_front (x : Fields) : hjt212Pre <+: hjt212Encode x := by
  rw [hjt212Encode_eq, encodeFront, List.append_assoc, List.append_assoc, List.append_assoc]
  exact List.prefix_append _ _

theorem length_hjt212Encode (x : Fields) : (hjt212Encode x).length = (encodeData x).length + 12 := by
  rw [hjt212Encode_eq, encodeFront]
  simp only [List.length_append, length_usCheck]
  have h1 : hjt212Pre.length = 2 := rfl
  have h2 : hjt212Eom.length = 2 := rfl
  have h3 : (encodeLen (encodeData x).length).length = 4 := rfl
  omega

theorem clean_encodeFront {x : Fields} (h : x.NoCrLf) : Clean (encodeFront x) := by
  unfold encodeFront
  refine (((?_ : Clean _).append ?_).append ?_).append ?_
  · exact clean_of_not_mem (by decide) (by decide)
  · exact clean_of_subset (fun _ => mem_encodeLen) (by decide) (by decide)
  · exact clean_encodeData h
  · exact clean_of_subset (fun _ => mem_usCheck) (by decide) (by decide)

theorem delimited_hjt212Encode (beyond : List UInt8) {x : Fields} (h : x.NoCrLf) :
    Delimited (hjt212Format beyond) (hjt212Encode x) := by
  refine ⟨?_, ⟨encodeFront x, rfl⟩, fun j hj hsuf => ?_⟩
  · exact hjt212Encode_front x
  · -- the frame without its last byte still has no end mark
    have hcut : hjt212Encode x = (encodeFront x ++ [0x0d]) ++ [0x0a] := by
      rw [hjt212Encode_eq, List.append_assoc]
      rfl
    have hno : NoCrLf (encodeFront x ++ [0x0d]) :=
      (clean_encodeFront h).1.append (List.isChain_singleton _) (Or.inr (by decide))
    rw [hcut] at hj hsuf
    rw [List.length_append, List.length_singleton] at hj
    rw [List.take_append_of_le_length (by omega)] at hsuf
    exact not_noCrLf_of_infix (hsuf.isInfix.trans (List.take_prefix j _).isInfix) hno

/-! ## The package of a frame -/

theorem ulLen_encodeLen {n : Nat} (h : n ≤ 9999) : ulLen (encodeLen n) = UInt32.ofNat n := by
  have hdigit : ∀ d < 10, (UInt8.ofNat (48 + d)).toUInt32 - 48 = UInt32.ofNat d := by decide
  have hval : ulLen (encodeLen n) = UInt32.ofNat (n / 1000 % 10) * 1000 +
      UInt32.ofNat (n / 100 % 10) * 100 + UInt32.ofNat (n / 10 % 10) * 10 +
      UInt32.ofNat (n % 10) := by
    rw [← hdigit (n / 1000 % 10) (by omega), ← hdigit (n / 100 % 10) (by omega),
      ← hdigit (n / 10 % 10) (by omega), ← hdigit (n % 10) (by omega)]
    rfl
  have hsum : n = n / 1000 % 10 * 1000 + n / 100 % 10 * 100 + n / 10 % 10 * 10 + n % 10 := by omega
  rw [hval]
  conv_rhs => rw [hsum, UInt32.ofNat_add, UInt32.ofNat_add, UInt32.ofNat_add, UInt32.ofNat_mul,
    UInt32.ofNat_mul, UInt32.ofNat_mul]
  rfl

/-- A package passed on from a buffer stands for as many bytes as were received. -/
theorem length_bytes {beyond buf : List UInt8} {nPos : Nat} (hbuf : buf.length = hjt212BufSize)
    (hmin : 18 ≤ nPos) (hlt : nPos < hjt212BufSize) {p : Package}
    (hp : p ∈ (hjt212Frame beyond buf nPos).2) : p.bytes.length = nPos := by
  unfold hjt212BufSize at hbuf hlt
  unfold hjt212Frame at hp
  dsimp only at hp
  split at hp
  · next hok =>
    rw [List.mem_singleton] at hp
    rw [Package.ok, Bool.and_eq_true, decide_eq_true_eq, ← hp] at hok
    have hlen := congrArg UInt32.toNat hok.1
    rw [UInt32.toNat_add, UInt32.toNat_ofNat', Nat.mod_eq_of_lt (a := nPos) (by omega)] at hlen
    have hu := UInt32.toNat_lt (ulLen p.btLen)
    have hul : (ulLen p.btLen).toNat = nPos - 12 := by
      rw [show (12 : UInt32).toNat = 12 from rfl] at hlen
      omega
    unfold Package.bytes
    rw [hul, hp]
    simp only [package, List.length_append, List.length_take, List.length_drop, hbuf]
    omega
  · exact absurd hp List.not_mem_nil

/-- What is at an end mark in the buffer after a frame of `Hjt212Encode`. -/
theorem package_hjt212Encode (beyond rest : List UInt8) (x : Fields) :
    package beyond (hjt212Encode x ++ rest) (hjt212Encode x).length =
      { usPre := hjt212Pre
        btLen := encodeLen (encodeData x).length
        pData := encodeData x ++
          (usCheck (hjt212GetCrc16 (encodeData x) (UInt32.ofNat (encodeData x).length)) ++
            (hjt212Eom ++ (rest ++ beyond)))
        btCheck := usCheck (hjt212GetCrc16 (encodeData x) (UInt32.ofNat (encodeData x).length))
        usEom := hjt212Eom } := by
  have hlen := length_hjt212Encode x
  have h2 : hjt212Pre.length = 2 := rfl
  have h4 : (encodeLen (encodeData x).length).length = 4 := rfl
  have h4' := length_usCheck (hjt212GetCrc16 (encodeData x) (UInt32.ofNat (encodeData x).length))
  have hsplit : hjt212Encode x ++ rest = hjt212Pre ++ (encodeLen (encodeData x).length ++
      (encodeData x ++ (usCheck (hjt212GetCrc16 (encodeData x) (UInt32.ofNat (encodeData x).length)) ++
        (hjt212Eom ++ rest)))) := by
    simp only [hjt212Encode_eq, encodeFront, List.append_assoc]
  have hdata : ∀ k l, (hjt212Pre ++ (encodeLen (encodeData x).length ++ l)).drop (6 + k) =
      l.drop k := fun k l => by
    rw [← List.append_assoc, ← List.drop_drop, List.drop_left' (by rw [List.length_append]; omega)]
  unfold package
  rw [hlen, hsplit]
  congr 1
  · have h6 := hdata 0
    rw [Nat.add_zero] at h6
    rw [h6, List.drop_zero]
    simp only [List.append_assoc]
  · rw [show (encodeData x).length + 12 - 6 = 6 + (encodeData x).length by omega, hdata,
      List.drop_left, List.take_left' h4']
  · rw [show (encodeData x).length + 12 - 2 = 6 + ((encodeData x).length + 4) by omega, hdata,
      ← List.drop_drop, List.drop_left, List.drop_left' h4']
    rfl

/-- The frame of `x` passes its own check. -/
theorem hjt212Frame_hjt212Encode (beyond rest : List UInt8) (x : Fields)
    (h : (hjt212Encode x).length < hjt212BufSize) :
    hjt212Frame beyond (hjt212Encode x ++ rest) (hjt212Encode x).length =
      (hjt212Encode x ++ rest,
        [package beyond (hjt212Encode x ++ rest) (hjt212Encode x).length]) := by
  have hlen := length_hjt212Encode x
  unfold hjt212BufSize at h
  have hok : (package beyond (hjt212Encode x ++ rest) (hjt212Encode x).length).ok
      (hjt212Encode x).length = true := by
    rw [package_hjt212Encode, Package.ok, Bool.and_eq_true, decide_eq_true_eq, decide_eq_true_eq]
    dsimp only
    rw [ulLen_encodeLen (by omega)]
    constructor
    · rw [hlen, UInt32.ofNat_add]
      rfl
    · have hn : (UInt32.ofNat (encodeData x).length).toNat = (encodeData x).length := by
        rw [UInt32.toNat_ofNat']
        exact Nat.mod_eq_of_lt (by omega)
      unfold hjt212GetCrc16
      rw [hn, if_pos (by omega), List.take_left, List.take_length]
  unfold hjt212Frame
  dsimp only
  rw [if_pos hok]

theorem bytes_package_hjt212Encode (beyond rest : List UInt8) {x : Fields}
    (h : (hjt212Encode x).length < hjt212BufSize) :
    (package beyond (hjt212Encode x ++ rest) (hjt212Encode x).length).bytes = hjt212Encode x := by
  have hlen := length_hjt212Encode x
  unfold hjt212BufSize at h
  rw [package_hjt212Encode, Package.bytes]
  dsimp only
  rw [ulLen_encodeLen (by omega), UInt32.toNat_ofNat', Nat.mod_eq_of_lt (by omega), List.take_left]
  rfl

/-! ## Resynchronisation -/

/-- After `g` a frame is passed on once if and only if `g` is cut into frames without a rest
    and the frame, with its eighteen bytes at least, fits the receive buffer. -/
theorem hjt212PutBytes_resync (beyond g : List UInt8) (x : Fields) (hx : x.NoCrLf) :
    Accepts beyond g (hjt212Encode x) ↔ Drained (hjt212Format beyond) g ∧
      18 ≤ (hjt212Encode x).length ∧ (hjt212Encode x).length < hjt212BufSize := by
  have hdisj : ∀ a ∈ (hjt212Format beyond).pre, a ∉ (hjt212Format beyond).eom := by
    show ∀ a ∈ hjt212Pre, a ∉ hjt212Eom
    simp [hjt212Pre, hjt212Eom, chars]
  refine accepts_iff (s := hjt212Open beyond) rfl rfl g (delimited_hjt212Encode beyond hx) hdisj
    (fun p : Package => p.bytes = hjt212Encode x) ?_ ?_
  · intro s' p hmin hp hbytes
    rw [← hbytes]
    exact (length_bytes s'.buf_length hmin s'.pos_lt hp).symm
  · intro hlt _ rest
    exact ⟨_, congrArg Prod.snd (hjt212Frame_hjt212Encode beyond rest x hlt),
      bytes_package_hjt212Encode beyond rest hlt⟩

/-- A data response: ST=91, CN=9014. -/
def dataResponse : Fields where
  QN := none
  ST := some (chars ['9', '1'])
  CN := some (chars ['9', '0', '1', '4'])
  PW := none
  MN := none
  Flag := none
  CP := none

theorem dataResponse_noCrLf : dataResponse.NoCrLf := by
  intro s hs
  simp only [dataResponse, reduceCtorEq, false_or, Option.some.injEq, or_false] at hs
  rcases hs with rfl | rfl
  · decide
  · decide

/-- A fresh receiver passes the data response on. -/
theorem hjt212PutBytes_resync_nil :
    dataResponse.NoCrLf ∧ Accepts [] [] (hjt212Encode dataResponse) :=
  ⟨dataResponse_noCrLf, (hjt212PutBytes_resync [] [] dataResponse dataResponse_noCrLf).mpr
    ⟨Or.inl .nil, by decide, by decide⟩⟩

/-- One stray `A` before the frame stays in the buffer for good. -/
theorem hjt212PutBytes_stray : ¬ ∀ (g : List UInt8) (x : Fields), ¬ hjt212Pre <:+: g →
    g.getLast? ≠ some 35 → x.NoCrLf → Accepts [] g (hjt212Encode x) := by
  intro h
  obtain ⟨p, hp, -⟩ := h [65] dataResponse (by decide) (by decide) dataResponse_noCrLf
  have hnone : (hjt212PutBytes (hjt212Open []) ([65] ++ hjt212Encode dataResponse)).2 = [] := rfl
  rw [hnone] at hp
  exact absurd hp (by simp)

end K64Gateway.Hjt212
