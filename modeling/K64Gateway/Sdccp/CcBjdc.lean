import K64Gateway.Lib.CString
import K64Gateway.Lib.Framing
import K64Gateway.Lib.LittleEndian
import K64Gateway.External.Aes

/-
  The frames of the CC_BJDC protocol in `sdccp/cc_bjdc.c`: `cc_bjdc_send_xmlpack` builds one
  from an XML text, `CC_BJDC_PutBytes` cuts the received stream into them, decrypts each one
  with a good length and check in the buffer and passes it to `__CC_BJDC_ParsePack`.

  Proved: a frame that arrives after the bytes `g` is passed on once exactly if `g` is cut into
  frames without a rest and the frame fits the receive buffer (`ccBjdcPutBytes_resync`); the
  frame of a text is delivered exactly if its cipher text and check do not contain the end mark
  (`ccBjdcSendXmlpack_delivers`).
-/

namespace K64Gateway.CcBjdc

open CString Framing Aes LittleEndian

def ccBjdcBufSize : Nat := 2048

/-- `CC_BJDC_PRE` and `CC_BJDC_EOM`. -/
def ccBjdcPre : UInt32 := 0x55AA55AA

def ccBjdcEom : UInt32 := 0x16166868

/-! ## Check and cipher -/

def ccTable : List UInt16 :=
  [0x0000, 0x1021, 0x2042, 0x3063, 0x4084, 0x50a5, 0x60c6, 0x70e7, 0x8108, 0x9129, 0xa14a, 0xb16b,
   0xc18c, 0xd1ad, 0xe1ce, 0xf1ef, 0x1231, 0x0210, 0x3273, 0x2252, 0x52b5, 0x4294, 0x72f7, 0x62d6,
   0x9339, 0x8318, 0xb37b, 0xa35a, 0xd3bd, 0xc39c, 0xf3ff, 0xe3de, 0x2462, 0x3443, 0x0420, 0x1401,
   0x64e6, 0x74c7, 0x44a4, 0x5485, 0xa56a, 0xb54b, 0x8528, 0x9509, 0xe5ee, 0xf5cf, 0xc5ac, 0xd58d,
   0x3653, 0x2672, 0x1611, 0x0630, 0x76d7, 0x66f6, 0x5695, 0x46b4, 0xb75b, 0xa77a, 0x9719, 0x8738,
   0xf7df, 0xe7fe, 0xd79d, 0xc7bc, 0x48c4, 0x58e5, 0x6886, 0x78a7, 0x0840, 0x1861, 0x2802, 0x3823,
   0xc9cc, 0xd9ed, 0xe98e, 0xf9af, 0x8948, 0x9969, 0xa90a, 0xb92b, 0x5af5, 0x4ad4, 0x7ab7, 0x6a96,
   0x1a71, 0x0a50, 0x3a33, 0x2a12, 0xdbfd, 0xcbdc, 0xfbbf, 0xeb9e, 0x9b79, 0x8b58, 0xbb3b, 0xab1a,
   0x6ca6, 0x7c87, 0x4ce4, 0x5cc5, 0x2c22, 0x3c03, 0x0c60, 0x1c41, 0xedae, 0xfd8f, 0xcdec, 0xddcd,
   0xad2a, 0xbd0b, 0x8d68, 0x9d49, 0x7e97, 0x6eb6, 0x5ed5, 0x4ef4, 0x3e13, 0x2e32, 0x1e51, 0x0e70,
   0xff9f, 0xefbe, 0xdfdd, 0xcffc, 0xbf1b, 0xaf3a, 0x9f59, 0x8f78, 0x9188, 0x81a9, 0xb1ca, 0xa1eb,
   0xd10c, 0xc12d, 0xf14e, 0xe16f, 0x1080, 0x00a1, 0x30c2, 0x20e3, 0x5004, 0x4025, 0x7046, 0x6067,
   0x83b9, 0x9398, 0xa3fb, 0xb3da, 0xc33d, 0xd31c, 0xe37f, 0xf35e, 0x02b1, 0x1290, 0x22f3, 0x32d2,
   0x4235, 0x5214, 0x6277, 0x7256, 0xb5ea, 0xa5cb, 0x95a8, 0x8589, 0xf56e, 0xe54f, 0xd52c, 0xc50d,
   0x34e2, 0x24c3, 0x14a0, 0x0481, 0x7466, 0x6447, 0x5424, 0x4405, 0xa7db, 0xb7fa, 0x8799, 0x97b8,
   0xe75f, 0xf77e, 0xc71d, 0xd73c, 0x26d3, 0x36f2, 0x0691, 0x16b0, 0x6657, 0x7676, 0x4615, 0x5634,
   0xd94c, 0xc96d, 0xf90e, 0xe92f, 0x99c8, 0x89e9, 0xb98a, 0xa9ab, 0x5844, 0x4865, 0x7806, 0x6827,
   0x18c0, 0x08e1, 0x3882, 0x28a3, 0xcb7d, 0xdb5c, 0xeb3f, 0xfb1e, 0x8bf9, 0x9bd8, 0xabbb, 0xbb9a,
   0x4a75, 0x5a54, 0x6a37, 0x7a16, 0x0af1, 0x1ad0, 0x2ab3, 0x3a92, 0xfd2e, 0xed0f, 0xdd6c, 0xcd4d,
   0xbdaa, 0xad8b, 0x9de8, 0x8dc9, 0x7c26, 0x6c07, 0x5c64, 0x4c45, 0x3ca2, 0x2c83, 0x1ce0, 0x0cc1,
   0xef1f, 0xff3e, 0xcf5d, 0xdf7c, 0xaf9b, 0xbfba, 0x8fd9, 0x9ff8, 0x6e17, 0x7e36, 0x4e55, 0x5e74,
   0x2e93, 0x3eb2, 0x0ed1, 0x1ef0]

/-- The loop body of `CC_GetCrc16`. -/
def crcStep (crc : UInt16) (b : UInt8) : UInt16 :=
  (crc <<< 8) ^^^ ccTable.getD (b ^^^ (crc >>> 8).toUInt8).toNat 0

/-- `CC_GetCrc16`. -/
def ccGetCrc16 (pData : List UInt8) (ulLen : UInt32) : UInt16 :=
  (pData.take ulLen.toNat).foldl crcStep 0

/-- `c_xAESKeyAndIV`, the key of `AES_Init` in `cc_bjdc_open` and the vector of every call. -/
def aesKeyAndIV : List UInt8 := [1, 2, 3, 4, 5, 6, 7, 8, 9, 10, 11, 12, 13, 14, 15, 16]

def encrypt (data : List UInt8) : List UInt8 :=
  aesEncrypt (aesInit aesKeyAndIV) data (blockOf aesKeyAndIV)

def decrypt (data : List UInt8) : List UInt8 :=
  aesDecrypt (aesInit aesKeyAndIV) data (blockOf aesKeyAndIV)

/-! ## Sending -/

/-- `RT_ALIGN(size, 16)`. -/
def rtAlign16 (size : Nat) : Nat := (size + 15) / 16 * 16

/-- The text `xml` in the zeroed buffer, up to a multiple of the block size. -/
def padded (xml : List UInt8) : List UInt8 :=
  cstr xml ++ List.replicate (rtAlign16 (cstr xml).length - (cstr xml).length) 0

/-- A frame around the `ulLen` bytes `body`, type and data. -/
def frameOf (body : List UInt8) : List UInt8 :=
  bytes32 ccBjdcPre ++ bytes32 (UInt32.ofNat body.length) ++ body ++
    bytes16 (ccGetCrc16 body (UInt32.ofNat body.length)) ++ bytes32 ccBjdcEom

/-- What `cc_bjdc_send_xmlpack` hands to `cc_net_send`: the type is 0, the data the encrypted
    text, `ulLen = 4 + RT_ALIGN(strlen(xml), 16)`. -/
def ccBjdcSendXmlpack (xml : List UInt8) : List UInt8 :=
  frameOf (bytes32 0 ++ encrypt (padded xml))

/-! ## Receiving -/

/-- `CC_BJDC_Package_t`. `pData` is a pointer into the receive buffer: the memory from there to
    its end. -/
structure Package where
  ulPre : UInt32
  ulLen : UInt32
  ulType : UInt32
  pData : List UInt8
  usCheck : UInt16
  ulEom : UInt32

/-- The buffer with `data` written over it from `at` on. -/
def overwrite (buf : List UInt8) (start : Nat) (data : List UInt8) : List UInt8 :=
  buf.take start ++ data ++ buf.drop (start + data.length)

/-- What happens at an end mark: the data of a good frame are decrypted where they stand and
    closed with a zero byte, and the package goes to `__CC_BJDC_ParsePack`. -/
def ccBjdcFrame (buf : List UInt8) (nPos : Nat) : List UInt8 × List Package :=
  let ulLen := word32 (buf.drop 4)
  let usCheck := word16 (buf.drop (nPos - 6))
  if ulLen + 14 = UInt32.ofNat nPos ∧ ccGetCrc16 (buf.drop 8) ulLen = usCheck then
    let n := (ulLen - 4).toNat
    let plain := decrypt ((buf.drop 12).take n)
    let buf' := (overwrite buf 12 plain).set (12 + n) 0
    (buf', [{ ulPre := word32 buf, ulLen := ulLen, ulType := word32 (buf.drop 8),
              pData := buf'.drop 12, usCheck := usCheck, ulEom := word32 (buf.drop (nPos - 4)) }])
  else (buf, [])

theorem length_decrypt (data : List UInt8) : (decrypt data).length = data.length :=
  length_aesDecrypt _ data _

theorem length_overwrite {buf data : List UInt8} {start : Nat}
    (h : data.length ≤ buf.length - start) : (overwrite buf start data).length = buf.length := by
  unfold overwrite
  simp only [List.length_append, List.length_take, List.length_drop]
  omega

/-- The receiver of `CC_BJDC_PutBytes`. -/
def ccBjdcFormat : Format UInt8 Package where
  size := ccBjdcBufSize
  pre := bytes32 ccBjdcPre
  keep := 2
  eom := bytes32 ccBjdcEom
  eomFrom := 8
  minLen := 18
  frame := ccBjdcFrame
  keep_pos := by decide
  pre_double := rfl
  pre_length := rfl
  eomFrom_le := by decide
  mark_le := by decide
  pre_lt := by decide
  minLen_le := by decide
  frame_length := fun buf nPos => by
    unfold ccBjdcFrame
    dsimp only
    split
    · rw [List.length_set, length_overwrite]
      rw [length_decrypt, List.length_take, List.length_drop]
      omega
    · rfl

/-- `CC_BJDC_PutBytes`; the packages are its calls of `__CC_BJDC_ParsePack`. -/
def ccBjdcPutBytes (s : Receiver ccBjdcFormat) (pBytes : List UInt8) :
    Receiver ccBjdcFormat × List Package :=
  s.putBytes pBytes

/-- The receiver `cc_bjdc_open` sets up: a zeroed buffer, head state, position 0. -/
def ccBjdcOpen : Receiver ccBjdcFormat :=
  Receiver.start (List.replicate ccBjdcBufSize 0) List.length_replicate

/-- The package is the one of the frame `f`: its words are those of `f`, its data those of `f`
    decrypted. -/
def Package.IsOf (p : Package) (f : List UInt8) : Prop :=
  p.ulPre = word32 f ∧ p.ulLen = word32 (f.drop 4) ∧ p.ulType = word32 (f.drop 8) ∧
    p.pData.take (p.ulLen - 4).toNat = decrypt ((f.drop 12).take (p.ulLen - 4).toNat) ∧
    p.usCheck = word16 (f.drop (f.length - 6)) ∧ p.ulEom = word32 (f.drop (f.length - 4))

/-- After `g`, the frame `f` makes one package, its own, and the receiver is at the start of its
    head state again. -/
def Accepts (g f : List UInt8) : Prop :=
  ∃ p, (ccBjdcPutBytes ccBjdcOpen (g ++ f)).2 = (ccBjdcPutBytes ccBjdcOpen g).2 ++ [p] ∧
    p.IsOf f ∧ (ccBjdcPutBytes ccBjdcOpen (g ++ f)).1.state = .head ∧
    (ccBjdcPutBytes ccBjdcOpen (g ++ f)).1.pos = 0

/-! ## The package of a frame -/

theorem length_frameOf (body : List UInt8) : (frameOf body).length = body.length + 14 := by
  simp only [frameOf, List.length_append, bytes16, bytes32, List.length_cons, List.length_nil]
  omega

theorem frameOf_eq (body : List UInt8) : frameOf body = bytes32 ccBjdcPre ++
    (bytes32 (UInt32.ofNat body.length) ++ (body ++
      (bytes16 (ccGetCrc16 body (UInt32.ofNat body.length)) ++ bytes32 ccBjdcEom))) := by
  simp only [frameOf, List.append_assoc]

/-- Where the parts of a frame stand in the buffer. -/
theorem frameOf_drop (body rest : List UInt8) :
    (frameOf body ++ rest).drop 4 = bytes32 (UInt32.ofNat body.length) ++ (body ++
      (bytes16 (ccGetCrc16 body (UInt32.ofNat body.length)) ++ (bytes32 ccBjdcEom ++ rest))) ∧
    (frameOf body ++ rest).drop 8 = body ++
      (bytes16 (ccGetCrc16 body (UInt32.ofNat body.length)) ++ (bytes32 ccBjdcEom ++ rest)) ∧
    (frameOf body ++ rest).drop (body.length + 8) =
      bytes16 (ccGetCrc16 body (UInt32.ofNat body.length)) ++ (bytes32 ccBjdcEom ++ rest) := by
  have h4 : ∀ w, (bytes32 w).length = 4 := fun _ => rfl
  have hdrop4 : (frameOf body ++ rest).drop 4 = bytes32 (UInt32.ofNat body.length) ++ (body ++
      (bytes16 (ccGetCrc16 body (UInt32.ofNat body.length)) ++ (bytes32 ccBjdcEom ++ rest))) := by
    rw [frameOf_eq, List.append_assoc, List.drop_left' (h4 _)]
    simp only [List.append_assoc]
  have hdrop8 : (frameOf body ++ rest).drop 8 = body ++
      (bytes16 (ccGetCrc16 body (UInt32.ofNat body.length)) ++ (bytes32 ccBjdcEom ++ rest)) := by
    rw [show (frameOf body ++ rest).drop 8 = ((frameOf body ++ rest).drop 4).drop 4 by
      rw [List.drop_drop], hdrop4, List.drop_left' (h4 _)]
  refine ⟨hdrop4, hdrop8, ?_⟩
  rw [Nat.add_comm body.length 8, ← List.drop_drop, hdrop8, List.drop_left]

/-- The memory from `&pBuffer[12]` on after the data were decrypted and closed. -/
theorem drop_overwrite (buf plain : List UInt8) (h : 12 + plain.length < buf.length) :
    ((overwrite buf 12 plain).set (12 + plain.length) 0).drop 12 =
      plain ++ 0 :: buf.drop (12 + plain.length + 1) := by
  have hfront : (buf.take 12 ++ plain).length = 12 + plain.length := by
    rw [List.length_append, List.length_take]
    omega
  have hcons : buf.drop (12 + plain.length) =
      buf[12 + plain.length] :: buf.drop (12 + plain.length + 1) := List.drop_eq_getElem_cons h
  unfold overwrite
  rw [← hfront, List.set_append_right _ _ (Nat.le_refl _), Nat.sub_self, hfront, hcons,
    List.set_cons_zero, List.append_assoc, List.drop_left' (by rw [List.length_take]; omega)]

/-- What the data of a package that is passed on look like, whatever is in the buffer. -/
theorem mem_ccBjdcFrame {buf : List UInt8} {nPos : Nat} (hbuf : buf.length = ccBjdcBufSize)
    (hmin : 18 ≤ nPos) (hlt : nPos < ccBjdcBufSize) {p : Package}
    (hp : p ∈ (ccBjdcFrame buf nPos).2) :
    p.ulLen = word32 (buf.drop 4) ∧ p.ulLen.toNat + 14 = nPos ∧
      ∃ plain rest, plain.length = nPos - 18 ∧ p.pData = plain ++ 0 :: rest := by
  unfold ccBjdcBufSize at hbuf hlt
  unfold ccBjdcFrame at hp
  dsimp only at hp
  split at hp
  · next hok =>
    rw [List.mem_singleton] at hp
    have hlen := congrArg UInt32.toNat hok.1
    rw [UInt32.toNat_add, UInt32.toNat_ofNat', Nat.mod_eq_of_lt (a := nPos) (by omega),
      show (14 : UInt32).toNat = 14 from rfl] at hlen
    have hu := UInt32.toNat_lt (word32 (buf.drop 4))
    have hul : (word32 (buf.drop 4)).toNat + 14 = nPos := by omega
    have hn : (word32 (buf.drop 4) - 4).toNat = nPos - 18 := by
      rw [UInt32.toNat_sub_of_le _ _ (by rw [UInt32.le_iff_toNat_le]; show 4 ≤ _; omega)]
      show _ - 4 = _
      omega
    refine ⟨by rw [hp], by rw [hp]; exact hul, ?_⟩
    have hplain : (decrypt ((buf.drop 12).take (nPos - 18))).length = nPos - 18 := by
      rw [length_decrypt, List.length_take, List.length_drop]
      omega
    have hdata := drop_overwrite buf (decrypt ((buf.drop 12).take (nPos - 18)))
      (by rw [hplain]; omega)
    rw [hplain] at hdata
    refine ⟨decrypt ((buf.drop 12).take (nPos - 18)), buf.drop (12 + (nPos - 18) + 1), hplain, ?_⟩
    rw [hp]
    dsimp only
    rw [hn]
    exact hdata
  · exact absurd hp List.not_mem_nil

/-- A frame passes its own check, and its data come out decrypted. -/
theorem ccBjdcFrame_frameOf (body rest : List UInt8) (h4 : 4 ≤ body.length)
    (hlt : (frameOf body).length < ccBjdcBufSize) :
    ∃ p, (ccBjdcFrame (frameOf body ++ rest) (frameOf body).length).2 = [p] ∧
      p.IsOf (frameOf body) ∧ ∃ tail, p.pData = decrypt (body.drop 4) ++ 0 :: tail := by
  have hlen := length_frameOf body
  obtain ⟨hd4, hd8, hdc⟩ := frameOf_drop body rest
  obtain ⟨he4, he8, hec⟩ := frameOf_drop body []
  rw [List.append_nil] at he4 he8 hec
  unfold ccBjdcBufSize at hlt
  have hL : (UInt32.ofNat body.length).toNat = body.length := by
    rw [UInt32.toNat_ofNat']
    exact Nat.mod_eq_of_lt (by omega)
  have hn : (UInt32.ofNat body.length - 4).toNat = body.length - 4 := by
    rw [UInt32.toNat_sub_of_le _ _ (by rw [UInt32.le_iff_toNat_le]; show 4 ≤ _; omega), hL]
    rfl
  have hword := word32_bytes32 (UInt32.ofNat body.length)
  have hok : UInt32.ofNat body.length + 14 = UInt32.ofNat (frameOf body).length ∧
      ccGetCrc16 ((frameOf body ++ rest).drop 8) (UInt32.ofNat body.length) =
        word16 ((frameOf body ++ rest).drop ((frameOf body).length - 6)) := by
    constructor
    · rw [hlen, UInt32.ofNat_add]
      rfl
    · rw [hlen, show body.length + 14 - 6 = body.length + 8 by omega, hdc, word16_bytes16, hd8]
      unfold ccGetCrc16
      rw [hL, List.take_left, List.take_length]
  have hdata : ∀ l, ((frameOf body ++ l).drop 12).take (body.length - 4) = body.drop 4 := by
    intro l
    rw [show (12 : Nat) = 8 + 4 from rfl, ← List.drop_drop, (frameOf_drop body l).2.1,
      List.drop_append_of_le_length h4,
      List.take_left' (by rw [List.length_drop])]
  have hplain : (decrypt (body.drop 4)).length = body.length - 4 := by
    rw [length_decrypt, List.length_drop]
  have hmem := drop_overwrite (frameOf body ++ rest) (decrypt (body.drop 4))
    (by rw [List.length_append, hplain]; omega)
  rw [hplain] at hmem
  have hrun : (ccBjdcFrame (frameOf body ++ rest) (frameOf body).length).2 =
      [{ ulPre := word32 (frameOf body ++ rest), ulLen := UInt32.ofNat body.length,
         ulType := word32 ((frameOf body ++ rest).drop 8),
         pData := decrypt (body.drop 4) ++ 0 :: (frameOf body ++ rest).drop (12 + (body.length - 4) + 1),
         usCheck := word16 ((frameOf body ++ rest).drop ((frameOf body).length - 6)),
         ulEom := word32 ((frameOf body ++ rest).drop ((frameOf body).length - 4)) }] := by
    unfold ccBjdcFrame
    dsimp only
    rw [hd4, hword, if_pos hok, hn, hdata, hmem]
  refine ⟨_, hrun, ⟨?_, ?_, ?_, ?_, ?_, ?_⟩, _, rfl⟩
  · exact word32_append (by omega) rest
  · exact (by rw [he4, hword] : UInt32.ofNat body.length = word32 ((frameOf body).drop 4))
  · dsimp only
    rw [List.drop_append_of_le_length (by omega), word32_append (by rw [List.length_drop]; omega)]
  · have := hdata []
    rw [List.append_nil] at this
    dsimp only
    rw [hn, this, List.take_left' hplain]
  · dsimp only
    rw [List.drop_append_of_le_length (by omega), word16_append (by rw [List.length_drop]; omega)]
  · dsimp only
    rw [List.drop_append_of_le_length (by omega), word32_append (by rw [List.length_drop]; omega)]

/-! ## Resynchronisation -/

theorem delimited_frameOf {body : List UInt8}
    (hno : ∀ j < (frameOf body).length, ¬ bytes32 ccBjdcEom <:+ (frameOf body).take j) :
    Delimited ccBjdcFormat (frameOf body) := by
  refine ⟨?_, List.suffix_append _ _, hno⟩
  rw [frameOf_eq]
  exact List.prefix_append _ _

/-- After `g` a frame without an end mark inside is passed on once if and only if `g` is cut
    into frames without a rest and the frame, of eighteen bytes at least, fits the buffer. -/
theorem ccBjdcPutBytes_resync (g body : List UInt8) (hfit : body.length + 14 ≤ ccBjdcBufSize)
    (hno : ∀ j < (frameOf body).length, ¬ bytes32 ccBjdcEom <:+ (frameOf body).take j) :
    Accepts g (frameOf body) ↔ Drained ccBjdcFormat g ∧ 18 ≤ (frameOf body).length ∧
      (frameOf body).length < ccBjdcBufSize := by
  have hlen := length_frameOf body
  have hdisj : ∀ a ∈ ccBjdcFormat.pre, a ∉ ccBjdcFormat.eom := by
    have hall : (bytes32 ccBjdcPre).all (fun a => !(bytes32 ccBjdcEom).contains a) = true := rfl
    intro a ha
    show a ∉ bytes32 ccBjdcEom
    simpa using List.all_eq_true.mp hall a ha
  refine accepts_iff (s := ccBjdcOpen) rfl rfl g (delimited_frameOf hno) hdisj _ ?_ ?_
  · intro s' p hmin hp hof
    have hul := (mem_ccBjdcFrame s'.buf_length hmin s'.pos_lt hp).2.1
    have hL : p.ulLen = UInt32.ofNat body.length := by
      have hd4 := (frameOf_drop body []).1
      rw [List.append_nil] at hd4
      rw [hof.2.1, hd4, word32_bytes32]
    unfold ccBjdcBufSize at hfit
    rw [hL, UInt32.toNat_ofNat', Nat.mod_eq_of_lt (by omega)] at hul
    omega
  · intro hlt hmin rest
    obtain ⟨p, hrun, hof, -⟩ := ccBjdcFrame_frameOf body rest (by
      have : 18 ≤ (frameOf body).length := hmin
      omega) hlt
    exact ⟨p, hrun, hof⟩

/-- The smallest frame: a type and no data. -/
def emptyBody : List UInt8 := bytes32 0

theorem emptyBody_once :
    ∀ j < (frameOf emptyBody).length, ¬ bytes32 ccBjdcEom <:+ (frameOf emptyBody).take j := by
  decide

/-- A fresh receiver passes the smallest frame on. -/
theorem ccBjdcPutBytes_resync_nil : emptyBody.length + 14 ≤ ccBjdcBufSize ∧
    (∀ j < (frameOf emptyBody).length, ¬ bytes32 ccBjdcEom <:+ (frameOf emptyBody).take j) ∧
    Accepts [] (frameOf emptyBody) :=
  ⟨by decide, emptyBody_once, (ccBjdcPutBytes_resync [] emptyBody (by decide) emptyBody_once).mpr
    ⟨Or.inl .nil, by decide, by decide⟩⟩

/-- One stray zero byte before the frame stays in the buffer for good. -/
theorem ccBjdcPutBytes_stray : ¬ ∀ g body : List UInt8,
    (∀ j < g.length, ¬ bytes32 ccBjdcPre <+: (g ++ frameOf body).drop j) →
    body.length + 14 ≤ ccBjdcBufSize →
    (∀ j < (frameOf body).length, ¬ bytes32 ccBjdcEom <:+ (frameOf body).take j) →
    Accepts g (frameOf body) := by
  intro h
  obtain ⟨p, hp, -⟩ := h [0] emptyBody (by decide) (by decide) emptyBody_once
  have hnone : (ccBjdcPutBytes ccBjdcOpen ([0] ++ frameOf emptyBody)).2 = [] := rfl
  rw [hnone] at hp
  exact absurd hp (by simp)

/-! ## From text to text -/

/-- Whatever the buffer of a receiver at the start of its head state and however the frame of
    `xml` is cut into calls, one package is passed on, and its data are the string `xml`. -/
def Delivers (xml : List UInt8) : Prop :=
  ∀ (s : Receiver ccBjdcFormat) (chunks : List (List UInt8)), s.state = .head → s.pos = 0 →
    chunks.flatten = ccBjdcSendXmlpack xml →
    ∃ p, (s.putChunks chunks).2 = [p] ∧ cstr p.pData = cstr xml

/-- The cipher text of `xml` and the check behind it. -/
def cipherAndCheck (xml : List UInt8) : List UInt8 :=
  let body := bytes32 0 ++ encrypt (padded xml)
  encrypt (padded xml) ++ bytes16 (ccGetCrc16 body (UInt32.ofNat body.length))

theorem length_padded (xml : List UInt8) : (padded xml).length = rtAlign16 (cstr xml).length := by
  unfold padded rtAlign16
  rw [List.length_append, List.length_replicate]
  omega

theorem length_encrypt (data : List UInt8) : (encrypt data).length = data.length :=
  length_aesEncrypt _ data _

theorem decrypt_encrypt_padded (xml : List UInt8) : decrypt (encrypt (padded xml)) = padded xml := by
  refine aesDecrypt_aesEncrypt _ _ ?_
  rw [length_padded, rtAlign16, Nat.mul_mod_left]

theorem length_ccBjdcSendXmlpack (xml : List UInt8) :
    (ccBjdcSendXmlpack xml).length = rtAlign16 (cstr xml).length + 18 := by
  unfold ccBjdcSendXmlpack
  rw [length_frameOf, List.length_append, length_encrypt, length_padded,
    show (bytes32 0).length = 4 from rfl]
  omega

theorem cstr_padded (xml rest : List UInt8) : cstr (padded xml ++ 0 :: rest) = cstr xml := by
  have hnul := cstr_of_not_mem (zero_not_mem_cstr xml)
  unfold padded
  rw [cstr_append_zero]
  cases rtAlign16 (cstr xml).length - (cstr xml).length with
  | zero => rw [List.replicate_zero, List.append_nil, hnul]
  | succ n => rw [List.replicate_succ, cstr_append_zero, hnul]

/-- The frame of `xml`, its twelve bytes in front of the cipher text apart. -/
theorem ccBjdcSendXmlpack_eq (xml : List UInt8) : ∃ front, front.length = 12 ∧
    ccBjdcSendXmlpack xml = front ++ (cipherAndCheck xml ++ bytes32 ccBjdcEom) := by
  refine ⟨bytes32 ccBjdcPre ++ bytes32 (UInt32.ofNat
    (bytes32 0 ++ encrypt (padded xml)).length) ++ bytes32 0, rfl, ?_⟩
  unfold ccBjdcSendXmlpack cipherAndCheck
  rw [frameOf_eq]
  simp only [List.append_assoc]

theorem not_eom_suffix {d : List UInt8} {i : Nat} (h0 : 0 < i) (h4 : i < 4) :
    ¬ bytes32 ccBjdcEom <:+ d ++ (bytes32 ccBjdcEom).take i := by
  intro h
  have hsuf : (bytes32 ccBjdcEom).take i <:+ bytes32 ccBjdcEom :=
    List.suffix_of_suffix_length_le (List.suffix_append d _) h (List.length_take_le' _ _)
  match i, h0, h4 with
  | 1, _, _ => exact absurd hsuf (by decide)
  | 2, _, _ => exact absurd hsuf (by decide)
  | 3, _, _ => exact absurd hsuf (by decide)

/-- An end mark where the receiver looks for it, in front of the frame's own one, stands in the
    cipher text and check from the third byte on. -/
theorem early_iff {front d : List UInt8} (hf : front.length = 12) (hd : 2 ≤ d.length) :
    (∃ j, 18 ≤ j ∧ j < (front ++ (d ++ bytes32 ccBjdcEom)).length ∧
      bytes32 ccBjdcEom <:+ (front ++ (d ++ bytes32 ccBjdcEom)).take j) ↔
    bytes32 ccBjdcEom <:+: d.drop 2 := by
  have h4 : (bytes32 ccBjdcEom).length = 4 := rfl
  have hcut : front ++ (d ++ bytes32 ccBjdcEom) =
      (front ++ d.take 2) ++ (d.drop 2 ++ bytes32 ccBjdcEom) := by
    rw [List.append_assoc, ← List.append_assoc (d.take 2), List.take_append_drop]
  have hfront : (front ++ d.take 2).length = 14 := by
    rw [List.length_append, List.length_take]
    omega
  rw [hcut]
  generalize front ++ d.take 2 = front' at hfront
  generalize d.drop 2 = e
  constructor
  · rintro ⟨j, hj, hlt, hsuf⟩
    rw [List.length_append, List.length_append, hfront, h4] at hlt
    rw [List.take_append, List.take_of_length_le (by omega), hfront] at hsuf
    have hsuf' : bytes32 ccBjdcEom <:+ (e ++ bytes32 ccBjdcEom).take (j - 14) :=
      List.suffix_of_suffix_length_le hsuf (List.suffix_append _ _)
        (by rw [List.length_take, List.length_append]; omega)
    rcases Nat.lt_or_ge e.length (j - 14) with hge | hle
    · rw [List.take_append, List.take_of_length_le (by omega)] at hsuf'
      exact absurd hsuf' (not_eom_suffix (by omega) (by omega))
    · rw [List.take_append_of_le_length hle] at hsuf'
      exact hsuf'.isInfix.trans (List.take_prefix _ _).isInfix
  · rintro ⟨u, v, rfl⟩
    refine ⟨14 + (u.length + 4), by omega, ?_, ?_⟩
    · simp only [List.length_append, h4] at hfront ⊢
      omega
    · rw [← hfront, List.take_length_add_append]
      have hmark : (u ++ bytes32 ccBjdcEom ++ v ++ bytes32 ccBjdcEom).take (u.length + 4) =
          u ++ bytes32 ccBjdcEom := by
        rw [List.append_assoc (u ++ bytes32 ccBjdcEom), List.take_left' (by rw [List.length_append, h4])]
      rw [hmark, ← List.append_assoc]
      exact List.suffix_append _ _

theorem two_le_cipherAndCheck (xml : List UInt8) : 2 ≤ (cipherAndCheck xml).length := by
  unfold cipherAndCheck
  rw [List.length_append]
  exact Nat.le_add_left 2 _

theorem pre_prefix_ccBjdcSendXmlpack (xml : List UInt8) :
    ccBjdcFormat.pre <+: ccBjdcSendXmlpack xml := by
  unfold ccBjdcSendXmlpack
  rw [frameOf_eq]
  exact List.prefix_append _ _

/-- Where the receiver looks for an end mark in a frame that fits. -/
theorem endAt_take {f : List UInt8} {j : Nat} (hj : j ≤ f.length) (hlt : j < ccBjdcBufSize) :
    EndAt ccBjdcFormat (f.take j) ↔ 18 ≤ j ∧ bytes32 ccBjdcEom <:+ f.take j := by
  have hlen : (f.take j).length % ccBjdcBufSize = j := by
    rw [List.length_take, Nat.min_eq_left hj, Nat.mod_eq_of_lt hlt]
  show bytes32 ccBjdcEom <:+ f.take j ∧ 18 ≤ (f.take j).length % ccBjdcBufSize ↔ _
  rw [hlen, and_comm]

/-- Without an early end mark the frame of `xml` is handed over whole. -/
theorem delivers_of_not_infix {xml : List UInt8}
    (hfit : (ccBjdcSendXmlpack xml).length ≤ ccBjdcBufSize)
    (hno : ¬ bytes32 ccBjdcEom <:+: (cipherAndCheck xml).drop 2) : Delivers xml := by
  intro s chunks _ hpos hchunks
  have hlen := length_ccBjdcSendXmlpack xml
  have hlt : (ccBjdcSendXmlpack xml).length < ccBjdcBufSize := by
    unfold ccBjdcBufSize rtAlign16 at *
    omega
  obtain ⟨front, hfront, hf⟩ := ccBjdcSendXmlpack_eq xml
  have hend : EndAt ccBjdcFormat (ccBjdcSendXmlpack xml) := by
    have := (endAt_take (Nat.le_refl _) hlt).mpr
    rw [List.take_length] at this
    exact this ⟨by omega, List.suffix_append _ _⟩
  have hearly : ∀ j < (ccBjdcSendXmlpack xml).length,
      ¬ EndAt ccBjdcFormat ((ccBjdcSendXmlpack xml).take j) := by
    intro j hj h
    obtain ⟨hmin, hsuf⟩ := (endAt_take (Nat.le_of_lt hj) (Nat.lt_trans hj hlt)).mp h
    rw [hf] at hsuf hj
    exact hno ((early_iff hfront (two_le_cipherAndCheck xml)).mp ⟨j, hmin, hj, hsuf⟩)
  obtain ⟨s', hpos', hbuf, hfired⟩ :=
    putBytes_frame hpos (pre_prefix_ccBjdcSendXmlpack xml) hend hearly hlt
  obtain ⟨p, hrun, -, tail, hdata⟩ :=
    ccBjdcFrame_frameOf (bytes32 0 ++ encrypt (padded xml))
      (s.buf.drop (ccBjdcSendXmlpack xml).length)
      (by rw [List.length_append]; exact Nat.le_add_right 4 _) hlt
  refine ⟨p, ?_, ?_⟩
  · rw [s.putChunks_eq, hchunks, hfired.out, hpos', hbuf]
    exact hrun
  · have hbody : (bytes32 0 ++ encrypt (padded xml)).drop 4 = encrypt (padded xml) := rfl
    rw [hdata, hbody, decrypt_encrypt_padded, cstr_padded]

/-- The receiver drops a frame that is cut at a mark before its end: the length field says more
    than was received. -/
theorem putBytes_cut {xml : List UInt8} {j : Nat} (hmin : 18 ≤ j)
    (hlt : j < (ccBjdcSendXmlpack xml).length) (hj : j < ccBjdcBufSize)
    (hsuf : bytes32 ccBjdcEom <:+ (ccBjdcSendXmlpack xml).take j)
    (hfirst : ∀ i < j, ¬ (18 ≤ i ∧ bytes32 ccBjdcEom <:+ (ccBjdcSendXmlpack xml).take i))
    (hword : (word32 ((ccBjdcSendXmlpack xml).drop 4)).toNat + 14 ≠ j) :
    (ccBjdcOpen.putBytes ((ccBjdcSendXmlpack xml).take j)).2 = [] ∧
      (ccBjdcOpen.putBytes ((ccBjdcSendXmlpack xml).take j)).1.pos = 0 := by
  have htake : ((ccBjdcSendXmlpack xml).take j).length = j := by
    rw [List.length_take]
    omega
  have hpre : ccBjdcFormat.pre <+: (ccBjdcSendXmlpack xml).take j := by
    refine List.prefix_take_iff.mpr ⟨pre_prefix_ccBjdcSendXmlpack xml, ?_⟩
    show 4 ≤ j
    omega
  have hend := (endAt_take (Nat.le_of_lt hlt) hj).mpr ⟨hmin, hsuf⟩
  have hearly : ∀ i < ((ccBjdcSendXmlpack xml).take j).length,
      ¬ EndAt ccBjdcFormat (((ccBjdcSendXmlpack xml).take j).take i) := by
    intro i hi h
    rw [htake] at hi
    rw [List.take_take, Nat.min_eq_left (by omega)] at h
    exact hfirst i hi ((endAt_take (by omega) (by omega)).mp h)
  obtain ⟨s', hpos, hbuf, hfired⟩ := putBytes_frame (s := ccBjdcOpen) rfl hpre hend hearly
    (by rw [htake]; exact hj)
  rw [htake] at hpos
  refine ⟨List.eq_nil_iff_forall_not_mem.mpr fun p hp => ?_, hfired.pos⟩
  rw [hfired.out] at hp
  obtain ⟨hul, hnPos, -⟩ := mem_ccBjdcFrame s'.buf_length (by omega) s'.pos_lt hp
  have hsame : word32 (s'.buf.drop 4) = word32 ((ccBjdcSendXmlpack xml).drop 4) := by
    have hfront : 4 ≤ (((ccBjdcSendXmlpack xml).take j).drop 4).length := by
      rw [List.length_drop]
      omega
    conv_rhs => rw [← List.take_append_drop j (ccBjdcSendXmlpack xml)]
    rw [hbuf, List.drop_append_of_le_length (by omega), List.drop_append_of_le_length (by omega),
      word32_append hfront, word32_append hfront]
  rw [hul, hsame, hpos] at hnPos
  exact hword hnPos

/-- With an early end mark the frame is dropped there, and what is left of it is too short for
    the text. -/
theorem not_delivers_of_infix {xml : List UInt8}
    (hfit : (ccBjdcSendXmlpack xml).length ≤ ccBjdcBufSize)
    (hinf : bytes32 ccBjdcEom <:+: (cipherAndCheck xml).drop 2) : ¬ Delivers xml := by
  intro hdel
  have hlen := length_ccBjdcSendXmlpack xml
  obtain ⟨front, hfront, hf⟩ := ccBjdcSendXmlpack_eq xml
  have hex : ∃ j, 18 ≤ j ∧ j < (ccBjdcSendXmlpack xml).length ∧
      bytes32 ccBjdcEom <:+ (ccBjdcSendXmlpack xml).take j := by
    rw [hf]
    exact (early_iff hfront (two_le_cipherAndCheck xml)).mpr hinf
  -- the first of these marks
  obtain ⟨hmin, hlt, hsuf⟩ := Nat.find_spec hex
  have hfirst := fun i (hi : i < Nat.find hex) => Nat.find_min hex hi
  generalize Nat.find hex = j at hmin hlt hsuf hfirst
  have hword : (word32 ((ccBjdcSendXmlpack xml).drop 4)).toNat + 14 ≠ j := by
    have hd4 := (frameOf_drop (bytes32 0 ++ encrypt (padded xml)) []).1
    rw [List.append_nil] at hd4
    rw [ccBjdcSendXmlpack, hd4, word32_bytes32, List.length_append, length_encrypt, length_padded,
      show (bytes32 0).length = 4 from rfl, UInt32.toNat_ofNat']
    unfold ccBjdcBufSize at hfit
    omega
  obtain ⟨hnone, hpos⟩ := putBytes_cut hmin hlt (Nat.lt_of_lt_of_le hlt hfit) hsuf
    (fun i hi h => hfirst i hi ⟨h.1, by omega, h.2⟩) hword
  obtain ⟨p, hp, hstr⟩ := hdel ccBjdcOpen [ccBjdcSendXmlpack xml] rfl rfl (by simp)
  have hmem : p ∈ ((ccBjdcOpen.putBytes ((ccBjdcSendXmlpack xml).take j)).1.putBytes
      ((ccBjdcSendXmlpack xml).drop j)).2 := by
    rw [Receiver.putChunks_eq, List.flatten_cons, List.flatten_nil, List.append_nil,
      ← List.take_append_drop j (ccBjdcSendXmlpack xml), Receiver.putBytes_append, hnone,
      List.nil_append] at hp
    rw [hp]
    exact List.mem_singleton_self p
  obtain ⟨s', hout, hmin', hle⟩ := mem_putBytes hmem
  have h18 : 18 ≤ s'.pos := hmin'
  rw [hpos, Nat.zero_add, List.length_drop] at hle
  obtain ⟨-, -, plain, rest, hplain, hdata⟩ := mem_ccBjdcFrame s'.buf_length h18 s'.pos_lt hout
  have hshort : (cstr p.pData).length ≤ s'.pos - 18 := by
    rw [hdata, cstr_append_zero, ← hplain]
    exact length_cstr_le plain
  rw [hstr] at hshort
  unfold rtAlign16 at hlen
  omega

/-- The frame of a text that fits the buffer is delivered if and only if the end mark is not in
    its cipher text and check, from their third byte on. -/
theorem ccBjdcSendXmlpack_delivers (xml : List UInt8)
    (hfit : (ccBjdcSendXmlpack xml).length ≤ ccBjdcBufSize) :
    Delivers xml ↔ ¬ bytes32 ccBjdcEom <:+: (cipherAndCheck xml).drop 2 :=
  ⟨fun hdel hinf => not_delivers_of_infix hfit hinf hdel, delivers_of_not_infix hfit⟩

/-- `<a>` around the digits and letters `text`. -/
def element (text : List Char) : List UInt8 :=
  chars ['<', 'a', '>'] ++ chars text ++ chars ['<', '/', 'a', '>']

/-- The text `<a>1</a>` arrives. -/
theorem ccBjdcSendXmlpack_delivers_one :
    (ccBjdcSendXmlpack (element ['1'])).length ≤ ccBjdcBufSize ∧ Delivers (element ['1']) := by
  have hfit : (ccBjdcSendXmlpack (element ['1'])).length ≤ ccBjdcBufSize := by
    rw [length_ccBjdcSendXmlpack]
    decide
  exact ⟨hfit, (ccBjdcSendXmlpack_delivers _ hfit).mpr (by decide +kernel)⟩

/-- The text `<a>rz5qs2000</a>` has the end mark in the bytes 9 to 12 of its cipher text. -/
theorem cipherAndCheck_rz5qs2000 :
    bytes32 ccBjdcEom <:+:
      (cipherAndCheck (element ['r', 'z', '5', 'q', 's', '2', '0', '0', '0'])).drop 2 := by
  decide +kernel

/-- So it is lost. -/
theorem ccBjdcSendXmlpack_lost :
    ¬ ∀ xml : List UInt8, (ccBjdcSendXmlpack xml).length ≤ ccBjdcBufSize → Delivers xml := by
  intro h
  have hfit : (ccBjdcSendXmlpack (element ['r', 'z', '5', 'q', 's', '2', '0', '0', '0'])).length ≤
      ccBjdcBufSize := by
    rw [length_ccBjdcSendXmlpack]
    decide
  exact not_delivers_of_infix hfit cipherAndCheck_rz5qs2000 (h _ hfit)

end K64Gateway.CcBjdc
