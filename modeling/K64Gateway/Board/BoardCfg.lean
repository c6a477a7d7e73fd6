import K64Gateway.Lib.FileImage
import K64Gateway.Lib.LittleEndian
import K64Gateway.External.MbCrc

/-
  The configuration file of `board/cfg/board_cfg.c`: sections at fixed offsets, each with a magic
  number in front and a check behind.

  Proved: what one write does to the file (`boardCfgWrite_eq`), and what a read of a section says
  about its bytes (`boardCfgRead_slice`).
-/

namespace K64Gateway.Board

open FileImage LittleEndian MbCrc

/-! ## Sections -/

structure Section where
  ofs : Nat
  size : Nat
deriving DecidableEq

def cfgInfo : Section := ⟨0, 128⟩
def devCfg : Section := ⟨cfgInfo.ofs + cfgInfo.size, 256⟩
def regCfg : Section := ⟨devCfg.ofs + devCfg.size, 512⟩
def uartCfg : Section := ⟨regCfg.ofs + regCfg.size, 512⟩
def netCfg : Section := ⟨uartCfg.ofs + uartCfg.size, 256⟩
def gprsNetCfg : Section := ⟨netCfg.ofs + netCfg.size, 512⟩
def gprsWorkCfg : Section := ⟨gprsNetCfg.ofs + gprsNetCfg.size, 512⟩
def tcpipCfg : Section := ⟨gprsWorkCfg.ofs + gprsWorkCfg.size, 2 * 1024⟩
def diCfg : Section := ⟨tcpipCfg.ofs + tcpipCfg.size, 2 * 1024⟩
def doCfg : Section := ⟨diCfg.ofs + diCfg.size, 2 * 1024⟩
def analogCfg : Section := ⟨doCfg.ofs + doCfg.size, 1024⟩
def authCfg : Section := ⟨analogCfg.ofs + analogCfg.size, 512⟩
def storageCfg : Section := ⟨authCfg.ofs + authCfg.size, 256⟩
def hostCfg : Section := ⟨storageCfg.ofs + storageCfg.size, 256⟩
def zigbeeCfg : Section := ⟨hostCfg.ofs + hostCfg.size, 256⟩
def xferUartCfg : Section := ⟨zigbeeCfg.ofs + zigbeeCfg.size, 2 * 1024⟩

/-- The sections of `board_cfg.h`. -/
def sections : List Section :=
  [cfgInfo, devCfg, regCfg, uartCfg, netCfg, gprsNetCfg, gprsWorkCfg, tcpipCfg, diCfg, doCfg,
    analogCfg, authCfg, storageCfg, hostCfg, zigbeeCfg, xferUartCfg]

/-- `CFG_MAGIC` -/
def cfgMagic : UInt32 := 0xD6BCF4ED

/-! ## The file -/

/-- What `lseek` does behind the end of a file that is open for writing: it stops there, or the
    file grows, by bytes that are the file system's (`f_lseek` of `ff.c` leaves in them what the
    clusters held). -/
inductive SeekEnd where
  | stops
  | extends (gap : Nat → UInt8)

/-- `lseek(fd, ofs, SEEK_SET)`: the file, and the position. -/
def lseek (seek : SeekEnd) (file : List UInt8) (ofs : Nat) : List UInt8 × Nat :=
  if ofs ≤ file.length then (file, ofs)
  else
    match seek with
    | .stops => (file, file.length)
    | .extends gap => (file ++ (List.range' file.length (ofs - file.length)).map gap, ofs)

/-- `_empty_buffer` -/
def emptyBuffer : List UInt8 := List.replicate 128 0

/-- The loop that fills the file up with zeros. -/
def writeEmpty : Nat → List UInt8 → Nat → Nat → List UInt8
  | 0, file, _, _ => file
  | fuel + 1, file, pos, remain =>
      if 0 < remain then
        let wlen := if 128 < remain then 128 else remain
        writeEmpty fuel (writeAt file pos (emptyBuffer.take wlen)) (pos + wlen) (remain - wlen)
      else file

/-- `board_cfg_write` on the content of the file, none where there is no file. -/
def boardCfgWrite (seek : SeekEnd) (file : Option (List UInt8)) (ofs : Nat)
    (pcfg : List UInt8) : List UInt8 × Bool :=
  let (file, pos) := lseek seek (file.getD []) ofs
  let file := if pos < ofs then writeEmpty (ofs - pos) file pos (ofs - pos) else file
  let (file, pos) := lseek seek file ofs
  if pos = ofs then
    let usCheck := usMBCRC16 pcfg (UInt16.ofNat pcfg.length)
    let file := writeAt file ofs (bytes32 cfgMagic)
    let file := writeAt file (ofs + 4) pcfg
    (writeAt file (ofs + 4 + pcfg.length) (bytes16 usCheck), true)
  else (file, false)

/-- `board_cfg_read`: the data, where it returns `RT_TRUE`. A file that is open for reading does
    not grow; `clips` tells whether the seek stops at its end. -/
def boardCfgRead (clips : Bool) (file : Option (List UInt8)) (ofs len : Nat) :
    Option (List UInt8) :=
  match file with
  | some file =>
      let pos := if ofs ≤ file.length ∨ clips = false then ofs else file.length
      if pos = ofs then
        if word32 (slice file ofs 4) = cfgMagic then
          let pcfg := slice file (ofs + 4) len
          if pcfg.length = len then
            let usCheck := slice file (ofs + 4 + len) 2
            if usCheck.length = 2 then
              if word16 usCheck = usMBCRC16 pcfg (UInt16.ofNat len) then some pcfg else none
            else none
          else none
        else none
      else none
  | none => none

/-! ## Records -/

/-- What is written to a section. -/
def record (pcfg : List UInt8) : List UInt8 :=
  bytes32 cfgMagic ++ pcfg ++ bytes16 (usMBCRC16 pcfg (UInt16.ofNat pcfg.length))

/-- The bytes that `board_cfg_read` takes for `len` bytes of data with their check. -/
def IsRecord (bytes : List UInt8) (len : Nat) : Prop :=
  word32 (slice bytes 0 4) = cfgMagic ∧
    word16 (slice bytes (4 + len) 2) = usMBCRC16 (slice bytes 4 len) (UInt16.ofNat len)

instance (bytes : List UInt8) (len : Nat) : Decidable (IsRecord bytes len) := by
  unfold IsRecord
  infer_instance

theorem length_record (pcfg : List UInt8) : (record pcfg).length = pcfg.length + 6 := by
  have h4 : (bytes32 cfgMagic).length = 4 := rfl
  have h2 : (bytes16 (usMBCRC16 pcfg (UInt16.ofNat pcfg.length))).length = 2 := rfl
  unfold record
  rw [List.length_append, List.length_append, h4, h2]
  omega

theorem slice_record (pcfg : List UInt8) :
    slice (record pcfg) 0 4 = bytes32 cfgMagic ∧ slice (record pcfg) 4 pcfg.length = pcfg ∧
      slice (record pcfg) (4 + pcfg.length) 2 =
        bytes16 (usMBCRC16 pcfg (UInt16.ofNat pcfg.length)) := by
  have h4 : (bytes32 cfgMagic).length = 4 := rfl
  unfold slice record
  refine ⟨?_, ?_, ?_⟩
  · rw [List.drop_zero, List.append_assoc, List.take_left' h4]
  · rw [List.append_assoc, List.drop_left' h4, List.take_left]
  · rw [List.drop_left' (by rw [List.length_append, h4])]
    rfl

/-- A section that lies in the file. -/
theorem boardCfgRead_slice (clips : Bool) {file bytes : List UInt8} {ofs size len : Nat}
    (hbytes : slice file ofs size = bytes) (hsize : bytes.length = size) (hlen : len + 6 ≤ size) :
    boardCfgRead clips (some file) ofs len =
      if IsRecord bytes len then some (slice bytes 4 len) else none := by
  subst hbytes
  have hle := le_of_length_slice hsize (by omega)
  have h0 : slice file ofs 4 = slice (slice file ofs size) 0 4 := by
    rw [slice_slice (by omega), Nat.add_zero]
  have h4 : slice file (ofs + 4) len = slice (slice file ofs size) 4 len := by
    rw [slice_slice (by omega)]
  have hcheck : slice file (ofs + 4 + len) 2 = slice (slice file ofs size) (4 + len) 2 := by
    rw [slice_slice (by omega), Nat.add_assoc]
  unfold boardCfgRead
  dsimp only
  rw [if_pos (Or.inl (show ofs ≤ file.length by omega)), if_pos rfl,
    if_pos (length_slice (show ofs + 4 + len ≤ file.length by omega)),
    if_pos (length_slice (show ofs + 4 + len + 2 ≤ file.length by omega)), h0, h4, hcheck]
  split
  · next hmagic =>
    split
    · next hcrc => rw [if_pos (show IsRecord (slice file ofs size) len from ⟨hmagic, hcrc⟩)]
    · next hcrc => rw [if_neg fun h : IsRecord (slice file ofs size) len => hcrc h.2]
  · next hmagic => rw [if_neg fun h : IsRecord (slice file ofs size) len => hmagic h.1]

/-- A section that the file does not reach. -/
theorem boardCfgRead_beyond (clips : Bool) {file : List UInt8} {ofs : Nat} (len : Nat)
    (h : file.length ≤ ofs) : boardCfgRead clips (some file) ofs len = none := by
  have hmagic : ¬ word32 (slice file ofs 4) = cfgMagic := by
    rw [slice_of_length_le h]
    decide
  unfold boardCfgRead
  dsimp only
  rw [if_neg hmagic, ite_self]

theorem isRecord_record (pcfg : List UInt8) : IsRecord (record pcfg) pcfg.length := by
  obtain ⟨h0, h4, hcheck⟩ := slice_record pcfg
  unfold IsRecord
  rw [h0, h4, hcheck]
  refine ⟨rfl, ?_⟩
  have hword := word16_bytes16 (usMBCRC16 pcfg (UInt16.ofNat pcfg.length)) []
  rwa [List.append_nil] at hword

/-! ## One write -/

/-- The bytes at `pos` of what a seek and the zeros behind it add to a file. -/
def fillOf (seek : SeekEnd) (pos n : Nat) : List UInt8 :=
  match seek with
  | .stops => List.replicate n 0
  | .extends gap => (List.range' pos n).map gap

theorem length_fillOf (seek : SeekEnd) (pos n : Nat) : (fillOf seek pos n).length = n := by
  cases seek with
  | stops => exact List.length_replicate
  | «extends» gap =>
    unfold fillOf
    rw [List.length_map, List.length_range']

theorem slice_fillOf (seek : SeekEnd) (pos : Nat) {n pos' n' : Nat} (h : pos' + n' ≤ n) :
    slice (fillOf seek pos n) pos' n' = fillOf seek (pos + pos') n' := by
  unfold slice
  cases seek with
  | stops =>
    show ((List.replicate n (0 : UInt8)).drop pos').take n' = List.replicate n' 0
    rw [List.drop_replicate, List.take_replicate, Nat.min_eq_left (by omega)]
  | «extends» gap =>
    show (((List.range' pos n).map gap).drop pos').take n' = (List.range' (pos + pos') n').map gap
    have hrange : List.range' pos n =
        List.range' pos pos' ++ List.range' (pos + pos') n' ++
          List.range' (pos + pos' + n') (n - pos' - n') := by
      rw [List.append_assoc, List.range'_append_1, List.range'_append_1]
      congr 1
      omega
    rw [hrange, List.map_append, List.map_append, List.append_assoc,
      List.drop_left' (by rw [List.length_map, List.length_range']),
      List.take_left' (by rw [List.length_map, List.length_range'])]

theorem writeEmpty_eq (fuel : Nat) (file : List UInt8) (remain : Nat) (h : remain ≤ fuel) :
    writeEmpty fuel file file.length remain = file ++ List.replicate remain 0 := by
  induction fuel generalizing file remain with
  | zero =>
    rw [Nat.le_zero.mp h]
    exact (List.append_nil _).symm
  | succ fuel ih =>
    unfold writeEmpty
    split
    · next hpos =>
      dsimp only
      have hlen : (if 128 < remain then 128 else remain) ≤ 128 ∧
          (if 128 < remain then 128 else remain) ≤ remain ∧
            0 < (if 128 < remain then 128 else remain) := by
        split <;> omega
      generalize (if 128 < remain then 128 else remain) = wlen at hlen ⊢
      obtain ⟨hle, hle', hpos'⟩ := hlen
      have hempty : emptyBuffer.take wlen = List.replicate wlen 0 := by
        unfold emptyBuffer
        rw [List.take_replicate, Nat.min_eq_left hle]
      rw [writeAt_length, hempty]
      have hend : file.length + wlen = (file ++ List.replicate wlen (0 : UInt8)).length := by
        rw [List.length_append, List.length_replicate]
      rw [hend, ih _ _ (by omega), List.append_assoc, ← List.replicate_add,
        Nat.add_sub_cancel' hle']
    · next hzero =>
      rw [Nat.eq_zero_of_not_pos hzero]
      exact (List.append_nil _).symm

/-- The file is filled up to the section, and the record stands in it. -/
theorem boardCfgWrite_eq (seek : SeekEnd) (file : Option (List UInt8)) (ofs : Nat)
    (pcfg : List UInt8) :
    boardCfgWrite seek file ofs pcfg =
      (writeAt (file.getD [] ++ fillOf seek (file.getD []).length (ofs - (file.getD []).length)) ofs
        (record pcfg), true) := by
  set old := file.getD [] with hold
  have hseek : ∀ l : List UInt8, ofs ≤ l.length → lseek seek l ofs = (l, ofs) := fun l h => by
    unfold lseek
    rw [if_pos h]
  have hfill : (let r := lseek seek old ofs
      if r.2 < ofs then writeEmpty (ofs - r.2) r.1 r.2 (ofs - r.2) else r.1) =
        old ++ fillOf seek old.length (ofs - old.length) := by
    by_cases hle : ofs ≤ old.length
    · have hnil : fillOf seek old.length (ofs - old.length) = [] := by
        apply List.eq_nil_of_length_eq_zero
        rw [length_fillOf, Nat.sub_eq_zero_of_le hle]
      rw [hseek old hle, hnil, List.append_nil]
      exact if_neg (Nat.lt_irrefl ofs)
    · unfold lseek
      rw [if_neg hle]
      cases seek with
      | stops =>
        dsimp only
        rw [if_pos (Nat.lt_of_not_le hle), writeEmpty_eq _ _ _ (Nat.le_refl _)]
        rfl
      | «extends» gap => exact if_neg (Nat.lt_irrefl ofs)
  have hlen : ofs ≤ (old ++ fillOf seek old.length (ofs - old.length)).length := by
    rw [List.length_append, length_fillOf]
    omega
  have hrecord : ∀ l : List UInt8, ofs ≤ l.length →
      writeAt (writeAt (writeAt l ofs (bytes32 cfgMagic)) (ofs + 4) pcfg) (ofs + 4 + pcfg.length)
        (bytes16 (usMBCRC16 pcfg (UInt16.ofNat pcfg.length))) = writeAt l ofs (record pcfg) :=
    fun l h => by
      have hfour : ofs + 4 = ofs + (bytes32 cfgMagic).length := rfl
      have hdata : ofs + (bytes32 cfgMagic).length + pcfg.length =
          ofs + (bytes32 cfgMagic ++ pcfg).length := by
        rw [List.length_append, Nat.add_assoc]
      rw [hfour, writeAt_writeAt _ _ h, hdata, writeAt_writeAt _ _ h]
      rfl
  unfold boardCfgWrite
  dsimp only at hfill ⊢
  rw [← hold, hfill, hseek _ hlen, if_pos rfl, hrecord _ hlen]

end K64Gateway.Board
