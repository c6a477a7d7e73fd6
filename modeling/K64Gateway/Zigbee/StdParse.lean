import K64Gateway.Lib.LittleEndian
import K64Gateway.Lib.Reading
import K64Gateway.Board.RtCrc32
import K64Gateway.Zigbee.Registry

/-
  The parser of the Zigbee frames: `_zgbparse_thread` and `__check_buffer` of
  `drivers/zigbee/zigbee.c`, `zgb_std_parse_buffer` and what `zgb_mnode_insert` reads, of
  `board/zgb_std.c`.

  The buffer of the queue element lies at address 0, its bytes from `len` on are whatever the memory
  holds. Proved: exactly when the parser stays in the element and takes no response whose addresses
  go beyond its message (`frameSafe_iff`): no length is compared with that of the element but that of
  the head, and the count of a response with none.
-/

namespace K64Gateway.Zigbee

open LittleEndian Reading RtCrc32

/-! ## Frames -/

/-- `zgb_std_head_t` -/
structure Head where
  pre : UInt32
  npre : UInt32
  ver : UInt8
  msglen : UInt16
  seq : UInt8
  packtype : UInt8
  msgtype : UInt8

/-- `sizeof(zgb_std_head_t)` -/
abbrev sizeofHead : Nat := 14

/-- `sizeof(zgb_std_scan_req_t)` -/
abbrev sizeofScanReq : Nat := 11

/-- `ZGB_OFS(zgb_std_scan_t, data)` -/
abbrev ofsData : Nat := 14

def Head.ofBytes (m : List UInt8) : Head where
  pre := word32 m
  npre := word32 (m.drop 4)
  ver := m.getD 8 0
  msglen := word16 (m.drop 9)
  seq := m.getD 11 0
  packtype := m.getD 12 0
  msgtype := m.getD 13 0

/-- `ZGB_STD_PRE` -/
def stdPre : UInt32 := 0x9AABDEEF

/-- `ZGB_STD_NPRE` -/
def stdNpre : UInt32 := ~~~stdPre

/-- What `__check_buffer` asks of a head. -/
def Head.Known (head : Head) : Prop :=
  head.pre = stdPre ∧ head.npre = stdNpre ∧ head.ver = 0 ∧ 4 ≤ head.msglen.toNat

instance (head : Head) : Decidable head.Known := inferInstanceAs (Decidable (_ ∧ _))

/-- `ZGB_STD_FA_RSP` and `ZGB_STD_MSG_SCAN` -/
def Head.ScanRsp (head : Head) : Prop := head.packtype = 3 ∧ head.msgtype = 1

instance (head : Head) : Decidable head.ScanRsp := inferInstanceAs (Decidable (_ ∧ _))

/-- `ZGB_STD_FA_REQ` and `ZGB_STD_MSG_SCAN` -/
def Head.ScanReq (head : Head) : Prop := head.packtype = 2 ∧ head.msgtype = 1

instance (head : Head) : Decidable head.ScanReq := inferInstanceAs (Decidable (_ ∧ _))

/-! ## Parsing -/

/-- `__check_buffer` -/
def checkBuffer : Reading UInt8 (Head × Bool) := do
  let head := Head.ofBytes (← cells 0 sizeofHead)
  if head.Known then
    let crc := word32 (← cells (head.msglen.toNat - 4) 4)
    let data ← cells 0 (head.msglen.toNat - 4)
    return (head, decide (crc = ulRTCrc32 0 data))
  else return (head, false)

/-- The record at the address `info`. -/
def Scan.at (mem : Nat → UInt8) (info : Nat) : Scan where
  workmode := mem info
  netid := word16 ((List.range' (info + 1) 2).map mem)
  mac := ⟨(List.range' (info + 3) 8).map mem, by rw [List.length_map, List.length_range']⟩
  rssi := mem (info + 11)
  type := mem (info + 12)
  cnt := mem (info + 13)
  data i := mem (info + ofsData + i)

/-- What `_snode_insert` reads of the record at `info`. -/
def snodeInsertReads (info : Nat) : Reading UInt8 Unit := do
  let type ← cell (info + 12)
  let cnt ← cell (info + 13)
  if type = 0 ∨ type = 1 then
    let _ ← cells (info + ofsData) cnt.toNat
    return
  else return

/-- What `zgb_mnode_insert` reads of the record at `info`; `known` are the nodes that it finds. -/
def zgbMnodeInsertReads (known : UInt16 → Bool) (info : Nat) : Reading UInt8 Unit := do
  let netid := word16 (← cells (info + 1) 2)
  let _ ← cell info
  let _ ← cell (info + 11)
  if known netid then snodeInsertReads info
  else
    let _ ← cells (info + 3) 8
    snodeInsertReads info

/-- `zgb_std_parse_buffer`, with the record that it inserts. -/
def zgbStdParseBuffer (known : UInt16 → Bool) (head : Head) (buffer : Nat) :
    Reading UInt8 (Option Scan) := do
  if head.ScanRsp then
    zgbMnodeInsertReads known buffer
    let info ← view (Scan.at · buffer)
    return some info
  else return none

/-- What becomes of an element: nothing, an insertion, or a response to a request. -/
inductive Parsed where
  | none
  | insert (info : Scan)
  | respond (netid : UInt16) (type : UInt8)

/-- A scan request, of an end device or a router with the destination `dstAddr`. -/
def parseReq (dstAddr : UInt16) : Reading UInt8 Parsed := do
  let req ← cells sizeofHead sizeofScanReq
  let netid := word16 req
  if dstAddr = netid then return .respond netid (req.getD 10 0)
  else return .none

/-- An element that `__check_buffer` accepts goes on by its type. -/
def parseChecked (workMode : UInt8) (dstAddr : UInt16) (known : UInt16 → Bool) (head : Head) :
    Reading UInt8 Parsed := do
  if head.packtype = 1 ∨ head.packtype = 3 then
    let info ← zgbStdParseBuffer known head sizeofHead
    return (info.map Parsed.insert).getD .none
  else if head.ScanReq ∧ (workMode = 0 ∨ workMode = 1) then parseReq dstAddr
  else return .none

/-- `_zgbparse_thread` on an element of `len` bytes. -/
def zgbparse (workMode : UInt8) (dstAddr : UInt16) (known : UInt16 → Bool) (len : Nat) :
    Reading UInt8 Parsed := do
  if sizeofHead + 4 ≤ len then
    let _ ← cells 0 sizeofHead
    let (head, ok) ← checkBuffer
    if ok then parseChecked workMode dstAddr known head
    else return .none
  else return .none

/-! ## Staying in the frame -/

/-- The head of the element. -/
def headAt (mem : Nat → UInt8) : Head := .ofBytes ((List.range' 0 sizeofHead).map mem)

/-- The announced message ends with its own check. -/
def CrcOk (mem : Nat → UInt8) : Prop :=
  let n := (headAt mem).msglen.toNat - 4
  word32 ((List.range' n 4).map mem) = ulRTCrc32 0 ((List.range' 0 n).map mem)

/-- Only the element is read, and an inserted response lies before the check of its message. -/
structure FrameSafe (workMode : UInt8) (dstAddr : UInt16) (known : UInt16 → Bool) (len : Nat)
    (mem : Nat → UInt8) : Prop where
  below : Below len mem (zgbparse workMode dstAddr known len)
  inserted : ∀ info, (zgbparse workMode dstAddr known len).val mem = .insert info →
    sizeofHead + ofsData + info.cnt.toNat + 4 ≤ (headAt mem).msglen.toNat

/-- The lengths agree: the message is no longer than the element, a response no longer than its
    message, and a request is complete. -/
structure Fits (workMode : UInt8) (len : Nat) (mem : Nat → UInt8) : Prop where
  msglen : (headAt mem).msglen.toNat ≤ len
  rsp : CrcOk mem → (headAt mem).ScanRsp →
    sizeofHead + ofsData + (mem (sizeofHead + 13)).toNat + 4 ≤ (headAt mem).msglen.toNat
  req : CrcOk mem → (headAt mem).ScanReq → workMode = 0 ∨ workMode = 1 →
    sizeofHead + sizeofScanReq ≤ len

instance (mem : Nat → UInt8) : Decidable (CrcOk mem) := inferInstanceAs (Decidable (_ = _))

variable {mem : Nat → UInt8} {len : Nat}

theorem ofBytes_range' (mem : Nat → UInt8) :
    Head.ofBytes ((List.range' 0 sizeofHead).map mem) = headAt mem := rfl

theorem val_checkBuffer (mem : Nat → UInt8) :
    checkBuffer.val mem = (headAt mem, decide ((headAt mem).Known ∧ CrcOk mem)) := by
  unfold checkBuffer
  rw [val_bind, val_cells]
  change val (if (headAt mem).Known then _ else _) mem = _
  rw [val_ite]
  by_cases hknown : (headAt mem).Known
  · rw [if_pos hknown]
    simp only [hknown, true_and]
    rfl
  · rw [if_neg hknown]
    simp only [hknown, false_and, decide_false]
    rfl

theorem below_checkBuffer (hlen : 18 ≤ len) :
    Below len mem checkBuffer ↔ ((headAt mem).Known → (headAt mem).msglen.toNat ≤ len) := by
  unfold checkBuffer
  simp only [below_bind, below_ite, below_cells, below_pure, and_true]
  simp only [val_cells, ofBytes_range', sizeofHead]
  have hpos : (headAt mem).Known → 4 ≤ (headAt mem).msglen.toNat := fun hknown => hknown.2.2.2
  constructor
  · rintro ⟨-, hmsg, -⟩ hknown
    have := (hmsg hknown).1
    have := hpos hknown
    omega
  · intro h
    refine ⟨by omega, fun hknown => ?_, fun _ => trivial⟩
    have := h hknown
    have := hpos hknown
    exact ⟨by omega, by omega⟩

theorem below_snodeInsertReads {info : Nat} (h : info + 14 + (mem (info + 13)).toNat ≤ len) :
    Below len mem (snodeInsertReads info) := by
  unfold snodeInsertReads
  simp only [below_ite, below_bind, below_cell, below_cells, below_pure, and_true]
  simp only [val_cell, ofsData]
  exact ⟨by omega, by omega, fun _ => .inr h, fun _ => trivial⟩

theorem below_zgbMnodeInsertReads (known : UInt16 → Bool) {info : Nat}
    (h : info + 14 + (mem (info + 13)).toNat ≤ len) :
    Below len mem (zgbMnodeInsertReads known info) := by
  have hsnode := below_snodeInsertReads h
  unfold zgbMnodeInsertReads
  simp only [below_ite, below_bind, below_cell, below_cells, hsnode, and_true]
  exact ⟨by omega, by omega, by omega, fun _ => trivial, fun _ => by omega⟩

theorem below_zgbStdParseBuffer (known : UInt16 → Bool) {head : Head} {buffer : Nat}
    (h : head.ScanRsp → buffer + 14 + (mem (buffer + 13)).toNat ≤ len) :
    Below len mem (zgbStdParseBuffer known head buffer) := by
  unfold zgbStdParseBuffer
  simp only [below_ite, below_bind, below_view, below_pure, and_true]
  exact ⟨fun hrsp => below_zgbMnodeInsertReads known (h hrsp), fun _ => trivial⟩

theorem val_zgbStdParseBuffer (known : UInt16 → Bool) (head : Head) (buffer : Nat) :
    (zgbStdParseBuffer known head buffer).val mem =
      if head.ScanRsp then some (Scan.at mem buffer) else none := by
  unfold zgbStdParseBuffer
  rw [val_ite]
  rfl

theorem below_parseReq (dstAddr : UInt16) :
    Below len mem (parseReq dstAddr) ↔ 25 ≤ len := by
  unfold parseReq
  simp only [below_ite, below_bind, below_cells, below_pure, sizeofHead, sizeofScanReq,
    implies_true, and_true]
  omega

theorem val_parseReq_ne_insert (dstAddr : UInt16) (info : Scan) :
    (parseReq dstAddr).val mem ≠ .insert info := by
  unfold parseReq
  simp only [val_bind, val_ite]
  split <;> exact nofun

/-- A response is taken as it lies there, and nothing else is. -/
theorem val_parseChecked_insert_iff (workMode : UInt8) (dstAddr : UInt16) (known : UInt16 → Bool)
    (head : Head) (info : Scan) :
    (parseChecked workMode dstAddr known head).val mem = .insert info ↔
      head.ScanRsp ∧ info = Scan.at mem sizeofHead := by
  unfold parseChecked
  rw [val_ite]
  split
  · simp only [val_bind, val_pure, val_zgbStdParseBuffer]
    by_cases hrsp : head.ScanRsp
    · simp [hrsp, eq_comm]
    · simp [hrsp]
  · next hpack =>
    have hrsp : ¬ head.ScanRsp := fun h => hpack (.inr h.1)
    simp only [hrsp, false_and, iff_false, val_ite]
    split
    · exact val_parseReq_ne_insert dstAddr info
    · exact nofun

theorem below_parseChecked {workMode : UInt8} {dstAddr : UInt16} {known : UInt16 → Bool}
    {head : Head} (hrsp : head.ScanRsp → sizeofHead + 14 + (mem (sizeofHead + 13)).toNat ≤ len) :
    Below len mem (parseChecked workMode dstAddr known head) ↔
      (head.ScanReq → workMode = 0 ∨ workMode = 1 → 25 ≤ len) := by
  have hparse := below_zgbStdParseBuffer known hrsp
  unfold parseChecked
  simp only [below_ite, below_bind, below_pure, below_parseReq, hparse, and_true, implies_true,
    true_and, and_imp]
  constructor
  · intro h hreq hmode
    have hpack : ¬ (head.packtype = 1 ∨ head.packtype = 3) := by
      rw [hreq.1]
      decide
    exact h hpack hreq hmode
  · exact fun h _ => h

/-! ## Exactly when -/

section
variable {workMode : UInt8} {dstAddr : UInt16} {known : UInt16 → Bool}

theorem val_zgbparse (hlen : sizeofHead + 4 ≤ len) :
    (zgbparse workMode dstAddr known len).val mem =
      if (headAt mem).Known ∧ CrcOk mem then
        (parseChecked workMode dstAddr known (headAt mem)).val mem
      else .none := by
  unfold zgbparse
  simp only [hlen, if_true, val_bind, val_ite, val_checkBuffer, val_pure, decide_eq_true_eq]

theorem below_zgbparse (hlen : sizeofHead + 4 ≤ len) :
    Below len mem (zgbparse workMode dstAddr known len) ↔
      ((headAt mem).Known → (headAt mem).msglen.toNat ≤ len) ∧
        ((headAt mem).Known ∧ CrcOk mem →
          Below len mem (parseChecked workMode dstAddr known (headAt mem))) := by
  have hhead : 0 + sizeofHead ≤ len := by omega
  unfold zgbparse
  simp only [hlen, if_true, below_bind, below_ite, below_cells, below_checkBuffer hlen, below_pure,
    val_checkBuffer, decide_eq_true_eq, hhead, or_true, true_and, implies_true, and_true]

/-- An element is taken if its head is known and its check is right. -/
theorem val_zgbparse_insert_iff (hlen : sizeofHead + 4 ≤ len) (info : Scan) :
    (zgbparse workMode dstAddr known len).val mem = .insert info ↔
      ((headAt mem).Known ∧ CrcOk mem) ∧ (headAt mem).ScanRsp ∧ info = Scan.at mem sizeofHead := by
  rw [val_zgbparse hlen]
  by_cases hok : (headAt mem).Known ∧ CrcOk mem
  · rw [if_pos hok, val_parseChecked_insert_iff]
    exact (and_iff_right hok).symm
  · rw [if_neg hok]
    exact iff_of_false nofun fun h => hok h.1

theorem FrameSafe.fits (h : FrameSafe workMode dstAddr known len mem) (hlen : sizeofHead + 4 ≤ len)
    (hknown : (headAt mem).Known) : Fits workMode len mem := by
  obtain ⟨hmsg, hchecked⟩ := (below_zgbparse hlen).mp h.below
  have hmsglen := hmsg hknown
  have hrsp : CrcOk mem → (headAt mem).ScanRsp →
      sizeofHead + ofsData + (mem (sizeofHead + 13)).toNat + 4 ≤ (headAt mem).msglen.toNat :=
    fun hcrc hscan => h.inserted _ ((val_zgbparse_insert_iff hlen _).mpr
      ⟨⟨hknown, hcrc⟩, hscan, rfl⟩)
  refine ⟨hmsglen, hrsp, fun hcrc => ?_⟩
  refine (below_parseChecked fun hscan => ?_).mp (hchecked ⟨hknown, hcrc⟩)
  have hend := hrsp hcrc hscan
  simp only [sizeofHead, ofsData] at hend ⊢
  omega

theorem Fits.below_parseChecked (h : Fits workMode len mem) (hcrc : CrcOk mem) :
    Below len mem (parseChecked workMode dstAddr known (headAt mem)) := by
  have hmsglen := h.msglen
  refine (Zigbee.below_parseChecked fun hscan => ?_).mpr (h.req hcrc)
  have hend := h.rsp hcrc hscan
  simp only [sizeofHead, ofsData] at hend ⊢
  omega

end

theorem frameSafe_iff (workMode : UInt8) (dstAddr : UInt16) (known : UInt16 → Bool) (len : Nat)
    (mem : Nat → UInt8) :
    FrameSafe workMode dstAddr known len mem ↔
      (sizeofHead + 4 ≤ len → (headAt mem).Known → Fits workMode len mem) := by
  refine ⟨fun h hlen hknown => h.fits hlen hknown, fun h => ?_⟩
  by_cases hlen : sizeofHead + 4 ≤ len
  · refine ⟨(below_zgbparse hlen).mpr ⟨fun hknown => (h hlen hknown).msglen, fun hok =>
      (h hlen hok.1).below_parseChecked hok.2⟩, fun info hinfo => ?_⟩
    obtain ⟨⟨hknown, hcrc⟩, hscan, rfl⟩ := (val_zgbparse_insert_iff hlen info).mp hinfo
    exact (h hlen hknown).rsp hcrc hscan
  · have hskip : zgbparse workMode dstAddr known len = pure .none := if_neg hlen
    refine ⟨by rw [hskip]; exact below_pure _, fun info hinfo => ?_⟩
    rw [hskip] at hinfo
    exact absurd hinfo nofun

/-- A head that announces 100 bytes, in an element of 18. -/
def longMessage : List UInt8 :=
  [0xEF, 0xDE, 0xAB, 0x9A, 0x10, 0x21, 0x54, 0x65, 0, 100, 0, 0, 3, 1, 0, 0, 0, 0]

theorem longMessage_not_safe : ¬ ∀ (workMode : UInt8) (dstAddr : UInt16) (known : UInt16 → Bool)
    (len : Nat) (mem : Nat → UInt8), FrameSafe workMode dstAddr known len mem := by
  intro h
  have hfits := (h 2 0 (fun _ => false) 18 fun i => longMessage.getD i 0).fits (by decide) (by decide)
  exact absurd hfits.msglen (by decide)

end K64Gateway.Zigbee
