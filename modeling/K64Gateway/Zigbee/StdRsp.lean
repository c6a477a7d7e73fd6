import K64Gateway.Backup.Restore
import K64Gateway.Lib.FileImage
import K64Gateway.Zigbee.RegistryRuns
import K64Gateway.Zigbee.StdParse

/-
  The response to a scan, `eZigbeeSendStdLstRsp` of `drivers/zigbee/zigbee.c`, and what the
  coordinator makes of it.

  The response tells the node's own slave address and the lists of the serial ports that it sends on
  to. Proved: exactly when the coordinator's registry holds that list under the node's network
  address and the requested type (`lstRsp_roundTrip_iff`). The type of the record is always that of Modbus
  RTU, and the addresses are counted in a byte.
-/

namespace K64Gateway.Zigbee

open LittleEndian Reading RtCrc32 Backup
open FileImage (slice)

/-! ## The node -/

/-- `g_zigbee_cfg`, `g_xfer_uart_cfgs` and `g_xfer_net_dst_uart_dtu` -/
structure NodeCfg where
  zigbee : ZigbeeCfg
  xferUart : Fin boardUartMax → XferUartCfg
  dtu : Fin boardUartMax → Bool

/-- The condition on a serial port, which is tested twice. -/
def NodeCfg.sends (c : NodeCfg) (i : Fin boardUartMax) : Bool :=
  (c.xferUart i).enable && c.dtu i && decide (0 < (c.xferUart i).count.val)

section
variable {m : Type → Type} [Monad m] {σ : Type}

/-- The inner loop over a serial port, with `body` on every address. -/
def NodeCfg.overPort (c : NodeCfg) (body : σ → UInt8 → m σ) (s : σ) (i : Fin boardUartMax) : m σ :=
  if c.sends i then
    (List.range (c.xferUart i).count.val).foldlM (fun s j => body s ((c.xferUart i).addrs j)) s
  else pure s

/-- The own address, then the two nested loops: they run once to count and once to copy. -/
def NodeCfg.overAddresses (c : NodeCfg) (body : σ → UInt8 → m σ) (s : σ) : m σ := do
  let s ← if 0 < c.zigbee.btSlaveAddr then body s c.zigbee.btSlaveAddr else pure s
  (List.finRange boardUartMax).foldlM (c.overPort body) s

end

/-- `cnt`, a byte. -/
def NodeCfg.count (c : NodeCfg) : UInt8 :=
  Id.run (c.overAddresses (fun cnt _ => pure (cnt + 1)) 0)

/-- `addr[cnt++] = b` in a block of memory; `none` is a write behind the block. -/
def put (s : List UInt8 × UInt8) (b : UInt8) : Option (List UInt8 × UInt8) :=
  if s.2.toNat < s.1.length then some (s.1.set s.2.toNat b, s.2 + 1) else none

/-- The block with the addresses and their count; `alloc` tells whether `rt_calloc` returns one. -/
def NodeCfg.block (c : NodeCfg) (alloc : Bool) : Option (Option (List UInt8) × UInt8) :=
  let cnt := c.count
  if 0 < cnt then
    if alloc then
      (c.overAddresses put (List.replicate cnt.toNat 0, 0)).map fun s => (some s.1, s.2)
    else some (none, 0)
  else some (none, cnt)

/-! ## The response -/

/-- A head in memory. -/
def Head.bytes (head : Head) : List UInt8 :=
  bytes32 head.pre ++ bytes32 head.npre ++ [head.ver] ++ bytes16 head.msglen ++
    [head.seq, head.packtype, head.msgtype]

/-- A record in memory, up to its addresses. -/
def Scan.bytes (info : Scan) : List UInt8 :=
  [info.workmode] ++ bytes16 info.netid ++ info.mac.val ++ [info.rssi, info.type, info.cnt]

/-- The head of a response with `cnt` addresses. -/
def rspHead (cnt : UInt8) : Head where
  pre := stdPre
  npre := stdNpre
  ver := 0
  msglen := UInt16.ofNat (sizeofHead + ofsData + cnt.toNat + 4)
  seq := 0
  packtype := 3
  msgtype := 1

/-- The record of a response; the addresses are sent from their block. -/
def NodeCfg.rspInfo (c : NodeCfg) (rssi cnt : UInt8) : Scan where
  workmode := c.zigbee.workMode
  netid := c.zigbee.addr
  mac := c.zigbee.mac
  rssi := rssi
  type := 0
  cnt := cnt
  data _ := 0

/-- What a request leads to; `fault` is a write behind the block. -/
inductive LstRsp where
  | notSent
  | fault
  | sent (pieces : List (List UInt8))

/-- The pieces that are sent, each checked on from those before it. -/
def rspPieces (head : Head) (info : Scan) (addr : Option (List UInt8)) (cnt : UInt8) :
    List (List UInt8) :=
  let crc := ulRTCrc32 0 head.bytes
  let crc := ulRTCrc32 crc info.bytes
  if 0 < cnt ∧ addr.isSome then
    let lst := (addr.getD []).take cnt.toNat
    let crc := ulRTCrc32 crc lst
    [head.bytes, info.bytes, lst, bytes32 crc]
  else [head.bytes, info.bytes, bytes32 crc]

/-- `eZigbeeSendStdLstRsp`; `setDst` tells whether the module takes the destination. -/
def eZigbeeSendStdLstRsp (c : NodeCfg) (setDst alloc : Bool) (rssi : UInt8) (addr : UInt16)
    (type : UInt8) : LstRsp :=
  if addr = c.zigbee.dstAddr ∨ setDst then
    if c.zigbee.nProtoType.val = type.toNat then
      match c.block alloc with
      | some (addr, cnt) => .sent (rspPieces (rspHead cnt) (c.rspInfo rssi cnt) addr cnt)
      | none => .fault
    else .notSent
  else .notSent

/-! ## What is asked of it -/

/-- The list that a serial port sends on to. -/
def NodeCfg.portAddrs (c : NodeCfg) (i : Fin boardUartMax) : List UInt8 :=
  if c.sends i then (c.xferUart i).listed else []

/-- The own address, if it is not zero, then the lists in the order of the ports. -/
def NodeCfg.addresses (c : NodeCfg) : List UInt8 :=
  (if 0 < c.zigbee.btSlaveAddr then [c.zigbee.btSlaveAddr] else []) ++
    (List.finRange boardUartMax).flatMap c.portAddrs

/-- A queue element with the bytes of the frame, whatever lies behind them. -/
def Delivered (frame : List UInt8) (mem : Nat → UInt8) : Prop :=
  ∀ i (h : i < frame.length), mem i = frame[i]

/-- The list of addresses under a network address and a type. -/
def Recorded (s : Registry) (netid : UInt16) (type : UInt8) (lst : List UInt8) : Prop :=
  ∃ nodes, Represents s nodes ∧ ∃ node ∈ nodes, node.info.netid = netid ∧
    subOf type node.subs = some ⟨type, UInt8.ofNat lst.length, lst⟩

/-- A response is sent, the coordinator's check takes it, and its registry, whatever was there
    before, then holds the addresses. -/
def RoundTrip (c : NodeCfg) (setDst alloc : Bool) (rssi : UInt8) (addr : UInt16) (type : UInt8) :
    Prop :=
  ∃ pieces, eZigbeeSendStdLstRsp c setDst alloc rssi addr type = .sent pieces ∧
    ∀ mem, Delivered pieces.flatten mem → (checkBuffer.val mem).2 = true ∧
      ∀ workMode dstAddr known, ∃ info,
        (zgbparse workMode dstAddr known pieces.flatten.length).val mem = .insert info ∧
          ∀ s g now s', Run s g → Step s (.insert info now) s' →
            Recorded s' c.zigbee.addr type c.addresses

/-! ## Counting and copying -/

theorem NodeCfg.overAddresses_eq {m : Type → Type} [Monad m] [LawfulMonad m] {σ : Type}
    (c : NodeCfg) (body : σ → UInt8 → m σ) (s : σ) :
    c.overAddresses body s = c.addresses.foldlM body s := by
  have hport : ∀ s i, c.overPort body s i = (c.portAddrs i).foldlM body s := fun s i => by
    unfold NodeCfg.overPort NodeCfg.portAddrs XferUartCfg.listed
    split
    · rw [List.foldlM_map]
    · rfl
  have hports : ∀ (ports : List (Fin boardUartMax)) s,
      ports.foldlM (c.overPort body) s = (ports.flatMap c.portAddrs).foldlM body s := by
    intro ports
    induction ports with
    | nil => exact fun _ => rfl
    | cons i ports ih =>
      intro s
      rw [List.flatMap_cons, List.foldlM_append, List.foldlM_cons, hport]
      exact bind_congr ih
  unfold NodeCfg.overAddresses NodeCfg.addresses
  rw [List.foldlM_append]
  by_cases hown : 0 < c.zigbee.btSlaveAddr
  · rw [if_pos hown, if_pos hown, List.foldlM_cons]
    simp only [List.foldlM_nil, bind_pure, hports]
  · rw [if_neg hown, if_neg hown]
    simp only [List.foldlM_nil, hports]

theorem NodeCfg.count_eq (c : NodeCfg) : c.count = UInt8.ofNat c.addresses.length := by
  unfold NodeCfg.count
  rw [NodeCfg.overAddresses_eq]
  have hcount : ∀ (l : List UInt8) (cnt : UInt8),
      Id.run (l.foldlM (fun cnt _ => pure (cnt + 1)) cnt) = cnt + UInt8.ofNat l.length := by
    intro l
    induction l with
    | nil => exact fun cnt => (UInt8.add_zero cnt).symm
    | cons b l ih =>
      intro cnt
      rw [List.foldlM_cons]
      show Id.run (l.foldlM _ (cnt + 1)) = _
      rw [ih, List.length_cons, UInt8.ofNat_add, UInt8.add_assoc, UInt8.add_comm 1]
      rfl
  rw [hcount, UInt8.zero_add]

/-- The copy fills the block from where it stands. -/
theorem foldlM_put (done lst : List UInt8) (h : done.length + lst.length ≤ 255) :
    lst.foldlM put (done ++ List.replicate lst.length 0, UInt8.ofNat done.length) =
      some (done ++ lst, UInt8.ofNat (done.length + lst.length)) := by
  induction lst generalizing done with
  | nil => simp
  | cons b lst ih =>
    rw [List.length_cons] at h
    have hpos : (UInt8.ofNat done.length).toNat = done.length :=
      UInt8.toNat_ofNat_of_lt' (by show done.length < 256; omega)
    have hput : put (done ++ List.replicate (b :: lst).length 0, UInt8.ofNat done.length) b =
        some ((done ++ [b]) ++ List.replicate lst.length 0, UInt8.ofNat (done ++ [b]).length) := by
      unfold put
      simp only [hpos]
      rw [if_pos (by simp), List.set_append_right _ _ (Nat.le_refl _), Nat.sub_self]
      simp [List.replicate_succ, UInt8.ofNat_add]
    rw [List.foldlM_cons, hput]
    show lst.foldlM put _ = _
    have hlen : (done ++ [b]).length + lst.length = done.length + (b :: lst).length := by
      simp only [List.length_append, List.length_cons, List.length_nil]
      omega
    rw [ih (done ++ [b]) (by rw [hlen, List.length_cons]; exact h), hlen, List.append_assoc]
    rfl

theorem NodeCfg.block_eq {c : NodeCfg} {alloc : Bool} (hlen : c.addresses.length ≤ 255) :
    c.block alloc =
      if c.addresses = [] ∨ alloc = false then some (none, 0)
      else some (some c.addresses, UInt8.ofNat c.addresses.length) := by
  have hcnt : c.count.toNat = c.addresses.length := by
    rw [NodeCfg.count_eq]
    exact UInt8.toNat_ofNat_of_lt' (by show c.addresses.length < 256; omega)
  unfold NodeCfg.block
  dsimp only
  by_cases hnil : c.addresses = []
  · have hzero : c.count = 0 := by
      rw [NodeCfg.count_eq, hnil]
      rfl
    simp [hnil, hzero]
  · have hpos : 0 < c.count := by
      rw [UInt8.lt_iff_toNat_lt, hcnt]
      exact List.length_pos_iff.mpr hnil
    have hfill : c.addresses.foldlM put (List.replicate c.addresses.length 0, 0) =
        some (c.addresses, UInt8.ofNat c.addresses.length) := by
      simpa using foldlM_put [] c.addresses (by simpa using hlen)
    rw [if_pos hpos, NodeCfg.overAddresses_eq, hcnt, hfill]
    cases alloc with
    | false => simp
    | true => simp [hnil]

/-- A copy stays in its block, and the count with it. -/
theorem foldlM_put_length {lst : List UInt8} {s s' : List UInt8 × UInt8}
    (hlen : s.2.toNat ≤ s.1.length) (hbyte : s.1.length ≤ 255) (h : lst.foldlM put s = some s') :
    s'.2.toNat ≤ s'.1.length := by
  induction lst generalizing s with
  | nil =>
    rw [← Option.some.inj h]
    exact hlen
  | cons b lst ih =>
    rw [List.foldlM_cons] at h
    obtain ⟨t, hput, hrest⟩ := Option.bind_eq_some_iff.mp h
    unfold put at hput
    split at hput
    · next hlt =>
      have hnext : (s.2 + 1).toNat = s.2.toNat + 1 := by
        rw [UInt8.toNat_add]
        exact Nat.mod_eq_of_lt (by show s.2.toNat + 1 < 256; omega)
      obtain rfl := Option.some.inj hput
      refine ih ?_ ?_ hrest <;> simp only [List.length_set, hnext] <;> omega
    · exact absurd hput (Option.some_ne_none t).symm

/-- As many addresses are sent as are announced. -/
theorem NodeCfg.block_length {c : NodeCfg} {alloc : Bool} {addr : Option (List UInt8)}
    {cnt : UInt8} (h : c.block alloc = some (addr, cnt)) :
    ((addr.getD []).take cnt.toNat).length = cnt.toNat := by
  have hnone : ∀ {p : Option (List UInt8) × UInt8}, (none, (0 : UInt8)) = p →
      ((p.1.getD []).take p.2.toNat).length = p.2.toNat := by
    rintro _ rfl
    rfl
  unfold NodeCfg.block at h
  dsimp only at h
  split at h
  · split at h
    · obtain ⟨s, hs, heq⟩ := Option.map_eq_some_iff.mp h
      rw [NodeCfg.overAddresses_eq] at hs
      have hlt := c.count.toNat_lt
      have hlen := foldlM_put_length (by simp) (by simp; omega) hs
      obtain ⟨rfl, rfl⟩ := Prod.mk.inj heq
      rw [Option.getD_some, List.length_take]
      exact Nat.min_eq_left hlen
    · exact hnone (Option.some.inj h)
  · next hzero =>
    have hcnt : c.count = 0 := by
      rw [← UInt8.toNat_inj]
      have := mt UInt8.lt_iff_toNat_lt.mpr hzero
      exact Nat.eq_zero_of_not_pos this
    rw [hcnt] at h
    exact hnone (Option.some.inj h)

/-! ## The frame -/

theorem Head.ofBytes_bytes (head : Head) : Head.ofBytes head.bytes = head := by
  have hpre : word32 head.bytes = head.pre := word32_bytes32 head.pre _
  have hnpre : word32 (head.bytes.drop 4) = head.npre := word32_bytes32 head.npre _
  have hmsglen : word16 (head.bytes.drop 9) = head.msglen := word16_bytes16 head.msglen _
  unfold Head.ofBytes
  rw [hpre, hnpre, hmsglen]
  rfl

theorem Head.length_bytes (head : Head) : head.bytes.length = sizeofHead := rfl

theorem Scan.length_bytes (info : Scan) : info.bytes.length = ofsData := by
  unfold Scan.bytes bytes16
  simp only [List.length_append, List.length_cons, List.length_nil, info.mac.property]

theorem Delivered.map_range' {frame : List UInt8} {mem : Nat → UInt8} (h : Delivered frame mem)
    {k n : Nat} (hn : k + n ≤ frame.length) :
    (List.range' k n).map mem = slice frame k n := by
  have hlen := FileImage.length_slice hn
  unfold FileImage.slice at hlen ⊢
  refine List.ext_getElem (by rw [hlen, List.length_map, List.length_range']) fun i hi _ => ?_
  have hin : i < n := by simpa using hi
  rw [List.getElem_map, List.getElem_range', List.getElem_take, List.getElem_drop, Nat.one_mul]
  exact h (k + i) (by omega)

/-- A frame: head, record and addresses, and the check over them. -/
def frameOf (info : Scan) (lst : List UInt8) : List UInt8 :=
  let body := (rspHead info.cnt).bytes ++ info.bytes ++ lst
  body ++ bytes32 (ulRTCrc32 0 body)

theorem flatten_rspPieces (info : Scan) (addr : Option (List UInt8)) :
    (rspPieces (rspHead info.cnt) info addr info.cnt).flatten =
      frameOf info ((addr.getD []).take info.cnt.toNat) := by
  unfold rspPieces frameOf
  dsimp only
  split
  · simp [ulRTCrc32_append]
  · next hnone =>
    have hnil : (addr.getD []).take info.cnt.toNat = [] := by
      cases addr with
      | none => exact List.take_nil
      | some lst =>
        have hzero : info.cnt.toNat = 0 := by
          have := mt UInt8.lt_iff_toNat_lt.mpr fun h => hnone ⟨h, rfl⟩
          exact Nat.eq_zero_of_not_pos this
        rw [hzero, List.take_zero]
    rw [hnil]
    simp [ulRTCrc32_append]

section
variable {info : Scan} {lst : List UInt8} {mem : Nat → UInt8}

theorem length_frameOf (hlst : lst.length = info.cnt.toNat) :
    (frameOf info lst).length = 32 + info.cnt.toNat := by
  unfold frameOf bytes32
  simp only [List.length_append, Head.length_bytes, Scan.length_bytes, hlst, List.length_cons,
    List.length_nil, sizeofHead, ofsData]
  omega

theorem rspHead_msglen (cnt : UInt8) : (rspHead cnt).msglen.toNat = 32 + cnt.toNat := by
  have hcnt := cnt.toNat_lt
  unfold rspHead
  simp only [sizeofHead, ofsData]
  rw [UInt16.toNat_ofNat_of_lt' (by show 14 + 14 + cnt.toNat + 4 < 65536; omega)]
  omega

/-- The parts of a frame, where the parser looks for them. -/
structure Parts (info : Scan) (lst : List UInt8) (mem : Nat → UInt8) : Prop where
  head : (List.range' 0 sizeofHead).map mem = (rspHead info.cnt).bytes
  record : (List.range' sizeofHead ofsData).map mem = info.bytes
  addresses : (List.range' (sizeofHead + ofsData) info.cnt.toNat).map mem = lst
  body : (List.range' 0 (sizeofHead + ofsData + info.cnt.toNat)).map mem =
    (rspHead info.cnt).bytes ++ info.bytes ++ lst
  crc : (List.range' (sizeofHead + ofsData + info.cnt.toNat) 4).map mem =
    bytes32 (ulRTCrc32 0 ((rspHead info.cnt).bytes ++ info.bytes ++ lst))

/-- What stands between two parts of a frame is what the memory holds there. -/
theorem Delivered.map_part {frame : List UInt8} (hmem : Delivered frame mem)
    (before part rest : List UInt8) (heq : before ++ part ++ rest = frame) {k n : Nat}
    (hk : before.length = k) (hn : part.length = n) : (List.range' k n).map mem = part := by
  have hin : k + n ≤ frame.length := by
    rw [← heq, List.length_append, List.length_append]
    omega
  rw [hmem.map_range' hin, ← heq, FileImage.slice_append _ _ _ hk hn]

theorem Delivered.parts (hlst : lst.length = info.cnt.toNat)
    (hmem : Delivered (frameOf info lst) mem) : Parts info lst mem := by
  have hhead := Head.length_bytes (rspHead info.cnt)
  have hinfo := Scan.length_bytes info
  have hboth : ((rspHead info.cnt).bytes ++ info.bytes).length = sizeofHead + ofsData := by
    rw [List.length_append, hhead, hinfo]
  have hbody : ((rspHead info.cnt).bytes ++ info.bytes ++ lst).length =
      sizeofHead + ofsData + info.cnt.toNat := by
    rw [List.length_append, hboth, hlst]
  have hfour : ∀ w, (bytes32 w).length = 4 := fun _ => rfl
  obtain ⟨crc, hframe, hsum, hcrc⟩ : ∃ crc,
      (rspHead info.cnt).bytes ++ info.bytes ++ lst ++ crc = frameOf info lst ∧
        crc = bytes32 (ulRTCrc32 0 ((rspHead info.cnt).bytes ++ info.bytes ++ lst)) ∧
          crc.length = 4 := by
    unfold frameOf
    exact ⟨_, rfl, rfl, hfour _⟩
  have hfirst : [] ++ (rspHead info.cnt).bytes ++ (info.bytes ++ lst ++ crc) =
      frameOf info lst := by
    rw [List.nil_append, ← List.append_assoc, ← List.append_assoc]
    exact hframe
  refine ⟨hmem.map_part [] _ _ hfirst rfl hhead, ?_, hmem.map_part _ lst crc hframe hboth hlst,
    ?_, ?_⟩
  · refine hmem.map_part _ _ (lst ++ crc) ?_ hhead hinfo
    rw [← hframe, List.append_assoc _ lst crc]
  · exact hmem.map_part [] _ crc (by rw [List.nil_append, hframe]) rfl hbody
  · rw [← hsum]
    exact hmem.map_part _ crc [] (by rw [List.append_nil, hframe]) hbody hcrc

theorem Parts.headAt (h : Parts info lst mem) : headAt mem = rspHead info.cnt := by
  unfold Zigbee.headAt
  rw [h.head, Head.ofBytes_bytes]

theorem Parts.crcOk (h : Parts info lst mem) : CrcOk mem := by
  have hn : 32 + info.cnt.toNat - 4 = sizeofHead + ofsData + info.cnt.toNat := by
    simp only [sizeofHead, ofsData]
    omega
  unfold CrcOk
  rw [h.headAt, rspHead_msglen, hn]
  dsimp only
  have hback := word32_bytes32
    (ulRTCrc32 0 ((rspHead info.cnt).bytes ++ info.bytes ++ lst)) []
  rw [List.append_nil] at hback
  rw [h.crc, h.body, hback]

/-- The record is read as it was sent, with the addresses behind it. -/
theorem Parts.scan (h : Parts info lst mem) :
    ∃ data, Scan.at mem sizeofHead = { info with data := data } ∧
      (Scan.at mem sizeofHead).addresses = lst := by
  have hrecord : [mem 14] ++ (List.range' 15 2).map mem ++ (List.range' 17 8).map mem ++
      [mem 25, mem 26, mem 27] = info.bytes := h.record
  unfold Scan.bytes at hrecord
  obtain ⟨hfront, htail⟩ := List.append_inj' hrecord rfl
  obtain ⟨hstart, hmac⟩ := List.append_inj' hfront (by
    rw [List.length_map, List.length_range', info.mac.property])
  obtain ⟨hmode, hnetid⟩ := List.append_inj' hstart rfl
  simp only [List.cons.injEq, and_true] at hmode htail
  obtain ⟨hrssi, htype, hcnt⟩ := htail
  have hword : word16 (bytes16 info.netid) = info.netid := word16_bytes16 info.netid []
  refine ⟨fun i => mem (sizeofHead + ofsData + i), ?_, ?_⟩
  · unfold Scan.at
    simp only [sizeofHead, hmode, hnetid, hword, hmac, hrssi, htype, hcnt]
    rfl
  · have hlst := h.addresses
    rw [List.range'_eq_map_range, List.map_map] at hlst
    unfold Scan.addresses Scan.at
    simp only [sizeofHead, hcnt]
    exact hlst

end

/-! ## At the coordinator -/

/-- A response that is sent and delivered is accepted, and its record is inserted. -/
theorem Delivered.accepted {c : NodeCfg} {alloc : Bool} {rssi cnt : UInt8}
    {addr : Option (List UInt8)} (hblock : c.block alloc = some (addr, cnt))
    {mem : Nat → UInt8}
    (hmem : Delivered (rspPieces (rspHead cnt) (c.rspInfo rssi cnt) addr cnt).flatten mem) :
    (checkBuffer.val mem).2 = true ∧ ∃ info : Scan,
      (∃ data, info = { c.rspInfo rssi cnt with data := data }) ∧
      info.addresses = (addr.getD []).take cnt.toNat ∧
      ∀ workMode dstAddr known, (zgbparse workMode dstAddr known
        (rspPieces (rspHead cnt) (c.rspInfo rssi cnt) addr cnt).flatten.length).val mem =
          .insert info := by
  have hlst := c.block_length hblock
  have hframe : (rspPieces (rspHead cnt) (c.rspInfo rssi cnt) addr cnt).flatten =
      frameOf (c.rspInfo rssi cnt) ((addr.getD []).take cnt.toNat) :=
    flatten_rspPieces (c.rspInfo rssi cnt) addr
  have hlen : 18 ≤ (frameOf (c.rspInfo rssi cnt) ((addr.getD []).take cnt.toNat)).length := by
    have hcnt : ((addr.getD []).take cnt.toNat).length = (c.rspInfo rssi cnt).cnt.toNat := hlst
    rw [length_frameOf hcnt]
    omega
  rw [hframe] at hmem ⊢
  have hparts := hmem.parts hlst
  have hknown : (headAt mem).Known := by
    rw [hparts.headAt]
    exact ⟨rfl, rfl, rfl, by rw [rspHead_msglen]; omega⟩
  obtain ⟨data, hscan, haddresses⟩ := hparts.scan
  refine ⟨?_, Scan.at mem sizeofHead, ⟨data, hscan⟩, haddresses, fun workMode dstAddr known => ?_⟩
  · rw [val_checkBuffer]
    exact decide_eq_true ⟨hknown, hparts.crcOk⟩
  · refine (val_zgbparse_insert_iff hlen _).mpr ⟨⟨hknown, hparts.crcOk⟩, ?_, rfl⟩
    rw [hparts.headAt]
    exact ⟨rfl, rfl⟩

/-- After an insertion the node of the response holds its cell. -/
theorem Step.holds_snode {s s' : Registry} {g : UInt16 → List Scan} (hrun : Run s g) {info : Scan}
    {now : UInt32} (hstep : Step s (.insert info now) s') :
    ∃ nodes, Represents s' nodes ∧ ∃ node ∈ nodes, node.info.netid = info.netid ∧
      subOf info.type node.subs = some info.snode := by
  obtain ⟨nodes, hs, htracked⟩ := hrun.tracked
  refine ⟨_, hstep.represents hs, ?_⟩
  obtain ⟨node, hnode, hnetid⟩ := exists_mem_insertNode info now nodes
  refine ⟨node, hnode, hnetid, ?_⟩
  rcases mem_insertNode htracked.holds.netids hnode with ⟨-, hne⟩ | ⟨old, hold, -, rfl⟩ | ⟨-, rfl⟩
  · exact absurd hnetid hne
  · rw [subOf_insertSub info info.type (htracked.holds.types old hold), if_pos rfl]
  · have hnil : (([] : List Snode).map Snode.type).Nodup := List.nodup_nil
    rw [subOf_insertSub info info.type hnil, if_pos rfl]

/-- A first insertion leaves the cell of the response alone. -/
theorem exists_step_init (info : Scan) (now : UInt32) :
    ∃ s', Step zgbStdInit (.insert info now) s' ∧
      Represents s' [⟨info.newInfo now, [info.snode]⟩] := by
  obtain ⟨s', ⟨n, hrun⟩, hrep⟩ :=
    exec_represents represents_init (p := 0) (q := 0) rfl rfl (.insert info now)
  exact ⟨s', ⟨0, 0, rfl, rfl, n, hrun⟩, hrep⟩

theorem length_lst (info : Scan) : info.lst.length = info.cnt.toNat := by
  unfold Scan.lst Scan.addresses
  split <;> simp

theorem subOf_singleton {type : UInt8} {d e : Snode} (h : subOf type [d] = some e) :
    d = e ∧ d.type = type := by
  unfold subOf at h
  rw [List.find?_singleton] at h
  split at h
  · next htype => exact ⟨Option.some.inj h, of_decide_eq_true htype⟩
  · exact absurd h.symm (Option.some_ne_none e)

/-- What is sent is what the block holds. -/
theorem sent_iff {c : NodeCfg} {setDst alloc : Bool} {rssi : UInt8} {addr : UInt16} {type : UInt8}
    (hdst : addr = c.zigbee.dstAddr ∨ setDst = true)
    (hproto : c.zigbee.nProtoType.val = type.toNat) (pieces : List (List UInt8)) :
    eZigbeeSendStdLstRsp c setDst alloc rssi addr type = .sent pieces ↔
      ∃ addr cnt, c.block alloc = some (addr, cnt) ∧
        pieces = rspPieces (rspHead cnt) (c.rspInfo rssi cnt) addr cnt := by
  unfold eZigbeeSendStdLstRsp
  rw [if_pos hdst, if_pos hproto]
  cases hblock : c.block alloc with
  | none => simp
  | some p => simp [Prod.ext_iff, eq_comm]

/-- The memory that holds a frame and zeros behind it. -/
theorem delivered_getD (frame : List UInt8) : Delivered frame fun i => frame.getD i 0 :=
  fun _ h => List.getD_eq_getElem frame 0 h

/-- A response of the node that has come through tells its addresses. -/
theorem RoundTrip.tells {c : NodeCfg} {setDst alloc : Bool} {rssi : UInt8} {addr : UInt16}
    {type : UInt8} (hdst : addr = c.zigbee.dstAddr ∨ setDst = true)
    (hproto : c.zigbee.nProtoType.val = type.toNat)
    (h : RoundTrip c setDst alloc rssi addr type) :
    ∃ block cnt, c.block alloc = some (block, cnt) ∧ type = 0 ∧
      c.addresses.length = cnt.toNat := by
  obtain ⟨pieces, hsent, htrip⟩ := h
  obtain ⟨block, cnt, hblock, rfl⟩ := (sent_iff hdst hproto pieces).mp hsent
  have hmem := delivered_getD (rspPieces (rspHead cnt) (c.rspInfo rssi cnt) block cnt).flatten
  obtain ⟨-, info, ⟨data, rfl⟩, -, hparse⟩ := hmem.accepted hblock
  obtain ⟨info', hparse', hrecorded⟩ := (htrip _ hmem).2 2 0 fun _ => false
  obtain rfl := Parsed.insert.inj ((hparse 2 0 fun _ => false).symm.trans hparse')
  obtain ⟨s', hstep, hrep⟩ := exists_step_init { c.rspInfo rssi cnt with data := data } 0
  obtain ⟨nodes, hs', node, hnode, -, hsub⟩ := hrecorded _ _ _ _ Run.init hstep
  obtain rfl := hrep.unique hs'
  obtain rfl := List.mem_singleton.mp hnode
  obtain ⟨hcell, htype⟩ := subOf_singleton hsub
  have hlst := congrArg Snode.lst hcell
  refine ⟨block, cnt, hblock, htype.symm, ?_⟩
  rw [show c.addresses = _ from hlst.symm]
  exact length_lst { c.rspInfo rssi cnt with data := data }

theorem lstRsp_roundTrip_iff (c : NodeCfg) (setDst alloc : Bool) (rssi : UInt8) (addr : UInt16)
    (type : UInt8) (hdst : addr = c.zigbee.dstAddr ∨ setDst = true)
    (hproto : c.zigbee.nProtoType.val = type.toNat) :
    RoundTrip c setDst alloc rssi addr type ↔
      type = 0 ∧ c.addresses.length ≤ 255 ∧ (c.addresses = [] ∨ alloc = true) := by
  constructor
  · intro h
    obtain ⟨block, cnt, hblock, htype, hlen⟩ := h.tells hdst hproto
    have hcnt := cnt.toNat_lt
    have hbyte : c.addresses.length ≤ 255 := by omega
    refine ⟨htype, hbyte, ?_⟩
    by_contra hnot
    obtain ⟨hnil, halloc⟩ := not_or.mp hnot
    rw [NodeCfg.block_eq hbyte, if_pos (.inr (Bool.eq_false_iff.mpr halloc))] at hblock
    obtain rfl : 0 = cnt := (Prod.mk.inj (Option.some.inj hblock)).2
    exact hnil (List.length_eq_zero_iff.mp hlen)
  · rintro ⟨rfl, hbyte, halloc⟩
    have hblock : ∃ block, c.block alloc = some (block, UInt8.ofNat c.addresses.length) ∧
        (block.getD []).take c.addresses.length = c.addresses := by
      rw [NodeCfg.block_eq hbyte]
      by_cases hnil : c.addresses = []
      · rw [if_pos (.inl hnil), hnil]
        exact ⟨none, rfl, rfl⟩
      · have halloc' := halloc.resolve_left hnil
        rw [if_neg (by simp [hnil, halloc'])]
        exact ⟨_, rfl, List.take_length⟩
    obtain ⟨block, hblock, hlst⟩ := hblock
    have hcnt : (UInt8.ofNat c.addresses.length).toNat = c.addresses.length :=
      UInt8.toNat_ofNat_of_lt' (by show c.addresses.length < 256; omega)
    refine ⟨_, (sent_iff hdst hproto _).mpr ⟨block, _, hblock, rfl⟩, fun mem hmem => ?_⟩
    obtain ⟨haccepted, info, ⟨data, rfl⟩, haddresses, hparse⟩ := hmem.accepted hblock
    rw [hcnt, hlst] at haddresses
    refine ⟨haccepted, fun workMode dstAddr known => ⟨_, hparse workMode dstAddr known, ?_⟩⟩
    intro s g now s' hrun hstep
    obtain ⟨nodes, hs', node, hnode, hnetid, hsub⟩ := hstep.holds_snode hrun
    refine ⟨nodes, hs', node, hnode, hnetid, ?_⟩
    refine hsub.trans (congrArg some ?_)
    unfold Scan.snode Scan.lst
    rw [if_pos (.inl rfl), haddresses]
    rfl

/-- An end device of the network address 5 with the slave address `own`, that sends on to `n` slaves
    of every serial port in use. -/
def nodeOf (own : UInt8) (n : Fin 2147483648) (proto : Fin 2147483648) : NodeCfg where
  zigbee := { ZigbeeCfg.default with
    addr := 5
    btSlaveAddr := own
    nProtoType := proto }
  xferUart _ := ⟨true, n, fun j => UInt8.ofNat (j + 1)⟩
  dtu i := decide (i ≠ 3 ∧ i ≠ 5)

theorem nodeOf_roundTrip : RoundTrip (nodeOf 7 2 0) false true 60 0 0 :=
  (lstRsp_roundTrip_iff (nodeOf 7 2 0) false true 60 0 0 (.inl rfl) rfl).mpr
    ⟨rfl, by decide, .inr rfl⟩

/-- Four lists of 64 addresses count as none. -/
theorem fullLists_not_roundTrip : ¬ ∀ (c : NodeCfg) (type : UInt8),
    (∀ i, (c.xferUart i).count.val ≤ 64) → c.zigbee.nProtoType.val = type.toNat →
      RoundTrip c false true 60 c.zigbee.dstAddr type := by
  intro h
  have htrip := h (nodeOf 0 64 0) 0 (fun _ => Nat.le_refl 64) rfl
  obtain ⟨block, cnt, -, -, hlen⟩ := htrip.tells (.inl rfl) rfl
  have hcnt := cnt.toNat_lt
  have hfull : (nodeOf 0 64 0).addresses.length = 256 := by decide +kernel
  omega

end K64Gateway.Zigbee
