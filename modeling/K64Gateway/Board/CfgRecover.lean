import Mathlib
import K64Gateway.Board.BoardCfg
import K64Gateway.Lib.CString

/-
  The migration of a configuration of version 0, `board/cfg/cfg_recover.c`. The structures are laid
  out as the compiler does it, with an enumeration in one byte.

  Proved: when the table of the TCP/IP connections is the one that comes of the transfer
  connections alone (`migrate_eq_iff`).
-/

namespace K64Gateway.CfgRecover

open FileImage LittleEndian CString

/-! ## The old structures -/

def boardEnetTcpipNum : Nat := 4
def boardTcpipMax : Nat := 8

/-- `tcpip_cfg_v0_t` -/
structure TcpipCfgV0 where
  enable : UInt32
  tcpipType : UInt8
  protoType : UInt8
  tcpipCs : UInt8
  protoMs : UInt8
  peer : List UInt8
  maddress : UInt8
  port : UInt16
  interval : UInt32
  keepalive : UInt32

/-- The element `i` of `tcpip_cfg_v0_all_t`. -/
def tcpipV0 (b : List UInt8) (i : Nat) : TcpipCfgV0 :=
  let b := slice b (84 * i) 84
  { enable := word32 b
    tcpipType := b.getD 4 0
    protoType := b.getD 5 0
    tcpipCs := b.getD 6 0
    protoMs := b.getD 7 0
    peer := slice b 8 63
    maddress := b.getD 71 0
    port := word16 (b.drop 72)
    interval := word32 (b.drop 76)
    keepalive := word32 (b.drop 80) }

def sizeofTcpipV0All : Nat := boardTcpipMax * 84

/-- `xfer_net_cfg_v0_t`, with the bytes of its `dst_cfg`. -/
structure XferNetCfgV0 where
  enable : UInt32
  tcpipType : UInt8
  tcpipCs : UInt8
  protoType : UInt8
  peer : List UInt8
  port : UInt16
  dstType : UInt8
  dstCfg : List UInt8

/-- The element `index` of `xfer_net_cfg_v0_all_t`. -/
def xferV0 (b : List UInt8) (index : Nat) : XferNetCfgV0 :=
  let b := slice b (88 * index) 88
  { enable := word32 b
    tcpipType := b.getD 4 0
    tcpipCs := b.getD 5 0
    protoType := b.getD 6 0
    peer := slice b 7 64
    port := word16 (b.drop 72)
    dstType := b.getD 74 0
    dstCfg := slice b 76 12 }

def sizeofXferNetV0All : Nat := 2 * 88

def sizeofZigbeeV0 : Nat := 84

/-! ## The table of the connections -/

/-- `tcpip_cfg_t`, with the bytes of the union `cfg`. -/
structure TcpipCfg where
  enable : UInt32
  tcpipType : UInt8
  tcpipCs : UInt8
  peer : List UInt8
  port : UInt16
  interval : UInt32
  keepalive : UInt32
  mode : UInt8
  cfg : List UInt8

/-- After `memset`. -/
def TcpipCfg.zero : TcpipCfg where
  enable := 0
  tcpipType := 0
  tcpipCs := 0
  peer := List.replicate 64 0
  port := 0
  interval := 0
  keepalive := 0
  mode := 0
  cfg := List.replicate 20 0

def strcpy (dst src : List UInt8) : List UInt8 := writeAt dst 0 (cstr src ++ [0])

/-- The assignments for a connection, `TCP_IP_M_NORMAL`. -/
def TcpipCfg.setNormal (g : TcpipCfg) (v : TcpipCfgV0) : TcpipCfg where
  mode := 0
  enable := v.enable
  tcpipType := v.tcpipType
  tcpipCs := v.tcpipCs
  peer := strcpy g.peer v.peer
  port := v.port
  interval := v.interval
  keepalive := v.keepalive
  cfg := writeAt g.cfg 0 [v.protoType, v.protoMs, v.maddress]

/-- The assignments for a transfer connection, `TCP_IP_M_XFER` and `XFER_M_GW`. -/
def TcpipCfg.setXfer (g : TcpipCfg) (x : XferNetCfgV0) : TcpipCfg where
  mode := 1
  enable := x.enable
  tcpipType := x.tcpipType
  tcpipCs := x.tcpipCs
  peer := strcpy g.peer x.peer
  port := x.port
  interval := 0
  keepalive := 1
  cfg := writeAt (writeAt (writeAt g.cfg 0 [0]) 4 [x.protoType, x.dstType]) 8 x.dstCfg

/-- `g_tcpip_cfgs` after the loop over the connections. -/
def normalCfgs (tcpip_cfg : List UInt8) (i : Nat) : TcpipCfg :=
  if i < boardTcpipMax then TcpipCfg.zero.setNormal (tcpipV0 tcpip_cfg i) else TcpipCfg.zero

def ofsAry : List Nat := [0, boardEnetTcpipNum, boardTcpipMax]

/-- The first element from `first` on that is not enabled; `n` is 0 where there is none. -/
def freeSlot (g : Nat → TcpipCfg) (first next : Nat) : Nat :=
  let n := ((List.range' first (next - first)).find? fun i => (g i).enable == 0).getD 0
  if next ≤ n then first else n

/-- The loop body for the transfer connections. -/
def xferStep (xfer_net_cfg : List UInt8) (g : Nat → TcpipCfg) (index : Nat) : Nat → TcpipCfg :=
  let n := freeSlot g (ofsAry.getD index 0) (ofsAry.getD (index + 1) 0)
  if (xferV0 xfer_net_cfg index).enable ≠ 0 then
    Function.update g n ((g n).setXfer (xferV0 xfer_net_cfg index))
  else g

/-- `g_tcpip_cfgs` from the sections that could be read. -/
def migrate (tcpip_cfg xfer_net_cfg : Option (List UInt8)) : Nat → TcpipCfg :=
  let g := match tcpip_cfg with
    | some b => normalCfgs b
    | none => fun _ => TcpipCfg.zero
  match xfer_net_cfg with
  | some b => (List.range 2).foldl (xferStep b) g
  | none => g

def TcpipCfg.bytes (g : TcpipCfg) : List UInt8 :=
  bytes32 g.enable ++ ([g.tcpipType, g.tcpipCs] ++ (g.peer ++ (bytes16 g.port ++
    (bytes32 g.interval ++ (bytes32 g.keepalive ++ ([g.mode, 0, 0, 0] ++ g.cfg))))))

def tableBytes (g : Nat → TcpipCfg) : List UInt8 :=
  (List.range boardTcpipMax).flatMap fun i => (g i).bytes

/-- `g_zigbee_cfg`: the old structure in front, and `ZGB_TM_GW` behind it. -/
def zigbeeBytes (zigbee_cfg : List UInt8) : List UInt8 :=
  writeAt (writeAt (List.replicate 100 0) 0 zigbee_cfg) sizeofZigbeeV0 [0]

/-! ## The bytes of the table -/

/-- The arrays of an element have their sizes. -/
structure TcpipCfg.Sized (g : TcpipCfg) : Prop where
  peer : g.peer.length = 64
  cfg : g.cfg.length = 20

theorem TcpipCfg.Sized.length_bytes {g : TcpipCfg} (h : g.Sized) : g.bytes.length = 104 := by
  have h32 : ∀ w : UInt32, (bytes32 w).length = 4 := fun _ => rfl
  have h16 : (bytes16 g.port).length = 2 := rfl
  unfold TcpipCfg.bytes
  simp only [List.length_append, h32, h16, h.peer, h.cfg, List.length_cons, List.length_nil]

theorem bytes32_inj {w w' : UInt32} (h : bytes32 w = bytes32 w') : w = w' := by
  rw [← word32_bytes32 w [], h, word32_bytes32]

theorem bytes16_inj {w w' : UInt16} (h : bytes16 w = bytes16 w') : w = w' := by
  rw [← word16_bytes16 w [], h, word16_bytes16]

theorem TcpipCfg.bytes_inj {g g' : TcpipCfg} (h : g.Sized) (h' : g'.Sized)
    (heq : g.bytes = g'.bytes) : g = g' := by
  unfold TcpipCfg.bytes at heq
  obtain ⟨henable, heq⟩ := List.append_inj heq rfl
  obtain ⟨hbytes, heq⟩ := List.append_inj heq rfl
  obtain ⟨hpeer, heq⟩ := List.append_inj heq (h.peer.trans h'.peer.symm)
  obtain ⟨hport, heq⟩ := List.append_inj heq rfl
  obtain ⟨hinterval, heq⟩ := List.append_inj heq rfl
  obtain ⟨hkeepalive, heq⟩ := List.append_inj heq rfl
  obtain ⟨hmode, hcfg⟩ := List.append_inj heq rfl
  have henable := bytes32_inj henable
  have hport := bytes16_inj hport
  have hinterval := bytes32_inj hinterval
  have hkeepalive := bytes32_inj hkeepalive
  simp only [List.cons.injEq, and_true] at hbytes hmode
  cases g
  cases g'
  simp_all

theorem flatMap_range_inj {α : Type} {f g : Nat → List α} {n c : Nat}
    (hf : ∀ i < n, (f i).length = c) (hg : ∀ i < n, (g i).length = c)
    (h : (List.range n).flatMap f = (List.range n).flatMap g) : ∀ i < n, f i = g i := by
  induction n with
  | zero => exact fun i hi => absurd hi (Nat.not_lt_zero i)
  | succ n ih =>
    rw [List.range_succ, List.flatMap_append, List.flatMap_append, List.flatMap_singleton,
      List.flatMap_singleton] at h
    obtain ⟨hinit, hlast⟩ := List.append_inj' h
      ((hf n (Nat.lt_succ_self n)).trans (hg n (Nat.lt_succ_self n)).symm)
    intro i hi
    rcases Nat.lt_succ_iff_lt_or_eq.mp hi with hlt | rfl
    · exact ih (fun i hi => hf i (Nat.lt_succ_of_lt hi)) (fun i hi => hg i (Nat.lt_succ_of_lt hi))
        hinit i hlt
    · exact hlast

theorem length_flatMap_range {α : Type} {f : Nat → List α} {n c : Nat}
    (hf : ∀ i < n, (f i).length = c) : ((List.range n).flatMap f).length = n * c := by
  induction n with
  | zero => exact (Nat.zero_mul c).symm
  | succ n ih =>
    rw [List.range_succ, List.flatMap_append, List.flatMap_singleton, List.length_append,
      ih (fun i hi => hf i (Nat.lt_succ_of_lt hi)), hf n (Nat.lt_succ_self n), Nat.succ_mul]

section
variable {g g' : Nat → TcpipCfg}

theorem length_tableBytes (h : ∀ i < boardTcpipMax, (g i).Sized) :
    (tableBytes g).length = 832 :=
  length_flatMap_range fun i hi => (h i hi).length_bytes

theorem tableBytes_eq_iff (h : ∀ i < boardTcpipMax, (g i).Sized)
    (h' : ∀ i < boardTcpipMax, (g' i).Sized) :
    tableBytes g = tableBytes g' ↔ ∀ i < boardTcpipMax, g i = g' i := by
  constructor
  · intro heq i hi
    exact TcpipCfg.bytes_inj (h i hi) (h' i hi) (flatMap_range_inj
      (fun i hi => (h i hi).length_bytes) (fun i hi => (h' i hi).length_bytes) heq i hi)
  · intro heq
    unfold tableBytes
    exact List.flatMap_congr fun i hi => by rw [heq i (List.mem_range.mp hi)]

end

/-! ## Single elements -/

theorem strcpy_eq (dst src : List UInt8) :
    strcpy dst src = cstr src ++ 0 :: dst.drop ((cstr src).length + 1) := by
  unfold strcpy writeAt
  rw [List.take_zero, List.nil_append, Nat.zero_add, List.length_append, List.append_assoc]
  rfl

theorem length_strcpy {dst src : List UInt8} (h : (cstr src).length < dst.length) :
    (strcpy dst src).length = dst.length := by
  rw [strcpy_eq, List.length_append, List.length_cons, List.length_drop]
  omega

/-- A string in zeros. -/
theorem strcpy_zeros {n : Nat} {src : List UInt8} (h : (cstr src).length < n) :
    strcpy (List.replicate n 0) src = cstr src ++ List.replicate (n - (cstr src).length) 0 := by
  rw [strcpy_eq, List.drop_replicate]
  have hk' : n - (cstr src).length = n - ((cstr src).length + 1) + 1 := by omega
  rw [hk', List.replicate_succ]

theorem strcpy_zeros_eq_zeros_iff {n : Nat} {src : List UInt8} (h : (cstr src).length < n) :
    strcpy (List.replicate n 0) src = List.replicate n 0 ↔ cstr src = [] := by
  rw [strcpy_zeros h]
  constructor
  · intro heq
    rw [List.eq_nil_iff_forall_not_mem]
    intro c hc
    have hzero := List.eq_of_mem_replicate (heq ▸ List.mem_append_left _ hc)
    exact zero_not_mem_cstr src (hzero ▸ hc)
  · intro hnil
    rw [hnil]
    rfl

/-- A string over another one in zeros leaves nothing of that if it is not much shorter. -/
theorem strcpy_strcpy_eq_iff {n : Nat} {src src' : List UInt8} (h : (cstr src).length < n)
    (h' : (cstr src').length < n) :
    strcpy (strcpy (List.replicate n 0) src) src' = strcpy (List.replicate n 0) src' ↔
      (cstr src).length ≤ (cstr src').length + 1 := by
  rw [strcpy_zeros h, strcpy_eq, strcpy_eq, List.append_cancel_left_eq, List.cons.injEq,
    List.drop_replicate, eq_self, true_and]
  constructor
  · intro heq
    by_contra hlt
    have hpos : 0 < ((cstr src).drop ((cstr src').length + 1)).length := by
      rw [List.length_drop]
      omega
    obtain ⟨c, hc⟩ := List.exists_mem_of_length_pos hpos
    rw [List.drop_append_of_le_length (by omega)] at heq
    have hzero := List.eq_of_mem_replicate (heq ▸ List.mem_append_left _ hc)
    exact zero_not_mem_cstr src (hzero ▸ List.mem_of_mem_drop hc)
  · intro hle
    rw [List.drop_append, List.drop_of_length_le hle, List.nil_append, List.drop_replicate]
    congr 1
    omega

/-- A connection that is nowhere set. -/
structure TcpipCfgV0.Blank (v : TcpipCfgV0) : Prop where
  enable : v.enable = 0
  tcpipType : v.tcpipType = 0
  tcpipCs : v.tcpipCs = 0
  peer : cstr v.peer = []
  port : v.port = 0
  interval : v.interval = 0
  keepalive : v.keepalive = 0
  protoType : v.protoType = 0
  protoMs : v.protoMs = 0
  maddress : v.maddress = 0

/-- A connection of which the transfer connection over it leaves nothing. -/
structure TcpipCfgV0.Hidden (v : TcpipCfgV0) (x : XferNetCfgV0) : Prop where
  peer : (cstr v.peer).length ≤ (cstr x.peer).length + 1
  protoMs : v.protoMs = 0
  maddress : v.maddress = 0

section
variable {v : TcpipCfgV0} {x : XferNetCfgV0}

theorem setNormal_eq_zero_iff (h : (cstr v.peer).length < 64) :
    TcpipCfg.zero.setNormal v = TcpipCfg.zero ↔ v.Blank := by
  have hpeer := strcpy_zeros_eq_zeros_iff h
  have hcfg : writeAt (List.replicate 20 0) 0 [v.protoType, v.protoMs, v.maddress] =
      v.protoType :: v.protoMs :: v.maddress :: List.replicate 17 0 := rfl
  have hzeros : List.replicate 20 (0 : UInt8) = 0 :: 0 :: 0 :: List.replicate 17 0 := rfl
  unfold TcpipCfg.setNormal TcpipCfg.zero
  dsimp only
  rw [TcpipCfg.mk.injEq, hpeer, hcfg, hzeros]
  simp only [List.cons.injEq, and_true, true_and]
  constructor
  · rintro ⟨henable, htype, hcs, hnil, hport, hinterval, hkeepalive, hproto, hms, haddress⟩
    exact ⟨henable, htype, hcs, hnil, hport, hinterval, hkeepalive, hproto, hms, haddress⟩
  · rintro ⟨henable, htype, hcs, hnil, hport, hinterval, hkeepalive, hproto, hms, haddress⟩
    exact ⟨henable, htype, hcs, hnil, hport, hinterval, hkeepalive, hproto, hms, haddress⟩

theorem setXfer_eq_iff (h : (cstr v.peer).length < 64) (hx : (cstr x.peer).length < 64) :
    (TcpipCfg.zero.setNormal v).setXfer x = TcpipCfg.zero.setXfer x ↔ v.Hidden x := by
  have hpeer := strcpy_strcpy_eq_iff h hx
  have hcfg : ∀ a b c : UInt8, writeAt (writeAt (writeAt (a :: b :: c :: List.replicate 17 0) 0 [0])
      4 [x.protoType, x.dstType]) 8 x.dstCfg =
        0 :: b :: c :: 0 :: x.protoType :: x.dstType :: 0 :: 0 ::
          (x.dstCfg ++ (List.replicate 12 0).drop x.dstCfg.length) := by
    intro a b c
    show [0, b, c, 0, x.protoType, x.dstType, 0, 0] ++ x.dstCfg ++
      (0 :: b :: c :: 0 :: x.protoType :: x.dstType :: 0 :: 0 ::
        List.replicate 12 0).drop (8 + x.dstCfg.length) = _
    rw [Nat.add_comm, List.append_assoc]
    rfl
  have hnormal : writeAt (List.replicate 20 0) 0 [v.protoType, v.protoMs, v.maddress] =
      v.protoType :: v.protoMs :: v.maddress :: List.replicate 17 0 := rfl
  have hzeros : List.replicate 20 (0 : UInt8) = 0 :: 0 :: 0 :: List.replicate 17 0 := rfl
  unfold TcpipCfg.setXfer TcpipCfg.setNormal TcpipCfg.zero
  dsimp only
  rw [TcpipCfg.mk.injEq, hpeer, hnormal, hzeros, hcfg, hcfg]
  simp only [List.cons.injEq, and_true, true_and]
  exact ⟨fun ⟨hlen, hms, haddress⟩ => ⟨hlen, hms, haddress⟩,
    fun ⟨hlen, hms, haddress⟩ => ⟨hlen, hms, haddress⟩⟩

end

/-! ## The slots of the transfer connections -/

section
variable {g : Nat → TcpipCfg} {first next : Nat}

/-- The slot is not enabled, or all are and it is 0. -/
theorem freeSlot_cases (hlt : first < next) :
    (first ≤ freeSlot g first next ∧ freeSlot g first next < next ∧
      (g (freeSlot g first next)).enable = 0) ∨
    (freeSlot g first next = 0 ∧ ∀ i, first ≤ i → i < next → (g i).enable ≠ 0) := by
  unfold freeSlot
  cases hfind : (List.range' first (next - first)).find? fun i => (g i).enable == 0 with
  | none =>
    right
    dsimp only [Option.getD_none]
    refine ⟨if_neg (by omega), fun i hle hi henable => ?_⟩
    have hnot := List.find?_eq_none.mp hfind i (List.mem_range'_1.mpr (by omega))
    exact hnot (beq_iff_eq.mpr henable)
  | some i =>
    left
    have hmem := List.mem_range'_1.mp (List.mem_of_find?_eq_some hfind)
    have henable := List.find?_some hfind
    dsimp only [Option.getD_some]
    rw [if_neg (by omega)]
    exact ⟨hmem.1, by omega, beq_iff_eq.mp henable⟩

theorem freeSlot_first (hlt : first < next) (h : (g first).enable = 0) :
    freeSlot g first next = first := by
  obtain ⟨k, hk⟩ := Nat.exists_eq_add_of_lt hlt
  have hrange : List.range' first (next - first) = first :: List.range' (first + 1) k := by
    rw [hk, Nat.add_assoc, Nat.add_sub_cancel_left]
    rfl
  have hfind : (first :: List.range' (first + 1) k).find? (fun i => (g i).enable == 0) =
      some first := List.find?_cons_of_pos (beq_iff_eq.mpr h)
  unfold freeSlot
  rw [hrange, hfind, Option.getD_some]
  exact if_neg (by omega)

end

theorem xferStep_apply (b : List UInt8) (g : Nat → TcpipCfg) (index i : Nat) :
    xferStep b g index i =
      if (xferV0 b index).enable ≠ 0 ∧
          i = freeSlot g (ofsAry.getD index 0) (ofsAry.getD (index + 1) 0) then
        (g i).setXfer (xferV0 b index)
      else g i := by
  unfold xferStep
  by_cases henable : (xferV0 b index).enable ≠ 0
  · rw [if_pos henable, Function.update_apply]
    by_cases hslot : i = freeSlot g (ofsAry.getD index 0) (ofsAry.getD (index + 1) 0)
    · rw [if_pos hslot, if_pos ⟨henable, hslot⟩, ← hslot]
    · rw [if_neg hslot, if_neg fun h => hslot h.2]
  · rw [if_neg henable, if_neg fun h => henable h.1]

/-- The strings of the old structures end in their arrays. -/
def Terminated (tcpip_cfg xfer_net_cfg : Option (List UInt8)) : Prop :=
  (∀ b ∈ tcpip_cfg, ∀ i < boardTcpipMax, (0 : UInt8) ∈ (tcpipV0 b i).peer) ∧
    ∀ b ∈ xfer_net_cfg, ∀ index < 2, (0 : UInt8) ∈ (xferV0 b index).peer

theorem length_cstr_lt {m : List UInt8} (h : (0 : UInt8) ∈ m) : (cstr m).length < m.length := by
  refine Nat.lt_of_le_of_ne (length_cstr_le m) fun heq => zero_not_mem_cstr m ?_
  have hsame : cstr m = m := (List.takeWhile_prefix _).eq_of_length heq
  exact hsame.symm ▸ h

theorem length_slice_le {α : Type} (file : List α) (pos n : Nat) : (slice file pos n).length ≤ n :=
  List.length_take_le n _

theorem length_cstr_tcpip (b : List UInt8) (i : Nat) :
    (cstr (tcpipV0 b i).peer).length < 64 := by
  have hle := length_cstr_le (tcpipV0 b i).peer
  have hlen : (tcpipV0 b i).peer.length ≤ 63 := length_slice_le _ _ _
  omega

theorem length_cstr_xfer {b : List UInt8} {index : Nat} (h : (0 : UInt8) ∈ (xferV0 b index).peer) :
    (cstr (xferV0 b index).peer).length < 64 := by
  have hlt := length_cstr_lt h
  have hlen : (xferV0 b index).peer.length ≤ 64 := length_slice_le _ _ _
  omega

/-! ## What the transfer connections leave of the others -/

/-- Every connection is blank, or lies under a transfer connection that leaves nothing of it. -/
def Replaced (tcpip_cfg xfer_net_cfg : List UInt8) : Prop :=
  ∀ i < boardTcpipMax, (tcpipV0 tcpip_cfg i).Blank ∨ ∃ index < 2, i = ofsAry.getD index 0 ∧
    (xferV0 xfer_net_cfg index).enable ≠ 0 ∧ (tcpipV0 tcpip_cfg i).enable = 0 ∧
      (tcpipV0 tcpip_cfg i).Hidden (xferV0 xfer_net_cfg index)

section
variable {t : List UInt8} (x : List UInt8)

/-- The table in terms of the slots of the transfer connections. -/
theorem migrate_apply (tcpip : Option (List UInt8)) (i : Nat) :
    migrate tcpip (some x) i =
      let e := migrate tcpip none
      let n₀ := freeSlot e 0 4
      let n₁ := freeSlot (xferStep x e 0) 4 8
      let g := if (xferV0 x 0).enable ≠ 0 ∧ i = n₀ then (e i).setXfer (xferV0 x 0) else e i
      if (xferV0 x 1).enable ≠ 0 ∧ i = n₁ then g.setXfer (xferV0 x 1) else g := by
  show xferStep x (xferStep x (migrate tcpip none) 0) 1 i = _
  rw [xferStep_apply, xferStep_apply]
  rfl

/-- Where no connection is enabled they are the first of their groups. -/
theorem migrate_disabled {tcpip : Option (List UInt8)}
    (h : ∀ i < boardTcpipMax, (migrate tcpip none i).enable = 0) (i : Nat) :
    migrate tcpip (some x) i =
      if (xferV0 x 0).enable ≠ 0 ∧ i = 0 then (migrate tcpip none i).setXfer (xferV0 x 0)
      else if (xferV0 x 1).enable ≠ 0 ∧ i = 4 then (migrate tcpip none i).setXfer (xferV0 x 1)
      else migrate tcpip none i := by
  have h0 : freeSlot (migrate tcpip none) 0 4 = 0 := freeSlot_first (by decide) (h 0 (by decide))
  have h1 : freeSlot (xferStep x (migrate tcpip none) 0) 4 8 = 4 := by
    refine freeSlot_first (by decide) ?_
    rw [xferStep_apply]
    have hslot : freeSlot (migrate tcpip none) (ofsAry.getD 0 0) (ofsAry.getD (0 + 1) 0) = 0 := h0
    rw [hslot, if_neg fun hand => absurd hand.2 (by decide)]
    exact h 4 (by decide)
  rw [migrate_apply]
  dsimp only
  rw [h0, h1]
  by_cases hi : i = 0
  · subst hi
    simp
  · simp [hi]

theorem migrate_none_apply (i : Nat) :
    migrate none (some x) i =
      if (xferV0 x 0).enable ≠ 0 ∧ i = 0 then TcpipCfg.zero.setXfer (xferV0 x 0)
      else if (xferV0 x 1).enable ≠ 0 ∧ i = 4 then TcpipCfg.zero.setXfer (xferV0 x 1)
      else TcpipCfg.zero := migrate_disabled x (fun _ _ => rfl) i

theorem TcpipCfgV0.Blank.hidden {v : TcpipCfgV0} (h : v.Blank) (x : XferNetCfgV0) : v.Hidden x := by
  refine ⟨?_, h.protoMs, h.maddress⟩
  rw [h.peer]
  exact Nat.zero_le _

variable {x}

theorem normalCfgs_of_lt {i : Nat} (hi : i < boardTcpipMax) :
    migrate (some t) none i = TcpipCfg.zero.setNormal (tcpipV0 t i) := if_pos hi

theorem migrate_of_replaced (hx : Terminated (some t) (some x)) (h : Replaced t x) :
    ∀ i < boardTcpipMax, migrate (some t) (some x) i = migrate none (some x) i := by
  have hdisabled : ∀ i < boardTcpipMax, (migrate (some t) none i).enable = 0 := fun i hi => by
    rw [normalCfgs_of_lt hi]
    rcases h i hi with hblank | ⟨_, _, _, _, henable, _⟩
    · exact hblank.enable
    · exact henable
  have hidden : ∀ index < 2, (xferV0 x index).enable ≠ 0 →
      (tcpipV0 t (ofsAry.getD index 0)).Hidden (xferV0 x index) := fun index hindex henable => by
    have hall : ∀ index < 2, ofsAry.getD index 0 < boardTcpipMax := by decide
    rcases h _ (hall index hindex) with hblank | ⟨index', hindex', hslot, -, -, hhidden⟩
    · exact hblank.hidden _
    · have hinj : ∀ a < 2, ∀ b < 2, ofsAry.getD a 0 = ofsAry.getD b 0 → a = b := by decide
      obtain rfl := hinj index hindex index' hindex' hslot
      exact hhidden
  have hset : ∀ index < 2, (xferV0 x index).enable ≠ 0 →
      (TcpipCfg.zero.setNormal (tcpipV0 t (ofsAry.getD index 0))).setXfer (xferV0 x index) =
        TcpipCfg.zero.setXfer (xferV0 x index) := fun index hindex henable =>
    (setXfer_eq_iff (length_cstr_tcpip t _) (length_cstr_xfer (hx.2 x rfl index hindex))).mpr
      (hidden index hindex henable)
  intro i hi
  rw [migrate_disabled x hdisabled, migrate_none_apply, normalCfgs_of_lt hi]
  split
  · next h0 =>
    obtain ⟨henable, rfl⟩ := h0
    exact hset 0 (by decide) henable
  · next h0 =>
    split
    · next h1 =>
      obtain ⟨henable, rfl⟩ := h1
      exact hset 1 (by decide) henable
    · next h1 =>
      refine (setNormal_eq_zero_iff (length_cstr_tcpip t i)).mpr ?_
      rcases h i hi with hblank | ⟨index, hindex, hslot, henable, -, -⟩
      · exact hblank
      · have hcases : index = 0 ∨ index = 1 := by omega
        rcases hcases with rfl | rfl
        · exact absurd ⟨henable, hslot⟩ h0
        · exact absurd ⟨henable, hslot⟩ h1

theorem mode_setXfer (g : TcpipCfg) (y : XferNetCfgV0) : (g.setXfer y).mode = 1 := rfl

/-- The modes tell where the transfer connections stand. -/
theorem mode_migrate {i : Nat} (hi : i < boardTcpipMax) :
    (migrate (some t) (some x) i).mode = 1 ↔
      ((xferV0 x 1).enable ≠ 0 ∧ i = freeSlot (xferStep x (migrate (some t) none) 0) 4 8) ∨
        ((xferV0 x 0).enable ≠ 0 ∧ i = freeSlot (migrate (some t) none) 0 4) := by
  have hmode : (migrate (some t) none i).mode = 0 := by
    rw [normalCfgs_of_lt hi]
    rfl
  rw [migrate_apply]
  dsimp only
  split_ifs with h1 h0 h0 <;> simp [*, mode_setXfer]

theorem mode_migrate_none (i : Nat) :
    (migrate none (some x) i).mode = 1 ↔
      ((xferV0 x 0).enable ≠ 0 ∧ i = 0) ∨ ((xferV0 x 1).enable ≠ 0 ∧ i = 4) := by
  have hmode : TcpipCfg.zero.mode = 0 := rfl
  rw [migrate_none_apply]
  split_ifs with h0 h1 <;> simp [*, mode_setXfer]

/-- The slots that the transfer connections take are the first of their groups. -/
theorem slots_of_migrate
    (h : ∀ i < boardTcpipMax, migrate (some t) (some x) i = migrate none (some x) i) :
    ((xferV0 x 0).enable ≠ 0 → freeSlot (migrate (some t) none) 0 4 = 0) ∧
      ((xferV0 x 1).enable ≠ 0 →
        freeSlot (xferStep x (migrate (some t) none) 0) 4 8 = 4) := by
  set n₀ := freeSlot (migrate (some t) none) 0 4 with hn₀
  set n₁ := freeSlot (xferStep x (migrate (some t) none) 0) 4 8 with hn₁
  have hslot : ∀ i < boardTcpipMax,
      (((xferV0 x 1).enable ≠ 0 ∧ i = n₁) ∨ ((xferV0 x 0).enable ≠ 0 ∧ i = n₀)) ↔
        ((xferV0 x 0).enable ≠ 0 ∧ i = 0) ∨ ((xferV0 x 1).enable ≠ 0 ∧ i = 4) := fun i hi => by
    rw [← mode_migrate hi, ← mode_migrate_none, h i hi]
  have h₀ : n₀ < 4 := by
    rcases freeSlot_cases (g := migrate (some t) none) (show 0 < 4 by decide) with h | h <;> omega
  have h₁ : n₁ < 8 := by
    rcases freeSlot_cases (g := xferStep x (migrate (some t) none) 0) (show 4 < 8 by decide) with
      h | h <;> omega
  constructor
  · intro henable
    rcases (hslot n₀ (Nat.lt_trans h₀ (by decide))).mp (Or.inr ⟨henable, rfl⟩) with hzero | hfour
    · exact hzero.2
    · exact absurd hfour.2 (Nat.ne_of_lt h₀)
  · intro henable
    rcases (hslot 4 (by decide)).mpr (Or.inr ⟨henable, rfl⟩) with hfour | hfour
    · exact hfour.2.symm
    · exact absurd hfour.2.symm (Nat.ne_of_lt h₀)

theorem blank_of_migrate
    (h : ∀ i < boardTcpipMax, migrate (some t) (some x) i = migrate none (some x) i) {i : Nat}
    (hi : i < boardTcpipMax) (h0 : ¬ ((xferV0 x 0).enable ≠ 0 ∧ i = 0))
    (h1 : ¬ ((xferV0 x 1).enable ≠ 0 ∧ i = 4)) : (tcpipV0 t i).Blank := by
  obtain ⟨hslot0, hslot1⟩ := slots_of_migrate h
  have hentry := h i hi
  rw [migrate_apply, migrate_none_apply] at hentry
  dsimp only at hentry
  rw [if_neg fun hand => h1 ⟨hand.1, hand.2.trans (hslot1 hand.1)⟩,
    if_neg fun hand => h0 ⟨hand.1, hand.2.trans (hslot0 hand.1)⟩, if_neg h0, if_neg h1,
    normalCfgs_of_lt hi] at hentry
  exact (setNormal_eq_zero_iff (length_cstr_tcpip t i)).mp hentry

theorem replaced_of_migrate (hx : Terminated (some t) (some x))
    (h : ∀ i < boardTcpipMax, migrate (some t) (some x) i = migrate none (some x) i) :
    Replaced t x := by
  obtain ⟨hslot0, hslot1⟩ := slots_of_migrate h
  intro i hi
  by_cases h0 : (xferV0 x 0).enable ≠ 0 ∧ i = 0
  · obtain ⟨henable, rfl⟩ := h0
    refine Or.inr ⟨0, by decide, rfl, henable, ?_, ?_⟩
    · rcases freeSlot_cases (g := migrate (some t) none) (show 0 < 4 by decide) with
        ⟨-, -, hfree⟩ | ⟨-, hfull⟩
      · rw [hslot0 henable, normalCfgs_of_lt hi] at hfree
        exact hfree
      · -- The slot behind would be enabled and untouched.
        have hblank := blank_of_migrate h (i := 1) (by decide) (by simp) (by simp)
        refine absurd ?_ (hfull 1 (by decide) (by decide))
        rw [normalCfgs_of_lt (by decide)]
        exact hblank.enable
    · have hentry := h 0 hi
      rw [migrate_apply, migrate_none_apply] at hentry
      dsimp only at hentry
      rw [if_neg fun hand => absurd (hand.2.trans (hslot1 hand.1)) (by decide),
        if_pos ⟨henable, (hslot0 henable).symm⟩, if_pos ⟨henable, rfl⟩,
        normalCfgs_of_lt hi] at hentry
      exact (setXfer_eq_iff (length_cstr_tcpip t 0)
        (length_cstr_xfer (hx.2 x rfl 0 (by decide)))).mp hentry
  · by_cases h1 : (xferV0 x 1).enable ≠ 0 ∧ i = 4
    · obtain ⟨henable, rfl⟩ := h1
      have hother : ¬ ((xferV0 x 0).enable ≠ 0 ∧ 4 = freeSlot (migrate (some t) none) 0 4) :=
        fun hand => absurd (hand.2.trans (hslot0 hand.1)) (by decide)
      refine Or.inr ⟨1, by decide, rfl, henable, ?_, ?_⟩
      · rcases freeSlot_cases (g := xferStep x (migrate (some t) none) 0)
          (show 4 < 8 by decide) with ⟨-, -, hfree⟩ | ⟨hzero, -⟩
        · have hkept : xferStep x (migrate (some t) none) 0 4 = migrate (some t) none 4 := by
            rw [xferStep_apply]
            exact if_neg hother
          rw [hslot1 henable, hkept, normalCfgs_of_lt hi] at hfree
          exact hfree
        · exact absurd (hzero.symm.trans (hslot1 henable)) (by decide)
      · have hentry := h 4 hi
        rw [migrate_apply, migrate_none_apply] at hentry
        dsimp only at hentry
        rw [if_pos ⟨henable, (hslot1 henable).symm⟩, if_neg hother, if_neg h0,
          if_pos ⟨henable, rfl⟩, normalCfgs_of_lt hi] at hentry
        exact (setXfer_eq_iff (length_cstr_tcpip t 4)
          (length_cstr_xfer (hx.2 x rfl 1 (by decide)))).mp hentry
    · exact Or.inl (blank_of_migrate h hi h0 h1)

/-- The connections of the section are lost without a trace in exactly these cases. -/
theorem migrate_eq_iff (hx : Terminated (some t) (some x)) :
    (∀ i < boardTcpipMax, migrate (some t) (some x) i = migrate none (some x) i) ↔ Replaced t x :=
  ⟨replaced_of_migrate hx, migrate_of_replaced hx⟩

end

/-! ## Sizes -/

theorem sized_zero : TcpipCfg.zero.Sized := ⟨List.length_replicate, List.length_replicate⟩

theorem TcpipCfg.Sized.setNormal {g : TcpipCfg} (h : g.Sized) {v : TcpipCfgV0}
    (hv : (cstr v.peer).length < 64) : (g.setNormal v).Sized := by
  refine ⟨(length_strcpy (h.peer.symm ▸ hv)).trans h.peer, ?_⟩
  show (writeAt g.cfg 0 [v.protoType, v.protoMs, v.maddress]).length = 20
  rw [length_writeAt _ (Nat.zero_le _), h.cfg]
  rfl

theorem TcpipCfg.Sized.setXfer {g : TcpipCfg} (h : g.Sized) {x : XferNetCfgV0}
    (hx : (cstr x.peer).length < 64) (hdst : x.dstCfg.length ≤ 12) : (g.setXfer x).Sized := by
  refine ⟨(length_strcpy (h.peer.symm ▸ hx)).trans h.peer, ?_⟩
  have hmode : (writeAt g.cfg 0 [0]).length = 20 := by
    rw [length_writeAt _ (Nat.zero_le _), h.cfg]
    rfl
  have hgw : (writeAt (writeAt g.cfg 0 [0]) 4 [x.protoType, x.dstType]).length = 20 := by
    rw [length_writeAt _ (by omega), hmode]
    rfl
  show (writeAt (writeAt (writeAt g.cfg 0 [0]) 4 [x.protoType, x.dstType]) 8 x.dstCfg).length = 20
  rw [length_writeAt _ (by omega), hgw]
  omega

theorem sized_xferStep {b : List UInt8} {g : Nat → TcpipCfg} (h : ∀ i, (g i).Sized) {index : Nat}
    (hx : (0 : UInt8) ∈ (xferV0 b index).peer) (i : Nat) : (xferStep b g index i).Sized := by
  rw [xferStep_apply]
  split
  · exact (h i).setXfer (length_cstr_xfer hx) (length_slice_le _ _ _)
  · exact h i

/-- The table fits the arrays. -/
theorem sized_migrate (tcpip : Option (List UInt8)) {xfer : Option (List UInt8)}
    (h : ∀ b ∈ xfer, ∀ index < 2, (0 : UInt8) ∈ (xferV0 b index).peer) (i : Nat) :
    (migrate tcpip xfer i).Sized := by
  have hnone : ∀ i, (migrate tcpip none i).Sized := fun i => by
    cases tcpip with
    | none => exact sized_zero
    | some t =>
      show (normalCfgs t i).Sized
      unfold normalCfgs
      split
      · exact sized_zero.setNormal (length_cstr_tcpip t i)
      · exact sized_zero
  cases xfer with
  | none => exact hnone i
  | some x =>
    exact sized_xferStep (sized_xferStep hnone (h x rfl 0 (by decide))) (h x rfl 1 (by decide)) i

theorem zigbeeBytes_spec {z : List UInt8} (h : z.length = sizeofZigbeeV0) :
    (zigbeeBytes z).length = 100 ∧ slice (zigbeeBytes z) 0 sizeofZigbeeV0 = z := by
  have hlen : (writeAt (List.replicate 100 0) 0 z).length = 100 := by
    rw [length_writeAt _ (Nat.zero_le _), List.length_replicate, h]
    rfl
  unfold zigbeeBytes
  constructor
  · rw [length_writeAt _ (by rw [hlen]; decide), hlen]
    rfl
  · rw [slice_writeAt_before _ (by rw [hlen]; decide) (by decide), ← h,
      slice_writeAt _ (Nat.zero_le _)]

end K64Gateway.CfgRecover
