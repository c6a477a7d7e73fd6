import K64Gateway.Board.BoardCfgRuns
import K64Gateway.Board.CfgRecover

/-
  The migration of `board/cfg/cfg_recover.c` at the start of the device, and a loss of power between
  two of its writes.

  Proved: the next start ends with the same sections exactly if the connections and the transfer
  connections were not both stored, or nothing of the connections is left under the others, where
  the check of the old size does not match the new table by chance (`recover_survives`).
-/

namespace K64Gateway.CfgRecover

open FileImage LittleEndian CString Board

/-! ## The start of the device -/

/-- `CFG_VER` -/
def cfgVer : UInt8 := 1

/-- A call of `board_cfg_write`. -/
abbrev Write : Type := Section × List UInt8

section
variable (clips : Bool) (file : List UInt8)

def readTcpip : Option (List UInt8) :=
  boardCfgRead clips (some file) tcpipCfg.ofs sizeofTcpipV0All

def readXfer : Option (List UInt8) :=
  boardCfgRead clips (some file) xferUartCfg.ofs sizeofXferNetV0All

def readZigbee : Option (List UInt8) :=
  boardCfgRead clips (some file) zigbeeCfg.ofs sizeofZigbeeV0

/-- The writes of `_cfg_recover_0_2_1`, which reads everything before; its buffers are there. -/
def recoverWrites : List Write :=
  let tcpip_cfg := readTcpip clips file
  let xfer_net_cfg := readXfer clips file
  (if tcpip_cfg.isSome || xfer_net_cfg.isSome then
    [(tcpipCfg, tableBytes (migrate tcpip_cfg xfer_net_cfg))] else []) ++
  ((readZigbee clips file).toList.map fun zigbee_cfg => (zigbeeCfg, zigbeeBytes zigbee_cfg)) ++
  [(cfgInfo, [cfgVer])]

/-- The writes of `board_cfg_init` and `cfg_recover_try`. -/
def initWrites : List Write :=
  match boardCfgRead clips (some file) cfgInfo.ofs 1 with
  | none => [(cfgInfo, [cfgVer])]
  | some cfg_info =>
      let usVer := cfg_info.getD 0 0
      if usVer ≠ cfgVer then
        if usVer = 0 ∧ cfgVer = 1 then recoverWrites clips file else []
      else []

/-- The file after some writes. -/
def applyWrites (seek : SeekEnd) (writes : List Write) : List UInt8 :=
  writes.foldl (fun file w => (boardCfgWrite seek (some file) w.1.ofs w.2).1) file

/-- The file after `board_cfg_init`. -/
def start (seek : SeekEnd) : List UInt8 := applyWrites file seek (initWrites clips file)

/-- A configuration of version 0. -/
structure StoredV0 : Prop where
  version : boardCfgRead clips (some file) cfgInfo.ofs 1 = some [0]
  terminated : Terminated (readTcpip clips file) (readXfer clips file)

/-- Wherever the power is lost between two writes, the next start ends with the same sections. -/
def Survives (seek : SeekEnd) : Prop :=
  ∀ n, 0 < n → n < (recoverWrites clips file).length →
    ∀ s ∈ [tcpipCfg, zigbeeCfg, cfgInfo],
      slice (start clips (applyWrites file seek ((recoverWrites clips file).take n)) seek)
          s.ofs s.size =
        slice (start clips file seek) s.ofs s.size

end

/-! ## Sections -/

/-- `board_cfg_read` on the bytes of a section. -/
def readRegion (region : List UInt8) (len : Nat) : Option (List UInt8) :=
  if len + 6 ≤ region.length ∧ IsRecord region len then some (slice region 4 len) else none

/-- What a write makes of the bytes of the section `s`. -/
def overlay (s : Section) (region : List UInt8) (w : Write) : List UInt8 :=
  if w.1 = s then record w.2 ++ region.drop (record w.2).length else region

/-- A write that fits its section, which the file reaches. -/
structure Fits (file : List UInt8) (w : Write) : Prop where
  mem : w.1 ∈ sections
  fits : w.2.length + 6 ≤ w.1.size
  reached : w.1.ofs ≤ file.length

section
variable (clips : Bool) (file : List UInt8)

theorem isRecord_slice {region : List UInt8} {n len : Nat} (h : len + 6 ≤ n) :
    IsRecord (slice region 0 n) len ↔ IsRecord region len := by
  unfold IsRecord
  rw [slice_slice (by omega), slice_slice (by omega), slice_slice (by omega), Nat.zero_add,
    Nat.zero_add, Nat.zero_add]

theorem boardCfgRead_region (s : Section) {len : Nat} (h : len + 6 ≤ s.size) :
    boardCfgRead clips (some file) s.ofs len = readRegion (slice file s.ofs s.size) len := by
  have hpart : slice file s.ofs (len + 6) = slice (slice file s.ofs s.size) 0 (len + 6) :=
    (slice_slice (show 0 + (len + 6) ≤ s.size by omega)).symm
  unfold readRegion
  by_cases hlen : len + 6 ≤ (slice file s.ofs s.size).length
  · have hdata : slice (slice (slice file s.ofs s.size) 0 (len + 6)) 4 len =
        slice (slice file s.ofs s.size) 4 len := by
      rw [slice_slice (show 4 + len ≤ len + 6 by omega), Nat.zero_add]
    rw [boardCfgRead_slice clips hpart (length_slice (by omega)) (Nat.le_refl _), hdata]
    simp only [hlen, true_and, isRecord_slice (Nat.le_refl (len + 6))]
  · have hend : file.length < s.ofs + (len + 6) := by
      unfold slice at hlen
      rw [List.length_take, List.length_drop] at hlen
      omega
    rw [if_neg fun hand => hlen hand.1]
    have hcheck : (slice file (s.ofs + 4 + len) 2).length ≠ 2 := fun heq => by
      have hle := le_of_length_slice heq (by decide)
      omega
    unfold boardCfgRead
    dsimp only
    rw [if_neg hcheck, ite_self, ite_self, ite_self]

theorem slice_boardCfgWrite (seek : SeekEnd) {w : Write} (h : Fits file w) {s : Section}
    (hs : s ∈ sections) :
    slice (boardCfgWrite seek (some file) w.1.ofs w.2).1 s.ofs s.size =
      overlay s (slice file s.ofs s.size) w := by
  have hfill : fillOf seek file.length (w.1.ofs - file.length) = [] := by
    apply List.eq_nil_of_length_eq_zero
    rw [length_fillOf, Nat.sub_eq_zero_of_le h.reached]
  rw [boardCfgWrite_eq, Option.getD_some, hfill, List.append_nil]
  have hlen := length_record w.2
  have hfits := h.fits
  unfold overlay
  split
  · next hsec =>
    subst hsec
    have hsplit := slice_eq_append (writeAt file w.1.ofs (record w.2)) w.1.ofs
      (show (record w.2).length ≤ w.1.size by omega)
    rw [slice_writeAt _ h.reached, slice_writeAt_after _ h.reached _ (Nat.le_refl _)] at hsplit
    rw [hsplit]
    unfold slice
    rw [List.drop_take, List.drop_drop]
  · next hsec =>
    rcases sections_apart h.mem hs hsec with hafter | hbefore
    · exact slice_writeAt_after _ h.reached _ (by omega)
    · exact slice_writeAt_before _ h.reached hbefore

theorem le_length_boardCfgWrite (seek : SeekEnd) {w : Write} (h : Fits file w) :
    file.length ≤ (boardCfgWrite seek (some file) w.1.ofs w.2).1.length := by
  have hfill : fillOf seek file.length (w.1.ofs - file.length) = [] := by
    apply List.eq_nil_of_length_eq_zero
    rw [length_fillOf, Nat.sub_eq_zero_of_le h.reached]
  rw [boardCfgWrite_eq, Option.getD_some, hfill, List.append_nil, length_writeAt _ h.reached]
  exact Nat.le_max_left _ _

/-- The writes change each section by itself. -/
theorem slice_applyWrites (seek : SeekEnd) {writes : List Write} {file : List UInt8}
    (h : ∀ w ∈ writes, Fits file w) {s : Section} (hs : s ∈ sections) :
    slice (applyWrites file seek writes) s.ofs s.size =
      writes.foldl (overlay s) (slice file s.ofs s.size) := by
  induction writes generalizing file with
  | nil => rfl
  | cons w writes ih =>
    have hw := h w List.mem_cons_self
    rw [List.foldl_cons, ← slice_boardCfgWrite file seek hw hs]
    refine ih fun w' hw' => ?_
    have hfits := h w' (List.mem_cons_of_mem _ hw')
    exact ⟨hfits.mem, hfits.fits, Nat.le_trans hfits.reached (le_length_boardCfgWrite file seek hw)⟩

end

/-! ## What the migration makes of the sections -/

/-- The TCP/IP section after the migration. -/
def tcpipAfter (region : List UInt8) (xfer_net_cfg : Option (List UInt8)) : List UInt8 :=
  let tcpip_cfg := readRegion region sizeofTcpipV0All
  if tcpip_cfg.isSome || xfer_net_cfg.isSome then
    overlay tcpipCfg region (tcpipCfg, tableBytes (migrate tcpip_cfg xfer_net_cfg))
  else region

/-- The Zigbee section after it. -/
def zigbeeAfter (region : List UInt8) : List UInt8 :=
  match readRegion region sizeofZigbeeV0 with
  | some zigbee_cfg => overlay zigbeeCfg region (zigbeeCfg, zigbeeBytes zigbee_cfg)
  | none => region

theorem length_readRegion {region pcfg : List UInt8} {len : Nat}
    (h : readRegion region len = some pcfg) : pcfg.length = len := by
  unfold readRegion at h
  split at h
  · next hand =>
    rw [← Option.some.inj h]
    exact length_slice (by omega)
  · exact nomatch h

/-- A section with a record lies in the file. -/
theorem reached_of_readRegion {file pcfg : List UInt8} {s : Section} {len : Nat}
    (h : readRegion (slice file s.ofs s.size) len = some pcfg) : s.ofs ≤ file.length := by
  unfold readRegion at h
  split at h
  · next hand =>
    by_contra hlt
    rw [slice_of_length_le (Nat.le_of_not_le hlt)] at hand
    exact absurd hand.1 (Nat.not_succ_le_zero _)
  · exact nomatch h

section
variable (clips : Bool) (seek : SeekEnd) {file : List UInt8}

theorem readTcpip_eq (file : List UInt8) :
    readTcpip clips file =
      readRegion (slice file tcpipCfg.ofs tcpipCfg.size) sizeofTcpipV0All :=
  boardCfgRead_region clips file tcpipCfg (by decide)

theorem readXfer_eq (file : List UInt8) :
    readXfer clips file =
      readRegion (slice file xferUartCfg.ofs xferUartCfg.size) sizeofXferNetV0All :=
  boardCfgRead_region clips file xferUartCfg (by decide)

theorem readZigbee_eq (file : List UInt8) :
    readZigbee clips file =
      readRegion (slice file zigbeeCfg.ofs zigbeeCfg.size) sizeofZigbeeV0 :=
  boardCfgRead_region clips file zigbeeCfg (by decide)

/-- The strings of the transfer connections end in their arrays. -/
def XferTerminated (xfer_net_cfg : Option (List UInt8)) : Prop :=
  ∀ b ∈ xfer_net_cfg, ∀ index < 2, (0 : UInt8) ∈ (xferV0 b index).peer

theorem length_table (tcpip : Option (List UInt8)) {xfer : Option (List UInt8)}
    (h : XferTerminated xfer) : (tableBytes (migrate tcpip xfer)).length = 832 :=
  length_tableBytes fun i _ => sized_migrate tcpip h i

theorem fits_recoverWrites (h : XferTerminated (readXfer clips file)) :
    ∀ w ∈ recoverWrites clips file, Fits file w := by
  intro w hw
  unfold recoverWrites at hw
  simp only [List.mem_append, List.mem_singleton, List.mem_map, Option.mem_toList] at hw
  rcases hw with (hw | ⟨z, hz, rfl⟩) | rfl
  · split at hw
    · next hsome =>
      rw [List.mem_singleton] at hw
      subst hw
      refine ⟨(by decide : tcpipCfg ∈ sections), ?_, ?_⟩
      · show (tableBytes _).length + 6 ≤ 2048
        rw [length_table _ h]
        decide
      · rcases Bool.or_eq_true_iff.mp hsome with htcpip | hxfer
        · obtain ⟨t, ht⟩ := Option.isSome_iff_exists.mp htcpip
          rw [readTcpip_eq] at ht
          exact reached_of_readRegion ht
        · obtain ⟨x, hx⟩ := Option.isSome_iff_exists.mp hxfer
          rw [readXfer_eq] at hx
          exact Nat.le_trans (show tcpipCfg.ofs ≤ xferUartCfg.ofs by decide)
            (reached_of_readRegion hx)
    · exact absurd hw List.not_mem_nil
  · rw [readZigbee_eq] at hz
    refine ⟨(by decide : zigbeeCfg ∈ sections), ?_, reached_of_readRegion hz⟩
    show (zigbeeBytes z).length + 6 ≤ 256
    rw [(zigbeeBytes_spec (length_readRegion hz)).1]
    decide
  · exact ⟨by decide, by decide, Nat.zero_le _⟩

/-- The sections apart from each other. -/
theorem sections_ne : tcpipCfg ≠ zigbeeCfg ∧ tcpipCfg ≠ cfgInfo ∧ tcpipCfg ≠ xferUartCfg ∧
    zigbeeCfg ≠ cfgInfo ∧ zigbeeCfg ≠ xferUartCfg ∧ cfgInfo ≠ xferUartCfg := by decide

/-- The writes, section by section. -/
theorem foldl_recoverWrites (file : List UInt8) :
    (recoverWrites clips file).foldl (overlay tcpipCfg) (slice file tcpipCfg.ofs tcpipCfg.size) =
        tcpipAfter (slice file tcpipCfg.ofs tcpipCfg.size) (readXfer clips file) ∧
      (recoverWrites clips file).foldl (overlay zigbeeCfg) (slice file zigbeeCfg.ofs zigbeeCfg.size) =
        zigbeeAfter (slice file zigbeeCfg.ofs zigbeeCfg.size) ∧
      (recoverWrites clips file).foldl (overlay cfgInfo) (slice file cfgInfo.ofs cfgInfo.size) =
        overlay cfgInfo (slice file cfgInfo.ofs cfgInfo.size) (cfgInfo, [cfgVer]) := by
  obtain ⟨htz, hti, -, hzi, -⟩ := sections_ne
  unfold recoverWrites tcpipAfter zigbeeAfter
  rw [readTcpip_eq, readZigbee_eq]
  dsimp only
  refine ⟨?_, ?_, ?_⟩ <;>
    split <;> cases readRegion (slice file zigbeeCfg.ofs zigbeeCfg.size) sizeofZigbeeV0 <;>
    simp [overlay, htz, hti, hzi, htz.symm, hti.symm, hzi.symm]

/-- What was written before the last write: the TCP/IP section, and perhaps the Zigbee section. -/
theorem foldl_take {n : Nat} (hn : 0 < n) (hlt : n < (recoverWrites clips file).length)
    (r : List UInt8) :
    ((recoverWrites clips file).take n).foldl (overlay tcpipCfg) r =
        (recoverWrites clips file).foldl (overlay tcpipCfg) r ∧
      (((recoverWrites clips file).take n).foldl (overlay zigbeeCfg) r = r ∨
        ((recoverWrites clips file).take n).foldl (overlay zigbeeCfg) r =
          (recoverWrites clips file).foldl (overlay zigbeeCfg) r) ∧
      ((recoverWrites clips file).take n).foldl (overlay cfgInfo) r = r ∧
      ((recoverWrites clips file).take n).foldl (overlay xferUartCfg) r = r := by
  obtain ⟨htz, hti, htx, hzi, hzx, -⟩ := sections_ne
  revert hlt
  unfold recoverWrites
  dsimp only
  split <;> cases readZigbee clips file <;> intro hlt
  all_goals
    simp only [List.length_append, List.length_cons, List.length_nil, Option.toList_none,
      Option.toList_some, List.map_nil, List.map_cons] at hlt
    have hcases : n = 1 ∨ n = 2 := by omega
    rcases hcases with rfl | rfl <;>
      simp [overlay, htz, hti, htx, hzi, hzx, htz.symm, hti.symm, hzi.symm] at hlt ⊢

/-- The sections after a start with a configuration of version 0. -/
theorem slice_start (hversion : boardCfgRead clips (some file) cfgInfo.ofs 1 = some [0])
    (hterminated : XferTerminated (readXfer clips file)) :
    slice (start clips file seek) tcpipCfg.ofs tcpipCfg.size =
        tcpipAfter (slice file tcpipCfg.ofs tcpipCfg.size) (readXfer clips file) ∧
      slice (start clips file seek) zigbeeCfg.ofs zigbeeCfg.size =
        zigbeeAfter (slice file zigbeeCfg.ofs zigbeeCfg.size) ∧
      slice (start clips file seek) cfgInfo.ofs cfgInfo.size =
        overlay cfgInfo (slice file cfgInfo.ofs cfgInfo.size) (cfgInfo, [cfgVer]) := by
  have hwrites : initWrites clips file = recoverWrites clips file := by
    unfold initWrites
    rw [hversion]
    rfl
  obtain ⟨htcpip, hzigbee, hinfo⟩ := foldl_recoverWrites clips file
  have hfits := fits_recoverWrites clips hterminated
  unfold start
  rw [hwrites, slice_applyWrites seek hfits (by decide), slice_applyWrites seek hfits (by decide),
    slice_applyWrites seek hfits (by decide)]
  exact ⟨htcpip, hzigbee, hinfo⟩

/-- A write to a section over one of the same size. -/
theorem over_over (s : Section) (region : List UInt8) {pcfg pcfg' : List UInt8}
    (h : pcfg.length = pcfg'.length) :
    overlay s (overlay s region (s, pcfg)) (s, pcfg') = overlay s region (s, pcfg') := by
  unfold overlay
  dsimp only
  rw [if_pos rfl, if_pos rfl, if_pos rfl, length_record, length_record, h,
    List.drop_left' (by rw [length_record, h])]

/-- What is read of a section after a write of more bytes. -/
theorem readRegion_over (s : Section) (region : List UInt8) {pcfg : List UInt8} {len : Nat}
    (h : len ≤ pcfg.length) :
    readRegion (overlay s region (s, pcfg)) len =
      if IsRecord (record pcfg) len then some (slice pcfg 0 len) else none := by
  have hlen := length_record pcfg
  have hover : overlay s region (s, pcfg) = record pcfg ++ region.drop (record pcfg).length := if_pos rfl
  have hpart : ∀ pos n, pos + n ≤ (record pcfg).length →
      slice (overlay s region (s, pcfg)) pos n = slice (record pcfg) pos n := fun pos n hle => by
    rw [hover, slice_append_left _ hle]
  have hdata : slice (record pcfg) 4 len = slice pcfg 0 len := by
    rw [← (slice_record pcfg).2.1, slice_slice (by omega), (slice_record pcfg).2.1]
  have hrecord : IsRecord (overlay s region (s, pcfg)) len ↔ IsRecord (record pcfg) len := by
    unfold IsRecord
    rw [hpart 0 4 (by omega), hpart (4 + len) 2 (by omega), hpart 4 len (by omega)]
  have hle : len + 6 ≤ (overlay s region (s, pcfg)).length := by
    rw [hover, List.length_append]
    omega
  unfold readRegion
  simp only [hle, true_and, hrecord, hpart 4 len (by omega), hdata]

/-- The Zigbee section is the same after a second migration. -/
theorem zigbeeAfter_zigbeeAfter (region : List UInt8) :
    zigbeeAfter (zigbeeAfter region) = zigbeeAfter region := by
  cases hz : readRegion region sizeofZigbeeV0 with
  | none =>
    have hsame : zigbeeAfter region = region := by
      unfold zigbeeAfter
      rw [hz]
    rw [hsame, hsame]
  | some z =>
    obtain ⟨hlen, hprefix⟩ := zigbeeBytes_spec (length_readRegion hz)
    have hafter : zigbeeAfter region = overlay zigbeeCfg region (zigbeeCfg, zigbeeBytes z) := by
      unfold zigbeeAfter
      rw [hz]
    rw [hafter]
    unfold zigbeeAfter
    rw [readRegion_over _ _ (by rw [hlen]; decide), hprefix]
    split
    · next z' hz' =>
      split at hz'
      · rw [← Option.some.inj hz', over_over _ _ rfl]
      · exact nomatch hz'
    · rfl

/-- Only the TCP/IP section can differ. -/
theorem survives_iff (h : StoredV0 clips file) :
    Survives clips file seek ↔
      tcpipAfter (tcpipAfter (slice file tcpipCfg.ofs tcpipCfg.size) (readXfer clips file))
          (readXfer clips file) =
        tcpipAfter (slice file tcpipCfg.ofs tcpipCfg.size) (readXfer clips file) := by
  have hterminated : XferTerminated (readXfer clips file) := h.terminated.2
  have hfits := fits_recoverWrites clips hterminated
  have hstart := slice_start clips seek h.version hterminated
  obtain ⟨htcpip, hzigbee, -⟩ := foldl_recoverWrites clips file
  -- The sections after the loss of power, and what the next start makes of them.
  have hnext : ∀ n, 0 < n → n < (recoverWrites clips file).length →
      let file' := applyWrites file seek ((recoverWrites clips file).take n)
      slice (start clips file' seek) tcpipCfg.ofs tcpipCfg.size =
          tcpipAfter (tcpipAfter (slice file tcpipCfg.ofs tcpipCfg.size) (readXfer clips file))
            (readXfer clips file) ∧
        slice (start clips file' seek) zigbeeCfg.ofs zigbeeCfg.size =
          zigbeeAfter (slice file zigbeeCfg.ofs zigbeeCfg.size) ∧
        slice (start clips file' seek) cfgInfo.ofs cfgInfo.size =
          overlay cfgInfo (slice file cfgInfo.ofs cfgInfo.size) (cfgInfo, [cfgVer]) := by
    intro n hn hlt file'
    have hfits' : ∀ w ∈ (recoverWrites clips file).take n, Fits file w := fun w hw =>
      hfits w (List.mem_of_mem_take hw)
    have hslice : ∀ s ∈ sections, slice file' s.ofs s.size =
        ((recoverWrites clips file).take n).foldl (overlay s) (slice file s.ofs s.size) :=
      fun s hs => slice_applyWrites seek hfits' hs
    have hxfer : readXfer clips file' = readXfer clips file := by
      rw [readXfer_eq, readXfer_eq, hslice xferUartCfg (by decide), (foldl_take clips hn hlt _).2.2.2]
    have hversion : boardCfgRead clips (some file') cfgInfo.ofs 1 = some [0] := by
      rw [boardCfgRead_region clips file' cfgInfo (by decide), hslice cfgInfo (by decide),
        (foldl_take clips hn hlt _).2.2.1, ← boardCfgRead_region clips file cfgInfo (by decide)]
      exact h.version
    obtain ⟨ht, hz, hi⟩ := slice_start clips seek hversion (hxfer.symm ▸ hterminated)
    rw [ht, hz, hi, hxfer, hslice tcpipCfg (by decide), hslice zigbeeCfg (by decide),
      hslice cfgInfo (by decide), (foldl_take clips hn hlt _).1, htcpip,
      (foldl_take clips hn hlt _).2.2.1]
    refine ⟨rfl, ?_, rfl⟩
    rcases (foldl_take clips hn hlt (slice file zigbeeCfg.ofs zigbeeCfg.size)).2.1 with hsame | hall
    · rw [hsame]
    · rw [hall, hzigbee, zigbeeAfter_zigbeeAfter]
  constructor
  · intro hsurvives
    by_cases hwritten : ((readTcpip clips file).isSome || (readXfer clips file).isSome) = true
    · have hlt : 1 < (recoverWrites clips file).length := by
        unfold recoverWrites
        dsimp only
        rw [if_pos hwritten, List.length_append, List.length_append]
        simp only [List.length_cons, List.length_nil]
        omega
      have hsame := hsurvives 1 Nat.one_pos hlt tcpipCfg List.mem_cons_self
      rwa [(hnext 1 Nat.one_pos hlt).1, hstart.1] at hsame
    · have hsame : tcpipAfter (slice file tcpipCfg.ofs tcpipCfg.size) (readXfer clips file) =
          slice file tcpipCfg.ofs tcpipCfg.size := by
        rw [readTcpip_eq] at hwritten
        exact if_neg hwritten
      rw [hsame, hsame]
  · intro hsame n hn hlt s hs
    obtain ⟨ht, hz, hi⟩ := hnext n hn hlt
    simp only [List.mem_cons, List.not_mem_nil, or_false] at hs
    rcases hs with rfl | rfl | rfl
    · rw [ht, hstart.1, hsame]
    · rw [hz, hstart.2.1]
    · rw [hi, hstart.2.2]

end

/-! ## A second migration -/

section
variable {region : List UInt8} {xfer : Option (List UInt8)}

theorem over_inj (s : Section) (region : List UInt8) {pcfg pcfg' : List UInt8}
    (hlen : pcfg.length = pcfg'.length) :
    overlay s region (s, pcfg) = overlay s region (s, pcfg') ↔ pcfg = pcfg' := by
  refine ⟨fun heq => ?_, fun heq => by rw [heq]⟩
  unfold overlay at heq
  dsimp only at heq
  rw [if_pos rfl, if_pos rfl] at heq
  have hrecord := (List.append_inj heq (by rw [length_record, length_record, hlen])).1
  rw [← (slice_record pcfg).2.1, hrecord, hlen, (slice_record pcfg').2.1]

/-- Where the check of the old size does not match the new table, the connections are missing from
    the second migration. -/
theorem tcpipAfter_tcpipAfter (hx : XferTerminated xfer)
    (hcheck : ¬ IsRecord (record (tableBytes
      (migrate (readRegion region sizeofTcpipV0All) xfer))) sizeofTcpipV0All) :
    tcpipAfter (tcpipAfter region xfer) xfer = tcpipAfter region xfer ↔
      xfer = none ∨ ∀ i < boardTcpipMax,
        migrate (readRegion region sizeofTcpipV0All) xfer i = migrate none xfer i := by
  set tcpip := readRegion region sizeofTcpipV0All with htcpip
  by_cases hwritten : (tcpip.isSome || xfer.isSome) = true
  · have hafter : tcpipAfter region xfer =
        overlay tcpipCfg region (tcpipCfg, tableBytes (migrate tcpip xfer)) := if_pos hwritten
    have hread : readRegion (overlay tcpipCfg region (tcpipCfg, tableBytes (migrate tcpip xfer)))
        sizeofTcpipV0All = none := by
      rw [readRegion_over _ _ (by rw [length_table _ hx]; decide), if_neg hcheck]
    rw [hafter]
    unfold tcpipAfter
    dsimp only
    rw [hread, Option.isSome_none, Bool.false_or]
    cases xfer with
    | none => exact iff_of_true rfl (Or.inl rfl)
    | some x =>
      rw [Option.isSome_some, if_pos rfl, over_over _ _ (by rw [length_table _ hx, length_table _ hx]),
        over_inj _ _ (by rw [length_table _ hx, length_table _ hx]),
        tableBytes_eq_iff (fun i _ => sized_migrate _ hx i) (fun i _ => sized_migrate _ hx i)]
      constructor
      · exact fun hsame => Or.inr fun i hi => (hsame i hi).symm
      · rintro (hnone | hsame)
        · exact nomatch hnone
        · exact fun i hi => (hsame i hi).symm
  · have hsame : tcpipAfter region xfer = region := if_neg hwritten
    rw [hsame, hsame]
    refine iff_of_true rfl (Or.inl ?_)
    cases xfer with
    | none => rfl
    | some x => exact absurd (Bool.or_true _) hwritten

end

/-! ## The loss of power -/

section
variable (clips : Bool) (file : List UInt8)

/-- The new table, read through the old structure, has the right check. -/
def ChecksAsOld : Prop :=
  IsRecord (record (tableBytes (migrate (readTcpip clips file) (readXfer clips file))))
    sizeofTcpipV0All

/-- Neither connections nor transfer connections were stored; or the check does not match by chance,
    and not both were stored or nothing of the connections is left under the others. -/
def Harmless : Prop :=
  (readTcpip clips file = none ∧ readXfer clips file = none) ∨
    (¬ ChecksAsOld clips file ∧ (readTcpip clips file = none ∨ readXfer clips file = none ∨
      ∃ t x, readTcpip clips file = some t ∧ readXfer clips file = some x ∧ Replaced t x))

end

variable {clips : Bool} {file : List UInt8}

/-- Without a check that matches by chance the condition is exact. -/
theorem survives_iff_harmless (seek : SeekEnd) (h : StoredV0 clips file)
    (hcheck : ¬ ChecksAsOld clips file) :
    Survives clips file seek ↔ Harmless clips file := by
  have hcheck' : ¬ IsRecord (record (tableBytes (migrate (readRegion
      (slice file tcpipCfg.ofs tcpipCfg.size) sizeofTcpipV0All) (readXfer clips file))))
        sizeofTcpipV0All := by
    rw [← readTcpip_eq clips]
    exact hcheck
  have hterminated := h.terminated
  rw [survives_iff clips seek h, tcpipAfter_tcpipAfter h.terminated.2 hcheck', ← readTcpip_eq clips]
  unfold Harmless
  cases ht : readTcpip clips file with
  | none => simp [hcheck]
  | some t =>
    cases hx : readXfer clips file with
    | none => simp [hcheck]
    | some x =>
      rw [ht, hx] at hterminated
      simp [hcheck, migrate_eq_iff hterminated]

/-- A migration that the loss of power does not harm: apart from a check that matches by chance,
    these are all. -/
theorem recover_survives (seek : SeekEnd) (h : StoredV0 clips file) :
    (Harmless clips file → Survives clips file seek) ∧
      (Survives clips file seek → Harmless clips file ∨ ChecksAsOld clips file) := by
  constructor
  · intro hharmless
    rcases hharmless with ⟨htcpip, hxfer⟩ | hrest
    · rw [survives_iff clips seek h]
      have hsame : tcpipAfter (slice file tcpipCfg.ofs tcpipCfg.size) (readXfer clips file) =
          slice file tcpipCfg.ofs tcpipCfg.size := by
        unfold tcpipAfter
        rw [← readTcpip_eq clips, htcpip, hxfer]
        rfl
      rw [hsame, hsame]
    · exact (survives_iff_harmless seek h hrest.1).mpr (Or.inr hrest)
  · intro hsurvives
    by_cases hcheck : ChecksAsOld clips file
    · exact Or.inr hcheck
    · exact Or.inl ((survives_iff_harmless seek h hcheck).mp hsurvives)

/-- One client connection, `10.0.0.1` at port 502. -/
def oneConnection : List UInt8 :=
  bytes32 1 ++ [0, 0, 0, 0] ++ chars "10.0.0.1".toList ++ List.replicate 55 0 ++ [1] ++
    bytes16 502 ++ [0, 0] ++ bytes32 0 ++ bytes32 1 ++ List.replicate (7 * 84) 0

theorem length_oneConnection : oneConnection.length = sizeofTcpipV0All := by
  unfold oneConnection
  simp only [List.length_append, List.length_replicate]
  rfl

/-- It is stored, and no transfer connections. -/
def storedConnection : List Call :=
  [⟨cfgInfo, .stops, [0]⟩, ⟨tcpipCfg, .stops, oneConnection⟩]

/-- It is stored, and transfer connections that are not enabled. -/
def storedBoth : List Call :=
  storedConnection ++ [⟨xferUartCfg, .stops, List.replicate 176 0⟩]

theorem storedConnection_valid : ∀ c ∈ storedConnection, c.Valid := by
  intro c hc
  rcases List.mem_pair.mp hc with rfl | rfl
  · exact ⟨by decide, by decide⟩
  · refine ⟨by decide, ?_⟩
    show oneConnection.length + 6 ≤ tcpipCfg.size
    rw [length_oneConnection]
    decide

theorem storedBoth_valid : ∀ c ∈ storedBoth, c.Valid := by
  intro c hc
  rcases List.mem_append.mp hc with hc | hc
  · exact storedConnection_valid c hc
  · rw [List.mem_singleton.mp hc]
    refine ⟨by decide, ?_⟩
    show (List.replicate 176 (0 : UInt8)).length + 6 ≤ xferUartCfg.size
    rw [List.length_replicate]
    decide

theorem run_eq_some (pre : List Call) (c : Call) :
    run (pre ++ [c]) = some ((run (pre ++ [c])).getD []) := by
  rw [run_snoc]
  rfl

theorem oneConnection_terminated :
    ∀ b ∈ some oneConnection, ∀ i < boardTcpipMax, (0 : UInt8) ∈ (tcpipV0 b i).peer := by
  intro b hb i hi
  obtain rfl := Option.some.inj hb
  have hget : (tcpipV0 oneConnection i).peer[8]? = oneConnection[84 * i + 16]? := by
    show (((oneConnection.drop (84 * i)).take 84).drop 8 |>.take 63)[8]? = _
    rw [List.getElem?_take_of_lt (by decide), List.getElem?_drop,
      List.getElem?_take_of_lt (by decide), List.getElem?_drop]
  refine List.mem_of_getElem? (hget.trans ?_)
  -- the NUL of the first address, and the connections that are not there
  rcases Nat.eq_zero_or_pos i with rfl | hpos
  · rfl
  · have hlt : i < 8 := hi
    unfold oneConnection
    rw [List.getElem?_append_right (by simp [bytes32, bytes16, chars]; omega),
      List.getElem?_replicate_of_lt (by simp [bytes32, bytes16, chars]; omega)]

/-- The old check does not match what the connection becomes, alone or with transfer connections. -/
theorem oneConnection_unchecked :
    ¬ IsRecord (record (tableBytes (migrate (some oneConnection) none))) sizeofTcpipV0All ∧
      ¬ IsRecord (record (tableBytes (migrate (some oneConnection)
        (some (List.replicate 176 0))))) sizeofTcpipV0All :=
  ⟨by decide +kernel, by decide +kernel⟩

theorem connection_survives : Survives true ((run storedConnection).getD []) .stops := by
  have hfile : run storedConnection = some ((run storedConnection).getD []) :=
    run_eq_some [⟨cfgInfo, .stops, [0]⟩] _
  have hversion : boardCfgRead true (run storedConnection) cfgInfo.ofs 1 = some [0] :=
    written_reads (show storedConnection = [] ++ _ from rfl) storedConnection_valid
      (by simp [sections_ne.2.1]) true
  have htcpip : readTcpip true ((run storedConnection).getD []) = some oneConnection := by
    have hread : boardCfgRead true (run storedConnection) tcpipCfg.ofs oneConnection.length = _ :=
      written_reads (show storedConnection = [_] ++ _ from rfl) storedConnection_valid nofun true
    rwa [length_oneConnection, hfile] at hread
  have hxfer : readXfer true ((run storedConnection).getD []) = none := by
    refine boardCfgRead_beyond true _ ?_
    have hend := fileEnd_append [⟨cfgInfo, .stops, [0]⟩] ⟨tcpipCfg, .stops, oneConnection⟩
    dsimp only at hend
    rw [length_oneConnection] at hend
    rw [length_run]
    exact Nat.le_trans (Nat.le_of_eq hend) (by decide)
  have hstored : StoredV0 true ((run storedConnection).getD []) := by
    refine ⟨?_, ?_⟩
    · exact (congrArg (boardCfgRead true · cfgInfo.ofs 1) hfile.symm).trans hversion
    · rw [htcpip, hxfer]
      exact ⟨oneConnection_terminated, nofun⟩
  have hcheck : ¬ ChecksAsOld true ((run storedConnection).getD []) := by
    unfold ChecksAsOld
    rw [htcpip, hxfer]
    exact oneConnection_unchecked.1
  exact (recover_survives .stops hstored).1 (Or.inr ⟨hcheck, Or.inr (Or.inl hxfer)⟩)

/-- With transfer connections stored as well, none of them enabled, the connection is lost. -/
theorem connection_lost :
    StoredV0 true ((run storedBoth).getD []) ∧
      ¬ Survives true ((run storedBoth).getD []) .stops := by
  have hfile : run storedBoth = some ((run storedBoth).getD []) := run_eq_some storedConnection _
  have hversion : boardCfgRead true (run storedBoth) cfgInfo.ofs 1 = some [0] :=
    written_reads (show storedBoth = [] ++ _ from rfl) storedBoth_valid
      (by simp [sections_ne.2.1, sections_ne.2.2.2.2.2.symm]) true
  have htcpip : readTcpip true ((run storedBoth).getD []) = some oneConnection := by
    have hread : boardCfgRead true (run storedBoth) tcpipCfg.ofs oneConnection.length = _ :=
      written_reads (show storedBoth = [_] ++ _ from rfl) storedBoth_valid
        (by simp [sections_ne.2.2.1.symm]) true
    rwa [length_oneConnection, hfile] at hread
  have hxfer : readXfer true ((run storedBoth).getD []) = some (List.replicate 176 0) := by
    have hread : boardCfgRead true (run storedBoth) xferUartCfg.ofs
        (List.replicate 176 (0 : UInt8)).length = _ :=
      written_reads (show storedBoth = storedConnection ++ _ from rfl) storedBoth_valid nofun true
    rwa [List.length_replicate, hfile] at hread
  have hstored : StoredV0 true ((run storedBoth).getD []) := by
    refine ⟨?_, ?_⟩
    · exact (congrArg (boardCfgRead true · cfgInfo.ofs 1) hfile.symm).trans hversion
    · rw [htcpip, hxfer]
      refine ⟨oneConnection_terminated, fun b hb => ?_⟩
      obtain rfl := Option.some.inj hb
      decide
  have hcheck : ¬ ChecksAsOld true ((run storedBoth).getD []) := by
    unfold ChecksAsOld
    rw [htcpip, hxfer]
    exact oneConnection_unchecked.2
  refine ⟨hstored, fun hsurvives => ?_⟩
  have henable : (tcpipV0 oneConnection 0).enable = 1 := rfl
  rcases (survives_iff_harmless .stops hstored hcheck).mp hsurvives with
    ⟨hnone, -⟩ | ⟨-, hnone | hnone | ⟨t, x, ht, -, hreplaced⟩⟩
  · exact nomatch htcpip.symm.trans hnone
  · exact nomatch htcpip.symm.trans hnone
  · exact nomatch hxfer.symm.trans hnone
  · obtain rfl := Option.some.inj (htcpip.symm.trans ht)
    rcases hreplaced 0 (by decide) with hblank | ⟨_, _, _, _, hdisabled, _⟩
    · exact absurd (henable.symm.trans hblank.enable) (by decide)
    · exact absurd (henable.symm.trans hdisabled) (by decide)

end K64Gateway.CfgRecover
