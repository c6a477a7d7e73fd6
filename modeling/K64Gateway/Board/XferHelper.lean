import K64Gateway.Backup.Restore

/-
  The start of the transfers: `prvSetXferDstUartSet` of `board/cfg/xfer_cfg.c` tells which connection
  each serial port belongs to, `xfer_helper_enet_init` and `xfer_helper_gprs_init` of
  `board/xfer_helper.c` open these connections.

  Proved: exactly when only connections in transfer mode are opened, each once, with flags inside
  their arrays (`xferHelper_safe_iff`).
-/

namespace K64Gateway.XferHelper

open Backup

/-! ## The tables -/

/-- `BOARD_ZIGBEE_UART`, `HW_UART3` -/
def boardZigbeeUart : Fin boardUartMax := 3

/-- The configurations that are read, with the console's port and `g_host_cfg.bDebug`. -/
structure Cfgs where
  tcpip : Fin boardTcpipMax → TcpipCfg
  zigbee : ZigbeeCfg
  xferUart : Fin boardUartMax → XferUartCfg
  bDebug : Bool
  console : Fin boardUartMax

/-- `g_xfer_net_dst_uart_map`, `_occ`, `_trt` and `_dtu` -/
structure Tables where
  map : Fin boardUartMax → Int
  occ : Fin boardUartMax → Bool
  trt : Fin boardUartMax → Bool
  dtu : Fin boardUartMax → Bool

def Tables.empty : Tables := ⟨fun _ => -1, fun _ => false, fun _ => false, fun _ => false⟩

/-- `map[u] = n; occ[u] = RT_TRUE;` -/
def Tables.occupy (t : Tables) (u : Fin boardUartMax) (n : Int) : Tables :=
  { t with map := Function.update t.map u n, occ := Function.update t.occ u true }

/-- An enabled connection in transfer mode. -/
def IsXfer (g : TcpipCfg) : Prop := g.enable = true ∧ g.mode = 1

instance (g : TcpipCfg) : Decidable (IsXfer g) := inferInstanceAs (Decidable (_ ∧ _))

/-- One connection of `prvSetXferDstUartSet`. -/
def setConnection (c : Cfgs) (t : Tables) (n : Fin boardTcpipMax) : Tables :=
  let g := c.tcpip n
  if IsXfer g ∧ (g.u0 = 0 ∨ g.u0 = 1) then
    let dt := g.dstType
    match nUartGetInstance dt.toInt8 with
    | some u => t.occupy u n.val
    | none =>
      if dt = 5 ∧ c.zigbee.workMode = 2 then t.occupy boardZigbeeUart n.val
      else t
  else t

/-- The transparent mode of a Zigbee device that is no coordinator. -/
def setZigbeeTrt (c : Cfgs) (t : Tables) : Tables :=
  match nUartGetInstance c.zigbee.dstType.toInt8 with
  | some u => { t.occupy u (-1) with trt := Function.update t.trt u true }
  | none => t

/-- A list of slaves that a Zigbee device sends on to. -/
def isDtu (c : Cfgs) (u : Fin boardUartMax) : Bool :=
  (c.xferUart u).enable && decide (0 < (c.xferUart u).count.val) && decide (u ≠ boardZigbeeUart)

def setZigbeeDtu (c : Cfgs) (t : Tables) (u : Fin boardUartMax) : Tables :=
  if isDtu c u then { t.occupy u (-1) with dtu := Function.update t.dtu u true } else t

/-- `prvSetXferDstUartSet` -/
def prvSetXferDstUartSet (c : Cfgs) : Tables :=
  let t := (List.finRange boardTcpipMax).foldl (setConnection c) .empty
  if c.zigbee.workMode ≠ 2 then
    if c.zigbee.tmode = 1 then setZigbeeTrt c t
    else if c.zigbee.tmode = 2 then (List.finRange boardUartMax).foldl (setZigbeeDtu c) t
    else t
  else t

/-! ## Opening -/

/-- The calls of `xfer_net_open`, `open_flag` with the memory around it, and the indices that are
    used on it. -/
structure Opens where
  calls : List Int
  openFlag : Int → Bool
  used : List Int

/-- One port of the helpers: `isNet` is `NET_IS_ENET` or `NET_IS_GPRS`, `ofs` is subtracted from
    the index of the flag. -/
def openPort (c : Cfgs) (t : Tables) (isNet : Int → Bool) (ofs : Int) (s : Opens)
    (u : Fin boardUartMax) : Opens :=
  if t.occ u && !(c.bDebug && decide (c.console = u)) && isNet (t.map u) then
    let k := t.map u - ofs
    if s.openFlag k then { s with used := s.used ++ [k] }
    else
      { calls := s.calls ++ [t.map u]
        openFlag := Function.update s.openFlag k true
        used := s.used ++ [k] }
  else s

/-- `open_flag` of four connections, zero, in `memory`. -/
def Opens.start (memory : Int → Bool) : Opens :=
  ⟨[], fun k => if 0 ≤ k ∧ k < 4 then false else memory k, []⟩

def netIsEnet (n : Int) : Bool := n < 4

def netIsGprs (n : Int) : Bool := 4 ≤ n && n < 8

def xferHelperEnetInit (c : Cfgs) (t : Tables) (memory : Int → Bool) : Opens :=
  (List.finRange boardUartMax).foldl (openPort c t netIsEnet 0) (.start memory)

def xferHelperGprsInit (c : Cfgs) (t : Tables) (memory : Int → Bool) : Opens :=
  (List.finRange boardUartMax).foldl (openPort c t netIsGprs 4) (.start memory)

/-! ## What the tables say -/

/-- A port whose table entry is -1 though it is occupied. -/
def Transparent (c : Cfgs) (u : Fin boardUartMax) : Prop :=
  c.zigbee.workMode ≠ 2 ∧
    ((c.zigbee.tmode = 1 ∧ nUartGetInstance c.zigbee.dstType.toInt8 = some u) ∨
      (c.zigbee.tmode = 2 ∧ isDtu c u = true))

/-- An occupied port belongs to an enabled connection in transfer mode. -/
def Tables.Owned (c : Cfgs) (t : Tables) (u : Fin boardUartMax) : Prop :=
  t.occ u = true → ∃ n : Fin boardTcpipMax, t.map u = n.val ∧ IsXfer (c.tcpip n)

theorem Tables.occupy_self (t : Tables) (u : Fin boardUartMax) (n : Int) :
    (t.occupy u n).occ u = true ∧ (t.occupy u n).map u = n :=
  ⟨Function.update_self _ _ _, Function.update_self _ _ _⟩

theorem Tables.occupy_of_ne (t : Tables) {u v : Fin boardUartMax} (h : v ≠ u) (n : Int) :
    (t.occupy u n).occ v = t.occ v ∧ (t.occupy u n).map v = t.map v :=
  ⟨Function.update_of_ne h _ _, Function.update_of_ne h _ _⟩

theorem Tables.occupy_owned {c : Cfgs} {t : Tables} (h : ∀ v, t.Owned c v) (u : Fin boardUartMax)
    {n : Fin boardTcpipMax} (hn : IsXfer (c.tcpip n)) (v : Fin boardUartMax) :
    (t.occupy u n.val).Owned c v := by
  by_cases hv : v = u
  · intro _
    rw [hv]
    exact ⟨n, (t.occupy_self u n.val).2, hn⟩
  · intro hocc
    obtain ⟨ho, hm⟩ := t.occupy_of_ne hv n.val
    rw [hm]
    exact h v (ho ▸ hocc)

theorem setConnection_owned (c : Cfgs) {t : Tables} (h : ∀ v, t.Owned c v)
    (n : Fin boardTcpipMax) (v : Fin boardUartMax) : (setConnection c t n).Owned c v := by
  unfold setConnection
  dsimp only
  split
  · next hxfer =>
    split
    · exact Tables.occupy_owned h _ hxfer.1 v
    · split
      · exact Tables.occupy_owned h _ hxfer.1 v
      · exact h v
  · exact h v

theorem connections_owned (c : Cfgs) (l : List (Fin boardTcpipMax)) {t : Tables}
    (h : ∀ v, t.Owned c v) (v : Fin boardUartMax) : (l.foldl (setConnection c) t).Owned c v := by
  induction l generalizing t with
  | nil => exact h v
  | cons n l ih => exact ih fun v => setConnection_owned c h n v

theorem setZigbeeDtu_of_ne (c : Cfgs) (t : Tables) {u v : Fin boardUartMax} (h : v ≠ u) :
    (setZigbeeDtu c t u).occ v = t.occ v ∧ (setZigbeeDtu c t u).map v = t.map v := by
  unfold setZigbeeDtu
  split
  · exact t.occupy_of_ne h (-1)
  · exact ⟨rfl, rfl⟩

/-- The entries of the ports that a Zigbee device sends on to. -/
theorem setZigbeeDtu_fold (c : Cfgs) {l : List (Fin boardUartMax)} (hl : l.Nodup) (t : Tables)
    (u : Fin boardUartMax) :
    let t' := l.foldl (setZigbeeDtu c) t
    t'.occ u = (if u ∈ l ∧ isDtu c u = true then true else t.occ u) ∧
      t'.map u = if u ∈ l ∧ isDtu c u = true then -1 else t.map u := by
  induction l generalizing t with
  | nil => exact ⟨(if_neg fun h => absurd h.1 List.not_mem_nil).symm,
      (if_neg fun h => absurd h.1 List.not_mem_nil).symm⟩
  | cons v l ih =>
    obtain ⟨hv, hl⟩ := List.nodup_cons.mp hl
    obtain ⟨hocc, hmap⟩ := ih hl (setZigbeeDtu c t v)
    dsimp only [List.foldl_cons] at hocc hmap ⊢
    rw [hocc, hmap]
    by_cases hu : u = v
    · have hnot : ¬ (u ∈ l ∧ isDtu c u = true) := fun h => hv (hu ▸ h.1)
      rw [if_neg hnot, if_neg hnot]
      unfold setZigbeeDtu
      by_cases hd : isDtu c u = true
      · rw [← hu, if_pos hd, if_pos ⟨List.mem_cons_self, hd⟩, if_pos ⟨List.mem_cons_self, hd⟩]
        exact t.occupy_self u (-1)
      · rw [← hu, if_neg hd, if_neg fun h => hd h.2, if_neg fun h => hd h.2]
        exact ⟨rfl, rfl⟩
    · obtain ⟨ho, hm⟩ := setZigbeeDtu_of_ne c t hu
      rw [ho, hm]
      simp only [List.mem_cons, hu, false_or, and_self]

/-- A port that is occupied without a connection. -/
theorem map_of_transparent {c : Cfgs} {u : Fin boardUartMax} (h : Transparent c u) :
    (prvSetXferDstUartSet c).occ u = true ∧ (prvSetXferDstUartSet c).map u = -1 := by
  unfold prvSetXferDstUartSet
  dsimp only
  rw [if_pos h.1]
  rcases h.2 with ⟨htm, hinst⟩ | ⟨htm, hdtu⟩
  · unfold setZigbeeTrt
    rw [if_pos htm, hinst]
    exact Tables.occupy_self _ u (-1)
  · have hne : c.zigbee.tmode ≠ 1 := by
      rw [htm]
      decide
    obtain ⟨hocc, hmap⟩ := setZigbeeDtu_fold c (List.nodup_finRange _)
      ((List.finRange boardTcpipMax).foldl (setConnection c) .empty) u
    rw [if_neg hne, if_pos htm]
    rw [if_pos ⟨List.mem_finRange u, hdtu⟩] at hocc hmap
    exact ⟨hocc, hmap⟩

/-- Every other occupied port belongs to a connection. -/
theorem owned_of_not_transparent {c : Cfgs} {u : Fin boardUartMax} (h : ¬ Transparent c u) :
    (prvSetXferDstUartSet c).Owned c u := by
  have howned : ∀ v, ((List.finRange boardTcpipMax).foldl (setConnection c) .empty).Owned c v :=
    connections_owned c _ fun _ hocc => absurd hocc Bool.false_ne_true
  unfold prvSetXferDstUartSet
  dsimp only
  split
  · next hwork =>
    split
    · next htm =>
      unfold setZigbeeTrt
      split
      · next v hinst =>
        have hne : u ≠ v := fun huv => h ⟨hwork, .inl ⟨htm, huv ▸ hinst⟩⟩
        intro hocc
        obtain ⟨ho, hm⟩ := Tables.occupy_of_ne
          ((List.finRange boardTcpipMax).foldl (setConnection c) .empty) hne (-1)
        obtain ⟨n, hn, hxfer⟩ := howned u (ho ▸ hocc)
        exact ⟨n, hm.trans hn, hxfer⟩
      · exact howned u
    · split
      · next htm =>
        have hdtu : ¬ (u ∈ List.finRange boardUartMax ∧ isDtu c u = true) := fun hd =>
          h ⟨hwork, .inr ⟨htm, hd.2⟩⟩
        obtain ⟨ho, hm⟩ := setZigbeeDtu_fold c (List.nodup_finRange _)
          ((List.finRange boardTcpipMax).foldl (setConnection c) .empty) u
        rw [if_neg hdtu] at ho hm
        intro hocc
        obtain ⟨n, hn, hxfer⟩ := howned u (ho ▸ hocc)
        exact ⟨n, hm.trans hn, hxfer⟩
      · exact howned u
  · exact howned u

/-! ## What is opened -/

/-- A port whose connection a helper looks at. -/
def Looks (c : Cfgs) (t : Tables) (isNet : Int → Bool) (u : Fin boardUartMax) : Prop :=
  t.occ u = true ∧ ¬ (c.bDebug = true ∧ c.console = u) ∧ isNet (t.map u) = true

/-- The calls so far are those of some ports, each once, and their flags are set. -/
structure Opens.Sound (c : Cfgs) (t : Tables) (isNet : Int → Bool) (ofs : Int)
    (l : List (Fin boardUartMax)) (s : Opens) : Prop where
  nodup : s.calls.Nodup
  flagged : ∀ n ∈ s.calls, s.openFlag (n - ofs) = true
  called : ∀ n ∈ s.calls, ∃ u, Looks c t isNet u ∧ n = t.map u
  used : ∀ k ∈ s.used, ∃ u, Looks c t isNet u ∧ k = t.map u - ofs
  complete : ∀ u ∈ l, Looks c t isNet u → t.map u - ofs ∈ s.used

theorem Opens.sound_start (c : Cfgs) (t : Tables) (isNet : Int → Bool) (ofs : Int)
    (memory : Int → Bool) : (Opens.start memory).Sound c t isNet ofs [] where
  nodup := List.nodup_nil
  flagged _ h := absurd h List.not_mem_nil
  called _ h := absurd h List.not_mem_nil
  used _ h := absurd h List.not_mem_nil
  complete _ h := absurd h List.not_mem_nil

theorem looks_iff (c : Cfgs) (t : Tables) (isNet : Int → Bool) (u : Fin boardUartMax) :
    (t.occ u && !(c.bDebug && decide (c.console = u)) && isNet (t.map u)) = true ↔
      Looks c t isNet u := by
  unfold Looks
  simp only [Bool.and_eq_true, Bool.not_eq_true', Bool.and_eq_false_iff, decide_eq_false_iff_not,
    not_and, and_assoc]
  cases c.bDebug <;> simp

theorem openPort_sound {c : Cfgs} {t : Tables} {isNet : Int → Bool} {ofs : Int}
    {l : List (Fin boardUartMax)} {s : Opens} (h : s.Sound c t isNet ofs l)
    (u : Fin boardUartMax) : (openPort c t isNet ofs s u).Sound c t isNet ofs (l ++ [u]) := by
  unfold openPort
  by_cases hlook : Looks c t isNet u
  · have hused : ∀ k ∈ s.used ++ [t.map u - ofs], ∃ u, Looks c t isNet u ∧ k = t.map u - ofs :=
      fun k hk => by
        rcases List.mem_append.mp hk with hk | hk
        · exact h.used k hk
        · exact ⟨u, hlook, List.mem_singleton.mp hk⟩
    have hcomplete : ∀ v ∈ l ++ [u], Looks c t isNet v →
        t.map v - ofs ∈ s.used ++ [t.map u - ofs] := fun v hv hvlook => by
      rcases List.mem_append.mp hv with hv | hv
      · exact List.mem_append_left _ (h.complete v hv hvlook)
      · rw [List.mem_singleton.mp hv]
        exact List.mem_append_right _ (List.mem_singleton_self _)
    rw [if_pos ((looks_iff c t isNet u).mpr hlook)]
    dsimp only
    split
    · exact ⟨h.nodup, h.flagged, h.called, hused, hcomplete⟩
    · next hflag =>
      have hnew : t.map u ∉ s.calls := fun hmem => hflag (h.flagged _ hmem)
      refine ⟨?_, fun n hn => ?_, fun n hn => ?_, hused, hcomplete⟩
      · exact List.nodup_append.mpr ⟨h.nodup, List.nodup_singleton _, fun n hn m hm heq =>
          hnew (List.mem_singleton.mp hm ▸ heq ▸ hn)⟩
      · dsimp only
        by_cases hk : n - ofs = t.map u - ofs
        · rw [hk, Function.update_self]
        · rw [Function.update_of_ne hk]
          rcases List.mem_append.mp hn with hn | hn
          · exact h.flagged n hn
          · exact absurd (by rw [List.mem_singleton.mp hn]) hk
      · rcases List.mem_append.mp hn with hn | hn
        · exact h.called n hn
        · exact ⟨u, hlook, List.mem_singleton.mp hn⟩
  · rw [if_neg fun hb => hlook ((looks_iff c t isNet u).mp hb)]
    refine ⟨h.nodup, h.flagged, h.called, h.used, fun v hv hvlook => ?_⟩
    rcases List.mem_append.mp hv with hv | hv
    · exact h.complete v hv hvlook
    · exact absurd (List.mem_singleton.mp hv ▸ hvlook) hlook

theorem openPorts_sound {c : Cfgs} {t : Tables} {isNet : Int → Bool} {ofs : Int}
    (l : List (Fin boardUartMax)) {l' : List (Fin boardUartMax)} {s : Opens}
    (h : s.Sound c t isNet ofs l') :
    (l.foldl (openPort c t isNet ofs) s).Sound c t isNet ofs (l' ++ l) := by
  induction l generalizing l' s with
  | nil =>
    rw [List.append_nil]
    exact h
  | cons u l ih =>
    have hnext := ih (openPort_sound h u)
    rw [List.append_assoc, List.singleton_append] at hnext
    exact hnext

theorem xferHelperEnetInit_sound (c : Cfgs) (t : Tables) (memory : Int → Bool) :
    (xferHelperEnetInit c t memory).Sound c t netIsEnet 0 (List.finRange boardUartMax) :=
  openPorts_sound _ (Opens.sound_start c t netIsEnet 0 memory)

theorem xferHelperGprsInit_sound (c : Cfgs) (t : Tables) (memory : Int → Bool) :
    (xferHelperGprsInit c t memory).Sound c t netIsGprs 4 (List.finRange boardUartMax) :=
  openPorts_sound _ (Opens.sound_start c t netIsGprs 4 memory)

/-! ## The start -/

/-- Both helpers open enabled connections in transfer mode only, none twice, and use no flag
    outside of their arrays. -/
structure Safe (c : Cfgs) (memory memory' : Int → Bool) : Prop where
  connections :
    ∀ n ∈ (xferHelperEnetInit c (prvSetXferDstUartSet c) memory).calls ++
        (xferHelperGprsInit c (prvSetXferDstUartSet c) memory').calls,
      ∃ i : Fin boardTcpipMax, n = i.val ∧ IsXfer (c.tcpip i)
  once : ((xferHelperEnetInit c (prvSetXferDstUartSet c) memory).calls ++
    (xferHelperGprsInit c (prvSetXferDstUartSet c) memory').calls).Nodup
  enetFlags : ∀ k ∈ (xferHelperEnetInit c (prvSetXferDstUartSet c) memory).used, 0 ≤ k ∧ k < 4
  gprsFlags : ∀ k ∈ (xferHelperGprsInit c (prvSetXferDstUartSet c) memory').used, 0 ≤ k ∧ k < 4

/-- Only the console may be occupied without a connection. -/
def OnlyConsole (c : Cfgs) : Prop := ∀ u, Transparent c u → c.bDebug = true ∧ c.console = u

/-- A port that a helper looks at has a connection. -/
theorem OnlyConsole.connection {c : Cfgs} (h : OnlyConsole c) {isNet : Int → Bool}
    {u : Fin boardUartMax} (hlook : Looks c (prvSetXferDstUartSet c) isNet u) :
    ∃ n : Fin boardTcpipMax, (prvSetXferDstUartSet c).map u = n.val ∧ IsXfer (c.tcpip n) :=
  owned_of_not_transparent (fun ht => hlook.2.1 (h u ht)) hlook.1

theorem xferHelper_safe_iff (c : Cfgs) (memory memory' : Int → Bool) :
    Safe c memory memory' ↔ OnlyConsole c := by
  have henet := xferHelperEnetInit_sound c (prvSetXferDstUartSet c) memory
  have hgprs := xferHelperGprsInit_sound c (prvSetXferDstUartSet c) memory'
  constructor
  · intro hsafe u hu
    obtain ⟨hocc, hmap⟩ := map_of_transparent hu
    by_contra hconsole
    -- A port with the entry -1 counts as one of Ethernet, and its flag is in front of the array.
    have hlook : Looks c (prvSetXferDstUartSet c) netIsEnet u := ⟨hocc, hconsole, by
      rw [hmap]
      rfl⟩
    have hused := hsafe.enetFlags _ (henet.complete u (List.mem_finRange u) hlook)
    omega
  · intro hconsole
    have hcalled : ∀ {isNet : Int → Bool} {n : Int},
        (∃ u, Looks c (prvSetXferDstUartSet c) isNet u ∧ n = (prvSetXferDstUartSet c).map u) →
        isNet n = true ∧ ∃ i : Fin boardTcpipMax, n = i.val ∧ IsXfer (c.tcpip i) :=
      fun {isNet n} ⟨u, hlook, hn⟩ => by
        obtain ⟨i, hi, hxfer⟩ := hconsole.connection hlook
        exact ⟨hn ▸ hlook.2.2, i, hn.trans hi, hxfer⟩
    refine ⟨fun n hn => ?_, ?_, fun k hk => ?_, fun k hk => ?_⟩
    · rcases List.mem_append.mp hn with hn | hn
      · exact (hcalled (henet.called n hn)).2
      · exact (hcalled (hgprs.called n hn)).2
    · refine List.nodup_append.mpr ⟨henet.nodup, hgprs.nodup, fun n hn m hm heq => ?_⟩
      have hlow : n < 4 := of_decide_eq_true (hcalled (henet.called n hn)).1
      have hhigh := (hcalled (hgprs.called m hm)).1
      unfold netIsGprs at hhigh
      simp only [Bool.and_eq_true, decide_eq_true_eq] at hhigh
      omega
    · obtain ⟨u, hlook, hk⟩ := henet.used k hk
      obtain ⟨i, hi, -⟩ := hconsole.connection hlook
      have hlow : (prvSetXferDstUartSet c).map u < 4 := of_decide_eq_true hlook.2.2
      omega
    · obtain ⟨u, hlook, hk⟩ := hgprs.used k hk
      have hrange := hlook.2.2
      unfold netIsGprs at hrange
      simp only [Bool.and_eq_true, decide_eq_true_eq] at hrange
      omega

/-- A Zigbee end device that sends on to the slaves of one port. -/
def dtuCfgs : Cfgs where
  tcpip _ := .default
  zigbee := { ZigbeeCfg.default with tmode := 2 }
  xferUart u := ⟨decide (u = 1), 1, fun _ => 7⟩
  bDebug := false
  console := 0

theorem dtu_not_safe : ¬ ∀ (c : Cfgs) (memory memory' : Int → Bool), Safe c memory memory' := by
  intro h
  have hflag := (h dtuCfgs (fun _ => false) fun _ => false).enetFlags (-1) (by decide)
  omega

end K64Gateway.XferHelper
