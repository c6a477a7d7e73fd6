import K64Gateway.Backup.Restore

/-
  The address lists of the serial ports, `board/cfg/xfer_cfg.c`: `setXferUartCfgWithJson` takes
  port, count and addresses from a request as they come, `xfer_get_uart_with_slave_addr` and
  `jsonXferUartCfg` read as many addresses as the count tells.

  Proved: exactly the runs of requests that name a serial port, with no more addresses than were
  set for it, stay inside the table and read only addresses that were set (`safe_iff`).
-/

namespace K64Gateway.XferAddrs

open Backup Cjson CString

variable {R : Type} [CNumber R]

/-! ## What is read -/

/-- `for (i = 0; i < count; i++) if (slave_addr == addrs[i]) return n;`, with the indices that are
    read. -/
def scanAddrs (addrs : Nat → UInt8) (slave_addr : UInt8) : List Nat → List Nat × Bool
  | [] => ([], false)
  | i :: is =>
      if slave_addr = addrs i then ([i], true)
      else
        let r := scanAddrs addrs slave_addr is
        (i :: r.1, r.2)

/-- The ports of `xfer_get_uart_with_slave_addr`, with the addresses that are read. -/
def scanPorts (dtu : Fin boardUartMax → Bool) (cfgs : Fin boardUartMax → XferUartCfg)
    (slave_addr : UInt8) :
    List (Fin boardUartMax) → List (Fin boardUartMax × Nat) × Option (Fin boardUartMax)
  | [] => ([], none)
  | n :: ns =>
      let r := scanPorts dtu cfgs slave_addr ns
      if dtu n then
        let reads := scanAddrs (cfgs n).addrs slave_addr (List.range (cfgs n).count)
        if reads.2 then (reads.1.map (n, ·), some n) else (reads.1.map (n, ·) ++ r.1, r.2)
      else r

/-- `xfer_get_uart_with_slave_addr`; no port is -1. -/
def xferGetUartWithSlaveAddr (dtu : Fin boardUartMax → Bool)
    (cfgs : Fin boardUartMax → XferUartCfg) (slave_addr : UInt8) :
    List (Fin boardUartMax × Nat) × Option (Fin boardUartMax) :=
  scanPorts dtu cfgs slave_addr (List.finRange boardUartMax)

/-- The indices of the addresses that `jsonXferUartCfg` reads. -/
def jsonReads (g : XferUartCfg) : List Nat := List.range g.count

example (g : XferUartCfg) : g.listed = (jsonReads g).map g.addrs := rfl

/-! ## Requests -/

/-- `pXferUCfg` and `save_flag` of a call. -/
structure Request (R : Type) where
  pXferUCfg : Item R
  save_flag : Bool

namespace Request

variable (r : Request R)

def num : Int := intAt r.pXferUCfg (chars ['n'])

def cnt : Int := intAt r.pXferUCfg (chars ['c', 'n', 't'])

/-- The addresses that are written. -/
def written : List UInt8 :=
  (parseAddrs ((strAt r.pXferUCfg (chars ['a', 'd', 'd', 'r', 's'])).getD [])).take xferUartAddrsNum

/-- The index into `g_xfer_uart_cfgs`, if a port is named. -/
def index : Option Int :=
  if 0 ≤ r.num then
    some (match nUartGetInstance (Int8.ofInt r.num) with
      | some i => (i.val : Int)
      | none => -1)
  else none

end Request

/-- The settings, and how many addresses of every port were set. -/
structure State (R : Type) where
  d : Device R
  set : Fin boardUartMax → Nat

/-- The start; `behind` is the memory behind the lists. -/
def State.default (behind : Nat → UInt8) : State R := ⟨.default behind, fun _ => 0⟩

variable (hw : Hardware R)

def State.step (s : State R) (r : Request R) : State R where
  d := setXferUartCfgWithJson hw r.pXferUCfg r.save_flag s.d
  set n := if r.index = some (n.val : Int) then max (s.set n) r.written.length else s.set n

def run (behind : Nat → UInt8) (requests : List (Request R)) : State R :=
  requests.foldl (State.step hw) (.default behind)

/-- Every count is inside the array and has addresses that were set, and no other ones are read. -/
structure State.Safe (s : State R) : Prop where
  capacity : ∀ n, (s.d.xferUart n).count.val ≤ xferUartAddrsNum
  configured : ∀ n, (s.d.xferUart n).count.val ≤ s.set n
  found : ∀ dtu slave_addr, ∀ read ∈ (xferGetUartWithSlaveAddr dtu s.d.xferUart slave_addr).1,
    read.2 < s.set read.1
  exported : ∀ n, ∀ i ∈ jsonReads (s.d.xferUart n), i < s.set n

/-- Every request of a run has its index in the table, and leaves the lists safe. -/
def Safe (behind : Nat → UInt8) (requests : List (Request R)) : Prop :=
  ∀ before r after, requests = before ++ r :: after →
    (∀ i : Int, i ∈ r.index → 0 ≤ i ∧ i < boardUartMax) ∧ (run hw behind (before ++ [r])).Safe

/-- The request names no port, or a serial port with no more addresses than were set. -/
def Request.Fits (r : Request R) (s : State R) : Prop :=
  0 ≤ r.num → ∃ i, nUartGetInstance (Int8.ofInt r.num) = some i ∧
    r.cnt ≤ max (s.set i) r.written.length

/-! ## Reads -/

theorem scanAddrs_lt (addrs : Nat → UInt8) (slave_addr : UInt8) (is : List Nat) :
    ∀ i ∈ (scanAddrs addrs slave_addr is).1, i ∈ is := by
  induction is with
  | nil => exact fun _ hi => hi
  | cons j is ih =>
    intro i hi
    unfold scanAddrs at hi
    split at hi
    · rw [List.mem_singleton.mp hi]
      exact List.mem_cons_self
    · rcases List.mem_cons.mp hi with rfl | hi
      · exact List.mem_cons_self
      · exact List.mem_cons_of_mem _ (ih i hi)

/-- Only addresses below the count are read. -/
theorem scanPorts_lt (dtu : Fin boardUartMax → Bool) (cfgs : Fin boardUartMax → XferUartCfg)
    (slave_addr : UInt8) (ns : List (Fin boardUartMax)) :
    ∀ read ∈ (scanPorts dtu cfgs slave_addr ns).1, read.2 < (cfgs read.1).count.val := by
  have hport : ∀ n, ∀ read ∈
      (scanAddrs (cfgs n).addrs slave_addr (List.range (cfgs n).count)).1.map (n, ·),
      read.2 < (cfgs read.1).count.val := fun n read hread => by
    obtain ⟨i, hi, rfl⟩ := List.mem_map.mp hread
    exact List.mem_range.mp (scanAddrs_lt _ _ _ i hi)
  induction ns with
  | nil => exact fun _ hread => nomatch hread
  | cons n ns ih =>
    intro read hread
    unfold scanPorts at hread
    dsimp only at hread
    split at hread
    · split at hread
      · exact hport n read hread
      · rcases List.mem_append.mp hread with hread | hread
        · exact hport n read hread
        · exact ih read hread
    · exact ih read hread

omit [CNumber R] in
/-- The reads follow from the counts. -/
theorem safe_of_counts {s : State R} (hset : ∀ n, s.set n ≤ xferUartAddrsNum)
    (h : ∀ n, (s.d.xferUart n).count.val ≤ s.set n) : s.Safe where
  capacity n := Nat.le_trans (h n) (hset n)
  configured := h
  found dtu slave_addr read hread :=
    Nat.lt_of_lt_of_le (scanPorts_lt dtu _ slave_addr _ read hread) (h read.1)
  exported n _ hi := Nat.lt_of_lt_of_le (List.mem_range.mp hi) (h n)

/-! ## One request -/

theorem count_setXferUartCfg (r : Request R) (g : XferUartCfg) :
    ((setXferUartCfg r.pXferUCfg g).count.val : Int) =
      if 0 ≤ r.cnt then r.cnt else g.count.val := by
  have hlt : r.cnt < 2147483648 := intAt_lt r.pXferUCfg (chars ['c', 'n', 't'])
  have hcount : (setXferUartCfg r.pXferUCfg g).count = setIf r.cnt (Fin.ofNat _) g.count := rfl
  rw [hcount]
  unfold setIf
  split
  · rw [Fin.val_ofNat, Nat.mod_eq_of_lt (by omega)]
    omega
  · rfl

namespace State

omit [CNumber R] in
theorem written_length_le (r : Request R) : r.written.length ≤ xferUartAddrsNum :=
  List.length_take_le _ _

theorem set_step_le {s : State R} (h : ∀ n, s.set n ≤ xferUartAddrsNum) (r : Request R) :
    ∀ n, (s.step hw r).set n ≤ xferUartAddrsNum := fun n => by
  unfold step
  dsimp only
  split
  · exact Nat.max_le.mpr ⟨h n, written_length_le r⟩
  · exact h n

/-- A request that names no port changes nothing. -/
theorem step_unnamed (s : State R) {r : Request R} (h : ¬ 0 ≤ r.num) : s.step hw r = s := by
  have hindex : r.index = none := if_neg h
  have hd : setXferUartCfgWithJson hw r.pXferUCfg r.save_flag s.d = s.d := if_neg h
  simp only [step, hindex, hd, reduceCtorEq, if_false]

/-- The lists after a request that names a serial port. -/
theorem step_named (s : State R) {r : Request R} {i : Fin boardUartMax} (h : 0 ≤ r.num)
    (hi : nUartGetInstance (Int8.ofInt r.num) = some i) :
    (s.step hw r).d.xferUart =
        Function.update s.d.xferUart i (setXferUartCfg r.pXferUCfg (s.d.xferUart i)) ∧
      (s.step hw r).set = Function.update s.set i (max (s.set i) r.written.length) := by
  have hnum : 0 ≤ intAt r.pXferUCfg (chars ['n']) := h
  have hinst : nUartGetInstance (Int8.ofInt (intAt r.pXferUCfg (chars ['n']))) = some i := hi
  have hindex : r.index = some (i.val : Int) := by
    simp only [Request.index, if_pos h, hi]
  refine ⟨?_, ?_⟩
  · simp only [step, setXferUartCfgWithJson, if_pos hnum, hinst]
    split <;> rfl
  · funext n
    unfold step
    dsimp only
    rcases eq_or_ne n i with rfl | hn
    · rw [if_pos hindex, Function.update_self]
    · rw [if_neg fun h => hn (Fin.ext (by rw [hindex] at h; injection h; omega)),
        Function.update_of_ne hn]

/-- A run that has set what it counts goes on so, when the next request fits. -/
theorem counts_step {s : State R} (h : ∀ n, (s.d.xferUart n).count.val ≤ s.set n) {r : Request R}
    (hr : r.Fits s) : ∀ n, ((s.step hw r).d.xferUart n).count.val ≤ (s.step hw r).set n := by
  by_cases hnum : 0 ≤ r.num
  · obtain ⟨i, hi, hcnt⟩ := hr hnum
    obtain ⟨hcfg, hset⟩ := step_named hw s hnum hi
    rw [hcfg, hset]
    intro n
    rcases eq_or_ne n i with rfl | hn
    · rw [Function.update_self, Function.update_self]
      have hcount := count_setXferUartCfg r (s.d.xferUart n)
      have hold := h n
      split at hcount <;> omega
    · rw [Function.update_of_ne hn, Function.update_of_ne hn]
      exact h n
  · rw [step_unnamed hw s hnum]
    exact h

/-- What a request leaves safe in the table fits. -/
theorem fits_of_safe {s : State R} {r : Request R}
    (hindex : ∀ i : Int, i ∈ r.index → 0 ≤ i ∧ i < boardUartMax) (h : (s.step hw r).Safe) :
    r.Fits s := by
  intro hnum
  cases hi : nUartGetInstance (Int8.ofInt r.num) with
  | none =>
    have hnone : r.index = some (-1) := by
      simp only [Request.index, if_pos hnum, hi]
    exact absurd (hindex _ hnone).1 (by omega)
  | some i =>
    refine ⟨i, rfl, ?_⟩
    obtain ⟨hcfg, hset⟩ := step_named hw s hnum hi
    have hcount := count_setXferUartCfg r (s.d.xferUart i)
    have hconfigured := h.configured i
    rw [hcfg, hset, Function.update_self, Function.update_self] at hconfigured
    split at hcount <;> omega

end State

/-! ## Runs -/

theorem set_run_le (behind : Nat → UInt8) (requests : List (Request R)) :
    ∀ n, (run hw behind requests).set n ≤ xferUartAddrsNum := by
  induction requests using List.reverseRecOn with
  | nil => exact fun _ => Nat.zero_le _
  | append_singleton before r ih =>
    unfold run at ih ⊢
    rw [List.foldl_concat]
    exact State.set_step_le hw ih r

/-- Requests that fit keep every count behind what was set. -/
theorem counts_run (behind : Nat → UInt8) (requests : List (Request R))
    (h : ∀ before r after, requests = before ++ r :: after → r.Fits (run hw behind before)) :
    ∀ n, ((run hw behind requests).d.xferUart n).count.val ≤ (run hw behind requests).set n := by
  induction requests using List.reverseRecOn with
  | nil => exact fun _ => Nat.le_refl _
  | append_singleton before r ih =>
    have hbefore := ih fun before' r' after hsplit =>
      h before' r' (after ++ [r]) (by rw [hsplit, List.append_assoc, List.cons_append])
    have hr := h before r [] rfl
    unfold run at hbefore hr ⊢
    rw [List.foldl_concat]
    exact State.counts_step hw hbefore hr

theorem index_of_fits {r : Request R} {s : State R} (h : r.Fits s) :
    ∀ i : Int, i ∈ r.index → 0 ≤ i ∧ i < boardUartMax := by
  intro j hj
  unfold Request.index at hj
  split at hj
  next hnum =>
    obtain ⟨i, hi, _⟩ := h hnum
    rw [hi] at hj
    obtain rfl : (i.val : Int) = j := Option.some.inj hj
    exact ⟨by omega, by omega⟩
  next => cases hj

/-- Exactly the requests that name no port or a serial one, with no more addresses than were set
    for it by then, have their index in the table and leave lists of configured addresses. -/
theorem safe_iff (hw : Hardware R) (behind : Nat → UInt8) (requests : List (Request R)) :
    Safe hw behind requests ↔
      ∀ before r after, requests = before ++ r :: after → r.Fits (run hw behind before) := by
  have hconcat : ∀ before r, run hw behind (before ++ [r]) = (run hw behind before).step hw r :=
    fun before r => List.foldl_concat ..
  constructor
  · intro h before r after hsplit
    obtain ⟨hindex, hsafe⟩ := h before r after hsplit
    rw [hconcat] at hsafe
    exact State.fits_of_safe hw hindex hsafe
  · intro h before r after hsplit
    have hr := h before r after hsplit
    have hbefore := counts_run hw behind before fun before' r' after' hsplit' =>
      h before' r' (after' ++ r :: after) (by rw [hsplit, hsplit', List.append_assoc]; rfl)
    refine ⟨index_of_fits hr, safe_of_counts (set_run_le hw behind _) ?_⟩
    rw [hconcat]
    exact State.counts_step hw hbefore hr

/-- `{"n":4}` takes the index -1, `{"n":0,"cnt":100}` counts behind the array. -/
theorem not_safe :
    ¬ (∀ (hw : Hardware Int) behind requests, Safe hw behind requests) ∧
      (⟨.object [(chars ['n'], .number (4 : Int))], true⟩ : Request Int).index = some (-1) ∧
      ∀ (hw : Hardware Int) behind, ((run hw behind [⟨.object [(chars ['n'], .number (0 : Int)),
        (chars ['c', 'n', 't'], .number 100)], true⟩]).d.xferUart 1).count = 100 := by
  refine ⟨fun h => ?_, by decide, fun hw behind => ?_⟩
  · have hw : Hardware Int := ⟨fun _ => 0, fun _ => 0, fun _ => 0, []⟩
    obtain ⟨hindex, _⟩ := h hw (fun _ => 0)
      [⟨.object [(chars ['n'], .number (4 : Int))], true⟩] [] _ [] rfl
    exact absurd (hindex (-1) (by decide)).1 (by decide)
  · have hstep := (State.step_named hw (.default behind) (i := 1)
      (r := ⟨.object [(chars ['n'], .number (0 : Int)), (chars ['c', 'n', 't'], .number 100)],
        true⟩)
      (by decide) (by decide)).1
    unfold run
    rw [List.foldl_cons, List.foldl_nil, hstep, Function.update_self]
    rfl

end K64Gateway.XferAddrs
