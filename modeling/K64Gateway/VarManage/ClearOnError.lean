import K64Gateway.VarManage.Routing

/-
  Clear-on-error: a variable that is cleared by failures keeps its last good reading until more
  than `btErrCnt` polls of its block have failed, and is zeroed then.

  Proved for every run of polls that do not touch the variable from outside (`Undisturbed`): all
  that polls its registers has its function code (`clear_on_error`). A failure of the other
  function code clears it too (`clear_on_error_other_op`).
-/

namespace K64Gateway.VarManage

open Stores

variable {R : Type}

/-! ## Polls of a variable -/

/-- A poll of the block of the variable: its device, its slave and its function code. -/
def ownPoll (v : ExtData R) : Poll → Bool
  | .modbus node ready _ =>
      (pollPort ready node.dev_type node.dev_num).isSome &&
        decide (node.op = mbFuncReadHoldingRegister ∨ node.op = mbFuncReadInputRegister) &&
          node.block.has v && decide (node.op = v.xIo.param.modbus.btOpCode)
  | _ => false

/-- The block that a reply to a poll is for. -/
def replyBlock (node : SyncModbus) (_p : UInt8) : Option Block :=
  portBlock _p node.slave_addr node.ext_addr node.ext_size.toUInt16

/-- A reply comes, and the port is one of a device. -/
def succeeds : Poll → Bool
  | .modbus node ready (some _) =>
      ((pollPort ready node.dev_type node.dev_num).bind (replyBlock node)).isSome
  | _ => false

/-- A poll of another block does not reach the variable at `i`, and a reply to a poll of its own
    block is for its device and reaches it last. -/
def Undisturbed (vars : List (ExtData R)) (i : Nat) (v : ExtData R) : Poll → Prop
  | .modbus node ready reply =>
      ∀ _p, pollPort ready node.dev_type node.dev_num = some _p →
        (node.op = mbFuncReadHoldingRegister ∨ node.op = mbFuncReadInputRegister) →
          match reply, replyBlock node _p with
          | some _, some b =>
              b.has v = (node.block.has v && decide (node.op = v.xIo.param.modbus.btOpCode)) ∧
                Leaves b vars i v
          | _, _ => node.block.has v = true → node.op = v.xIo.param.modbus.btOpCode
  | .rtuSelf addr _ _ =>
      ¬ HasReg v addr.toNat ∧ ¬ HasReg v (addr.toNat + 1) ∧ Apart vars addr v
  | .dlt645 dlt645_addr addr op reply =>
      vars.findIdx? (dlt645Has dlt645_addr addr op) ≠ some i ∧
        (reply.isSome = true → Apart vars addr v)
  | .written _ _ _ _ _ _ => True

/-! ## Polls of other blocks -/

theorem dlt645Has_congr (dlt645_addr : Dlt645Addr) (addr : UInt16) (op : UInt32)
    {d d' : ExtData R} (h : d.key = d'.key) :
    dlt645Has dlt645_addr addr op d = dlt645Has dlt645_addr addr op d' :=
  congrArg (fun k : Bool × ExtDataIO R =>
    k.1 && decide (k.2.param.dlt645.addr = dlt645_addr) && decide (k.2.usAddr = addr) &&
      decide (k.2.param.dlt645.op = op)) h

theorem findIdx_dlt645_key {vars vars' : List (ExtData R)}
    (h : vars'.map ExtData.key = vars.map ExtData.key) (dlt645_addr : Dlt645Addr)
    (addr : UInt16) (op : UInt32) :
    vars'.findIdx? (dlt645Has dlt645_addr addr op) =
      vars.findIdx? (dlt645Has dlt645_addr addr op) :=
  findIdx?_key (dlt645Has_congr dlt645_addr addr op) h

/-- The settings stay, so a poll stays away from the variable whatever was polled before. -/
theorem Undisturbed.congr {vars vars' : List (ExtData R)} {i : Nat} {v : ExtData R} {p : Poll}
    (h : Undisturbed vars i v p) (hkey : vars'.map ExtData.key = vars.map ExtData.key) :
    Undisturbed vars' i v p := by
  cases p with
  | modbus node ready reply =>
    intro _p hport hop
    have h := h _p hport hop
    cases reply with
    | none => exact h
    | some buf =>
      cases hb : replyBlock node _p with
      | none =>
        rw [hb] at h
        exact h
      | some b =>
        rw [hb] at h
        exact ⟨h.1, h.2.congr hkey⟩
  | rtuSelf addr reg0 reg1 => exact ⟨h.1, h.2.1, h.2.2.congr hkey⟩
  | dlt645 dlt645_addr addr op reply =>
    refine ⟨?_, fun hreply => (h.2 hreply).congr hkey⟩
    rw [findIdx_dlt645_key hkey]
    exact h.1
  | written dev_type dev_num ready btSlaveAddr usAddress usNRegs => trivial

/-- Only the settings of the variable matter. -/
theorem Undisturbed.of_key {vars : List (ExtData R)} {i : Nat} {v v' : ExtData R} {p : Poll}
    (h : Undisturbed vars i v p) (hkey : v.key = v'.key) : Undisturbed vars i v' p := by
  have hop : v.xIo.param.modbus.btOpCode = v'.xIo.param.modbus.btOpCode :=
    congrArg (fun k : Bool × ExtDataIO R => k.2.param.modbus.btOpCode) hkey
  have hapart : ∀ {usAddress}, Apart vars usAddress v → Apart vars usAddress v' :=
    fun ⟨hother, hexp⟩ => ⟨(coversAddr_congr _ hkey).symm.trans hother, fun f hf hcov a ha =>
      hexp f hf hcov a ((hasReg_congr hkey a).mpr ha)⟩
  cases p with
  | modbus node ready reply =>
    intro _p hport hcode
    have h := h _p hport hcode
    cases reply with
    | none =>
      rw [← hop, ← has_congr _ hkey]
      exact h
    | some buf =>
      cases hb : replyBlock node _p with
      | none =>
        rw [hb] at h
        rw [← hop, ← has_congr _ hkey]
        exact h
      | some b =>
        rw [hb] at h
        dsimp only at h ⊢
        rw [← hop, ← has_congr _ hkey, ← has_congr _ hkey]
        exact ⟨h.1, fun j w hj hne hhas => hapart (h.2 j w hj hne hhas)⟩
  | rtuSelf addr reg0 reg1 =>
    obtain ⟨haddr, hnext, hrefresh⟩ := h
    exact ⟨fun ha => haddr ((hasReg_congr hkey _).mpr ha),
      fun ha => hnext ((hasReg_congr hkey _).mpr ha), hapart hrefresh⟩
  | dlt645 dlt645_addr addr op reply => exact ⟨h.1, fun hreply => hapart (h.2 hreply)⟩
  | written dev_type dev_num ready btSlaveAddr usAddress usNRegs => trivial

theorem ownPoll_congr {d d' : ExtData R} (h : d.key = d'.key) (p : Poll) :
    ownPoll d p = ownPoll d' p := by
  cases p with
  | modbus node ready reply =>
    have hop : d.xIo.param.modbus.btOpCode = d'.xIo.param.modbus.btOpCode :=
      congrArg (fun k : Bool × ExtDataIO R => k.2.param.modbus.btOpCode) h
    unfold ownPoll
    dsimp only
    rw [has_congr _ h, hop]
  | rtuSelf addr reg0 reg1 => rfl
  | dlt645 dlt645_addr addr op reply => rfl
  | written dev_type dev_num ready btSlaveAddr usAddress usNRegs => rfl

/-- All that a failure stores is zero. -/
theorem failRegs_zero {node : ExtData R} {w : Int × UInt16} (hw : w ∈ failRegs node) :
    w.2 = 0 := by
  unfold failRegs at hw
  split at hw
  · obtain ⟨k, -, rfl⟩ := List.mem_map.mp hw
    rfl
  · exact absurd hw List.not_mem_nil

theorem hasReg_of_mem_failRegs {node : ExtData R} {a : Nat}
    (h : ((a : Int) - userRegExtDataStart) ∈ (failRegs node).map Prod.fst) : HasReg node a := by
  unfold failRegs at h
  split at h
  · exact (hasReg_iff_block node a _).mp h
  · exact absurd h List.not_mem_nil

theorem mem_failRegs {node : ExtData R} {a : Nat} (h : clears node = true) (ha : HasReg node a) :
    ((a : Int) - userRegExtDataStart) ∈ (failRegs node).map Prod.fst := by
  unfold failRegs
  rw [if_pos h]
  exact (hasReg_iff_block node a _).mpr ha

/-- A register of a variable that a failure stores belongs to a variable of the block. -/
theorem mem_tryClear {b : Block} {vars : List (ExtData R)} {a : Nat}
    (h : ((a : Int) - userRegExtDataStart) ∈ ((vars.filter b.has).flatMap failRegs).map Prod.fst) :
    ∃ d ∈ vars, b.has d = true ∧
      ((a : Int) - userRegExtDataStart) ∈ (failRegs d).map Prod.fst := by
  obtain ⟨w, hw, hwa⟩ := List.mem_map.mp h
  obtain ⟨d, hd, hw⟩ := List.mem_flatMap.mp hw
  obtain ⟨hd, hhas⟩ := List.mem_filter.mp hd
  exact ⟨d, hd, hhas, List.mem_map.mpr ⟨w, hw, hwa⟩⟩

/-- The variable of a register is the one at its position. -/
theorem DisjointRanges.eq_of_mem {vars : List (ExtData R)} (h : DisjointRanges vars) {i : Nat}
    {d d' : ExtData R} (hi : vars[i]? = some d) (hd' : d' ∈ vars) {a : Nat} (ha : HasReg d a)
    (ha' : HasReg d' a) : d' = d := by
  obtain ⟨j, hj⟩ := List.mem_iff_getElem?.mp hd'
  have hij := h.position hi hj ha ha'
  rw [← hij, hi, Option.some.injEq] at hj
  exact hj.symm

/-- A failure of a block without the variable. -/
theorem same_tryClear {b : Block} {s : Polled R} {i : Nat} {v : ExtData R}
    (hdisj : DisjointRanges s.vars) (hi : s.vars[i]? = some v) (hnot : b.has v = false) :
    Same i v s (vVarManageModbusMasterTryClearExtDataWithErr b s) := by
  refine ⟨?_, fun a ha => stores_of_not_mem s.regs fun hmem => ?_⟩
  · show (s.vars.map fun node => if b.has node then failNode node else node)[i]? = s.vars[i]?
    rw [List.getElem?_map, hi, Option.map_some, if_neg (by rw [hnot]; exact Bool.false_ne_true)]
  · obtain ⟨d, hd, hhas, hmem⟩ := mem_tryClear hmem
    rw [hdisj.eq_of_mem hi hd ha (hasReg_of_mem_failRegs hmem), hnot] at hhas
    exact nomatch hhas

section Steps

variable [VarReal R] (env : PollEnv R)

theorem modbusReply_eq (s : Polled R) (node : SyncModbus) (_p : UInt8)
    (reply : Option (Nat → UInt8)) :
    modbusReply env s node _p reply =
      match reply, replyBlock node _p with
      | some buf, some b => responseBlock env b buf s
      | _, _ => vVarManageModbusMasterTryClearExtDataWithErr node.block s := by
  cases reply with
  | none => rfl
  | some buf =>
    unfold modbusReply replyBlock
    dsimp only
    rw [refreshWithModbusMaster_eq]
    cases portBlock _p node.slave_addr node.ext_addr node.ext_size.toUInt16 <;> rfl

omit [VarReal R] in
theorem ownPoll_modbus {v : ExtData R} {node : SyncModbus} {ready : Bool} {_p : UInt8}
    (reply : Option (Nat → UInt8)) (hport : pollPort ready node.dev_type node.dev_num = some _p)
    (hop : node.op = mbFuncReadHoldingRegister ∨ node.op = mbFuncReadInputRegister) :
    ownPoll v (.modbus node ready reply) =
      (node.block.has v && decide (node.op = v.xIo.param.modbus.btOpCode)) := by
  unfold ownPoll
  dsimp only
  rw [hport, decide_eq_true hop]
  rfl

theorem same_rtuSelf {s : Polled R} {i : Nat} {v : ExtData R} (hi : s.vars[i]? = some v)
    {addr reg0 reg1 : UInt16} (h : Undisturbed s.vars i v (.rtuSelf addr reg0 reg1)) :
    Same i v s (refreshRtuSelf env s addr reg0 reg1) := by
  obtain ⟨haddr, hnext, hapart⟩ := h
  refine Same.trans (same_store i fun a ha hmem => ?_)
    (same_refresh env (s := s.store _) hi rfl hapart)
  have hcases : (a : Int) - userRegExtDataStart = regIndex addr + 1 ∨
      (a : Int) - userRegExtDataStart = regIndex addr := by
    simpa using hmem
  unfold regIndex at hcases
  rcases hcases with hcase | hcase
  · have heq : a = addr.toNat + 1 := by omega
    exact hnext (heq ▸ ha)
  · have heq : a = addr.toNat := by omega
    exact haddr (heq ▸ ha)

theorem same_dlt645 {s : Polled R} {i : Nat} {v : ExtData R} (hdisj : DisjointRanges s.vars)
    (hi : s.vars[i]? = some v) {dlt645_addr : Dlt645Addr} {addr : UInt16} {op : UInt32}
    {reply : Option (Nat → UInt8)} (h : Undisturbed s.vars i v (.dlt645 dlt645_addr addr op reply)) :
    Same i v s (pollStep env s (.dlt645 dlt645_addr addr op reply)) := by
  obtain ⟨hother, hapart⟩ := h
  cases hidx : s.vars.findIdx? (dlt645Has dlt645_addr addr op) with
  | none =>
    cases reply with
    | some f_buf =>
      show Same i v s (bVarManageRefreshExtDataWithDlt645 env s dlt645_addr addr op f_buf)
      unfold bVarManageRefreshExtDataWithDlt645 getExtDataIoInfoWithDlt645Addr
      rw [List.find?_eq_bind_findIdx?_getElem?, hidx]
      exact Same.refl i v s
    | none =>
      show Same i v s (vVarManageDlt645TryClearExtDataWithErr s dlt645_addr addr op)
      unfold vVarManageDlt645TryClearExtDataWithErr
      rw [hidx]
      exact Same.refl i v s
  | some j =>
    rw [hidx] at hother
    have hne : j ≠ i := fun hji => hother (congrArg some hji)
    obtain ⟨hlt, hhas, -⟩ := List.findIdx?_eq_some_iff_getElem.mp hidx
    have hj : s.vars[j]? = some s.vars[j] := List.getElem?_eq_getElem hlt
    generalize s.vars[j] = first at hj hhas
    have haddr : first.xIo.usAddr = addr := by
      unfold dlt645Has at hhas
      simp only [Bool.and_eq_true, decide_eq_true_eq] at hhas
      exact hhas.1.2
    -- no register of the variable belongs to the first node of the meter
    have hregs : ∀ a, HasReg v a → ¬ HasReg first a := fun a ha hfirst =>
      hne (hdisj.position hj hi hfirst ha)
    cases reply with
    | some f_buf =>
      show Same i v s (bVarManageRefreshExtDataWithDlt645 env s dlt645_addr addr op f_buf)
      unfold bVarManageRefreshExtDataWithDlt645 getExtDataIoInfoWithDlt645Addr
      rw [List.find?_eq_bind_findIdx?_getElem?, hidx, Option.bind_some, hj]
      dsimp only
      split
      · refine Same.trans (same_store i fun a ha hmem => hregs a ha ?_)
          (same_refresh env (s := s.store _) hi rfl (hapart rfl))
        have hin := (mem_block_iff _ _ _ _).mp hmem
        unfold regIndex at hin
        unfold HasReg
        rw [haddr]
        split at hin <;> omega
      · exact Same.refl i v s
    | none =>
      show Same i v s (vVarManageDlt645TryClearExtDataWithErr s dlt645_addr addr op)
      unfold vVarManageDlt645TryClearExtDataWithErr
      rw [hidx]
      dsimp only
      rw [hj]
      refine ⟨List.getElem?_set_ne hne, fun a ha => stores_of_not_mem s.regs fun hmem => ?_⟩
      exact hregs a ha (hasReg_of_mem_failRegs hmem)

/-- A poll that is not one of the block of the variable. -/
theorem same_pollStep {s : Polled R} {i : Nat} {v : ExtData R} (hdisj : DisjointRanges s.vars)
    (hi : s.vars[i]? = some v) {p : Poll} (h : Undisturbed s.vars i v p)
    (hnot : ownPoll v p = false) : Same i v s (pollStep env s p) := by
  cases p with
  | modbus node ready reply =>
    unfold pollStep
    dsimp only
    split
    · next _p hport =>
      split
      · next hop =>
        have h := h _p hport hop
        rw [ownPoll_modbus reply hport hop] at hnot
        rw [modbusReply_eq]
        have hfail (hown : node.block.has v = true → node.op = v.xIo.param.modbus.btOpCode) :
            node.block.has v = false := by
          cases hhas : node.block.has v with
          | false => rfl
          | true =>
            rw [hhas, decide_eq_true (hown hhas)] at hnot
            exact nomatch hnot
        cases reply with
        | none => exact same_tryClear hdisj hi (hfail h)
        | some buf =>
          cases hb : replyBlock node _p with
          | none =>
            rw [hb] at h
            exact same_tryClear hdisj hi (hfail h)
          | some b =>
            rw [hb] at h
            exact same_responseBlock env buf hdisj hi h.2 (h.1.trans hnot)
      · exact Same.refl i v s
    · exact Same.refl i v s
  | rtuSelf addr reg0 reg1 => exact same_rtuSelf env hi h
  | dlt645 dlt645_addr addr op reply => exact same_dlt645 env hdisj hi h
  | written dev_type dev_num ready btSlaveAddr usAddress usNRegs =>
    unfold pollStep bVarManageReadExtDataWithModbusMaster
    dsimp only
    split
    · split <;> exact ⟨rfl, fun _ _ => rfl⟩
    · exact Same.refl i v s

end Steps

/-! ## Polls of the block of the variable -/

/-- A failure of a block with the variable. -/
theorem tryClear_own {b : Block} {s : Polled R} {i : Nat} {v : ExtData R}
    (hdisj : DisjointRanges s.vars) (hi : s.vars[i]? = some v) (hhas : b.has v = true) :
    (vVarManageModbusMasterTryClearExtDataWithErr b s).vars[i]? = some (failNode v) ∧
      ∀ a, HasReg v a → regAt (vVarManageModbusMasterTryClearExtDataWithErr b s).regs a =
        if clears v then 0 else regAt s.regs a := by
  constructor
  · show (s.vars.map fun node => if b.has node then failNode node else node)[i]? = _
    rw [List.getElem?_map, hi, Option.map_some, if_pos hhas]
  · intro a ha
    show stores s.regs ((s.vars.filter b.has).flatMap failRegs) _ = _
    split
    · next hclear =>
      refine stores_of_mem s.regs (fun w hw => ?_) ?_
      · obtain ⟨d, -, hw⟩ := List.mem_flatMap.mp hw
        exact failRegs_zero hw
      · obtain ⟨w, hw, hwa⟩ := List.mem_map.mp (mem_failRegs hclear ha)
        refine List.mem_map.mpr ⟨w, List.mem_flatMap.mpr ⟨v, ?_, hw⟩, hwa⟩
        exact List.mem_filter.mpr ⟨List.mem_of_getElem? hi, hhas⟩
    · next hclear =>
      refine stores_of_not_mem s.regs fun hmem => ?_
      obtain ⟨d, hd, -, hmem⟩ := mem_tryClear hmem
      rw [hdisj.eq_of_mem hi hd ha (hasReg_of_mem_failRegs hmem)] at hmem
      unfold failRegs at hmem
      rw [if_neg hclear] at hmem
      exact absurd hmem List.not_mem_nil

/-! ## Runs -/

/-- Value and registers of the variable are zero. -/
structure Zeroed (i : Nat) (v : ExtData R) (s : Polled R) : Prop where
  value : valueOf s i = some 0
  regs : ∀ a, HasReg v a → regAt s.regs a = 0

/-- The failures of the own block in a run. -/
def ownFailures (v : ExtData R) (polls : List Poll) : Nat :=
  polls.countP fun p => ownPoll v p && !succeeds p

/-- `k` failures after the reading in `s`. -/
inductive Counted (i : Nat) (v : ExtData R) (s s' : Polled R) (k : Nat) : Prop where
  | kept (w : ExtData R) (node : s'.vars[i]? = some w) (key : w.key = v.key)
      (count : w.xIo.btErrNum.toNat = k) (le : k ≤ v.xIo.btErrCnt.toNat)
      (keeps : Keeps i v s s')
  | cleared (w : ExtData R) (node : s'.vars[i]? = some w) (key : w.key = v.key)
      (lt : v.xIo.btErrCnt.toNat < k) (zero : Zeroed i v s')

theorem Keeps.trans_same {i : Nat} {v w : ExtData R} {s s' s'' : Polled R} (h : Keeps i v s s')
    (hkey : w.key = v.key) (h' : Same i w s' s'') : Keeps i v s s'' := by
  refine ⟨?_, fun a ha => ?_⟩
  · unfold valueOf
    rw [h'.node]
    exact h.value
  · exact (h'.regs a ((hasReg_congr hkey a).mpr ha)).trans (h.regs a ha)

theorem Zeroed.of_same {i : Nat} {v w : ExtData R} {s s' : Polled R} (h : Zeroed i v s)
    (hkey : w.key = v.key) (h' : Same i w s s') : Zeroed i v s' := by
  refine ⟨?_, fun a ha => ?_⟩
  · unfold valueOf
    rw [h'.node]
    exact h.value
  · exact (h'.regs a ((hasReg_congr hkey a).mpr ha)).trans (h.regs a ha)

theorem key_limit {d d' : ExtData R} (h : d.key = d'.key) : d.xIo.btErrCnt = d'.xIo.btErrCnt :=
  congrArg (fun k : Bool × ExtDataIO R => k.2.btErrCnt) h

theorem key_errOp {d d' : ExtData R} (h : d.key = d'.key) : d.xIo.btErrOp = d'.xIo.btErrOp :=
  congrArg (fun k : Bool × ExtDataIO R => k.2.btErrOp) h

/-- A failure below the limit is counted. -/
theorem failNode_below {w : ExtData R} (hop : w.xIo.btErrOp = eErrOpClear)
    (hlt : w.xIo.btErrNum.toNat < w.xIo.btErrCnt.toNat) :
    clears w = false ∧ (failNode w).xIo.xValue = w.xIo.xValue ∧
      (failNode w).xIo.btErrNum.toNat = w.xIo.btErrNum.toNat + 1 := by
  have hnot : ¬ w.xIo.btErrCnt ≤ w.xIo.btErrNum := by
    rw [UInt8.le_iff_toNat_le]
    omega
  unfold clears failNode
  rw [if_pos hop, if_neg hnot, decide_eq_false hnot, Bool.and_false]
  have hmax := w.xIo.btErrCnt.toNat_lt
  refine ⟨rfl, rfl, ?_⟩
  show (w.xIo.btErrNum + 1).toNat = _
  rw [UInt8.toNat_add]
  show (w.xIo.btErrNum.toNat + 1) % 256 = _
  omega

/-- A failure at the limit clears the variable. -/
theorem failNode_limit {w : ExtData R} (hop : w.xIo.btErrOp = eErrOpClear)
    (hle : w.xIo.btErrCnt.toNat ≤ w.xIo.btErrNum.toNat) :
    clears w = true ∧ (failNode w).xIo.xValue = 0 := by
  have hle : w.xIo.btErrCnt ≤ w.xIo.btErrNum := UInt8.le_iff_toNat_le.mpr hle
  unfold clears failNode
  rw [if_pos hop, if_pos hle, decide_eq_true hop, decide_eq_true hle]
  exact ⟨rfl, rfl⟩

/-- A value of zero stays zero. -/
theorem failNode_zero {w : ExtData R} (h : w.xIo.xValue = 0) : (failNode w).xIo.xValue = 0 := by
  unfold failNode
  split
  · split
    · rfl
    · exact h
  · exact h

/-- A failure of the own block. -/
theorem Counted.fail {i : Nat} {v : ExtData R} {s s' : Polled R} {k : Nat}
    (hop : v.xIo.btErrOp = eErrOpClear) (hdisj : DisjointRanges s'.vars)
    (h : Counted i v s s' k) {b : Block} (hhas : b.has v = true) :
    Counted i v s (vVarManageModbusMasterTryClearExtDataWithErr b s') (k + 1) := by
  cases h with
  | kept w node key count le keeps =>
    obtain ⟨hnode, hregs⟩ := tryClear_own (b := b) hdisj node (by rwa [has_congr b key])
    have hop : w.xIo.btErrOp = eErrOpClear := (key_errOp key).trans hop
    have hkey := (key_failNode w).trans key
    have hlimit := key_limit key
    by_cases hlt : k < v.xIo.btErrCnt.toNat
    · obtain ⟨hclear, hvalue, hnum⟩ := failNode_below hop (by rw [count, hlimit]; exact hlt)
      refine .kept (failNode w) hnode hkey (by rw [hnum, count]) hlt ⟨?_, fun a ha => ?_⟩
      · rw [← keeps.value]
        unfold valueOf
        rw [hnode, node, Option.map_some, Option.map_some, hvalue]
      · rw [hregs a ((hasReg_congr key a).mpr ha), if_neg (by rw [hclear]; exact Bool.false_ne_true)]
        exact keeps.regs a ha
    · obtain ⟨hclear, hvalue⟩ := failNode_limit hop (by rw [count, hlimit]; omega)
      refine .cleared (failNode w) hnode hkey (by omega) ⟨?_, fun a ha => ?_⟩
      · unfold valueOf
        rw [hnode, Option.map_some, hvalue]
      · rw [hregs a ((hasReg_congr key a).mpr ha), if_pos hclear]
  | cleared w node key lt zero =>
    obtain ⟨hnode, hregs⟩ := tryClear_own (b := b) hdisj node (by rwa [has_congr b key])
    have hzero : w.xIo.xValue = 0 := by
      have hvalue := zero.value
      unfold valueOf at hvalue
      rw [node, Option.map_some, Option.some.injEq] at hvalue
      exact hvalue
    refine .cleared (failNode w) hnode ((key_failNode w).trans key) (by omega)
      ⟨?_, fun a ha => ?_⟩
    · unfold valueOf
      rw [hnode, Option.map_some, failNode_zero hzero]
    · rw [hregs a ((hasReg_congr key a).mpr ha)]
      split
      · rfl
      · exact zero.regs a ha

section Runs

variable [VarReal R] (env : PollEnv R)

/-- A failed poll of the own block is a failure of a block with the variable. -/
theorem pollStep_fail {s : Polled R} {i : Nat} {v : ExtData R} {p : Poll}
    (h : Undisturbed s.vars i v p) (hown : ownPoll v p = true) (hfail : succeeds p = false) :
    ∃ b : Block, b.has v = true ∧
      pollStep env s p = vVarManageModbusMasterTryClearExtDataWithErr b s := by
  cases p with
  | modbus node ready reply =>
    have hcond := hown
    unfold ownPoll at hcond
    simp only [Bool.and_eq_true, decide_eq_true_eq] at hcond
    obtain ⟨⟨⟨hsome, hop⟩, hhas⟩, -⟩ := hcond
    obtain ⟨_p, hport⟩ := Option.isSome_iff_exists.mp hsome
    refine ⟨node.block, hhas, ?_⟩
    unfold pollStep
    dsimp only
    rw [hport]
    dsimp only
    rw [if_pos hop, modbusReply_eq]
    cases reply with
    | none => rfl
    | some buf =>
      unfold succeeds at hfail
      dsimp only at hfail
      rw [hport, Option.bind_some] at hfail
      rw [Option.isSome_eq_false_iff, Option.isNone_iff_eq_none] at hfail
      rw [hfail]
  | rtuSelf addr reg0 reg1 => exact nomatch hown
  | dlt645 dlt645_addr addr op reply => exact nomatch hown
  | written dev_type dev_num ready btSlaveAddr usAddress usNRegs => exact nomatch hown

/-- A reply to a poll of the own block: the counter of the failures is zero. -/
theorem pollStep_good {s : Polled R} {i : Nat} {v : ExtData R} (hdisj : DisjointRanges s.vars)
    (hi : s.vars[i]? = some v) (hsize : 0 < v.xIo.nregs) {p : Poll}
    (h : Undisturbed s.vars i v p) (hown : ownPoll v p = true) (hgood : succeeds p = true) :
    ∃ w, (pollStep env s p).vars[i]? = some w ∧ w.xIo.btErrNum = 0 := by
  cases p with
  | modbus node ready reply =>
    have hcond := hown
    unfold ownPoll at hcond
    simp only [Bool.and_eq_true, decide_eq_true_eq] at hcond
    obtain ⟨⟨⟨hsome, hop⟩, -⟩, -⟩ := hcond
    obtain ⟨_p, hport⟩ := Option.isSome_iff_exists.mp hsome
    unfold pollStep
    dsimp only
    rw [hport]
    dsimp only
    rw [if_pos hop, modbusReply_eq]
    have h := h _p hport hop
    cases reply with
    | none => exact nomatch hgood
    | some buf =>
      unfold succeeds at hgood
      dsimp only at hgood
      rw [hport, Option.bind_some] at hgood
      obtain ⟨b, hb⟩ := Option.isSome_iff_exists.mp hgood
      rw [hb] at h ⊢
      dsimp only at h ⊢
      rw [← ownPoll_modbus (some buf) hport hop, hown] at h
      obtain ⟨s', hbefore, hkeys, hafter⟩ := responseBlock_pass env buf hdisj hi h.2
      have hi' := hbefore.node.trans hi
      have hpass := responseNode_own env buf (hdisj.congr hkeys) hi' h.1 hsize
      obtain ⟨w, hvars, -, hnum⟩ := (refreshNode_refreshed env (s'.store (refreshRegs
        (fun k => buf (2 * (v.xIo.param.modbus.usExtAddr.toNat - b.usAddress.toNat) + k))
        v.xIo.usAddr v.xIo.nregs)) (i := i) v.xIo.usAddr v).record
      refine ⟨w, ?_, hnum⟩
      obtain ⟨hlt, -⟩ := List.getElem?_eq_some_iff.mp hi'
      rw [hafter.node, hpass, hvars]
      exact List.getElem?_set_self hlt
  | rtuSelf addr reg0 reg1 => exact nomatch hown
  | dlt645 dlt645_addr addr op reply => exact nomatch hown
  | written dev_type dev_num ready btSlaveAddr usAddress usNRegs => exact nomatch hown

/-- A poll of another block. -/
theorem Counted.other {i : Nat} {v : ExtData R} {s s' : Polled R} {k : Nat}
    (hdisj : DisjointRanges s'.vars) (h : Counted i v s s' k) {p : Poll}
    (hquiet : Undisturbed s'.vars i v p) (hnot : ownPoll v p = false) :
    Counted i v s (pollStep env s' p) k := by
  cases h with
  | kept w node key count le keeps =>
    have hsame := same_pollStep env hdisj node (hquiet.of_key key.symm)
      (by rwa [ownPoll_congr key])
    exact .kept w (hsame.node.trans node) key count le (keeps.trans_same key hsame)
  | cleared w node key lt zero =>
    have hsame := same_pollStep env hdisj node (hquiet.of_key key.symm)
      (by rwa [ownPoll_congr key])
    exact .cleared w (hsame.node.trans node) key lt (zero.of_same key hsame)

/-- The polls after a reading, none of which is a reading. -/
theorem Counted.run {i : Nat} {v : ExtData R} {s s' : Polled R} {k : Nat}
    (hop : v.xIo.btErrOp = eErrOpClear) (hdisj : DisjointRanges s'.vars)
    (h : Counted i v s s' k) {polls : List Poll}
    (hfail : ∀ p ∈ polls, ownPoll v p = true → succeeds p = false)
    (hquiet : ∀ p ∈ polls, Undisturbed s'.vars i v p) :
    Counted i v s (pollRun env s' polls) (k + ownFailures v polls) := by
  unfold pollRun
  induction polls generalizing s' k with
  | nil => exact h
  | cons p polls ih =>
    have hkey := pollStep_key env s' p
    have hrest : ∀ q ∈ polls, Undisturbed (pollStep env s' p).vars i v q := fun q hq =>
      (hquiet q (List.mem_cons_of_mem p hq)).congr hkey
    have hrestFail : ∀ q ∈ polls, ownPoll v q = true → succeeds q = false := fun q hq =>
      hfail q (List.mem_cons_of_mem p hq)
    have hp := hquiet p List.mem_cons_self
    rw [List.foldl_cons]
    cases hown : ownPoll v p with
    | false =>
      have hcount : ownFailures v (p :: polls) = ownFailures v polls := by
        unfold ownFailures
        rw [List.countP_cons_of_neg (by rw [hown]; exact Bool.false_ne_true)]
      rw [hcount]
      exact ih (hdisj.congr hkey) (h.other env hdisj hp hown) hrestFail hrest
    | true =>
      have hnot := hfail p List.mem_cons_self hown
      have hcount : ownFailures v (p :: polls) = ownFailures v polls + 1 := by
        unfold ownFailures
        rw [List.countP_cons_of_pos (by rw [hown, hnot]; rfl)]
      obtain ⟨b, hhas, hstep⟩ := pollStep_fail env hp hown hnot
      have hnext := h.fail hop hdisj hhas
      rw [← hstep] at hnext
      have hrun := ih (hdisj.congr hkey) hnext hrestFail hrest
      rw [hcount, show k + (ownFailures v polls + 1) = k + 1 + ownFailures v polls by omega]
      exact hrun

/-- After a reading, the variable keeps it as long as at most `btErrCnt` polls of its block have
    failed, and is zero from the next failure on. -/
theorem clear_on_error {s : Polled R} {i : Nat} {v : ExtData R} (hi : s.vars[i]? = some v)
    (hdisj : DisjointRanges s.vars) (hop : v.xIo.btErrOp = eErrOpClear)
    (hsize : 0 < v.xIo.nregs) {good : Poll} (hown : ownPoll v good = true)
    (hgood : succeeds good = true) {polls : List Poll}
    (hfail : ∀ p ∈ polls, ownPoll v p = true → succeeds p = false)
    (hquiet : ∀ p ∈ good :: polls, Undisturbed s.vars i v p) :
    (ownFailures v polls ≤ v.xIo.btErrCnt.toNat →
      Keeps i v (pollRun env s [good]) (pollRun env s (good :: polls))) ∧
    (v.xIo.btErrCnt.toNat < ownFailures v polls → Zeroed i v (pollRun env s (good :: polls))) := by
  have hkey := pollStep_key env s good
  obtain ⟨w, hw, hnum⟩ := pollStep_good env hdisj hi hsize (hquiet good List.mem_cons_self) hown
    hgood
  have hwkey : w.key = v.key := by
    obtain ⟨v', hv', hk⟩ := getElem?_key hkey hw
    rw [hi, Option.some.injEq] at hv'
    rw [← hk, hv']
  have hstart : Counted i v (pollStep env s good) (pollStep env s good) 0 :=
    .kept w hw hwkey (by rw [hnum]; rfl) (Nat.zero_le _) ⟨rfl, fun _ _ => rfl⟩
  have hrun := hstart.run env hop (hdisj.congr hkey) hfail fun p hp =>
    (hquiet p (List.mem_cons_of_mem good hp)).congr hkey
  rw [Nat.zero_add] at hrun
  cases hrun with
  | kept _ _ _ _ le keeps => exact ⟨fun _ => keeps, fun hlt => by omega⟩
  | cleared _ _ _ lt zero => exact ⟨fun hle => by omega, fun _ => zero⟩

end Runs

/-! ## Two function codes on one slave -/

open CString Cjson

/-- The poll of register 0, with a reply or a failure. -/
def registerPoll (op : UInt8) (reply : Option (Nat → UInt8)) : Poll :=
  .modbus ⟨0, 0, op, 1, 0, 1⟩ true reply

theorem clear_on_error_one :
    let v := jsonParseExtDataInfo (clearedDoc 1024 3) zeroed
    let good := registerPoll 3 (some fun _ => 7)
    Zeroed 0 v (pollRun plainEnv ⟨[v], fun _ => 0, []⟩ [good, registerPoll 3 none]) := by
  intro v good
  have hquiet : ∀ reply, Undisturbed [v] 0 v (registerPoll 3 reply) := by
    intro reply _p hport hop
    obtain rfl : (1 : UInt8) = _p := Option.some.inj hport
    cases reply with
    | none => exact fun _ => rfl
    | some buf =>
      refine ⟨by decide +kernel, fun j w hj hne => ?_⟩
      cases j with
      | zero => exact absurd rfl hne
      | succ j => exact nomatch hj
  refine (@clear_on_error Int _ plainEnv ⟨[v], fun _ => 0, []⟩ 0 v rfl
    (List.pairwise_singleton _ v) (by decide +kernel) (by decide +kernel) good
    (by decide +kernel) (by decide +kernel) [registerPoll 3 none] (fun p hp _ => ?_)
    (fun p hp => ?_)).2 (by decide +kernel)
  · rw [List.mem_singleton.mp hp]
    rfl
  · rcases List.mem_cons.mp hp with rfl | hp
    · exact hquiet _
    · rw [List.mem_singleton.mp hp]
      exact hquiet _

/-- A failed poll of the input register 0 clears the holding register 0. -/
theorem clear_on_error_other_op :
    ¬ ∀ (docs : List (Item Int)) (regs : Regs) (i : Nat) (v : ExtData Int) (good : Poll)
      (polls : List Poll), (configured docs)[i]? = some v → DisjointRanges (configured docs) →
        protoIsModbus v.xIo.usDevType.toNat v.xIo.usProtoType.toNat = true →
          v.xIo.btErrOp = eErrOpClear → ownPoll v good = true → succeeds good = true →
            (∀ p ∈ polls, ownPoll v p = true → succeeds p = false) →
              ownFailures v polls ≤ v.xIo.btErrCnt.toNat →
                Keeps i v (pollRun plainEnv ⟨configured docs, regs, []⟩ [good])
                  (pollRun plainEnv ⟨configured docs, regs, []⟩ (good :: polls)) := by
  intro h
  have hkeeps := h [clearedDoc 1024 3, clearedDoc 1025 4] (fun _ => 0) 0
    (jsonParseExtDataInfo (clearedDoc 1024 3) zeroed) (registerPoll 3 (some fun _ => 7))
    [registerPoll 4 none] rfl disjoint_two_ops (by decide +kernel) (by decide +kernel) (by decide +kernel)
    (by decide +kernel) (fun p hp hown => by
      rw [List.mem_singleton.mp hp]
      rfl) (by decide +kernel)
  have hreg := hkeeps.regs 1024 ⟨by decide +kernel, by decide +kernel⟩
  exact absurd hreg (by decide +kernel)

end K64Gateway.VarManage
