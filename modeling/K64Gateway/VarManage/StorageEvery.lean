import K64Gateway.VarManage.StoragePass

/-
  Which variables a storage pass of `vVarManage_ExtDataRefreshTask` gives to `bStorageAddData`.
  `prvCheckExeDataEnable` asks every variable for the slave address of a Modbus one; of a DLT645
  variable that is the low byte of its identifier.

  Proved: in every pass, whatever other threads do between its steps, each variable that is due
  is given exactly once with its own average, if and only if the filter lets every variable of
  the list through (`every_due_stored_iff`). A DLT645 variable whose identifier ends in a zero
  byte is never stored; all identifiers of `dlt645.h` do.
-/

namespace K64Gateway.VarManage

variable {R : Type}

/-! ## A pass over the list -/

/-- What comes between the steps while a node is looked at. -/
structure StorageVisit where
  /-- values that variables take before the copy -/
  before : List (Nat × VarValue)
  /-- those before the look at an average -/
  amid : AvgKind → List (Nat × VarValue)
  tick : AvgKind → UInt32
  sent : AvgKind → Bool
  /-- those before the clear -/
  late : AvgKind → List (Nat × VarValue)
  clearTick : AvgKind → UInt32

def updateSteps (values : List (Nat × VarValue)) : List StorageStep :=
  values.map fun u => .update u.1 u.2

/-- The look at an average, and its clear. -/
def lookSteps (v : StorageVisit) (kind : AvgKind) : List StorageStep :=
  updateSteps (v.amid kind) ++ .check (v.tick kind) (v.sent kind) ::
    (updateSteps (v.late kind) ++ [.clear (v.clearTick kind)])

def visitSteps (v : StorageVisit) (n : Nat) : List StorageStep :=
  updateSteps v.before ++ .copy n true true ::
    (lookSteps v .real ++ lookSteps v .min ++ lookSteps v .hour)

/-- The loop over the list, with the storage enabled and memory for every copy. -/
def passSteps (visits : Nat → StorageVisit) (num : Nat) : List StorageStep :=
  (List.range num).flatMap fun n => visitSteps (visits n) n

/-- A call of `bStorageAddData` for the node at a place. -/
structure AddData (R : Type) where
  place : Nat
  item : StorageItem R

section Calls

variable [VarReal R]

/-- The call of a step. -/
def stepCalls (s : Storing R) : StorageStep → List (AddData R)
  | .check tick _ =>
      match s.pass with
      | .check n data kind => if data.due tick kind then [⟨n, storageItem data kind⟩] else []
      | _ => []
  | _ => []

def runCalls (s : Storing R) : List StorageStep → List (AddData R)
  | [] => []
  | step :: steps => stepCalls s step ++ runCalls (storageStep s step) steps

theorem storageRun_append (s : Storing R) (xs ys : List StorageStep) :
    storageRun s (xs ++ ys) = storageRun (storageRun s xs) ys := List.foldl_append

theorem runCalls_append (s : Storing R) (xs ys : List StorageStep) :
    runCalls s (xs ++ ys) = runCalls s xs ++ runCalls (storageRun s xs) ys := by
  induction xs generalizing s with
  | nil => rfl
  | cons x xs ih =>
    rw [List.cons_append, runCalls, ih, runCalls, List.append_assoc]
    rfl

/-! ## The calls of one visit -/

theorem updateStep_pass (s : Storing R) (i : Nat) (xValue : VarValue) :
    (updateStep s i xValue).pass = s.pass := by
  unfold updateStep
  split <;> rfl

/-- Updates do not touch the pass, and call nothing. -/
theorem updateSteps_run (s : Storing R) (values : List (Nat × VarValue)) :
    (storageRun s (updateSteps values)).pass = s.pass ∧ runCalls s (updateSteps values) = [] := by
  induction values generalizing s with
  | nil => exact ⟨rfl, rfl⟩
  | cons u values ih =>
    obtain ⟨hpass, hcalls⟩ := ih (updateStep s u.1 u.2)
    refine ⟨?_, ?_⟩
    · rw [← updateStep_pass s u.1 u.2]
      exact hpass
    · exact hcalls

/-- The call of a look at an average of the copy. -/
def lookCall (n : Nat) (data : ExtData R) (tick : UInt32) (kind : AvgKind) : List (AddData R) :=
  if data.due tick kind then [⟨n, storageItem data kind⟩] else []

theorem clearStep_pass (s : Storing R) (tick : UInt32) {n : Nat} {data : ExtData R}
    {kind : AvgKind} (hpass : s.pass = .clear n data kind) :
    (clearStep s tick).pass = .behind n data kind := by
  unfold clearStep
  rw [hpass]
  dsimp only
  split
  · split <;> rfl
  · rfl

theorem clearStep_of_not_clear (s : Storing R) (tick : UInt32) (hpass : s.pass.Settled) :
    clearStep s tick = s := by
  unfold clearStep
  split
  · next h =>
    rw [h] at hpass
    exact absurd hpass id
  · rfl

omit [VarReal R] in
theorem settled_behind (n : Nat) (data : ExtData R) (kind : AvgKind) :
    (Pass.behind n data kind).Settled := by
  cases kind <;> exact trivial

/-- A look at an average: its call, and on to the next one. -/
theorem lookSteps_check (s : Storing R) (v : StorageVisit) {n : Nat} {data : ExtData R}
    {kind : AvgKind} (hpass : s.pass = .check n data kind) :
    (storageRun s (lookSteps v kind)).pass = .behind n data kind ∧
      runCalls s (lookSteps v kind) = lookCall n data (v.tick kind) kind := by
  obtain ⟨hamid, hamidCalls⟩ := updateSteps_run s (v.amid kind)
  have hcheck : (storageRun s (updateSteps (v.amid kind))).pass = .check n data kind :=
    hamid.trans hpass
  generalize hs1 : storageRun s (updateSteps (v.amid kind)) = s1 at hcheck
  obtain ⟨hlate, hlateCalls⟩ := updateSteps_run (checkStep s1 (v.tick kind) (v.sent kind))
    (v.late kind)
  generalize hs2 : storageRun (checkStep s1 (v.tick kind) (v.sent kind))
    (updateSteps (v.late kind)) = s2 at hlate
  have hcall : stepCalls s1 (.check (v.tick kind) (v.sent kind)) =
      lookCall n data (v.tick kind) kind := by
    unfold stepCalls
    dsimp only
    rw [hcheck]
    rfl
  have hclear : (clearStep s2 (v.clearTick kind)).pass = .behind n data kind := by
    by_cases hdue : data.due (v.tick kind) kind = true
    · refine clearStep_pass s2 _ (hlate.trans ?_)
      unfold checkStep
      rw [hcheck]
      dsimp only
      rw [if_pos hdue]
      split <;> rfl
    · have hbehind : s2.pass = .behind n data kind := by
        refine hlate.trans ?_
        unfold checkStep
        rw [hcheck]
        dsimp only
        rw [if_neg hdue]
      rw [clearStep_of_not_clear s2 _ (by rw [hbehind]; exact settled_behind n data kind), hbehind]
  unfold lookSteps
  refine ⟨?_, ?_⟩
  · rw [storageRun_append, hs1]
    show (storageRun (checkStep s1 (v.tick kind) (v.sent kind))
      (updateSteps (v.late kind) ++ [.clear (v.clearTick kind)])).pass = _
    rw [storageRun_append, hs2]
    exact hclear
  · rw [runCalls_append, hamidCalls, hs1, List.nil_append, runCalls, hcall, runCalls_append]
    show lookCall n data (v.tick kind) kind ++
      (runCalls (checkStep s1 (v.tick kind) (v.sent kind)) (updateSteps (v.late kind)) ++ []) = _
    rw [hlateCalls, List.append_nil, List.append_nil]

/-- Without a copy the looks do nothing. -/
theorem lookSteps_idle (s : Storing R) (v : StorageVisit) (kind : AvgKind)
    (hpass : s.pass = .idle) :
    (storageRun s (lookSteps v kind)).pass = .idle ∧ runCalls s (lookSteps v kind) = [] := by
  obtain ⟨hamid, hamidCalls⟩ := updateSteps_run s (v.amid kind)
  have hidle : (storageRun s (updateSteps (v.amid kind))).pass = .idle := hamid.trans hpass
  generalize hs1 : storageRun s (updateSteps (v.amid kind)) = s1 at hidle
  have hcheck : checkStep s1 (v.tick kind) (v.sent kind) = s1 := by
    unfold checkStep
    rw [hidle]
  obtain ⟨hlate, hlateCalls⟩ := updateSteps_run s1 (v.late kind)
  have hcall : stepCalls s1 (.check (v.tick kind) (v.sent kind)) = [] := by
    unfold stepCalls
    dsimp only
    rw [hidle]
  unfold lookSteps
  refine ⟨?_, ?_⟩
  · rw [storageRun_append, hs1]
    show (storageRun (checkStep s1 (v.tick kind) (v.sent kind))
      (updateSteps (v.late kind) ++ [.clear (v.clearTick kind)])).pass = _
    rw [hcheck, storageRun_append]
    show (clearStep (storageRun s1 (updateSteps (v.late kind))) (v.clearTick kind)).pass = _
    rw [clearStep_of_not_clear _ _ (by rw [hlate, hidle]; exact trivial), hlate, hidle]
  · rw [runCalls_append, hamidCalls, hs1, List.nil_append, runCalls, hcall, List.nil_append]
    show runCalls (checkStep s1 (v.tick kind) (v.sent kind))
      (updateSteps (v.late kind) ++ [.clear (v.clearTick kind)]) = []
    rw [hcheck, runCalls_append, hlateCalls]
    rfl

/-- The filter in front of the three averages. -/
def ExtData.storable (data : ExtData R) : Bool :=
  prvCheckExeDataEnable data && data.xStorage.bEnable

/-- The calls for a copy. -/
def visitCalls (v : StorageVisit) (n : Nat) (data : ExtData R) : List (AddData R) :=
  if data.storable then
    lookCall n data (v.tick .real) .real ++ lookCall n data (v.tick .min) .min ++
      lookCall n data (v.tick .hour) .hour
  else []

/-- The three looks at a copy. -/
theorem looks_check (s : Storing R) (v : StorageVisit) {n : Nat} {data : ExtData R}
    (hpass : s.pass = .check n data .real) :
    (storageRun s (lookSteps v .real ++ lookSteps v .min ++ lookSteps v .hour)).pass = .idle ∧
      runCalls s (lookSteps v .real ++ lookSteps v .min ++ lookSteps v .hour) =
        lookCall n data (v.tick .real) .real ++ lookCall n data (v.tick .min) .min ++
          lookCall n data (v.tick .hour) .hour := by
  obtain ⟨hreal, hrealCalls⟩ := lookSteps_check s v hpass
  have hreal : (storageRun s (lookSteps v .real)).pass = .check n data .min := hreal
  obtain ⟨hmin, hminCalls⟩ := lookSteps_check _ v hreal
  have hmin : (storageRun (storageRun s (lookSteps v .real)) (lookSteps v .min)).pass =
      .check n data .hour := hmin
  obtain ⟨hhour, hhourCalls⟩ := lookSteps_check _ v hmin
  rw [storageRun_append, storageRun_append, runCalls_append, runCalls_append, storageRun_append,
    hrealCalls, hminCalls, hhourCalls]
  exact ⟨hhour, rfl⟩

theorem looks_idle (s : Storing R) (v : StorageVisit) (hpass : s.pass = .idle) :
    (storageRun s (lookSteps v .real ++ lookSteps v .min ++ lookSteps v .hour)).pass = .idle ∧
      runCalls s (lookSteps v .real ++ lookSteps v .min ++ lookSteps v .hour) = [] := by
  obtain ⟨hreal, hrealCalls⟩ := lookSteps_idle s v .real hpass
  obtain ⟨hmin, hminCalls⟩ := lookSteps_idle (storageRun s (lookSteps v .real)) v .min hreal
  obtain ⟨hhour, hhourCalls⟩ := lookSteps_idle
    (storageRun (storageRun s (lookSteps v .real)) (lookSteps v .min)) v .hour hmin
  rw [storageRun_append, storageRun_append, runCalls_append, runCalls_append, storageRun_append,
    hrealCalls, hminCalls, hhourCalls]
  exact ⟨hhour, rfl⟩

/-- A visit gives the averages of the node as it was copied. -/
theorem visitSteps_run (s : Storing R) (v : StorageVisit) {n : Nat} {node : ExtData R}
    (hpass : s.pass = .idle) (hn : (storageRun s (updateSteps v.before)).vars[n]? = some node) :
    (storageRun s (visitSteps v n)).pass = .idle ∧
      runCalls s (visitSteps v n) = visitCalls v n node := by
  obtain ⟨hbefore, hbeforeCalls⟩ := updateSteps_run s v.before
  rw [hpass] at hbefore
  unfold visitSteps
  rw [storageRun_append, runCalls_append, hbeforeCalls, List.nil_append]
  generalize storageRun s (updateSteps v.before) = s1 at hn hbefore
  rw [runCalls]
  show (storageRun (copyStep s1 n true true) _).pass = _ ∧ runCalls (copyStep s1 n true true) _ = _
  have hcopy : (copyStep s1 n true true).pass =
      if node.storable then .check n node .real else .idle := by
    unfold copyStep
    rw [hbefore, hn]
    dsimp only
    unfold ExtData.storable
    rw [Bool.true_and, Bool.true_and]
    split
    · rfl
    · exact hbefore
  unfold visitCalls
  by_cases hstorable : node.storable = true
  · rw [if_pos hstorable] at hcopy ⊢
    exact looks_check _ v hcopy
  · rw [if_neg hstorable] at hcopy ⊢
    exact looks_idle _ v hcopy

end Calls

/-! ## What a pass never changes -/

/-- The settings of a variable that the storage reads. -/
def ExtData.setting (data : ExtData R) : (Bool × ExtDataIO R) × Bool :=
  (data.key, data.xStorage.bEnable)

theorem storable_congr {d d' : ExtData R} (h : d.setting = d'.setting) :
    d.storable = d'.storable :=
  congrArg (fun k : (Bool × ExtDataIO R) × Bool =>
    k.1.1 && decide (k.1.2.btVarType ≤ eVarArray) &&
      decide (1024 ≤ k.1.2.usAddr ∧ k.1.2.usAddr ≤ 2048) &&
        decide (1 ≤ k.1.2.param.modbus.btSlaveAddr ∧ k.1.2.param.modbus.btSlaveAddr ≤ 247) &&
          decide (k.1.2.usDevType.toNat ≤ protoDevGprs) && k.2) h

theorem setting_setAvg (data : ExtData R) (avg : VarAvg R) (kind : AvgKind) :
    (data.setAvg avg kind).setting = data.setting := by
  cases kind <;> rfl

section Pass

variable [VarReal R]

theorem setting_updateValue (data : ExtData R) (xValue : VarValue) :
    (updateValue (data.setValue xValue)).setting = data.setting := by
  unfold updateValue
  split <;> rfl

theorem storageStep_setting (s : Storing R) (step : StorageStep) :
    (storageStep s step).vars.map ExtData.setting = s.vars.map ExtData.setting := by
  cases step with
  | update i xValue =>
    show (updateStep s i xValue).vars.map _ = _
    unfold updateStep
    split
    · next node hi => exact Updates.map_set_self hi (setting_updateValue node xValue)
    · rfl
  | copy n bEnable alloc =>
    show (copyStep s n bEnable alloc).vars.map _ = _
    unfold copyStep
    split
    · split <;> rfl
    · rfl
  | check tick sent =>
    show (checkStep s tick sent).vars.map _ = _
    unfold checkStep
    split
    · split
      · split <;> rfl
      · rfl
    · rfl
  | clear tick =>
    show (clearStep s tick).vars.map _ = _
    unfold clearStep
    split
    · split
      · split
        · next node hi => exact Updates.map_set_self hi (setting_setAvg node _ _)
        · rfl
      · rfl
    · rfl

theorem storageRun_setting (s : Storing R) (steps : List StorageStep) :
    (storageRun s steps).vars.map ExtData.setting = s.vars.map ExtData.setting := by
  induction steps generalizing s with
  | nil => rfl
  | cons step steps ih => exact (ih _).trans (storageStep_setting s step)

/-- A variable has its settings at every moment. -/
theorem storageRun_storable (s : Storing R) (steps : List StorageStep) {i : Nat}
    {node node' : ExtData R} (hi : s.vars[i]? = some node)
    (hi' : (storageRun s steps).vars[i]? = some node') : node'.storable = node.storable := by
  have hmap := congrArg (fun l => l[i]?) (storageRun_setting s steps)
  rw [List.getElem?_map, List.getElem?_map, hi, hi'] at hmap
  exact storable_congr (Option.some.inj hmap)

theorem storageRun_getElem? (s : Storing R) (steps : List StorageStep) {i : Nat}
    (hi : i < s.vars.length) : ∃ node, (storageRun s steps).vars[i]? = some node := by
  have hlength := congrArg List.length (storageRun_setting s steps)
  rw [List.length_map, List.length_map] at hlength
  exact ⟨_, List.getElem?_eq_getElem (hlength ▸ hi)⟩

/-! ## The calls of a pass -/

/-- The state in which the pass copies the node at `n`. -/
def copyState (s : Storing R) (visits : Nat → StorageVisit) (n : Nat) : Storing R :=
  storageRun s (passSteps visits n ++ updateSteps (visits n).before)

/-- The calls for the average of the node at a place. -/
def callsAt (calls : List (AddData R)) (i : Nat) (kind : AvgKind) : List (AddData R) :=
  calls.filter fun c => decide (c.place = i) && decide (c.item.type = kind)

omit [VarReal R] in
theorem callsAt_append (xs ys : List (AddData R)) (i : Nat) (kind : AvgKind) :
    callsAt (xs ++ ys) i kind = callsAt xs i kind ++ callsAt ys i kind := List.filter_append ..

theorem callsAt_lookCall (n i : Nat) (data : ExtData R) (tick : UInt32) (k kind : AvgKind) :
    callsAt (lookCall n data tick k) i kind =
      if n = i ∧ k = kind then lookCall n data tick k else [] := by
  unfold lookCall callsAt
  split
  · rw [List.filter_singleton]
    show (bif decide (n = i) && decide (k = kind) then _ else _) = _
    simp only [Bool.cond_eq_ite, Bool.and_eq_true, decide_eq_true_eq]
  · simp

theorem callsAt_visitCalls (v : StorageVisit) (n i : Nat) (data : ExtData R) (kind : AvgKind) :
    callsAt (visitCalls v n data) i kind =
      if n = i ∧ data.storable = true then lookCall n data (v.tick kind) kind else [] := by
  unfold visitCalls
  by_cases hstorable : data.storable = true
  · rw [if_pos hstorable, callsAt_append, callsAt_append, callsAt_lookCall, callsAt_lookCall,
      callsAt_lookCall]
    cases kind <;> simp [hstorable]
  · rw [if_neg hstorable, if_neg fun h => hstorable h.2]
    rfl

theorem passSteps_succ (visits : Nat → StorageVisit) (n : Nat) :
    passSteps visits (n + 1) = passSteps visits n ++ visitSteps (visits n) n := by
  unfold passSteps
  rw [List.range_succ, List.flatMap_append, List.flatMap_singleton]

/-- A pass over the first `n` nodes: for each of them the calls of its visit, in the state in
    which it was copied. -/
theorem passSteps_run (s : Storing R) (visits : Nat → StorageVisit) (hpass : s.pass = .idle)
    (n : Nat) (hn : n ≤ s.vars.length) :
    (storageRun s (passSteps visits n)).pass = .idle ∧
      ∀ i kind node, (copyState s visits i).vars[i]? = some node →
        callsAt (runCalls s (passSteps visits n)) i kind =
          if i < n ∧ node.storable = true then lookCall i node ((visits i).tick kind) kind
          else [] := by
  induction n with
  | zero =>
    refine ⟨hpass, fun i kind node _ => ?_⟩
    rw [if_neg fun h => absurd h.1 (Nat.not_lt_zero i)]
    rfl
  | succ n ih =>
    obtain ⟨hidle, hcalls⟩ := ih (by omega)
    obtain ⟨last, hlast⟩ := storageRun_getElem? s
      (passSteps visits n ++ updateSteps (visits n).before) (by omega : n < s.vars.length)
    have hcopied := hlast
    rw [storageRun_append] at hlast
    obtain ⟨hend, hvisit⟩ := visitSteps_run _ (visits n) hidle hlast
    rw [passSteps_succ, storageRun_append]
    refine ⟨hend, fun i kind node hi => ?_⟩
    rw [runCalls_append, callsAt_append, hcalls i kind node hi, hvisit, callsAt_visitCalls]
    by_cases hni : n = i
    · subst hni
      obtain rfl : last = node := Option.some.inj (hcopied.symm.trans hi)
      simp
    · have hlt : i < n + 1 ↔ i < n := by omega
      have hother : (if n = i ∧ last.storable = true then
          lookCall n last ((visits n).tick kind) kind else []) = [] := if_neg fun h => hni h.1
      rw [hother, List.append_nil]
      simp only [hlt]

/-! ## What is to be stored -/

/-- The period of an average, in minutes. -/
def ExtData.minutes (data : ExtData R) : AvgKind → Nat
  | .real => data.xStorage.ulStep.toNat
  | .min => 1
  | .hour => 60

/-- The period is over; a tick is a millisecond. -/
def ExtData.Elapsed (data : ExtData R) (tick : UInt32) (kind : AvgKind) : Prop :=
  data.minutes kind * 60 * 1000 ≤ (tick - (data.avg kind).time).toNat

theorem rtTickFromMillisecond_le (ms : UInt32) : (rtTickFromMillisecond ms).toNat ≤ ms.toNat := by
  unfold rtTickFromMillisecond
  rw [UInt32.toNat_div, UInt32.toNat_add, UInt32.toNat_mul]
  have hle : (1000 * ms.toNat % 2 ^ 32 + 999) % 2 ^ 32 ≤ 1000 * ms.toNat + 999 :=
    (Nat.mod_le _ _).trans (Nat.add_le_add_right (Nat.mod_le _ _) _)
  show (1000 * ms.toNat % 2 ^ 32 + 999) % 2 ^ 32 / 1000 ≤ ms.toNat
  omega

omit [VarReal R] in
theorem period_le (data : ExtData R) (kind : AvgKind) :
    (data.period kind).toNat ≤ data.minutes kind * 60 * 1000 := by
  cases kind with
  | real =>
    refine (rtTickFromMillisecond_le _).trans ?_
    show (data.xStorage.ulStep * 60 * 1000).toNat ≤ data.xStorage.ulStep.toNat * 60 * 1000
    rw [UInt32.toNat_mul, UInt32.toNat_mul]
    exact (Nat.mod_le _ _).trans (Nat.mul_le_mul_right _ (Nat.mod_le _ _))
  | min => exact (rtTickFromMillisecond_le (60 * 1000)).trans (Nat.le_refl (1 * 60 * 1000))
  | hour => exact (rtTickFromMillisecond_le (60 * 60 * 1000)).trans (Nat.le_refl (60 * 60 * 1000))

omit [VarReal R] in
theorem due_of_elapsed {data : ExtData R} {tick : UInt32} {kind : AvgKind}
    (helapsed : data.Elapsed tick kind) (hcount : 0 < (data.avg kind).count) :
    data.due tick kind = true := by
  have hperiod : data.period kind ≤ tick - (data.avg kind).time :=
    UInt32.le_iff_toNat_le.mpr ((period_le data kind).trans helapsed)
  simp [ExtData.due, hperiod, hcount]

/-- In this pass each average that has a sample and whose period is over is given exactly once,
    with the name and the mean of its own variable. -/
def StoredOnce (s : Storing R) (visits : Nat → StorageVisit) : Prop :=
  ∀ i kind node, (copyState s visits i).vars[i]? = some node →
    node.Elapsed ((visits i).tick kind) kind → 0 < (node.avg kind).count →
      callsAt (runCalls s (passSteps visits s.vars.length)) i kind = [⟨i, storageItem node kind⟩]

/-- A variable that is to be stored: enabled, with the storage enabled, in the mapped area, a
    Modbus one with a slave address or a DLT645 one. -/
structure ToStore (data : ExtData R) : Prop where
  enabled : data.bEnable = true
  storage : data.xStorage.bEnable = true
  mapped : extDataRegCheck data.xIo.usAddr.toNat = true
  proto : (protoIsModbus data.xIo.usDevType.toNat data.xIo.usProtoType.toNat = true ∧
      1 ≤ data.xIo.param.modbus.btSlaveAddr ∧ data.xIo.param.modbus.btSlaveAddr ≤ 247) ∨
    protoIsDlt645 data.xIo.usDevType.toNat data.xIo.usProtoType.toNat = true

/-- What the filter leaves: a type code of the list, and a DLT645 identifier whose low byte is a
    slave address. -/
def PassesFilter (data : ExtData R) : Prop :=
  data.xIo.btVarType ≤ eVarArray ∧
    (protoIsDlt645 data.xIo.usDevType.toNat data.xIo.usProtoType.toNat = true →
      1 ≤ data.xIo.param.dlt645.op.toUInt8 ∧ data.xIo.param.dlt645.op.toUInt8 ≤ 247)

omit [VarReal R] in
theorem storable_iff {data : ExtData R} (h : ToStore data) :
    data.storable = true ↔ PassesFilter data := by
  have hdevice : data.xIo.usDevType.toNat ≤ protoDevGprs := by
    rcases h.proto with ⟨hmodbus, -⟩ | hdlt
    · exact protoIsModbus_devType hmodbus
    · have hrs : data.xIo.usDevType.toNat ≤ protoDevRsMax := by simp_all [protoIsDlt645]
      exact hrs.trans (by decide)
  have hmapped := h.mapped
  rw [extDataRegCheck, Bool.and_eq_true] at hmapped
  have hend : data.xIo.usAddr.toNat ≤ 2047 := of_decide_eq_true hmapped.2
  have haddr : 1024 ≤ data.xIo.usAddr ∧ data.xIo.usAddr ≤ 2048 :=
    ⟨UInt16.le_iff_toNat_le.mpr (of_decide_eq_true hmapped.1),
      UInt16.le_iff_toNat_le.mpr (hend.trans (by decide))⟩
  have hlow : data.xIo.param.modbus.btSlaveAddr = data.xIo.param.dlt645.op.toUInt8 := rfl
  simp only [ExtData.storable, prvCheckExeDataEnable, PassesFilter, h.enabled, h.storage, haddr,
    hdevice, Bool.and_eq_true, decide_eq_true_eq, and_true, true_and, and_self]
  refine and_congr_right fun _ => ⟨fun hslave _ => hlow ▸ hslave, fun hdlt => ?_⟩
  rcases h.proto with ⟨-, hslave⟩ | hproto
  · exact hslave
  · exact hlow ▸ hdlt hproto

/-- A variable that passes the filter is given whenever it is due. -/
theorem storedOnce_of_storable {s : Storing R} {visits : Nat → StorageVisit}
    (hpass : s.pass = .idle) (hstorable : ∀ node ∈ s.vars, node.storable = true) :
    StoredOnce s visits := by
  intro i kind node hi helapsed hcount
  have hlength := congrArg List.length (storageRun_setting s
    (passSteps visits i ++ updateSteps (visits i).before))
  rw [List.length_map, List.length_map] at hlength
  obtain ⟨hlt, -⟩ := List.getElem?_eq_some_iff.mp hi
  have hlt : i < s.vars.length := hlength ▸ hlt
  have hnode : node.storable = true :=
    (storageRun_storable s _ (List.getElem?_eq_getElem hlt) hi).trans
      (hstorable _ (List.getElem_mem hlt))
  rw [(passSteps_run s visits hpass _ (Nat.le_refl _)).2 i kind node hi, if_pos ⟨hlt, hnode⟩,
    lookCall, if_pos (due_of_elapsed helapsed hcount)]

/-- A variable that does not pass is never given. -/
theorem callsAt_of_not_storable {s : Storing R} (visits : Nat → StorageVisit)
    (hpass : s.pass = .idle) {i : Nat} {data : ExtData R} (hi : s.vars[i]? = some data)
    (hnot : ¬ data.storable = true)
    (kind : AvgKind) : callsAt (runCalls s (passSteps visits s.vars.length)) i kind = [] := by
  obtain ⟨hlt, -⟩ := List.getElem?_eq_some_iff.mp hi
  obtain ⟨node, hnode⟩ := storageRun_getElem? s
    (passSteps visits i ++ updateSteps (visits i).before) hlt
  have hsame : node.storable = data.storable := storageRun_storable s _ hi hnode
  rw [(passSteps_run s visits hpass _ (Nat.le_refl _)).2 i kind node hnode,
    if_neg fun h => hnot (hsame ▸ h.2)]

/-! ## A pass that finds one sample -/

/-- A pass in which nothing comes in between, a minute after time 0. -/
def quietVisit : StorageVisit where
  before := []
  amid _ := []
  tick _ := 60000
  sent _ := true
  late _ := []
  clearTick _ := 60000

/-- There is no sample in the copy. -/
structure Quiet (s : Storing R) : Prop where
  settled : s.pass.Settled
  empty : ∀ data, s.pass.data = some data → ∀ kind, (data.avg kind).count = 0

theorem Quiet.look {s : Storing R} (h : Quiet s) (kind : AvgKind) :
    Quiet (storageRun s (lookSteps quietVisit kind)) ∧
      (storageRun s (lookSteps quietVisit kind)).vars = s.vars := by
  have hcheck : Quiet (checkStep s 60000 true) ∧ (checkStep s 60000 true).vars = s.vars := by
    unfold checkStep
    split
    · next n data k hpass =>
      have hempty := h.empty data (by rw [hpass]; rfl)
      have hdue : ¬ data.due 60000 k = true := by simp [ExtData.due, hempty k]
      rw [if_neg hdue]
      exact ⟨⟨settled_behind n data k, fun data' hdata' => data_behind hdata' ▸ hempty⟩, rfl⟩
    · exact ⟨h, rfl⟩
  have hrun : storageRun s (lookSteps quietVisit kind) = clearStep (checkStep s 60000 true) 60000 :=
    rfl
  rw [hrun, clearStep_of_not_clear _ _ hcheck.1.settled]
  exact hcheck

theorem quiet_visit {s : Storing R} (hpass : s.pass = .idle) (n : Nat)
    (hempty : ∀ node, s.vars[n]? = some node → ∀ kind, (node.avg kind).count = 0) :
    (storageRun s (visitSteps quietVisit n)).vars = s.vars := by
  have hcopy : Quiet (copyStep s n true true) ∧ (copyStep s n true true).vars = s.vars := by
    have hidle : Quiet s := ⟨by rw [hpass]; trivial, fun data hdata => by
      rw [hpass] at hdata
      exact nomatch hdata⟩
    unfold copyStep
    split
    · next node _ hn =>
      split
      · refine ⟨⟨trivial, fun data hdata => ?_⟩, rfl⟩
        obtain rfl : node = data := Option.some.inj hdata
        exact hempty node hn
      · exact ⟨hidle, rfl⟩
    · exact ⟨hidle, rfl⟩
  obtain ⟨hreal, hrealVars⟩ := hcopy.1.look .real
  obtain ⟨hmin, hminVars⟩ := hreal.look .min
  obtain ⟨-, hhourVars⟩ := hmin.look .hour
  have hrun : storageRun s (visitSteps quietVisit n) = storageRun (storageRun (storageRun
      (copyStep s n true true) (lookSteps quietVisit .real)) (lookSteps quietVisit .min))
        (lookSteps quietVisit .hour) := rfl
  rw [hrun, hhourVars, hminVars, hrealVars, hcopy.2]

theorem quiet_pass {s : Storing R} (hpass : s.pass = .idle) (n : Nat) (hn : n ≤ s.vars.length)
    (hempty : ∀ j, j < n → ∀ node, s.vars[j]? = some node → ∀ kind, (node.avg kind).count = 0) :
    (storageRun s (passSteps (fun _ => quietVisit) n)).vars = s.vars := by
  induction n with
  | zero => rfl
  | succ n ih =>
    have hvars := ih (by omega) fun j hj => hempty j (by omega)
    have hidle := (passSteps_run s (fun _ => quietVisit) hpass n (by omega)).1
    rw [passSteps_succ, storageRun_append, quiet_visit hidle n, hvars]
    intro node hnode
    rw [hvars] at hnode
    exact hempty n (Nat.lt_succ_self n) node hnode

/-! ## Every variable that is due -/

/-- The record with these accumulators. -/
def ExtData.withAvgs (data : ExtData R) (avgs : AvgKind → VarAvg R) : ExtData R :=
  ((data.setAvg (avgs .real) .real).setAvg (avgs .min) .min).setAvg (avgs .hour) .hour

/-- The variables with accumulators for each place. -/
def withAvgs (vars : List (ExtData R)) (avgs : Nat → AvgKind → VarAvg R) : List (ExtData R) :=
  vars.mapIdx fun i data => data.withAvgs (avgs i)

omit [VarReal R] in
theorem avg_withAvgs (data : ExtData R) (avgs : AvgKind → VarAvg R) (kind : AvgKind) :
    (data.withAvgs avgs).avg kind = avgs kind := by
  unfold ExtData.withAvgs
  cases kind <;> simp [avg_setAvg]

omit [VarReal R] in
theorem storable_withAvgs (data : ExtData R) (avgs : AvgKind → VarAvg R) :
    (data.withAvgs avgs).storable = data.storable := by
  refine storable_congr ?_
  unfold ExtData.withAvgs
  rw [setting_setAvg, setting_setAvg, setting_setAvg]

omit [VarReal R] in
theorem getElem?_withAvgs (vars : List (ExtData R)) (avgs : Nat → AvgKind → VarAvg R) (i : Nat) :
    (withAvgs vars avgs)[i]? = vars[i]?.map fun data => data.withAvgs (avgs i) :=
  List.getElem?_mapIdx

/-- The variable at `i` has one sample, of time 0. -/
def oneSample (i j : Nat) (_ : AvgKind) : VarAvg R :=
  if j = i then (VarAvg.zero (VarReal.ofInt 0)).update (VarReal.ofInt 0)
  else VarAvg.zero (VarReal.ofInt 0)

/-- A variable with a sample is stored, so it passes the filter. -/
theorem storable_of_storedOnce {vars : List (ExtData R)} {i : Nat} {data : ExtData R}
    (hi : vars[i]? = some data)
    (hstored : StoredOnce (storingStart (withAvgs vars (oneSample i))) fun _ => quietVisit) :
    data.storable = true := by
  by_contra hnot
  have hplace : (withAvgs vars (oneSample i))[i]? = some (data.withAvgs (oneSample i i)) := by
    rw [getElem?_withAvgs, hi, Option.map_some]
  have hcopy : (copyState (storingStart (withAvgs vars (oneSample i))) (fun _ => quietVisit)
      i).vars[i]? = some (data.withAvgs (oneSample i i)) := by
    obtain ⟨hlt, -⟩ := List.getElem?_eq_some_iff.mp hplace
    have hvars : (storageRun (storingStart (withAvgs vars (oneSample i)))
        (passSteps (fun _ => quietVisit) i)).vars = withAvgs vars (oneSample i) := by
      refine quiet_pass rfl i (Nat.le_of_lt hlt) fun j hj node hnode kind => ?_
      have hnode : vars[j]?.map (fun data => data.withAvgs (oneSample i j)) = some node :=
        (getElem?_withAvgs ..).symm.trans hnode
      obtain ⟨other, -, rfl⟩ := Option.map_eq_some_iff.mp hnode
      rw [avg_withAvgs, oneSample, if_neg (Nat.ne_of_lt hj)]
      rfl
    unfold copyState
    rw [storageRun_append]
    exact (congrArg (fun l => l[i]?) hvars).trans hplace
  have hone := hstored i .min _ hcopy (by
    unfold ExtData.Elapsed
    rw [avg_withAvgs, oneSample, if_pos rfl]
    show 1 * 60 * 1000 ≤ (60000 - 0 : UInt32).toNat
    decide) (by
    rw [avg_withAvgs, oneSample, if_pos rfl]
    exact UInt32.lt_iff_toNat_lt.mpr Nat.one_pos)
  have hnone := callsAt_of_not_storable (s := storingStart (withAvgs vars (oneSample i)))
    (fun _ => quietVisit) rfl hplace (by rwa [storable_withAvgs]) .min
  rw [hnone] at hone
  exact nomatch hone

/-- Whatever their accumulators hold and whatever comes in between, each variable that is due is
    stored exactly once in a pass, if and only if all of them pass the filter. -/
theorem every_due_stored_iff (vars : List (ExtData R)) (hstore : ∀ data ∈ vars, ToStore data) :
    (∀ avgs visits, StoredOnce (storingStart (withAvgs vars avgs)) visits) ↔
      ∀ data ∈ vars, PassesFilter data := by
  constructor
  · intro h data hdata
    obtain ⟨i, hi⟩ := List.getElem?_of_mem hdata
    exact (storable_iff (hstore data hdata)).mp
      (storable_of_storedOnce hi (h (oneSample i) fun _ => quietVisit))
  · intro h avgs visits
    refine storedOnce_of_storable rfl fun node hnode => ?_
    obtain ⟨i, hlt, rfl⟩ := List.mem_mapIdx.mp hnode
    rw [storable_withAvgs, storable_iff (hstore _ (List.getElem_mem hlt))]
    exact h _ (List.getElem_mem hlt)

end Pass

/-! ## One meter -/

/-- A variable of the meter with the address 000000000000 on the first port, stored each
    minute. -/
def meterVar (op : UInt32) : ExtData Int :=
  { ExtData.zero (0 : Int) with
    bEnable := true
    xIo := { (ExtData.zero (0 : Int)).xIo with
      btVarType := eVarFloat
      btVarSize := 4
      usProtoType := 2
      usAddr := 1024
      param := ⟨0, 0, op, 0⟩ }
    xStorage := { (ExtData.zero (0 : Int)).xStorage with
      bEnable := true
      ulStep := 1 } }

theorem toStore_meterVar (op : UInt32) : ToStore (meterVar op) where
  enabled := rfl
  storage := rfl
  mapped := rfl
  proto := .inr rfl

/-- An identifier that ends in 02. -/
theorem every_due_stored_meter :
    StoredOnce (storingStart (withAvgs [meterVar 0x02800002] (oneSample 0)))
      fun _ => quietVisit := by
  refine (every_due_stored_iff [meterVar 0x02800002] fun data hdata => ?_).mpr
    (fun data hdata => ?_) (oneSample 0) fun _ => quietVisit
  · exact List.mem_singleton.mp hdata ▸ toStore_meterVar _
  · obtain rfl := List.mem_singleton.mp hdata
    exact ⟨by decide, fun _ => by decide⟩

/-- The total energy has the identifier 00010000, and is never stored. -/
theorem total_not_stored :
    ¬ ∀ vars : List (ExtData Int), (∀ data ∈ vars, ToStore data) →
      ∀ avgs visits, StoredOnce (storingStart (withAvgs vars avgs)) visits := by
  intro h
  have hstored := h [meterVar 0x00010000]
    (fun data hdata => List.mem_singleton.mp hdata ▸ toStore_meterVar _) (oneSample 0)
    fun _ => quietVisit
  have hstorable := storable_of_storedOnce (i := 0) rfl hstored
  exact absurd hstorable (by decide)

end K64Gateway.VarManage
