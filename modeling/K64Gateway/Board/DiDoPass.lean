import K64Gateway.Board.DoTask
import K64Gateway.Lib.CString

/-
  The passes of `vDIReadTask` and `vDOWriteTask` (`applications/application.c`), without a change
  of the registers inside a pass. Four copies of one loop compare a channel's register with the
  value of the previous pass, store the change and run an expression.

  All four store the old value, and the loop of the TTL outputs takes the expressions of the
  inputs. Proved: in which runs every changed channel, and no other, stores its new value once
  under its own name and runs its own expression once (`run_reports_iff`); and that an output
  pass calls what the steps of the finer model do (`doPass_steps`).
-/

namespace K64Gateway.DiDo

open CString

abbrev CStr := List UInt8

/-- `g_xDIResultReg` and `g_xDOResultReg`: eight registers each. -/
abbrev File := Fin 8 → UInt16

scoped instance neZeroEight : NeZero 8 := ⟨by decide⟩

/-! ## The four loops -/

/-- `di_cfg_t` -/
structure DiCfg where
  enable : Bool
  exp : CStr

/-- `g_storage_cfg.bEnable`, `g_di_cfgs`, and the expressions of `g_do_cfgs`. -/
structure Cfg where
  bEnable : Bool
  g_di_cfgs : Fin 8 → DiCfg
  g_do_exps : Fin 6 → CStr

/-- `bStorageAddData(ST_T_DIDO_DATA, ident, value, RT_NULL)` and `lua_rtu_doexp(exp)` -/
inductive Call where
  | storageAddData (ident : CStr) (value : Bool)
  | doexp (exp : CStr)
deriving DecidableEq

/-- `#DI_%d` and `#DO_%d` -/
def diIdent (chan : Fin 8) : CStr := chars ['#', 'D', 'I', '_'] ++ [48 + UInt8.ofNat chan.val]
def doIdent (chan : Fin 6) : CStr := chars ['#', 'D', 'O', '_'] ++ [48 + UInt8.ofNat chan.val]

/-- The calls for a channel that had the value `old` and has `new`. -/
def changed (bEnable : Bool) (ident exp : CStr) (stored : Bool) (old new : UInt16) : List Call :=
  if old ≠ new then
    (if bEnable then [.storageAddData ident stored] else []) ++ [.doexp exp]
  else []

/-- The registers, and those that the task remembers. -/
structure Regs where
  regs : File
  bak : File

/-- The calls of the first and the second loop of `vDIReadTask` for a channel. -/
def diCalls (cfg : Cfg) (chan : Fin 8) (old new : UInt16) : List Call :=
  if (cfg.g_di_cfgs chan).enable then
    changed cfg.bEnable (diIdent chan) (cfg.g_di_cfgs chan).exp (old != 0) old new
  else []

/-- Those of the loop over the relays. -/
def relayCalls (cfg : Cfg) (chan : Fin 4) (old new : UInt16) : List Call :=
  changed cfg.bEnable (doIdent (chan.castAdd 2)) (cfg.g_do_exps (chan.castAdd 2)) (old != 0) old new

/-- Those of the loop over the TTL outputs: the expression is the one of the input with the
    number. -/
def ttlCalls (cfg : Cfg) (chan : Fin 2) (old new : UInt16) : List Call :=
  changed cfg.bEnable (doIdent (chan.natAdd 4))
    (cfg.g_di_cfgs ((chan.natAdd 4).castLE (by decide))).exp (old != 0) old new

/-- A loop: the task, and the calls with the channel that makes them. -/
structure Loop (ι : Type) where
  task : Regs
  calls : List (ι × Call)

/-- A turn of the loops of `vDIReadTask`: the register takes the input. -/
def diTurn (cfg : Cfg) (xStat : Fin 8 → Bool) (s : Loop (Fin 8)) (chan : Fin 8) :
    Loop (Fin 8) :=
  let regs := Function.update s.task.regs chan (if xStat chan then 1 else 0)
  { task := { s.task with regs := regs }
    calls := s.calls ++ (diCalls cfg chan (s.task.bak chan) (regs chan)).map (chan, ·) }

def ttlInputs : List (Fin 8) := (List.finRange 4).map (Fin.castAdd 4)
def onOffInputs : List (Fin 8) := (List.finRange 4).map (Fin.natAdd 4)

/-- A pass of `vDIReadTask`. -/
def diPass (cfg : Cfg) (xStat : Fin 8 → Bool) (task : Regs) : Loop (Fin 8) :=
  let s := ttlInputs.foldl (diTurn cfg xStat) ⟨task, []⟩
  let s := onOffInputs.foldl (diTurn cfg xStat) s
  { s with task := { s.task with bak := s.task.regs } }

/-- A pass of `vDOWriteTask`, but for the outputs it sets. -/
def doPass (cfg : Cfg) (task : Regs) : Loop (Fin 6) where
  task := { task with bak := task.regs }
  calls :=
    ((List.finRange 4).flatMap fun chan =>
      (relayCalls cfg chan (task.bak (chan.castAdd 4)) (task.regs (chan.castAdd 4))).map
        (chan.castAdd 2, ·)) ++
    (List.finRange 2).flatMap fun chan =>
      (ttlCalls cfg chan (task.bak ((chan.natAdd 4).castLE (by decide)))
        (task.regs ((chan.natAdd 4).castLE (by decide)))).map (chan.natAdd 4, ·)

/-! ## Runs -/

/-- A pass, with the inputs that it reads or the output registers that it finds. -/
inductive Pass where
  | inputs (xStat : Fin 8 → Bool)
  | outputs (regs : File)

/-- The registers of both tasks. -/
structure State where
  di : Regs
  do_ : Regs

def passStep (cfg : Cfg) (s : State) : Pass → State
  | .inputs xStat => { s with di := (diPass cfg xStat s.di).task }
  | .outputs regs => { s with do_ := (doPass cfg { s.do_ with regs := regs }).task }

/-- The calls that a channel has made. -/
def callsOf {ι : Type} [DecidableEq ι] (calls : List (ι × Call)) (chan : ι) : List Call :=
  (calls.filter fun c => decide (c.1 = chan)).map Prod.snd

/-- What a change of a channel asks for: its new value under its own name, and its own
    expression. -/
def diReport (cfg : Cfg) (chan : Fin 8) (old new : UInt16) : List Call :=
  if (cfg.g_di_cfgs chan).enable then
    changed cfg.bEnable (diIdent chan) (cfg.g_di_cfgs chan).exp (new != 0) old new
  else []

def doReport (cfg : Cfg) (chan : Fin 6) (old new : UInt16) : List Call :=
  changed cfg.bEnable (doIdent chan) (cfg.g_do_exps chan) (new != 0) old new

/-- The value of an input's register. -/
def pinValue (xStat : Fin 8 → Bool) (chan : Fin 8) : UInt16 := if xStat chan then 1 else 0

/-- In this pass every channel makes the calls that its change asks for, and no others. -/
def Reports (cfg : Cfg) (s : State) : Pass → Prop
  | .inputs xStat => ∀ chan, callsOf (diPass cfg xStat s.di).calls chan =
      diReport cfg chan (s.di.bak chan) (pinValue xStat chan)
  | .outputs regs => ∀ chan, callsOf (doPass cfg { s.do_ with regs := regs }).calls chan =
      doReport cfg chan (DoTask.reg s.do_.bak chan) (DoTask.reg regs chan)

/-- With the storage on, no enabled input changes between off and on, and an output that changes
    stays on or off; a TTL output that changes has the expression of the input. -/
def Meets (cfg : Cfg) (s : State) : Pass → Prop
  | .inputs xStat => ∀ chan, (cfg.g_di_cfgs chan).enable = true →
      s.di.bak chan ≠ pinValue xStat chan → cfg.bEnable = true →
        (s.di.bak chan ≠ 0 ↔ pinValue xStat chan ≠ 0)
  | .outputs regs => ∀ chan, DoTask.reg s.do_.bak chan ≠ DoTask.reg regs chan →
      (cfg.bEnable = true → (DoTask.reg s.do_.bak chan ≠ 0 ↔ DoTask.reg regs chan ≠ 0)) ∧
        (4 ≤ chan.val →
          (cfg.g_di_cfgs (chan.castLE (by decide))).exp = cfg.g_do_exps chan)

def ReportsAll (cfg : Cfg) : State → List Pass → Prop
  | _, [] => True
  | s, pass :: run => Reports cfg s pass ∧ ReportsAll cfg (passStep cfg s pass) run

def MeetsAll (cfg : Cfg) : State → List Pass → Prop
  | _, [] => True
  | s, pass :: run => Meets cfg s pass ∧ MeetsAll cfg (passStep cfg s pass) run

/-! ## The calls of a channel -/

theorem callsOf_append {ι : Type} [DecidableEq ι] (xs ys : List (ι × Call)) (chan : ι) :
    callsOf (xs ++ ys) chan = callsOf xs chan ++ callsOf ys chan := by
  rw [callsOf, List.filter_append, List.map_append]
  rfl

theorem callsOf_map {ι : Type} [DecidableEq ι] (i chan : ι) (calls : List Call) :
    callsOf (calls.map (i, ·)) chan = if i = chan then calls else [] := by
  unfold callsOf
  by_cases h : i = chan
  · rw [List.filter_map, List.map_map]
    simp [h, Function.comp_def]
  · simp [h]

/-- In a loop over different channels each makes its own calls. -/
theorem callsOf_flatMap {ι : Type} [DecidableEq ι] (l : List ι) (f : ι → List Call)
    (hl : l.Nodup) (chan : ι) :
    callsOf (l.flatMap fun i => (f i).map (i, ·)) chan = if chan ∈ l then f chan else [] := by
  induction l with
  | nil => rfl
  | cons i l ih =>
    obtain ⟨hi, hl⟩ := List.nodup_cons.mp hl
    rw [List.flatMap_cons, callsOf_append, callsOf_map, ih hl]
    by_cases h : i = chan
    · subst h
      simp [hi]
    · simp [h, Ne.symm h]

/-- When the calls for a change are the same ones. -/
theorem changed_eq_iff (bEnable : Bool) (ident exp exp' : CStr) (stored stored' : Bool)
    (old new : UInt16) :
    changed bEnable ident exp stored old new = changed bEnable ident exp' stored' old new ↔
      (old ≠ new → (bEnable = true → stored = stored') ∧ exp = exp') := by
  unfold changed
  by_cases h : old = new
  · simp [h]
  · cases bEnable <;> simp [h]

theorem bne_zero_eq_iff (a b : UInt16) : (a != 0) = (b != 0) ↔ (a ≠ 0 ↔ b ≠ 0) := by
  rw [Bool.eq_iff_iff, bne_iff_ne, bne_iff_ne]

/-! ## The passes -/

theorem diTurns_eq (cfg : Cfg) (xStat : Fin 8 → Bool) (l : List (Fin 8)) (s : Loop (Fin 8)) :
    (l.foldl (diTurn cfg xStat) s).task.bak = s.task.bak ∧
      (∀ chan, (l.foldl (diTurn cfg xStat) s).task.regs chan =
        if chan ∈ l then pinValue xStat chan else s.task.regs chan) ∧
      (l.foldl (diTurn cfg xStat) s).calls = s.calls ++ l.flatMap fun chan =>
        (diCalls cfg chan (s.task.bak chan) (pinValue xStat chan)).map (chan, ·) := by
  induction l generalizing s with
  | nil => simp
  | cons i l ih =>
    obtain ⟨hbak, hregs, hcalls⟩ := ih (diTurn cfg xStat s i)
    rw [List.foldl_cons]
    refine ⟨hbak, fun chan => ?_, ?_⟩
    · rw [hregs chan]
      by_cases hl : chan ∈ l
      · simp [hl]
      · by_cases hi : chan = i
        · simp [hi, diTurn, pinValue]
        · simp [hi, hl, diTurn]
    · rw [hcalls, List.flatMap_cons, ← List.append_assoc]
      simp [diTurn, pinValue]

theorem inputs_eq : ttlInputs ++ onOffInputs = List.finRange 8 := rfl

theorem diPass_calls (cfg : Cfg) (xStat : Fin 8 → Bool) (task : Regs) (chan : Fin 8) :
    callsOf (diPass cfg xStat task).calls chan =
      diCalls cfg chan (task.bak chan) (pinValue xStat chan) := by
  have hpass : (diPass cfg xStat task).calls =
      ((List.finRange 8).foldl (diTurn cfg xStat) ⟨task, []⟩).calls := by
    rw [← inputs_eq, List.foldl_append]
    rfl
  rw [hpass, (diTurns_eq cfg xStat _ _).2.2, List.nil_append,
    callsOf_flatMap _ _ (List.nodup_finRange 8), if_pos (List.mem_finRange chan)]

/-- The calls of an output: those of a relay, or of a TTL output. -/
def doCalls (cfg : Cfg) (chan : Fin 6) (old new : UInt16) : List Call :=
  changed cfg.bEnable (doIdent chan)
    (if chan.val < 4 then cfg.g_do_exps chan
    else (cfg.g_di_cfgs (chan.castLE (by decide))).exp) (old != 0) old new

theorem relayCalls_eq (cfg : Cfg) (chan : Fin 4) :
    relayCalls cfg chan = doCalls cfg (chan.castAdd 2) := by
  funext old new
  rw [relayCalls, doCalls, if_pos (show (chan.castAdd 2).val < 4 from chan.isLt)]

theorem ttlCalls_eq (cfg : Cfg) (chan : Fin 2) : ttlCalls cfg chan = doCalls cfg (chan.natAdd 4) := by
  funext old new
  have hnot : ¬ (chan.natAdd 4).val < 4 := Nat.not_lt.mpr (Nat.le_add_right 4 chan.val)
  rw [ttlCalls, doCalls, if_neg hnot]

theorem outputs_eq : List.finRange 6 =
    (List.finRange 4).map (Fin.castAdd 2) ++ (List.finRange 2).map (Fin.natAdd 4) := rfl

/-- The two loops of `vDOWriteTask` as one. -/
theorem doPass_eq (cfg : Cfg) (task : Regs) :
    (doPass cfg task).calls = (List.finRange 6).flatMap fun chan =>
      (doCalls cfg chan (DoTask.reg task.bak chan) (DoTask.reg task.regs chan)).map (chan, ·) := by
  rw [outputs_eq, List.flatMap_append, List.flatMap_map, List.flatMap_map]
  simp only [← relayCalls_eq, ← ttlCalls_eq]
  rfl

theorem doPass_calls (cfg : Cfg) (task : Regs) (chan : Fin 6) :
    callsOf (doPass cfg task).calls chan =
      doCalls cfg chan (DoTask.reg task.bak chan) (DoTask.reg task.regs chan) := by
  rw [doPass_eq, callsOf_flatMap _ _ (List.nodup_finRange 6), if_pos (List.mem_finRange chan)]

/-! ## The runs that report every change -/

theorem diCalls_eq_iff (cfg : Cfg) (chan : Fin 8) (old new : UInt16) :
    diCalls cfg chan old new = diReport cfg chan old new ↔
      ((cfg.g_di_cfgs chan).enable = true → old ≠ new → cfg.bEnable = true →
        (old ≠ 0 ↔ new ≠ 0)) := by
  unfold diCalls diReport
  by_cases h : (cfg.g_di_cfgs chan).enable = true
  · rw [if_pos h, if_pos h, changed_eq_iff, bne_zero_eq_iff]
    simp [h]
  · simp [h]

theorem doCalls_eq_iff (cfg : Cfg) (chan : Fin 6) (old new : UInt16) :
    doCalls cfg chan old new = doReport cfg chan old new ↔
      (old ≠ new → (cfg.bEnable = true → (old ≠ 0 ↔ new ≠ 0)) ∧
        (4 ≤ chan.val →
          (cfg.g_di_cfgs (chan.castLE (by decide))).exp = cfg.g_do_exps chan)) := by
  unfold doCalls doReport
  rw [changed_eq_iff, bne_zero_eq_iff]
  by_cases h : chan.val < 4
  · simp [h, Nat.not_le.mpr h]
  · simp [h, Nat.not_lt.mp h]

theorem reports_iff (cfg : Cfg) (s : State) (pass : Pass) :
    Reports cfg s pass ↔ Meets cfg s pass := by
  cases pass with
  | inputs xStat =>
    refine forall_congr' fun chan => ?_
    rw [diPass_calls]
    exact diCalls_eq_iff cfg chan _ _
  | outputs regs =>
    refine forall_congr' fun chan => ?_
    rw [doPass_calls]
    exact doCalls_eq_iff cfg chan _ _

/-- A run reports every change if and only if every pass meets the condition. -/
theorem run_reports_iff (cfg : Cfg) (s : State) (run : List Pass) :
    ReportsAll cfg s run ↔ MeetsAll cfg s run := by
  induction run generalizing s with
  | nil => exact Iff.rfl
  | cons pass run ih => exact and_congr (reports_iff cfg s pass) (ih _)

/-- All inputs and outputs are off, storage on, without expressions. -/
def plainCfg : Cfg where
  bEnable := true
  g_di_cfgs _ := ⟨true, []⟩
  g_do_exps _ := []

def allOff : State := ⟨⟨fun _ => 0, fun _ => 0⟩, ⟨fun _ => 0, fun _ => 0⟩⟩

/-- The first input goes on, and the record says off. -/
theorem inputOn_not_reported : ¬ ∀ cfg s run, ReportsAll cfg s run := by
  intro h
  have hfirst := (h plainCfg allOff [.inputs fun chan => decide (chan.val = 0)]).1 ⟨0, by decide⟩
  rw [diPass_calls] at hfirst
  exact absurd hfirst (by decide)

/-! ## The steps of an output pass -/

/-- The settings of the finer model. -/
def Cfg.steps (cfg : Cfg) : DoTask.Cfg where
  bEnable := cfg.bEnable
  doExp := cfg.g_do_exps
  diExp chan := (cfg.g_di_cfgs (chan.castLE (by decide))).exp

/-- The call of an event. -/
def call : DoTask.Event → Option (Fin 6 × Call)
  | .seen _ => none
  | .record chan old => some (chan, .storageAddData (doIdent chan) old)
  | .doexp chan exp => some (chan, .doexp exp)

/-- The steps for a channel make the calls of its turn. -/
theorem channel_steps (cfg : Cfg) (s : DoTask.State) {chan : Fin 6} (hpc : s.pc = .output chan) :
    ∃ n, (DoTask.runFrom cfg.steps s (List.replicate n .task)).pc = .after chan ∧
      (DoTask.runFrom cfg.steps s (List.replicate n .task)).regs = s.regs ∧
      (DoTask.runFrom cfg.steps s (List.replicate n .task)).bak = s.bak ∧
      (DoTask.trace cfg.steps s (List.replicate n .task)).filterMap call =
        (doCalls cfg chan (DoTask.reg s.bak chan) (DoTask.reg s.regs chan)).map (chan, ·) := by
  by_cases h : DoTask.reg s.bak chan = DoTask.reg s.regs chan
  · refine ⟨2, ?_⟩
    simp [DoTask.runFrom, List.replicate, DoTask.step, DoTask.task, DoTask.trace, DoTask.emits,
      hpc, h, doCalls, changed]
  · cases hen : cfg.bEnable with
    | false =>
      refine ⟨3, ?_⟩
      simp [DoTask.runFrom, List.replicate, DoTask.step, DoTask.task, DoTask.trace, DoTask.emits,
        hpc, h, doCalls, changed, Cfg.steps, DoTask.Cfg.expr, hen, call, List.filterMap_cons]
    | true =>
      refine ⟨4, ?_⟩
      simp [DoTask.runFrom, List.replicate, DoTask.step, DoTask.task, DoTask.trace, DoTask.emits,
        hpc, h, doCalls, changed, Cfg.steps, DoTask.Cfg.expr, hen, call, List.filterMap_cons]

theorem trace_append (cfg : DoTask.Cfg) (s : DoTask.State) (m n : Nat) :
    DoTask.trace cfg s (List.replicate (m + n) .task) =
      DoTask.trace cfg s (List.replicate m .task) ++ DoTask.trace cfg
        (DoTask.runFrom cfg s (List.replicate m .task)) (List.replicate n .task) := by
  induction m generalizing s with
  | zero =>
    rw [Nat.zero_add]
    rfl
  | succ m ih =>
    rw [Nat.succ_add, List.replicate_succ, List.replicate_succ, DoTask.trace, DoTask.trace, ih,
      List.append_assoc]
    rfl

theorem runFrom_add (cfg : DoTask.Cfg) (s : DoTask.State) (m n : Nat) :
    DoTask.runFrom cfg s (List.replicate (m + n) .task) = DoTask.runFrom cfg
      (DoTask.runFrom cfg s (List.replicate m .task)) (List.replicate n .task) := by
  rw [List.replicate_add]
  exact List.foldl_append

/-- From a channel to the end of the loop. -/
theorem channels_steps (cfg : Cfg) (m : Nat) (s : DoTask.State) {chan : Fin 6}
    (hpc : s.pc = .output chan) (hm : chan.val + m = 5) :
    ∃ n, (DoTask.runFrom cfg.steps s (List.replicate n .task)).pc = .remember ∧
      (DoTask.runFrom cfg.steps s (List.replicate n .task)).regs = s.regs ∧
      (DoTask.trace cfg.steps s (List.replicate n .task)).filterMap call =
        ((List.finRange 6).drop chan.val).flatMap fun chan =>
          (doCalls cfg chan (DoTask.reg s.bak chan) (DoTask.reg s.regs chan)).map (chan, ·) := by
  have hdrop (chan : Fin 6) :
      (List.finRange 6).drop chan.val = chan :: (List.finRange 6).drop (chan.val + 1) := by
    rw [List.drop_eq_getElem_cons (by simp), List.getElem_finRange]
    rfl
  induction m generalizing s chan with
  | zero =>
    obtain ⟨n, hafter, hregs, -, hcalls⟩ := channel_steps cfg s hpc
    refine ⟨n, ?_, hregs, ?_⟩
    · rw [hafter, DoTask.Pc.after, dif_neg (by omega)]
    · rw [hcalls, hdrop, List.drop_eq_nil_of_le (by simp; omega), List.flatMap_cons,
        List.flatMap_nil, List.append_nil]
  | succ m ih =>
    obtain ⟨n, hafter, hregs, hbak, hcalls⟩ := channel_steps cfg s hpc
    have hlt : chan.val + 1 < 6 := by omega
    rw [DoTask.Pc.after, dif_pos hlt] at hafter
    obtain ⟨n', hpc', hregs', hcalls'⟩ := ih _ hafter (by simp only; omega)
    rw [hregs, hbak] at hcalls'
    refine ⟨n + n', ?_, ?_, ?_⟩
    · rw [runFrom_add, hpc']
    · rw [runFrom_add, hregs', hregs]
    · rw [trace_append, List.filterMap_append, hcalls, hcalls', hdrop chan, List.flatMap_cons]

/-- A pass of the outputs calls what the steps of the finer model do, from its first output to the
    end of the pass. -/
theorem doPass_steps (cfg : Cfg) (s : DoTask.State) (hpc : s.pc = .output 0) :
    ∃ n, (DoTask.runFrom cfg.steps s (List.replicate n .task)).pc = .output 0 ∧
      (DoTask.runFrom cfg.steps s (List.replicate n .task)).bak =
        (doPass cfg ⟨s.regs, s.bak⟩).task.bak ∧
      (DoTask.trace cfg.steps s (List.replicate n .task)).filterMap call =
        (doPass cfg ⟨s.regs, s.bak⟩).calls := by
  obtain ⟨n, hremember, hregs, hcalls⟩ := channels_steps cfg 5 s hpc rfl
  have hend : DoTask.runFrom cfg.steps s (List.replicate (n + 1) .task) =
      DoTask.task cfg.steps (DoTask.runFrom cfg.steps s (List.replicate n .task)) := by
    rw [runFrom_add]
    rfl
  refine ⟨n + 1, ?_, ?_, ?_⟩
  · rw [hend]
    simp only [DoTask.task, hremember]
  · rw [hend]
    simp only [DoTask.task, hremember, hregs, doPass]
  · rw [trace_append, List.filterMap_append, hcalls, doPass_eq]
    simp [DoTask.trace, DoTask.emits, hremember]

end K64Gateway.DiDo
