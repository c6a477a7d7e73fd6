import K64Gateway.Modbus.HoldingDo

/-
  The task of the digital outputs, `vDOWriteTask` of `applications/application.c`: it sets the
  outputs from their registers, compares each register with the one it remembers, and remembers all
  of them at the end of a pass. The registers change at any time in between.

  Proved: which changes that stay through a full later pass get their record and their expression
  (`notMissed_iff`).
-/

namespace K64Gateway.DoTask

open Modbus (DoFile)

/-! ## The task -/

/-- `RELAYS_OUTPUT_1` to `RELAYS_OUTPUT_4`, then `4 + TTL_OUTPUT_1` and `4 + TTL_OUTPUT_2`. -/
abbrev Channel := Fin 6

scoped instance neZeroSix : NeZero 6 := ⟨by decide⟩

def reg (file : DoFile) (chan : Channel) : UInt16 := file (chan.castLE (by decide))

/-- `g_storage_cfg.bEnable`, and the expressions of `g_do_cfgs` and `g_di_cfgs`. -/
structure Cfg where
  bEnable : Bool
  doExp : Channel → List UInt8
  diExp : Channel → List UInt8

/-- The expression that a change runs. The second loop of the source takes the one of the input
    with the same number. -/
def Cfg.expr (cfg : Cfg) (chan : Channel) : List UInt8 :=
  if chan.val < 4 then cfg.doExp chan else cfg.diExp chan

/-- What the task does next. -/
inductive Pc where
  | output (chan : Channel)
  | compare (chan : Channel)
  | storage (chan : Channel)
  | doexp (chan : Channel)
  | remember
  deriving DecidableEq

/-- The next channel, or the end of the pass. -/
def Pc.after (chan : Channel) : Pc :=
  if h : chan.val + 1 < 6 then .output ⟨chan.val + 1, h⟩ else .remember

/-- The registers, `xDOResultBak` and the outputs. -/
structure State where
  regs : DoFile
  bak : DoFile
  pins : Channel → Bool
  pc : Pc

/-- A difference that is found, a record of the old value, an expression that is run. -/
inductive Event where
  | seen (chan : Channel)
  | record (chan : Channel) (old : Bool)
  | doexp (chan : Channel) (exp : List UInt8)
  deriving DecidableEq

/-- One step of `vDOWriteTask`. -/
def task (cfg : Cfg) (s : State) : State :=
  match s.pc with
  | .output chan =>
    { s with
      pins := Function.update s.pins chan (reg s.regs chan != 0)
      pc := .compare chan }
  | .compare chan =>
    if reg s.bak chan ≠ reg s.regs chan then
      { s with pc := if cfg.bEnable then .storage chan else .doexp chan }
    else { s with pc := .after chan }
  | .storage chan => { s with pc := .doexp chan }
  | .doexp chan => { s with pc := .after chan }
  | .remember =>
    { s with
      bak := s.regs
      pc := .output 0 }

/-- The events of that step. -/
def emits (cfg : Cfg) (s : State) : List Event :=
  match s.pc with
  | .compare chan => if reg s.bak chan ≠ reg s.regs chan then [.seen chan] else []
  | .storage chan => [.record chan (reg s.bak chan != 0)]
  | .doexp chan => [.doexp chan (cfg.expr chan)]
  | _ => []

/-- A step of the task, or the registers become `file`. -/
inductive Step where
  | task
  | regs (file : DoFile)

def step (cfg : Cfg) (s : State) : Step → State
  | .task => task cfg s
  | .regs file => { s with regs := file }

def runFrom (cfg : Cfg) (s : State) (run : List Step) : State := run.foldl (step cfg) s

/-- The events of a run. -/
def trace (cfg : Cfg) : State → List Step → List Event
  | _, [] => []
  | s, .task :: run => emits cfg s ++ trace cfg (task cfg s) run
  | s, .regs file :: run => trace cfg { s with regs := file } run

/-- The passes that a run ends. -/
def passes (cfg : Cfg) : State → List Step → Nat
  | _, [] => 0
  | s, .task :: run => (if s.pc = .remember then 1 else 0) + passes cfg (task cfg s) run
  | s, .regs file :: run => passes cfg { s with regs := file } run

theorem passes_append (cfg : Cfg) (s : State) (run run' : List Step) :
    passes cfg s (run ++ run') = passes cfg s run + passes cfg (runFrom cfg s run) run' := by
  induction run generalizing s with
  | nil => exact (Nat.zero_add _).symm
  | cons e run ih =>
    cases e with
    | task =>
      show _ + passes cfg (task cfg s) (run ++ run') = _ + _ + _
      rw [ih, Nat.add_assoc]
      rfl
    | regs file => exact ih { s with regs := file }

/-! ## Changes that are noticed -/

/-- The channel's register stays as it is in `s`, and after some steps a whole pass is made. -/
structure KeptThroughScan (cfg : Cfg) (s : State) (chan : Channel) (run : List Step) : Prop where
  kept : ∀ file, Step.regs file ∈ run → reg file chan = reg s.regs chan
  scan : ∃ mid scan, run = mid ++ scan ∧ (runFrom cfg s mid).pc = .output 0 ∧
    0 < passes cfg (runFrom cfg s mid) scan

/-- A difference in the channel, with its record and its expression. -/
def changeEvents (cfg : Cfg) (chan : Channel) (old : Bool) : List Event :=
  .seen chan :: (if cfg.bEnable then [.record chan old] else []) ++ [.doexp chan (cfg.doExp chan)]

def Noticed (cfg : Cfg) (s : State) (chan : Channel) (run : List Step) : Prop :=
  ∃ old, changeEvents cfg chan old <:+: trace cfg s run

/-- The channel has still to be compared in this pass. -/
def Pc.Before (chan : Channel) : Pc → Prop
  | .output k | .compare k => k ≤ chan
  | .storage k | .doexp k => k < chan
  | .remember => False

/-- The change to `file` comes in time for the channel: it has still to be compared, the new value
    is not the remembered one, and the expression that is run is its own. -/
structure InTime (cfg : Cfg) (s : State) (file : DoFile) (chan : Channel) : Prop where
  before : s.pc.Before chan
  differs : reg s.bak chan ≠ reg file chan
  expr : cfg.expr chan = cfg.doExp chan

/-- Every change of a channel that stays through a full later pass is noticed. -/
def NotMissed (cfg : Cfg) (s : State) (run : List Step) : Prop :=
  ∀ before file during rest chan, run = before ++ Step.regs file :: (during ++ rest) →
    reg (runFrom cfg s before).regs chan ≠ reg file chan →
    KeptThroughScan cfg { runFrom cfg s before with regs := file } chan during →
    Noticed cfg { runFrom cfg s before with regs := file } chan during

/-- Every such change comes in time. -/
def ChangesInTime (cfg : Cfg) (s : State) (run : List Step) : Prop :=
  ∀ before file during rest chan, run = before ++ Step.regs file :: (during ++ rest) →
    reg (runFrom cfg s before).regs chan ≠ reg file chan →
    KeptThroughScan cfg { runFrom cfg s before with regs := file } chan during →
    InTime cfg (runFrom cfg s before) file chan

theorem KeptThroughScan.passes_pos {cfg : Cfg} {s : State} {chan : Channel} {run : List Step}
    (h : KeptThroughScan cfg s chan run) : 0 < passes cfg s run := by
  obtain ⟨mid, scan, hrun, -, hpos⟩ := h.scan
  rw [hrun, passes_append]
  omega

/-! ## A change in time -/

/-- When the expression is next, it is run before the pass ends. -/
theorem trace_doexp {cfg : Cfg} {chan : Channel} {run : List Step} {s : State}
    (hpc : s.pc = .doexp chan) (hpass : 0 < passes cfg s run) :
    ∃ rest, trace cfg s run = .doexp chan (cfg.expr chan) :: rest := by
  induction run generalizing s with
  | nil => exact absurd hpass (Nat.lt_irrefl 0)
  | cons e run ih =>
    cases e with
    | task =>
      refine ⟨trace cfg (task cfg s) run, ?_⟩
      simp only [trace, emits, hpc, List.singleton_append]
    | regs file => exact ih (s := { s with regs := file }) hpc hpass

theorem trace_storage {cfg : Cfg} {chan : Channel} {run : List Step} {s : State}
    (hpc : s.pc = .storage chan) (hpass : 0 < passes cfg s run) :
    ∃ old rest, trace cfg s run = .record chan old :: .doexp chan (cfg.expr chan) :: rest := by
  induction run generalizing s with
  | nil => exact absurd hpass (Nat.lt_irrefl 0)
  | cons e run ih =>
    cases e with
    | task =>
      have hnext : 0 < passes cfg (task cfg s) run := by
        simpa [passes, hpc] using hpass
      have hdoexp : (task cfg s).pc = .doexp chan := by simp [task, hpc]
      obtain ⟨rest, hrest⟩ := trace_doexp hdoexp hnext
      refine ⟨reg s.bak chan != 0, rest, ?_⟩
      simp only [trace, emits, hpc, hrest, List.singleton_append]
    | regs file => exact ih (s := { s with regs := file }) hpc hpass

theorem Pc.before_after (k chan : Channel) : (Pc.after k).Before chan ↔ k < chan := by
  unfold Pc.after
  split
  · exact Iff.rfl
  · next h =>
    have hle : chan ≤ k := by
      have := chan.isLt
      rw [Fin.le_def]
      omega
    exact ⟨False.elim, fun hlt => absurd hlt (not_lt_of_ge hle)⟩

/-- Until the channel is compared, nothing is remembered. -/
theorem task_before (cfg : Cfg) {chan : Channel} {s : State} (hpc : s.pc.Before chan)
    (hne : s.pc ≠ .compare chan) :
    (task cfg s).pc.Before chan ∧ (task cfg s).regs = s.regs ∧ (task cfg s).bak = s.bak ∧
      s.pc ≠ .remember := by
  revert hpc hne
  unfold task
  cases hk : s.pc with
  | output k => exact fun hpc _ => ⟨hpc, rfl, rfl, Pc.noConfusion⟩
  | compare k =>
    intro hpc hne
    have hlt : k < chan := lt_of_le_of_ne hpc fun heq => hne (heq ▸ rfl)
    dsimp only
    split
    · cases cfg.bEnable <;> exact ⟨hlt, rfl, rfl, Pc.noConfusion⟩
    · exact ⟨(Pc.before_after k chan).mpr hlt, rfl, rfl, Pc.noConfusion⟩
  | storage k => exact fun hpc _ => ⟨hpc, rfl, rfl, Pc.noConfusion⟩
  | doexp k => exact fun hpc _ => ⟨(Pc.before_after k chan).mpr hpc, rfl, rfl, Pc.noConfusion⟩
  | remember => exact fun hpc _ => hpc.elim

/-- What follows the comparison that finds the difference. -/
theorem trace_compare {cfg : Cfg} {chan : Channel} {run : List Step} {s : State}
    (hpc : s.pc = .compare chan) (hdiff : reg s.bak chan ≠ reg s.regs chan)
    (hpass : 0 < passes cfg (task cfg s) run) :
    ∃ old rest, trace cfg s (.task :: run) =
      .seen chan :: (if cfg.bEnable then [.record chan old] else []) ++
        .doexp chan (cfg.expr chan) :: rest := by
  have hemits : emits cfg s = [.seen chan] := by
    simp only [emits, hpc, if_pos hdiff]
  have htask : (task cfg s).pc = if cfg.bEnable then .storage chan else .doexp chan := by
    simp only [task, hpc, if_pos hdiff]
  show ∃ old rest, emits cfg s ++ trace cfg (task cfg s) run = _
  rw [hemits]
  by_cases hen : cfg.bEnable = true
  · rw [if_pos hen] at htask
    obtain ⟨old, rest, hrest⟩ := trace_storage htask hpass
    refine ⟨old, rest, ?_⟩
    rw [hrest, if_pos hen]
    rfl
  · rw [if_neg hen] at htask
    obtain ⟨rest, hrest⟩ := trace_doexp htask hpass
    refine ⟨false, rest, ?_⟩
    rw [hrest, if_neg hen]

/-- A difference that is waiting is found before the pass ends. -/
theorem trace_waiting {cfg : Cfg} {chan : Channel} {run : List Step} {s : State}
    (hpc : s.pc.Before chan) (hdiff : reg s.bak chan ≠ reg s.regs chan)
    (hkept : ∀ file, Step.regs file ∈ run → reg file chan = reg s.regs chan)
    (hpass : 0 < passes cfg s run) :
    ∃ old, .seen chan :: (if cfg.bEnable then [.record chan old] else []) ++
      [.doexp chan (cfg.expr chan)] <:+: trace cfg s run := by
  induction run generalizing s with
  | nil => exact absurd hpass (Nat.lt_irrefl 0)
  | cons e run ih =>
    have hrest : ∀ file, Step.regs file ∈ run → reg file chan = reg s.regs chan :=
      fun file hmem => hkept file (List.mem_cons_of_mem _ hmem)
    cases e with
    | task =>
      by_cases hcmp : s.pc = .compare chan
      · have hnext : 0 < passes cfg (task cfg s) run := by
          simpa [passes, hcmp] using hpass
        obtain ⟨old, rest, htrace⟩ := trace_compare hcmp hdiff hnext
        refine ⟨old, [], rest, ?_⟩
        rw [htrace, List.nil_append, List.append_assoc]
        rfl
      · obtain ⟨hbefore, hregs, hbak, hne⟩ := task_before cfg hpc hcmp
        have hnext : 0 < passes cfg (task cfg s) run := by
          simpa [passes, hne] using hpass
        rw [← hregs] at hdiff hrest
        rw [← hbak] at hdiff
        obtain ⟨old, hevents⟩ := ih hbefore hdiff hrest hnext
        exact ⟨old, hevents.trans (List.suffix_append (emits cfg s) _).isInfix⟩
    | regs file =>
      have hfile : reg file chan = reg s.regs chan := hkept file List.mem_cons_self
      rw [← hfile] at hdiff hrest
      exact ih (s := { s with regs := file }) hpc hdiff hrest hpass

/-! ## A change that is missed -/

/-- The channel has been compared in this pass already, or the remembered value is its own. -/
def Missed (chan : Channel) (s : State) : Prop :=
  ¬ s.pc.Before chan ∨ reg s.bak chan = reg s.regs chan

/-- Such a channel stays so, and no difference is found. -/
theorem Missed.task (cfg : Cfg) {chan : Channel} {s : State} (h : Missed chan s) :
    Missed chan (task cfg s) ∧ (DoTask.task cfg s).regs = s.regs ∧
      Event.seen chan ∉ emits cfg s := by
  revert h
  unfold Missed DoTask.task emits
  cases hk : s.pc with
  | output k => exact fun h => ⟨h, rfl, List.not_mem_nil⟩
  | compare k =>
    intro h
    dsimp only
    by_cases heq : k = chan
    · have hsame : reg s.bak k = reg s.regs k := heq ▸ h.resolve_left (not_not_intro heq.le)
      rw [if_neg (not_not_intro hsame), if_neg (not_not_intro hsame)]
      exact ⟨.inr (heq ▸ hsame), rfl, List.not_mem_nil⟩
    · have hbefore : ¬ k < chan ∨ reg s.bak chan = reg s.regs chan :=
        h.imp_left fun hle hlt => hle hlt.le
      split
      · refine ⟨?_, rfl, by simpa using Ne.symm heq⟩
        cases cfg.bEnable <;> exact hbefore
      · refine ⟨hbefore.imp_left fun hnot => ?_, rfl, List.not_mem_nil⟩
        rwa [Pc.before_after]
  | storage k => exact fun h => ⟨h, rfl, by simp⟩
  | doexp k =>
    intro h
    refine ⟨h.imp_left fun hnot => ?_, rfl, by simp⟩
    rwa [Pc.before_after]
  | remember => exact fun _ => ⟨.inr rfl, rfl, List.not_mem_nil⟩

theorem Missed.trace {cfg : Cfg} {chan : Channel} {run : List Step} {s : State}
    (h : Missed chan s)
    (hkept : ∀ file, Step.regs file ∈ run → reg file chan = reg s.regs chan) :
    Event.seen chan ∉ trace cfg s run := by
  induction run generalizing s with
  | nil => exact List.not_mem_nil
  | cons e run ih =>
    have hrest : ∀ file, Step.regs file ∈ run → reg file chan = reg s.regs chan :=
      fun file hmem => hkept file (List.mem_cons_of_mem _ hmem)
    cases e with
    | task =>
      obtain ⟨hnext, hregs, hemits⟩ := h.task cfg
      rw [← hregs] at hrest
      intro hmem
      rcases List.mem_append.mp hmem with hmem | hmem
      · exact hemits hmem
      · exact ih hnext hrest hmem
    | regs file =>
      have hfile : reg file chan = reg s.regs chan := hkept file List.mem_cons_self
      rw [← hfile] at hrest
      exact ih (s := { s with regs := file }) (h.imp_right fun hbak => hbak.trans hfile.symm) hrest

/-- Every expression that is run is the one of `Cfg.expr`. -/
theorem expr_of_mem_trace {cfg : Cfg} {chan : Channel} {exp : List UInt8} {run : List Step}
    {s : State} (h : Event.doexp chan exp ∈ trace cfg s run) : exp = cfg.expr chan := by
  induction run generalizing s with
  | nil => exact absurd h List.not_mem_nil
  | cons e run ih =>
    cases e with
    | task =>
      rcases List.mem_append.mp h with h | h
      · unfold emits at h
        split at h
        · split at h <;> simp at h
        · simp at h
        · obtain ⟨rfl, rfl⟩ := Event.doexp.inj (List.mem_singleton.mp h)
          rfl
        · simp at h
      · exact ih h
    | regs file => exact ih h

/-! ## Every run -/

/-- A change that stays through a full later pass is noticed exactly if it comes in time. -/
theorem noticed_iff {cfg : Cfg} {s : State} {file : DoFile} {chan : Channel} {run : List Step}
    (h : KeptThroughScan cfg { s with regs := file } chan run) :
    Noticed cfg { s with regs := file } chan run ↔ InTime cfg s file chan := by
  constructor
  · rintro ⟨old, hevents⟩
    have hseen : Event.seen chan ∈ trace cfg { s with regs := file } run :=
      hevents.subset List.mem_cons_self
    have hexp : Event.doexp chan (cfg.doExp chan) ∈ trace cfg { s with regs := file } run :=
      hevents.subset (by simp [changeEvents])
    have hnot : ¬ Missed chan { s with regs := file } := fun hmissed =>
      hmissed.trace h.kept hseen
    obtain ⟨hbefore, hdiff⟩ := not_or.mp hnot
    exact ⟨not_not.mp hbefore, hdiff, (expr_of_mem_trace hexp).symm⟩
  · intro ⟨hbefore, hdiff, hexpr⟩
    obtain ⟨old, hevents⟩ := trace_waiting (s := { s with regs := file }) hbefore hdiff h.kept
      h.passes_pos
    rw [hexpr] at hevents
    exact ⟨old, hevents⟩

theorem notMissed_iff (cfg : Cfg) (s : State) (run : List Step) :
    NotMissed cfg s run ↔ ChangesInTime cfg s run := by
  constructor
  · intro h before file during rest chan hrun hchange hkept
    exact (noticed_iff hkept).mp (h before file during rest chan hrun hchange hkept)
  · intro h before file during rest chan hrun hchange hkept
    exact (noticed_iff hkept).mpr (h before file during rest chan hrun hchange hkept)

/-- The start of the task with all outputs off. -/
def startOff : State := ⟨fun _ => 0, fun _ => 0, fun _ => false, .output 0⟩

/-- The first output is switched on just after its comparison, and two passes end after that. -/
theorem switchedOn_missed : ¬ ∀ cfg s run, NotMissed cfg s run := by
  intro h
  have hnoticed := h ⟨true, fun _ => [], fun _ => []⟩ startOff
    ([.task, .task] ++ .regs (fun i => if i.val = 0 then 1 else 0) :: List.replicate 24 .task)
    [.task, .task] (fun i => if i.val = 0 then 1 else 0) (List.replicate 24 .task) [] 0 rfl
    (by decide) ⟨fun file hmem => absurd (List.eq_of_mem_replicate hmem) Step.noConfusion,
      List.replicate 11 .task, List.replicate 13 .task, rfl, by decide, by decide⟩
  obtain ⟨old, hevents⟩ := hnoticed
  exact List.not_mem_nil (hevents.subset List.mem_cons_self)

end K64Gateway.DoTask
