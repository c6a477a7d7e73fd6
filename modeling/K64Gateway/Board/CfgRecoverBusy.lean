import K64Gateway.Board.CfgLines
import K64Gateway.Lib.EventRun

/-
  The flag of `board/cfg/cfg_recover.c` that stops `vVarManage_ExtDataRefreshTask` while a
  configuration is imported.

  The flag is set before the file is opened, and the exit for a file that is not opened leaves it
  set.

  Proved: the task goes on after every import of a run exactly if each of them opens its file
  (`resumes_iff`).
-/

namespace K64Gateway.CfgRecoverBusy

open EventRun

variable {D : Type*}

/-! ## The import -/

/-- What `cfg_recover_with_json` meets: the file, unless `open` fails, and what the memory of the
    line buffer held, unless `rt_malloc` fails. -/
structure Import where
  file : Option (List UInt8)
  lineBuf : Option (List UInt8)

/-- What the import and the task do to the data of the device. -/
structure Actions (D : Type*) where
  /-- `_ext_var_cnt = 0` and `_ext_var_first = RT_TRUE` -/
  firstExtVar : D → D
  parseCfgVer : List UInt8 → Int
  parseCfgLine : List UInt8 → Int → D → D
  /-- `if(!_ext_var_first) bStorageDoCommit()` -/
  storageDoCommit : D → D
  /-- One pass of the inner loop of the task, for the next node or its end. -/
  refreshNode : D → D
  /-- What the task does after that loop. -/
  refreshStorage : D → D

/-- The flag, the import that the web task is in with its file opened, and the data. -/
structure State (D : Type*) where
  s_cfg_recover_ing : Bool
  opened : Option (List UInt8 × Option (List UInt8))
  data : D

/-- The state at the start of the device. -/
def State.init (data : D) : State D := ⟨false, none, data⟩

/-- `cfg_recover_busy` -/
def cfgRecoverBusy (s : State D) : Bool := s.s_cfg_recover_ing

/-- The import up to `if (fd < 0)`. -/
def openCfg (i : Import) (s : State D) : State D :=
  let s := { s with s_cfg_recover_ing := true }
  match i.file with
  | some file => { s with opened := some (file, i.lineBuf) }
  | none => s

/-- The lines of the file, where there is a buffer for them. -/
def readCfg (a : Actions D) (file : List UInt8) (lineBuf : Option (List UInt8)) (data : D) :
    Bool × D :=
  match lineBuf with
  | some buf =>
      match CfgLines.cfgRecoverWithJson file buf with
      | (some line, lines) =>
          let ver := a.parseCfgVer line
          let data := lines.foldl (fun data line => a.parseCfgLine line ver data)
            (a.firstExtVar data)
          (true, a.storageDoCommit data)
      | (none, _) => (false, a.storageDoCommit (a.firstExtVar data))
  | none => (false, data)

/-- The import from there to its end. -/
def closeCfg (a : Actions D) (s : State D) : Bool × State D :=
  match s.opened with
  | some (file, lineBuf) =>
      let (ret, data) := readCfg a file lineBuf s.data
      (ret, ⟨false, none, data⟩)
  | none => (false, s)

/-- `cfg_recover_with_json` -/
def cfgRecoverWithJson (a : Actions D) (i : Import) (s : State D) : Bool × State D :=
  closeCfg a (openCfg i s)

/-- `while (!cfg_recover_busy())` of `vVarManage_ExtDataRefreshTask`, one pass. -/
def refreshPass (a : Actions D) (s : State D) : State D :=
  if cfgRecoverBusy s then s else { s with data := a.refreshNode s.data }

/-- `if(!cfg_recover_busy())` of `vVarManage_ExtDataRefreshTask` -/
def storagePass (a : Actions D) (s : State D) : State D :=
  if cfgRecoverBusy s then s else { s with data := a.refreshStorage s.data }

/-! ## The two tasks -/

/-- What happens next: the web task begins an import or ends the one that it is in, or the other
    task takes a pass. -/
inductive Event where
  | attempt (i : Import)
  | finish
  | refresh
  | storage

/-- An import is begun only after the end of the one before. -/
inductive Step (a : Actions D) : State D → Event → State D → Prop
  | attempt {s : State D} (i : Import) (h : s.opened = none) : Step a s (.attempt i) (openCfg i s)
  | finish {s : State D} (h : s.opened.isSome) : Step a s .finish (closeCfg a s).2
  | refresh (s : State D) : Step a s .refresh (refreshPass a s)
  | storage (s : State D) : Step a s .storage (storagePass a s)

/-- Both passes of the task do their work. -/
def Works (a : Actions D) (s : State D) : Prop :=
  cfgRecoverBusy s = false ∧ refreshPass a s = { s with data := a.refreshNode s.data } ∧
    storagePass a s = { s with data := a.refreshStorage s.data }

/-- At every moment of the run with no import going on, they do. -/
def Resumes (a : Actions D) (data : D) (events : List Event) : Prop :=
  ∀ pre s, pre <+: events → Run (Step a) (.init data) pre s → s.opened = none → Works a s

/-! ## One import -/

theorem works_iff (a : Actions D) (s : State D) : Works a s ↔ s.s_cfg_recover_ing = false := by
  refine ⟨fun h => h.1, fun h => ⟨h, ?_, ?_⟩⟩
  · rw [refreshPass, cfgRecoverBusy, h, if_neg Bool.false_ne_true]
  · rw [storagePass, cfgRecoverBusy, h, if_neg Bool.false_ne_true]

/-- Whatever the file holds, and also without a buffer. -/
theorem closeCfg_busy (a : Actions D) {s : State D} (h : s.opened.isSome) :
    (closeCfg a s).2.s_cfg_recover_ing = false := by
  obtain ⟨opened, hopened⟩ := Option.isSome_iff_exists.mp h
  rw [closeCfg, hopened]

/-- The flag is clear again on return exactly if the file was opened. -/
theorem cfgRecoverWithJson_busy (a : Actions D) (i : Import) {s : State D}
    (h : s.opened = none) :
    cfgRecoverBusy (cfgRecoverWithJson a i s).2 = false ↔ i.file.isSome := by
  rw [cfgRecoverBusy, cfgRecoverWithJson]
  cases hfile : i.file with
  | some file =>
    refine iff_of_true (closeCfg_busy a ?_) rfl
    rw [openCfg, hfile]
    rfl
  | none =>
    have hopen : openCfg i s = { s with s_cfg_recover_ing := true } := by
      rw [openCfg, hfile]
    rw [hopen, closeCfg]
    dsimp only
    rw [h]
    exact iff_of_false Bool.true_eq_false_eq_False (by simp)

/-! ## Runs -/

/-- The flag is set only while an import is going on. -/
def Held (s : State D) : Prop := s.opened = none → s.s_cfg_recover_ing = false

theorem held_init (data : D) : Held (State.init data) := fun _ => rfl

/-- The imports of a run open their files. -/
def Opens : Event → Prop
  | .attempt i => i.file.isSome
  | _ => True

theorem refreshPass_held (a : Actions D) {s : State D} (h : Held s) : Held (refreshPass a s) := by
  unfold refreshPass
  split
  · exact h
  · exact h

theorem storagePass_held (a : Actions D) {s : State D} (h : Held s) : Held (storagePass a s) := by
  unfold storagePass
  split
  · exact h
  · exact h

theorem Step.held {a : Actions D} {s t : State D} {e : Event} (hopens : Opens e) (h : Held s)
    (hstep : Step a s e t) : Held t := by
  cases hstep with
  | attempt i hnone =>
    obtain ⟨file, hfile⟩ := Option.isSome_iff_exists.mp hopens
    intro hopened
    rw [openCfg, hfile] at hopened
    exact absurd hopened (Option.some_ne_none _)
  | finish hsome => exact fun _ => closeCfg_busy a hsome
  | refresh => exact refreshPass_held a h
  | storage => exact storagePass_held a h

/-- The task goes on after every import of a run, exactly if each of them opens its file. -/
theorem resumes_iff (a : Actions D) {data : D} {events : List Event} {s : State D}
    (h : Run (Step a) (.init data) events s) :
    Resumes a data events ↔ ∀ i, Event.attempt i ∈ events → i.file.isSome := by
  constructor
  · intro hresumes i hi
    obtain ⟨pre, t, u, hpre, hrun, hstep⟩ := h.split hi
    have hafter := hrun.next hstep
    cases hstep with
    | attempt _ hnone =>
      -- An import whose file is not opened is over at once.
      cases hfile : i.file with
      | some file => rfl
      | none =>
        have hopen : openCfg i t = { t with s_cfg_recover_ing := true } := by
          rw [openCfg, hfile]
        rw [hopen] at hafter
        have hworks := hresumes _ _ hpre hafter hnone
        exact absurd hworks.1 Bool.true_eq_false_eq_False
  · intro hopens pre t hpre hrun hnone
    have hallowed : ∀ e ∈ pre, Opens e := by
      intro e he
      cases e with
      | attempt i => exact hopens i (hpre.subset he)
      | finish => trivial
      | refresh => trivial
      | storage => trivial
    exact (works_iff a t).mpr
      (hrun.invariant (held_init data) (fun _ _ _ => Step.held) hallowed hnone)

/-- Passes are counted. -/
def countPasses : Actions Nat where
  firstExtVar := id
  parseCfgVer _ := CfgLines.cfgVer
  parseCfgLine _ _ := id
  storageDoCommit := id
  refreshNode n := n + 1
  refreshStorage n := n + 1

/-- An empty file is imported, and the task takes a pass. -/
theorem empty_file_resumes :
    Resumes countPasses 0 [.attempt ⟨some [], some []⟩, .finish, .refresh] := by
  have hopened : Run (Step countPasses) (.init 0) [.attempt ⟨some [], some []⟩] _ :=
    Run.start.next (.attempt _ rfl)
  have hclosed := hopened.next (.finish rfl)
  refine (resumes_iff countPasses (hclosed.next (.refresh _))).mpr fun i hi => ?_
  obtain rfl : i = ⟨some [], some []⟩ := by simpa using hi
  rfl

/-- A file that is not there leaves the flag set. -/
theorem missing_file_busy :
    ¬ ∀ i : Import, cfgRecoverBusy (cfgRecoverWithJson countPasses i (.init 0)).2 = false := by
  intro h
  exact absurd (h ⟨none, some []⟩) Bool.true_eq_false_eq_False

/-- From then on the passes of the task do nothing, up to the next import. -/
theorem stopped (a : Actions D) {s t : State D} {events : List Event}
    (hflag : s.s_cfg_recover_ing = true) (hnone : s.opened = none)
    (hno : ∀ e ∈ events, ∀ i, e ≠ .attempt i) (h : Run (Step a) s events t) : t = s := by
  refine h.invariant (P := (· = s)) rfl (fun u e v he hu hstep => ?_) hno
  subst hu
  cases hstep with
  | attempt i => exact absurd rfl (he i)
  | finish hsome => exact absurd hsome (by simp [hnone])
  | refresh => rw [refreshPass, cfgRecoverBusy, hflag, if_pos rfl]
  | storage => rw [storagePass, cfgRecoverBusy, hflag, if_pos rfl]

end K64Gateway.CfgRecoverBusy
