import K64Gateway.Lib.LittleEndian

/-
  The destination of the Zigbee module: `ucZigbeeSetDstAddr` of `drivers/zigbee/zigbee.c` sends a
  command to the module unless the address is the one it remembers.

  The module takes a command or not, its answer arrives or not, and it can be reset or given
  another destination at any time. Proved: in which runs every call that succeeds leaves the module
  with the address of the call (`dst_agrees_iff`), and that calls alone keep cache and module
  together as long as no answer is lost (`dst_agrees_of_quiet`).
-/

namespace K64Gateway.Zigbee

open LittleEndian

/-! ## The command -/

/-- `ZIGBEE_OK` -/
def zigbeeOk : UInt8 := 0

/-- `ZIGBEE_FAILED` -/
def zigbeeFailed : UInt8 := 0xFF

/-- `ZIGBEE_TEMP_PRECODE` -/
def zigbeeTempPrecode : List UInt8 := [0xDE, 0xDF, 0xEF]

/-- `ZIGBEE_TEMP_CMD_SET_DST_ADDR` -/
def zigbeeTempCmdSetDstAddr : UInt8 := 0xD2

/-- The buffer that is sent. -/
def setDstAddrCmd (Addr : UInt16) : List UInt8 :=
  zigbeeTempPrecode ++ [zigbeeTempCmdSetDstAddr, (Addr >>> 8).toUInt8, Addr.toUInt8]

/-- The destination in a command, its high byte first. -/
def cmdDstAddr (buffer : List UInt8) : UInt16 := word16 [buffer.getD 5 0, buffer.getD 4 0]

theorem cmdDstAddr_setDstAddrCmd (Addr : UInt16) : cmdDstAddr (setDstAddrCmd Addr) = Addr :=
  word16_bytes16 Addr []

/-- `__is_tempcmd_head` and the test of the command's code. -/
def isTempcmdHead (cmdcode : UInt8) (data : List UInt8) : Bool :=
  decide (4 ≤ data.length) && data.take 3 == zigbeeTempPrecode && data.getD 3 0 == cmdcode

/-- `prvRecvTempHead` and `zigbeeRecvData` of one byte, on the queue elements that arrive in
    time. -/
def recvTempByte (cmdcode : UInt8) (received : List (List UInt8)) : Option UInt8 :=
  (received.find? (isTempcmdHead cmdcode)).bind (·[4]?)

/-- What the module does about a command: it takes it or not, and some queue elements arrive. It
    answers `ZIGBEE_OK` to a command that it took. -/
structure Exchange where
  applied : Bool
  received : List (List UInt8)
  ok_applied : recvTempByte zigbeeTempCmdSetDstAddr received = some zigbeeOk → applied = true

/-- `s_usAddr`, and the destination of the module. -/
structure Dst where
  usAddr : UInt16
  dst : UInt16

/-- The module after a command. -/
def Exchange.command (x : Exchange) (buffer : List UInt8) (dst : UInt16) : UInt16 :=
  if x.applied then cmdDstAddr buffer else dst

def ucZigbeeSetDstAddr (Addr : UInt16) (x : Exchange) (s : Dst) : UInt8 × Dst :=
  if s.usAddr ≠ Addr then
    let ret := (recvTempByte zigbeeTempCmdSetDstAddr x.received).getD zigbeeFailed
    (ret,
      { usAddr := if zigbeeOk = ret then Addr else s.usAddr
        dst := x.command (setDstAddrCmd Addr) s.dst })
  else (zigbeeOk, { s with usAddr := Addr })

/-! ## Runs -/

/-- A call, or the module gets a destination by a reset or by another command. -/
inductive Event where
  | setDstAddr (Addr : UInt16) (x : Exchange)
  | module (dst : UInt16)

def step (s : Dst) : Event → Dst
  | .setDstAddr Addr x => (ucZigbeeSetDstAddr Addr x s).2
  | .module dst => { s with dst := dst }

def runFrom (s : Dst) (run : List Event) : Dst := run.foldl step s

/-- The start: `s_usAddr` is `0xFFFF`, the module has any destination. -/
def Dst.start (dst : UInt16) : Dst := ⟨0xFFFF, dst⟩

/-- Every call that returns `ZIGBEE_OK` leaves the module with the call's address. -/
def Agrees (dst : UInt16) (run : List Event) : Prop :=
  ∀ before Addr x after, run = before ++ Event.setDstAddr Addr x :: after →
    (ucZigbeeSetDstAddr Addr x (runFrom (.start dst) before)).1 = zigbeeOk →
    (ucZigbeeSetDstAddr Addr x (runFrom (.start dst) before)).2.dst = Addr

/-- No call is for the remembered address while the module has another one. -/
def NoStaleCall (dst : UInt16) (run : List Event) : Prop :=
  ∀ before Addr x after, run = before ++ Event.setDstAddr Addr x :: after →
    (runFrom (.start dst) before).usAddr = Addr → (runFrom (.start dst) before).dst = Addr

/-! ## One call -/

/-- A command that was answered with `ZIGBEE_OK` has been taken. -/
theorem Exchange.command_of_ok {x : Exchange}
    (h : (recvTempByte zigbeeTempCmdSetDstAddr x.received).getD zigbeeFailed = zigbeeOk)
    (Addr dst : UInt16) : x.command (setDstAddrCmd Addr) dst = Addr := by
  have hreply : recvTempByte zigbeeTempCmdSetDstAddr x.received = some zigbeeOk := by
    cases hr : recvTempByte zigbeeTempCmdSetDstAddr x.received with
    | none =>
      rw [hr] at h
      exact absurd h (by decide)
    | some data =>
      rw [hr] at h
      exact congrArg some h
  unfold Exchange.command
  rw [if_pos (x.ok_applied hreply), cmdDstAddr_setDstAddrCmd]

theorem ucZigbeeSetDstAddr_hit {s : Dst} {Addr : UInt16} (h : s.usAddr = Addr) (x : Exchange) :
    ucZigbeeSetDstAddr Addr x s = (zigbeeOk, s) := by
  unfold ucZigbeeSetDstAddr
  rw [if_neg (not_not_intro h), ← h]

theorem ucZigbeeSetDstAddr_miss {s : Dst} {Addr : UInt16} (h : s.usAddr ≠ Addr) {x : Exchange}
    (hret : (ucZigbeeSetDstAddr Addr x s).1 = zigbeeOk) :
    (ucZigbeeSetDstAddr Addr x s).2 = ⟨Addr, Addr⟩ := by
  unfold ucZigbeeSetDstAddr at hret ⊢
  rw [if_pos h] at hret ⊢
  dsimp only at hret ⊢
  rw [if_pos hret.symm, Exchange.command_of_ok hret]

/-- A call that succeeds leaves the right destination unless it trusts a stale memory. -/
theorem ucZigbeeSetDstAddr_dst_iff (s : Dst) (Addr : UInt16) (x : Exchange) :
    ((ucZigbeeSetDstAddr Addr x s).1 = zigbeeOk → (ucZigbeeSetDstAddr Addr x s).2.dst = Addr) ↔
      (s.usAddr = Addr → s.dst = Addr) := by
  by_cases h : s.usAddr = Addr
  · rw [ucZigbeeSetDstAddr_hit h]
    exact ⟨fun hdst _ => hdst rfl, fun hdst _ => hdst h⟩
  · refine ⟨fun _ hit => absurd hit h, fun _ hret => ?_⟩
    rw [ucZigbeeSetDstAddr_miss h hret]

/-! ## Every run -/

theorem dst_agrees_iff (dst : UInt16) (run : List Event) :
    Agrees dst run ↔ NoStaleCall dst run := by
  constructor
  · intro h before Addr x after hrun
    exact (ucZigbeeSetDstAddr_dst_iff _ Addr x).mp (h before Addr x after hrun)
  · intro h before Addr x after hrun
    exact (ucZigbeeSetDstAddr_dst_iff _ Addr x).mpr (h before Addr x after hrun)

/-- A call whose command, if taken, is answered with `ZIGBEE_OK` in time. -/
def Event.Quiet : Event → Prop
  | .setDstAddr _ x =>
    x.applied = true → recvTempByte zigbeeTempCmdSetDstAddr x.received = some zigbeeOk
  | .module _ => False

/-- Such a call keeps the memory and the module together. -/
theorem step_quiet {s : Dst} (h : s.usAddr = s.dst) {e : Event} (he : e.Quiet) :
    (step s e).usAddr = (step s e).dst := by
  cases e with
  | module dst => exact he.elim
  | setDstAddr Addr x =>
    show (ucZigbeeSetDstAddr Addr x s).2.usAddr = (ucZigbeeSetDstAddr Addr x s).2.dst
    by_cases hit : s.usAddr = Addr
    · rw [ucZigbeeSetDstAddr_hit hit]
      exact h
    · by_cases hret : (ucZigbeeSetDstAddr Addr x s).1 = zigbeeOk
      · rw [ucZigbeeSetDstAddr_miss hit hret]
      · unfold ucZigbeeSetDstAddr at hret ⊢
        rw [if_pos hit] at hret ⊢
        dsimp only at hret ⊢
        have hidle : ¬ x.applied = true := fun happ => hret (by rw [he happ]; rfl)
        rw [if_neg fun hok => hret hok.symm, Exchange.command, if_neg hidle]
        exact h

theorem runFrom_quiet {s : Dst} (h : s.usAddr = s.dst) {run : List Event}
    (hrun : ∀ e ∈ run, e.Quiet) : (runFrom s run).usAddr = (runFrom s run).dst := by
  induction run generalizing s with
  | nil => exact h
  | cons e run ih =>
    exact ih (step_quiet h (hrun e List.mem_cons_self)) fun e he =>
      hrun e (List.mem_cons_of_mem _ he)

/-- Without resets and lost answers nothing is stale, if the module starts with `0xFFFF`. -/
theorem dst_agrees_of_quiet {run : List Event} (hrun : ∀ e ∈ run, e.Quiet) :
    Agrees 0xFFFF run := by
  refine (dst_agrees_iff 0xFFFF run).mpr fun before Addr x after hsplit hit => ?_
  rw [← hit]
  refine (runFrom_quiet rfl fun e he => hrun e ?_).symm
  rw [hsplit]
  exact List.mem_append_left _ he

/-- The answer `ZIGBEE_OK` to a command that was taken. -/
def Exchange.ok : Exchange := ⟨true, [zigbeeTempPrecode ++ [0xD2, zigbeeOk]], fun _ => rfl⟩

/-- Node 5 is set, a configuration command sets the module to 7, node 5 is set again. -/
theorem reconfigured_not_agrees : ¬ ∀ dst run, Agrees dst run := by
  intro h
  have hdst := h 0xFFFF [.setDstAddr 5 .ok, .module 7, .setDstAddr 5 .ok]
    [.setDstAddr 5 .ok, .module 7] 5 .ok [] rfl (by decide)
  revert hdst
  decide

end K64Gateway.Zigbee
