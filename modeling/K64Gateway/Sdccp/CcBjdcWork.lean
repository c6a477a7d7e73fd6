import Mathlib

/-
  The work task of the CC_BJDC protocol, `cc_bjdc_work_task`, beside the task of the connection:
  connections come and go, their messages pass through a queue of three, and the work task takes
  them out.

  Proved: a heartbeat, the device info or data is sent on a connection only after a result
  "pass" came on it, in every run where connections come before the verification only and find
  no "pass" in the queue (`sent_after_pass`). The work task outlives a connection, so another
  one is used without verification (`sent_unverified`).
-/

namespace K64Gateway.CcBjdc

/-! ## Messages -/

/-- `CC_BJDC_Data_t`, as far as the work task tells messages apart. -/
inductive Data where
  | verifySeq
  | verifyResult (bPass : Bool)
  | devinfo
  | heartbeat
  | periodCfg (ulPeriod : Int)
  | restart
  | dataQuery
  | dataContinue
deriving DecidableEq

inductive Request where
  | verifyReq
  | checkmd5Req
  | deviceinfoReq
  | heartbeatReq
  | dataReply
  | dataReport
deriving DecidableEq

/-- What is sent behind the verification only. -/
def Request.protected : Request → Bool
  | .verifyReq => false
  | .checkmd5Req => false
  | _ => true

/-- What is seen on the line; the number is that of the connection. -/
inductive Event where
  | received (conn : Nat) (data : Data)
  | sent (conn : Nat) (request : Request)
deriving DecidableEq

/-! ## The tasks -/

/-- Where the work task is. -/
inductive Phase where
  /-- there is no task -/
  | absent
  /-- before `cc_bjdc_verify_req` -/
  | verify
  /-- in `rt_mq_recv verify` -/
  | waitSeq
  /-- before `cc_bjdc_checkmd5_req` -/
  | checkmd5
  /-- in `rt_mq_recv checkmd5` -/
  | waitResult
  /-- in `cc_net_disconnect` and the delay behind it -/
  | disconnect
  /-- before `cc_bjdc_deviceinfo_req` -/
  | deviceinfo
  /-- in `rt_mq_recv wait` -/
  | wait
  /-- before the reply to a query -/
  | reply
  /-- before the look at the heartbeat -/
  | beat
  /-- before the look at the averages -/
  | report
deriving DecidableEq

/-- The result of the verification was "pass". -/
def Phase.passed : Phase → Bool
  | .deviceinfo | .wait | .reply | .beat | .report => true
  | _ => false

structure Work where
  /-- the connection, if there is one, and how many there were before -/
  conn : Option Nat
  conns : Nat
  /-- the message queue, with the connection of each message -/
  queue : List (Nat × Data)
  phase : Phase
  trace : List Event

def workInit : Work where
  conn := none
  conns := 0
  queue := []
  phase := .absent
  trace := []

/-- `cc_net_send`; `ok` tells whether the connection takes it. -/
def Work.send (s : Work) (ok : Bool) (request : Request) : Work :=
  match s.conn with
  | some conn => if ok then { s with trace := s.trace ++ [.sent conn request] } else s
  | none => s

def Work.goto (s : Work) (phase : Phase) : Work := { s with phase := phase }

/-- `rt_mq_recv`: the first message, or none where the time is over. -/
def Work.recv (s : Work) (next : Option Data → Phase) : Work :=
  match s.queue with
  | (_, data) :: queue =>
      { s with
        queue := queue
        phase := next (some data) }
  | [] => s.goto (next none)

def onSeq : Option Data → Phase
  | some .verifySeq => .checkmd5
  | some _ => .verify
  | none => .disconnect

def onResult : Option Data → Phase
  | some (.verifyResult true) => .deviceinfo
  | some (.verifyResult false) => .disconnect
  | _ => .verify

/-- The cases of the main loop; after `vDoSystemReset` there is no task. -/
def onMessage : Option Data → Phase
  | some .dataQuery => .reply
  | some .restart => .absent
  | _ => .beat

/-- The next step of `cc_bjdc_work_task`; `due` tells whether a heartbeat or a report is due. -/
def workTask (s : Work) (due ok : Bool) : Work :=
  match s.phase with
  | .absent => s
  | .verify => (s.send ok .verifyReq).goto .waitSeq
  | .waitSeq => s.recv onSeq
  | .checkmd5 => (s.send ok .checkmd5Req).goto .waitResult
  | .waitResult => s.recv onResult
  | .disconnect => s.goto .verify
  | .deviceinfo => (s.send ok .deviceinfoReq).goto .wait
  | .wait => s.recv onMessage
  | .reply => (s.send ok .dataReply).goto .beat
  | .beat => (if due then s.send ok .heartbeatReq else s).goto .report
  | .report => (if due then s.send ok .dataReport else s).goto .wait

/-- `cc_bjdc_startwork`: a task that is there goes on; `starts` tells whether there is memory and
    a configuration for a new one. -/
def startwork (s : Work) (starts : Bool) : Work :=
  if s.phase = .absent then (if starts then s.goto .verify else s) else s

/-- `__CC_BJDC_ParsePack` at the end: a full queue does not take the message. -/
def Work.put (s : Work) (conn : Nat) (data : Data) : Work :=
  if s.queue.length < 3 then { s with queue := s.queue ++ [(conn, data)] } else s

inductive WorkStep where
  /-- a connection is established -/
  | connect (starts : Bool)
  /-- it ends, on whatever side; `cc_bjdc_exitwork` does nothing -/
  | disconnect
  /-- a message comes on it -/
  | receive (data : Data)
  /-- the work task goes on -/
  | work (due ok : Bool)

def workStep (s : Work) : WorkStep → Work
  | .connect starts =>
      match s.conn with
      | some _ => s
      | none =>
          startwork
            { s with
              conn := some s.conns
              conns := s.conns + 1 } starts
  | .disconnect => { s with conn := none }
  | .receive data =>
      match s.conn with
      | some conn => Work.put { s with trace := s.trace ++ [.received conn data] } conn data
      | none => s
  | .work due ok => workTask s due ok

def workRun (s : Work) (steps : List WorkStep) : Work := steps.foldl workStep s

/-! ## The verification of a connection -/

/-- What was sent on each connection came after a result "pass" on it. -/
def SentAfterPass (trace : List Event) : Prop :=
  ∀ before conn request after, trace = before ++ .sent conn request :: after →
    request.protected = true → .received conn (.verifyResult true) ∈ before

/-- A connection comes before the result of a verification only, and finds no "pass" in the
    queue. -/
def Fresh (s : Work) : WorkStep → Prop
  | .connect _ => s.conn = none → s.phase.passed = false ∧
      ∀ m ∈ s.queue, m.2 ≠ .verifyResult true
  | _ => True

def FreshAll (s : Work) : List WorkStep → Prop
  | [] => True
  | step :: steps => Fresh s step ∧ FreshAll (workStep s step) steps

/-- A result "pass" in the queue or behind it is one of the connection. -/
structure Verified (s : Work) : Prop where
  sent : SentAfterPass s.trace
  queue : ∀ conn, s.conn = some conn → ∀ m ∈ s.queue, m.2 = .verifyResult true →
    .received conn (.verifyResult true) ∈ s.trace
  phase : ∀ conn, s.conn = some conn → s.phase.passed = true →
    .received conn (.verifyResult true) ∈ s.trace

theorem sentAfterPass_snoc {trace : List Event} {e : Event} (h : SentAfterPass trace)
    (he : ∀ conn request, e = .sent conn request → request.protected = true →
      .received conn (.verifyResult true) ∈ trace) : SentAfterPass (trace ++ [e]) := by
  intro before conn request after heq hprotected
  rcases List.eq_nil_or_concat after with rfl | ⟨after', last, rfl⟩
  · obtain ⟨htrace, hlast⟩ := List.append_inj' heq rfl
    rw [List.cons.injEq] at hlast
    rw [← htrace]
    exact he conn request hlast.1 hprotected
  · have heq' : trace ++ [e] = (before ++ .sent conn request :: after') ++ [last] := by
      rw [heq]
      simp
    obtain ⟨htrace, -⟩ := List.append_inj' heq' rfl
    exact h before conn request after' htrace hprotected

theorem Verified.send {s : Work} (h : Verified s) (ok : Bool) {request : Request}
    (hpassed : request.protected = true → s.phase.passed = true) :
    Verified (s.send ok request) := by
  unfold Work.send
  split
  · next conn hconn =>
    split
    · have hmem {e : Event} (he : e ∈ s.trace) : e ∈ s.trace ++ [.sent conn request] :=
        List.mem_append_left _ he
      refine ⟨sentAfterPass_snoc h.sent fun conn' request' heq hprotected => ?_,
        fun conn' hconn' m hm hpass => hmem (h.queue conn' hconn' m hm hpass),
        fun conn' hconn' hphase => hmem (h.phase conn' hconn' hphase)⟩
      obtain ⟨rfl, rfl⟩ := Event.sent.inj heq
      exact h.phase conn hconn (hpassed hprotected)
    · exact h
  · exact h

theorem phase_send (s : Work) (ok : Bool) (request : Request) :
    (s.send ok request).phase = s.phase := by
  unfold Work.send
  split
  · split <;> rfl
  · rfl

theorem Verified.goto {s : Work} (h : Verified s) {phase : Phase}
    (hpassed : phase.passed = true → s.phase.passed = true) : Verified (s.goto phase) :=
  ⟨h.sent, h.queue, fun conn hconn hphase => h.phase conn hconn (hpassed hphase)⟩

/-- The phase behind a message is one behind the verification if the one before it was, or if
    the message is "pass". -/
theorem Verified.recv {s : Work} (h : Verified s) {next : Option Data → Phase}
    (hnext : ∀ data, (next data).passed = true → s.phase.passed = true ∨
      data = some (.verifyResult true)) : Verified (s.recv next) := by
  unfold Work.recv
  split
  · next place data queue hqueue =>
    refine ⟨h.sent, fun conn hconn m hm => h.queue conn hconn m ?_, fun conn hconn hphase => ?_⟩
    · rw [hqueue]
      exact List.mem_cons_of_mem _ hm
    · rcases hnext _ hphase with hpassed | hdata
      · exact h.phase conn hconn hpassed
      · refine h.queue conn hconn (place, data) ?_ (Option.some.inj hdata)
        rw [hqueue]
        exact List.mem_cons_self
  · refine h.goto fun hphase => ?_
    rcases hnext _ hphase with hpassed | hdata
    · exact hpassed
    · exact nomatch hdata

theorem onResult_passed {data : Option Data} (h : (onResult data).passed = true) :
    data = some (.verifyResult true) := by
  unfold onResult at h
  split at h
  · rfl
  · exact nomatch h
  · exact nomatch h

theorem onSeq_passed (data : Option Data) : (onSeq data).passed = false := by
  unfold onSeq
  split <;> rfl

theorem Verified.sendGoto {s : Work} (h : Verified s) (ok : Bool) (request : Request)
    (phase : Phase) (hrequest : request.protected = true → s.phase.passed = true)
    (hphase : phase.passed = true → s.phase.passed = true) :
    Verified ((s.send ok request).goto phase) := by
  refine (h.send ok hrequest).goto fun hpassed => ?_
  rw [phase_send]
  exact hphase hpassed

/-- Every step of the work task. -/
theorem Verified.workTask {s : Work} (h : Verified s) (due ok : Bool) :
    Verified (workTask s due ok) := by
  have hlater (request : Request) (phase : Phase) (hpassed : s.phase.passed = true) :
      Verified ((if due then s.send ok request else s).goto phase) := by
    split
    · exact h.sendGoto ok request phase (fun _ => hpassed) fun _ => hpassed
    · exact h.goto fun _ => hpassed
  unfold CcBjdc.workTask
  cases hphase : s.phase with
  | absent => exact h
  | verify =>
    exact h.sendGoto ok .verifyReq .waitSeq (fun hprot => nomatch hprot) fun hpass => nomatch hpass
  | waitSeq =>
    refine h.recv fun data hpassed => ?_
    rw [onSeq_passed] at hpassed
    exact nomatch hpassed
  | checkmd5 =>
    exact h.sendGoto ok .checkmd5Req .waitResult (fun hprot => nomatch hprot) fun hpass =>
      nomatch hpass
  | waitResult => exact h.recv fun data hpassed => Or.inr (onResult_passed hpassed)
  | disconnect => exact h.goto fun hpass => nomatch hpass
  | deviceinfo =>
    have hpassed : s.phase.passed = true := by rw [hphase]; rfl
    exact h.sendGoto ok .deviceinfoReq .wait (fun _ => hpassed) fun _ => hpassed
  | wait => exact h.recv fun data _ => Or.inl (by rw [hphase]; rfl)
  | reply =>
    have hpassed : s.phase.passed = true := by rw [hphase]; rfl
    exact h.sendGoto ok .dataReply .beat (fun _ => hpassed) fun _ => hpassed
  | beat => exact hlater .heartbeatReq .report (by rw [hphase]; rfl)
  | report => exact hlater .dataReport .wait (by rw [hphase]; rfl)

theorem Verified.step {s : Work} (h : Verified s) {step : WorkStep} (hfresh : Fresh s step) :
    Verified (workStep s step) := by
  cases step with
  | connect starts =>
    unfold workStep
    dsimp only
    split
    · exact h
    · next hconn =>
      obtain ⟨hphase, hqueue⟩ := hfresh hconn
      have hnew : Verified { s with
          conn := some s.conns
          conns := s.conns + 1 } :=
        ⟨h.sent, fun _ _ m hm hpass => absurd hpass (hqueue m hm), fun _ _ hpassed => by
          dsimp only at hpassed
          rw [hphase] at hpassed
          exact nomatch hpassed⟩
      unfold startwork
      split
      · split
        · exact hnew.goto fun hpassed => nomatch hpassed
        · exact hnew
      · exact hnew
  | disconnect =>
    refine ⟨h.sent, ?_, ?_⟩
    · intro conn hconn
      exact nomatch hconn
    · intro conn hconn
      exact nomatch hconn
  | receive data =>
    unfold workStep
    dsimp only
    split
    · next conn hconn =>
      have hmem {e : Event} (he : e ∈ s.trace) : e ∈ s.trace ++ [.received conn data] :=
        List.mem_append_left _ he
      have hsent : SentAfterPass (s.trace ++ [.received conn data]) :=
        sentAfterPass_snoc h.sent fun _ _ heq => nomatch heq
      unfold Work.put
      split
      · refine ⟨hsent, fun conn' hconn' m hm hpass => ?_,
          fun conn' hconn' hphase => hmem (h.phase conn' hconn' hphase)⟩
        rcases List.mem_append.mp hm with hm | hm
        · exact hmem (h.queue conn' hconn' m hm hpass)
        · rw [List.mem_singleton.mp hm] at hpass
          obtain rfl : conn = conn' := Option.some.inj (hconn.symm.trans hconn')
          obtain rfl : data = .verifyResult true := hpass
          exact List.mem_append_right _ (List.mem_singleton_self _)
      · exact ⟨hsent, fun conn' hconn' m hm hpass => hmem (h.queue conn' hconn' m hm hpass),
          fun conn' hconn' hphase => hmem (h.phase conn' hconn' hphase)⟩
    · exact h
  | work due ok => exact h.workTask due ok

/-- In every run where a connection comes before the result of a verification only and finds no
    "pass" in the queue, a heartbeat, the device info or data is sent on a connection after the
    result "pass" came on it. -/
theorem sent_after_pass {steps : List WorkStep} (hfresh : FreshAll workInit steps) :
    SentAfterPass (workRun workInit steps).trace := by
  have hrun : ∀ s : Work, Verified s → FreshAll s steps → Verified (workRun s steps) := by
    unfold workRun
    clear hfresh
    induction steps with
    | nil => exact fun s hs _ => hs
    | cons step steps ih =>
      intro s hs hfresh
      rw [List.foldl_cons]
      exact ih _ (hs.step hfresh.1) hfresh.2
  refine (hrun workInit ⟨fun before conn request after heq => ?_, ?_, ?_⟩ hfresh).sent
  · exact absurd heq (by simp [workInit])
  · intro conn hconn
    exact nomatch hconn
  · intro conn hconn
    exact nomatch hconn

/-! ## A connection that is used without verification -/

/-- A connection with its verification, up to the device info. -/
def verification : List WorkStep :=
  [.connect true, .work false true, .receive .verifySeq, .work false true, .work false true,
    .receive (.verifyResult true), .work false true, .work false true]

/-- The connection ends and another one comes; then a heartbeat is due. -/
def reconnection : List WorkStep :=
  [.disconnect, .connect true, .work false true, .work true true]

theorem sent_after_pass_one :
    (workRun workInit verification).trace = [.sent 0 .verifyReq, .received 0 .verifySeq,
      .sent 0 .checkmd5Req, .received 0 (.verifyResult true), .sent 0 .deviceinfoReq] ∧
    SentAfterPass (workRun workInit verification).trace :=
  ⟨by decide, sent_after_pass ⟨fun _ => ⟨rfl, fun _ hm => nomatch hm⟩, trivial, trivial, trivial,
    trivial, trivial, trivial, trivial, trivial⟩⟩

theorem sent_unverified :
    ¬ ∀ steps : List WorkStep, SentAfterPass (workRun workInit steps).trace := by
  intro h
  have htrace : (workRun workInit (verification ++ reconnection)).trace =
      (workRun workInit verification).trace ++ .sent 1 .heartbeatReq :: [] := by
    decide
  have hmem := h (verification ++ reconnection) _ 1 .heartbeatReq [] htrace rfl
  exact absurd hmem (by decide)

end K64Gateway.CcBjdc
