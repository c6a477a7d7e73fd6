import K64Gateway.Modbus.RtuPort

/-
  The slaves on the serial lines: `eMBPoll` of `modbus/mb.c`, which the thread of each port calls
  over and over, with the flags of `port/portevent.c`. What `eMBPoll` notes of a frame between its
  calls stands in `static` variables, and these are the same for all ports.

  Proved: as long as no port takes a frame while another has one to execute, and no thread finds
  two flags at once, the ports behave as if each had variables of its own (`run_shared`).
-/

namespace K64Gateway.Modbus

open Window

variable {G : Type}

/-! ## Functions -/

/-- `eMBException` -/
inductive MBException where
  | none
  | illegalFunction
  | illegalDataAddress
  | illegalDataValue
  | slaveDeviceFailure
  | slaveBusy
deriving DecidableEq

def MBException.code : MBException → UInt8
  | none => 0
  | illegalFunction => 1
  | illegalDataAddress => 2
  | illegalDataValue => 3
  | slaveDeviceFailure => 4
  | slaveBusy => 6

/-- `MB_PDU_SIZE_MAX` -/
def mbPduSizeMax : Nat := 253

/-- What a handler leaves: its result, the memory from the PDU on, the length and the globals. -/
structure FuncReply (G : Type) where
  eStatus : MBException
  pucFrame : Nat → UInt8
  usLen : Nat
  g : G

/-- `pxMBFunctionHandler`, on the port, the memory from the PDU on, its length and the globals; no
    handler makes a PDU longer than the buffer. -/
structure FuncHandler (G : Type) where
  run : Nat → (Nat → UInt8) → Nat → G → FuncReply G
  fits : ∀ ucPort pucFrame usLen g, usLen ≤ mbPduSizeMax →
    (run ucPort pucFrame usLen g).usLen ≤ mbPduSizeMax

/-- The search in `xFuncHandlers`, which ends at the code 0. -/
def findHandler (ucFunctionCode : UInt8) : List (UInt8 × FuncHandler G) → Option (FuncHandler G)
  | [] => none
  | (code, pxHandler) :: rest =>
      if code = 0 then none
      else if code = ucFunctionCode then some pxHandler
      else findHandler ucFunctionCode rest

/-- The handler of the function that the PDU names. -/
def callHandler (xFuncHandlers : List (UInt8 × FuncHandler G)) (ucPort : Nat)
    (pucFrame : Nat → UInt8) (usLen : Nat) (g : G) : FuncReply G :=
  match findHandler (pucFrame 0) xFuncHandlers with
  | some pxHandler => pxHandler.run ucPort pucFrame usLen g
  | none => ⟨.illegalFunction, pucFrame, usLen, g⟩

/-- The PDU of the answer: what the handler left, or the function code with the error bit and the
    exception. -/
def answerPdu (ucFunctionCode : UInt8) (out : FuncReply G) : (Nat → UInt8) × Nat :=
  if out.eStatus ≠ .none then
    (overlay out.pucFrame 0 [ucFunctionCode ||| 128, out.eStatus.code], 2)
  else (out.pucFrame, out.usLen)

/-! ## The ports and the variables -/

/-- The `static` variables of `eMBPoll` that outlive a call. `ucMBFrame` points to the PDU in the
    buffer of a port, and that port stands here. -/
structure Statics where
  ucMBFrame : Nat
  ucRcvAddress : UInt8
  usLength : Nat

structure Stack (G : Type) where
  port : Nat → RtuPort
  ucMBAddress : Nat → UInt8
  statics : Nat → Statics
  g : G

def Stack.setPort (s : Stack G) (p : Nat) (r : RtuPort) : Stack G :=
  { s with port := Function.update s.port p r }

def Stack.setStatics (s : Stack G) (k : Nat) (v : Statics) : Stack G :=
  { s with statics := Function.update s.statics k v }

@[simp] theorem setPort_port (s : Stack G) (p : Nat) (r : RtuPort) :
    (s.setPort p r).port = Function.update s.port p r := rfl

/-- Which variables the thread of a port uses: in the code all use the same. -/
def shared : Nat → Nat := fun _ => 0

/-- Variables of its own for each port. -/
def own : Nat → Nat := id

/-- What a flag set says: the switch of `xMBPortEventGet` knows single flags only. -/
def eventOf (recvedEvent : MBEvent → Bool) : Option MBEvent :=
  match recvedEvent .ready, recvedEvent .frameReceived, recvedEvent .execute,
    recvedEvent .frameSent with
  | true, false, false, false => some .ready
  | false, true, false, false => some .frameReceived
  | false, false, true, false => some .execute
  | false, false, false, true => some .frameSent
  | _, _, _, _ => none

/-- Whether `rt_event_recv` returns. -/
def anyEvent (set : MBEvent → Bool) : Bool :=
  set .ready || set .frameReceived || set .execute || set .frameSent

/-- `EV_FRAME_RECEIVED` -/
def Stack.frameReceived (slot : Nat → Nat) (s : Stack G) (p : Nat) : Stack G :=
  match eMBRTUReceive (s.port p) with
  | none => s
  | some (ucRcvAddress, usLength) =>
      let s := s.setStatics (slot p) ⟨p, ucRcvAddress, usLength⟩
      if ucRcvAddress = s.ucMBAddress p ∨ ucRcvAddress = 0 then
        s.setPort p ((s.port p).post .execute)
      else s

/-- The buffer with the memory from the PDU on. -/
def withPdu (buf pdu : Nat → UInt8) : Nat → UInt8
  | 0 => buf 0
  | i + 1 => pdu i

/-- `EV_EXECUTE` -/
def Stack.execute (xFuncHandlers : List (UInt8 × FuncHandler G)) (slot : Nat → Nat) (s : Stack G)
    (p : Nat) : Stack G :=
  let v := s.statics (slot p)
  let r := s.port v.ucMBFrame
  let pdu i := r.ucRTUBuf (i + 1)
  let out := callHandler xFuncHandlers p pdu v.usLength s.g
  if v.ucRcvAddress ≠ 0 then
    let answer := answerPdu (pdu 0) out
    let s := { s with g := out.g }.setStatics (slot p) { v with usLength := answer.2 }
    let s := s.setPort v.ucMBFrame { r with ucRTUBuf := withPdu r.ucRTUBuf answer.1 }
    { s with port := eMBRTUSend s.port p (s.ucMBAddress p) v.ucMBFrame answer.2 }
  else
    let s := { s with g := out.g }.setStatics (slot p) { v with usLength := out.usLen }
    s.setPort v.ucMBFrame { r with ucRTUBuf := withPdu r.ucRTUBuf out.pucFrame }

/-- The switch of `eMBPoll`. -/
def Stack.dispatch (xFuncHandlers : List (UInt8 × FuncHandler G)) (slot : Nat → Nat) (s : Stack G)
    (p : Nat) : Option MBEvent → Stack G
  | some .frameReceived => s.frameReceived slot p
  | some .execute => s.execute xFuncHandlers slot p
  | some .ready => s
  | some .frameSent => s
  | none => s

/-- `rt_event_recv` clears the flags that it returns. -/
def Stack.clearEvents (s : Stack G) (p : Nat) : Stack G :=
  s.setPort p { s.port p with events := fun _ => false }

/-- `eMBPoll` of an enabled port. `held` is what `eEvent` happens to hold where the flags say
    nothing; without a flag the thread waits. -/
def Stack.eMBPoll (xFuncHandlers : List (UInt8 × FuncHandler G)) (slot : Nat → Nat)
    (held : Option MBEvent) (s : Stack G) (p : Nat) : Stack G :=
  let recvedEvent := (s.port p).events
  let eEvent := if anyEvent recvedEvent then (eventOf recvedEvent).or held else none
  (s.clearEvents p).dispatch xFuncHandlers slot p eEvent

/-! ## Runs -/

/-- What can happen at a port. -/
inductive PortEvent where
  | byte (ucByte : UInt8)
  | silence
  | txReady
  | poll (held : Option MBEvent)
deriving DecidableEq

variable (xFuncHandlers : List (UInt8 × FuncHandler G)) (slot : Nat → Nat)

def Stack.step (s : Stack G) : Nat × PortEvent → Stack G
  | (p, .byte ucByte) => s.setPort p (xMBRTUReceiveFSM (s.port p) ucByte)
  | (p, .silence) => s.setPort p (s.port p).silence
  | (p, .txReady) =>
      s.setPort p (xMBRTUTransmitFSM (s.port (s.port p).sndOwner).ucRTUBuf (s.port p))
  | (p, .poll held) => s.eMBPoll xFuncHandlers slot held p

def Stack.run (s : Stack G) (es : List (Nat × PortEvent)) : Stack G :=
  es.foldl (Stack.step xFuncHandlers slot) s

theorem run_cons (s : Stack G) (e : Nat × PortEvent) (es : List (Nat × PortEvent)) :
    s.run xFuncHandlers slot (e :: es) =
      (s.step xFuncHandlers slot e).run xFuncHandlers slot es :=
  List.foldl_cons ..

theorem run_append (s : Stack G) (es fs : List (Nat × PortEvent)) :
    s.run xFuncHandlers slot (es ++ fs) =
      (s.run xFuncHandlers slot es).run xFuncHandlers slot fs :=
  List.foldl_append

/-! ## The shared variables -/

/-- No thread finds two flags at once, and no port takes a frame while another has one to
    execute. -/
def OrderlyStep (s : Stack G) : Nat × PortEvent → Prop
  | (p, .poll _) =>
      (anyEvent (s.port p).events = true → (eventOf (s.port p).events).isSome) ∧
        ((s.port p).events .frameReceived = true → (eMBRTUReceive (s.port p)).isSome →
          ∀ q ≠ p, (s.port q).events .execute = false)
  | _ => True

def Orderly (s : Stack G) : List (Nat × PortEvent) → Prop
  | [] => True
  | e :: es => OrderlyStep s e ∧ Orderly (s.step xFuncHandlers shared e) es

/-- A port has a frame to execute. -/
def Stack.Pending (s : Stack G) (p : Nat) : Prop := (s.port p).events .execute = true

/-- The ports and the globals are the same, one port at most has a frame to execute, and for that
    port the variables are the same. -/
structure Alike (s s' : Stack G) : Prop where
  port : s.port = s'.port
  addr : s.ucMBAddress = s'.ucMBAddress
  g : s.g = s'.g
  one : ∀ p q, s.Pending p → s.Pending q → p = q
  statics : ∀ p, s.Pending p → s.statics (shared p) = s'.statics (own p)

theorem execute_receiveFSM (r : RtuPort) (b : UInt8) :
    (xMBRTUReceiveFSM r b).events = r.events := by
  unfold xMBRTUReceiveFSM
  split
  · rfl
  · split
    · rfl
    · rfl
    · rfl
    · split <;> rfl

theorem execute_post (r : RtuPort) {e : MBEvent} (he : e ≠ .execute) :
    (r.post e).events .execute = r.events .execute :=
  Function.update_of_ne (Ne.symm he) _ _

theorem execute_silence (r : RtuPort) : r.silence.events .execute = r.events .execute := by
  have hready := execute_post r (show MBEvent.ready ≠ .execute by decide)
  have hframe := execute_post r (show MBEvent.frameReceived ≠ .execute by decide)
  unfold RtuPort.silence xMBRTUTimerT35Expired
  split
  · dsimp only
    split
    · exact hready
    · exact hframe
    · rfl
    · rfl
  · rfl

theorem execute_transmitFSM (buf : Nat → UInt8) (r : RtuPort) :
    (xMBRTUTransmitFSM buf r).events .execute = r.events .execute := by
  have hsent := execute_post r (show MBEvent.frameSent ≠ .execute by decide)
  unfold xMBRTUTransmitFSM
  split
  · rfl
  · split
    · rfl
    · split
      · rfl
      · exact hsent

theorem events_update {f : Nat → RtuPort} {k : Nat} {r : RtuPort} (h : r.events = (f k).events)
    (q : Nat) : (Function.update f k r q).events = (f q).events := by
  by_cases hq : q = k
  · rw [hq, Function.update_self, h]
  · rw [Function.update_of_ne hq]

theorem events_eMBRTUSend (ports : Nat → RtuPort) (p : Nat) (addr : UInt8) (owner len q : Nat) :
    (eMBRTUSend ports p addr owner len q).events = (ports q).events := by
  have hidle : (setIdle ports p q).events = (ports q).events := by
    unfold setIdle
    split
    · refine events_update ?_ q
      rfl
    · rfl
  unfold eMBRTUSend
  split
  · unfold loadFrame
    refine (events_update ?_ q).trans ((events_update ?_ q).trans hidle) <;> rfl
  · exact hidle

theorem events_execute (xFuncHandlers : List (UInt8 × FuncHandler G)) (slot : Nat → Nat)
    (s : Stack G) (p q : Nat) :
    ((s.execute xFuncHandlers slot p).port q).events = (s.port q).events := by
  unfold Stack.execute
  dsimp only
  split
  · refine (events_eMBRTUSend ..).trans ?_
    rw [setPort_port]
    exact events_update (by rfl) q
  · rw [setPort_port]
    exact events_update (by rfl) q

theorem eventOf_eq_some {set : MBEvent → Bool} {e : MBEvent} (h : eventOf set = some e) :
    set e = true ∧ ∀ e' ≠ e, set e' = false := by
  unfold eventOf at h
  split at h
  case h_5 => exact absurd h (by simp)
  all_goals
    obtain rfl := Option.some.inj h
    refine ⟨by assumption, ?_⟩
    rintro (_ | _ | _ | _) hne
    all_goals first | assumption | exact absurd rfl hne

variable {xFuncHandlers} {s s' : Stack G}

theorem Alike.setPort (h : Alike s s') {p : Nat} {r : RtuPort}
    (hr : r.events .execute = true → s.Pending p) : Alike (s.setPort p r) (s'.setPort p r) := by
  have hpending : ∀ q, (s.setPort p r).Pending q → s.Pending q := by
    intro q hq
    unfold Stack.Pending at hq
    rw [setPort_port] at hq
    by_cases hqp : q = p
    · subst hqp
      rw [Function.update_self] at hq
      exact hr hq
    · rw [Function.update_of_ne hqp] at hq
      exact hq
  exact
    { port := by
        show Function.update s.port p r = Function.update s'.port p r
        rw [h.port]
      addr := h.addr
      g := h.g
      one := fun a b ha hb => h.one a b (hpending a ha) (hpending b hb)
      statics := fun a ha => h.statics a (hpending a ha) }

/-- With nothing to execute the variables do not matter. -/
theorem Alike.of_none (hport : s.port = s'.port) (haddr : s.ucMBAddress = s'.ucMBAddress)
    (hg : s.g = s'.g) (hnone : ∀ q, ¬ s.Pending q) : Alike s s' where
  port := hport
  addr := haddr
  g := hg
  one _ _ ha := absurd ha (hnone _)
  statics _ ha := absurd ha (hnone _)

theorem not_pending_clearEvents (s : Stack G) (p : Nat) : ¬ (s.clearEvents p).Pending p := by
  unfold Stack.Pending Stack.clearEvents
  rw [setPort_port, Function.update_self]
  exact Bool.false_ne_true

theorem pending_clearEvents {p q : Nat} (hq : (s.clearEvents p).Pending q) : q ≠ p ∧ s.Pending q := by
  have hne : q ≠ p := by
    rintro rfl
    exact not_pending_clearEvents s q hq
  refine ⟨hne, ?_⟩
  unfold Stack.Pending Stack.clearEvents at hq
  rw [setPort_port, Function.update_of_ne hne] at hq
  exact hq

/-- `EV_FRAME_RECEIVED`, while no port has a frame to execute. -/
theorem Alike.frameReceived (h : Alike s s') {p : Nat}
    (hnone : (eMBRTUReceive (s.port p)).isSome → ∀ q, ¬ s.Pending q) :
    Alike (s.frameReceived shared p) (s'.frameReceived own p) := by
  unfold Stack.frameReceived
  rw [← h.port]
  cases hrcv : eMBRTUReceive (s.port p) with
  | none => exact h
  | some x =>
    obtain ⟨ucRcvAddress, usLength⟩ := x
    have hnone' := hnone (by rw [hrcv]; rfl)
    dsimp only [Stack.setStatics, Stack.setPort]
    rw [← h.addr, ← h.port]
    split
    · -- only the port itself has something to execute
      have honly : ∀ q, (Function.update s.port p ((s.port p).post .execute) q).events .execute =
          true → q = p := by
        intro q hq
        by_contra hne
        rw [Function.update_of_ne hne] at hq
        exact hnone' q hq
      exact
        { port := rfl
          addr := rfl
          g := h.g
          one := fun a b ha hb => (honly a ha).trans (honly b hb).symm
          statics := by
            intro a ha
            obtain rfl := honly a ha
            exact (Function.update_self (0 : Nat) _ s.statics).trans
              (Function.update_self a _ s'.statics).symm }
    · exact Alike.of_none rfl rfl h.g hnone'

/-- `EV_EXECUTE` of a port with the same variables, while no port has another frame to execute. -/
theorem Alike.execute (h : Alike s s') {p : Nat} (hnone : ∀ q, ¬ s.Pending q)
    (hstatics : s.statics (shared p) = s'.statics (own p)) :
    Alike (s.execute xFuncHandlers shared p) (s'.execute xFuncHandlers own p) := by
  have hports : (s.execute xFuncHandlers shared p).port = (s'.execute xFuncHandlers own p).port ∧
      (s.execute xFuncHandlers shared p).g = (s'.execute xFuncHandlers own p).g ∧
      (s.execute xFuncHandlers shared p).ucMBAddress =
        (s'.execute xFuncHandlers own p).ucMBAddress := by
    unfold Stack.execute
    dsimp only [Stack.setStatics, Stack.setPort]
    rw [← hstatics, ← h.port, ← h.addr, ← h.g]
    split <;> exact ⟨rfl, rfl, rfl⟩
  refine Alike.of_none hports.1 hports.2.2 hports.2.1 fun q hq => hnone q ?_
  unfold Stack.Pending at hq
  rw [events_execute] at hq
  exact hq

theorem Alike.clearEvents (h : Alike s s') (p : Nat) :
    Alike (s.clearEvents p) (s'.clearEvents p) := by
  unfold Stack.clearEvents
  rw [← h.port]
  exact h.setPort fun hfalse => absurd hfalse Bool.false_ne_true

/-- `eMBPoll` of a port that finds one flag at most. -/
theorem Alike.eMBPoll (h : Alike s s') {p : Nat} (held : Option MBEvent)
    (horderly : OrderlyStep s (p, .poll held)) :
    Alike (s.eMBPoll xFuncHandlers shared held p) (s'.eMBPoll xFuncHandlers own held p) := by
  obtain ⟨hone, halone⟩ := horderly
  have hclear := h.clearEvents p
  unfold Stack.eMBPoll
  rw [← h.port]
  dsimp only
  split
  · next hany =>
    obtain ⟨e, he⟩ := Option.isSome_iff_exists.mp (hone hany)
    have hset := (eventOf_eq_some he).1
    have hothers := (eventOf_eq_some he).2
    rw [he, Option.some_or]
    cases e with
    | ready => exact hclear
    | frameSent => exact hclear
    | frameReceived =>
      refine hclear.frameReceived fun hrcv q hq => ?_
      obtain ⟨hne, hpending⟩ := pending_clearEvents hq
      have hrcv' : (eMBRTUReceive (s.port p)).isSome := by
        unfold Stack.clearEvents at hrcv
        rw [setPort_port, Function.update_self] at hrcv
        exact hrcv
      exact absurd hpending (by rw [Stack.Pending, halone hset hrcv' q hne]; exact Bool.false_ne_true)
    | execute =>
      refine hclear.execute (fun q hq => ?_) (h.statics p hset)
      obtain ⟨hne, hpending⟩ := pending_clearEvents hq
      exact hne (h.one q p hpending hset)
  · exact hclear

/-- One step. -/
theorem Alike.step (h : Alike s s') {e : Nat × PortEvent} (horderly : OrderlyStep s e) :
    Alike (s.step xFuncHandlers shared e) (s'.step xFuncHandlers own e) := by
  obtain ⟨p, e⟩ := e
  cases e with
  | byte b =>
    unfold Stack.step
    dsimp only
    rw [← h.port]
    refine h.setPort fun hexec => ?_
    rw [execute_receiveFSM] at hexec
    exact hexec
  | silence =>
    unfold Stack.step
    dsimp only
    rw [← h.port]
    refine h.setPort fun hexec => ?_
    rw [execute_silence] at hexec
    exact hexec
  | txReady =>
    unfold Stack.step
    dsimp only
    rw [← h.port]
    refine h.setPort fun hexec => ?_
    rw [execute_transmitFSM] at hexec
    exact hexec
  | poll held => exact h.eMBPoll held horderly

theorem Alike.run {es : List (Nat × PortEvent)} (h : Alike s s')
    (horderly : Orderly xFuncHandlers s es) :
    Alike (s.run xFuncHandlers shared es) (s'.run xFuncHandlers own es) := by
  induction es generalizing s s' with
  | nil => exact h
  | cons e es ih =>
    rw [run_cons, run_cons]
    exact ih (h.step horderly.1) horderly.2

end K64Gateway.Modbus
