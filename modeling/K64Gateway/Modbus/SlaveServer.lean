import K64Gateway.Modbus.SlavePoll

/-
  What the slaves are for: each request on a line is answered, or passed over, before the next one.
  A server of this kind has no flags, no timers and no receiver; it has the buffers, since a handler
  may read in them behind its request.

  Proved: any number of bursts at any ports, each one followed by a silence, by calls of `eMBPoll`
  and by a transmitter that empties, leave the lines, the buffers and the globals of that server
  (`run_bursts`).
-/

namespace K64Gateway.Modbus

open Window MbCrc

variable {G : Type} (xFuncHandlers : List (UInt8 × FuncHandler G))

/-! ## The server -/

structure Server (G : Type) where
  ucMBAddress : Nat → UInt8
  buf : Nat → Nat → UInt8
  line : Nat → List UInt8
  g : G

/-- The request for `addr` in the buffer of the port `p` is done, and answered if it is for one
    slave only. -/
def Server.answer (v : Server G) (p : Nat) (addr : UInt8) (len : Nat) : Server G :=
  let pdu i := v.buf p (i + 1)
  let out := callHandler xFuncHandlers p pdu len v.g
  if addr ≠ 0 then
    let answer := answerPdu (pdu 0) out
    let frame := encodeFrame (v.ucMBAddress p) (window answer.1 0 answer.2)
    { v with
      buf := Function.update v.buf p (overlay (withPdu (v.buf p) answer.1) 0 frame)
      line := Function.update v.line p (v.line p ++ frame)
      g := out.g }
  else { v with buf := Function.update v.buf p (withPdu (v.buf p) out.pucFrame), g := out.g }

/-- A burst on the line of a port. -/
def Server.serve (v : Server G) (burst : Nat × List UInt8) : Server G :=
  let p := burst.1
  let bytes := burst.2
  let v := { v with
    buf := Function.update v.buf p (overlay (v.buf p) 0 (bytes.take mbSerPduSizeMax)) }
  match if bytes.length ≤ mbSerPduSizeMax then decodeFrame bytes else none with
  | none => v
  | some (addr, pdu) =>
      if addr = v.ucMBAddress p ∨ addr = 0 then v.answer xFuncHandlers p addr pdu.length else v

/-- The ports wait for frames, and the server has what they have. -/
structure Serving (v : Server G) (s : Stack G) : Prop where
  ready : ∀ p, Ready (s.port p)
  addr : v.ucMBAddress = s.ucMBAddress
  buf : ∀ p, (s.port p).ucRTUBuf = v.buf p
  line : ∀ p, (s.port p).line = v.line p
  g : v.g = s.g

/-! ## A burst at a port -/

/-- A burst and what follows it. -/
def burstEvents (helds : Option MBEvent) (k : Nat) (burst : Nat × List UInt8) :
    List (Nat × PortEvent) :=
  burst.2.map (fun b => (burst.1, PortEvent.byte b)) ++
    [(burst.1, .silence), (burst.1, .poll helds), (burst.1, .poll helds)] ++
    (List.replicate k (burst.1, PortEvent.txReady) ++ [(burst.1, .poll helds)])

variable {xFuncHandlers} {slot : Nat → Nat} {s : Stack G} {p : Nat} {held : Option MBEvent}

theorem setPort_setPort (s : Stack G) (p : Nat) (r r' : RtuPort) :
    (s.setPort p r).setPort p r' = s.setPort p r' := by
  unfold Stack.setPort
  dsimp only
  rw [Function.update_idem]

theorem setPort_self (s : Stack G) (p : Nat) : s.setPort p (s.port p) = s := by
  unfold Stack.setPort
  rw [Function.update_eq_self]

@[simp] theorem port_setPort_self (s : Stack G) (p : Nat) (r : RtuPort) :
    (s.setPort p r).port p = r :=
  Function.update_self ..

theorem run_bytes (bytes : List UInt8) :
    s.run xFuncHandlers slot (bytes.map fun b => (p, PortEvent.byte b)) =
      s.setPort p (bytes.foldl xMBRTUReceiveFSM (s.port p)) := by
  induction bytes generalizing s with
  | nil => exact (setPort_self s p).symm
  | cons b bytes ih =>
    have hstep : s.step xFuncHandlers slot (p, .byte b) =
        s.setPort p (xMBRTUReceiveFSM (s.port p) b) := rfl
    rw [List.map_cons, run_cons, ih, hstep, setPort_setPort, port_setPort_self, List.foldl_cons]

theorem run_received (bytes : List UInt8) :
    s.run xFuncHandlers slot (bytes.map (fun b => (p, PortEvent.byte b)) ++ [(p, .silence)]) =
      s.setPort p ((s.port p).received bytes) := by
  rw [run_append, run_bytes]
  show (s.setPort p _).setPort p ((s.setPort p _).port p).silence = _
  rw [setPort_setPort, port_setPort_self]
  rfl

/-- Without a flag nothing is done. -/
theorem eMBPoll_none (h : (s.port p).events = fun _ => false) :
    s.eMBPoll xFuncHandlers slot held p = s := by
  have hclear : s.clearEvents p = s := by
    unfold Stack.clearEvents
    rw [← h]
    exact setPort_self s p
  unfold Stack.eMBPoll
  rw [h, hclear]
  rfl

theorem eventOf_update (e : MBEvent) :
    eventOf (Function.update (fun _ => false) e true) = some e := by
  cases e <;> rfl

/-- One flag is handled. -/
theorem eMBPoll_one {e : MBEvent}
    (h : (s.port p).events = Function.update (fun _ => false) e true) :
    s.eMBPoll xFuncHandlers slot held p =
      (s.clearEvents p).dispatch xFuncHandlers slot p (some e) := by
  have hany : anyEvent (Function.update (fun _ => false) e true) = true := by
    cases e <;> rfl
  unfold Stack.eMBPoll
  dsimp only
  rw [h, if_pos hany, eventOf_update, Option.some_or]

/-- A transmitter that stands has nothing to put on the line. -/
theorem run_txReady_idle (h : (s.port p).eSndState = .idle) (k : Nat) :
    s.run xFuncHandlers slot (List.replicate k (p, .txReady)) = s := by
  induction k with
  | zero => rfl
  | succ k ih =>
    have hstep : s.step xFuncHandlers slot (p, .txReady) = s := by
      show s.setPort p (xMBRTUTransmitFSM _ (s.port p)) = s
      have hstand : ∀ buf, xMBRTUTransmitFSM buf (s.port p) = s.port p := by
        intro buf
        unfold xMBRTUTransmitFSM
        split
        · rfl
        · rw [h]
      rw [hstand]
      exact setPort_self s p
    rw [List.replicate_succ, run_cons, hstep, ih]

theorem transmit_sndOwner (r : RtuPort) : r.transmit.sndOwner = r.sndOwner := by
  unfold RtuPort.transmit xMBRTUTransmitFSM
  split
  · rfl
  · split
    · rfl
    · split <;> rfl

theorem run_txReady (h : (s.port p).sndOwner = p) (k : Nat) :
    s.run xFuncHandlers slot (List.replicate k (p, .txReady)) =
      s.setPort p (RtuPort.transmit^[k] (s.port p)) := by
  induction k generalizing s with
  | zero => exact (setPort_self s p).symm
  | succ k ih =>
    have hstep : s.step xFuncHandlers slot (p, .txReady) = s.setPort p (s.port p).transmit := by
      show s.setPort p (xMBRTUTransmitFSM (s.port (s.port p).sndOwner).ucRTUBuf (s.port p)) = _
      rw [h]
      rfl
    have howner : ((s.setPort p (s.port p).transmit).port p).sndOwner = p := by
      rw [port_setPort_self, transmit_sndOwner, h]
    rw [List.replicate_succ, run_cons, hstep, ih howner, setPort_setPort, port_setPort_self,
      Function.iterate_succ_apply]

/-! ## What a burst leaves -/

/-- The port heard a burst: it waits again, and tells of a frame if there may be one. -/
structure Heard (r : RtuPort) (bytes : List UInt8) (r' : RtuPort) : Prop where
  rcvIdle : r'.eRcvState = .idle
  sndIdle : r'.eSndState = .idle
  timer : r'.timer = false
  buf : r'.ucRTUBuf = overlay r.ucRTUBuf 0 (bytes.take mbSerPduSizeMax)
  line : r'.line = r.line
  frame : (r'.events = fun _ => false) ∧
      (if bytes.length ≤ mbSerPduSizeMax then decodeFrame bytes else none) = none ∨
    r'.events = Function.update (fun _ => false) .frameReceived true ∧
      eMBRTUReceive r' = (if bytes.length ≤ mbSerPduSizeMax then decodeFrame bytes else none).map
        fun x => (x.1, x.2.length)

theorem heard_received {r : RtuPort} (hr : Ready r) (bytes : List UInt8) :
    Heard r bytes (r.received bytes) := by
  have hevents : r.events = fun _ => false := funext hr.events
  by_cases hne : bytes = []
  · subst hne
    have hsilent : r.received [] = r := by
      show r.silence = r
      unfold RtuPort.silence
      rw [hr.timer]
      rfl
    rw [hsilent]
    exact
      { rcvIdle := hr.rcvIdle
        sndIdle := hr.sndIdle
        timer := hr.timer
        buf := (overlay_nil _ _).symm
        line := rfl
        frame := Or.inl ⟨hevents, by decide⟩ }
  · obtain ⟨hbuf, hpos, hrcv, hsnd, htimer, hline, hflag⟩ := received_eq hr hne
    refine
      { rcvIdle := hrcv
        sndIdle := hsnd
        timer := htimer
        buf := hbuf
        line := hline
        frame := ?_ }
    by_cases hfit : bytes.length ≤ mbSerPduSizeMax
    · rw [if_pos hfit, hevents] at hflag
      rw [Nat.min_eq_left hfit] at hpos
      rw [List.take_of_length_le hfit] at hbuf
      refine Or.inr ⟨hflag, ?_⟩
      rw [if_pos hfit]
      refine eMBRTUReceive_eq ?_ hpos
      rw [hbuf, window_overlay]
    · rw [if_neg hfit, hevents] at hflag
      exact Or.inl ⟨hflag, if_neg hfit⟩

/-- What `eMBRTUSend` leaves in its buffer. -/
theorem overlay_send (buf : Nat → UInt8) (addr : UInt8) (len : Nat) :
    overlay (Function.update buf 0 addr) (1 + len)
        (crcBytes (window (Function.update buf 0 addr) 0 (1 + len))) =
      overlay buf 0 (encodeFrame addr (window buf 1 len)) := by
  have hrest : window buf 1 len = window (Function.update buf 0 addr) 1 len :=
    window_congr fun i hi _ => (Function.update_of_ne (by omega) _ _).symm
  have hfront : window (Function.update buf 0 addr) 0 (1 + len) = addr :: window buf 1 len := by
    rw [Nat.add_comm, window_cons, Function.update_self, ← hrest]
  have hlen : (addr :: window buf 1 len).length = 1 + len := by
    rw [List.length_cons, length_window, Nat.add_comm]
  have hwrite : overlay buf 0 (addr :: window buf 1 len) = Function.update buf 0 addr := by
    rw [show addr :: window buf 1 len = [addr] ++ window buf 1 len from rfl, overlay_append,
      overlay_single, hrest]
    exact overlay_window _ _ _
  rw [encodeFrame, overlay_append, hwrite, hlen, Nat.zero_add, hfront]

/-- A port that sends a PDU from its own buffer. -/
theorem eMBRTUSend_own {ports : Nat → RtuPort} (h : (ports p).eRcvState = .idle) (addr : UInt8)
    (len : Nat) :
    eMBRTUSend ports p addr p len =
      Function.update ports p
        { ports p with
          ucRTUBuf := overlay (ports p).ucRTUBuf 0
            (encodeFrame addr (window (ports p).ucRTUBuf 1 len))
          sndOwner := p
          pucSndBufferCur := 0
          usSndBufferCount := 1 + len + 2
          eSndState := .xmit } := by
  have hidle : setIdle ports p = ports := by
    unfold setIdle
    exact if_neg fun hne => hne.1 h
  unfold eMBRTUSend loadFrame
  dsimp only
  rw [hidle, if_pos h, Function.update_self, Function.update_idem, overlay_send]

theorem window_withPdu (buf pdu : Nat → UInt8) (len : Nat) :
    window (withPdu buf pdu) 1 len = window pdu 0 len := by
  refine List.map_congr_left fun k _ => ?_
  rw [Nat.add_comm 1 k, Nat.zero_add]
  rfl

theorem Serving.update {v : Server G} (h : Serving v s) {r : RtuPort} {buf : Nat → UInt8}
    {line : List UInt8} (g : G) (statics : Nat → Statics) (hr : Ready r) (hbuf : r.ucRTUBuf = buf)
    (hline : r.line = line) :
    Serving
      { v with
        buf := Function.update v.buf p buf
        line := Function.update v.line p line
        g := g }
      ⟨Function.update s.port p r, s.ucMBAddress, statics, g⟩ := by
  refine ⟨fun q => ?_, h.addr, fun q => ?_, fun q => ?_, rfl⟩
  · by_cases hq : q = p
    · subst hq
      dsimp only
      rw [Function.update_self]
      exact hr
    · dsimp only
      rw [Function.update_of_ne hq]
      exact h.ready q
  · by_cases hq : q = p
    · subst hq
      dsimp only
      rw [Function.update_self, Function.update_self]
      exact hbuf
    · dsimp only
      rw [Function.update_of_ne hq, Function.update_of_ne hq]
      exact h.buf q
  · by_cases hq : q = p
    · subst hq
      dsimp only
      rw [Function.update_self, Function.update_self]
      exact hline
    · dsimp only
      rw [Function.update_of_ne hq, Function.update_of_ne hq]
      exact h.line q

/-! ## The answer -/

/-- The port after `eMBPoll` has answered a request. -/
def answering (r : RtuPort) (p : Nat) (addr : UInt8) (answer : (Nat → UInt8) × Nat) : RtuPort :=
  { r with
    ucRTUBuf := overlay (withPdu r.ucRTUBuf answer.1) 0
      (encodeFrame addr (window answer.1 0 answer.2))
    sndOwner := p
    pucSndBufferCur := 0
    usSndBufferCount := 1 + answer.2 + 2
    eSndState := .xmit }

theorem execute_unicast {addr : UInt8} {len : Nat} (hv : s.statics (slot p) = ⟨p, addr, len⟩)
    (haddr : addr ≠ 0) (hidle : (s.port p).eRcvState = .idle) :
    let pdu i := (s.port p).ucRTUBuf (i + 1)
    let out := callHandler xFuncHandlers p pdu len s.g
    let answer := answerPdu (pdu 0) out
    s.execute xFuncHandlers slot p =
      ⟨Function.update s.port p (answering (s.port p) p (s.ucMBAddress p) answer), s.ucMBAddress,
        Function.update s.statics (slot p) ⟨p, addr, answer.2⟩, out.g⟩ := by
  intro pdu out answer
  unfold Stack.execute Stack.setStatics Stack.setPort
  dsimp only
  rw [hv]
  dsimp only
  rw [if_pos haddr, eMBRTUSend_own (by rw [Function.update_self]; exact hidle),
    Function.update_self, Function.update_idem, window_withPdu]
  rfl

theorem execute_broadcast {len : Nat} (hv : s.statics (slot p) = ⟨p, 0, len⟩) :
    let pdu i := (s.port p).ucRTUBuf (i + 1)
    let out := callHandler xFuncHandlers p pdu len s.g
    s.execute xFuncHandlers slot p =
      ⟨Function.update s.port p
          { s.port p with ucRTUBuf := withPdu (s.port p).ucRTUBuf out.pucFrame },
        s.ucMBAddress, Function.update s.statics (slot p) ⟨p, 0, out.usLen⟩, out.g⟩ := by
  intro pdu out
  unfold Stack.execute Stack.setStatics Stack.setPort
  dsimp only
  rw [hv]
  dsimp only
  rw [if_neg (not_not_intro rfl)]

/-- What follows a burst, at a port that waits. -/
theorem run_rest_ready (h : Ready (s.port p)) (k : Nat) :
    s.run xFuncHandlers slot (List.replicate k (p, .txReady) ++ [(p, .poll held)]) = s := by
  rw [run_append, run_txReady_idle h.sndIdle]
  exact eMBPoll_none (funext h.events)

/-- The transmitter empties, and the port waits again. -/
theorem run_rest_answering (xFuncHandlers : List (UInt8 × FuncHandler G)) (slot : Nat → Nat)
    (held : Option MBEvent) {r : RtuPort} (hr : Ready r) {addr : UInt8}
    {answer : (Nat → UInt8) × Nat} (hlen : answer.2 ≤ mbPduSizeMax)
    (hport : s.port p = answering r p addr answer) {k : Nat} (hk : mbSerPduSizeMax < k) :
    ∃ r', Ready r' ∧
      r'.ucRTUBuf = overlay (withPdu r.ucRTUBuf answer.1) 0
        (encodeFrame addr (window answer.1 0 answer.2)) ∧
      r'.line = r.line ++ encodeFrame addr (window answer.1 0 answer.2) ∧
      s.run xFuncHandlers slot (List.replicate k (p, .txReady) ++ [(p, .poll held)]) =
        s.setPort p r' := by
  generalize hframe : encodeFrame addr (window answer.1 0 answer.2) = frame
  have hframeLen : frame.length = 1 + answer.2 + 2 := by
    rw [← hframe, length_encodeFrame, length_window]
    omega
  obtain ⟨j, rfl⟩ : ∃ j, k = (1 + answer.2 + 2) + 1 + j :=
    Nat.exists_eq_add_of_le (by unfold mbSerPduSizeMax at hk; unfold mbPduSizeMax at hlen; omega)
  have hall := transmit_all j (1 + answer.2 + 2) (r := answering r p addr answer) hr.rcvIdle rfl rfl
  have hsent : window (answering r p addr answer).ucRTUBuf 0 (1 + answer.2 + 2) = frame := by
    unfold answering
    rw [hframe, ← hframeLen]
    exact window_overlay (withPdu r.ucRTUBuf answer.1) 0 frame
  have hevents : r.events = fun _ => false := funext hr.events
  rw [run_append, run_txReady (by rw [hport]; rfl), hport, hall]
  refine ⟨{ answering r p addr answer with
      line := r.line ++ frame
      pucSndBufferCur := 0 + (1 + answer.2 + 2)
      usSndBufferCount := 0
      eSndState := .idle
      events := fun _ => false }, ⟨hr.rcvIdle, rfl, hr.timer, fun _ => rfl⟩, ?_, rfl, ?_⟩
  · rw [← hframe]
    rfl
  · refine (eMBPoll_one (e := .frameSent) ?_).trans ?_
    · rw [port_setPort_self]
      show Function.update r.events _ _ = _
      rw [hevents]
    · show (s.setPort p _).clearEvents p = _
      unfold Stack.clearEvents
      rw [setPort_setPort, port_setPort_self]
      congr 1
      dsimp only
      rw [← hsent]
      rfl

/-! ## Runs -/

theorem callHandler_fits (xFuncHandlers : List (UInt8 × FuncHandler G)) (p : Nat)
    (pdu : Nat → UInt8) {len : Nat} (g : G) (h : len ≤ mbPduSizeMax) :
    (callHandler xFuncHandlers p pdu len g).usLen ≤ mbPduSizeMax := by
  unfold callHandler
  split
  · next pxHandler _ => exact pxHandler.fits p pdu len g h
  · exact h

theorem answerPdu_fits (code : UInt8) {out : FuncReply G} (h : out.usLen ≤ mbPduSizeMax) :
    (answerPdu code out).2 ≤ mbPduSizeMax := by
  unfold answerPdu
  split
  · exact Nat.le_of_ble_eq_true rfl
  · exact h

/-- A port that waits again, with another buffer. -/
theorem Serving.quiet {v : Server G} (h : Serving v s) {r : RtuPort} {buf : Nat → UInt8}
    (g : G) (statics : Nat → Statics) (hr : Ready r) (hbuf : r.ucRTUBuf = buf)
    (hline : r.line = (s.port p).line) :
    Serving { v with buf := Function.update v.buf p buf, g := g }
      ⟨Function.update s.port p r, s.ucMBAddress, statics, g⟩ := by
  have hupdate := h.update (p := p) g statics hr hbuf (hline.trans (h.line p))
  rw [Function.update_eq_self] at hupdate
  exact hupdate

theorem run_burst_eq (k : Nat) (bytes : List UInt8) :
    s.run xFuncHandlers slot (burstEvents held k (p, bytes)) =
      (((s.setPort p ((s.port p).received bytes)).eMBPoll xFuncHandlers slot held p).eMBPoll
        xFuncHandlers slot held p).run xFuncHandlers slot
          (List.replicate k (p, .txReady) ++ [(p, .poll held)]) := by
  have hevents : burstEvents held k (p, bytes) =
      (bytes.map (fun b => (p, PortEvent.byte b)) ++ [(p, .silence)]) ++
        ([(p, .poll held), (p, .poll held)] ++
          (List.replicate k (p, .txReady) ++ [(p, .poll held)])) := by
    unfold burstEvents
    simp only [List.append_assoc, List.cons_append, List.nil_append]
  rw [hevents, run_append, run_received, run_append]
  rfl

/-- A request that the port takes. -/
theorem serving_answer {v : Server G} (h : Serving v s) {k : Nat} (hk : mbSerPduSizeMax < k)
    {r : RtuPort} (hr : Ready r) (hline : r.line = (s.port p).line) {addr : UInt8} {len : Nat}
    (hlen : len ≤ mbPduSizeMax) :
    Serving
      (Server.answer xFuncHandlers { v with buf := Function.update v.buf p r.ucRTUBuf } p addr len)
      ((Stack.execute xFuncHandlers slot
        ⟨Function.update s.port p r, s.ucMBAddress,
          Function.update s.statics (slot p) ⟨p, addr, len⟩, s.g⟩ p).run xFuncHandlers slot
            (List.replicate k (p, .txReady) ++ [(p, .poll held)])) := by
  have hport : Function.update s.port p r p = r := Function.update_self ..
  have hbuf : Function.update v.buf p r.ucRTUBuf p = r.ucRTUBuf := Function.update_self ..
  unfold Server.answer
  dsimp only
  rw [hbuf, h.g, Function.update_idem]
  by_cases haddr : addr = 0
  · subst haddr
    rw [if_neg (not_not_intro rfl), execute_broadcast (Function.update_self ..)]
    dsimp only
    rw [hport, Function.update_idem, Function.update_idem]
    rw [run_rest_ready]
    · exact h.quiet _ _ ⟨hr.rcvIdle, hr.sndIdle, hr.timer, hr.events⟩ rfl hline
    · dsimp only
      rw [Function.update_self]
      exact ⟨hr.rcvIdle, hr.sndIdle, hr.timer, hr.events⟩
  · have hrcv : (Function.update s.port p r p).eRcvState = .idle := by
      rw [hport]
      exact hr.rcvIdle
    have hfits := answerPdu_fits (r.ucRTUBuf (0 + 1))
      (callHandler_fits xFuncHandlers p (fun i => r.ucRTUBuf (i + 1)) s.g hlen)
    rw [if_pos haddr, execute_unicast (Function.update_self ..) haddr hrcv]
    dsimp only
    rw [hport, Function.update_idem, Function.update_idem]
    generalize callHandler xFuncHandlers p (fun i => r.ucRTUBuf (i + 1)) len s.g = out at hfits ⊢
    generalize answerPdu (r.ucRTUBuf (0 + 1)) out = answer at hfits ⊢
    generalize Function.update s.statics (slot p) ⟨p, addr, answer.2⟩ = statics
    obtain ⟨r', hr', hbuf', hline', hrun⟩ := run_rest_answering xFuncHandlers slot held
      (s := ⟨Function.update s.port p (answering r p (s.ucMBAddress p) answer), s.ucMBAddress,
        statics, out.g⟩) hr hfits (Function.update_self ..) hk
    rw [hrun]
    unfold Stack.setPort
    dsimp only
    rw [Function.update_idem, congrFun h.addr p, ← h.line p, ← hline]
    exact h.update _ _ hr' hbuf' hline'

/-- The flag of a frame that is no frame, or is for another slave. -/
theorem frameReceived_none (h : eMBRTUReceive (s.port p) = none) : s.frameReceived slot p = s := by
  unfold Stack.frameReceived
  rw [h]

theorem frameReceived_foreign {addr : UInt8} {len : Nat}
    (h : eMBRTUReceive (s.port p) = some (addr, len))
    (haddr : ¬ (addr = s.ucMBAddress p ∨ addr = 0)) :
    s.frameReceived slot p = s.setStatics (slot p) ⟨p, addr, len⟩ := by
  unfold Stack.frameReceived
  rw [h]
  exact if_neg haddr

theorem frameReceived_ours {addr : UInt8} {len : Nat}
    (h : eMBRTUReceive (s.port p) = some (addr, len))
    (haddr : addr = s.ucMBAddress p ∨ addr = 0) :
    s.frameReceived slot p =
      (s.setStatics (slot p) ⟨p, addr, len⟩).setPort p ((s.port p).post .execute) := by
  unfold Stack.frameReceived
  rw [h]
  exact if_pos haddr

/-- A burst at a port. -/
theorem serving_burst {v : Server G} (h : Serving v s) {k : Nat} (hk : mbSerPduSizeMax < k)
    (burst : Nat × List UInt8) :
    Serving (v.serve xFuncHandlers burst) (s.run xFuncHandlers slot (burstEvents held k burst)) := by
  obtain ⟨p, bytes⟩ := burst
  rw [run_burst_eq]
  have hheard := heard_received (h.ready p) bytes
  generalize (s.port p).received bytes = r at hheard ⊢
  have hbuf : overlay (v.buf p) 0 (bytes.take mbSerPduSizeMax) = r.ucRTUBuf := by
    rw [hheard.buf, h.buf]
  -- a port that has nothing to do, whatever the variables hold
  have hidle : ∀ {r' : RtuPort} {s' : Stack G}, Ready r' → s'.port p = r' →
      (s'.eMBPoll xFuncHandlers slot held p).run xFuncHandlers slot
        (List.replicate k (p, .txReady) ++ [(p, .poll held)]) = s' := by
    intro r' s' hr' hport
    rw [← hport] at hr'
    rw [eMBPoll_none (funext hr'.events)]
    exact run_rest_ready hr' k
  have hquiet : ∀ {r' : RtuPort} (statics : Nat → Statics), Ready r' → r'.ucRTUBuf = r.ucRTUBuf →
      r'.line = r.line →
      Serving { v with buf := Function.update v.buf p r.ucRTUBuf }
        ⟨Function.update s.port p r', s.ucMBAddress, statics, s.g⟩ := by
    intro r' statics hr' hbuf' hline'
    have hquiet := h.quiet s.g statics hr' hbuf' (hline'.trans hheard.line)
    rw [← h.g] at hquiet ⊢
    exact hquiet
  unfold Server.serve
  dsimp only
  rw [hbuf]
  rcases hheard.frame with ⟨hevents, hnone⟩ | ⟨hevents, hrcv⟩
  · -- no frame is told of
    have hready : Ready r := ⟨hheard.rcvIdle, hheard.sndIdle, hheard.timer, congrFun hevents⟩
    have hpoll : (s.setPort p r).eMBPoll xFuncHandlers slot held p = s.setPort p r :=
      eMBPoll_none (by rw [port_setPort_self]; exact hevents)
    rw [hpoll, hidle hready (port_setPort_self ..), hnone]
    exact hquiet s.statics hready rfl rfl
  · let r' : RtuPort := { r with events := fun _ => false }
    have hready : Ready r' := ⟨hheard.rcvIdle, hheard.sndIdle, hheard.timer, fun _ => rfl⟩
    have hpoll : (s.setPort p r).eMBPoll xFuncHandlers slot held p =
        (s.setPort p r').frameReceived slot p := by
      rw [eMBPoll_one (e := .frameReceived) (by rw [port_setPort_self]; exact hevents)]
      unfold Stack.clearEvents
      rw [setPort_setPort, port_setPort_self]
      rfl
    rw [hpoll]
    have hport : (s.setPort p r').port p = r' := port_setPort_self ..
    rw [show eMBRTUReceive r = eMBRTUReceive r' from rfl, ← hport] at hrcv
    generalize hframe : (if bytes.length ≤ mbSerPduSizeMax then decodeFrame bytes else none) = frame
      at hrcv ⊢
    cases frame with
    | none =>
      rw [frameReceived_none hrcv, hidle hready (port_setPort_self ..)]
      exact hquiet s.statics hready rfl rfl
    | some x =>
      obtain ⟨addr, pdu⟩ := x
      rw [Option.map_some] at hrcv
      dsimp only at hrcv ⊢
      have hlen : pdu.length ≤ mbPduSizeMax := by
        split at hframe
        · next hfit =>
          unfold mbSerPduSizeMax at hfit
          have hbytes := ((decodeFrame_eq_some_iff (by omega)).mp hframe).1
          rw [hbytes, length_encodeFrame] at hfit
          unfold mbPduSizeMax
          omega
        · exact absurd hframe (by simp)
      rw [congrFun h.addr p]
      by_cases haddr : addr = s.ucMBAddress p ∨ addr = 0
      · rw [if_pos haddr, frameReceived_ours hrcv haddr,
          eMBPoll_one (e := .execute) (by
            rw [port_setPort_self, port_setPort_self]
            rfl)]
        have hclear : (((s.setPort p r').setStatics (slot p) ⟨p, addr, pdu.length⟩).setPort p
            (((s.setPort p r').port p).post .execute)).clearEvents p =
              ⟨Function.update s.port p r', s.ucMBAddress,
                Function.update s.statics (slot p) ⟨p, addr, pdu.length⟩, s.g⟩ := by
          unfold Stack.clearEvents
          rw [setPort_setPort, port_setPort_self, port_setPort_self]
          unfold Stack.setStatics Stack.setPort
          dsimp only
          rw [Function.update_idem]
          rfl
        rw [hclear]
        exact serving_answer h hk hready hheard.line hlen
      · rw [if_neg haddr, frameReceived_foreign hrcv haddr, hidle hready (by exact hport)]
        exact hquiet _ hready rfl rfl

theorem serving_bursts (xFuncHandlers : List (UInt8 × FuncHandler G)) (slot : Nat → Nat)
    (held : Option MBEvent) {k : Nat} (hk : mbSerPduSizeMax < k) {v : Server G} {s : Stack G}
    (h : Serving v s) (bursts : List (Nat × List UInt8)) :
    Serving (bursts.foldl (Server.serve xFuncHandlers) v)
      (s.run xFuncHandlers slot (bursts.flatMap (burstEvents held k))) := by
  induction bursts generalizing v s with
  | nil => exact h
  | cons burst bursts ih =>
    rw [List.flatMap_cons, run_append, List.foldl_cons]
    exact ih (serving_burst h hk burst)

/-- The server that has what the ports have. -/
theorem serving_self {s : Stack G} (hready : ∀ p, Ready (s.port p)) :
    Serving ⟨s.ucMBAddress, fun p => (s.port p).ucRTUBuf, fun p => (s.port p).line, s.g⟩ s :=
  ⟨hready, rfl, fun _ => rfl, fun _ => rfl, rfl⟩

/-- The slaves answer every request before the next one, whether their variables are shared or
    not. -/
theorem run_bursts (xFuncHandlers : List (UInt8 × FuncHandler G)) (slot : Nat → Nat)
    (held : Option MBEvent) {k : Nat} (hk : mbSerPduSizeMax < k) {s : Stack G}
    (hready : ∀ p, Ready (s.port p)) (bursts : List (Nat × List UInt8)) :
    let v : Server G :=
      ⟨s.ucMBAddress, fun p => (s.port p).ucRTUBuf, fun p => (s.port p).line, s.g⟩
    let v' := bursts.foldl (Server.serve xFuncHandlers) v
    let s' := s.run xFuncHandlers slot (bursts.flatMap (burstEvents held k))
    s'.g = v'.g ∧
      ∀ p, Ready (s'.port p) ∧ (s'.port p).line = v'.line p ∧ (s'.port p).ucRTUBuf = v'.buf p := by
  intro v v' s'
  have hserving : Serving v' s' :=
    serving_bursts xFuncHandlers slot held hk (serving_self hready) bursts
  exact ⟨hserving.g.symm, fun p => ⟨hserving.ready p, hserving.line p, hserving.buf p⟩⟩

/-- Two slaves, a request to each and a burst for none of them. -/
theorem run_bursts_three :
    let count : FuncHandler Nat :=
      ⟨fun _ pdu _ g => ⟨.none, pdu, 2, g + 1⟩, fun _ _ _ _ _ => Nat.le_of_ble_eq_true rfl⟩
    let s : Stack Nat := ⟨fun _ => idlePort, fun _ => 1, fun _ => ⟨0, 0, 0⟩, 0⟩
    let bursts := [(0, encodeFrame 1 [3, 7]), (1, [1, 2, 3]), (1, encodeFrame 1 [3, 8])]
    let v' := bursts.foldl (Server.serve [(3, count)])
      ⟨s.ucMBAddress, fun p => (s.port p).ucRTUBuf, fun p => (s.port p).line, s.g⟩
    let s' := s.run [(3, count)] shared (bursts.flatMap (burstEvents none 257))
    mbSerPduSizeMax < 257 ∧ s'.g = v'.g ∧
      ∀ p, Ready (s'.port p) ∧ (s'.port p).line = v'.line p ∧ (s'.port p).ucRTUBuf = v'.buf p := by
  intro count s bursts v' s'
  have hbuf : mbSerPduSizeMax < 257 := by decide
  have hready : ∀ p, Ready (s.port p) := fun _ => ready_idlePort
  clear_value count s bursts
  exact ⟨hbuf, run_bursts (s := s) [(3, count)] shared none hbuf hready bursts⟩

end K64Gateway.Modbus
