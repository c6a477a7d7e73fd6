import K64Gateway.Lib.Window
import K64Gateway.Modbus.RtuFrame

/-
  A port of Modbus RTU, `modbus/rtu/mbrtu.c` of freemodbus: the receiver that gathers bytes until
  the line is silent for three and a half characters, the transmitter, and the flags that tell the
  thread of the port what has happened (`port/portevent.c`).

  Proved: a burst leaves its bytes in the buffer and tells of a frame if they fit (`received_eq`),
  it is taken for the frame that it is (`eMBRTUReceive_eq`), and the transmitter puts on the line
  what it was given (`transmit_all`), which is the frame of the PDU (`window_send`).
-/

namespace K64Gateway.Modbus

open Window MbCrc

/-! ## The port -/

/-- `eMBRcvState` -/
inductive RcvState where
  | init
  | idle
  | rcv
  | error
deriving DecidableEq

/-- `eMBSndState` -/
inductive SndState where
  | idle
  | xmit
deriving DecidableEq

/-- `eMBEventType` -/
inductive MBEvent where
  | ready
  | frameReceived
  | execute
  | frameSent
deriving DecidableEq

/-- The variables of a port. `pucSndBufferCur` points into the buffer of the port `sndOwner`; `line`
    is what was put on the line. -/
structure RtuPort where
  eRcvState : RcvState
  eSndState : SndState
  ucRTUBuf : Nat → UInt8
  usRcvBufferPos : Nat
  sndOwner : Nat
  pucSndBufferCur : Nat
  usSndBufferCount : Nat
  timer : Bool
  events : MBEvent → Bool
  line : List UInt8

/-- `xMBPortEventPost` -/
def RtuPort.post (r : RtuPort) (e : MBEvent) : RtuPort :=
  { r with events := Function.update r.events e true }

/-- `xMBRTUReceiveFSM`, with the byte that the line has. -/
def xMBRTUReceiveFSM (r : RtuPort) (ucByte : UInt8) : RtuPort :=
  if r.eSndState ≠ .idle then r
  else
    match r.eRcvState with
    | .init => { r with timer := true }
    | .error => { r with timer := true }
    | .idle =>
        { r with
          ucRTUBuf := Function.update r.ucRTUBuf 0 ucByte
          usRcvBufferPos := 1
          eRcvState := .rcv
          timer := true }
    | .rcv =>
        if r.usRcvBufferPos < mbSerPduSizeMax then
          { r with
            ucRTUBuf := Function.update r.ucRTUBuf r.usRcvBufferPos ucByte
            usRcvBufferPos := r.usRcvBufferPos + 1
            timer := true }
        else { r with eRcvState := .error, timer := true }

/-- `xMBRTUTimerT35Expired` -/
def xMBRTUTimerT35Expired (r : RtuPort) : RtuPort :=
  let r :=
    match r.eRcvState with
    | .init => r.post .ready
    | .rcv => r.post .frameReceived
    | .error => r
    | .idle => r
  { r with eRcvState := .idle, timer := false }

/-- The timer runs out, if it runs. -/
def RtuPort.silence (r : RtuPort) : RtuPort :=
  if r.timer then xMBRTUTimerT35Expired r else r

/-- `eMBRTUReceive`, with the address and the length of the PDU, which begins at index 1. -/
def eMBRTUReceive (r : RtuPort) : Option (UInt8 × Nat) :=
  if mbSerPduSizeMin ≤ r.usRcvBufferPos ∧
      usMBCRC16 (window r.ucRTUBuf 0 r.usRcvBufferPos) (UInt16.ofNat r.usRcvBufferPos) = 0 then
    some (r.ucRTUBuf 0, r.usRcvBufferPos - 3)
  else none

/-- A receiver that waits for nothing is set idle. -/
def setIdle (ports : Nat → RtuPort) (p : Nat) : Nat → RtuPort :=
  if (ports p).eRcvState ≠ .idle ∧ (ports p).timer = false then
    Function.update ports p { ports p with eRcvState := .idle }
  else ports

/-- The address goes before the PDU, in the buffer of the port `owner`; the check goes into the
    buffer of `p`. -/
def loadFrame (ports : Nat → RtuPort) (p : Nat) (ucSlaveAddress : UInt8) (owner usLength : Nat) :
    Nat → RtuPort :=
  let ports := Function.update ports owner
    { ports owner with ucRTUBuf := Function.update (ports owner).ucRTUBuf 0 ucSlaveAddress }
  let usSndBufferCount := 1 + usLength
  let crc := crcBytes (window (ports owner).ucRTUBuf 0 usSndBufferCount)
  Function.update ports p
    { ports p with
      ucRTUBuf := overlay (ports p).ucRTUBuf usSndBufferCount crc
      sndOwner := owner
      pucSndBufferCur := 0
      usSndBufferCount := usSndBufferCount + 2
      eSndState := .xmit }

/-- `eMBRTUSend` on the port `p`, for a PDU in the buffer of the port `owner`. -/
def eMBRTUSend (ports : Nat → RtuPort) (p : Nat) (ucSlaveAddress : UInt8) (owner usLength : Nat) :
    Nat → RtuPort :=
  let ports := setIdle ports p
  if (ports p).eRcvState = .idle then loadFrame ports p ucSlaveAddress owner usLength else ports

/-- `xMBRTUTransmitFSM`, with the buffer that is sent from. -/
def xMBRTUTransmitFSM (buf : Nat → UInt8) (r : RtuPort) : RtuPort :=
  if r.eRcvState ≠ .idle then r
  else
    match r.eSndState with
    | .idle => r
    | .xmit =>
        if r.usSndBufferCount ≠ 0 then
          { r with
            line := r.line ++ [buf r.pucSndBufferCur]
            pucSndBufferCur := r.pucSndBufferCur + 1
            usSndBufferCount := r.usSndBufferCount - 1 }
        else { r.post .frameSent with eSndState := .idle }

/-! ## A burst -/

/-- The port waits for a frame. -/
structure Ready (r : RtuPort) : Prop where
  rcvIdle : r.eRcvState = .idle
  sndIdle : r.eSndState = .idle
  timer : r.timer = false
  events : ∀ e, r.events e = false

/-- A port on whose line nothing has been. -/
def idlePort : RtuPort where
  eRcvState := .idle
  eSndState := .idle
  ucRTUBuf _ := 0
  usRcvBufferPos := 0
  sndOwner := 0
  pucSndBufferCur := 0
  usSndBufferCount := 0
  timer := false
  events _ := false
  line := []

theorem ready_idlePort : Ready idlePort := ⟨rfl, rfl, rfl, fun _ => rfl⟩

/-- A port that was ready, after some bytes. -/
structure Gathering (r₀ : RtuPort) (bytes : List UInt8) (r : RtuPort) : Prop where
  buf : r.ucRTUBuf = overlay r₀.ucRTUBuf 0 (bytes.take mbSerPduSizeMax)
  pos : r.usRcvBufferPos = min bytes.length mbSerPduSizeMax
  rcv : r.eRcvState = if bytes.length ≤ mbSerPduSizeMax then .rcv else .error
  sndIdle : r.eSndState = .idle
  timer : r.timer = true
  events : r.events = r₀.events
  line : r.line = r₀.line

theorem receiveFSM_idle {r : RtuPort} (hs : r.eSndState = .idle) (hr : r.eRcvState = .idle)
    (b : UInt8) : xMBRTUReceiveFSM r b =
      { r with
        ucRTUBuf := Function.update r.ucRTUBuf 0 b
        usRcvBufferPos := 1
        eRcvState := .rcv
        timer := true } := by
  unfold xMBRTUReceiveFSM
  rw [if_neg (not_not_intro hs), hr]

theorem receiveFSM_room {r : RtuPort} (hs : r.eSndState = .idle) (hr : r.eRcvState = .rcv)
    (hroom : r.usRcvBufferPos < mbSerPduSizeMax) (b : UInt8) : xMBRTUReceiveFSM r b =
      { r with
        ucRTUBuf := Function.update r.ucRTUBuf r.usRcvBufferPos b
        usRcvBufferPos := r.usRcvBufferPos + 1
        timer := true } := by
  unfold xMBRTUReceiveFSM
  rw [if_neg (not_not_intro hs), hr]
  dsimp only
  rw [if_pos hroom]

theorem receiveFSM_full {r : RtuPort} (hs : r.eSndState = .idle) (hr : r.eRcvState = .rcv)
    (hfull : r.usRcvBufferPos = mbSerPduSizeMax) (b : UInt8) : xMBRTUReceiveFSM r b =
      { r with eRcvState := .error, timer := true } := by
  unfold xMBRTUReceiveFSM
  rw [if_neg (not_not_intro hs), hr]
  dsimp only
  rw [if_neg (by omega)]

theorem receiveFSM_error {r : RtuPort} (hs : r.eSndState = .idle) (hr : r.eRcvState = .error)
    (b : UInt8) : xMBRTUReceiveFSM r b = { r with timer := true } := by
  unfold xMBRTUReceiveFSM
  rw [if_neg (not_not_intro hs), hr]

theorem gathering_first {r : RtuPort} (hr : Ready r) (b : UInt8) :
    Gathering r [b] (xMBRTUReceiveFSM r b) := by
  rw [receiveFSM_idle hr.sndIdle hr.rcvIdle]
  exact
    { buf := (overlay_single _ _ _).symm
      pos := rfl
      rcv := rfl
      sndIdle := hr.sndIdle
      timer := rfl
      events := rfl
      line := rfl }

theorem gathering_next {r₀ r : RtuPort} {bytes : List UInt8} (h : Gathering r₀ bytes r)
    (b : UInt8) : Gathering r₀ (bytes ++ [b]) (xMBRTUReceiveFSM r b) := by
  have hlen : (bytes ++ [b]).length = bytes.length + 1 := List.length_append
  have hrcv := h.rcv
  have hpos := h.pos
  have hbuf := h.buf
  rcases Nat.lt_trichotomy bytes.length mbSerPduSizeMax with hlt | heq | hgt
  · rw [if_pos hlt.le] at hrcv
    rw [Nat.min_eq_left hlt.le] at hpos
    rw [List.take_of_length_le hlt.le] at hbuf
    rw [receiveFSM_room h.sndIdle hrcv (hpos.trans_lt hlt)]
    exact
      { buf := by
          rw [List.take_of_length_le (hlen.trans_le hlt), overlay_append, overlay_single,
            Nat.zero_add, ← hbuf, ← hpos]
        pos := by
          rw [hlen, Nat.min_eq_left hlt, ← hpos]
        rcv := by
          rw [if_pos (hlen.trans_le hlt)]
          exact hrcv
        sndIdle := h.sndIdle
        timer := rfl
        events := h.events
        line := h.line }
  · rw [if_pos heq.le] at hrcv
    rw [Nat.min_eq_left heq.le, heq] at hpos
    rw [receiveFSM_full h.sndIdle hrcv hpos]
    exact
      { buf := by
          rw [List.take_append_of_le_length heq.ge]
          exact hbuf
        pos := by
          rw [hlen, heq, Nat.min_eq_right (Nat.le_succ _)]
          exact hpos
        rcv := by
          rw [if_neg (by omega)]
        sndIdle := h.sndIdle
        timer := rfl
        events := h.events
        line := h.line }
  · rw [if_neg hgt.not_ge] at hrcv
    rw [Nat.min_eq_right hgt.le] at hpos
    rw [receiveFSM_error h.sndIdle hrcv]
    exact
      { buf := by
          rw [List.take_append_of_le_length hgt.le]
          exact hbuf
        pos := by
          rw [hlen, Nat.min_eq_right (by omega)]
          exact hpos
        rcv := by
          rw [if_neg (by omega)]
          exact hrcv
        sndIdle := h.sndIdle
        timer := rfl
        events := h.events
        line := h.line }

theorem gathering_more {r₀ r : RtuPort} {bytes : List UInt8} (more : List UInt8)
    (h : Gathering r₀ bytes r) : Gathering r₀ (bytes ++ more) (more.foldl xMBRTUReceiveFSM r) := by
  induction more generalizing r bytes with
  | nil =>
    rw [List.append_nil]
    exact h
  | cons b more ih =>
    have hnext := ih (gathering_next h b)
    rw [List.append_assoc] at hnext
    exact hnext

/-- The port after a burst and the silence behind it. -/
def RtuPort.received (r : RtuPort) (bytes : List UInt8) : RtuPort :=
  (bytes.foldl xMBRTUReceiveFSM r).silence

/-- A burst leaves its bytes in the buffer, and tells of a frame if they fit into it. -/
theorem received_eq {r : RtuPort} (hr : Ready r) {bytes : List UInt8} (hne : bytes ≠ []) :
    let r' := r.received bytes
    r'.ucRTUBuf = overlay r.ucRTUBuf 0 (bytes.take mbSerPduSizeMax) ∧
      r'.usRcvBufferPos = min bytes.length mbSerPduSizeMax ∧ r'.eRcvState = .idle ∧
      r'.eSndState = .idle ∧ r'.timer = false ∧ r'.line = r.line ∧
      r'.events = if bytes.length ≤ mbSerPduSizeMax then
        Function.update r.events .frameReceived true else r.events := by
  obtain ⟨b, bytes, rfl⟩ := List.exists_cons_of_ne_nil hne
  have h : Gathering r (b :: bytes) ((b :: bytes).foldl xMBRTUReceiveFSM r) :=
    gathering_more bytes (gathering_first hr b)
  generalize hrun : (b :: bytes).foldl xMBRTUReceiveFSM r = r' at h
  intro r''
  have hend : r'' = xMBRTUTimerT35Expired r' := by
    show RtuPort.silence _ = _
    rw [hrun]
    unfold RtuPort.silence
    rw [if_pos h.timer]
  have hrcv := h.rcv
  rw [hend]
  unfold xMBRTUTimerT35Expired
  by_cases hfit : (b :: bytes).length ≤ mbSerPduSizeMax
  · rw [if_pos hfit] at hrcv ⊢
    rw [hrcv]
    refine ⟨h.buf, h.pos, rfl, h.sndIdle, rfl, h.line, ?_⟩
    show Function.update r'.events _ _ = _
    rw [h.events]
  · rw [if_neg hfit] at hrcv ⊢
    rw [hrcv]
    exact ⟨h.buf, h.pos, rfl, h.sndIdle, rfl, h.line, h.events⟩

/-- `eMBRTUReceive` takes a burst as the frame that it is. -/
theorem eMBRTUReceive_eq {r : RtuPort} {bytes : List UInt8}
    (hbuf : window r.ucRTUBuf 0 bytes.length = bytes) (hpos : r.usRcvBufferPos = bytes.length) :
    eMBRTUReceive r = (decodeFrame bytes).map fun x => (x.1, x.2.length) := by
  unfold eMBRTUReceive decodeFrame
  rw [hpos, hbuf]
  split
  · next hok =>
    have hmin : 4 ≤ bytes.length := hok.1
    rw [Option.map_some]
    congr 2
    · obtain ⟨b, rest, rfl⟩ : ∃ b rest, bytes = b :: rest :=
        List.exists_cons_of_ne_nil (List.ne_nil_of_length_pos (by omega))
      rw [List.length_cons, window_cons] at hbuf
      exact (List.cons.inj hbuf).1
    · rw [List.length_take, List.length_drop]
      omega
  · rfl

/-! ## The transmitter -/

/-- The transmitter of a port that sends from its own buffer. -/
def RtuPort.transmit (r : RtuPort) : RtuPort := xMBRTUTransmitFSM r.ucRTUBuf r

theorem transmit_idle {r : RtuPort} (h : r.eSndState = .idle) : r.transmit = r := by
  unfold RtuPort.transmit xMBRTUTransmitFSM
  split
  · rfl
  · rw [h]

theorem transmit_byte {r : RtuPort} (hr : r.eRcvState = .idle) (hs : r.eSndState = .xmit) {n : Nat}
    (hn : r.usSndBufferCount = n + 1) :
    r.transmit =
      { r with
        line := r.line ++ [r.ucRTUBuf r.pucSndBufferCur]
        pucSndBufferCur := r.pucSndBufferCur + 1
        usSndBufferCount := n } := by
  unfold RtuPort.transmit xMBRTUTransmitFSM
  rw [if_neg (not_not_intro hr), hs]
  dsimp only
  rw [if_pos (by omega), hn]
  rfl

theorem transmit_end {r : RtuPort} (hr : r.eRcvState = .idle) (hs : r.eSndState = .xmit)
    (hn : r.usSndBufferCount = 0) : r.transmit = { r.post .frameSent with eSndState := .idle } := by
  unfold RtuPort.transmit xMBRTUTransmitFSM
  rw [if_neg (not_not_intro hr), hs]
  dsimp only
  rw [if_neg (not_not_intro hn)]

/-- The transmitter puts all that is to be sent on the line and stops, however often it is called
    after that. -/
theorem transmit_all (k : Nat) : ∀ (n : Nat) {r : RtuPort}, r.eRcvState = .idle →
    r.eSndState = .xmit → r.usSndBufferCount = n →
    RtuPort.transmit^[n + 1 + k] r =
      { r with
        line := r.line ++ window r.ucRTUBuf r.pucSndBufferCur n
        pucSndBufferCur := r.pucSndBufferCur + n
        usSndBufferCount := 0
        eSndState := .idle
        events := Function.update r.events .frameSent true }
  | 0, r, hr, hs, hn => by
      have hstop : ∀ {r : RtuPort}, r.eSndState = .idle → RtuPort.transmit^[k] r = r := by
        intro r h
        exact Function.iterate_fixed (transmit_idle h) k
      rw [Nat.zero_add, Nat.add_comm, Function.iterate_succ_apply, transmit_end hr hs hn, hstop rfl]
      simp [RtuPort.post, window, hn]
  | n + 1, r, hr, hs, hn => by
      rw [show n + 1 + 1 + k = n + 1 + k + 1 by omega, Function.iterate_succ_apply,
        transmit_byte hr hs hn]
      refine (transmit_all k n (by exact hr) (by exact hs) rfl).trans ?_
      dsimp only
      rw [window_cons, List.append_assoc, List.singleton_append, Nat.add_assoc, Nat.add_comm 1 n]

/-- What `eMBRTUSend` leaves to be sent from its own buffer is the frame of the PDU. -/
theorem window_send (buf : Nat → UInt8) (ucSlaveAddress : UInt8) (usLength : Nat) :
    let buf := Function.update buf 0 ucSlaveAddress
    window (overlay buf (1 + usLength) (crcBytes (window buf 0 (1 + usLength)))) 0
        (1 + usLength + 2) =
      encodeFrame ucSlaveAddress (window buf 1 usLength) := by
  intro buf
  have hfront : window buf 0 (1 + usLength) = ucSlaveAddress :: window buf 1 usLength := by
    rw [Nat.add_comm, window_cons]
    rfl
  have hcheck := window_overlay buf (1 + usLength) (crcBytes (window buf 0 (1 + usLength)))
  rw [length_crcBytes] at hcheck
  rw [window_add, window_overlay_apart (Or.inl (by omega)), Nat.zero_add, hcheck, hfront]
  rfl

end K64Gateway.Modbus
