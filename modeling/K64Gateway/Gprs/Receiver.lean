import Mathlib
import K64Gateway.Lib.CString
import K64Gateway.Lib.TaggedText
import K64Gateway.VarManage.Types

/-
  The receiver of `RTU3/drivers/gprs/gprs_helper.c`: `rt_gprsparse_thread` puts each byte of the
  modem into `s_btRxBuffer`, `prvParseEvt` recognises an event by the first bytes of a line, and
  the event's parser takes the bytes from there on. A received payload is one such event: the
  rest of its header line is the number of bytes, and `prvParseSISR` counts them out.

  What the other parsers store of their lines is left out, and so is the result code of
  `prvParseCode`. Reading in front of the buffer or of the socket list has no result, nor has a
  search for a text in a buffer without a NUL.
-/

namespace K64Gateway.Gprs

open CString TaggedText VarManage

def gprsSocketMax : Nat := 6
def rxBufferSize : Nat := 1400
def gprsEvtSzMin : Nat := 2

/-! ## Events -/

/-- `eGPRS_Evt`, without `GPRS_EVT_IP`, which has no text. -/
inductive Evt where
  | cops
  | csq
  | creg
  | mux
  | siso
  | sisr
  | connect
  | nwtime
  | sendCmd
  | sendOk
  | socketClose
  | sednAck
deriving DecidableEq

/-- `c_xGPRS_EvtList`, in its order. -/
def Evt.list : List Evt :=
  [.cops, .csq, .creg, .mux, .siso, .sisr, .connect, .nwtime, .sendCmd, .sendOk, .socketClose,
    .sednAck]

def Evt.text : Evt → List UInt8
  | .cops => chars ['+', 'C', 'O', 'P', 'S', ':', ' ']
  | .csq => chars ['+', 'C', 'S', 'Q', ':', ' ']
  | .creg => chars ['+', 'C', 'G', 'R', 'E', 'G', ':', ' ']
  | .mux => chars ['+', 'Q', 'I', 'M', 'U', 'X', ':', ' ']
  | .siso => chars ['+', 'Q', 'I', 'S', 'T', 'A', 'T', ':', ' ']
  | .sisr => chars ['+', 'R', 'E', 'C', 'E', 'I', 'V', 'E', ':', ' ']
  | .connect => chars ['0', ',', ' ', 'C', 'O', 'N', 'N', 'E', 'C', 'T', ' ', 'O', 'K']
  | .nwtime => chars ['+', 'C', 'C', 'L', 'K', ':', ' ']
  | .sendCmd => chars ['>', ' ']
  | .sendOk => chars ['S', 'E', 'N', 'D', ' ', 'O', 'K']
  | .socketClose => chars ['0', ',', ' ', 'C', 'L', 'O', 'S', 'E', ' ', 'O', 'K']
  | .sednAck => chars ['+', 'Q', 'I', 'S', 'A', 'C', 'K', ':', ' ']

/-- `btLen` -/
def Evt.len (e : Evt) : Nat := e.text.length

/-! ## The state -/

/-- `GPRS_Socket_t`, as far as the receiver reads it; `uBufsize` is the length of `pInBuffer`. -/
structure Socket where
  pInBuffer : List UInt8
  fits : pInBuffer.length < 4294967296
  /-- `onRecv` is not null -/
  onRecv : Bool

def Socket.put (socket : Socket) (i : Nat) (b : UInt8) : Socket where
  pInBuffer := socket.pInBuffer.set i b
  fits := by
    rw [List.length_set]
    exact socket.fits
  onRecv := socket.onRecv

structure Rx where
  /-- `s_btRxBuffer` -/
  buf : Nat → UInt8
  /-- `s_nRxOffset` -/
  off : Nat
  /-- `s_bRcvEvt` -/
  rcvEvt : Evt → Bool
  /-- `s_bIsEvtParse` -/
  isEvtParse : Evt → Bool
  /-- `s_ulRcvEvtTick` -/
  rcvEvtTick : Evt → UInt32
  /-- the static variables of `prvParseSISR` -/
  nId : Int
  nRemain : Int
  nIndex : Nat
  /-- `s_xSocketList` -/
  sockets : Nat → Socket
  /-- the calls of `onRecv`, with the socket and the bytes -/
  calls : List (Nat × List UInt8)

/-- `prvIsRcvAnyEvt` -/
def Rx.isRcvAnyEvt (s : Rx) : Bool := Evt.list.any s.rcvEvt

/-- `s_btRxBuffer[s_nRxOffset++] = b`, and the start again at the end of the buffer. -/
def Rx.put (s : Rx) (b : UInt8) : Rx :=
  { s with
    buf := Function.update s.buf s.off b
    off := if rxBufferSize ≤ s.off + 1 then 0 else s.off + 1 }

/-- The last two bytes are a carriage return and a line feed. -/
def Rx.crlf (s : Rx) : Bool := s.buf (s.off - 2) == 13 && s.buf (s.off - 1) == 10

/-- The event was taken care of. -/
def Rx.done (s : Rx) (e : Evt) : Rx :=
  { s with
    rcvEvt := Function.update s.rcvEvt e false
    isEvtParse := Function.update s.isEvtParse e true }

/-! ## prvParseEvt -/

/-- `strstr` in the buffer, of which all is searched. -/
def Rx.hasText (s : Rx) (text : List UInt8) : Option Bool :=
  let m := (List.range rxBufferSize).map s.buf
  if (0 : UInt8) ∈ m then some (strstr text (cstr m)).isSome else none

/-- The comparison in `prvParseEvt`. -/
def Rx.isText (s : Rx) : Evt → Option Bool
  | .connect => s.hasText (chars ['C', 'O', 'N', 'N', 'E', 'C', 'T', ' ', 'O', 'K'])
  | .socketClose => s.hasText (chars ['C', 'L', 'O', 'S', 'E', ' ', 'O', 'K'])
  | e => some (decide ((List.range e.len).map s.buf = e.text))

/-- The event was recognised. -/
def Rx.recognise (s : Rx) (e : Evt) (tick : UInt32) : Rx :=
  { s with
    rcvEvt := Function.update s.rcvEvt e true
    isEvtParse := if s.rcvEvt e then s.isEvtParse else Function.update s.isEvtParse e false
    rcvEvtTick := Function.update s.rcvEvtTick e tick }

/-- `prvParseEvt`, over the events that are left. -/
def prvParseEvt (tick : UInt32) : List Evt → Rx → Option Rx
  | [], s => some s
  | e :: es, s =>
      if e.len = s.off then
        (s.isText e).bind fun found =>
          if found then some (s.recognise e tick) else prvParseEvt tick es s
      else prvParseEvt tick es s

/-! ## The parsers -/

/-- `prvParseTimeout` -/
def prvParseTimeout (e : Evt) (ms tick : UInt32) (s : Rx) : Rx :=
  if rtTickFromMillisecond ms < tick - s.rcvEvtTick e then
    { s with
      rcvEvt := Function.update s.rcvEvt e false
      isEvtParse := Function.update s.isEvtParse e false
      off := 0 }
  else s

/-- The parser of an event that is one line, which it ends with a NUL. -/
def parseLine (e : Evt) (tick : UInt32) (s : Rx) : Rx :=
  if e.len < s.off ∧ s.crlf then
    { s.done e with
      buf := Function.update s.buf s.off 0
      off := 0 }
  else prvParseTimeout e 200 tick s

def prvParseCOPS : UInt32 → Rx → Rx := parseLine .cops
def prvParseCSQ : UInt32 → Rx → Rx := parseLine .csq
def prvParseCREG : UInt32 → Rx → Rx := parseLine .creg
def prvParseMux : UInt32 → Rx → Rx := parseLine .mux
def prvParseConnect : UInt32 → Rx → Rx := parseLine .connect
def prvParseClose : UInt32 → Rx → Rx := parseLine .socketClose
def prvParseNWTIME : UInt32 → Rx → Rx := parseLine .nwtime
def prvParseSendAck : UInt32 → Rx → Rx := parseLine .sednAck

def prvParseSendCmd (tick : UInt32) (s : Rx) : Rx :=
  if Evt.sendCmd.len ≤ s.off then { s.done .sendCmd with off := 0 }
  else prvParseTimeout .sendCmd 200 tick s

def prvParseSendOk (tick : UInt32) (s : Rx) : Rx :=
  if Evt.sendOk.len < s.off ∧ s.crlf then { s.done .sendOk with off := 0 }
  else prvParseTimeout .sendOk 200 tick s

def isDelim (b : UInt8) : Bool := b == 13 || b == 10

/-- The buffer behind the `strtok` of `prvParseSISO`: the first delimiter behind a token is
    overwritten, up to the first NUL. -/
def strtokBuf (buf : Nat → UInt8) (off : Nat) : Nat → UInt8 :=
  let n := (cstr ((List.range off).map buf)).length
  fun i => if 0 < i ∧ i < n ∧ isDelim (buf i) ∧ ¬ isDelim (buf (i - 1)) then 0
    else Function.update buf off 0 i

/-- `prvParseSISO`: a line "OK" ends the list. -/
def prvParseSISO (tick : UInt32) (s : Rx) : Rx :=
  if Evt.siso.len < s.off ∧ s.crlf ∧ s.buf (s.off - 4) = 79 ∧ s.buf (s.off - 3) = 75 then
    { s.done .siso with
      buf := strtokBuf s.buf s.off
      off := 0 }
  else prvParseTimeout .siso 200 tick s

/-- `szNum`, from the place `i` down to a blank; `j` of at most ten characters are there. -/
def szNum (buf : Nat → UInt8) : Nat → Nat → List UInt8
  | 0, _ => []
  | i + 1, j =>
      if buf (i + 1) = 32 ∨ 10 ≤ j then [] else buf (i + 1) :: szNum buf i (j + 1)

/-- `szLen`: the same in the order of the line. -/
def szLen (s : Rx) : List UInt8 := (szNum s.buf (s.off - 3) 0).reverse

/-- `atol` -/
def atol (text : List UInt8) : Int := max (-2147483648) (min 2147483647 (atoi text))

/-- The end of the header line: the socket and the number of bytes. -/
def Rx.header (s : Rx) : Rx :=
  let nId : Int := ((s.buf 10).toNat : Int) - 48
  if nId < gprsSocketMax then
    let nRemain := atol (szLen s)
    let s' := if nRemain ≤ 0 then s.done .sisr else s
    { s' with
      nId := nId
      nRemain := nRemain
      nIndex := 0
      off := 0 }
  else
    { s with
      nId := nId
      off := 0 }

/-- `pInBuffer[nIndex++] = s_btRxBuffer[s_nRxOffset - 1]`, as long as there is room. -/
def Rx.store (s : Rx) : Option Rx :=
  let id := s.nId.toNat
  if s.nIndex < (s.sockets id).pInBuffer.length then
    if s.off = 0 then none
    else
      some
        { s with
          sockets := Function.update s.sockets id
            ((s.sockets id).put s.nIndex (s.buf (s.off - 1)))
          nIndex := s.nIndex + 1 }
  else some s

/-- `--nRemain`, and the call of `onRecv` behind the last byte. -/
def Rx.countDown (s : Rx) : Rx :=
  if s.nRemain - 1 ≤ 0 then
    let id := s.nId.toNat
    { s.done .sisr with
      nRemain := s.nRemain - 1
      calls := if (s.sockets id).onRecv
        then s.calls ++ [(id, (s.sockets id).pInBuffer.take s.nIndex)] else s.calls }
  else { s with nRemain := s.nRemain - 1 }

def prvParseSISR (tick : UInt32) (s : Rx) : Option Rx :=
  if Evt.sisr.len ≤ s.off ∧ s.crlf then some s.header
  else if 0 < s.nRemain ∧ s.nId < gprsSocketMax then
    if s.nId < 0 then none
    else s.store.map fun s' => prvParseTimeout .sisr 1000 tick s'.countDown
  else some (prvParseTimeout .sisr 1000 tick s)

def parse (tick : UInt32) (s : Rx) : Evt → Option Rx
  | .cops => some (prvParseCOPS tick s)
  | .csq => some (prvParseCSQ tick s)
  | .creg => some (prvParseCREG tick s)
  | .mux => some (prvParseMux tick s)
  | .siso => some (prvParseSISO tick s)
  | .sisr => prvParseSISR tick s
  | .connect => some (prvParseConnect tick s)
  | .nwtime => some (prvParseNWTIME tick s)
  | .sendCmd => some (prvParseSendCmd tick s)
  | .sendOk => some (prvParseSendOk tick s)
  | .socketClose => some (prvParseClose tick s)
  | .sednAck => some (prvParseSendAck tick s)

/-! ## rt_gprsparse_thread -/

/-- The order in which the thread tries the parsers. -/
def parseOrder : List Evt :=
  [.cops, .csq, .creg, .sendCmd, .sendOk, .sednAck, .mux, .siso, .connect, .socketClose, .sisr,
    .nwtime]

/-- The parser of `^SISR` stands between those before it and that of the network time. -/
theorem parseOrder_split : parseOrder =
    ([.cops, .csq, .creg, .sendCmd, .sendOk, .sednAck, .mux, .siso, .connect, .socketClose] :
      List Evt) ++ (.sisr :: [.nwtime]) := by
  simp only [parseOrder, List.cons_append, List.nil_append]

def parseIf (tick : UInt32) (s : Rx) (e : Evt) : Option Rx :=
  if s.rcvEvt e && !s.isEvtParse e then parse tick s e else some s

/-- The end of a line that is no event. -/
def endLine (s : Rx) : Rx :=
  if !s.isRcvAnyEvt && (decide (1 < s.off) && s.crlf) then { s with off := 0 } else s

/-- What the thread does with a byte. -/
def onByte (s : Rx) (b : UInt8) (tick : UInt32) : Option Rx :=
  let s := s.put b
  let found :=
    if !s.isRcvAnyEvt && decide (gprsEvtSzMin ≤ s.off) then prvParseEvt tick Evt.list s else some s
  (found.bind fun s => parseOrder.foldlM (parseIf tick) s).map endLine

/-- Bytes one behind the other, each with the tick at which it is handled. -/
def onBytes (s : Rx) : List (UInt8 × UInt32) → Option Rx
  | [] => some s
  | (b, tick) :: rest => (onByte s b tick).bind fun s => onBytes s rest

theorem onBytes_append (xs ys : List (UInt8 × UInt32)) : ∀ s : Rx,
    onBytes s (xs ++ ys) = (onBytes s xs).bind fun s' => onBytes s' ys := by
  induction xs with
  | nil => exact fun _ => rfl
  | cons x xs ih =>
    intro s
    rw [List.cons_append, onBytes, onBytes, Option.bind_assoc]
    congr 1
    funext s'
    exact ih s'

/-! ## What the parsers leave alone -/

/-- The parser of the event `e` leaves the receiving of a payload alone, and the line, unless it
    starts a new one. -/
structure Untouched (e : Evt) (s s' : Rx) : Prop where
  nId : s'.nId = s.nId
  nRemain : s'.nRemain = s.nRemain
  nIndex : s'.nIndex = s.nIndex
  sockets : s'.sockets = s.sockets
  calls : s'.calls = s.calls
  rcvEvt : ∀ e' ≠ e, s'.rcvEvt e' = s.rcvEvt e'
  line : s'.off = 0 ∨ s'.off = s.off ∧ s'.buf = s.buf

theorem Untouched.refl (e : Evt) (s : Rx) : Untouched e s s :=
  ⟨rfl, rfl, rfl, rfl, rfl, fun _ _ => rfl, Or.inr ⟨rfl, rfl⟩⟩

theorem untouched_timeout (e : Evt) (ms tick : UInt32) (s : Rx) :
    Untouched e s (prvParseTimeout e ms tick s) := by
  unfold prvParseTimeout
  split
  · exact ⟨rfl, rfl, rfl, rfl, rfl, fun e' he => Function.update_of_ne he _ _, Or.inl rfl⟩
  · exact Untouched.refl e s

theorem untouched_parseLine (e : Evt) (tick : UInt32) (s : Rx) :
    Untouched e s (parseLine e tick s) := by
  unfold parseLine
  split
  · exact ⟨rfl, rfl, rfl, rfl, rfl, fun e' he => Function.update_of_ne he _ _, Or.inl rfl⟩
  · exact untouched_timeout e 200 tick s

theorem untouched_parse {e : Evt} (he : e ≠ .sisr) {tick : UInt32} {s s' : Rx}
    (h : parse tick s e = some s') : Untouched e s s' := by
  cases e with
  | sisr => exact absurd rfl he
  | siso =>
    obtain rfl := Option.some.inj h
    unfold prvParseSISO
    split
    · exact ⟨rfl, rfl, rfl, rfl, rfl, fun e' he => Function.update_of_ne he _ _, Or.inl rfl⟩
    · exact untouched_timeout .siso 200 tick s
  | sendCmd =>
    obtain rfl := Option.some.inj h
    unfold prvParseSendCmd
    split
    · exact ⟨rfl, rfl, rfl, rfl, rfl, fun e' he => Function.update_of_ne he _ _, Or.inl rfl⟩
    · exact untouched_timeout .sendCmd 200 tick s
  | sendOk =>
    obtain rfl := Option.some.inj h
    unfold prvParseSendOk
    split
    · exact ⟨rfl, rfl, rfl, rfl, rfl, fun e' he => Function.update_of_ne he _ _, Or.inl rfl⟩
    · exact untouched_timeout .sendOk 200 tick s
  | cops => exact Option.some.inj h ▸ untouched_parseLine .cops tick s
  | csq => exact Option.some.inj h ▸ untouched_parseLine .csq tick s
  | creg => exact Option.some.inj h ▸ untouched_parseLine .creg tick s
  | mux => exact Option.some.inj h ▸ untouched_parseLine .mux tick s
  | connect => exact Option.some.inj h ▸ untouched_parseLine .connect tick s
  | nwtime => exact Option.some.inj h ▸ untouched_parseLine .nwtime tick s
  | socketClose => exact Option.some.inj h ▸ untouched_parseLine .socketClose tick s
  | sednAck => exact Option.some.inj h ▸ untouched_parseLine .sednAck tick s

theorem rcvEvt_header (s : Rx) {e : Evt} (he : e ≠ .sisr) : s.header.rcvEvt e = s.rcvEvt e := by
  unfold Rx.header
  dsimp only
  split
  · split
    · exact Function.update_of_ne he _ _
    · rfl
  · rfl

theorem rcvEvt_store {s s' : Rx} (h : s.store = some s') : s'.rcvEvt = s.rcvEvt := by
  unfold Rx.store at h
  dsimp only at h
  split at h
  · split at h
    · exact absurd h (Option.some_ne_none s').symm
    · rw [← Option.some.inj h]
  · rw [← Option.some.inj h]

theorem rcvEvt_countDown (s : Rx) {e : Evt} (he : e ≠ .sisr) :
    s.countDown.rcvEvt e = s.rcvEvt e := by
  unfold Rx.countDown
  split
  · exact Function.update_of_ne he _ _
  · rfl

/-- The parser of a payload does not touch the other events. -/
theorem rcvEvt_prvParseSISR {tick : UInt32} {s s' : Rx} (h : prvParseSISR tick s = some s')
    {e : Evt} (he : e ≠ .sisr) : s'.rcvEvt e = s.rcvEvt e := by
  unfold prvParseSISR at h
  split at h
  · rw [← Option.some.inj h]
    exact rcvEvt_header s he
  · split at h
    · split at h
      · exact absurd h (Option.some_ne_none s').symm
      · obtain ⟨t, ht, rfl⟩ := Option.map_eq_some_iff.mp h
        rw [(untouched_timeout .sisr 1000 tick _).rcvEvt e he, rcvEvt_countDown t he,
          rcvEvt_store ht]
    · rw [← Option.some.inj h]
      exact (untouched_timeout .sisr 1000 tick s).rcvEvt e he

/-! ## A byte while a payload is received -/

/-- A payload or its header is received, and no other event. -/
def Receiving (s : Rx) : Prop :=
  (∀ e, s.rcvEvt e = decide (e = .sisr)) ∧ s.isEvtParse .sisr = false

theorem foldlM_parseIf_skip {tick : UInt32} {s : Rx} : ∀ {es : List Evt},
    (∀ e ∈ es, s.rcvEvt e = false) → es.foldlM (parseIf tick) s = some s
  | [], _ => rfl
  | e :: es, h => by
      have he : parseIf tick s e = some s := by
        simp [parseIf, h e List.mem_cons_self]
      rw [List.foldlM_cons, he]
      exact foldlM_parseIf_skip fun e' he' => h e' (List.mem_cons_of_mem e he')

theorem isRcvAnyEvt_of_rcvEvt {s : Rx} {e : Evt} (h : s.rcvEvt e = true) :
    s.isRcvAnyEvt = true := by
  unfold Rx.isRcvAnyEvt
  rw [List.any_eq_true]
  refine ⟨e, ?_, h⟩
  cases e <;> decide

theorem isRcvAnyEvt_eq_false {s : Rx} (h : ∀ e, s.rcvEvt e = false) : s.isRcvAnyEvt = false := by
  unfold Rx.isRcvAnyEvt
  rw [List.any_eq_false]
  intro e _
  rw [h e]
  exact Bool.false_ne_true

/-- While a payload is received, its parser gets each byte and no other does. -/
theorem onByte_receiving {s : Rx} (h : Receiving s) (b : UInt8) (tick : UInt32) :
    onByte s b tick = (prvParseSISR tick (s.put b)).map endLine := by
  have hany : (s.put b).isRcvAnyEvt = true := isRcvAnyEvt_of_rcvEvt (h.1 .sisr)
  unfold onByte
  dsimp only
  rw [if_neg (by simp [hany]), Option.bind_some, parseOrder_split, List.foldlM_append,
    foldlM_parseIf_skip]
  · have hsisr : parseIf tick (s.put b) .sisr = prvParseSISR tick (s.put b) := by
      have hrcv : (s.put b).rcvEvt .sisr = true := h.1 .sisr
      have hparse : (s.put b).isEvtParse .sisr = false := h.2
      simp [parseIf, hrcv, hparse, parse]
    congr 1
    show (List.foldlM (parseIf tick) (s.put b) [.sisr, .nwtime]) = _
    rw [List.foldlM_cons, hsisr]
    cases hout : prvParseSISR tick (s.put b) with
    | none => rfl
    | some s' =>
      apply foldlM_parseIf_skip
      intro e he
      rw [List.mem_singleton] at he
      rw [he, rcvEvt_prvParseSISR hout (by decide)]
      exact h.1 .nwtime
  · intro e he
    have hne : e ≠ .sisr := by
      rintro rfl
      exact absurd he (by decide)
    exact (h.1 e).trans (decide_eq_false hne)

end K64Gateway.Gprs
