import K64Gateway.Modbus.SlaveFuncs

/-
  What a master on a line sees of the slaves.

  Proved: over any bursts, a slave answers each request to its address with one frame, which repeats
  the code of the function or is an exception, and puts nothing else on its line (`run_answers`).
-/

namespace K64Gateway.Modbus

open Window MbCrc

variable {G V : Type}

/-! ## Requests and answers -/

/-- The request to the slave `addr` that a burst is. -/
def requestOf (addr : UInt8) (bytes : List UInt8) : Option (List UInt8) :=
  match if bytes.length ≤ mbSerPduSizeMax then decodeFrame bytes else none with
  | none => none
  | some (a, pdu) => if a = addr then some pdu else none

/-- The requests to the slave of the port `p`. -/
def requestsOf (addr : UInt8) (p : Nat) (bursts : List (Nat × List UInt8)) : List (List UInt8) :=
  bursts.filterMap fun burst => if burst.1 = p then requestOf addr burst.2 else none

/-- A frame that answers a request. -/
structure IsAnswer (addr : UInt8) (pdu frame : List UInt8) : Prop where
  reply : ∃ reply, frame = encodeFrame addr reply ∧ 0 < reply.length ∧
    reply.length ≤ mbPduSizeMax ∧
      (reply.head? = pdu.head? ∨ ∃ e : MBException, reply = [pdu.headD 0 ||| 128, e.code])

/-- Where the PDU of a frame stands in the buffer. -/
theorem window_pdu (mem : Nat → UInt8) (addr : UInt8) (pdu : List UInt8) :
    window (overlay mem 0 (encodeFrame addr pdu)) 1 pdu.length = pdu := by
  have hall := window_overlay mem 0 (encodeFrame addr pdu)
  rw [length_encodeFrame, show pdu.length + 3 = 1 + pdu.length + 2 by omega, window_add, window_add]
    at hall
  have hfront := (List.append_inj hall (by
    rw [List.length_append, length_window, length_window, List.length_cons, Nat.add_comm])).1
  exact (List.cons.inj hfront).2

theorem buf_pdu (mem : Nat → UInt8) (addr : UInt8) {pdu : List UInt8} {i : Nat}
    (h : i < pdu.length) : overlay mem 0 (encodeFrame addr pdu) (i + 1) = pdu.getD i 0 := by
  have hcell : (window (overlay mem 0 (encodeFrame addr pdu)) 1 pdu.length)[i]? = _ :=
    window_getElem? h
  rw [window_pdu, Nat.add_comm] at hcell
  rw [List.getD_eq_getElem?_getD, hcell, Option.getD_some]

/-- A burst that is a frame for the slave `addr`. -/
theorem requestOf_eq_some {addr : UInt8} {bytes pdu : List UInt8}
    (h : requestOf addr bytes = some pdu) :
    bytes = encodeFrame addr pdu ∧ 0 < pdu.length ∧ pdu.length ≤ mbPduSizeMax := by
  unfold requestOf at h
  split at h
  · exact absurd h (by simp)
  · next a pdu' hdec =>
    split at h
    · next ha =>
      obtain rfl := Option.some.inj h
      subst ha
      split at hdec
      · next hfit =>
        unfold mbSerPduSizeMax at hfit
        obtain ⟨rfl, hpos⟩ := (decodeFrame_eq_some_iff (by omega)).mp hdec
        rw [length_encodeFrame] at hfit
        unfold mbPduSizeMax
        exact ⟨rfl, hpos, by omega⟩
      · exact absurd hdec (by simp)
    · exact absurd h (by simp)

variable {table : List (UInt8 × FuncHandler G)}

/-- A burst at another port puts nothing on the line. -/
theorem serve_line_of_ne (v : Server G) {burst : Nat × List UInt8} {p : Nat} (h : burst.1 ≠ p) :
    (v.serve table burst).line p = v.line p := by
  unfold Server.serve
  dsimp only
  split
  · rfl
  · split
    · unfold Server.answer
      dsimp only
      split
      · exact Function.update_of_ne (Ne.symm h) _ _
      · rfl
    · rfl

theorem serve_ucMBAddress (v : Server G) (burst : Nat × List UInt8) :
    (v.serve table burst).ucMBAddress = v.ucMBAddress := by
  unfold Server.serve
  dsimp only
  split
  · rfl
  · split
    · unfold Server.answer
      dsimp only
      split <;> rfl
    · rfl

/-- What is not a request to the slave gets no answer. -/
theorem serve_line_of_none (v : Server G) {p : Nat} {bytes : List UInt8}
    (h : requestOf (v.ucMBAddress p) bytes = none) :
    (v.serve table (p, bytes)).line p = v.line p := by
  unfold requestOf at h
  unfold Server.serve
  dsimp only at h ⊢
  generalize (if bytes.length ≤ mbSerPduSizeMax then decodeFrame bytes else none) = frame at h ⊢
  cases frame with
  | none => rfl
  | some frame =>
    obtain ⟨a, pdu⟩ := frame
    dsimp only at h ⊢
    split at h
    · exact absurd h (by simp)
    · next hne =>
      split
      · next hours =>
        -- only a broadcast is left
        have hzero : a = 0 := hours.resolve_left hne
        unfold Server.answer
        dsimp only
        rw [if_neg (not_not_intro hzero)]
      · rfl

/-- The burst of a request, as the server does it. -/
theorem serve_request (v : Server G) {p : Nat} (haddr : v.ucMBAddress p ≠ 0) {pdu : List UInt8}
    (hpos : 0 < pdu.length) (hfit : pdu.length ≤ mbPduSizeMax) :
    let buf := overlay (v.buf p) 0 (encodeFrame (v.ucMBAddress p) pdu)
    let out := callHandler table p (fun i => buf (i + 1)) pdu.length v.g
    let answer := answerPdu (buf 1) out
    let frame := encodeFrame (v.ucMBAddress p) (window answer.1 0 answer.2)
    v.serve table (p, encodeFrame (v.ucMBAddress p) pdu) =
      ⟨v.ucMBAddress, Function.update v.buf p (overlay (withPdu buf answer.1) 0 frame),
        Function.update v.line p (v.line p ++ frame), out.g⟩ := by
  intro buf out answer frame
  have hlen := length_encodeFrame (v.ucMBAddress p) pdu
  have hbytes : (encodeFrame (v.ucMBAddress p) pdu).length ≤ mbSerPduSizeMax := by
    unfold mbPduSizeMax at hfit
    unfold mbSerPduSizeMax
    omega
  have hdec : decodeFrame (encodeFrame (v.ucMBAddress p) pdu) = some (v.ucMBAddress p, pdu) := by
    refine (decodeFrame_eq_some_iff ?_).mpr ⟨rfl, hpos⟩
    unfold mbSerPduSizeMax at hbytes
    omega
  unfold Server.serve
  dsimp only
  rw [if_pos hbytes, hdec, List.take_of_length_le hbytes]
  dsimp only
  rw [if_pos (Or.inl rfl)]
  unfold Server.answer
  dsimp only
  rw [if_pos haddr, Function.update_self, Function.update_idem]

theorem buf_code (mem : Nat → UInt8) (addr : UInt8) {pdu : List UInt8} (hpos : 0 < pdu.length) :
    overlay mem 0 (encodeFrame addr pdu) 1 = pdu.headD 0 := by
  refine (buf_pdu mem addr hpos).trans ?_
  cases pdu <;> rfl

/-- Without an exception the code comes back. -/
theorem AnswerSpec.head {view : G → V} {mem : Nat → UInt8} {g : G} {out : FuncReply G}
    (h : AnswerSpec view mem g out) (hstatus : out.eStatus = .none) {pdu : List UInt8}
    (hpos : 0 < pdu.length) (hcode : mem 0 = pdu.headD 0) :
    (window (answerPdu (mem 0) out).1 0 (answerPdu (mem 0) out).2).head? = pdu.head? := by
  have hhead := h.code hstatus
  obtain ⟨n, hn⟩ := Nat.exists_eq_add_of_lt h.pos
  rw [hn, window_cons, hhead, hcode]
  cases pdu with
  | nil => exact absurd hpos (Nat.lt_irrefl 0)
  | cons c rest => rfl

/-- A request is answered. -/
theorem serve_line_of_some (readCB writeCB : RegCB G) (v : Server G) {p : Nat}
    (haddr : v.ucMBAddress p ≠ 0) {bytes pdu : List UInt8}
    (h : requestOf (v.ucMBAddress p) bytes = some pdu) :
    ∃ frame, IsAnswer (v.ucMBAddress p) pdu frame ∧
      (v.serve (xFuncHandlers readCB writeCB) (p, bytes)).line p = v.line p ++ frame := by
  obtain ⟨rfl, hpos, hfit⟩ := requestOf_eq_some h
  let buf := overlay (v.buf p) 0 (encodeFrame (v.ucMBAddress p) pdu)
  have hkeep : ∀ cb : RegCB G, KeepsOnError (fun _ => ()) cb := fun _ _ _ _ _ _ => rfl
  have hspec := answerSpec (hkeep readCB) (hkeep writeCB) p (fun i => buf (i + 1)) v.g hpos hfit
  rw [serve_request v haddr hpos hfit]
  have hcode : buf (0 + 1) = pdu.headD 0 := buf_code (v.buf p) (v.ucMBAddress p) hpos
  generalize callHandler (xFuncHandlers readCB writeCB) p (fun i => buf (i + 1)) pdu.length v.g =
    out at hspec ⊢
  refine ⟨_, ⟨_, rfl, ?_, ?_, ?_⟩, Function.update_self ..⟩
  · rw [length_window]
    exact hspec.pos
  · rw [length_window]
    exact hspec.fits
  · by_cases hstatus : out.eStatus = .none
    · exact Or.inl (hspec.head hstatus hpos hcode)
    · right
      refine ⟨out.eStatus, (hspec.exception hstatus).trans ?_⟩
      rw [hcode]

/-- The answers of a server over any bursts. -/
theorem serve_answers (readCB writeCB : RegCB G) (v : Server G) {p : Nat}
    (haddr : v.ucMBAddress p ≠ 0) (bursts : List (Nat × List UInt8)) :
    ∃ frames, List.Forall₂ (IsAnswer (v.ucMBAddress p)) (requestsOf (v.ucMBAddress p) p bursts)
        frames ∧
      (bursts.foldl (Server.serve (xFuncHandlers readCB writeCB)) v).line p =
        v.line p ++ frames.flatten := by
  induction bursts generalizing v with
  | nil => exact ⟨[], List.Forall₂.nil, (List.append_nil _).symm⟩
  | cons burst bursts ih =>
    have hsame : (v.serve (xFuncHandlers readCB writeCB) burst).ucMBAddress p = v.ucMBAddress p :=
      congrFun (serve_ucMBAddress v burst) p
    obtain ⟨frames, hframes, hline⟩ :=
      ih (v.serve (xFuncHandlers readCB writeCB) burst) (by rw [hsame]; exact haddr)
    rw [hsame] at hframes
    rw [List.foldl_cons, hline]
    obtain ⟨q, bytes⟩ := burst
    by_cases hq : q = p
    · subst hq
      cases hreq : requestOf (v.ucMBAddress q) bytes with
      | none =>
        refine ⟨frames, ?_, by rw [serve_line_of_none v hreq]⟩
        unfold requestsOf
        rw [List.filterMap_cons_none (by rw [if_pos rfl]; exact hreq)]
        exact hframes
      | some pdu =>
        obtain ⟨frame, hanswer, hserve⟩ := serve_line_of_some readCB writeCB v haddr hreq
        refine ⟨frame :: frames, ?_, ?_⟩
        · unfold requestsOf
          rw [List.filterMap_cons_some (by rw [if_pos rfl]; exact hreq)]
          exact List.Forall₂.cons hanswer hframes
        · rw [hserve, List.flatten_cons, List.append_assoc]
    · refine ⟨frames, ?_, by rw [serve_line_of_ne v (show (q, bytes).1 ≠ p from hq)]⟩
      unfold requestsOf
      rw [List.filterMap_cons_none (by rw [if_neg (show ¬ (q, bytes).1 = p from hq)])]
      exact hframes

/-- Every request to a slave is answered by one frame, and nothing else is put on its line. -/
theorem run_answers (readCB writeCB : RegCB G) (slot : Nat → Nat) (held : Option MBEvent) {k : Nat}
    (hk : mbSerPduSizeMax < k) {s : Stack G} (hready : ∀ p, Ready (s.port p)) {p : Nat}
    (haddr : s.ucMBAddress p ≠ 0) (bursts : List (Nat × List UInt8)) :
    ∃ frames, List.Forall₂ (IsAnswer (s.ucMBAddress p)) (requestsOf (s.ucMBAddress p) p bursts)
        frames ∧
      ((s.run (xFuncHandlers readCB writeCB) slot (bursts.flatMap (burstEvents held k))).port
        p).line = (s.port p).line ++ frames.flatten := by
  have hrun := serving_bursts (xFuncHandlers readCB writeCB) slot held hk (serving_self hready)
    bursts
  obtain ⟨frames, hframes, hline⟩ := serve_answers readCB writeCB
    ⟨s.ucMBAddress, fun p => (s.port p).ucRTUBuf, fun p => (s.port p).line, s.g⟩ haddr bursts
  exact ⟨frames, hframes, (hrun.line p).trans hline⟩

/-- A slave without registers, a request to it and a burst that is none. -/
theorem run_answers_two :
    let s : Stack Nat := ⟨fun _ => idlePort, fun _ => 1, fun _ => ⟨0, 0, 0⟩, 0⟩
    let bursts := [(0, encodeFrame 1 [3, 0, 0, 0, 1]), (0, [1, 2, 3])]
    mbSerPduSizeMax < 257 ∧ s.ucMBAddress 0 ≠ 0 ∧
      ∃ frames, List.Forall₂ (IsAnswer 1) (requestsOf 1 0 bursts) frames ∧
        ((s.run (xFuncHandlers noRegCB noRegCB) shared
          (bursts.flatMap (burstEvents none 257))).port 0).line = [] ++ frames.flatten := by
  intro s bursts
  exact ⟨by decide, by decide, run_answers noRegCB noRegCB shared none (by decide)
    (fun _ => ready_idlePort) (show s.ucMBAddress 0 ≠ 0 by decide) bursts⟩

end K64Gateway.Modbus
