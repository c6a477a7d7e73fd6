import K64Gateway.Gprs.Receiver

/-
  Bytes that arrive while a header or a payload is received, up to a carriage return and line
  feed: what the receiver holds of the line, what it counts and what it stores for the socket.
-/

namespace K64Gateway.Gprs

open CString TaggedText VarManage

/-! ## The line -/

/-- The bytes of the line so far. -/
def Line (s : Rx) (l : List UInt8) : Prop :=
  s.off = l.length ∧ ∀ j (h : j < l.length), s.buf j = l[j]

theorem line_put {s : Rx} {l : List UInt8} (h : Line s l) (b : UInt8)
    (hfit : l.length + 1 < rxBufferSize) : Line (s.put b) (l ++ [b]) := by
  obtain ⟨hoff, hbuf⟩ := h
  constructor
  · show (if rxBufferSize ≤ s.off + 1 then 0 else s.off + 1) = _
    rw [hoff, if_neg (by omega), List.length_append, List.length_singleton]
  · intro j hj
    show Function.update s.buf s.off b j = _
    rw [List.length_append, List.length_singleton] at hj
    by_cases hlast : j = l.length
    · subst hlast
      rw [hoff, Function.update_self]
      simp
    · rw [hoff, Function.update_of_ne hlast, hbuf j (by omega), List.getElem_append_left]

theorem line_get {s : Rx} {l : List UInt8} (h : Line s l) {j : Nat} {b : UInt8}
    (hb : l[j]? = some b) : s.buf j = b := by
  obtain ⟨hj, hget⟩ := List.getElem?_eq_some_iff.mp hb
  rw [h.2 j hj, hget]

theorem line_last {s : Rx} {l : List UInt8} {b : UInt8} (h : Line s (l ++ [b])) :
    s.buf (s.off - 1) = b := by
  obtain ⟨hoff, hbuf⟩ := h
  rw [List.length_append, List.length_singleton] at hoff
  rw [hoff, Nat.add_sub_cancel, hbuf l.length (by simp)]
  simp

/-- The byte ends a line in which a header or a payload is read. -/
def EndsLine (l : List UInt8) (b : UInt8) : Prop :=
  9 ≤ l.length ∧ l.getLast? = some 13 ∧ b = 10

theorem endsLine_iff {s : Rx} {l : List UInt8} {b : UInt8} (h : Line s (l ++ [b])) :
    (Evt.sisr.len ≤ s.off ∧ s.crlf = true) ↔ EndsLine l b := by
  have hlast := line_last h
  obtain ⟨hoff, hbuf⟩ := h
  rw [List.length_append, List.length_singleton] at hoff
  have hlen : Evt.sisr.len = 10 := rfl
  unfold EndsLine Rx.crlf
  rw [hlast, hlen, hoff, Bool.and_eq_true, beq_iff_eq, beq_iff_eq]
  by_cases h9 : 9 ≤ l.length
  · have hprev : s.buf (l.length + 1 - 2) = l[l.length - 1] := by
      rw [show l.length + 1 - 2 = l.length - 1 by omega, hbuf (l.length - 1) (by simp),
        List.getElem_append_left]
    rw [hprev, List.getLast?_eq_getElem?, List.getElem?_eq_getElem (by omega)]
    simp
  · constructor
    · intro hle
      omega
    · exact fun hle => absurd hle.1 h9

/-- No byte ends the line. -/
def Quiet : List UInt8 → List UInt8 → Prop
  | _, [] => True
  | l, b :: bs => ¬ EndsLine l b ∧ Quiet (l ++ [b]) bs

theorem quiet_of_not_mem {bs : List UInt8} (h : (10 : UInt8) ∉ bs) : ∀ l, Quiet l bs := by
  induction bs with
  | nil => exact fun _ => trivial
  | cons b bs ih =>
    intro l
    rw [List.mem_cons, not_or] at h
    exact ⟨fun hend => h.1 hend.2.2.symm, ih h.2 _⟩

/-! ## Bytes that are not counted -/

/-- The parser of the payload is in time. -/
def InTime (s : Rx) (tick : UInt32) : Prop :=
  tick - s.rcvEvtTick .sisr ≤ rtTickFromMillisecond 1000

theorem timeout_of_inTime {s : Rx} {tick : UInt32} (h : InTime s tick) :
    prvParseTimeout .sisr 1000 tick s = s := if_neg (UInt32.not_lt.mpr h)

theorem endLine_of_rcvEvt {s : Rx} {e : Evt} (h : s.rcvEvt e = true) : endLine s = s := by
  unfold endLine
  rw [isRcvAnyEvt_of_rcvEvt h]
  rfl

/-- What stays as it is while bytes of a line come in. -/
structure Same (s s' : Rx) : Prop where
  rcvEvt : s'.rcvEvt = s.rcvEvt
  isEvtParse : s'.isEvtParse = s.isEvtParse
  rcvEvtTick : s'.rcvEvtTick = s.rcvEvtTick
  nId : s'.nId = s.nId
  calls : s'.calls = s.calls
  size : ∀ id, (s'.sockets id).pInBuffer.length = (s.sockets id).pInBuffer.length
  onRecv : ∀ id, (s'.sockets id).onRecv = (s.sockets id).onRecv

theorem Same.refl (s : Rx) : Same s s :=
  ⟨rfl, rfl, rfl, rfl, rfl, fun _ => rfl, fun _ => rfl⟩

theorem Same.trans {s s' s'' : Rx} (h : Same s s') (h' : Same s' s'') : Same s s'' where
  rcvEvt := h'.rcvEvt.trans h.rcvEvt
  isEvtParse := h'.isEvtParse.trans h.isEvtParse
  rcvEvtTick := h'.rcvEvtTick.trans h.rcvEvtTick
  nId := h'.nId.trans h.nId
  calls := h'.calls.trans h.calls
  size id := (h'.size id).trans (h.size id)
  onRecv id := (h'.onRecv id).trans (h.onRecv id)

theorem Same.receiving {s s' : Rx} (h : Same s s') (hs : Receiving s) : Receiving s' := by
  unfold Receiving
  rw [h.rcvEvt, h.isEvtParse]
  exact hs

theorem same_put (s : Rx) (b : UInt8) : Same s (s.put b) :=
  ⟨rfl, rfl, rfl, rfl, rfl, fun _ => rfl, fun _ => rfl⟩

/-- Nothing is counted: a header is read, or the payload belongs to no socket. -/
def NotCounting (s : Rx) : Prop := ¬ (0 < s.nRemain ∧ s.nId < gprsSocketMax)

theorem onByte_notCounting {s : Rx} {l : List UInt8} {b : UInt8} {tick : UInt32}
    (hs : Receiving s) (hl : Line s l) (hfit : l.length + 1 < rxBufferSize)
    (hquiet : ¬ EndsLine l b) (htime : InTime s tick) (hnot : NotCounting s) :
    onByte s b tick = some (s.put b) := by
  have hrest : ¬ (Evt.sisr.len ≤ (s.put b).off ∧ (s.put b).crlf = true) :=
    fun h => hquiet ((endsLine_iff (line_put hl b hfit)).mp h)
  have htime' : InTime (s.put b) tick := htime
  have hnot' : NotCounting (s.put b) := hnot
  have hrcv : (s.put b).rcvEvt .sisr = true := hs.1 .sisr
  rw [onByte_receiving hs]
  unfold prvParseSISR
  rw [if_neg hrest, if_neg hnot', timeout_of_inTime htime', Option.map_some,
    endLine_of_rcvEvt hrcv]

theorem onBytes_notCounting {bs : List (UInt8 × UInt32)} : ∀ {s : Rx} {l : List UInt8},
    Receiving s → Line s l → l.length + bs.length < rxBufferSize → Quiet l (bs.map Prod.fst) →
      (∀ x ∈ bs, InTime s x.2) → NotCounting s →
        ∃ s', onBytes s bs = some s' ∧ Same s s' ∧ Line s' (l ++ bs.map Prod.fst) ∧
          NotCounting s' := by
  induction bs with
  | nil =>
    intro s l _ hl _ _ _ hnot
    exact ⟨s, rfl, Same.refl s, by simpa using hl, hnot⟩
  | cons x bs ih =>
    intro s l hs hl hfit hquiet htime hnot
    obtain ⟨b, tick⟩ := x
    rw [List.length_cons] at hfit
    have hstep := onByte_notCounting hs hl (by omega) hquiet.1 (htime _ List.mem_cons_self) hnot
    obtain ⟨s', hrun, hsame, hline, hnot'⟩ := ih (s := s.put b) ((same_put s b).receiving hs)
      (line_put hl b (by omega)) (by simp; omega) hquiet.2
      (fun y hy => htime y (List.mem_cons_of_mem _ hy)) hnot
    refine ⟨s', ?_, (same_put s b).trans hsame, by simpa using hline, hnot'⟩
    rw [onBytes, hstep]
    exact hrun

/-! ## Bytes that are counted -/

/-- The bytes of the payload that are in the socket's buffer. -/
def received (s : Rx) (id : Nat) : List UInt8 := (s.sockets id).pInBuffer.take s.nIndex

/-- A byte was put into the buffer of the socket `id`, if there was room. -/
structure Stored (s s' : Rx) (id : Nat) (b : UInt8) : Prop where
  same : Same s s'
  off : s'.off = s.off
  buf : s'.buf = s.buf
  nRemain : s'.nRemain = s.nRemain
  data : s.nIndex < (s.sockets id).pInBuffer.length →
    s'.nIndex = s.nIndex + 1 ∧ received s' id = received s id ++ [b]

theorem take_set {α : Type} {l : List α} {i : Nat} (h : i < l.length) (a : α) :
    (l.set i a).take (i + 1) = l.take i ++ [a] := by
  rw [List.set_eq_take_append_cons_drop, if_pos h, List.append_cons]
  apply List.take_left'
  rw [List.length_append, List.length_take_of_le h.le, List.length_singleton]

theorem store_spec {s : Rx} {id : Nat} (hid : s.nId = id) (hoff : s.off ≠ 0) :
    ∃ s', s.store = some s' ∧ Stored s s' id (s.buf (s.off - 1)) := by
  have hnat : s.nId.toNat = id := by omega
  unfold Rx.store
  dsimp only
  rw [hnat]
  by_cases hroom : s.nIndex < (s.sockets id).pInBuffer.length
  · rw [if_pos hroom, if_neg hoff]
    refine ⟨_, rfl, ⟨rfl, rfl, rfl, rfl, rfl, fun id' => ?_, fun id' => ?_⟩, rfl, rfl, rfl,
      fun _ => ⟨rfl, ?_⟩⟩
    · by_cases hne : id' = id
      · subst hne
        simp [Socket.put]
      · simp [hne]
    · by_cases hne : id' = id
      · subst hne
        simp [Socket.put]
      · simp [hne]
    · unfold received
      dsimp only
      rw [Function.update_self]
      exact take_set hroom _
  · rw [if_neg hroom]
    exact ⟨s, rfl, Same.refl s, rfl, rfl, rfl, fun h => absurd h hroom⟩

theorem onByte_counting {s : Rx} {l : List UInt8} {b : UInt8} {tick : UInt32} {id : Nat}
    (hs : Receiving s) (hl : Line s l) (hfit : l.length + 1 < rxBufferSize)
    (hquiet : ¬ EndsLine l b) (htime : InTime s tick) (hid : s.nId = id) (hlt : id < gprsSocketMax)
    (hremain : 0 < s.nRemain) :
    ∃ s', Stored (s.put b) s' id b ∧ onByte s b tick = some (endLine s'.countDown) := by
  have hline := line_put hl b hfit
  have hrest : ¬ (Evt.sisr.len ≤ (s.put b).off ∧ (s.put b).crlf = true) :=
    fun h => hquiet ((endsLine_iff hline).mp h)
  have hcount : 0 < (s.put b).nRemain ∧ (s.put b).nId < gprsSocketMax := by
    refine ⟨hremain, ?_⟩
    show s.nId < gprsSocketMax
    rw [hid]
    exact_mod_cast hlt
  have hpos : ¬ (s.put b).nId < 0 := by
    show ¬ s.nId < 0
    omega
  have hoff : (s.put b).off ≠ 0 := by
    rw [hline.1, List.length_append, List.length_singleton]
    exact Nat.succ_ne_zero _
  obtain ⟨s', hstore, hstored⟩ := store_spec (s := s.put b) hid hoff
  rw [line_last hline] at hstored
  refine ⟨s', hstored, ?_⟩
  have htime' : InTime s'.countDown tick := by
    have htick : s'.countDown.rcvEvtTick = s.rcvEvtTick := by
      unfold Rx.countDown
      split
      · exact hstored.same.rcvEvtTick
      · exact hstored.same.rcvEvtTick
    unfold InTime
    rw [htick]
    exact htime
  rw [onByte_receiving hs]
  unfold prvParseSISR
  rw [if_neg hrest, if_pos hcount, if_neg hpos, hstore, Option.map_some, Option.map_some,
    timeout_of_inTime htime']

/-- A byte of the payload that is not the last. -/
theorem onByte_more {s : Rx} {l : List UInt8} {b : UInt8} {tick : UInt32} {id : Nat}
    (hs : Receiving s) (hl : Line s l) (hfit : l.length + 1 < rxBufferSize)
    (hquiet : ¬ EndsLine l b) (htime : InTime s tick) (hid : s.nId = id) (hlt : id < gprsSocketMax)
    (hremain : 1 < s.nRemain) :
    ∃ s', onByte s b tick = some s' ∧ Same s s' ∧ Line s' (l ++ [b]) ∧
      s'.nRemain = s.nRemain - 1 ∧ (s.nIndex < (s.sockets id).pInBuffer.length →
        s'.nIndex = s.nIndex + 1 ∧ received s' id = received s id ++ [b]) := by
  obtain ⟨t, hstored, hstep⟩ := onByte_counting hs hl hfit hquiet htime hid hlt (by omega)
  have hmore : t.countDown = { t with nRemain := t.nRemain - 1 } := by
    have hnRemain : t.nRemain = s.nRemain := hstored.nRemain
    exact if_neg (by omega)
  have hrcv : t.countDown.rcvEvt .sisr = true := by
    rw [hmore]
    show t.rcvEvt .sisr = true
    rw [hstored.same.rcvEvt]
    exact hs.1 .sisr
  rw [endLine_of_rcvEvt hrcv, hmore] at hstep
  refine ⟨_, hstep, (same_put s b).trans ⟨hstored.same.rcvEvt, hstored.same.isEvtParse,
    hstored.same.rcvEvtTick, hstored.same.nId, hstored.same.calls, hstored.same.size,
    hstored.same.onRecv⟩, ?_, ?_, hstored.data⟩
  · have hline := line_put hl b hfit
    unfold Line at hline ⊢
    rw [← hstored.off, ← hstored.buf] at hline
    exact hline
  · show t.nRemain - 1 = s.nRemain - 1
    rw [hstored.nRemain]
    rfl

theorem onBytes_more {id : Nat} (hlt : id < gprsSocketMax) {bs : List (UInt8 × UInt32)} :
    ∀ {s : Rx} {l : List UInt8}, Receiving s → Line s l → l.length + bs.length < rxBufferSize →
      Quiet l (bs.map Prod.fst) → (∀ x ∈ bs, InTime s x.2) → s.nId = id →
        (bs.length : Int) < s.nRemain →
          ∃ s', onBytes s bs = some s' ∧ Same s s' ∧ Line s' (l ++ bs.map Prod.fst) ∧
            s'.nRemain = s.nRemain - bs.length ∧
              (s.nIndex + bs.length ≤ (s.sockets id).pInBuffer.length →
                s'.nIndex = s.nIndex + bs.length ∧
                  received s' id = received s id ++ bs.map Prod.fst) := by
  induction bs with
  | nil =>
    intro s l _ hl _ _ _ _ _
    exact ⟨s, rfl, Same.refl s, by simpa using hl, by simp, fun _ => by simp⟩
  | cons x bs ih =>
    intro s l hs hl hfit hquiet htime hid hremain
    obtain ⟨b, tick⟩ := x
    rw [List.length_cons] at hfit hremain
    obtain ⟨t, hstep, hsame, hline, hnRemain, hdata⟩ := onByte_more hs hl (by omega) hquiet.1
      (htime _ List.mem_cons_self) hid hlt (by omega)
    have htime' : ∀ y ∈ bs, InTime t y.2 := by
      intro y hy
      unfold InTime
      rw [hsame.rcvEvtTick]
      exact htime y (List.mem_cons_of_mem _ hy)
    obtain ⟨s', hrun, hsame', hline', hnRemain', hdata'⟩ := ih (hsame.receiving hs) hline
      (by simp; omega) hquiet.2 htime' (hsame.nId.trans hid) (by omega)
    refine ⟨s', ?_, hsame.trans hsame', by simpa using hline', ?_, fun hroom => ?_⟩
    · rw [onBytes, hstep]
      exact hrun
    · rw [hnRemain', hnRemain, List.length_cons]
      omega
    · rw [List.length_cons] at hroom
      obtain ⟨hindex, hrec⟩ := hdata (by omega)
      obtain ⟨hindex', hrec'⟩ := hdata' (by rw [hindex, hsame.size id]; omega)
      rw [hindex', hrec', hindex, hrec, List.length_cons]
      exact ⟨by omega, by simp⟩

/-- The last byte of the payload. -/
theorem onByte_last {s : Rx} {l : List UInt8} {b : UInt8} {tick : UInt32} {id : Nat}
    (hs : Receiving s) (hl : Line s l) (hfit : l.length + 1 < rxBufferSize)
    (hquiet : ¬ EndsLine l b) (htime : InTime s tick) (hid : s.nId = id) (hlt : id < gprsSocketMax)
    (hremain : s.nRemain = 1) :
    ∃ s', onByte s b tick = some s' ∧ (∀ e, s'.rcvEvt e = false) ∧ s'.nRemain = 0 ∧
      (s'.off = 0 ∨ s'.off = l.length + 1) ∧
        (s.nIndex < (s.sockets id).pInBuffer.length → (s.sockets id).onRecv = true →
          s'.calls = s.calls ++ [(id, received s id ++ [b])]) := by
  obtain ⟨t, hstored, hstep⟩ := onByte_counting hs hl hfit hquiet htime hid hlt (by omega)
  have hnRemain : t.nRemain = 1 := hstored.nRemain.trans hremain
  have hnId : t.nId.toNat = id := by
    have hsame : t.nId = s.nId := hstored.same.nId
    omega
  have hflags : ∀ e, t.countDown.rcvEvt e = false := by
    intro e
    by_cases he : e = .sisr
    · subst he
      unfold Rx.countDown
      rw [if_pos (by omega)]
      show Function.update t.rcvEvt .sisr false .sisr = false
      exact Function.update_self _ _ _
    · rw [rcvEvt_countDown t he, hstored.same.rcvEvt]
      exact (hs.1 e).trans (decide_eq_false he)
  have hcalls : (t.sockets id).onRecv = true →
      t.countDown.calls = t.calls ++ [(id, received t id)] := by
    intro hrecv
    unfold Rx.countDown received
    rw [if_pos (by omega)]
    dsimp only
    rw [hnId, if_pos hrecv]
  have hzero : t.countDown.nRemain = 0 := by
    unfold Rx.countDown
    rw [if_pos (by omega)]
    dsimp only
    omega
  have hoff : t.countDown.off = l.length + 1 := by
    have hline := (line_put hl b hfit).1
    rw [List.length_append, List.length_singleton] at hline
    unfold Rx.countDown
    rw [if_pos (by omega)]
    exact hstored.off.trans hline
  refine ⟨_, hstep, fun e => ?_, ?_, ?_, fun hroom hrecv => ?_⟩
  · unfold endLine
    split
    · exact hflags e
    · exact hflags e
  · unfold endLine
    split
    · exact hzero
    · exact hzero
  · unfold endLine
    split
    · exact Or.inl rfl
    · exact Or.inr hoff
  · have hcall := hcalls ((hstored.same.onRecv id).trans hrecv)
    have hbefore : t.calls = s.calls := hstored.same.calls
    have hrec : received t id = received s id ++ [b] := (hstored.data hroom).2
    rw [hbefore, hrec] at hcall
    unfold endLine
    split
    · exact hcall
    · exact hcall

/-! ## The header -/

/-- "+RECEIVE:", which no event is recognised in. -/
def headerFront : List UInt8 := chars ['+', 'R', 'E', 'C', 'E', 'I', 'V', 'E', ':']

/-- The header behind it, up to the carriage return. -/
def headerRest (id n : Nat) : List UInt8 :=
  32 :: UInt8.ofNat (48 + id) :: 44 :: 32 :: (decimal n ++ [13])

/-- "+RECEIVE: <id>, <n>" and the end of the line. -/
def header (id n : Nat) : List UInt8 := headerFront ++ (headerRest id n ++ [10])

theorem szNum_eq {buf : Nat → UInt8} {i : Nat} (hi : 0 < i) (hstop : buf i = 32) :
    ∀ {ds : List UInt8} {j : Nat}, (32 : UInt8) ∉ ds → j + ds.length ≤ 10 →
      (∀ k (h : k < ds.length), buf (i + 1 + k) = ds[ds.length - 1 - k]) →
        szNum buf (i + ds.length) j = ds := by
  intro ds
  induction ds with
  | nil =>
    intro j _ _ _
    obtain ⟨i, rfl⟩ := Nat.exists_eq_add_of_lt hi
    rw [List.length_nil, Nat.add_zero, Nat.zero_add, szNum, if_pos]
    exact Or.inl (by rw [Nat.zero_add] at hstop; exact hstop)
  | cons d ds ih =>
    intro j hmem hj hbuf
    rw [List.mem_cons, not_or] at hmem
    rw [List.length_cons] at hj
    have hd : buf (i + ds.length + 1) = d := by
      have hlast := hbuf ds.length (by simp)
      rw [show i + 1 + ds.length = i + ds.length + 1 by omega] at hlast
      simpa using hlast
    rw [List.length_cons, ← Nat.add_assoc, szNum, hd, if_neg, ih hmem.2 (by omega)]
    · intro k hk
      rw [hbuf k (by simp; omega)]
      simp only [List.length_cons, Nat.add_sub_cancel]
      rw [List.getElem_cons, dif_neg (by omega)]
      congr 1
      omega
    · rintro (h | h)
      · exact hmem.1 h.symm
      · omega

theorem not_mem_decimal {n : Nat} {c : UInt8} (h : c < 48) : c ∉ decimal n :=
  fun hmem => absurd (mem_decimal hmem).1 (UInt8.not_le.mpr h)

theorem szLen_header {s : Rx} {id n : Nat} (hn : n < 10 ^ 10)
    (hl : Line s (headerFront ++ headerRest id n ++ [10])) : szLen s = decimal n := by
  have hsplit : headerFront ++ headerRest id n ++ [10] =
      (headerFront ++ [32, UInt8.ofNat (48 + id), 44, 32]) ++ (decimal n ++ [13, 10]) := by
    simp [headerRest]
  have hfront : (headerFront ++ [32, UInt8.ofNat (48 + id), 44, 32]).length = 13 := rfl
  rw [hsplit] at hl
  have hoff : s.off - 3 = 12 + (decimal n).length := by
    rw [hl.1, List.length_append, hfront, List.length_append]
    simp only [List.length_cons, List.length_nil]
    omega
  have hstop : s.buf 12 = 32 := line_get hl rfl
  unfold szLen
  rw [hoff, ← List.length_reverse, szNum_eq (by omega) hstop, List.reverse_reverse]
  · rw [List.mem_reverse]
    exact not_mem_decimal (by decide)
  · rw [List.length_reverse, Nat.zero_add]
    exact length_decimal_le hn
  · intro k hk
    rw [List.length_reverse] at hk
    apply line_get hl
    rw [List.getElem?_append_right (by omega), hfront, show 12 + 1 + k - 13 = k by omega,
      List.getElem?_append_left hk, List.getElem?_eq_getElem hk, List.getElem_reverse]
    congr 1
    simp only [List.length_reverse]
    congr 1
    omega

theorem onByte_headerEnd {s : Rx} {id n : Nat} (tick : UInt32) (hs : Receiving s)
    (hl : Line s (headerFront ++ headerRest id n)) (hid : id < gprsSocketMax) (hn : 0 < n)
    (hn' : n < 4294967296) :
    ∃ s', onByte s 10 tick = some s' ∧ Receiving s' ∧ s'.off = 0 ∧ s'.nId = id ∧
      s'.nRemain = min 2147483647 (n : Int) ∧ s'.nIndex = 0 ∧ s'.sockets = s.sockets ∧
        s'.calls = s.calls ∧ s'.rcvEvtTick = s.rcvEvtTick := by
  have hlen : (decimal n).length ≤ 10 := length_decimal_le (by omega)
  have hrest : (headerFront ++ headerRest id n).length = 14 + (decimal n).length := by
    simp [headerFront, headerRest, chars]
    omega
  have hline := line_put hl 10 (by rw [hrest]; unfold rxBufferSize; omega)
  have hends : EndsLine (headerFront ++ headerRest id n) 10 := by
    have hlast : headerFront ++ headerRest id n =
        (headerFront ++ 32 :: UInt8.ofNat (48 + id) :: 44 :: 32 :: decimal n) ++ [13] := by
      simp [headerRest]
    refine ⟨by rw [hrest]; omega, ?_, rfl⟩
    rw [hlast, List.getLast?_concat]
  have hbranch := (endsLine_iff hline).mpr hends
  have hsocket : (s.put 10).buf 10 = UInt8.ofNat (48 + id) := line_get hline rfl
  have hnId : (((s.put 10).buf 10).toNat : Int) - 48 = id := by
    unfold gprsSocketMax at hid
    rw [hsocket, toNat_digit (by omega)]
    omega
  have hnRemain : atol (szLen (s.put 10)) = min 2147483647 (n : Int) := by
    unfold atol
    rw [szLen_header (by omega) hline, atoi_decimal hn]
    omega
  have hlt : (((s.put 10).buf 10).toNat : Int) - 48 < gprsSocketMax := by
    rw [hnId]
    exact_mod_cast hid
  have hpos : ¬ atol (szLen (s.put 10)) ≤ 0 := by
    rw [hnRemain]
    omega
  have hheader : (s.put 10).header =
      { s.put 10 with
        nId := id
        nRemain := min 2147483647 (n : Int)
        nIndex := 0
        off := 0 } := by
    unfold Rx.header
    dsimp only
    rw [if_pos hlt, if_neg hpos, hnId, hnRemain]
  have hreceiving : Receiving (s.put 10).header := by
    rw [hheader]
    exact hs
  rw [onByte_receiving hs]
  unfold prvParseSISR
  rw [if_pos hbranch, Option.map_some, endLine_of_rcvEvt (hreceiving.1 .sisr), hheader]
  rw [hheader] at hreceiving
  exact ⟨_, rfl, hreceiving, rfl, rfl, rfl, rfl, rfl, rfl, rfl⟩

/-! ## The first bytes of the header -/

/-- The receiver at the start of a line, with no event pending. -/
def AtRest (s : Rx) : Prop := (∀ e, s.rcvEvt e = false) ∧ s.off = 0

/-- No event is recognised in what the header of a payload begins with. -/
theorem isText_headerFront {s : Rx} {l : List UInt8} (hl : Line s l) (hstart : l <+: headerFront)
    {e : Evt} (he : e.len = s.off) : s.isText e = some false := by
  have hle : s.off ≤ 9 := hl.1 ▸ hstart.length_le
  have hline : (List.range e.len).map s.buf = l := by
    apply List.ext_getElem
    · rw [List.length_map, List.length_range, he, hl.1]
    · intro j hj hj'
      rw [List.getElem_map, List.getElem_range, hl.2 j hj']
  have hne : e.text ≠ l := by
    intro heq
    rw [← heq] at hstart
    revert hstart
    cases e <;> decide
  cases e with
  | connect => exact absurd (he ▸ hle) (by decide)
  | socketClose => exact absurd (he ▸ hle) (by decide)
  | _ =>
    show some (decide ((List.range _).map s.buf = _)) = some false
    rw [hline]
    exact congrArg some (decide_eq_false hne.symm)

theorem prvParseEvt_none {s : Rx} (tick : UInt32) : ∀ {es : List Evt},
    (∀ e ∈ es, e.len = s.off → s.isText e = some false) → prvParseEvt tick es s = some s
  | [], _ => rfl
  | e :: es, h => by
      have ih := prvParseEvt_none tick fun e' he' => h e' (List.mem_cons_of_mem e he')
      rw [prvParseEvt]
      split
      · rename_i hlen
        rw [h e List.mem_cons_self hlen, Option.bind_some, if_neg Bool.false_ne_true, ih]
      · exact ih

/-- A byte of the header's beginning is stored and that is all. -/
theorem onByte_front {s : Rx} {l : List UInt8} {b : UInt8} (tick : UInt32)
    (hs : ∀ e, s.rcvEvt e = false) (hl : Line s l) (hstart : l ++ [b] <+: headerFront) :
    onByte s b tick = some (s.put b) := by
  have hle := hstart.length_le
  have hnine : headerFront.length = 9 := rfl
  rw [List.length_append, List.length_singleton, hnine] at hle
  have hline := line_put hl b (by unfold rxBufferSize; omega)
  have hany : (s.put b).isRcvAnyEvt = false := isRcvAnyEvt_eq_false hs
  have hfound : (if !(s.put b).isRcvAnyEvt && decide (gprsEvtSzMin ≤ (s.put b).off)
      then prvParseEvt tick Evt.list (s.put b) else some (s.put b)) = some (s.put b) := by
    split
    · exact prvParseEvt_none tick fun e _ he => isText_headerFront hline hstart he
    · rfl
  have hskip : parseOrder.foldlM (parseIf tick) (s.put b) = some (s.put b) :=
    foldlM_parseIf_skip fun e _ => hs e
  have hcrlf : (s.put b).crlf = false := by
    unfold Rx.crlf
    rw [line_last hline]
    have hne : b ≠ 10 := by
      rintro rfl
      have hmem := hstart.subset (List.mem_append_right l (List.mem_singleton_self 10))
      exact absurd hmem (by decide)
    simp [hne]
  have hend : endLine (s.put b) = s.put b := by
    unfold endLine
    simp [hcrlf]
  unfold onByte
  dsimp only
  rw [hfound, Option.bind_some, hskip, Option.map_some, hend]

theorem onBytes_front {bs : List (UInt8 × UInt32)} : ∀ {s : Rx} {l : List UInt8},
    (∀ e, s.rcvEvt e = false) → Line s l → l ++ bs.map Prod.fst <+: headerFront →
      ∃ s', onBytes s bs = some s' ∧ Same s s' ∧ s'.nRemain = s.nRemain ∧
        Line s' (l ++ bs.map Prod.fst) := by
  induction bs with
  | nil =>
    intro s l _ hl _
    exact ⟨s, rfl, Same.refl s, rfl, by simpa using hl⟩
  | cons x bs ih =>
    intro s l hs hl hstart
    obtain ⟨b, tick⟩ := x
    rw [List.map_cons, List.append_cons] at hstart
    have hb : l ++ [b] <+: headerFront := (List.prefix_append _ _).trans hstart
    have hle := hb.length_le
    have hnine : headerFront.length = 9 := rfl
    rw [List.length_append, List.length_singleton, hnine] at hle
    have hstep := onByte_front tick hs hl hb
    obtain ⟨s', hrun, hsame, hnRemain, hline⟩ := ih (s := s.put b) hs
      (line_put hl b (by unfold rxBufferSize; omega)) hstart
    refine ⟨s', ?_, (same_put s b).trans hsame, hnRemain, by simpa using hline⟩
    rw [onBytes, hstep]
    exact hrun

/-- With its tenth byte the header is recognised, as if it had been before that byte. -/
theorem onByte_recognise {s : Rx} {tick : UInt32} (hs : ∀ e, s.rcvEvt e = false)
    (hl : Line s headerFront) : onByte s 32 tick = onByte (s.recognise .sisr tick) 32 tick := by
  have hline : Line (s.put 32) Evt.sisr.text := line_put hl 32 (by decide)
  have hoff : (s.put 32).off = 10 := hline.1
  have hany : (s.put 32).isRcvAnyEvt = false := isRcvAnyEvt_eq_false hs
  have htext : (s.put 32).isText .sisr = some true := by
    have hmap : (List.range Evt.sisr.len).map (s.put 32).buf = Evt.sisr.text := by
      apply List.ext_getElem
      · rw [List.length_map, List.length_range]
        rfl
      · intro j hj hj'
        rw [List.getElem_map, List.getElem_range, hline.2 j hj']
    exact congrArg some (decide_eq_true hmap)
  have hfound : prvParseEvt tick Evt.list (s.put 32) = some ((s.put 32).recognise .sisr tick) := by
    have hlen : ∀ e : Evt, e ≠ .sisr → e.len ≠ (s.put 32).off := by
      intro e he
      rw [hoff]
      revert he
      cases e <;> decide
    have hsisr : Evt.sisr.len = (s.put 32).off := hoff.symm
    unfold Evt.list
    rw [prvParseEvt, if_neg (hlen _ (by decide)), prvParseEvt, if_neg (hlen _ (by decide)),
      prvParseEvt, if_neg (hlen _ (by decide)), prvParseEvt, if_neg (hlen _ (by decide)),
      prvParseEvt, if_neg (hlen _ (by decide)), prvParseEvt, if_pos hsisr, htext,
      Option.bind_some, if_pos rfl]
  have hany' : ((s.recognise .sisr tick).put 32).isRcvAnyEvt = true :=
    isRcvAnyEvt_of_rcvEvt (Function.update_self _ _ _)
  unfold onByte
  dsimp only
  rw [if_pos (by simp [hany, hoff, gprsEvtSzMin]), hfound, if_neg (by simp [hany'])]
  rfl

theorem receiving_recognise {s : Rx} {tick : UInt32} (hs : ∀ e, s.rcvEvt e = false) :
    Receiving (s.recognise .sisr tick) := by
  constructor
  · intro e
    show Function.update s.rcvEvt .sisr true e = _
    by_cases he : e = .sisr
    · subst he
      exact Function.update_self _ _ _
    · rw [Function.update_of_ne he, hs e]
      exact (decide_eq_false he).symm
  · show (if s.rcvEvt .sisr then s.isEvtParse else Function.update s.isEvtParse .sisr false) .sisr =
      false
    rw [hs .sisr, if_neg Bool.false_ne_true]
    exact Function.update_self _ _ _

/-! ## A whole header -/

/-- What an earlier header left to count does not come to its end within `m` bytes. -/
def LeftoverOk (s : Rx) (m : Nat) : Prop :=
  s.nRemain ≤ 0 ∨ gprsSocketMax ≤ s.nId ∨ 0 ≤ s.nId ∧ m < s.nRemain

/-- The bytes come in time; the header is recognised with its tenth byte. -/
def TimelyHeader (head body : List (UInt8 × UInt32)) : Prop :=
  ∀ x ∈ head.drop 9 ++ body,
    x.2 - ((head[9]?.map Prod.snd).getD 0) ≤ rtTickFromMillisecond 1000

/-- The state in which the payload of `n` bytes for the socket `id` begins. -/
structure AtPayload (s₀ s : Rx) (id n : Nat) (tick : UInt32) : Prop where
  receiving : Receiving s
  line : Line s []
  nId : s.nId = id
  nRemain : s.nRemain = min 2147483647 (n : Int)
  nIndex : s.nIndex = 0
  calls : s.calls = s₀.calls
  size : (s.sockets id).pInBuffer.length = (s₀.sockets id).pInBuffer.length
  onRecv : (s.sockets id).onRecv = (s₀.sockets id).onRecv
  rcvEvtTick : s.rcvEvtTick .sisr = tick

/-- The parts of a header with its ticks. -/
theorem exists_header_parts {head : List (UInt8 × UInt32)} {id n : Nat}
    (h : head.map Prod.fst = header id n) : ∃ front tick rest last,
      head = front ++ ((32, tick) :: rest ++ [(10, last)]) ∧ front.map Prod.fst = headerFront ∧
        ((32, tick) :: rest).map Prod.fst = headerRest id n ∧
          (head[9]?.map Prod.snd).getD 0 = tick ∧
            head.drop 9 = (32, tick) :: rest ++ [(10, last)] := by
  obtain ⟨front, back, rfl, hfront, hback⟩ := List.map_eq_append_iff.mp h
  obtain ⟨rest, end_, rfl, hrest, hend⟩ := List.map_eq_append_iff.mp hback
  obtain ⟨⟨c, last⟩, rfl, hlast⟩ := List.map_eq_singleton_iff.mp hend
  obtain ⟨⟨b, tick⟩, rest, rfl, hb, hrest'⟩ := List.map_eq_cons_iff.mp hrest
  obtain rfl : c = 10 := hlast
  obtain rfl : b = 32 := hb
  have hnine : front.length = 9 := by
    rw [← List.length_map, hfront]
    rfl
  refine ⟨front, tick, rest, last, rfl, hfront, ?_, ?_, ?_⟩
  · rw [List.map_cons, hrest']
    rfl
  · rw [List.getElem?_append_right (by omega), hnine]
    rfl
  · rw [List.drop_append_of_le_length (by omega), List.drop_of_length_le (by omega),
      List.nil_append]

/-- Where the header is recognised: nothing of the receiver has changed but the line. -/
theorem onBytes_recognised {s : Rx} {front : List (UInt8 × UInt32)} (tick : UInt32)
    (hs : AtRest s) (hfront : front.map Prod.fst = headerFront) :
    ∃ s', Receiving s' ∧ Line s' headerFront ∧ s'.nId = s.nId ∧ s'.nRemain = s.nRemain ∧
      s'.calls = s.calls ∧
      (∀ id, (s'.sockets id).pInBuffer.length = (s.sockets id).pInBuffer.length) ∧
      (∀ id, (s'.sockets id).onRecv = (s.sockets id).onRecv) ∧ s'.rcvEvtTick .sisr = tick ∧
        ∀ rest, onBytes s (front ++ (32, tick) :: rest) = onBytes s' ((32, tick) :: rest) := by
  have hempty : Line s [] := ⟨hs.2, fun j hj => absurd hj (Nat.not_lt_zero j)⟩
  have hstart : [] ++ front.map Prod.fst <+: headerFront := by
    rw [hfront, List.nil_append]
  obtain ⟨t, hrun, hsame, hnRemain, hline⟩ := onBytes_front hs.1 hempty hstart
  rw [hfront, List.nil_append] at hline
  have hflags : ∀ e, t.rcvEvt e = false := by
    rw [hsame.rcvEvt]
    exact hs.1
  refine ⟨t.recognise .sisr tick, receiving_recognise hflags, hline, hsame.nId, hnRemain,
    hsame.calls, hsame.size, hsame.onRecv, ?_, fun rest => ?_⟩
  · show Function.update t.rcvEvtTick .sisr tick .sisr = tick
    exact Function.update_self _ _ _
  rw [onBytes_append, hrun, Option.bind_some, onBytes, onBytes, onByte_recognise hflags hline]

theorem not_mem_headerRest {id n : Nat} (hid : id < gprsSocketMax) {c : UInt8}
    (hc : c = 10 ∨ c = 43) : c ∉ headerRest id n := by
  have hsocket : c ≠ UInt8.ofNat (48 + id) := by
    intro heq
    have hval := toNat_digit (d := id) (by unfold gprsSocketMax at hid; omega)
    rw [← heq] at hval
    rcases hc with rfl | rfl
    · exact absurd hval (by rw [show (10 : UInt8).toNat = 10 from rfl]; omega)
    · exact absurd hval (by rw [show (43 : UInt8).toNat = 43 from rfl]; omega)
  have hdecimal : c ∉ decimal n := by
    apply not_mem_decimal
    rcases hc with rfl | rfl <;> decide
  unfold headerRest
  simp only [List.mem_cons, List.mem_append, List.not_mem_nil, or_false, not_or]
  refine ⟨?_, hsocket, ?_, ?_, hdecimal, ?_⟩ <;> rcases hc with rfl | rfl <;> decide

theorem length_headerRest_le (id : Nat) {n : Nat} (hn : n < 4294967296) :
    (headerRest id n).length ≤ 15 := by
  have hlen : (decimal n).length ≤ 10 := length_decimal_le (by omega)
  simp [headerRest]
  omega

theorem onBytes_header {s : Rx} {head : List (UInt8 × UInt32)} {id n : Nat} (hs : AtRest s)
    (hhead : head.map Prod.fst = header id n) (htime : TimelyHeader head [])
    (hid : id < gprsSocketMax) (hn : 0 < n) (hn' : n < 4294967296)
    (hleft : LeftoverOk s (headerRest id n).length) :
    ∃ s', onBytes s head = some s' ∧
      AtPayload s s' id n ((head[9]?.map Prod.snd).getD 0) := by
  obtain ⟨front, tick, rest, last, hparts, hfront, hrest, htick, hdrop⟩ :=
    exists_header_parts hhead
  obtain ⟨t, ht, htline, htId, htRemain, htcalls, htsize, htrecv, httick, htrun⟩ :=
    onBytes_recognised tick hs hfront
  have hlen := length_headerRest_le id hn'
  rw [← hrest, List.length_map] at hlen hleft
  have hquiet : Quiet headerFront (((32, tick) :: rest).map Prod.fst) := by
    rw [hrest]
    exact quiet_of_not_mem (not_mem_headerRest hid (Or.inl rfl)) _
  have hin : ∀ x ∈ (32, tick) :: rest, InTime t x.2 := by
    intro x hx
    have hx' := htime x (by rw [hdrop, List.append_nil]; exact List.mem_append_left _ hx)
    unfold InTime
    rw [httick, ← htick]
    exact hx'
  have hfit : headerFront.length + ((32, tick) :: rest).length < rxBufferSize := by
    have hnine : headerFront.length = 9 := rfl
    unfold rxBufferSize
    omega
  have hbefore : ∃ u, onBytes t ((32, tick) :: rest) = some u ∧ Same t u ∧
      Line u (headerFront ++ headerRest id n) := by
    rw [← hrest]
    by_cases hcount : NotCounting t
    · obtain ⟨u, hrun, hsame, hline, -⟩ := onBytes_notCounting ht htline hfit hquiet hin hcount
      exact ⟨u, hrun, hsame, hline⟩
    · unfold NotCounting at hcount
      rw [not_not, htRemain, htId] at hcount
      unfold LeftoverOk at hleft
      obtain ⟨hpos, hmore⟩ : 0 ≤ s.nId ∧ ((((32, tick) :: rest).length : Nat) : Int) < s.nRemain := by
        omega
      obtain ⟨k, hk⟩ := Int.eq_ofNat_of_zero_le hpos
      obtain ⟨u, hrun, hsame, hline, -⟩ := onBytes_more (by omega) ht htline hfit hquiet
        hin (htId.trans hk) (by rw [htRemain]; exact hmore)
      exact ⟨u, hrun, hsame, hline⟩
  obtain ⟨u, hrun, hsame, hline⟩ := hbefore
  obtain ⟨s', hlast, hreceiving, hoff, hnId, hnRemain, hnIndex, hsockets, hcalls, htick'⟩ :=
    onByte_headerEnd last (hsame.receiving ht) hline hid hn hn'
  refine ⟨s', ?_, hreceiving, ⟨hoff, fun j hj => absurd hj (Nat.not_lt_zero j)⟩, hnId, hnRemain,
    hnIndex, ?_, ?_, ?_, ?_⟩
  · rw [hparts, List.cons_append, htrun, ← List.cons_append, onBytes_append, hrun,
      Option.bind_some, onBytes, hlast]
    rfl
  · rw [hcalls, hsame.calls, htcalls]
  · rw [hsockets, hsame.size, htsize]
  · rw [hsockets, hsame.onRecv, htrecv]
  · rw [htick', hsame.rcvEvtTick, httick, htick]

end K64Gateway.Gprs
