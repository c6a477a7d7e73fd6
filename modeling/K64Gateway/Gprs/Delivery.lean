import K64Gateway.Gprs.Payload

/-
  Which payloads reach `onRecv`: the header "+RECEIVE: <id>, <n>" and its line end, then n bytes.

  Proved: exactly which payloads of a receiver at the start of a line are handed to `onRecv` as
  they came, once, with no event left (`payload_delivered`).
-/

namespace K64Gateway.Gprs

open CString TaggedText VarManage

/-! ## A payload that is lost -/

/-- Nothing of the receiving of a payload has changed. -/
structure SameCount (s s' : Rx) : Prop where
  nId : s'.nId = s.nId
  nRemain : s'.nRemain = s.nRemain
  nIndex : s'.nIndex = s.nIndex
  calls : s'.calls = s.calls

theorem SameCount.refl (s : Rx) : SameCount s s := ⟨rfl, rfl, rfl, rfl⟩

theorem SameCount.trans {s s' s'' : Rx} (h : SameCount s s') (h' : SameCount s' s'') :
    SameCount s s'' :=
  ⟨h'.nId.trans h.nId, h'.nRemain.trans h.nRemain, h'.nIndex.trans h.nIndex,
    h'.calls.trans h.calls⟩

theorem Untouched.sameCount {e : Evt} {s s' : Rx} (h : Untouched e s s') : SameCount s s' :=
  ⟨h.nId, h.nRemain, h.nIndex, h.calls⟩

theorem sameCount_endLine (s : Rx) : SameCount s (endLine s) := by
  unfold endLine
  split
  · exact ⟨rfl, rfl, rfl, rfl⟩
  · exact SameCount.refl s

theorem sameCount_parseEvt {tick : UInt32} {s s' : Rx} : ∀ {es : List Evt},
    prvParseEvt tick es s = some s' → SameCount s s'
  | [], h => Option.some.inj h ▸ SameCount.refl s
  | e :: es, h => by
      rw [prvParseEvt] at h
      split at h
      · obtain ⟨found, -, hfound⟩ := Option.bind_eq_some_iff.mp h
        split at hfound
        · rw [← Option.some.inj hfound]
          exact ⟨rfl, rfl, rfl, rfl⟩
        · exact sameCount_parseEvt hfound
      · exact sameCount_parseEvt h

theorem sameCount_foldlM {tick : UInt32} : ∀ {es : List Evt} {s s' : Rx}, .sisr ∉ es →
    es.foldlM (parseIf tick) s = some s' → SameCount s s'
  | [], s, _, _, h => Option.some.inj h ▸ SameCount.refl s
  | e :: es, s, s', hmem, h => by
      rw [List.mem_cons, not_or] at hmem
      rw [List.foldlM_cons] at h
      obtain ⟨t, ht, hrest⟩ := Option.bind_eq_some_iff.mp h
      have hfirst : SameCount s t := by
        unfold parseIf at ht
        split at ht
        · exact (untouched_parse (fun he => hmem.1 he.symm) ht).sameCount
        · exact Option.some.inj ht ▸ SameCount.refl s
      exact hfirst.trans (sameCount_foldlM hmem.2 hrest)

/-- With `r` bytes to come, no payload of `n` bytes can be handed over any more. -/
def Lost (n r : Nat) (s : Rx) : Prop :=
  s.nRemain ≤ 0 ∨ gprsSocketMax ≤ s.nId ∨ s.nIndex + r < n

/-- What was handed over in between is shorter than `n`. -/
def ShortCalls (n : Nat) (s s' : Rx) : Prop :=
  ∃ new, s'.calls = s.calls ++ new ∧ ∀ call ∈ new, call.2.length < n

theorem ShortCalls.of_eq {n : Nat} {s s' : Rx} (h : s'.calls = s.calls) : ShortCalls n s s' :=
  ⟨[], by rw [h, List.append_nil], fun call hcall => absurd hcall List.not_mem_nil⟩

theorem ShortCalls.trans {n : Nat} {s s' s'' : Rx} (h : ShortCalls n s s')
    (h' : ShortCalls n s' s'') : ShortCalls n s s'' := by
  obtain ⟨new, hnew, hshort⟩ := h
  obtain ⟨new', hnew', hshort'⟩ := h'
  refine ⟨new ++ new', by rw [hnew', hnew, List.append_assoc], fun call hcall => ?_⟩
  rcases List.mem_append.mp hcall with hcall | hcall
  · exact hshort call hcall
  · exact hshort' call hcall

theorem SameCount.lost {n r : Nat} {s s' : Rx} (h : SameCount s s') (hs : Lost n r s) :
    Lost n r s' := by
  unfold Lost
  rw [h.nId, h.nRemain, h.nIndex]
  exact hs

theorem Lost.mono {n r r' : Nat} {s : Rx} (h : Lost n r s) (hr : r' ≤ r) : Lost n r' s := by
  rcases h with hle | hge | hlt
  · exact Or.inl hle
  · exact Or.inr (Or.inl hge)
  · exact Or.inr (Or.inr (by omega))

/-- A header inside a payload announces bytes of which less than `n` are to come. -/
theorem lost_header {n r : Nat} (s : Rx) (hr : r < n) :
    Lost n r s.header ∧ s.header.calls = s.calls := by
  unfold Rx.header
  dsimp only
  split
  · refine ⟨Or.inr (Or.inr ?_), ?_⟩
    · show 0 + r < n
      omega
    · show (if _ then _ else _ : Rx).calls = _
      split
      · rfl
      · rfl
  · rename_i hge
    exact ⟨Or.inr (Or.inl (Int.not_lt.mp hge)), rfl⟩

theorem store_count {s s' : Rx} (h : s.store = some s') :
    s'.nId = s.nId ∧ s'.nIndex ≤ s.nIndex + 1 ∧ s'.calls = s.calls := by
  unfold Rx.store at h
  dsimp only at h
  split at h
  · split at h
    · exact absurd h (Option.some_ne_none s').symm
    · rw [← Option.some.inj h]
      exact ⟨rfl, Nat.le_refl _, rfl⟩
  · rw [← Option.some.inj h]
    exact ⟨rfl, Nat.le_succ _, rfl⟩

theorem countDown_count {n : Nat} {s : Rx} (h : s.nIndex < n) :
    s.countDown.nId = s.nId ∧ s.countDown.nIndex = s.nIndex ∧ ShortCalls n s s.countDown := by
  unfold Rx.countDown
  split
  · refine ⟨rfl, rfl, ?_⟩
    dsimp only
    split
    · refine ⟨_, rfl, fun call hcall => ?_⟩
      rw [List.mem_singleton.mp hcall]
      exact (List.length_take_le _ _).trans_lt h
    · exact ShortCalls.of_eq rfl
  · exact ⟨rfl, rfl, ShortCalls.of_eq rfl⟩

theorem lost_prvParseSISR {n r : Nat} {s s' : Rx} {tick : UInt32} (hr : r < n)
    (hlost : Lost n (r + 1) s) (h : prvParseSISR tick s = some s') :
    Lost n r s' ∧ ShortCalls n s s' := by
  unfold prvParseSISR at h
  split at h
  · rw [← Option.some.inj h]
    obtain ⟨hlost', hcalls⟩ := lost_header s hr
    exact ⟨hlost', ShortCalls.of_eq hcalls⟩
  · split at h
    · rename_i hcount
      split at h
      · exact absurd h (Option.some_ne_none s').symm
      · obtain ⟨t, hstore, rfl⟩ := Option.map_eq_some_iff.mp h
        obtain ⟨hnId, hnIndex, hcalls⟩ := store_count hstore
        have hroom : s.nIndex + (r + 1) < n := by
          rcases hlost with hle | hge | hlt
          · exact absurd hcount.1 (Int.not_lt.mpr hle)
          · exact absurd hcount.2 (Int.not_lt.mpr hge)
          · exact hlt
        obtain ⟨hnId', hnIndex', hshort⟩ := countDown_count (n := n) (s := t) (by omega)
        have hsame := (untouched_timeout .sisr 1000 tick t.countDown).sameCount
        refine ⟨hsame.lost (Or.inr (Or.inr ?_)), ?_⟩
        · rw [hnIndex']
          omega
        · exact ((ShortCalls.of_eq hcalls).trans hshort).trans (ShortCalls.of_eq hsame.calls)
    · rw [← Option.some.inj h]
      have hsame := (untouched_timeout .sisr 1000 tick s).sameCount
      exact ⟨hsame.lost (hlost.mono (Nat.le_succ r)), ShortCalls.of_eq hsame.calls⟩

/-- The steps of `onByte`. -/
theorem exists_onByte {s s' : Rx} {b : UInt8} {tick : UInt32} (h : onByte s b tick = some s') :
    ∃ t u, (if !(s.put b).isRcvAnyEvt && decide (gprsEvtSzMin ≤ (s.put b).off)
      then prvParseEvt tick Evt.list (s.put b) else some (s.put b)) = some t ∧
        parseOrder.foldlM (parseIf tick) t = some u ∧ s' = endLine u := by
  obtain ⟨u, hu, rfl⟩ := Option.map_eq_some_iff.mp h
  obtain ⟨t, ht, hu⟩ := Option.bind_eq_some_iff.mp hu
  exact ⟨t, u, ht, hu, rfl⟩

theorem lost_onByte {n r : Nat} {s s' : Rx} {b : UInt8} {tick : UInt32} (hr : r < n)
    (hlost : Lost n (r + 1) s) (h : onByte s b tick = some s') :
    Lost n r s' ∧ ShortCalls n s s' := by
  obtain ⟨t, u, ht, hu, rfl⟩ := exists_onByte h
  have hput : SameCount s (s.put b) := ⟨rfl, rfl, rfl, rfl⟩
  have hfound : SameCount (s.put b) t := by
    split at ht
    · exact sameCount_parseEvt ht
    · exact Option.some.inj ht ▸ SameCount.refl _
  rw [parseOrder_split, List.foldlM_append] at hu
  obtain ⟨v, hv, hu⟩ := Option.bind_eq_some_iff.mp hu
  rw [List.foldlM_cons] at hu
  obtain ⟨w, hw, hu⟩ := Option.bind_eq_some_iff.mp hu
  have hbefore := (hput.trans hfound).trans (sameCount_foldlM (by decide) hv)
  have hbehind := (sameCount_foldlM (by decide) hu).trans (sameCount_endLine u)
  have hsisr : Lost n r w ∧ ShortCalls n v w := by
    unfold parseIf at hw
    split at hw
    · exact lost_prvParseSISR hr (hbefore.lost hlost) hw
    · rw [← Option.some.inj hw]
      exact ⟨(hbefore.lost hlost).mono (Nat.le_succ r), ShortCalls.of_eq rfl⟩
  exact ⟨hbehind.lost hsisr.1, ((ShortCalls.of_eq hbefore.calls).trans hsisr.2).trans
    (ShortCalls.of_eq hbehind.calls)⟩

theorem lost_onBytes {n : Nat} : ∀ {bs : List (UInt8 × UInt32)} {s s' : Rx}, bs.length ≤ n →
    Lost n bs.length s → onBytes s bs = some s' → ShortCalls n s s'
  | [], s, _, _, _, h => Option.some.inj h ▸ ShortCalls.of_eq rfl
  | (b, tick) :: bs, s, s', hle, hlost, h => by
      rw [List.length_cons] at hle hlost
      rw [onBytes] at h
      obtain ⟨t, ht, hrest⟩ := Option.bind_eq_some_iff.mp h
      obtain ⟨hlost', hshort⟩ := lost_onByte (by omega) hlost ht
      exact hshort.trans (lost_onBytes (by omega) hlost' hrest)

/-! ## A header that comes into an unfinished payload -/

/-- The line is not one in which a payload's header can still be recognised. -/
def NotHead (s : Rx) : Prop :=
  s.rcvEvt .sisr = false ∧ (s.off = 0 ∨ 10 ≤ s.off ∨ s.buf 0 ≠ 43)

theorem line_prvParseEvt {tick : UInt32} {s s' : Rx} : ∀ {es : List Evt},
    prvParseEvt tick es s = some s' → s'.off = s.off ∧ s'.buf = s.buf ∧
      s'.nRemain = s.nRemain ∧
        (s'.rcvEvt .sisr = s.rcvEvt .sisr ∨ s.off = 10 ∧ s.buf 0 = 43)
  | [], h => Option.some.inj h ▸ ⟨rfl, rfl, rfl, Or.inl rfl⟩
  | e :: es, h => by
      rw [prvParseEvt] at h
      split at h
      · rename_i hlen
        obtain ⟨found, htext, hfound⟩ := Option.bind_eq_some_iff.mp h
        split at hfound
        · rename_i hyes
          rw [← Option.some.inj hfound]
          refine ⟨rfl, rfl, rfl, ?_⟩
          by_cases he : e = .sisr
          · subst he
            right
            refine ⟨hlen.symm, ?_⟩
            rw [hyes] at htext
            have hmap : (List.range Evt.sisr.len).map s.buf = Evt.sisr.text :=
              of_decide_eq_true (Option.some.inj htext)
            exact (List.cons_eq_cons.mp hmap).1
          · exact Or.inl (Function.update_of_ne (fun h => he h.symm) _ _)
        · exact line_prvParseEvt hfound
      · exact line_prvParseEvt h

theorem foldlM_notHead {tick : UInt32} : ∀ {es : List Evt} {s s' : Rx},
    s.rcvEvt .sisr = false → es.foldlM (parseIf tick) s = some s' →
      s'.rcvEvt .sisr = false ∧ s'.nRemain = s.nRemain ∧
        (s'.off = 0 ∨ s'.off = s.off ∧ s'.buf = s.buf)
  | [], s, _, hs, h => Option.some.inj h ▸ ⟨hs, rfl, Or.inr ⟨rfl, rfl⟩⟩
  | e :: es, s, s', hs, h => by
      rw [List.foldlM_cons] at h
      obtain ⟨t, ht, hrest⟩ := Option.bind_eq_some_iff.mp h
      have hfirst : t.rcvEvt .sisr = false ∧ t.nRemain = s.nRemain ∧
          (t.off = 0 ∨ t.off = s.off ∧ t.buf = s.buf) := by
        unfold parseIf at ht
        split at ht
        · rename_i hpending
          have hne : e ≠ .sisr := by
            rintro rfl
            rw [hs] at hpending
            exact absurd hpending Bool.false_ne_true
          have huntouched := untouched_parse hne ht
          exact ⟨(huntouched.rcvEvt .sisr hne.symm).trans hs, huntouched.nRemain, huntouched.line⟩
        · exact Option.some.inj ht ▸ ⟨hs, rfl, Or.inr ⟨rfl, rfl⟩⟩
      obtain ⟨hsisr, hnRemain, hline⟩ := foldlM_notHead hfirst.1 hrest
      refine ⟨hsisr, hnRemain.trans hfirst.2.1, ?_⟩
      rcases hline with hzero | ⟨hoff, hbuf⟩
      · exact Or.inl hzero
      · rw [hoff, hbuf]
        exact hfirst.2.2

theorem notHead_onByte {s s' : Rx} {b : UInt8} {tick : UInt32} (hs : NotHead s) (hb : b ≠ 43)
    (h : onByte s b tick = some s') : NotHead s' ∧ s'.nRemain = s.nRemain := by
  obtain ⟨t, u, ht, hu, rfl⟩ := exists_onByte h
  obtain ⟨hsisr, hplace⟩ := hs
  have hput : (s.put b).off = 0 ∨ 11 ≤ (s.put b).off ∨ (s.put b).buf 0 ≠ 43 := by
    show (if rxBufferSize ≤ s.off + 1 then 0 else s.off + 1) = 0 ∨
      11 ≤ (if rxBufferSize ≤ s.off + 1 then 0 else s.off + 1) ∨
        Function.update s.buf s.off b 0 ≠ 43
    rcases hplace with hzero | hten | hplus
    · right
      right
      rw [hzero, Function.update_self]
      exact hb
    · split
      · exact Or.inl rfl
      · exact Or.inr (Or.inl (by omega))
    · by_cases hzero : s.off = 0
      · right
        right
        rw [hzero, Function.update_self]
        exact hb
      · right
        right
        rw [Function.update_of_ne (Ne.symm hzero)]
        exact hplus
  have hfound : t.rcvEvt .sisr = false ∧ t.nRemain = s.nRemain ∧ t.off = (s.put b).off ∧
      t.buf = (s.put b).buf := by
    split at ht
    · obtain ⟨hoff, hbuf, hnRemain, hflag⟩ := line_prvParseEvt ht
      refine ⟨?_, hnRemain, hoff, hbuf⟩
      rcases hflag with hflag | ⟨hten, hplus⟩
      · exact hflag.trans hsisr
      · rcases hput with hzero | hlarge | hne
        · omega
        · omega
        · exact absurd hplus hne
    · rw [← Option.some.inj ht]
      exact ⟨hsisr, rfl, rfl, rfl⟩
  obtain ⟨hflag, hnRemain, hline⟩ := foldlM_notHead hfound.1 hu
  have hplace' : u.off = 0 ∨ 10 ≤ u.off ∨ u.buf 0 ≠ 43 := by
    rcases hline with hzero | ⟨hoff, hbuf⟩
    · exact Or.inl hzero
    · rw [hoff, hbuf, hfound.2.2.1, hfound.2.2.2]
      rcases hput with hzero | hlarge | hne
      · exact Or.inl hzero
      · exact Or.inr (Or.inl (by omega))
      · exact Or.inr (Or.inr hne)
  refine ⟨?_, ((sameCount_endLine u).nRemain.trans hnRemain).trans hfound.2.1⟩
  unfold endLine
  split
  · exact ⟨hflag, Or.inl rfl⟩
  · exact ⟨hflag, hplace'⟩

theorem notHead_onBytes : ∀ {bs : List (UInt8 × UInt32)} {s s' : Rx}, NotHead s →
    (43 : UInt8) ∉ bs.map Prod.fst → onBytes s bs = some s' → s'.nRemain = s.nRemain
  | [], _, _, _, _, h => by rw [Option.some.inj h]
  | (b, tick) :: bs, s, s', hs, hmem, h => by
      rw [List.map_cons, List.mem_cons, not_or] at hmem
      rw [onBytes] at h
      obtain ⟨t, ht, hrest⟩ := Option.bind_eq_some_iff.mp h
      obtain ⟨hnotHead, hnRemain⟩ := notHead_onByte hs (fun hb => hmem.1 hb.symm) ht
      exact (notHead_onBytes hnotHead hmem.2 hrest).trans hnRemain

theorem quiet_append : ∀ {xs ys l : List UInt8}, Quiet l (xs ++ ys) →
    Quiet l xs ∧ Quiet (l ++ xs) ys
  | [], _, _, h => ⟨trivial, by rw [List.append_nil]; exact h⟩
  | x :: xs, ys, l, h => by
      obtain ⟨hxs, hys⟩ := quiet_append h.2
      rw [← List.append_cons] at hys
      exact ⟨⟨h.1, hxs⟩, hys⟩

/-- A socket number below zero is read in front of the list. -/
theorem onByte_noSocket {s : Rx} {l : List UInt8} {b : UInt8} (tick : UInt32) (hs : Receiving s)
    (hl : Line s l) (hfit : l.length + 1 < rxBufferSize) (hquiet : ¬ EndsLine l b)
    (hremain : 0 < s.nRemain) (hid : s.nId < 0) : onByte s b tick = none := by
  have hrest : ¬ (Evt.sisr.len ≤ (s.put b).off ∧ (s.put b).crlf = true) :=
    fun h => hquiet ((endsLine_iff (line_put hl b hfit)).mp h)
  have hcount : 0 < (s.put b).nRemain ∧ (s.put b).nId < gprsSocketMax :=
    ⟨hremain, hid.trans_le (Int.natCast_nonneg gprsSocketMax)⟩
  rw [onByte_receiving hs]
  unfold prvParseSISR
  rw [if_neg hrest, if_pos hcount, if_pos (show (s.put b).nId < 0 from hid), Option.map_none]

/-- Where what an earlier header left comes to its end, the new header is not read. -/
theorem lost_of_leftover {s s' : Rx} {head : List (UInt8 × UInt32)} {id n : Nat} (hs : AtRest s)
    (hhead : head.map Prod.fst = header id n) (htime : TimelyHeader head [])
    (hid : id < gprsSocketMax) (hn' : n < 4294967296)
    (hleft : ¬ LeftoverOk s (headerRest id n).length) (h : onBytes s head = some s') :
    s'.nRemain ≤ 0 := by
  obtain ⟨front, tick, rest, last, hparts, hfront, hrest, htick, hdrop⟩ :=
    exists_header_parts hhead
  obtain ⟨t, ht, htline, htId, htRemain, -, -, -, httick, htrun⟩ :=
    onBytes_recognised tick hs hfront
  have hlen := length_headerRest_le id hn'
  rw [← hrest, List.length_map] at hlen hleft
  have hnine : headerFront.length = 9 := rfl
  have hquiet : Quiet headerFront (((32, tick) :: rest).map Prod.fst) := by
    rw [hrest]
    exact quiet_of_not_mem (not_mem_headerRest hid (Or.inl rfl)) _
  obtain ⟨hremain, hlt, hle⟩ : 0 < t.nRemain ∧ t.nId < gprsSocketMax ∧
      (0 ≤ t.nId → t.nRemain ≤ (((32, tick) :: rest).length : Nat)) := by
    rw [htRemain, htId]
    unfold LeftoverOk at hleft
    omega
  rw [hparts, List.cons_append, htrun, ← List.cons_append] at h
  by_cases hneg : t.nId < 0
  · have hnone := onByte_noSocket tick ht htline (by unfold rxBufferSize; omega)
      hquiet.1 hremain hneg
    rw [List.cons_append, onBytes, hnone] at h
    exact absurd h (Option.some_ne_none s').symm
  · obtain ⟨k, hk⟩ := Int.eq_ofNat_of_zero_le (Int.not_lt.mp hneg)
    obtain ⟨m, hm⟩ := Int.eq_ofNat_of_zero_le hremain.le
    have hm0 : 0 < m := by omega
    have hmle : m ≤ ((32, tick) :: rest).length := by
      have hle' := hle (Int.not_lt.mp hneg)
      omega
    -- the last byte that is counted, and those before and behind it
    obtain ⟨before, x, behind, hsplit, hbefore⟩ : ∃ before x behind,
        (32, tick) :: rest = before ++ x :: behind ∧ before.length = m - 1 := by
      refine ⟨((32, tick) :: rest).take (m - 1), ((32, tick) :: rest).get ⟨m - 1, by omega⟩,
        ((32, tick) :: rest).drop (m - 1 + 1), ?_, ?_⟩
      · rw [List.get_eq_getElem, List.getElem_cons_drop, List.take_append_drop]
      · rw [List.length_take]
        omega
    have hin : ∀ y ∈ before ++ x :: behind, InTime t y.2 := by
      intro y hy
      rw [← hsplit] at hy
      have hy' := htime y (by rw [hdrop, List.append_nil]; exact List.mem_append_left _ hy)
      unfold InTime
      rw [httick, ← htick]
      exact hy'
    have hplus : (43 : UInt8) ∉ (before ++ x :: behind).map Prod.fst := by
      rw [← hsplit, hrest]
      exact not_mem_headerRest hid (Or.inr rfl)
    rw [hsplit, List.map_append, List.map_cons] at hquiet
    rw [hsplit, List.length_append, List.length_cons] at hlen
    obtain ⟨hquietBefore, hquietBehind⟩ := quiet_append hquiet
    obtain ⟨u, hu, husame, huline, huRemain, -⟩ := onBytes_more (by omega) ht htline
      (by unfold rxBufferSize; omega) hquietBefore
      (fun y hy => hin y (List.mem_append_left _ hy)) hk (by omega)
    have hinx : InTime u x.2 := by
      unfold InTime
      rw [husame.rcvEvtTick]
      exact hin x (List.mem_append_right _ List.mem_cons_self)
    obtain ⟨v, hv, hvflags, hvRemain, hvoff, -⟩ := onByte_last (husame.receiving ht) huline
      (by rw [List.length_append, List.length_map]; unfold rxBufferSize; omega) hquietBehind.1 hinx
      (husame.nId.trans hk) (by omega) (by omega)
    have hnotHead : NotHead v := by
      refine ⟨hvflags .sisr, ?_⟩
      rw [List.length_append, hnine] at hvoff
      rcases hvoff with hzero | hoff
      · exact Or.inl hzero
      · exact Or.inr (Or.inl (by omega))
    rw [hsplit, List.append_assoc, onBytes_append, hu, Option.bind_some, List.cons_append, onBytes,
      hv, Option.bind_some] at h
    have hrun := notHead_onBytes hnotHead ?_ h
    · rw [hrun, hvRemain]
    · rw [List.map_append, List.mem_append, not_or] at hplus ⊢
      rw [List.map_cons, List.mem_cons, not_or] at hplus
      exact ⟨hplus.2.2, by simp⟩

/-! ## The payload -/

/-- A payload without the end of a line, shorter than the buffer, is handed over. -/
theorem onBytes_payload {s₀ s : Rx} {id : Nat} {tick : UInt32} {body : List (UInt8 × UInt32)}
    (hs : AtPayload s₀ s id body.length tick) (hid : id < gprsSocketMax)
    (hroom : body.length ≤ (s₀.sockets id).pInBuffer.length)
    (hrecv : (s₀.sockets id).onRecv = true) (hpos : 0 < body.length)
    (htime : ∀ x ∈ body, x.2 - tick ≤ rtTickFromMillisecond 1000)
    (hfit : body.length < rxBufferSize) (hquiet : Quiet [] (body.map Prod.fst)) :
    ∃ s', onBytes s body = some s' ∧ s'.calls = s.calls ++ [(id, body.map Prod.fst)] ∧
      s'.isRcvAnyEvt = false := by
  have hin : ∀ x ∈ body, InTime s x.2 := by
    intro x hx
    unfold InTime
    rw [hs.rcvEvtTick]
    exact htime x hx
  have hne : body ≠ [] := by
    rintro rfl
    exact absurd hpos (Nat.lt_irrefl 0)
  obtain ⟨front, x, hbody⟩ := (List.eq_nil_or_concat body).resolve_left hne
  rw [List.concat_eq_append] at hbody
  subst hbody
  rw [List.length_append, List.length_singleton] at hfit hroom
  rw [List.map_append, List.map_singleton] at hquiet ⊢
  obtain ⟨hquietFront, hquietLast⟩ := quiet_append hquiet
  have hnRemain : s.nRemain = front.length + 1 := by
    rw [hs.nRemain, List.length_append, List.length_singleton]
    unfold rxBufferSize at hfit
    omega
  obtain ⟨t, ht, htsame, htline, htRemain, htdata⟩ := onBytes_more hid hs.receiving hs.line
    (by rw [List.length_nil]; omega) hquietFront
    (fun y hy => hin y (List.mem_append_left _ hy)) hs.nId (by omega)
  obtain ⟨hindex, hreceived⟩ := htdata (by rw [hs.nIndex, hs.size]; omega)
  have hinx : InTime t x.2 := by
    unfold InTime
    rw [htsame.rcvEvtTick]
    exact hin x (List.mem_append_right _ (List.mem_singleton_self x))
  obtain ⟨s', hlast, hflags, -, -, hcall⟩ := onByte_last (htsame.receiving hs.receiving) htline
    (by rw [List.length_append, List.length_nil, List.length_map]; omega) hquietLast.1 hinx
    (htsame.nId.trans hs.nId) hid (by omega)
  refine ⟨s', ?_, ?_, isRcvAnyEvt_eq_false hflags⟩
  · rw [onBytes_append, ht, Option.bind_some, onBytes, hlast]
    rfl
  · have hempty : received s id = [] := by
      unfold received
      rw [hs.nIndex, List.take_zero]
    rw [hcall (by rw [hindex, hs.nIndex, htsame.size, hs.size]; omega)
      ((htsame.onRecv id).trans (hs.onRecv.trans hrecv)), hreceived, hempty, htsame.calls,
      List.nil_append]

theorem exists_endsLine : ∀ {bs : List (UInt8 × UInt32)} {l : List UInt8},
    ¬ Quiet l (bs.map Prod.fst) → ∃ front tick back, bs = front ++ (10, tick) :: back ∧
      Quiet l (front.map Prod.fst) ∧ EndsLine (l ++ front.map Prod.fst) 10
  | [], _, h => absurd trivial h
  | (b, tick) :: bs, l, h => by
      by_cases hb : EndsLine l b
      · obtain rfl : b = 10 := hb.2.2
        exact ⟨[], tick, bs, rfl, trivial, by rw [List.map_nil, List.append_nil]; exact hb⟩
      · have htail : ¬ Quiet (l ++ [b]) (bs.map Prod.fst) := fun hquiet => h ⟨hb, hquiet⟩
        obtain ⟨front, tick', back, rfl, hquiet, hends⟩ := exists_endsLine htail
        rw [← List.append_cons] at hends
        exact ⟨(b, tick) :: front, tick', back, rfl, ⟨hb, hquiet⟩, hends⟩

/-- The end of a line in the payload is taken for that of a header. -/
theorem shortCalls_of_endsLine {s₀ s s' : Rx} {id n : Nat} {tick t : UInt32}
    {front back : List (UInt8 × UInt32)} (hs : AtPayload s₀ s id n tick)
    (hid : id < gprsSocketMax) (hn : n = front.length + 1 + back.length)
    (htime : ∀ x ∈ front, x.2 - tick ≤ rtTickFromMillisecond 1000)
    (hfit : front.length + 1 < rxBufferSize) (hquiet : Quiet [] (front.map Prod.fst))
    (hends : EndsLine (front.map Prod.fst) 10) (h : onBytes s (front ++ (10, t) :: back) = some s') :
    ShortCalls n s s' := by
  have hin : ∀ x ∈ front, InTime s x.2 := by
    intro x hx
    unfold InTime
    rw [hs.rcvEvtTick]
    exact htime x hx
  have hnRemain : (front.length : Int) < s.nRemain := by
    rw [hs.nRemain]
    unfold rxBufferSize at hfit
    omega
  obtain ⟨u, hu, husame, huline, -, -⟩ := onBytes_more hid hs.receiving hs.line
    (by rw [List.length_nil]; omega) hquiet hin hs.nId hnRemain
  rw [List.nil_append] at huline
  have hline := line_put huline 10 (by rw [List.length_map]; exact hfit)
  have hstep : onByte u 10 t = some (endLine (u.put 10).header) := by
    rw [onByte_receiving (husame.receiving hs.receiving)]
    unfold prvParseSISR
    rw [if_pos ((endsLine_iff hline).mpr hends), Option.map_some]
  obtain ⟨hlost, hcalls⟩ := lost_header (n := n) (r := back.length) (u.put 10) (by omega)
  have hend := sameCount_endLine (u.put 10).header
  rw [onBytes_append, hu, Option.bind_some, onBytes, hstep, Option.bind_some] at h
  have hbefore : (endLine (u.put 10).header).calls = s.calls :=
    (hend.calls.trans hcalls).trans husame.calls
  exact (ShortCalls.of_eq hbefore).trans (lost_onBytes (by omega) (hend.lost hlost) h)

/-- The byte that fills the receive buffer is read in front of it. -/
theorem onByte_full {s : Rx} {b : UInt8} {tick : UInt32} {id : Nat} (hs : Receiving s)
    (hoff : s.off + 1 = rxBufferSize) (hid : s.nId = id) (hlt : id < gprsSocketMax)
    (hremain : 0 < s.nRemain) (hroom : s.nIndex < (s.sockets id).pInBuffer.length) :
    onByte s b tick = none := by
  have hzero : (s.put b).off = 0 := if_pos hoff.ge
  have hrest : ¬ (Evt.sisr.len ≤ (s.put b).off ∧ (s.put b).crlf = true) := by
    rw [hzero]
    exact fun h => absurd h.1 (by decide)
  have hcount : 0 < (s.put b).nRemain ∧ (s.put b).nId < gprsSocketMax := by
    refine ⟨hremain, ?_⟩
    show s.nId < gprsSocketMax
    rw [hid]
    exact_mod_cast hlt
  have hpos : ¬ (s.put b).nId < 0 := by
    show ¬ s.nId < 0
    omega
  have hstore : (s.put b).store = none := by
    unfold Rx.store
    have hnat : (s.put b).nId.toNat = id := by
      show s.nId.toNat = id
      omega
    dsimp only
    rw [hnat, if_pos (show (s.put b).nIndex < ((s.put b).sockets id).pInBuffer.length from hroom),
      if_pos hzero]
  rw [onByte_receiving hs]
  unfold prvParseSISR
  rw [if_neg hrest, if_pos hcount, if_neg hpos, hstore]
  rfl

/-- A payload with the end of a line in it, or as long as the buffer, is not handed over. -/
theorem shortCalls_payload {s₀ s s' : Rx} {id : Nat} {tick : UInt32}
    {body : List (UInt8 × UInt32)} (hs : AtPayload s₀ s id body.length tick)
    (hid : id < gprsSocketMax) (hroom : body.length ≤ (s₀.sockets id).pInBuffer.length)
    (htime : ∀ x ∈ body, x.2 - tick ≤ rtTickFromMillisecond 1000)
    (hbad : ¬ (body.length < rxBufferSize ∧ Quiet [] (body.map Prod.fst)))
    (h : onBytes s body = some s') : ShortCalls body.length s s' := by
  by_cases hquiet : Quiet [] ((body.take 1399).map Prod.fst)
  · have hlong : 1400 ≤ body.length := by
      by_contra hshort
      rw [List.take_of_length_le (by omega)] at hquiet
      exact hbad ⟨by unfold rxBufferSize; omega, hquiet⟩
    have hlen : (body.take 1399).length = 1399 := by
      rw [List.length_take]
      omega
    have hin : ∀ x ∈ body.take 1399, InTime s x.2 := by
      intro x hx
      unfold InTime
      rw [hs.rcvEvtTick]
      exact htime x (List.mem_of_mem_take hx)
    obtain ⟨u, hu, husame, huline, huRemain, hudata⟩ := onBytes_more hid hs.receiving hs.line
      (by rw [hlen, List.length_nil]; decide) hquiet hin hs.nId
      (by rw [hlen, hs.nRemain]; omega)
    obtain ⟨hindex, -⟩ := hudata (by rw [hs.nIndex, hlen, hs.size]; omega)
    obtain ⟨x, back, hback⟩ : ∃ x back, body.drop 1399 = x :: back :=
      List.exists_cons_of_ne_nil (by rw [Ne, List.drop_eq_nil_iff]; omega)
    have hnone : onByte u x.1 x.2 = none := by
      apply onByte_full (husame.receiving hs.receiving) _ (husame.nId.trans hs.nId) hid
      · rw [huRemain, hs.nRemain, hlen]
        omega
      · rw [hindex, hs.nIndex, hlen, husame.size, hs.size]
        omega
      · rw [huline.1, List.nil_append, List.length_map, hlen]
        rfl
    rw [← List.take_append_drop 1399 body, hback, onBytes_append, hu, Option.bind_some, onBytes,
      hnone] at h
    exact absurd h (Option.some_ne_none s').symm
  · obtain ⟨front, t, back, hsplit, hquietFront, hends⟩ := exists_endsLine hquiet
    have hbody : body = front ++ (10, t) :: (back ++ body.drop 1399) := by
      rw [← List.cons_append, ← List.append_assoc, ← hsplit, List.take_append_drop]
    have hfront : front.length + 1 ≤ 1399 := by
      have hle := congrArg List.length hsplit
      rw [List.length_take, List.length_append, List.length_cons] at hle
      omega
    have hlen := congrArg List.length hbody
    rw [List.length_append, List.length_cons] at hlen
    rw [hbody] at h htime
    exact shortCalls_of_endsLine hs hid (by omega)
      (fun x hx => htime x (List.mem_append_left _ hx)) (by unfold rxBufferSize; omega) hquietFront
      hends h

/-! ## The delivery -/

/-- The header makes no call of `onRecv`; the payload makes one, with its bytes and the socket of
    the header, and leaves no event. -/
def Delivered (s : Rx) (id : Nat) (head body : List (UInt8 × UInt32)) : Prop :=
  ∃ s₁ s₂, onBytes s head = some s₁ ∧ s₁.calls = s.calls ∧ onBytes s₁ body = some s₂ ∧
    s₂.calls = s₁.calls ++ [(id, body.map Prod.fst)] ∧ s₂.isRcvAnyEvt = false

theorem quiet_iff : ∀ {bs l : List UInt8}, Quiet l bs ↔
    ∀ front back, bs = front ++ 10 :: back → ¬ EndsLine (l ++ front) 10
  | [], l => by
      constructor
      · intro _ front back h
        exact absurd h (by simp)
      · exact fun _ => trivial
  | b :: bs, l => by
      rw [Quiet, quiet_iff]
      constructor
      · rintro ⟨hb, hbs⟩ front back h
        cases front with
        | nil =>
          obtain ⟨rfl, -⟩ := List.cons_eq_cons.mp h
          rw [List.append_nil]
          exact hb
        | cons c front =>
          obtain ⟨rfl, htail⟩ := List.cons_eq_cons.mp h
          rw [List.append_cons]
          exact hbs front back htail
      · intro h
        refine ⟨fun hb => ?_, fun front back hbs => ?_⟩
        · obtain rfl : b = 10 := hb.2.2
          exact h [] bs rfl (by rw [List.append_nil]; exact hb)
        · rw [← List.append_cons]
          exact h (b :: front) back (by rw [hbs, List.cons_append])

/-- The end of a line counts from the ninth byte on. -/
theorem quiet_nil_iff (p : List UInt8) : Quiet [] p ↔ ¬ [13, 10] <:+: p.drop 8 := by
  rw [quiet_iff]
  constructor
  · rintro h ⟨front, back, hdrop⟩
    have hlen : 8 ≤ p.length := by
      by_contra hshort
      rw [List.drop_of_length_le (by omega)] at hdrop
      exact absurd hdrop (by simp)
    have hp : p = (p.take 8 ++ front ++ [13]) ++ 10 :: back := by
      rw [List.append_assoc, List.append_assoc]
      rw [List.append_assoc] at hdrop
      exact (List.take_append_drop 8 p).symm.trans (congrArg (p.take 8 ++ ·) hdrop.symm)
    refine h _ _ hp ⟨?_, ?_, rfl⟩
    · rw [List.nil_append, List.length_append, List.length_append, List.length_take,
        List.length_singleton]
      omega
    · rw [List.nil_append, List.getLast?_concat]
  · rintro h front back rfl ⟨hlen, hlast, -⟩
    rw [List.nil_append] at hlen hlast
    obtain ⟨front, rfl⟩ := List.getLast?_eq_some_iff.mp hlast
    apply h
    rw [List.length_append, List.length_singleton] at hlen
    rw [List.append_assoc, List.drop_append_of_le_length (by omega)]
    exact ⟨front.drop 8, back, by simp⟩

theorem of_delivered {s : Rx} {id : Nat} {head body : List (UInt8 × UInt32)} (hs : AtRest s)
    (hid : id < gprsSocketMax) (hpos : 0 < body.length)
    (hroom : body.length ≤ (s.sockets id).pInBuffer.length)
    (hhead : head.map Prod.fst = header id body.length) (htime : TimelyHeader head body)
    (h : Delivered s id head body) :
    LeftoverOk s (headerRest id body.length).length ∧ body.length < rxBufferSize ∧
      Quiet [] (body.map Prod.fst) := by
  obtain ⟨s₁, s₂, hhd, -, hbd, hone, -⟩ := h
  have hsize : body.length < 4294967296 := hroom.trans_lt (s.sockets id).fits
  have htimeHead : TimelyHeader head [] :=
    fun x hx => htime x (by rw [List.append_nil] at hx; exact List.mem_append_left _ hx)
  have hnotShort : ¬ ShortCalls body.length s₁ s₂ := by
    rintro ⟨new, hnew, hshort⟩
    rw [hone] at hnew
    have hmem := hshort (id, body.map Prod.fst)
      (List.append_cancel_left hnew ▸ List.mem_singleton_self _)
    rw [List.length_map] at hmem
    exact absurd hmem (Nat.lt_irrefl _)
  by_cases hleft : LeftoverOk s (headerRest id body.length).length
  · obtain ⟨t, ht, hat⟩ := onBytes_header hs hhead htimeHead hid hpos hsize hleft
    obtain rfl : t = s₁ := Option.some.inj (ht.symm.trans hhd)
    refine ⟨hleft, ?_⟩
    by_contra hbad
    exact hnotShort (shortCalls_payload hat hid hroom
      (fun x hx => htime x (List.mem_append_right _ hx)) hbad hbd)
  · have hzero := lost_of_leftover hs hhead htimeHead hid hsize hleft hhd
    exact absurd (lost_onBytes (Nat.le_refl _) (Or.inl hzero) hbd) hnotShort

/-- A payload that comes in time is delivered if and only if no earlier payload gets in the way,
    it is shorter than the receive buffer, and from its ninth byte on there is no carriage return
    and line feed in it. -/
theorem payload_delivered {s : Rx} {id : Nat} {head body : List (UInt8 × UInt32)} (hs : AtRest s)
    (hid : id < gprsSocketMax) (hrecv : (s.sockets id).onRecv = true) (hpos : 0 < body.length)
    (hroom : body.length ≤ (s.sockets id).pInBuffer.length)
    (hhead : head.map Prod.fst = header id body.length) (htime : TimelyHeader head body) :
    Delivered s id head body ↔
      LeftoverOk s (headerRest id body.length).length ∧ body.length < rxBufferSize ∧
        ¬ [13, 10] <:+: (body.map Prod.fst).drop 8 := by
  rw [← quiet_nil_iff]
  constructor
  · exact of_delivered hs hid hpos hroom hhead htime
  · rintro ⟨hleft, hfit, hquiet⟩
    have hsize : body.length < 4294967296 := hroom.trans_lt (s.sockets id).fits
    have htimeHead : TimelyHeader head [] :=
      fun x hx => htime x (by rw [List.append_nil] at hx; exact List.mem_append_left _ hx)
    obtain ⟨s₁, hhd, hat⟩ := onBytes_header hs hhead htimeHead hid hpos hsize hleft
    obtain ⟨s₂, hbd, hcalls, hany⟩ := onBytes_payload hat hid hroom hrecv hpos
      (fun x hx => htime x (List.mem_append_right _ hx)) hfit hquiet
    exact ⟨s₁, s₂, hhd, hat.calls, hbd, hcalls, hany⟩

/-! ## A text -/

/-- The receiver after `vInitGPRSStatus`, with a buffer of 64 bytes for each socket. -/
def started : Rx where
  buf _ := 0
  off := 0
  rcvEvt _ := false
  isEvtParse _ := false
  rcvEvtTick _ := 0
  nId := 0
  nRemain := 0
  nIndex := 0
  sockets _ :=
    { pInBuffer := List.replicate 64 0
      fits := by rw [List.length_replicate]; decide
      onRecv := true }
  calls := []

/-- Bytes that come at once. -/
def atOnce (bytes : List UInt8) : List (UInt8 × UInt32) := bytes.map fun b => (b, 0)

theorem map_atOnce (bytes : List UInt8) : (atOnce bytes).map Prod.fst = bytes := by
  unfold atOnce
  rw [List.map_map]
  exact List.map_id bytes

theorem header_atOnce (id : Nat) (body : List UInt8) :
    (atOnce (header id body.length)).map Prod.fst = header id (atOnce body).length := by
  rw [map_atOnce]
  unfold atOnce
  rw [List.length_map]

theorem timely_atOnce (head body : List UInt8) : TimelyHeader (atOnce head) (atOnce body) := by
  have hzero : ∀ {bytes : List UInt8} {x : UInt8 × UInt32}, x ∈ atOnce bytes → x.2 = 0 := by
    intro bytes x hx
    obtain ⟨b, -, rfl⟩ := List.mem_map.mp hx
    rfl
  have htick : ((atOnce head)[9]?.map Prod.snd).getD 0 = 0 := by
    cases hget : (atOnce head)[9]? with
    | none => rfl
    | some x => exact hzero (List.mem_of_getElem? hget)
  intro x hx
  have hx0 : x.2 = 0 := by
    rcases List.mem_append.mp hx with hx | hx
    · exact hzero (List.mem_of_mem_drop hx)
    · exact hzero hx
  rw [htick, hx0]
  decide

def statusOk : List UInt8 := chars ['S', 'T', 'A', 'T', 'U', 'S', '=', 'O', 'K']

def statusOkLine : List UInt8 := statusOk ++ [13, 10]

theorem statusOk_delivered :
    Delivered started 1 (atOnce (header 1 statusOk.length)) (atOnce statusOk) := by
  have hhead := header_atOnce 1 statusOk
  have htime := timely_atOnce (header 1 statusOk.length) statusOk
  refine (payload_delivered ⟨fun _ => rfl, rfl⟩ (by decide) rfl (by decide) (by decide) hhead
    htime).mpr ⟨Or.inl (Int.le_refl 0), by decide, ?_⟩
  rw [map_atOnce]
  decide

/-- The same text with the end of a line behind it is lost. -/
theorem statusOkLine_not_delivered : ¬ ∀ (s : Rx) (id : Nat)
    (head body : List (UInt8 × UInt32)), AtRest s → id < gprsSocketMax →
      (s.sockets id).onRecv = true → 0 < body.length →
        body.length ≤ (s.sockets id).pInBuffer.length →
          head.map Prod.fst = header id body.length → TimelyHeader head body →
            Delivered s id head body := by
  intro h
  have hhead := header_atOnce 1 statusOkLine
  have htime := timely_atOnce (header 1 statusOkLine.length) statusOkLine
  have hrest : AtRest started := ⟨fun _ => rfl, rfl⟩
  have hdelivered := h started 1 _ _ hrest (by decide) rfl (by decide) (by decide) hhead htime
  have hquiet := (of_delivered hrest (by decide) (by decide) (by decide) hhead htime
    hdelivered).2.2
  rw [quiet_nil_iff, map_atOnce] at hquiet
  exact hquiet (by decide)

end K64Gateway.Gprs
