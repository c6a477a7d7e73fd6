import K64Gateway.VarManage.Polling

/-
  The rounds of `vVarManage_ExtDataRefreshTask`, with the interval of each serial port.

  Proved: where the interval of a port is kept over every run (`interval_kept`).
-/

namespace K64Gateway.VarManage

/-! ## Rounds -/

/-- The delay of a round, `RT_TICK_PER_SECOND / 10`. -/
def roundDelay : Nat := 1000 / 10

/-- A node of the plan as far as the task tells its kind and its port. -/
structure SyncNode where
  dev_type : UInt8
  dev_num : UInt8
  proto_type : UInt16
deriving DecidableEq

/-- One pass of the inner loop: the node of the plan, the tick at its begin, and whether a device
    that is not on a serial port is connected. -/
structure Visit where
  node : SyncNode
  now : Nat
  ready : Bool

/-- One pass of the outer loop: the nodes that are visited, whether a recovery of the
    configuration is running behind them, the ticks at which the ports are looked at then, and the
    tick after the delay. -/
structure Round where
  visits : List Visit
  busy : Bool
  ends : Nat → Nat
  next : Nat

/-- `s_com_last_tick`, by the ticks that were taken for it, and `com_flag`. -/
structure ComState where
  lastTick : Nat → Nat
  comFlag : Nat → Bool

/-- The difference of two ticks as the code sees them, of 32 bits. -/
def tickDiff (now last : Nat) : UInt32 := UInt32.ofNat now - UInt32.ofNat last

/-- The instance of a port. -/
def instanceOf (dev_type : UInt8) : Nat := (nUartGetInstance dev_type).toNat

section
variable (interval : Nat → UInt32)

/-- One pass of the inner loop: the flags, and whether the node is polled. -/
def visit (s : ComState) (v : Visit) : ComState × Bool :=
  let node := v.node
  if protoIsRtuSelf node.dev_type.toNat node.dev_num.toNat then (s, false)
  else if protoIsModbus node.dev_type.toNat node.proto_type.toNat then
    if node.dev_type.toNat ≤ protoDevRsMax then
      let _p := instanceOf node.dev_type
      let diff_tick := rtTickFromMillisecond (interval _p)
      let _flag : Bool := diff_tick ≤ tickDiff v.now (s.lastTick _p)
      ({ s with comFlag := if s.comFlag _p then Function.update s.comFlag _p _flag else s.comFlag },
        _flag)
    else (s, (pollPort v.ready node.dev_type node.dev_num).isSome)
  else (s, protoIsDlt645 node.dev_type.toNat node.proto_type.toNat)

/-- The inner loop, with what is polled. -/
def visits (s : ComState) : List Visit → ComState × List (Visit × Bool)
  | [] => (s, [])
  | v :: vs =>
      let (s, polled) := visit interval s v
      let (s, polls) := visits s vs
      (s, (v, polled) :: polls)

/-- The end of a round, for one port. -/
def endPort (ends : Nat → Nat) (s : ComState) (_type : UInt8) : ComState :=
  let _p := instanceOf _type
  let now_tick := ends _type.toNat
  let diff_tick := rtTickFromMillisecond (interval _p)
  if diff_tick ≤ tickDiff now_tick (s.lastTick _p) ∧ s.comFlag _p = true then
    { s with lastTick := Function.update s.lastTick _p now_tick }
  else s

/-- `PROTO_DEV_RS1` to `PROTO_DEV_RS_MAX` -/
def comPorts : List UInt8 := [0, 1, 2, 3]

/-- One pass of the outer loop. -/
def round (s : ComState) (r : Round) : ComState × List (Visit × Bool) :=
  let s := { s with comFlag := fun i => i ≤ protoDevRsMax }
  let (s, polls) := visits interval s r.visits
  (if r.busy then s else comPorts.foldl (endPort interval r.ends) s, polls)

def rounds (s : ComState) (rs : List Round) : ComState :=
  rs.foldl (fun s r => (round interval s r).1) s

/-! ## Runs -/

/-- A node that is polled on a port. -/
def OnPort (port : UInt8) (node : SyncNode) : Prop :=
  node.dev_type = port ∧ (protoIsModbus node.dev_type.toNat node.proto_type.toNat = true ∨
    protoIsDlt645 node.dev_type.toNat node.proto_type.toNat = true)

/-- After a round in which all nodes of the port are polled none is polled before the interval
    has passed since the end of that round. -/
def IntervalKept (port : UInt8) (s : ComState) (rs : List Round) : Prop :=
  ∀ pre r mid r' post, rs = pre ++ r :: (mid ++ r' :: post) →
    (∀ p ∈ (round interval (rounds interval s pre) r).2, OnPort port p.1.node → p.2 = true) →
      ∀ p ∈ (round interval (rounds interval s (pre ++ r :: mid)) r').2,
        OnPort port p.1.node → p.2 = true →
          r.ends port.toNat + (interval (instanceOf port)).toNat ≤ p.1.now

/-- A round that begins at a tick: the ticks in it are in order, and the delay at its end is over
    before the next one. -/
structure Round.From (r : Round) (start : Nat) : Prop where
  begins (v : Visit) : v ∈ r.visits → start ≤ v.now
  ends (v : Visit) (port : Nat) : v ∈ r.visits → v.now ≤ r.ends port
  started (port : Nat) : start ≤ r.ends port
  delay (port : Nat) : r.ends port + roundDelay ≤ r.next

/-- A run with a plan that stays, no recovery, and differences of ticks below 2^31 for a port. -/
def Run (plan : List SyncNode) (port : UInt8) : ComState → Nat → List Round → Prop
  | _, _, [] => True
  | s, start, r :: rs =>
      r.From start ∧ r.visits.map Visit.node = plan ∧ r.busy = false ∧
        r.ends port.toNat < s.lastTick (instanceOf port) + 2 ^ 31 ∧
        Run plan port (round interval s r).1 r.next rs

/-- The interval is not longer than the delay of a round; or the port is one whose flag is set up
    by its instance, has no DLT645 node, and the interval can be turned into ticks. -/
def Keepable (plan : List SyncNode) (port : UInt8) : Prop :=
  (interval (instanceOf port)).toNat ≤ roundDelay ∨
    (port = 0 ∨ port = 3) ∧
      (∀ node ∈ plan, node.dev_type = port →
        protoIsDlt645 node.dev_type.toNat node.proto_type.toNat = false) ∧
      (interval (instanceOf port)).toNat ≤ 4294966

end

/-! ## Ticks -/

theorem toNat_tickDiff {now last : Nat} (hle : last ≤ now) (hlt : now < last + 2 ^ 31) :
    (tickDiff now last).toNat = now - last := by
  unfold tickDiff
  rw [UInt32.toNat_sub, UInt32.toNat_ofNat', UInt32.toNat_ofNat']
  omega

/-- An interval that can be turned into ticks, 1000 in a second. -/
theorem toNat_rtTickFromMillisecond {ms : UInt32} (h : ms.toNat ≤ 4294966) :
    (rtTickFromMillisecond ms).toNat = ms.toNat := by
  unfold rtTickFromMillisecond
  rw [UInt32.toNat_div, UInt32.toNat_add, UInt32.toNat_mul]
  show (1000 * ms.toNat % 4294967296 + 999) % 4294967296 / 1000 = ms.toNat
  omega

/-! ## One round -/

section
variable {interval : Nat → UInt32} {port : UInt8}

/-- The instances of two ports differ. -/
theorem instanceOf_ne {dev_type : UInt8} (hport : port ∈ comPorts)
    (hdev : dev_type.toNat ≤ protoDevRsMax) (hne : dev_type ≠ port) :
    instanceOf dev_type ≠ instanceOf port := by
  have hmem : dev_type ∈ comPorts := by
    have hlt : dev_type.toNat < 4 := Nat.lt_succ_of_le hdev
    have hall : ∀ n < 4, UInt8.ofNat n ∈ comPorts := by decide
    have h := hall _ hlt
    rwa [UInt8.ofNat_toNat] at h
  have hall : ∀ port ∈ comPorts, ∀ dev_type ∈ comPorts, dev_type ≠ port →
      instanceOf dev_type ≠ instanceOf port := by decide +kernel
  exact hall port hport dev_type hmem hne

theorem visit_lastTick (s : ComState) (v : Visit) : (visit interval s v).1.lastTick = s.lastTick := by
  unfold visit
  dsimp only
  split_ifs <;> rfl

theorem visits_lastTick (s : ComState) (vs : List Visit) :
    (visits interval s vs).1.lastTick = s.lastTick := by
  induction vs generalizing s with
  | nil => rfl
  | cons v vs ih =>
    unfold visits
    dsimp only
    rw [ih, visit_lastTick]

/-- A Modbus node on a serial port is polled when the interval has passed. -/
theorem visit_modbus (s : ComState) {v : Visit} (hdev : v.node.dev_type.toNat ≤ protoDevRsMax)
    (hmodbus : protoIsModbus v.node.dev_type.toNat v.node.proto_type.toNat = true) :
    (visit interval s v).2 =
      decide (rtTickFromMillisecond (interval (instanceOf v.node.dev_type)) ≤
        tickDiff v.now (s.lastTick (instanceOf v.node.dev_type))) := by
  unfold visit
  dsimp only
  rw [protoIsRtuSelf_of_modbus _ hmodbus, if_neg Bool.false_ne_true, if_pos hmodbus, if_pos hdev]

theorem map_fst_visits (s : ComState) (vs : List Visit) :
    (visits interval s vs).2.map Prod.fst = vs := by
  induction vs generalizing s with
  | nil => rfl
  | cons v vs ih =>
    unfold visits
    dsimp only
    rw [List.map_cons, ih]

theorem visits_modbus (hport : port ∈ comPorts) (s : ComState) (vs : List Visit) :
    ∀ p ∈ (visits interval s vs).2, p.1.node.dev_type = port →
      protoIsModbus p.1.node.dev_type.toNat p.1.node.proto_type.toNat = true →
        p.2 = decide (rtTickFromMillisecond (interval (instanceOf port)) ≤
          tickDiff p.1.now (s.lastTick (instanceOf port))) := by
  induction vs generalizing s with
  | nil => exact fun p hp => nomatch hp
  | cons v vs ih =>
    intro p hp hdev hmodbus
    unfold visits at hp
    dsimp only at hp
    obtain rfl | hp := List.mem_cons.mp hp
    · have hle : v.node.dev_type.toNat ≤ protoDevRsMax := by
        have hall : ∀ port ∈ comPorts, port.toNat ≤ protoDevRsMax := by decide +kernel
        rw [hdev]
        exact hall port hport
      have h : (visit interval s v).2 = _ := visit_modbus s hle hmodbus
      rwa [hdev] at h
    · rw [ih _ p hp hdev hmodbus, visit_lastTick]

/-- The flag stays set where a node of the port is polled. -/
theorem visit_comFlag (hport : port ∈ comPorts) (s : ComState) (v : Visit)
    (hflag : s.comFlag (instanceOf port) = true)
    (hv : OnPort port v.node → (visit interval s v).2 = true) :
    (visit interval s v).1.comFlag (instanceOf port) = true := by
  unfold visit at hv ⊢
  dsimp only at hv ⊢
  split_ifs at hv ⊢ with hself hmodbus hdev hcom
  · exact hflag
  · by_cases heq : v.node.dev_type = port
    · have hpolled := hv ⟨heq, Or.inl hmodbus⟩
      dsimp only at hpolled ⊢
      rw [heq] at hpolled ⊢
      rw [Function.update_self, hpolled]
    · dsimp only
      rw [Function.update_of_ne (Ne.symm (instanceOf_ne hport hdev heq)), hflag]
  · exact hflag
  · exact hflag
  · exact hflag

theorem visits_comFlag (hport : port ∈ comPorts) (s : ComState) (vs : List Visit)
    (hflag : s.comFlag (instanceOf port) = true)
    (hall : ∀ p ∈ (visits interval s vs).2, OnPort port p.1.node → p.2 = true) :
    (visits interval s vs).1.comFlag (instanceOf port) = true := by
  induction vs generalizing s with
  | nil => exact hflag
  | cons v vs ih =>
    unfold visits at hall ⊢
    dsimp only at hall ⊢
    refine ih _ ?_ (fun p hp => hall p (List.mem_cons_of_mem _ hp))
    exact visit_comFlag hport s v hflag (hall (v, (visit interval s v).2) (List.mem_cons_self ..))

theorem endPort_other (hport : port ∈ comPorts) (ends : Nat → Nat) (s : ComState)
    {_type : UInt8} (htype : _type.toNat ≤ protoDevRsMax) (hne : _type ≠ port) :
    (endPort interval ends s _type).lastTick (instanceOf port) = s.lastTick (instanceOf port) := by
  unfold endPort
  dsimp only
  split
  · exact Function.update_of_ne (Ne.symm (instanceOf_ne hport htype hne)) _ _
  · rfl

theorem endPort_comFlag (ends : Nat → Nat) (s : ComState) (_type : UInt8) :
    (endPort interval ends s _type).comFlag = s.comFlag := by
  unfold endPort
  dsimp only
  split <;> rfl

/-- At the end of a round the tick of a port is taken, if all its nodes have been polled. -/
theorem foldl_endPort_lastTick (hport : port ∈ comPorts) (ends : Nat → Nat) (s : ComState) :
    (comPorts.foldl (endPort interval ends) s).lastTick (instanceOf port) =
      if rtTickFromMillisecond (interval (instanceOf port)) ≤
            tickDiff (ends port.toNat) (s.lastTick (instanceOf port)) ∧
          s.comFlag (instanceOf port) = true then ends port.toNat
      else s.lastTick (instanceOf port) := by
  have hself : ∀ s' : ComState, s'.lastTick (instanceOf port) = s.lastTick (instanceOf port) →
      s'.comFlag = s.comFlag → (endPort interval ends s' port).lastTick (instanceOf port) =
        if rtTickFromMillisecond (interval (instanceOf port)) ≤
              tickDiff (ends port.toNat) (s.lastTick (instanceOf port)) ∧
            s.comFlag (instanceOf port) = true then ends port.toNat
        else s.lastTick (instanceOf port) := fun s' htick hflag => by
    unfold endPort
    dsimp only
    rw [htick, hflag]
    split
    · exact Function.update_self _ _ _
    · exact htick
  have hother : ∀ (s' : ComState) (_type : UInt8), _type.toNat ≤ protoDevRsMax → _type ≠ port →
      (endPort interval ends s' _type).lastTick (instanceOf port) = s'.lastTick (instanceOf port) :=
    fun s' _type htype hne => endPort_other hport ends s' htype hne
  simp only [comPorts, List.foldl_cons, List.foldl_nil]
  simp only [comPorts, List.mem_cons, List.not_mem_nil, or_false] at hport
  -- The other ports leave the tick of this one alone, before it and behind it.
  rcases hport with rfl | rfl | rfl | rfl
  · rw [hother _ 3 (by decide) (by decide), hother _ 2 (by decide) (by decide),
      hother _ 1 (by decide) (by decide)]
    exact hself s rfl rfl
  · rw [hother _ 3 (by decide) (by decide), hother _ 2 (by decide) (by decide)]
    exact hself _ (hother _ 0 (by decide) (by decide)) (endPort_comFlag ..)
  · rw [hother _ 3 (by decide) (by decide)]
    refine hself _ ?_ ?_
    · rw [hother _ 1 (by decide) (by decide), hother _ 0 (by decide) (by decide)]
    · rw [endPort_comFlag, endPort_comFlag]
  · refine hself _ ?_ ?_
    · rw [hother _ 2 (by decide) (by decide), hother _ 1 (by decide) (by decide),
        hother _ 0 (by decide) (by decide)]
    · rw [endPort_comFlag, endPort_comFlag, endPort_comFlag]

/-- The tick of a port after a round. -/
theorem round_lastTick (hport : port ∈ comPorts) (s : ComState) {r : Round}
    (hbusy : r.busy = false) :
    (round interval s r).1.lastTick (instanceOf port) = s.lastTick (instanceOf port) ∨
      (round interval s r).1.lastTick (instanceOf port) = r.ends port.toNat := by
  unfold round
  dsimp only
  rw [hbusy, if_neg Bool.false_ne_true, foldl_endPort_lastTick hport]
  split
  · exact Or.inr rfl
  · left
    rw [visits_lastTick]

/-- What is polled of a port without DLT645 nodes. -/
theorem round_modbus (hport : port ∈ comPorts) (s : ComState) (r : Round) :
    ∀ p ∈ (round interval s r).2, p.1.node.dev_type = port →
      protoIsModbus p.1.node.dev_type.toNat p.1.node.proto_type.toNat = true →
        p.2 = decide (rtTickFromMillisecond (interval (instanceOf port)) ≤
          tickDiff p.1.now (s.lastTick (instanceOf port))) :=
  visits_modbus hport _ r.visits

/-- A round in which every node of a port is polled takes the tick of the port, where its flag is
    set at the begin. -/
theorem round_lastTick_of_all (hport : port ∈ comPorts) (s : ComState) {r : Round}
    (hbusy : r.busy = false) (hset : instanceOf port ≤ protoDevRsMax)
    (hpassed : rtTickFromMillisecond (interval (instanceOf port)) ≤
      tickDiff (r.ends port.toNat) (s.lastTick (instanceOf port)))
    (hall : ∀ p ∈ (round interval s r).2, OnPort port p.1.node → p.2 = true) :
    (round interval s r).1.lastTick (instanceOf port) = r.ends port.toNat := by
  have hflag := visits_comFlag hport { s with comFlag := fun i => i ≤ protoDevRsMax } r.visits
    (decide_eq_true hset) hall
  unfold round
  dsimp only
  rw [hbusy, if_neg Bool.false_ne_true, foldl_endPort_lastTick hport, visits_lastTick]
  exact if_pos ⟨hpassed, hflag⟩

/-! ## Runs of rounds -/

/-- The tick of a port does not go back, and stays behind the begin of the next round. -/
theorem Run.append {plan : List SyncNode} (hport : port ∈ comPorts) {pre post : List Round}
    {s : ComState} {start : Nat} (hrun : Run interval plan port s start (pre ++ post))
    (htick : s.lastTick (instanceOf port) ≤ start) :
    ∃ start', start ≤ start' ∧ Run interval plan port (rounds interval s pre) start' post ∧
      s.lastTick (instanceOf port) ≤ (rounds interval s pre).lastTick (instanceOf port) ∧
      (rounds interval s pre).lastTick (instanceOf port) ≤ start' := by
  induction pre generalizing s start with
  | nil => exact ⟨start, Nat.le_refl _, hrun, Nat.le_refl _, htick⟩
  | cons r pre ih =>
    obtain ⟨hfrom, -, hbusy, -, hrest⟩ := hrun
    have hstarted := hfrom.started port.toNat
    have hdelay := hfrom.delay port.toNat
    have hafter : s.lastTick (instanceOf port) ≤
        (round interval s r).1.lastTick (instanceOf port) ∧
          (round interval s r).1.lastTick (instanceOf port) ≤ r.next := by
      rcases round_lastTick hport s hbusy with h | h <;> rw [h] <;> omega
    obtain ⟨start', hstart, hpost, hle, hend⟩ := ih hrest hafter.2
    exact ⟨start', by omega, hpost, Nat.le_trans hafter.1 hle, hend⟩

theorem rounds_append (s : ComState) (pre : List Round) (r : Round) (mid : List Round) :
    rounds interval s (pre ++ r :: mid) =
      rounds interval (round interval (rounds interval s pre) r).1 mid := by
  unfold rounds
  rw [List.foldl_append, List.foldl_cons]

/-- The visits of a round are those of its plan. -/
theorem mem_round_iff (s : ComState) (r : Round) (v : Visit) :
    (∃ polled, (v, polled) ∈ (round interval s r).2) ↔ v ∈ r.visits := by
  have hmap : (round interval s r).2.map Prod.fst = r.visits := map_fst_visits _ _
  rw [← hmap, List.mem_map]
  constructor
  · rintro ⟨polled, h⟩
    exact ⟨(v, polled), h, rfl⟩
  · rintro ⟨⟨w, polled⟩, h, rfl⟩
    exact ⟨polled, h⟩

end

/-- The interval of a serial port is kept in every run, where it can be. -/
theorem interval_kept (interval : Nat → UInt32) (plan : List SyncNode) {port : UInt8}
    (hport : port ∈ comPorts) (hkeep : Keepable interval plan port) {s : ComState} {start : Nat}
    (htick : s.lastTick (instanceOf port) ≤ start) {rs : List Round}
    (hrun : Run interval plan port s start rs) : IntervalKept interval port s rs := by
  rintro pre r mid r' post rfl hall ⟨v, polled⟩ hv hon hpolled
  obtain ⟨start₁, -, hrun₁, -, htick₁⟩ := hrun.append hport htick
  obtain ⟨hfrom, hplan, hbusy, hdiff, hrun₂⟩ := hrun₁
  have hdelay := hfrom.delay port.toNat
  have hstarted := hfrom.started port.toNat
  have hafter : (round interval (rounds interval s pre) r).1.lastTick (instanceOf port) ≤ r.next := by
    rcases round_lastTick hport (rounds interval s pre) hbusy with h | h <;> rw [h] <;> omega
  obtain ⟨start₂, hstart₂, hrun₃, hmono, htick₂⟩ := hrun₂.append hport hafter
  rw [rounds_append] at hv
  obtain ⟨hfrom', hplan', -, hdiff', -⟩ := hrun₃
  have hmem : v ∈ r'.visits := (mem_round_iff _ r' v).mp ⟨polled, hv⟩
  have hbegins := hfrom'.begins v hmem
  have hends := hfrom'.ends v port.toNat hmem
  dsimp only at hon hpolled ⊢
  obtain hshort | ⟨hset, hnodlt, hticks⟩ := hkeep
  · omega
  · have hnode : v.node ∈ r.visits.map Visit.node := by
      rw [hplan, ← hplan']
      exact List.mem_map_of_mem hmem
    have hmodbus : protoIsModbus v.node.dev_type.toNat v.node.proto_type.toNat = true := by
      refine hon.2.resolve_right fun hdlt => ?_
      rw [hnodlt v.node (hplan ▸ hnode) hon.1] at hdlt
      exact Bool.false_ne_true hdlt
    -- The same node was polled in the first round, so the tick was taken at its end.
    obtain ⟨w, hw, hsame⟩ := List.mem_map.mp hnode
    obtain ⟨polled', hw'⟩ := (mem_round_iff (rounds interval s pre) r w).mpr hw
    have honw : OnPort port w.node := hsame ▸ hon
    have hfirst : rtTickFromMillisecond (interval (instanceOf port)) ≤
        tickDiff w.now ((rounds interval s pre).lastTick (instanceOf port)) := by
      have hp : polled' = _ := round_modbus hport _ r (w, polled') hw' honw.1 (hsame ▸ hmodbus)
      rw [show polled' = true from hall (w, polled') hw' honw] at hp
      exact of_decide_eq_true hp.symm
    have hwbegins := hfrom.begins w hw
    have hwends := hfrom.ends w port.toNat hw
    have hpassed : rtTickFromMillisecond (interval (instanceOf port)) ≤
        tickDiff (r.ends port.toNat) ((rounds interval s pre).lastTick (instanceOf port)) := by
      rw [UInt32.le_iff_toNat_le, toNat_tickDiff (by omega) (by omega)] at hfirst ⊢
      omega
    have hinstance : instanceOf port ≤ protoDevRsMax := by
      rcases hset with rfl | rfl <;> decide
    rw [round_lastTick_of_all hport _ hbusy hinstance hpassed hall] at hmono
    have hsecond : rtTickFromMillisecond (interval (instanceOf port)) ≤ tickDiff v.now
        ((rounds interval (round interval (rounds interval s pre) r).1 mid).lastTick
          (instanceOf port)) := by
      have hp : polled = _ := round_modbus hport _ r' (v, polled) hv hon.1 hmodbus
      rw [hpolled] at hp
      exact of_decide_eq_true hp.symm
    rw [UInt32.le_iff_toNat_le, toNat_tickDiff (by omega) (by omega),
      toNat_rtTickFromMillisecond hticks] at hsecond
    omega

/-- One Modbus node on a port, with the interval of one second. -/
def oneNode (port : UInt8) : SyncNode := ⟨port, 0, 0⟩

/-- Two rounds, in the second of which the time has come again after the delay. -/
def twoRounds (port : UInt8) : List Round :=
  [⟨[⟨oneNode port, 1000, true⟩], false, fun _ => 1000, 1100⟩,
    ⟨[⟨oneNode port, 1100, true⟩], false, fun _ => 1100, 1200⟩]

def startState : ComState := ⟨fun _ => 0, fun _ => false⟩

theorem from_constant {node : SyncNode} {ready busy : Bool} {now next start : Nat}
    (hstart : start ≤ now) (hdelay : now + roundDelay ≤ next) :
    Round.From ⟨[⟨node, now, ready⟩], busy, fun _ => now, next⟩ start where
  begins v hv := by
    rw [List.mem_singleton.mp hv]
    exact hstart
  ends v _ hv := by
    rw [List.mem_singleton.mp hv]
  started _ := hstart
  delay _ := hdelay

theorem run_twoRounds (port : UInt8) :
    Run (fun _ => 1000) [oneNode port] port startState 0 (twoRounds port) := by
  refine ⟨from_constant (Nat.zero_le _) (Nat.le_refl _), rfl, rfl, ?_,
    from_constant (Nat.le_refl _) (Nat.le_refl _), rfl, rfl, ?_, trivial⟩
  · show 1000 < 0 + 2 ^ 31
    decide
  · show 1100 < _ + 2 ^ 31
    omega

/-- The interval of the first port is kept. -/
theorem rs1_kept : IntervalKept (fun _ => 1000) 0 startState (twoRounds 0) :=
  interval_kept (fun _ => 1000) [oneNode 0] (by decide) (Or.inr ⟨Or.inl rfl, by decide, by decide⟩)
    (Nat.le_refl 0) (run_twoRounds 0)

/-- The second port is polled again after a tenth of a second. -/
theorem rs2_not_kept :
    Run (fun _ => 1000) [oneNode 1] 1 startState 0 (twoRounds 1) ∧
      ¬ IntervalKept (fun _ => 1000) 1 startState (twoRounds 1) := by
  refine ⟨run_twoRounds 1, fun hkept => ?_⟩
  have hall : ∀ p ∈ (round (fun _ => 1000) startState
      ⟨[⟨oneNode 1, 1000, true⟩], false, fun _ => 1000, 1100⟩).2,
      OnPort 1 p.1.node → p.2 = true := fun p hp _ => by
    rw [List.mem_singleton.mp hp]
    rfl
  have hle : 1000 + 1000 ≤ 1100 := hkept [] _ [] _ [] rfl hall _ (List.mem_singleton.mpr rfl)
    ⟨rfl, Or.inl rfl⟩ rfl
  omega

end K64Gateway.VarManage
