import K64Gateway.Zigbee.RegistryRuns

/-
  Who is on line, `zgb_check_online` after `zgb_mnode_insert`: a check takes a node off line when its
  last response is four learn steps old, dates that back by three, and removes it twenty steps after
  that date. Over every run of responses and checks (`liveness`): a node with a younger response is
  there and on line, one with an older response is not on line, and none is gone before 21 steps.
-/

namespace K64Gateway.Zigbee

/-! ## Runs in time -/

/-- A registry after responses and checks up to the time `t`, on a clock that does not go back;
    `last` is the time of the last response of every node. -/
inductive Timed (ulLearnStep : UInt32) : Registry → (UInt16 → Option UInt32) → UInt32 → Prop
  | init (t : UInt32) : Timed ulLearnStep zgbStdInit (fun _ => none) t
  | insert {s s' : Registry} {last : UInt16 → Option UInt32} {t now : UInt32} {info : Scan} :
      Timed ulLearnStep s last t → t ≤ now → 3 * ulLearnStep.toNat ≤ now.toNat →
      Step s (.insert info now) s' →
      Timed ulLearnStep s' (Function.update last info.netid (some now)) now
  | check {s s' : Registry} {last : UInt16 → Option UInt32} {t now : UInt32} :
      Timed ulLearnStep s last t → t ≤ now → 3 * ulLearnStep.toNat ≤ now.toNat →
      Step s (.checkOnline ulLearnStep now) s' → Timed ulLearnStep s' last now

/-- A node with this network address is in the registry and on line. -/
def Online (s : Registry) (netid : UInt16) : Prop :=
  ∃ nodes, Represents s nodes ∧ ∃ node ∈ nodes, node.info.netid = netid ∧ node.info.online = true

theorem online_iff {s : Registry} {nodes : List Node} (h : Represents s nodes) (netid : UInt16) :
    Online s netid ↔ ∃ node ∈ nodes, node.info.netid = netid ∧ node.info.online = true := by
  constructor
  · rintro ⟨nodes', h', hnode⟩
    rwa [h.unique h']
  · exact fun hnode => ⟨nodes, h, hnode⟩

/-- No node goes before its time. -/
def Kept (ulLearnStep : UInt32) (s : Registry) (last : UInt16 → Option UInt32) (t : UInt32) :
    Prop :=
  ∀ netid t₀, last netid = some t₀ → ¬ Present s netid →
    t₀.toNat + 21 * ulLearnStep.toNat ≤ t.toNat

/-- A check at the time `t` tells the nodes that answer from those that do not. -/
structure Told (ulLearnStep : UInt32) (s : Registry) (last : UInt16 → Option UInt32) (t : UInt32) :
    Prop where
  fresh : ∀ netid t₀, last netid = some t₀ → t.toNat < t₀.toNat + 4 * ulLearnStep.toNat →
    Online s netid
  stale : ∀ netid t₀, last netid = some t₀ → t₀.toNat + 4 * ulLearnStep.toNat ≤ t.toNat →
    ¬ Online s netid

/-! ## The time stamps of a node -/

/-- A node whose last response came at `t₀`, at the time `t`. The date of an off-line node lies
    three steps before a check, and that check four steps or more after the response. -/
structure Stamped (ulLearnStep : UInt32) (m : MnodeInfo) (t₀ t : UInt32) : Prop where
  lasttime : m.lasttime = t₀
  past : t₀ ≤ t
  offtime : m.online = false → t₀.toNat + ulLearnStep.toNat ≤ m.offtime.toNat ∧
    m.offtime.toNat + 3 * ulLearnStep.toNat ≤ t.toNat

theorem Stamped.later {ulLearnStep : UInt32} {m : MnodeInfo} {t₀ t now : UInt32}
    (h : Stamped ulLearnStep m t₀ t) (ht : t ≤ now) : Stamped ulLearnStep m t₀ now := by
  refine ⟨h.lasttime, UInt32.le_trans h.past ht, fun hoff => ?_⟩
  have hle := UInt32.le_iff_toNat_le.mp ht
  exact ⟨(h.offtime hoff).1, (h.offtime hoff).2.trans hle⟩

theorem Stamped.newInfo (ulLearnStep : UInt32) (info : Scan) (now : UInt32) :
    Stamped ulLearnStep (info.newInfo now) now now :=
  ⟨rfl, UInt32.le_refl now, nofun⟩

theorem Stamped.refresh (ulLearnStep : UInt32) (info : Scan) (now : UInt32) (m : MnodeInfo) :
    Stamped ulLearnStep (info.refresh now m) now now := by
  unfold Scan.refresh
  by_cases h : m.online = true <;> simp only [h] <;>
    exact ⟨rfl, UInt32.le_refl now, by simp⟩

/-- A multiple of the learn step that does not wrap. -/
theorem toNat_mul_step {ulLearnStep k : UInt32} (hstep : 20 * ulLearnStep.toNat < 2 ^ 32)
    (hk : k.toNat ≤ 20) : (ulLearnStep * k).toNat = k.toNat * ulLearnStep.toNat := by
  rw [UInt32.toNat_mul, Nat.mul_comm, Nat.mod_eq_of_lt]
  exact (Nat.mul_le_mul_right _ hk).trans_lt hstep

theorem le_sub_iff {ulLearnStep k now t : UInt32} (hstep : 20 * ulLearnStep.toNat < 2 ^ 32)
    (hk : k.toNat ≤ 20) (ht : t ≤ now) :
    ulLearnStep * k ≤ now - t ↔ t.toNat + k.toNat * ulLearnStep.toNat ≤ now.toNat := by
  have hle := UInt32.le_iff_toNat_le.mp ht
  rw [UInt32.le_iff_toNat_le, UInt32.toNat_sub_of_le _ _ ht, toNat_mul_step hstep hk]
  omega

variable {ulLearnStep : UInt32} {m m' : MnodeInfo} {t₀ t now : UInt32}

/-- A check removes a node 21 steps after its last response or later. -/
theorem Stamped.removed (h : Stamped ulLearnStep m t₀ t) (hstep : 20 * ulLearnStep.toNat < 2 ^ 32)
    (ht : t ≤ now) (hcheck : m.check ulLearnStep now = none) :
    t₀.toNat + 21 * ulLearnStep.toNat ≤ now.toNat := by
  unfold MnodeInfo.check at hcheck
  by_cases honline : m.online = true
  · rw [if_pos honline] at hcheck
    split at hcheck <;> exact absurd hcheck (Option.some_ne_none _)
  · obtain ⟨hlo, hhi⟩ := h.offtime (Bool.eq_false_iff.mpr honline)
    rw [if_neg honline] at hcheck
    have hle := UInt32.le_iff_toNat_le.mp ht
    have hoff : m.offtime ≤ now := UInt32.le_iff_toNat_le.mpr (by omega)
    split at hcheck
    · next hgone =>
      have hgone' := (le_sub_iff hstep (by decide) hoff).mp hgone
      have h20 : (20 : UInt32).toNat = 20 := rfl
      rw [h20] at hgone'
      omega
    · exact absurd hcheck (Option.some_ne_none _)

/-- A check leaves a node on line while its last response is younger than four steps. -/
theorem Stamped.check (h : Stamped ulLearnStep m t₀ t) (hstep : 20 * ulLearnStep.toNat < 2 ^ 32)
    (ht : t ≤ now) (hnow : 3 * ulLearnStep.toNat ≤ now.toNat)
    (hcheck : m.check ulLearnStep now = some m') :
    Stamped ulLearnStep m' t₀ now ∧
      (m'.online = true ↔ now.toNat < t₀.toNat + 4 * ulLearnStep.toNat) := by
  have hle := UInt32.le_iff_toNat_le.mp ht
  have hlast : t₀ ≤ now := UInt32.le_trans h.past ht
  unfold MnodeInfo.check at hcheck
  by_cases honline : m.online = true
  · have hlate : (now < m.lasttime ∨ ulLearnStep * 4 ≤ now - m.lasttime) ↔
        t₀.toNat + 4 * ulLearnStep.toNat ≤ now.toNat := by
      rw [h.lasttime, le_sub_iff hstep (by decide) hlast]
      exact or_iff_right (UInt32.not_lt.mpr hlast)
    rw [if_pos honline] at hcheck
    split at hcheck
    · next hgone =>
      -- the date: three steps back from now, which is one step or more after the response
      have hold := hlate.mp hgone
      have hback : (now - ulLearnStep * 3).toNat = now.toNat - 3 * ulLearnStep.toNat := by
        have h3 := toNat_mul_step (k := 3) hstep (by decide)
        rw [UInt32.toNat_sub_of_le, h3]
        · rfl
        · exact UInt32.le_iff_toNat_le.mpr (h3.trans_le hnow)
      rw [← Option.some.inj hcheck]
      refine ⟨⟨h.lasttime, hlast, fun _ => ?_⟩, iff_of_false Bool.false_ne_true (by omega)⟩
      dsimp only
      omega
    · next hgone =>
      rw [← Option.some.inj hcheck]
      exact ⟨h.later ht, iff_of_true honline (Nat.lt_of_not_le (mt hlate.mpr hgone))⟩
  · obtain ⟨hlo, hhi⟩ := h.offtime (Bool.eq_false_iff.mpr honline)
    rw [if_neg honline] at hcheck
    split at hcheck
    · exact absurd hcheck.symm (Option.some_ne_none m')
    · rw [← Option.some.inj hcheck]
      exact ⟨h.later ht, iff_of_false honline (by omega)⟩

/-! ## The time stamps of a registry -/

/-- Every node carries the time of its last response, and one that is not there is 21 steps old. -/
structure Clocked (ulLearnStep : UInt32) (nodes : List Node) (last : UInt16 → Option UInt32)
    (t : UInt32) : Prop where
  netids : (nodes.map fun node => node.info.netid).Nodup
  stamped : ∀ node ∈ nodes, ∃ t₀, last node.info.netid = some t₀ ∧
    Stamped ulLearnStep node.info t₀ t
  absent : ∀ netid t₀, last netid = some t₀ → (∀ node ∈ nodes, node.info.netid ≠ netid) →
    t₀.toNat + 21 * ulLearnStep.toNat ≤ t.toNat

theorem Clocked.init (ulLearnStep t : UInt32) : Clocked ulLearnStep [] (fun _ => none) t :=
  ⟨List.nodup_nil, fun _ h => absurd h List.not_mem_nil, nofun⟩

variable {nodes : List Node} {last : UInt16 → Option UInt32}

theorem Clocked.insert (h : Clocked ulLearnStep nodes last t) (ht : t ≤ now) (info : Scan) :
    Clocked ulLearnStep (insertNode info now nodes)
      (Function.update last info.netid (some now)) now := by
  have hle := UInt32.le_iff_toNat_le.mp ht
  refine ⟨nodup_insertNode info now h.netids, fun node hnode => ?_, fun netid t₀ hlast hnone => ?_⟩
  · rcases mem_insertNode h.netids hnode with ⟨hold, hne⟩ | ⟨old, hold, -, rfl⟩ | ⟨-, rfl⟩
    · obtain ⟨t₀, hlast, hstamped⟩ := h.stamped node hold
      rw [Function.update_of_ne hne]
      exact ⟨t₀, hlast, hstamped.later ht⟩
    · dsimp only
      rw [Scan.refresh_netid, Function.update_self]
      exact ⟨now, rfl, Stamped.refresh ulLearnStep info now old.info⟩
    · exact ⟨now, Function.update_self .., Stamped.newInfo ulLearnStep info now⟩
  · have hmem : ∀ a ∈ nodes.map (fun node => node.info.netid), a ≠ netid := fun a ha heq => by
      have ha' : a ∈ (insertNode info now nodes).map fun node => node.info.netid := by
        rw [netids_insertNode]
        exact List.mem_append_left _ ha
      obtain ⟨node, hnode, rfl⟩ := List.mem_map.mp ha'
      exact hnone node hnode heq
    have hne : netid ≠ info.netid := fun heq => by
      obtain ⟨node, hnode, hnetid⟩ := exists_mem_insertNode info now nodes
      exact hnone node hnode (hnetid.trans heq.symm)
    rw [Function.update_of_ne hne] at hlast
    have hold := h.absent netid t₀ hlast fun node hnode =>
      hmem _ (List.mem_map_of_mem hnode)
    omega

theorem Clocked.check (h : Clocked ulLearnStep nodes last t)
    (hstep : 20 * ulLearnStep.toNat < 2 ^ 32) (ht : t ≤ now)
    (hnow : 3 * ulLearnStep.toNat ≤ now.toNat) :
    Clocked ulLearnStep ((Call.checkOnline ulLearnStep now).apply nodes) last now := by
  have hle := UInt32.le_iff_toNat_le.mp ht
  have hcall : ∀ info now', Call.checkOnline ulLearnStep now ≠ .insert info now' := nofun
  refine ⟨h.netids.sublist (netids_apply hcall nodes), fun node hnode => ?_,
    fun netid t₀ hlast hnone => ?_⟩
  · obtain ⟨old, hold, hcheck⟩ := List.mem_filterMap.mp hnode
    obtain ⟨info, hinfo, rfl⟩ := Option.map_eq_some_iff.mp hcheck
    obtain ⟨t₀, hlast, hstamped⟩ := h.stamped old hold
    dsimp only
    rw [MnodeInfo.check_netid hinfo]
    exact ⟨t₀, hlast, (hstamped.check hstep ht hnow hinfo).1⟩
  · by_cases hthere : ∃ old ∈ nodes, old.info.netid = netid
    · obtain ⟨old, hold, rfl⟩ := hthere
      obtain ⟨t₁, hlast', hstamped⟩ := h.stamped old hold
      obtain rfl : t₁ = t₀ := Option.some.inj (hlast'.symm.trans hlast)
      cases hcheck : old.info.check ulLearnStep now with
      | none => exact hstamped.removed hstep ht hcheck
      | some info =>
        have hmem : (⟨info, old.subs⟩ : Node) ∈ (Call.checkOnline ulLearnStep now).apply nodes :=
          List.mem_filterMap.mpr ⟨old, hold, by rw [hcheck]; rfl⟩
        exact absurd (MnodeInfo.check_netid hcheck) (hnone _ hmem)
    · have hold := h.absent netid t₀ hlast fun node hnode hnetid => hthere ⟨node, hnode, hnetid⟩
      omega

/-- A node after a check is on line exactly when its last response is younger than four steps. -/
theorem Clocked.online (h : Clocked ulLearnStep nodes last t)
    (hstep : 20 * ulLearnStep.toNat < 2 ^ 32) (ht : t ≤ now)
    (hnow : 3 * ulLearnStep.toNat ≤ now.toNat) {node : Node}
    (hnode : node ∈ (Call.checkOnline ulLearnStep now).apply nodes)
    (hlast : last node.info.netid = some t₀) :
    node.info.online = true ↔ now.toNat < t₀.toNat + 4 * ulLearnStep.toNat := by
  obtain ⟨old, hold, hcheck⟩ := List.mem_filterMap.mp hnode
  obtain ⟨info, hinfo, rfl⟩ := Option.map_eq_some_iff.mp hcheck
  obtain ⟨t₁, hlast', hstamped⟩ := h.stamped old hold
  dsimp only at hlast
  rw [MnodeInfo.check_netid hinfo] at hlast
  obtain rfl : t₁ = t₀ := Option.some.inj (hlast'.symm.trans hlast)
  exact (hstamped.check hstep ht hnow hinfo).2

theorem Timed.clocked {s : Registry} (hstep : 20 * ulLearnStep.toNat < 2 ^ 32)
    (h : Timed ulLearnStep s last t) :
    ∃ nodes, Represents s nodes ∧ Clocked ulLearnStep nodes last t := by
  induction h with
  | init t => exact ⟨[], represents_init, Clocked.init ulLearnStep t⟩
  | @insert s s' last t now info _ ht _ hcall ih =>
    obtain ⟨nodes, hs, hclocked⟩ := ih
    exact ⟨_, hcall.represents hs, hclocked.insert ht info⟩
  | check _ ht hnow hcall ih =>
    obtain ⟨nodes, hs, hclocked⟩ := ih
    exact ⟨_, hcall.represents hs, hclocked.check hstep ht hnow⟩

theorem Clocked.kept {s : Registry} (h : Clocked ulLearnStep nodes last t)
    (hs : Represents s nodes) : Kept ulLearnStep s last t :=
  fun netid t₀ hlast hnone => h.absent netid t₀ hlast fun node hnode hnetid =>
    hnone ((present_iff hs netid).mpr ⟨node, hnode, hnetid⟩)

theorem liveness {s : Registry} (hstep : 20 * ulLearnStep.toNat < 2 ^ 32)
    (h : Timed ulLearnStep s last t) :
    Kept ulLearnStep s last t ∧
      ∀ now s', t ≤ now → 3 * ulLearnStep.toNat ≤ now.toNat →
        Step s (.checkOnline ulLearnStep now) s' →
        Kept ulLearnStep s' last now ∧ Told ulLearnStep s' last now := by
  obtain ⟨nodes, hs, hclocked⟩ := h.clocked hstep
  refine ⟨hclocked.kept hs, fun now s' ht hnow hcall => ?_⟩
  have hs' := hcall.represents hs
  have hclocked' := hclocked.check hstep ht hnow
  refine ⟨hclocked'.kept hs', fun netid t₀ hlast hfresh => ?_, fun netid t₀ hlast hstale => ?_⟩
  · by_cases hthere : ∃ node ∈ (Call.checkOnline ulLearnStep now).apply nodes,
        node.info.netid = netid
    · obtain ⟨node, hnode, rfl⟩ := hthere
      exact (online_iff hs' _).mpr
        ⟨node, hnode, rfl, (hclocked.online hstep ht hnow hnode hlast).mpr hfresh⟩
    · have hgone := hclocked'.absent netid t₀ hlast fun node hnode hnetid =>
        hthere ⟨node, hnode, hnetid⟩
      omega
  · intro honline
    obtain ⟨node, hnode, rfl, hon⟩ := (online_iff hs' netid).mp honline
    have hfresh := (hclocked.online hstep ht hnow hnode hlast).mp hon
    omega

theorem oneResponse_live :
    ∃ s last, Timed 10 s last 100 ∧ last 5 = some 100 ∧ Kept 10 s last 100 ∧
      ∀ now s', 100 ≤ now → 30 ≤ now.toNat → Step s (.checkOnline 10 now) s' →
        Kept 10 s' last now ∧ Told 10 s' last now := by
  obtain ⟨s, ⟨n, hrun⟩, -⟩ :=
    exec_represents represents_init (p := 0) (q := 0) rfl rfl (.insert (oneAddress 1) 100)
  have htimed : Timed 10 s (Function.update (fun _ => none) 5 (some 100)) 100 :=
    (Timed.init 100).insert (UInt32.le_refl 100) (by simp) ⟨0, 0, rfl, rfl, n, hrun⟩
  exact ⟨s, _, htimed, Function.update_self .., liveness (by simp) htimed⟩

end K64Gateway.Zigbee
