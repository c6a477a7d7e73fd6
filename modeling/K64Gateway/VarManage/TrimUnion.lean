import K64Gateway.VarManage.PollCover

/-
  What the joining of blocks in `__trim_sync_slave_link` keeps. The end of a block at the last
  register is 0 in 16 bits: such a block counts as the lowest there is, so that it is left out
  where it should be joined, and is cut where a lower one should be left out.

  Proved: the registers of a chain are the same before and after exactly under the condition on
  the blocks that end at the last register (`trimChain_merged_iff`).
-/

namespace K64Gateway.VarManage

/-! ## What is kept -/

/-- A register of a chain. -/
def PollsReg (bs : List SyncExt) (reg : Nat) : Prop := ∃ b ∈ bs, b.start ≤ reg ∧ reg < b.stop

/-- A chain in order, with the sizes of variables. -/
structure PollChain where
  blocks : List SyncExt
  ascending : Ascending blocks
  sizes : ∀ b ∈ blocks, 1 ≤ b.size.toNat ∧ b.size.toNat ≤ 128

/-- The registers are the same, a block that was made by joining is not too long, and a block that
    was too long before is kept as it is or lies inside of another one that is. -/
structure Merged (chain result : List SyncExt) : Prop where
  union : ∀ reg, PollsReg chain reg ↔ PollsReg result reg
  created : ∀ r ∈ result, r ∈ chain ∨ r.size.toNat ≤ syncExtMaxSize
  kept : ∀ b ∈ chain, syncExtMaxSize < b.size.toNat →
    b ∈ result ∨ ∃ r ∈ result, r ∈ chain ∧ r ≠ b ∧ r.Has b

theorem SyncExt.Has.pollsReg {r b : SyncExt} (h : r.Has b) {bs : List SyncExt} (hr : r ∈ bs)
    {reg : Nat} (hstart : b.start ≤ reg) (hstop : reg < b.stop) : PollsReg bs reg :=
  ⟨r, hr, Nat.le_trans h.1 hstart, Nat.lt_of_lt_of_le hstop h.2⟩

theorem pollsReg_cons {b : SyncExt} {bs : List SyncExt} {reg : Nat} :
    PollsReg (b :: bs) reg ↔ (b.start ≤ reg ∧ reg < b.stop) ∨ PollsReg bs reg :=
  List.exists_mem_cons_iff _ b bs

section
variable {node : SyncExt} {rest : List SyncExt}

/-! ## Nothing is added -/

/-- The registers that are covered were covered before. -/
theorem pollsReg_of_trim (h : Ascending (node :: rest)) {reg : Nat}
    (hreg : PollsReg (trimSyncExt node rest) reg) : PollsReg (node :: rest) reg := by
  induction rest generalizing node with
  | nil => exact hreg
  | cons next rest ih =>
    have hle := h.le_start (b := next) List.mem_cons_self
    have hsplit : trimSyncExt node (next :: rest) = node :: trimSyncExt next rest →
        PollsReg (node :: next :: rest) reg := by
      intro htrim
      rw [htrim] at hreg
      exact pollsReg_cons.mpr ((pollsReg_cons.mp hreg).imp_right fun hr => ih h.tail hr)
    rcases trim_cases rest hle (h.tail.inside next List.mem_cons_self) with ⟨-, htrim⟩ |
      ⟨-, -, htrim⟩ | ⟨hgap, -, -, node', hstart', hstop', htrim⟩ | ⟨-, -, -, htrim⟩
    · exact hsplit htrim
    · rw [htrim] at hreg
      exact pollsReg_cons.mpr ((pollsReg_cons.mp (ih h.absorb hreg)).imp_right fun hr =>
        pollsReg_cons.mpr (Or.inr hr))
    · rw [htrim] at hreg
      have hinside := h.tail.inside next List.mem_cons_self
      obtain ⟨hlow, hhigh⟩ | hr := pollsReg_cons.mp (ih (h.join hstart' (hstop' ▸ hinside)) hreg)
      · rw [hstart'] at hlow
        rw [hstop'] at hhigh
        by_cases hnode : reg < node.stop
        · exact pollsReg_cons.mpr (Or.inl ⟨hlow, hnode⟩)
        · exact pollsReg_cons.mpr (Or.inr (pollsReg_cons.mpr (Or.inl ⟨by omega, hhigh⟩)))
      · exact pollsReg_cons.mpr (Or.inr (pollsReg_cons.mpr (Or.inr hr)))
    · exact hsplit htrim

/-- A block of the result was there before, or is not too long. -/
theorem trim_created (h : Ascending (node :: rest)) {r : SyncExt}
    (hr : r ∈ trimSyncExt node rest) : r ∈ node :: rest ∨ r.size.toNat ≤ syncExtMaxSize := by
  induction rest generalizing node with
  | nil => exact Or.inl hr
  | cons next rest ih =>
    have hle := h.le_start (b := next) List.mem_cons_self
    have hsplit : trimSyncExt node (next :: rest) = node :: trimSyncExt next rest →
        r ∈ node :: next :: rest ∨ r.size.toNat ≤ syncExtMaxSize := by
      intro htrim
      rw [htrim] at hr
      rcases List.mem_cons.mp hr with rfl | hr
      · exact Or.inl List.mem_cons_self
      · exact (ih h.tail hr).imp_left fun hr => List.mem_cons_of_mem _ hr
    rcases trim_cases rest hle (h.tail.inside next List.mem_cons_self) with ⟨-, htrim⟩ |
      ⟨-, -, htrim⟩ | ⟨-, -, hmax, node', hstart', hstop', htrim⟩ | ⟨-, -, -, htrim⟩
    · exact hsplit htrim
    · rw [htrim] at hr
      refine (ih h.absorb hr).imp_left fun hr => ?_
      rcases List.mem_cons.mp hr with rfl | hr
      · exact List.mem_cons_self
      · exact List.mem_cons_of_mem _ (List.mem_cons_of_mem _ hr)
    · rw [htrim] at hr
      have hinside := h.tail.inside next List.mem_cons_self
      rcases ih (h.join hstart' (hstop' ▸ hinside)) hr with hr | hsize
      · rcases List.mem_cons.mp hr with rfl | hr
        · have hsize : r.start + r.size.toNat = next.stop := hstop'
          exact Or.inr (by omega)
        · exact Or.inl (List.mem_cons_of_mem _ (List.mem_cons_of_mem _ hr))
      · exact Or.inr hsize
    · exact hsplit htrim

/-! ## What is lost -/

theorem not_pollsReg_of_start {bs : List SyncExt} {reg : Nat} (h : ∀ b ∈ bs, reg < b.start) :
    ¬ PollsReg bs reg := by
  rintro ⟨b, hb, hle, -⟩
  exact absurd (h b hb) (Nat.not_lt.mpr hle)

theorem not_pollsReg_cons {bs : List SyncExt} {reg : Nat} (hnode : node.stop ≤ reg)
    (h : ¬ PollsReg bs reg) : ¬ PollsReg (node :: bs) reg := fun hreg =>
  (pollsReg_cons.mp hreg).elim (fun hand => absurd hand.2 (Nat.not_lt.mpr hnode)) h

/-- The end of a block that is passed on lies below the last register. -/
theorem stop_of_mod_lt {next : SyncExt} (hinside : next.stop ≤ regsEnd) {n : Nat}
    (h : n < next.stop % regsEnd) : n < next.stop ∧ next.stop < regsEnd := by
  have hbelow : next.stop < regsEnd := by
    refine Nat.lt_of_le_of_ne hinside fun hend => ?_
    rw [hend, Nat.mod_self] at h
    exact Nat.not_lt_zero _ h
  rw [Nat.mod_eq_of_lt hbelow] at h
  exact ⟨h, hbelow⟩

/-- Behind a block that ends below the last register a register stays free, whatever comes. -/
theorem exists_unpolled (h : Ascending (node :: rest)) (hnode : node.stop < regsEnd) :
    ∃ reg, node.stop ≤ reg ∧ reg < regsEnd ∧ ¬ PollsReg (trimSyncExt node rest) reg := by
  induction rest generalizing node with
  | nil =>
    exact ⟨node.stop, Nat.le_refl _, hnode, not_pollsReg_cons (Nat.le_refl _)
      (not_pollsReg_of_start fun _ hb => absurd hb List.not_mem_nil)⟩
  | cons next rest ih =>
    have hle := h.le_start (b := next) List.mem_cons_self
    have hinside := h.tail.inside next List.mem_cons_self
    rcases trim_cases rest hle hinside with ⟨hgap, htrim⟩ | ⟨-, -, htrim⟩ |
      ⟨-, hmod, -, node', hstart', hstop', htrim⟩ | ⟨-, hmod, -, htrim⟩
    · rw [htrim]
      refine ⟨node.stop, Nat.le_refl _, hnode, not_pollsReg_cons (Nat.le_refl _) fun hreg => ?_⟩
      refine not_pollsReg_of_start (fun b hb => ?_) (pollsReg_of_trim h.tail hreg)
      rcases List.mem_cons.mp hb with rfl | hb
      · exact hgap
      · exact Nat.lt_of_lt_of_le hgap (h.tail.le_start hb)
    · rw [htrim]
      exact ih h.absorb hnode
    · rw [Nat.mod_eq_of_lt hnode] at hmod
      obtain ⟨hlt, hbelow⟩ := stop_of_mod_lt hinside hmod
      rw [htrim]
      obtain ⟨reg, hreg, hend, hnot⟩ := ih (h.join hstart' (hstop' ▸ hinside)) (hstop' ▸ hbelow)
      exact ⟨reg, by omega, hend, hnot⟩
    · rw [Nat.mod_eq_of_lt hnode] at hmod
      obtain ⟨hlt, hbelow⟩ := stop_of_mod_lt hinside hmod
      rw [htrim]
      obtain ⟨reg, hreg, hend, hnot⟩ := ih h.tail hbelow
      exact ⟨reg, by omega, hend, not_pollsReg_cons (by omega) hnot⟩

/-- A block that ends at the last register is cut by the next lower end that is near. -/
theorem trim_cut (h : Ascending (node :: rest)) (hend : node.stop = regsEnd) {l : SyncExt}
    (hl : l ∈ rest.find? fun l => decide (l.stop ≠ regsEnd))
    (hnear : l.stop - node.start ≤ syncExtMaxSize) :
    ∃ reg, node.start ≤ reg ∧ reg < regsEnd ∧ ¬ PollsReg (trimSyncExt node rest) reg := by
  induction rest with
  | nil => exact nomatch hl
  | cons next rest ih =>
    have hle := h.le_start (b := next) List.mem_cons_self
    have hinside := h.tail.inside next List.mem_cons_self
    have hpos : 0 < node.start := by
      have hsize := node.size.toNat_lt
      have hstop : node.start + node.size.toNat = regsEnd := hend
      unfold regsEnd at hstop
      omega
    have hnext := next.start_le_stop
    rcases trim_cases rest hle hinside with ⟨hgap, -⟩ | ⟨-, hmod, htrim⟩ |
      ⟨-, hmod, -, node', hstart', hstop', htrim⟩ | ⟨-, hmod, hfar, -⟩
    · omega
    · rw [hend, Nat.mod_self] at hmod
      have hlast : next.stop = regsEnd := by
        by_contra hne
        rw [Nat.mod_eq_of_lt (by omega)] at hmod
        omega
      rw [List.find?_cons_of_neg (by simpa using hlast)] at hl
      rw [htrim]
      exact ih h.absorb hl
    · obtain ⟨-, hbelow⟩ := stop_of_mod_lt hinside hmod
      rw [htrim]
      obtain ⟨reg, hreg, hlt, hnot⟩ :=
        exists_unpolled (h.join hstart' (hstop' ▸ hinside)) (hstop' ▸ hbelow)
      exact ⟨reg, by omega, hlt, hnot⟩
    · obtain ⟨-, hbelow⟩ := stop_of_mod_lt hinside hmod
      rw [List.find?_cons_of_pos (by simpa using Nat.ne_of_lt hbelow)] at hl
      obtain rfl : next = l := Option.some.inj hl
      omega

/-- The next block ends at the last register: it is left out where it begins in front of the end
    of the first one, and cut where a block behind it is near. -/
theorem trim_lost_end {next : SyncExt} (h : Ascending (node :: next :: rest))
    (hnode : node.stop < regsEnd) (hnext : next.stop = regsEnd)
    (hnot : ¬ (node.stop + 1 ≤ next.start ∧
      ∀ l ∈ rest.find? (fun l => decide (l.stop ≠ regsEnd)),
        syncExtMaxSize < l.stop - next.start)) :
    ∃ reg, node.stop ≤ reg ∧ PollsReg (next :: rest) reg ∧
      ¬ PollsReg (trimSyncExt node (next :: rest)) reg := by
  have hle := h.le_start (b := next) List.mem_cons_self
  have hinside := h.tail.inside next List.mem_cons_self
  have hstop := next.start_le_stop
  rcases trim_cases rest hle hinside with ⟨hgap, htrim⟩ | ⟨hgap, -, htrim⟩ |
    ⟨-, hmod, -⟩ | ⟨-, hmod, -⟩
  · have hcut : ¬ ∀ l ∈ rest.find? (fun l => decide (l.stop ≠ regsEnd)),
        syncExtMaxSize < l.stop - next.start := fun hbehind => hnot ⟨hgap, hbehind⟩
    push Not at hcut
    obtain ⟨l, hl, hnear⟩ := hcut
    obtain ⟨reg, hreg, hlt, hnone⟩ := trim_cut h.tail hnext hl hnear
    rw [htrim]
    exact ⟨reg, by omega, pollsReg_cons.mpr (Or.inl ⟨hreg, by omega⟩),
      not_pollsReg_cons (by omega) hnone⟩
  · obtain ⟨reg, hreg, hlt, hnone⟩ := exists_unpolled h.absorb hnode
    rw [htrim]
    exact ⟨reg, hreg, pollsReg_cons.mpr (Or.inl ⟨by omega, by omega⟩), hnone⟩
  · have hbelow := (stop_of_mod_lt hinside hmod).2
    omega
  · have hbelow := (stop_of_mod_lt hinside hmod).2
    omega

/-- Where the ends do not fit, a register is lost. -/
theorem trim_lost (h : Ascending (node :: rest)) (hnode : node.stop < regsEnd)
    (hnot : ¬ EndsFit (node.stop + 1) rest) :
    ∃ reg, node.stop ≤ reg ∧ PollsReg rest reg ∧ ¬ PollsReg (trimSyncExt node rest) reg := by
  induction rest generalizing node with
  | nil => exact absurd trivial hnot
  | cons next rest ih =>
    have hle := h.le_start (b := next) List.mem_cons_self
    have hinside := h.tail.inside next List.mem_cons_self
    have hstop := next.start_le_stop
    unfold EndsFit at hnot
    by_cases hnext : next.stop = regsEnd
    · rw [if_pos hnext] at hnot
      exact trim_lost_end h hnode hnext hnot
    · rw [if_neg hnext] at hnot
      have hbelow : next.stop < regsEnd := by omega
      have hrest : ∀ {reg : Nat}, PollsReg rest reg → PollsReg (next :: rest) reg := fun hreg =>
        pollsReg_cons.mpr (Or.inr hreg)
      rcases trim_cases rest hle hinside with ⟨hgap, htrim⟩ | ⟨-, hmod, htrim⟩ |
        ⟨-, hmod, -, node', hstart', hstop', htrim⟩ | ⟨-, hmod, -, htrim⟩
      · rw [max_eq_right (by omega)] at hnot
        obtain ⟨reg, hreg, hcov, hnone⟩ := ih h.tail hbelow hnot
        rw [htrim]
        exact ⟨reg, by omega, hrest hcov, not_pollsReg_cons (by omega) hnone⟩
      · rw [Nat.mod_eq_of_lt hbelow, Nat.mod_eq_of_lt hnode] at hmod
        rw [max_eq_left (by omega)] at hnot
        obtain ⟨reg, hreg, hcov, hnone⟩ := ih h.absorb hnode hnot
        rw [htrim]
        exact ⟨reg, hreg, hrest hcov, hnone⟩
      · rw [Nat.mod_eq_of_lt hbelow, Nat.mod_eq_of_lt hnode] at hmod
        rw [max_eq_right (by omega), ← hstop'] at hnot
        obtain ⟨reg, hreg, hcov, hnone⟩ :=
          ih (h.join hstart' (hstop' ▸ hinside)) (hstop' ▸ hbelow) hnot
        rw [htrim]
        exact ⟨reg, by omega, hrest hcov, hnone⟩
      · rw [Nat.mod_eq_of_lt hbelow, Nat.mod_eq_of_lt hnode] at hmod
        rw [max_eq_right (by omega)] at hnot
        obtain ⟨reg, hreg, hcov, hnone⟩ := ih h.tail hbelow hnot
        rw [htrim]
        exact ⟨reg, by omega, hrest hcov, not_pollsReg_cons (by omega) hnone⟩

end

/-! ## The chain -/

/-- A register is lost where the ends of a chain do not fit. -/
theorem trimChain_lost {chain : List SyncExt} (h : Ascending chain) (hnot : ¬ EndsFit 0 chain) :
    ∃ reg, PollsReg chain reg ∧ ¬ PollsReg (trimChain chain) reg := by
  cases chain with
  | nil => exact absurd trivial hnot
  | cons node rest =>
    unfold EndsFit at hnot
    by_cases hend : node.stop = regsEnd
    · rw [if_pos hend] at hnot
      have hcut : ¬ ∀ l ∈ rest.find? (fun l => decide (l.stop ≠ regsEnd)),
          syncExtMaxSize < l.stop - node.start := fun hfar => hnot ⟨Nat.zero_le _, hfar⟩
      push Not at hcut
      obtain ⟨l, hl, hnear⟩ := hcut
      obtain ⟨reg, hreg, hlt, hnone⟩ := trim_cut h hend hl hnear
      exact ⟨reg, pollsReg_cons.mpr (Or.inl ⟨hreg, by omega⟩), hnone⟩
    · have hbelow : node.stop < regsEnd :=
        Nat.lt_of_le_of_ne (h.inside node List.mem_cons_self) hend
      rw [if_neg hend, Nat.zero_max] at hnot
      obtain ⟨reg, -, hcov, hnone⟩ := trim_lost h hbelow hnot
      exact ⟨reg, pollsReg_cons.mpr (Or.inr hcov), hnone⟩

theorem trimChain_created {chain : List SyncExt} (h : Ascending chain) {r : SyncExt}
    (hr : r ∈ trimChain chain) : r ∈ chain ∨ r.size.toNat ≤ syncExtMaxSize := by
  cases chain with
  | nil => exact Or.inl hr
  | cons node rest => exact trim_created h hr

/-- A block that holds a block of more registers is itself as long. -/
theorem SyncExt.Has.size_le {r b : SyncExt} (h : r.Has b) : b.size.toNat ≤ r.size.toNat := by
  obtain ⟨hstart, hstop⟩ := h
  unfold SyncExt.start at hstart
  unfold SyncExt.stop at hstop
  omega

theorem trimChain_kept {chain : List SyncExt} (h : Ascending chain) (hfit : EndsFit 0 chain)
    {b : SyncExt} (hb : b ∈ chain) (hlong : syncExtMaxSize < b.size.toNat) :
    b ∈ trimChain chain ∨ ∃ r ∈ trimChain chain, r ∈ chain ∧ r ≠ b ∧ r.Has b := by
  obtain ⟨r, hr, hhas⟩ := trimChain_covers h hfit hb
  have hsize := hhas.size_le
  have hold : r ∈ chain := (trimChain_created h hr).resolve_right (by omega)
  by_cases hsame : r = b
  · exact Or.inl (hsame ▸ hr)
  · exact Or.inr ⟨r, hr, hold, hsame, hhas⟩

theorem pollsReg_trimChain {chain : List SyncExt} (h : Ascending chain) (hfit : EndsFit 0 chain)
    (reg : Nat) : PollsReg chain reg ↔ PollsReg (trimChain chain) reg := by
  constructor
  · rintro ⟨b, hb, hstart, hstop⟩
    obtain ⟨r, hr, hhas⟩ := trimChain_covers h hfit hb
    exact hhas.pollsReg hr hstart hstop
  · intro hreg
    cases chain with
    | nil => exact hreg
    | cons node rest => exact pollsReg_of_trim h hreg

/-- The joining keeps what it should exactly where the ends of the chain fit: the first block that
    ends at the last register begins behind the ends of all those in front of it, and the next one
    that ends lower ends too far from its start to be joined. -/
theorem trimChain_merged_iff (chain : PollChain) :
    Merged chain.blocks (trimChain chain.blocks) ↔ EndsFit 0 chain.blocks := by
  constructor
  · intro h
    by_contra hnot
    obtain ⟨reg, hcov, hnone⟩ := trimChain_lost chain.ascending hnot
    exact hnone ((h.union reg).mp hcov)
  · intro hfit
    exact ⟨pollsReg_trimChain chain.ascending hfit, fun _ => trimChain_created chain.ascending,
      fun _ => trimChain_kept chain.ascending hfit⟩

/-- Two blocks that meet, the second one up to the last register. -/
def lastRegisters : PollChain where
  blocks := [⟨65500, 0, 10, 0⟩, ⟨65510, 0, 26, 0⟩]
  ascending := ⟨by decide, by decide⟩
  sizes := by decide

/-- The second one is left out. -/
theorem lastRegisters_lost : ¬ Merged lastRegisters.blocks (trimChain lastRegisters.blocks) := by
  intro h
  have htrim : trimChain lastRegisters.blocks = [⟨65500, 0, 10, 0⟩] := rfl
  have hcov : PollsReg lastRegisters.blocks 65510 :=
    ⟨⟨65510, 0, 26, 0⟩, by decide, by decide, by decide⟩
  obtain ⟨r, hr, -, hlt⟩ := (h.union 65510).mp hcov
  rw [htrim] at hr
  obtain rfl := List.mem_singleton.mp hr
  exact absurd hlt (by decide)

end K64Gateway.VarManage
