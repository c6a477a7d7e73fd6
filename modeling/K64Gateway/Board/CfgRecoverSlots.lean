import K64Gateway.Board.CfgRecover

/-
  Where the migration of `board/cfg/cfg_recover.c` puts the two transfer connections.

  The search for a slot starts from 0 and not from the first slot of the class, so that a GPRS
  connection that finds no free slot is put in the first Ethernet slot. The test behind the loop
  looks for a slot past the class, which the search does not give.

  Proved: each connection gets a slot of its class, a free one if there is one, and the other slots
  are left alone, exactly if an enabled GPRS connection finds a free slot (`keepsSlots_iff`).
-/

namespace K64Gateway.CfgRecover

/-! ## The slots -/

/-- The slots of a transfer connection: those of Ethernet for 0, those of GPRS for 1. -/
def InClass (index i : Nat) : Prop := ofsAry.getD index 0 ≤ i ∧ i < ofsAry.getD (index + 1) 0

/-- The transfer connection is enabled. -/
def XferEnabled (xfer_net_cfg : List UInt8) (index : Nat) : Prop :=
  (xferV0 xfer_net_cfg index).enable ≠ 0

/-- The slot is not enabled in the table that comes of the old TCP/IP section. -/
def FreeSlot (tcpip_cfg : Option (List UInt8)) (i : Nat) : Prop :=
  (migrate tcpip_cfg none i).enable = 0

/-- The enabled transfer connections stand in these slots, and the others are as converted. -/
structure Placed (tcpip_cfg : Option (List UInt8)) (xfer_net_cfg : List UInt8)
    (slot : Nat → Nat) : Prop where
  inClass : ∀ index < 2, XferEnabled xfer_net_cfg index → InClass index (slot index)
  free : ∀ index < 2, XferEnabled xfer_net_cfg index →
    (∃ i, InClass index i ∧ FreeSlot tcpip_cfg i) → FreeSlot tcpip_cfg (slot index)
  placed : ∀ index < 2, XferEnabled xfer_net_cfg index →
    migrate tcpip_cfg (some xfer_net_cfg) (slot index) =
      (migrate tcpip_cfg none (slot index)).setXfer (xferV0 xfer_net_cfg index)
  other : ∀ i < boardTcpipMax,
    (∀ index < 2, XferEnabled xfer_net_cfg index → i ≠ slot index) →
    migrate tcpip_cfg (some xfer_net_cfg) i = migrate tcpip_cfg none i

/-- The migration puts the transfer connections, if their section is read, where they belong. -/
def KeepsSlots (tcpip_cfg xfer_net_cfg : Option (List UInt8)) : Prop :=
  ∀ b ∈ xfer_net_cfg, ∃ slot, Placed tcpip_cfg b slot

/-! ## The two searches -/

section
variable (tcpip : Option (List UInt8)) (x : List UInt8)

/-- The slot of the Ethernet connection. -/
def enetSlot : Nat := freeSlot (migrate tcpip none) 0 4

/-- The slot of the GPRS connection. -/
def gprsSlot : Nat := freeSlot (xferStep x (migrate tcpip none) 0) 4 8

theorem enetSlot_spec : enetSlot tcpip < 4 ∧
    ((∃ i, InClass 0 i ∧ FreeSlot tcpip i) → FreeSlot tcpip (enetSlot tcpip)) := by
  obtain ⟨-, hlt, hfree⟩ | ⟨hzero, hfull⟩ :=
    freeSlot_cases (g := migrate tcpip none) (show 0 < 4 by decide)
  · exact ⟨hlt, fun _ => hfree⟩
  · refine ⟨?_, fun ⟨i, hi, hfree⟩ => absurd hfree (hfull i hi.1 hi.2)⟩
    rw [enetSlot, hzero]
    decide

/-- The first step leaves the slots of GPRS alone. -/
theorem xferStep_gprs {i : Nat} (hi : 4 ≤ i) :
    xferStep x (migrate tcpip none) 0 i = migrate tcpip none i := by
  have hlt := (enetSlot_spec tcpip).1
  rw [xferStep_apply]
  refine if_neg fun hand => ?_
  have hslot : i = enetSlot tcpip := hand.2
  omega

theorem gprsSlot_of_free (h : ∃ i, InClass 1 i ∧ FreeSlot tcpip i) :
    InClass 1 (gprsSlot tcpip x) ∧ FreeSlot tcpip (gprsSlot tcpip x) := by
  obtain ⟨hle, hlt, hfree⟩ | ⟨-, hfull⟩ :=
    freeSlot_cases (g := xferStep x (migrate tcpip none) 0) (show 4 < 8 by decide)
  · rw [xferStep_gprs tcpip x hle] at hfree
    exact ⟨⟨hle, hlt⟩, hfree⟩
  · obtain ⟨i, hi, hfree⟩ := h
    refine absurd ?_ (hfull i hi.1 hi.2)
    rw [xferStep_gprs tcpip x hi.1]
    exact hfree

/-- Where none is free it is the first slot of all. -/
theorem gprsSlot_of_full (h : ∀ i, InClass 1 i → ¬ FreeSlot tcpip i) :
    gprsSlot tcpip x = 0 := by
  obtain ⟨hle, hlt, hfree⟩ | ⟨hzero, -⟩ :=
    freeSlot_cases (g := xferStep x (migrate tcpip none) 0) (show 4 < 8 by decide)
  · rw [xferStep_gprs tcpip x hle] at hfree
    exact absurd hfree (h _ ⟨hle, hlt⟩)
  · exact hzero

/-- The table in terms of the two slots. -/
theorem migrate_slots (i : Nat) :
    migrate tcpip (some x) i =
      let e := migrate tcpip none i
      let g :=
        if (xferV0 x 0).enable ≠ 0 ∧ i = enetSlot tcpip then e.setXfer (xferV0 x 0) else e
      if (xferV0 x 1).enable ≠ 0 ∧ i = gprsSlot tcpip x then g.setXfer (xferV0 x 1) else g :=
  migrate_apply x tcpip i

/-! ## The placement -/

theorem mode_migrate_none_xfer (i : Nat) : (migrate tcpip none i).mode = 0 := by
  cases tcpip with
  | none => rfl
  | some t =>
    show (normalCfgs t i).mode = 0
    unfold normalCfgs
    split <;> rfl

variable {tcpip x}

theorem placed_of_free (h : XferEnabled x 1 → ∃ i, InClass 1 i ∧ FreeSlot tcpip i) :
    Placed tcpip x fun index => if index = 0 then enetSlot tcpip else gprsSlot tcpip x := by
  obtain ⟨henet, hfree⟩ := enetSlot_spec tcpip
  have hgprs : XferEnabled x 1 → 4 ≤ gprsSlot tcpip x := fun h1 =>
    (gprsSlot_of_free tcpip x (h h1)).1.1
  have hcases : ∀ index < 2, index = 0 ∨ index = 1 := fun index hindex => by omega
  constructor
  · intro index hindex henable
    obtain rfl | rfl := hcases index hindex
    · exact ⟨Nat.zero_le _, henet⟩
    · exact (gprsSlot_of_free tcpip x (h henable)).1
  · intro index hindex henable hexists
    obtain rfl | rfl := hcases index hindex
    · exact hfree hexists
    · exact (gprsSlot_of_free tcpip x hexists).2
  · intro index hindex henable
    rw [migrate_slots]
    obtain rfl | rfl := hcases index hindex
    · dsimp only
      rw [if_pos rfl, if_neg fun hand => by have := hgprs hand.1; omega,
        if_pos ⟨henable, rfl⟩]
    · have hge := hgprs henable
      dsimp only
      rw [if_neg Nat.one_ne_zero, if_pos ⟨henable, rfl⟩, if_neg fun hand => by omega]
  · intro i _ hno
    rw [migrate_slots]
    dsimp only
    rw [if_neg fun hand => hno 1 (by decide) hand.1 hand.2,
      if_neg fun hand => hno 0 (by decide) hand.1 hand.2]

/-- No slot of GPRS takes the connection where none is free. -/
theorem not_placed_of_full (henable : XferEnabled x 1)
    (hfull : ∀ i, InClass 1 i → ¬ FreeSlot tcpip i) (slot : Nat → Nat) :
    ¬ Placed tcpip x slot := by
  intro h
  obtain ⟨hge, -⟩ : 4 ≤ slot 1 ∧ slot 1 < 8 := h.inClass 1 (by decide) henable
  have hlt := (enetSlot_spec tcpip).1
  have hzero := gprsSlot_of_full tcpip x hfull
  have hkept : migrate tcpip (some x) (slot 1) = migrate tcpip none (slot 1) := by
    rw [migrate_slots]
    dsimp only
    rw [if_neg fun hand => by omega, if_neg fun hand => by omega]
  have hmode := congrArg TcpipCfg.mode (hkept.symm.trans (h.placed 1 (by decide) henable))
  rw [mode_migrate_none_xfer, mode_setXfer] at hmode
  exact absurd hmode (by decide)

end

/-- The transfer connections are put where they belong, exactly if an enabled GPRS connection
    finds a free slot among those of GPRS. -/
theorem keepsSlots_iff (tcpip xfer : Option (List UInt8)) :
    KeepsSlots tcpip xfer ↔
      ∀ b ∈ xfer, XferEnabled b 1 → ∃ i, InClass 1 i ∧ FreeSlot tcpip i := by
  constructor
  · intro h b hb henable
    by_contra hnone
    obtain ⟨slot, hslot⟩ := h b hb
    exact not_placed_of_full henable (fun i hi hfree => hnone ⟨i, hi, hfree⟩) slot hslot
  · intro h b hb
    exact ⟨_, placed_of_free (h b hb)⟩

/-- Eight enabled connections. -/
def fullTcpip : List UInt8 := (List.replicate 8 (1 :: List.replicate 83 0)).flatten

/-- A transfer connection over GPRS alone. -/
def gprsXfer : List UInt8 := List.replicate 88 0 ++ 1 :: List.replicate 87 0

set_option maxRecDepth 4000 in
/-- It is put over the first Ethernet connection. -/
theorem gprs_misplaced : ¬ KeepsSlots (some fullTcpip) (some gprsXfer) := by
  intro h
  obtain ⟨slot, hslot⟩ := h gprsXfer rfl
  have henable : ∀ i < boardTcpipMax, (tcpipV0 fullTcpip i).enable ≠ 0 := by decide
  refine not_placed_of_full (show (xferV0 gprsXfer 1).enable ≠ 0 by decide) ?_ slot hslot
  intro i hi hfree
  have hlt : i < boardTcpipMax := hi.2
  rw [FreeSlot, normalCfgs_of_lt hlt] at hfree
  exact henable i hlt hfree

end K64Gateway.CfgRecover
