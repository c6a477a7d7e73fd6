import K64Gateway.VarManage.SyncPlan

/-
  Whether the poll plan reads every register. A block that is put in front of a higher one takes
  that one's place, with all that is in front of it, and the ends of blocks are compared in 16 bits,
  where the end of the last register is 0.

  Proved: the joining loses no block that ends below the last register (`trim_inside`), and none
  at all under a condition on those that do end there (`trimChain_covers`). Hence every variable is
  polled if the keys fit, the variables of a group come in order, and their blocks meet that
  condition (`polled_of_fits`).
-/

namespace K64Gateway.VarManage

variable {R : Type}

/-! ## Blocks -/

def SyncExt.start (b : SyncExt) : Nat := b.addr.toNat

/-- The register behind the last one. -/
def SyncExt.stop (b : SyncExt) : Nat := b.addr.toNat + b.size.toNat

/-- The end of the registers. -/
def regsEnd : Nat := 65536

def SyncExt.Has (r b : SyncExt) : Prop := r.start ≤ b.start ∧ b.stop ≤ r.stop

/-- A block that ends at the last register begins behind those in front of it, which end below `e`,
    and the next one that ends lower ends too far from its start to be joined. -/
def EndsFit (e : Nat) : List SyncExt → Prop
  | [] => True
  | b :: rest =>
      if b.stop = regsEnd then
        e ≤ b.start ∧ ∀ l ∈ rest.find? (fun l => decide (l.stop ≠ regsEnd)),
          syncExtMaxSize < l.stop - b.start
      else EndsFit (max e (b.stop + 1)) rest

theorem endsFit_of_below {bs : List SyncExt} (e : Nat) (h : ∀ b ∈ bs, b.stop < regsEnd) :
    EndsFit e bs := by
  induction bs generalizing e with
  | nil => exact trivial
  | cons b rest ih =>
    unfold EndsFit
    rw [if_neg (Nat.ne_of_lt (h b List.mem_cons_self))]
    exact ih _ fun c hc => h c (List.mem_cons_of_mem b hc)

/-- The blocks come in order, within the registers. -/
structure Ascending (bs : List SyncExt) : Prop where
  sorted : bs.Pairwise fun b c => b.start ≤ c.start
  inside : ∀ b ∈ bs, b.stop ≤ regsEnd

theorem SyncExt.start_le_stop (b : SyncExt) : b.start ≤ b.stop := Nat.le_add_right _ _

namespace Ascending

variable {node next node' : SyncExt} {rest : List SyncExt}

theorem tail (h : Ascending (node :: rest)) : Ascending rest :=
  ⟨(List.pairwise_cons.mp h.sorted).2, fun c hc => h.inside c (List.mem_cons_of_mem node hc)⟩

theorem le_start (h : Ascending (node :: rest)) {b : SyncExt} (hb : b ∈ rest) :
    node.start ≤ b.start := (List.pairwise_cons.mp h.sorted).1 b hb

/-- A block with the same start takes the place of the first two. -/
theorem join (h : Ascending (node :: next :: rest)) (hstart : node'.start = node.start)
    (hstop : node'.stop ≤ regsEnd) : Ascending (node' :: rest) := by
  refine ⟨List.pairwise_cons.mpr ⟨fun d hd => ?_, h.tail.tail.sorted⟩, fun d hd => ?_⟩
  · rw [hstart]
    exact h.le_start (List.mem_cons_of_mem next hd)
  · rcases List.mem_cons.mp hd with rfl | hd
    · exact hstop
    · exact h.tail.tail.inside d hd

/-- The block behind the first one is left out. -/
theorem absorb (h : Ascending (node :: next :: rest)) : Ascending (node :: rest) :=
  h.join rfl (h.inside node List.mem_cons_self)

end Ascending

/-! ## Joining -/

section Joining

variable {node next : SyncExt} {rest : List SyncExt}

theorem stop_mod (b : SyncExt) : (b.addr + b.size.toUInt16).toNat = b.stop % regsEnd := by
  rw [UInt16.toNat_add, UInt8.toNat_toUInt16]
  rfl

theorem stop_lt_iff (b c : SyncExt) :
    b.addr + b.size.toUInt16 < c.addr + c.size.toUInt16 ↔ b.stop % regsEnd < c.stop % regsEnd := by
  rw [UInt16.lt_iff_toNat_lt, stop_mod, stop_mod]

/-- The size of two joined blocks. -/
theorem stop_joined (hle : node.start ≤ next.start) (hinside : next.stop < regsEnd)
    (hmax : next.stop - node.start ≤ syncExtMaxSize) :
    SyncExt.stop { node with
      size := (next.addr + next.size.toUInt16 - node.addr).toUInt8 } = next.stop := by
  have hstop := stop_mod next
  have hstart := next.start_le_stop
  rw [Nat.mod_eq_of_lt hinside] at hstop
  have hsub : (next.addr + next.size.toUInt16 - node.addr).toNat = next.stop - node.start := by
    rw [UInt16.toNat_sub_of_le _ _ (UInt16.le_iff_toNat_le.mpr (by
      rw [hstop]
      exact Nat.le_trans hle hstart)), hstop]
    rfl
  show node.start + _ = _
  rw [UInt16.toNat_toUInt8, hsub]
  unfold syncExtMaxSize at hmax
  omega

/-- What happens to a block and the next one: nothing between them, the next one left out, the two
    joined, or too long together. -/
theorem trim_cases (rest : List SyncExt) (hle : node.start ≤ next.start)
    (hinside : next.stop ≤ regsEnd) :
    (node.stop < next.start ∧ trimSyncExt node (next :: rest) = node :: trimSyncExt next rest) ∨
    (next.start ≤ node.stop ∧ next.stop % regsEnd ≤ node.stop % regsEnd ∧
      trimSyncExt node (next :: rest) = trimSyncExt node rest) ∨
    (next.start ≤ node.stop ∧ node.stop % regsEnd < next.stop % regsEnd ∧
      next.stop - node.start ≤ syncExtMaxSize ∧ ∃ node', node'.start = node.start ∧
        node'.stop = next.stop ∧ trimSyncExt node (next :: rest) = trimSyncExt node' rest) ∨
    (next.start ≤ node.stop ∧ node.stop % regsEnd < next.stop % regsEnd ∧
      syncExtMaxSize < next.stop - node.start ∧
        trimSyncExt node (next :: rest) = node :: trimSyncExt next rest) := by
  by_cases hgap : next.start ≤ node.stop
  · have hnear : next.addr.toNat ≤ node.addr.toNat + node.size.toNat := hgap
    by_cases hlt : node.stop % regsEnd < next.stop % regsEnd
    · have hbelow : next.stop < regsEnd := by
        refine Nat.lt_of_le_of_ne hinside fun hend => ?_
        rw [hend, Nat.mod_self] at hlt
        exact Nat.not_lt_zero _ hlt
      have hstart := next.start_le_stop
      have hmod := Nat.mod_eq_of_lt hbelow
      have hdiff : ((next.addr + next.size.toUInt16).toNat : Int) - node.addr.toNat ≤
          syncExtMaxSize ↔ next.stop - node.start ≤ syncExtMaxSize := by
        rw [stop_mod, hmod]
        unfold SyncExt.start at hle hstart ⊢
        omega
      by_cases hmax : next.stop - node.start ≤ syncExtMaxSize
      · refine .inr (.inr (.inl ⟨hgap, hlt, hmax,
          { node with size := (next.addr + next.size.toUInt16 - node.addr).toUInt8 }, rfl,
            stop_joined hle hbelow hmax, ?_⟩))
        rw [trimSyncExt, if_pos hnear]
        dsimp only
        rw [if_pos ((stop_lt_iff _ _).mpr hlt), if_pos (hdiff.mpr hmax)]
      · refine .inr (.inr (.inr ⟨hgap, hlt, Nat.lt_of_not_le hmax, ?_⟩))
        rw [trimSyncExt, if_pos hnear]
        dsimp only
        rw [if_pos ((stop_lt_iff _ _).mpr hlt), if_neg fun h => hmax (hdiff.mp h)]
    · refine .inr (.inl ⟨hgap, Nat.le_of_not_lt hlt, ?_⟩)
      rw [trimSyncExt, if_pos hnear]
      dsimp only
      rw [if_neg fun h => hlt ((stop_lt_iff _ _).mp h)]
  · exact .inl ⟨Nat.lt_of_not_le hgap, if_neg hgap⟩

/-- A block that ends below the last register is never lost. -/
theorem trim_inside (h : Ascending (node :: rest)) :
    (∃ r ∈ trimSyncExt node rest,
      r.start = node.start ∧ (node.stop ≠ regsEnd → node.stop ≤ r.stop)) ∧
    ∀ b ∈ rest, b.stop ≠ regsEnd → ∃ r ∈ trimSyncExt node rest, r.Has b := by
  induction rest generalizing node with
  | nil => exact ⟨⟨node, List.mem_singleton_self _, rfl, fun _ => Nat.le_refl _⟩, nofun⟩
  | cons next rest ih =>
    have hle := h.le_start (b := next) List.mem_cons_self
    have hnode := h.inside node List.mem_cons_self
    have hinside := h.tail.inside next List.mem_cons_self
    have hsplit : ∀ {l : List SyncExt}, trimSyncExt node (next :: rest) = node :: l →
        l = trimSyncExt next rest →
        (∃ r ∈ trimSyncExt node (next :: rest),
          r.start = node.start ∧ (node.stop ≠ regsEnd → node.stop ≤ r.stop)) ∧
        ∀ b ∈ next :: rest, b.stop ≠ regsEnd →
          ∃ r ∈ trimSyncExt node (next :: rest), r.Has b := by
      rintro l htrim rfl
      obtain ⟨⟨r, hr, hrstart, hrstop⟩, hrest⟩ := ih h.tail
      rw [htrim]
      refine ⟨⟨node, List.mem_cons_self, rfl, fun _ => Nat.le_refl _⟩, fun b hb hbstop => ?_⟩
      rcases List.mem_cons.mp hb with rfl | hb
      · exact ⟨r, List.mem_cons_of_mem _ hr, Nat.le_of_eq hrstart, hrstop hbstop⟩
      · obtain ⟨r', hr', hhas⟩ := hrest b hb hbstop
        exact ⟨r', List.mem_cons_of_mem _ hr', hhas⟩
    rcases trim_cases rest hle hinside with ⟨-, htrim⟩ | ⟨-, hmod, htrim⟩ |
      ⟨-, hmod, hmax, node', hstart', hstop', htrim⟩ | ⟨-, -, -, htrim⟩
    · exact hsplit htrim rfl
    · obtain ⟨⟨r, hr, hrstart, hrstop⟩, hrest⟩ := ih h.absorb
      rw [htrim]
      refine ⟨⟨r, hr, hrstart, hrstop⟩, fun b hb hbstop => ?_⟩
      rcases List.mem_cons.mp hb with rfl | hb
      · refine ⟨r, hr, hrstart ▸ hle, ?_⟩
        by_cases hend : node.stop = regsEnd
        · rw [hend, Nat.mod_self, Nat.mod_eq_of_lt (by omega)] at hmod
          omega
        · rw [Nat.mod_eq_of_lt (show b.stop < regsEnd by omega),
            Nat.mod_eq_of_lt (show node.stop < regsEnd by omega)] at hmod
          exact Nat.le_trans hmod (hrstop hend)
      · exact hrest b hb hbstop
    · have hbelow : next.stop ≠ regsEnd := fun hend => by
        rw [hend, Nat.mod_self] at hmod
        exact Nat.not_lt_zero _ hmod
      obtain ⟨⟨r, hr, hrstart, hrstop⟩, hrest⟩ := ih (h.join hstart' (hstop' ▸ hinside))
      rw [hstart'] at hrstart
      have hreach : next.stop ≤ r.stop := hstop' ▸ hrstop (hstop' ▸ hbelow)
      rw [htrim]
      refine ⟨⟨r, hr, hrstart, fun hend => ?_⟩, fun b hb hbstop => ?_⟩
      · rw [Nat.mod_eq_of_lt (show node.stop < regsEnd by omega),
          Nat.mod_eq_of_lt (show next.stop < regsEnd by omega)] at hmod
        omega
      · rcases List.mem_cons.mp hb with rfl | hb
        · exact ⟨r, hr, hrstart ▸ hle, hreach⟩
        · exact hrest b hb hbstop
    · exact hsplit htrim rfl

/-- A block that ends at the last register stays when the next lower end is far. -/
theorem trim_last (h : Ascending (node :: rest)) (hend : node.stop = regsEnd)
    (hfar : ∀ l ∈ rest.find? (fun l => decide (l.stop ≠ regsEnd)),
      syncExtMaxSize < l.stop - node.start) : node ∈ trimSyncExt node rest := by
  induction rest with
  | nil => exact List.mem_singleton_self _
  | cons next rest ih =>
    have hle := h.le_start (b := next) List.mem_cons_self
    have hinside := h.tail.inside next List.mem_cons_self
    rcases trim_cases rest hle hinside with ⟨-, htrim⟩ | ⟨-, hmod, htrim⟩ |
      ⟨-, hmod, hmax, node', -, -, htrim⟩ | ⟨-, -, -, htrim⟩
    · rw [htrim]
      exact List.mem_cons_self
    · rw [htrim]
      refine ih h.absorb ?_
      by_cases hnext : next.stop = regsEnd
      · rwa [List.find?_cons_of_neg (by simpa using hnext)] at hfar
      · have := hfar next (List.find?_cons_of_pos (by simpa using hnext))
        rw [hend, Nat.mod_self, Nat.mod_eq_of_lt (by omega)] at hmod
        omega
    · have hnext : next.stop ≠ regsEnd := fun hnext => by
        rw [hnext, Nat.mod_self] at hmod
        exact Nat.not_lt_zero _ hmod
      have := hfar next (List.find?_cons_of_pos (by simpa using hnext))
      omega
    · rw [htrim]
      exact List.mem_cons_self

/-- Nor is one that ends at the last register, when the ends fit. -/
theorem trim_ends (h : Ascending (node :: rest)) {e : Nat} (hnode : node.stop < e)
    (hfit : EndsFit e rest) {b : SyncExt} (hb : b ∈ rest) (hbstop : b.stop = regsEnd) :
    ∃ r ∈ trimSyncExt node rest, r.Has b := by
  induction rest generalizing node e with
  | nil => exact absurd hb List.not_mem_nil
  | cons next rest ih =>
    have hle := h.le_start (b := next) List.mem_cons_self
    have hinside := h.tail.inside next List.mem_cons_self
    unfold EndsFit at hfit
    by_cases hnext : next.stop = regsEnd
    · rw [if_pos hnext] at hfit
      obtain ⟨hbehind, hfar⟩ := hfit
      have hhas : next.Has b := by
        refine ⟨?_, Nat.le_of_eq (hbstop.trans hnext.symm)⟩
        rcases List.mem_cons.mp hb with rfl | hb
        · exact Nat.le_refl _
        · exact h.tail.le_start hb
      rcases trim_cases rest hle hinside with ⟨-, htrim⟩ | ⟨hgap, -⟩ | ⟨hgap, -⟩ |
        ⟨hgap, -⟩
      · rw [htrim]
        exact ⟨next, List.mem_cons_of_mem _ (trim_last h.tail hnext hfar), hhas⟩
      all_goals exact absurd hgap (by omega)
    · rw [if_neg hnext] at hfit
      have hb' : b ∈ rest := by
        rcases List.mem_cons.mp hb with rfl | hb
        · exact absurd hbstop hnext
        · exact hb
      have hbehind : ∀ {l : List SyncExt}, l = trimSyncExt next rest →
          ∃ r ∈ node :: l, r.Has b := by
        rintro l rfl
        obtain ⟨r, hr, hhas⟩ := ih h.tail (Nat.lt_of_lt_of_le (Nat.lt_succ_self _)
          (Nat.le_max_right _ _)) hfit hb'
        exact ⟨r, List.mem_cons_of_mem _ hr, hhas⟩
      rcases trim_cases rest hle hinside with ⟨-, htrim⟩ | ⟨-, -, htrim⟩ |
        ⟨-, -, -, node', hstart', hstop', htrim⟩ | ⟨-, -, -, htrim⟩
      · rw [htrim]
        exact hbehind rfl
      · rw [htrim]
        exact ih h.absorb (Nat.lt_of_lt_of_le hnode (Nat.le_max_left _ _)) hfit hb'
      · rw [htrim]
        exact ih (h.join hstart' (hstop' ▸ hinside)) (by omega) hfit hb'
      · rw [htrim]
        exact hbehind rfl

end Joining

/-- The joined blocks have all that were there. -/
theorem trimChain_covers {chain : List SyncExt} (h : Ascending chain) (hfit : EndsFit 0 chain)
    {b : SyncExt} (hb : b ∈ chain) : ∃ r ∈ trimChain chain, r.Has b := by
  cases chain with
  | nil => exact absurd hb List.not_mem_nil
  | cons node rest =>
    unfold EndsFit at hfit
    by_cases hbstop : b.stop = regsEnd
    · by_cases hend : node.stop = regsEnd
      · rw [if_pos hend] at hfit
        refine ⟨node, trim_last h hend hfit.2, ?_, Nat.le_of_eq (hbstop.trans hend.symm)⟩
        rcases List.mem_cons.mp hb with rfl | hb
        · exact Nat.le_refl _
        · exact h.le_start hb
      · rw [if_neg hend] at hfit
        refine trim_ends h (Nat.lt_of_lt_of_le (Nat.lt_succ_self _) (Nat.le_max_right _ _)) hfit ?_
          hbstop
        rcases List.mem_cons.mp hb with rfl | hb
        · exact absurd hbstop hend
        · exact hb
    · obtain ⟨⟨r, hr, hstart, hstop⟩, hrest⟩ := trim_inside h
      rcases List.mem_cons.mp hb with rfl | hb
      · exact ⟨r, hr, Nat.le_of_eq hstart, hstop hbstop⟩
      · exact hrest b hb hbstop

/-! ## The chain of a variable -/

/-- The block of a Modbus variable. -/
def ExtData.block (data : ExtData R) : SyncExt :=
  ⟨data.xIo.param.modbus.usExtAddr, data.xIo.param.modbus.usAddrOfs, UInt8.ofNat data.xIo.nregs, 0⟩

/-- A Modbus variable of the group of `d`. -/
def Shares (d data : ExtData R) : Prop := IsModbus data ∧ KeysAgree data d

instance decidableShares (d data : ExtData R) : Decidable (Shares d data) :=
  inferInstanceAs (Decidable (protoIsModbus data.xIo.usDevType.toNat data.xIo.usProtoType.toNat =
    true ∧ _ ∧ _ ∧ _ ∧ _ ∧ _ ∧ _))

/-- The enabled variables of the group of `d`, in their order. -/
def sharers (vars : List (ExtData R)) (d : ExtData R) : List (ExtData R) :=
  (vars.filter ExtData.bEnable).filter fun data => decide (Shares d data)

/-- The chain that the lookup of `d` comes to. -/
def chainOf (slaves : List SyncSlave) (d : ExtData R) : List SyncExt :=
  ((slaves.find? (matchesModbus d)).map SyncSlave.ext_list).getD []

/-- The numbers that a group keeps in a byte fit, of all variables. -/
def BytesFit (data : ExtData R) : Prop :=
  data.xIo.usDevType.toNat < 256 ∧ data.xIo.usProtoType.toNat < 256 ∧
    (IsModbus data → KeysFit data)

theorem nregs_lt (io : ExtDataIO R) : io.nregs < 256 := by
  have := io.btVarSize.toNat_lt
  unfold ExtDataIO.nregs
  omega

theorem block_stop (data : ExtData R) :
    data.block.stop = data.xIo.param.modbus.usExtAddr.toNat + data.xIo.nregs := by
  show _ + (UInt8.ofNat data.xIo.nregs).toNat = _
  rw [UInt8.toNat_ofNat_of_lt' (nregs_lt data.xIo)]
  rfl

/-- A group of a Modbus variable is one of Modbus. -/
theorem SameKeys.modbus {g : SyncSlave} {d : ExtData R} (h : SameKeys g d) (hd : IsModbus d) :
    protoIsModbus g.dev_type.toNat g.proto_type.toNat = true ∧
      protoIsRtuSelf g.dev_type.toNat g.dev_num.toNat = false := by
  obtain ⟨htype, -, hproto, -⟩ := h
  have hmodbus : protoIsModbus g.dev_type.toNat g.proto_type.toNat = true := by
    rw [htype, hproto]
    exact hd
  exact ⟨hmodbus, protoIsRtuSelf_of_modbus _ hmodbus⟩

theorem newSyncExt_modbus {g : SyncSlave} {data : ExtData R} (h : SameKeys g data)
    (hdata : IsModbus data) : newSyncExt g.dev_type g.dev_num g.proto_type data = data.block := by
  obtain ⟨hmodbus, hself⟩ := h.modbus hdata
  rw [newSyncExt, if_neg (by rw [hself]; simp), if_pos hmodbus]
  rfl

/-- In order, a block goes to the end. -/
theorem insertSyncExt_end {node_new : SyncExt} {chain : List SyncExt}
    (h : ∀ b ∈ chain, b.addr ≤ node_new.addr) :
    insertSyncExt node_new chain = chain ++ [node_new] := by
  have hnone : chain.findIdx? (fun node_ext => decide (node_new.addr < node_ext.addr)) = none :=
    List.findIdx?_eq_none_iff.mpr fun b hb =>
      decide_eq_false (UInt16.not_lt.mpr (h b hb))
  rw [insertSyncExt, hnone]

/-- The chain of a group that a variable of its keys is added to. -/
theorem addExt_modbus {g : SyncSlave} {data : ExtData R} (h : SameKeys g data)
    (hdata : IsModbus data) (hsorted : ∀ b ∈ g.ext_list, b.addr ≤ data.block.addr) :
    (g.addExt data).ext_list = g.ext_list ++ [data.block] := by
  obtain ⟨hmodbus, hself⟩ := h.modbus hdata
  unfold SyncSlave.addExt
  dsimp only
  rw [hmodbus, hself, newSyncExt_modbus h hdata]
  exact insertSyncExt_end hsorted

theorem find?_modify {α : Type} {p : α → Bool} {f : α → α} (hp : ∀ a, p (f a) = p a) (l : List α)
    (i : Nat) : (l.modify i f).find? p =
      if l.findIdx? p = some i then (l.find? p).map f else l.find? p := by
  induction l generalizing i with
  | nil => simp
  | cons a l ih =>
    rw [List.findIdx?_cons]
    cases i with
    | zero =>
      rw [List.modify_zero_cons, List.find?_cons, List.find?_cons, hp]
      cases p a <;> simp
    | succ i =>
      rw [List.modify_succ_cons, List.find?_cons, List.find?_cons, ih]
      cases p a <;> simp

theorem matchesModbus_addExt (d data : ExtData R) (g : SyncSlave) :
    matchesModbus d (g.addExt data) = matchesModbus d g := rfl

/-- A variable of other keys is added elsewhere. -/
theorem findSyncSlaveNode_ne {slaves : List SyncSlave} {d data : ExtData R} (hd : IsModbus d)
    (hshares : ¬ Shares d data) {i : Nat} (hi : findSyncSlaveNode slaves data = some i) :
    slaves.findIdx? (matchesModbus d) ≠ some i := by
  intro hfind
  obtain ⟨hlt, hmatch, -⟩ := List.findIdx?_eq_some_iff_getElem.mp hfind
  have hsame := (matchesModbus_iff _ _).mp hmatch
  obtain ⟨hmodbus, hself⟩ := hsame.modbus hd
  have hother : ∀ {p : SyncSlave → Bool}, slaves.findIdx? p = some i → p slaves[i] = true :=
    fun h => (List.findIdx?_eq_some_iff_getElem.mp h).2.1
  unfold findSyncSlaveNode at hi
  split_ifs at hi with hrtu hmod hdlt
  · have hdev := hother hi
    simp only [sameDevice, Bool.and_eq_true, decide_eq_true_eq] at hdev
    rw [hdev.1, hdev.2, hrtu] at hself
    cases hself
  · exact hshares ⟨hmod, keysAgree_of_sameKeys ((matchesModbus_iff _ _).mp (hother hi)) hsame⟩
  · have hdev := hother hi
    simp only [matchesDlt645, sameDevice, Bool.and_eq_true, decide_eq_true_eq] at hdev
    rw [hdev.1.2.1, hdev.2] at hmodbus
    exact hmod hmodbus

/-- Nor does it open a group with the keys of `d`. -/
theorem newSyncSlave_ne {d data : ExtData R} (hd : IsModbus d) (hbytes : BytesFit data)
    (hshares : ¬ Shares d data) : matchesModbus d (newSyncSlave data) = false := by
  refine Bool.eq_false_iff.mpr fun hmatch => hshares ?_
  have hsame := (matchesModbus_iff _ _).mp hmatch
  obtain ⟨htype, hproto, hkeys⟩ := hbytes
  have hmodbus : IsModbus data := by
    have hmod := (hsame.modbus hd).1
    have hdev : (newSyncSlave data).dev_type.toNat = data.xIo.usDevType.toNat :=
      (UInt16.toNat_toUInt8 _).trans (Nat.mod_eq_of_lt htype)
    have hprot : (newSyncSlave data).proto_type.toNat = data.xIo.usProtoType.toNat :=
      (UInt16.toNat_toUInt8 _).trans (Nat.mod_eq_of_lt hproto)
    rwa [hdev, hprot] at hmod
  exact ⟨hmodbus, keysAgree_of_sameKeys ((sameKeys_new_iff hmodbus).mpr (hkeys hmodbus)) hsame⟩

/-- A variable adds its block to the chain of its group, and to no other one. -/
theorem chainOf_add {slaves : List SyncSlave} {d data : ExtData R} (hd : IsModbus d)
    (hbytes : BytesFit data)
    (hsorted : Shares d data → ∀ b ∈ chainOf slaves d, b.addr ≤ data.block.addr) :
    chainOf (addSyncExtNode slaves data) d =
      chainOf slaves d ++ if Shares d data then [data.block] else [] := by
  unfold addSyncExtNode
  by_cases hshares : Shares d data
  · rw [if_pos hshares]
    obtain ⟨hmodbus, hagree⟩ := hshares
    have hfind : findSyncSlaveNode slaves data = slaves.findIdx? (matchesModbus d) := by
      rw [findSyncSlaveNode_modbus hmodbus, matchesModbus_congr hagree]
    rw [hfind]
    cases hi : slaves.findIdx? (matchesModbus d) with
    | some i =>
      obtain ⟨hlt, hmatch, -⟩ := List.findIdx?_eq_some_iff_getElem.mp hi
      have hg : slaves.find? (matchesModbus d) = some slaves[i] := by
        rw [List.find?_eq_bind_findIdx?_getElem?, hi]
        exact List.getElem?_eq_getElem hlt
      have hsame : SameKeys slaves[i] data := by
        rw [← matchesModbus_iff, matchesModbus_congr hagree]
        exact hmatch
      have hchain : chainOf slaves d = slaves[i].ext_list := by rw [chainOf, hg]; rfl
      have hadd := addExt_modbus hsame hmodbus (hchain ▸ hsorted ⟨hmodbus, hagree⟩)
      dsimp only
      rw [hchain, ← hadd, chainOf, find?_modify (matchesModbus_addExt d data), if_pos hi, hg]
      rfl
    | none =>
      have hnone : slaves.find? (matchesModbus d) = none := by
        rw [List.find?_eq_none]
        exact fun g hg => Bool.eq_false_iff.mp (List.findIdx?_eq_none_iff.mp hi g hg)
      have hsame := (sameKeys_new_iff hmodbus).mpr (hbytes.2.2 hmodbus)
      have hnew : matchesModbus d (newSyncSlave data) = true := by
        rw [← matchesModbus_congr hagree]
        exact (matchesModbus_iff _ _).mpr hsame
      have hblock : (newSyncSlave data).ext_list = [data.block] :=
        congrArg (fun b => [b]) (newSyncExt_modbus hsame hmodbus)
      dsimp only
      rw [chainOf, chainOf, List.find?_append, hnone, List.find?_cons_of_pos hnew]
      exact hblock
  · rw [if_neg hshares, List.append_nil]
    cases hi : findSyncSlaveNode slaves data with
    | some i =>
      dsimp only
      rw [chainOf, find?_modify (matchesModbus_addExt d data),
        if_neg (findSyncSlaveNode_ne hd hshares hi)]
      rfl
    | none =>
      have hnew := newSyncSlave_ne hd hbytes hshares
      dsimp only
      rw [chainOf, List.find?_append, List.find?_cons_of_neg (by rw [hnew]; simp), List.find?_nil,
        Option.or_none]
      rfl

/-! ## The plan -/

theorem KeysAgree.trans_symm {d e v : ExtData R} (h : KeysAgree d v) (h' : KeysAgree e v) :
    KeysAgree d e := by
  obtain ⟨htype, hnum, hproto, hop, hslave, hfa⟩ := h
  obtain ⟨htype', hnum', hproto', hop', hslave', hfa'⟩ := h'
  exact ⟨htype.trans htype'.symm, hnum.trans hnum'.symm, hproto.trans hproto'.symm,
    hop.trans hop'.symm, hslave.trans hslave'.symm, hfa.trans hfa'.symm⟩

theorem keysAgree_refl (d : ExtData R) : KeysAgree d d := ⟨rfl, rfl, rfl, rfl, rfl, rfl⟩

/-- The variables of one group come in the order of their external addresses. -/
def AddrsInOrder (vars : List (ExtData R)) : Prop :=
  vars.Pairwise fun d e => IsModbus d → IsModbus e → KeysAgree d e →
    d.xIo.param.modbus.usExtAddr ≤ e.xIo.param.modbus.usExtAddr

/-- The chain of a group has the blocks of its variables, in their order. -/
theorem chainOf_foldl {vars : List (ExtData R)} {d : ExtData R} (hd : IsModbus d)
    (hbytes : ∀ v ∈ vars, BytesFit v) (horder : AddrsInOrder vars) :
    chainOf (vars.foldl addSyncExtNode []) d =
      (vars.filter fun data => decide (Shares d data)).map ExtData.block := by
  induction vars using List.reverseRecOn with
  | nil => rfl
  | append_singleton vars data ih =>
    obtain ⟨hbefore, -, hlast⟩ := List.pairwise_append.mp horder
    have hchain := ih (fun v hv => hbytes v (List.mem_append_left _ hv)) hbefore
    rw [List.foldl_concat, chainOf_add hd (hbytes data (by simp)), hchain, List.filter_append,
      List.map_append]
    · congr 1
      by_cases hshares : Shares d data <;> simp [hshares]
    · intro hshares b hb
      rw [hchain] at hb
      obtain ⟨v, hv, rfl⟩ := List.mem_map.mp hb
      obtain ⟨hmem, hv⟩ := List.mem_filter.mp hv
      obtain ⟨hmodbus, hagree⟩ := of_decide_eq_true hv
      exact hlast v hmem data (List.mem_singleton_self _) hmodbus hshares.1
        (hagree.trans_symm hshares.2)

/-- Every range of a Modbus variable ends within the registers. -/
def InRange (vars : List (ExtData R)) : Prop :=
  ∀ data ∈ vars, data.bEnable = true → IsModbus data →
    data.xIo.param.modbus.usExtAddr.toNat + data.xIo.nregs ≤ regsEnd

/-- The keys fit, the variables of a group come in order, and so do their ends. -/
structure PlanFits (vars : List (ExtData R)) : Prop where
  bytes : ∀ data ∈ vars, data.bEnable = true → BytesFit data
  ordered : AddrsInOrder (vars.filter ExtData.bEnable)
  ends : ∀ d ∈ vars, d.bEnable = true → IsModbus d →
    EndsFit 0 ((sharers vars d).map ExtData.block)

/-- A block of a group with the keys of a variable has all its registers. -/
def AllPolled (vars : List (ExtData R)) : Prop :=
  ∀ data ∈ vars, data.bEnable = true → IsModbus data →
    ∃ g ∈ creatSyncSlaveLink vars, SameKeys g data ∧ ∃ b ∈ g.ext_list,
      b.start ≤ data.xIo.param.modbus.usExtAddr.toNat ∧
        data.xIo.param.modbus.usExtAddr.toNat + data.xIo.nregs ≤ b.stop

theorem ascending_sharers {vars : List (ExtData R)} (hrange : InRange vars)
    (horder : AddrsInOrder (vars.filter ExtData.bEnable)) (d : ExtData R) :
    Ascending ((sharers vars d).map ExtData.block) where
  sorted := by
    have hpair := horder.sublist (List.filter_sublist (p := fun data => decide (Shares d data)))
    refine List.pairwise_map.mpr (hpair.imp_of_mem fun hv hw hle => ?_)
    obtain ⟨hmodbus, hagree⟩ := of_decide_eq_true (List.mem_filter.mp hv).2
    obtain ⟨hmodbus', hagree'⟩ := of_decide_eq_true (List.mem_filter.mp hw).2
    exact UInt16.le_iff_toNat_le.mp (hle hmodbus hmodbus' (hagree.trans_symm hagree'))
  inside b hb := by
    obtain ⟨v, hv, rfl⟩ := List.mem_map.mp hb
    obtain ⟨hmem, hshares⟩ := List.mem_filter.mp hv
    obtain ⟨hmem, hen⟩ := List.mem_filter.mp hmem
    rw [block_stop]
    exact hrange v hmem hen (of_decide_eq_true hshares).1

/-- Under these conditions every variable is polled. -/
theorem polled_of_fits (vars : List (ExtData R)) (hrange : InRange vars) (hfits : PlanFits vars) :
    AllPolled vars := by
  intro d hmem hen hd
  have hbytes : ∀ v ∈ vars.filter ExtData.bEnable, BytesFit v := fun v hv =>
    hfits.bytes v (List.mem_filter.mp hv).1 (List.mem_filter.mp hv).2
  have hchain : chainOf (addSyncExtNodes vars) d = (sharers vars d).map ExtData.block :=
    chainOf_foldl hd hbytes hfits.ordered
  have hself : d ∈ sharers vars d := List.mem_filter.mpr
    ⟨List.mem_filter.mpr ⟨hmem, hen⟩, decide_eq_true ⟨hd, keysAgree_refl d⟩⟩
  have hblock : d.block ∈ chainOf (addSyncExtNodes vars) d :=
    hchain ▸ List.mem_map.mpr ⟨d, hself, rfl⟩
  cases hg : (addSyncExtNodes vars).find? (matchesModbus d) with
  | none =>
    rw [chainOf, hg] at hblock
    exact absurd hblock List.not_mem_nil
  | some g =>
    have hext : g.ext_list = (sharers vars d).map ExtData.block := by
      rw [← hchain, chainOf, hg]
      rfl
    have hsame := (matchesModbus_iff _ _).mp (List.find?_some hg)
    obtain ⟨r, hr, hstart, hstop⟩ := trimChain_covers
      (ascending_sharers hrange hfits.ordered d) (hfits.ends d hmem hen hd)
      (List.mem_map.mpr ⟨d, hself, rfl⟩)
    rw [block_stop] at hstop
    refine ⟨{ g with ext_list := trimChain g.ext_list }, ?_, hsame, r, by rwa [hext], hstart, hstop⟩
    refine List.mem_map.mpr ⟨g, List.mem_of_find?_eq_some hg, ?_⟩
    rw [if_pos (hsame.modbus hd).1]

open Cjson

/-- A variable of one register, which the slave 1 has at this address. -/
def pollDoc (usExtAddr : Int) : Item Int :=
  .object [(keyEn, number 1), (keyIo, .object [(keyVs, number 2), (keySa, number 1),
    (keyAd, number 1024), (keyMbop, number 3), (keyEa, number usExtAddr)])]

def pollVar (usExtAddr : Int) : ExtData Int := jsonParseExtDataInfo (pollDoc usExtAddr) zeroed

/-- Two variables in order are polled. -/
theorem polled_pair : AllPolled [pollVar 0, pollVar 10] := by
  have hmem : ∀ {p : ExtData Int → Prop}, p (pollVar 0) → p (pollVar 10) →
      ∀ data ∈ [pollVar 0, pollVar 10], p data := fun h h' =>
    List.forall_mem_cons.mpr ⟨h, List.forall_mem_singleton.mpr h'⟩
  have hbelow : ∀ data ∈ [pollVar 0, pollVar 10], data.block.stop < regsEnd :=
    hmem (by decide +kernel) (by decide +kernel)
  have hen : [pollVar 0, pollVar 10].filter ExtData.bEnable = [pollVar 0, pollVar 10] :=
    List.filter_eq_self.mpr (hmem (by decide +kernel) (by decide +kernel))
  refine polled_of_fits [pollVar 0, pollVar 10] (fun data hdata _ _ => ?_)
    ⟨?_, ?_, fun d _ _ _ => ?_⟩
  · rw [← block_stop]
    exact Nat.le_of_lt (hbelow data hdata)
  · have hfit : ∀ a, (a = 0 ∨ a = 10) → BytesFit (pollVar a) := by
      rintro a (rfl | rfl)
      · exact ⟨by decide +kernel, by decide +kernel, fun _ => by unfold KeysFit; decide +kernel⟩
      · exact ⟨by decide +kernel, by decide +kernel, fun _ => by unfold KeysFit; decide +kernel⟩
    exact fun data hdata _ => hmem (hfit 0 (.inl rfl)) (hfit 10 (.inr rfl)) data hdata
  · rw [hen]
    exact List.pairwise_pair.mpr fun _ _ _ => by decide +kernel
  · refine endsFit_of_below 0 fun b hb => ?_
    obtain ⟨v, hv, rfl⟩ := List.mem_map.mp hb
    exact hbelow v (List.mem_filter.mp (List.mem_filter.mp hv).1).1

/-- The lower address takes the place of the higher one. -/
theorem first_not_polled :
    ¬ ∀ vars : List (ExtData Int), InRange vars → AllPolled vars := by
  intro h
  have hrange : InRange [pollVar 10, pollVar 0] := fun data hdata _ _ => by
    rcases List.mem_cons.mp hdata with rfl | hdata
    · decide +kernel
    · rw [List.mem_singleton.mp hdata]
      decide +kernel
  obtain ⟨g, hg, -, b, hb, hstart, hstop⟩ := h [pollVar 10, pollVar 0] hrange (pollVar 10)
    List.mem_cons_self (by decide +kernel) (by unfold IsModbus; decide +kernel)
  have hnone : ∀ g ∈ creatSyncSlaveLink [pollVar 10, pollVar 0], ∀ b ∈ g.ext_list,
      ¬ ((pollVar 10).xIo.param.modbus.usExtAddr.toNat + (pollVar 10).xIo.nregs ≤ b.stop) := by
    decide +kernel
  exact hnone g hg b hb hstop

end K64Gateway.VarManage
