import K64Gateway.VarManage.Polling

/-
  What a poll does to one variable of a configuration whose internal ranges are disjoint: the
  passes for other variables leave it alone, and its own pass refreshes it and no other.
-/

namespace K64Gateway.VarManage

open Stores

variable {R : Type}

/-! ## Disjoint ranges -/

/-- The variable has the register `a`. -/
def HasReg (data : ExtData R) (a : Nat) : Prop :=
  data.xIo.usAddr.toNat ≤ a ∧ a < data.xIo.usAddr.toNat + data.xIo.nregs

/-- No register belongs to two variables. -/
def DisjointRanges (vars : List (ExtData R)) : Prop :=
  vars.Pairwise fun d d' => ∀ a, HasReg d a → ¬ HasReg d' a

/-- The content of the register `a`. -/
def regAt (regs : Regs) (a : Nat) : UInt16 := regs ((a : Int) - userRegExtDataStart)

theorem hasReg_congr {d d' : ExtData R} (h : d.key = d'.key) (a : Nat) :
    HasReg d a ↔ HasReg d' a := by
  unfold HasReg
  rw [usAddr_congr h, nregs_congr h]

theorem hasReg_of_covers {data : ExtData R} {usAddress : UInt16}
    (h : coversAddr usAddress data = true) : HasReg data usAddress.toNat := by
  unfold coversAddr at h
  simp only [Bool.and_eq_true, decide_eq_true_eq] at h
  exact ⟨h.1.2, by omega⟩

theorem covers_usAddr {data : ExtData R} (hen : data.bEnable = true) (hsize : 0 < data.xIo.nregs) :
    coversAddr data.xIo.usAddr data = true := by
  unfold coversAddr
  simp only [Bool.and_eq_true, decide_eq_true_eq]
  exact ⟨⟨hen, Nat.le_refl _⟩, by omega⟩

/-- The registers of a variable in the array. -/
theorem hasReg_iff_block (data : ExtData R) (a : Nat) {β : Type} (f : Nat → β) :
    ((a : Int) - userRegExtDataStart) ∈ (block (regIndex data.xIo.usAddr) data.xIo.nregs f).map
      Prod.fst ↔ HasReg data a := by
  rw [mem_block_iff]
  unfold HasReg regIndex
  omega

/-- A register belongs to one position of the list. -/
theorem DisjointRanges.position {vars : List (ExtData R)} (h : DisjointRanges vars) {i j : Nat}
    {d d' : ExtData R} (hi : vars[i]? = some d) (hj : vars[j]? = some d') {a : Nat}
    (hd : HasReg d a) (hd' : HasReg d' a) : i = j := by
  obtain ⟨hilt, rfl⟩ := List.getElem?_eq_some_iff.mp hi
  obtain ⟨hjlt, rfl⟩ := List.getElem?_eq_some_iff.mp hj
  have hpair := List.pairwise_iff_getElem.mp h
  rcases Nat.lt_trichotomy i j with hlt | heq | hgt
  · exact absurd hd' (hpair i j hilt hjlt hlt a hd)
  · exact heq
  · exact absurd hd (hpair j i hjlt hilt hgt a hd')

/-- The node of the same settings at the same place. -/
theorem getElem?_key {vars vars' : List (ExtData R)}
    (h : vars'.map ExtData.key = vars.map ExtData.key) {j : Nat} {w : ExtData R}
    (hj : vars'[j]? = some w) : ∃ w0, vars[j]? = some w0 ∧ w0.key = w.key := by
  have hkey : (vars.map ExtData.key)[j]? = some w.key := by
    rw [← h, List.getElem?_map, hj, Option.map_some]
  rw [List.getElem?_map] at hkey
  exact Option.map_eq_some_iff.mp hkey

/-- A search that looks at settings only. -/
theorem findIdx?_key {vars vars' : List (ExtData R)} {p : ExtData R → Bool}
    (hp : ∀ {d d' : ExtData R}, d.key = d'.key → p d = p d')
    (hkey : vars'.map ExtData.key = vars.map ExtData.key) : vars'.findIdx? p = vars.findIdx? p := by
  induction vars generalizing vars' with
  | nil => rw [List.map_eq_nil_iff.mp hkey]
  | cons d vars ih =>
    obtain ⟨d', rest, rfl, hd, hrest⟩ := List.map_eq_cons_iff.mp hkey
    rw [List.findIdx?_cons, List.findIdx?_cons, hp hd, ih hrest]

theorem DisjointRanges.congr {vars vars' : List (ExtData R)} (h : DisjointRanges vars)
    (hkey : vars'.map ExtData.key = vars.map ExtData.key) : DisjointRanges vars' := by
  refine List.pairwise_iff_getElem.mpr fun i j hi hj hlt a hd hd' => ?_
  obtain ⟨d0, hi0, hk⟩ := getElem?_key hkey (List.getElem?_eq_getElem hi)
  obtain ⟨d0', hj0, hk'⟩ := getElem?_key hkey (List.getElem?_eq_getElem hj)
  have hij := h.position hi0 hj0 ((hasReg_congr hk a).mpr hd) ((hasReg_congr hk' a).mpr hd')
  omega

/-- The first node that has a register of a variable is the variable. -/
theorem DisjointRanges.findIdx_covers {vars : List (ExtData R)} (h : DisjointRanges vars) {i : Nat}
    {v : ExtData R} (hi : vars[i]? = some v) {usAddress : UInt16}
    (hcovers : coversAddr usAddress v = true) :
    vars.findIdx? (coversAddr usAddress) = some i := by
  obtain ⟨hlt, hget⟩ := List.getElem?_eq_some_iff.mp hi
  refine List.findIdx?_eq_some_iff_getElem.mpr ⟨hlt, by rw [hget]; exact hcovers, ?_⟩
  intro j hj hcov
  have hjlt : j < vars.length := by omega
  have hij := h.position hi (List.getElem?_eq_getElem hjlt) (hasReg_of_covers hcovers)
    (hasReg_of_covers hcov)
  omega

theorem DisjointRanges.findIdx_usAddr {vars : List (ExtData R)} (h : DisjointRanges vars) {i : Nat}
    {v : ExtData R} (hi : vars[i]? = some v) (hen : v.bEnable = true) (hsize : 0 < v.xIo.nregs) :
    vars.findIdx? (coversAddr v.xIo.usAddr) = some i :=
  h.findIdx_covers hi (covers_usAddr hen hsize)

/-! ## Nothing happens to the variable -/

/-- The node at `i` is the same in both states, and so are the registers of `v`. -/
structure Same (i : Nat) (v : ExtData R) (s s' : Polled R) : Prop where
  node : s'.vars[i]? = s.vars[i]?
  regs : ∀ a, HasReg v a → regAt s'.regs a = regAt s.regs a

theorem Same.refl (i : Nat) (v : ExtData R) (s : Polled R) : Same i v s s :=
  ⟨rfl, fun _ _ => rfl⟩

theorem Same.trans {i : Nat} {v : ExtData R} {s s' s'' : Polled R} (h : Same i v s s')
    (h' : Same i v s' s'') : Same i v s s'' :=
  ⟨h'.node.trans h.node, fun a ha => (h'.regs a ha).trans (h.regs a ha)⟩

def valueOf (s : Polled R) (i : Nat) : Option VarValue := s.vars[i]?.map fun node => node.xIo.xValue

/-- Value and registers of the variable are the same in both states. -/
structure Keeps (i : Nat) (v : ExtData R) (s s' : Polled R) : Prop where
  value : valueOf s' i = valueOf s i
  regs : ∀ a, HasReg v a → regAt s'.regs a = regAt s.regs a

theorem Same.keeps {i : Nat} {v : ExtData R} {s s' : Polled R} (h : Same i v s s') :
    Keeps i v s s' :=
  ⟨by unfold valueOf; rw [h.node], h.regs⟩

/-- A refresh at `usAddress` is not for `v`, and no expression that it evaluates is written into
    the registers of `v`. -/
structure Apart (vars : List (ExtData R)) (usAddress : UInt16) (v : ExtData R) : Prop where
  other : coversAddr usAddress v = false
  exp : ∀ f ∈ vars, coversAddr usAddress f = true → ∀ a, HasReg v a →
    ¬ (usAddress.toNat ≤ a ∧ a < usAddress.toNat + expRegs f)

theorem expRegs_congr {d d' : ExtData R} (h : d.key = d'.key) : expRegs d = expRegs d' :=
  congrArg (fun k : Bool × ExtDataIO R =>
    if k.2.szExp.isSome then (edianSize k.2.btVarType + 1) / 2 else 0) h

theorem Apart.congr {vars vars' : List (ExtData R)} {usAddress : UInt16} {v : ExtData R}
    (h : Apart vars usAddress v) (hkey : vars'.map ExtData.key = vars.map ExtData.key) :
    Apart vars' usAddress v := by
  refine ⟨h.other, fun f hf hcov a ha => ?_⟩
  obtain ⟨f0, hf0, hk⟩ := exists_key hkey hf
  rw [← expRegs_congr hk]
  exact h.exp f0 hf0 (by rwa [coversAddr_congr _ hk]) a ha

/-- The block that a reply on a port is for. -/
def portBlock (port btSlaveAddr : UInt8) (usAddress usNRegs : UInt16) : Option Block :=
  (portDevice port).map fun device => ⟨device.1, device.2, btSlaveAddr, usAddress, usNRegs⟩

section Passes

variable [VarReal R] (env : PollEnv R)

theorem refreshWithModbusMaster_eq (s : Polled R) (port btSlaveAddr : UInt8)
    (usAddress usNRegs : UInt16) (buf : Nat → UInt8) :
    bVarManageRefreshExtDataWithModbusMaster env s port btSlaveAddr usAddress usNRegs buf =
      match portBlock port btSlaveAddr usAddress usNRegs with
      | some b => (responseBlock env b buf s, true)
      | none => (s, false) := by
  unfold bVarManageRefreshExtDataWithModbusMaster portBlock
  cases portDevice port <;> rfl

omit [VarReal R] in
theorem same_store {s : Polled R} (i : Nat) {v : ExtData R} {ws : List (Int × UInt16)}
    (h : ∀ a, HasReg v a → ((a : Int) - userRegExtDataStart) ∉ ws.map Prod.fst) :
    Same i v s (s.store ws) :=
  ⟨rfl, fun a ha => stores_of_not_mem s.regs (h a ha)⟩

theorem same_refresh {s : Polled R} {i : Nat} {v w : ExtData R} {usAddress : UInt16}
    (hi : s.vars[i]? = some w) (hkey : w.key = v.key) (h : Apart s.vars usAddress v) :
    Same i v s (refreshExtDataWithRegs env s usAddress) := by
  rcases refreshExtDataWithRegs_cases env s usAddress with heq | ⟨j, f, hfind, hj, hrefresh⟩
  · rw [heq]
    exact Same.refl i v s
  · obtain ⟨hlt, hcov, -⟩ := List.findIdx?_eq_some_iff_getElem.mp hfind
    obtain ⟨_, hget⟩ := List.getElem?_eq_some_iff.mp hj
    rw [hget] at hcov
    have hne : j ≠ i := by
      rintro rfl
      rw [hi, Option.some.injEq] at hj
      rw [← hj, coversAddr_congr usAddress hkey, h.other] at hcov
      exact nomatch hcov
    obtain ⟨f', hvars, -⟩ := hrefresh.record
    refine ⟨?_, fun a ha => hrefresh.regs _ fun hin => ?_⟩
    · rw [hvars, List.getElem?_set_ne hne]
    · refine h.exp f (List.mem_of_getElem? hj) hcov a ha ?_
      unfold regIndex at hin
      omega

/-- The variables of a block but for the one at `i` are refreshed without touching it. -/
def Leaves (b : Block) (vars : List (ExtData R)) (i : Nat) (v : ExtData R) : Prop :=
  ∀ j w, vars[j]? = some w → j ≠ i → b.has w = true → Apart vars w.xIo.usAddr v

omit [VarReal R] in
theorem Leaves.congr {b : Block} {vars vars' : List (ExtData R)} {i : Nat} {v : ExtData R}
    (h : Leaves b vars i v) (hkey : vars'.map ExtData.key = vars.map ExtData.key) :
    Leaves b vars' i v := by
  intro j w hj hne hhas
  obtain ⟨w0, hj0, hk⟩ := getElem?_key hkey hj
  rw [← usAddr_congr hk]
  exact (h j w0 hj0 hne (by rwa [has_congr b hk])).congr hkey

/-- The pass for another variable. -/
theorem same_responseNode {b : Block} (buf : Nat → UInt8) {s : Polled R} {i j : Nat}
    {v w : ExtData R} (hdisj : DisjointRanges s.vars) (hi : s.vars[i]? = some w)
    (hkey : w.key = v.key) (h : Leaves b s.vars i v) (hne : j ≠ i) :
    Same i v s (responseNode env b buf s j) := by
  unfold responseNode
  split
  · next node hj =>
    split
    · next hhas =>
      refine Same.trans (same_store i fun a ha hmem => hne ?_)
        (same_refresh env (s := s.store _) hi hkey (h j node hj hne hhas))
      exact hdisj.position hj hi ((hasReg_iff_block node a _).mp hmem)
        ((hasReg_congr hkey a).mpr ha)
    · exact Same.refl i v s
  · exact Same.refl i v s

/-- The passes for other variables. -/
theorem same_passes {b : Block} (buf : Nat → UInt8) {s : Polled R} {i : Nat} {v w : ExtData R}
    (hdisj : DisjointRanges s.vars) (hi : s.vars[i]? = some w) (hkey : w.key = v.key)
    (h : Leaves b s.vars i v) {indices : List Nat} (hnot : i ∉ indices) :
    Same i v s (indices.foldl (responseNode env b buf) s) := by
  induction indices generalizing s with
  | nil => exact Same.refl i v s
  | cons j indices ih =>
    rw [List.mem_cons, not_or] at hnot
    have hstep := same_responseNode env buf hdisj hi hkey h (Ne.symm hnot.1)
    have hkeys := responseNode_key env b buf s j
    rw [List.foldl_cons]
    exact hstep.trans (ih (hdisj.congr hkeys) (hstep.node.trans hi) (h.congr hkeys) hnot.2)

omit [VarReal R] in
theorem range_split {n i : Nat} (h : i < n) :
    ∃ pre post, List.range n = pre ++ i :: post ∧ i ∉ pre ∧ i ∉ post := by
  obtain ⟨pre, post, hsplit⟩ := List.append_of_mem (List.mem_range.mpr h)
  have hnd : (pre ++ i :: post).Nodup := hsplit ▸ List.nodup_range
  have hpost := (List.nodup_cons.mp (List.nodup_append.mp hnd).2.1).1
  have hpre : i ∉ pre := fun hmem =>
    (List.nodup_append.mp hnd).2.2 i hmem i List.mem_cons_self rfl
  exact ⟨pre, post, hsplit, hpre, hpost⟩

/-- A reply comes down to the pass for the variable. -/
theorem responseBlock_pass {b : Block} (buf : Nat → UInt8) {s : Polled R} {i : Nat}
    {v : ExtData R} (hdisj : DisjointRanges s.vars) (hi : s.vars[i]? = some v)
    (h : Leaves b s.vars i v) :
    ∃ s', Same i v s s' ∧ s'.vars.map ExtData.key = s.vars.map ExtData.key ∧
      Same i v (responseNode env b buf s' i) (responseBlock env b buf s) := by
  obtain ⟨hlt, -⟩ := List.getElem?_eq_some_iff.mp hi
  obtain ⟨pre, post, hsplit, hpre, hpost⟩ := range_split hlt
  have hbefore := same_passes env buf hdisj hi rfl h hpre
  refine ⟨pre.foldl (responseNode env b buf) s, hbefore, foldl_key env b buf pre s, ?_⟩
  have hown := foldl_key env b buf (pre ++ [i]) s
  rw [List.foldl_append, List.foldl_cons, List.foldl_nil] at hown
  obtain ⟨w, hw, hkw⟩ := getElem?_key hown.symm hi
  unfold responseBlock
  rw [hsplit, List.foldl_append, List.foldl_cons]
  exact same_passes env buf (hdisj.congr hown) hw hkw (h.congr hown) hpost

/-- A reply that is not for the variable leaves it alone. -/
theorem same_responseBlock {b : Block} (buf : Nat → UInt8) {s : Polled R} {i : Nat}
    {v : ExtData R} (hdisj : DisjointRanges s.vars) (hi : s.vars[i]? = some v)
    (h : Leaves b s.vars i v) (hnot : b.has v = false) :
    Same i v s (responseBlock env b buf s) := by
  obtain ⟨s', hbefore, -, hafter⟩ := responseBlock_pass env buf hdisj hi h
  have hpass : responseNode env b buf s' i = s' := by
    unfold responseNode
    rw [hbefore.node, hi]
    dsimp only
    rw [if_neg (by rw [hnot]; exact Bool.false_ne_true)]
  rw [hpass] at hafter
  exact hbefore.trans hafter

/-- The pass for the variable refreshes the variable. -/
theorem responseNode_own {b : Block} (buf : Nat → UInt8) {s : Polled R} {i : Nat}
    {v : ExtData R} (hdisj : DisjointRanges s.vars) (hi : s.vars[i]? = some v)
    (hhas : b.has v = true) (hsize : 0 < v.xIo.nregs) :
    responseNode env b buf s i =
      refreshNode env
        (s.store (refreshRegs (fun k => buf (2 * (v.xIo.param.modbus.usExtAddr.toNat -
          b.usAddress.toNat) + k)) v.xIo.usAddr v.xIo.nregs)) i v.xIo.usAddr v := by
  unfold responseNode
  rw [hi]
  dsimp only
  rw [if_pos hhas]
  have hen := ((has_iff b v).mp hhas).1
  exact refreshExtDataWithRegs_eq env (hdisj.findIdx_usAddr hi hen hsize) hi

end Passes

/-! ## Two function codes on one slave -/

open CString Cjson

/-- The document of a variable with one register, register 0 of slave 1 on the first serial
    line, that the first failure clears. -/
def clearedDoc (usAddr btOpCode : Int) : Item Int :=
  .object [(keyEn, number 1), (keyIo, .object [(keyVs, number 2), (keySa, number 1),
    (keyAd, number usAddr), (keyMbop, number btOpCode), (keyEop, number 1)])]

/-- The variables of the documents. -/
def configured (docs : List (Item Int)) : List (ExtData Int) :=
  docs.map fun doc => jsonParseExtDataInfo doc zeroed

theorem disjoint_two_ops : DisjointRanges (configured [clearedDoc 1024 3, clearedDoc 1025 4]) := by
  refine List.pairwise_pair.mpr fun a ha ha' => ?_
  obtain ⟨-, hlt⟩ : 1024 ≤ a ∧ a < 1024 + 1 := ha
  obtain ⟨hle, -⟩ : 1025 ≤ a ∧ a < 1025 + 1 := ha'
  omega

end K64Gateway.VarManage
