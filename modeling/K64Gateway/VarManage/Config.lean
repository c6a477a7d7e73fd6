import K64Gateway.VarManage.ExtDataLink
import K64Gateway.VarManage.Json

/-
  The configuration of the gateway's variables: the start-up load, the requests that set and
  delete a variable, and `varmanage_free_all`. They work on the list `s_xExtDataList`, on the
  flags `g_xExtDataRegsFlag` of the mapped registers and on the table `cfg_varext` of the
  storage.

  Proved: in which runs the flags tell of every register whether an enabled variable covers it,
  and when `bVarManage_CheckContAddr` accepts exactly the covered ranges (`regsFlag_exact`).
-/

namespace K64Gateway.VarManage

open LinkedHeap CString Cjson

variable {R : Type} [CNumber R]

/-! ## The flags of the registers -/

/-- The registers of `node` are flagged. -/
def flagNode (flags : Nat → Bool) (node : ExtData R) : Nat → Bool :=
  if node.bEnable then
    (List.range node.xIo.nregs).foldl (fun flags i =>
      let addr := node.xIo.usAddr.toNat + i
      if extDataRegCheck addr then Function.update flags (addr - userRegExtDataStart) true
      else flags) flags
  else flags

/-- The loop of `__RefreshRegsFlag` over the nodes. -/
def flagNodes (h : Heap (ExtData R)) : Nat → Option Ptr → (Nat → Bool) → Option (Nat → Bool)
  | 0, _, _ => none
  | _ + 1, none, flags => some flags
  | fuel + 1, some node, flags => do
      let c ← h node
      flagNodes h fuel c.next (flagNode flags c.data)

/-- `__RefreshRegsFlag` -/
def refreshRegsFlag (fuel : Nat) (s : ExtDataList R) : Option (Nat → Bool) :=
  flagNodes s.heap fuel s.pList (fun _ => false)

/-- The loop of `bVarManage_CheckContAddr`, with a 16-bit address. -/
def checkContAddr (flags : Nat → Bool) : Nat → UInt16 → Bool
  | 0, _ => true
  | usNRegs + 1, usAddr =>
      if !extDataRegCheck usAddr.toNat || !flags (usAddr.toNat - userRegExtDataStart) then false
      else checkContAddr flags usNRegs (usAddr + 1)

/-! ## The table of the storage -/

/-- A row of `cfg_varext`; the text in `cfg` is the tree that it was printed from. -/
structure Row (R : Type) where
  name : CStr
  cfg : Item R

/-- What the storage takes from SQLite, `cJSON` and the C library. -/
structure Storage (R : Type) where
  /-- whether `WHERE name='%s'`, filled in with a name, selects a row of this name -/
  selects : CStr → CStr → Bool
  /-- a name without a quote is an SQL literal of itself; longer ones do not fit into the
      buffer of the statement -/
  selects_plain : ∀ name row, 39 ∉ name → name.length ≤ 91 →
    selects name row = decide (row = name)
  /-- what `cJSON_Parse` makes of the text that `cJSON_PrintUnformatted` makes of a tree -/
  text : Item R → Item R
  snprintf : Snprintf

variable (st : Storage R)

def Storage.row (data : ExtData R) : Row R where
  name := data.nameStr
  cfg := st.text (jsonFillExtDataInfo st.snprintf data)

omit [CNumber R] in
/-- `storage_cfg_varext_del` -/
def storageCfgVarextDel (name : CStr) (table : List (Row R)) : List (Row R) :=
  table.filter fun r => !st.selects name r.name

/-- `storage_cfg_varext_update` -/
def storageCfgVarextUpdate (name : CStr) (data : ExtData R) (table : List (Row R)) :
    List (Row R) :=
  table.map fun r => if st.selects name r.name then st.row data else r

/-- `storage_cfg_varext_add`: the rows of the name are deleted first, a new row has the largest
    id. -/
def storageCfgVarextAdd (data : ExtData R) (table : List (Row R)) : List (Row R) :=
  storageCfgVarextDel st data.nameStr table ++ [st.row data]

/-- The variable that `storage_cfg_varext_loadlist` makes of a row. -/
def Row.load (r : Row R) : ExtData R := jsonParseExtDataInfo r.cfg zeroed

/-- The rows are loaded in the order of their ids, each into a new node. -/
inductive Loadlist : ExtDataList R → List (Row R) → ExtDataList R → Prop where
  | nil {s : ExtDataList R} : Loadlist s [] s
  | row {s s' s'' : ExtDataList R} {r : Row R} {rows : List (Row R)} :
      Step s (.insertNode r.load) s' → Loadlist s' rows s'' → Loadlist s (r :: rows) s''

/-! ## The requests -/

structure Manager (R : Type) where
  /-- `s_xExtDataList` -/
  list : ExtDataList R
  /-- `g_xExtDataRegsFlag` -/
  regsFlag : Nat → Bool
  /-- `cfg_varext`, in the order of the ids -/
  table : List (Row R)

/-- `bVarManage_CheckContAddr` -/
def Manager.checkContAddr (m : Manager R) (usAddr usNRegs : UInt16) : Bool :=
  VarManage.checkContAddr m.regsFlag usNRegs.toNat usAddr

def keyN : CStr := chars ['n']

/-- `while (data && n--) data = data->next;` -/
def nthNode (h : Heap (ExtData R)) : Nat → Option Ptr → Option (Option Ptr)
  | 0, data => some data
  | _ + 1, none => some none
  | n + 1, some data => do
      let c ← h data
      nthNode h n c.next

/-- The record at `data` is changed. -/
def setData (h : Heap (ExtData R)) (data : Ptr) (f : ExtData R → ExtData R) :
    Option (Heap (ExtData R)) := do
  let c ← h data
  some (write h data (some (c.mapData f)))

/-- The record of every node is changed. -/
def mapNodes (f : ExtData R → ExtData R) : Nat → Heap (ExtData R) → Option Ptr →
    Option (Heap (ExtData R))
  | 0, _, _ => none
  | _ + 1, h, none => some h
  | fuel + 1, h, some node => do
      let c ← h node
      mapNodes f fuel (write h node (some (c.mapData f))) c.next

/-- The accumulator of the uploads starts again. -/
def resetUp (tick : UInt32) (node : ExtData R) : ExtData R :=
  { node with
    xUp := { node.xUp with
      xAvgUp := { node.xUp.xAvgUp with
        count := 0
        val_avg := CNumber.ofInt 0
        val_cur := CNumber.ofInt 0
        time := tick } } }

/-- The accumulators of the storage start again. -/
def resetStorage (tick : UInt32) (data : ExtData R) : ExtData R :=
  { data with
    xStorage := { data.xStorage with
      xAvgReal := { VarAvg.zero (CNumber.ofInt 0) with time := tick }
      xAvgMin := { VarAvg.zero (CNumber.ofInt 0) with time := tick }
      xAvgHour := { VarAvg.zero (CNumber.ofInt 0) with time := tick } } }

/-- What `setVarManageExtDataWithJson` gets from its environment. -/
structure SetEnv where
  /-- the node that `VAR_MANAGE_CALLOC` returns -/
  node : Option Ptr
  /-- whether `memcmp` sees a difference: a string that is duplicated again moves -/
  changed : Bool
  /-- whether `pVarManage_CopyData` got its memory -/
  copied : Bool
  /-- `rt_tick_get()` -/
  tick : UInt32

/-- The document is parsed into the record at `data`. -/
def parseNode (fuel : Nat) (s : ExtDataList R) (data : Ptr) (pCfg : Item R) (env : SetEnv) :
    Option (ExtDataList R) := do
  let h ← setData s.heap data (jsonParseExtDataInfo pCfg)
  if env.changed then do
    let h ← mapNodes (resetUp env.tick) fuel h s.pList
    let h ← setData h data (resetStorage env.tick)
    some { s with heap := h }
  else some { s with heap := h }

/-- The node that the request is about: a new one behind the last, or the `n`-th. -/
def requestNode (fuel : Nat) (s : ExtDataList R) (add : Bool) (n : Nat) (env : SetEnv) :
    Option (ExtDataList R × Option Ptr) :=
  if add then
    match env.node with
    | some p => do
        let s ← vVarManageInsertNode fuel { s with heap := callocNode s.heap p zeroed } p
        some (s, some p)
    | none => some (s, none)
  else do
    let data ← nthNode s.heap n s.pList
    some (s, data)

/-- The record at `data` is configured, in memory and in the storage. -/
def configureNode (fuel : Nat) (s : ExtDataList R) (table : List (Row R)) (add : Bool)
    (pCfg : Item R) (env : SetEnv) : Option Ptr → Option (ExtDataList R × List (Row R))
  | none => some (s, table)
  | some data => do
      let data_bak ← s.heap data
      let s ← parseNode fuel s data pCfg env
      let c ← s.heap data
      if env.copied then
        if add then some (s, storageCfgVarextAdd st c.data table)
        else some (s, storageCfgVarextUpdate st data_bak.data.nameStr c.data table)
      else some (s, table)

/-- `setVarManageExtDataWithJson`, but for the plan of the polling. -/
def setVarManageExtDataWithJson (fuel : Nat) (m : Manager R) (pCfg : Item R) (env : SetEnv) :
    Option (Manager R) :=
  let n := getInt pCfg keyN (-1)
  if 0 ≤ n then do
    let add := decide (m.list.n < (n + 1).toInt)
    let (list, data) ← requestNode fuel m.list add n.toInt.toNat env
    let (list, table) ← configureNode st fuel list m.table add pCfg env data
    let list ← sortExtdataLink fuel list
    let regsFlag ← refreshRegsFlag fuel list
    some { list := list, regsFlag := regsFlag, table := table }
  else some m

/-- The rows of the name are deleted, and then the first node of it; `ok` tells whether the SQL
    statement succeeded. -/
def deleteNode (fuel : Nat) (m : Manager R) (name : CStr) (ok : Bool) :
    Option (ExtDataList R × List (Row R)) :=
  if ok then do
    let list ← vVarManageRemoveNodeWithName fuel m.list name
    some (list, storageCfgVarextDel st name m.table)
  else some (m.list, m.table)

/-- `delVarManageExtData`, but for the plan of the polling. -/
def delVarManageExtData (fuel : Nat) (m : Manager R) (pCfg : Item R) (ok : Bool) :
    Option (Manager R) :=
  match getString pCfg keyNa with
  | some name =>
      if name.length > 0 then do
        let (list, table) ← deleteNode st fuel m name ok
        let regsFlag ← refreshRegsFlag fuel list
        some { list := list, regsFlag := regsFlag, table := table }
      else some m
  | none => some m

/-- The loop of `varmanage_free_all`. -/
def freeNodes : Nat → Heap (ExtData R) → Option Ptr → Option (Heap (ExtData R))
  | 0, _, _ => none
  | _ + 1, h, none => some h
  | fuel + 1, h, some node => do
      let c ← h node
      freeNodes fuel (write h node none) c.next

/-- `varmanage_free_all` -/
def varmanageFreeAll (fuel : Nat) (m : Manager R) : Option (Manager R) := do
  let h ← freeNodes fuel m.list.heap m.list.pList
  some { m with list := { heap := h, n := 0, pList := none } }

/-! ## Runs -/

inductive Request (R : Type) where
  | set (pCfg : Item R) (env : SetEnv)
  | del (pCfg : Item R) (ok : Bool)
  | freeAll

/-- One request that comes back. -/
def Serve (m : Manager R) : Request R → Manager R → Prop
  | .set pCfg env, m' => (∀ p, env.node = some p → m.list.heap p = none) ∧
      ∃ fuel, setVarManageExtDataWithJson st fuel m pCfg env = some m'
  | .del pCfg ok, m' => ∃ fuel, delVarManageExtData st fuel m pCfg ok = some m'
  | .freeAll, m' => ∃ fuel, varmanageFreeAll fuel m = some m'

/-- `vVarManage_ExtDataInit`, but for the plan of the polling. -/
def ExtDataInit (table : List (Row R)) (m : Manager R) : Prop :=
  m.table = table ∧ ∃ list, Loadlist emptyExtDataList table list ∧
    ∃ fuel, sortExtdataLink fuel list = some m.list ∧
      refreshRegsFlag fuel m.list = some m.regsFlag

/-- The states of all runs from a start-up whose table satisfies `start` and whose requests
    satisfy `guard`. -/
inductive Running (start : List (Row R) → Prop) (guard : Manager R → Request R → Prop) :
    Manager R → Prop where
  | init {table : List (Row R)} {m : Manager R} : start table → ExtDataInit table m →
      Running start guard m
  | serve {m m' : Manager R} {r : Request R} : Running start guard m → guard m r →
      Serve st m r m' → Running start guard m'

/-! ## What the flags say -/

/-- The next pointers lead from `p` through the cells `L` to null. -/
def Chain {α : Type} (h : Heap α) : Option Ptr → List Ptr → Prop
  | p, [] => p = none
  | p, x :: L => p = some x ∧ ∃ c, h x = some c ∧ Chain h c.next L

/-- The variables of the current list, whatever its prev pointers are. -/
def Current (s : ExtDataList R) (vars : List (ExtData R)) : Prop :=
  ∃ L, Chain s.heap s.pList L ∧ payloads s.heap L = vars

def Covered (vars : List (ExtData R)) (a : Nat) : Prop := ∃ data ∈ vars, Covers data a

/-- The flags of the mapped registers are those of `vars`. -/
def FlagsExact (flags : Nat → Bool) (vars : List (ExtData R)) : Prop :=
  ∀ a, extDataRegCheck a = true →
    (flags (a - userRegExtDataStart) = true ↔ Covered vars a)

omit [CNumber R] in
/-- One pass of the inner loop of `__RefreshRegsFlag`, and all passes below `n`. -/
theorem flagRange (flags : Nat → Bool) (usAddr n a : Nat) (ha : extDataRegCheck a = true) :
    ((List.range n).foldl (fun flags i =>
      let addr := usAddr + i
      if extDataRegCheck addr then Function.update flags (addr - userRegExtDataStart) true
      else flags) flags) (a - userRegExtDataStart) = true ↔
      flags (a - userRegExtDataStart) = true ∨ (usAddr ≤ a ∧ a < usAddr + n) := by
  induction n with
  | zero =>
    rw [List.range_zero, List.foldl_nil]
    constructor
    · exact Or.inl
    · rintro (h | h)
      · exact h
      · omega
  | succ n ih =>
    rw [List.range_succ, List.foldl_append, List.foldl_cons, List.foldl_nil]
    have hmap : ∀ b, extDataRegCheck b = true ↔ userRegExtDataStart ≤ b ∧ b ≤ userRegExtDataEnd := by
      intro b
      rw [extDataRegCheck, Bool.and_eq_true, decide_eq_true_iff, decide_eq_true_iff]
    have ha' := (hmap a).mp ha
    dsimp only
    split
    · next hcheck =>
      have hn := (hmap _).mp hcheck
      by_cases heq : a = usAddr + n
      · subst heq
        rw [Function.update_self]
        exact iff_of_true rfl (Or.inr ⟨by omega, by omega⟩)
      · have hne : a - userRegExtDataStart ≠ usAddr + n - userRegExtDataStart := by omega
        rw [Function.update_of_ne hne, ih]
        have hlt : a < usAddr + (n + 1) ↔ a < usAddr + n := by omega
        rw [hlt]
    · next hcheck =>
      -- a register outside the map is not `a`
      have hne : a ≠ usAddr + n := fun he => hcheck (he ▸ ha)
      rw [ih]
      have hlt : a < usAddr + (n + 1) ↔ a < usAddr + n := by omega
      rw [hlt]

omit [CNumber R] in
theorem flagNode_eq_true (flags : Nat → Bool) (data : ExtData R) (a : Nat)
    (ha : extDataRegCheck a = true) :
    flagNode flags data (a - userRegExtDataStart) = true ↔
      flags (a - userRegExtDataStart) = true ∨ Covers data a := by
  unfold flagNode Covers
  split
  · next hen =>
    rw [flagRange flags data.xIo.usAddr.toNat data.xIo.nregs a ha]
    exact or_congr_right (and_iff_right hen).symm
  · next hen => exact (or_iff_left (fun h => hen h.1)).symm

omit [CNumber R] in
/-- The walk comes back on a chain only, and it flags what the chain covers. -/
theorem flagNodes_spec {h : Heap (ExtData R)} {fuel : Nat} {p : Option Ptr}
    {flags r : Nat → Bool} (hr : flagNodes h fuel p flags = some r) :
    ∃ L, Chain h p L ∧ ∀ a, extDataRegCheck a = true →
      (r (a - userRegExtDataStart) = true ↔
        flags (a - userRegExtDataStart) = true ∨ Covered (payloads h L) a) := by
  induction fuel generalizing p flags with
  | zero => exact nomatch hr
  | succ fuel ih =>
    cases p with
    | none =>
      rw [flagNodes, Option.some.injEq] at hr
      subst hr
      refine ⟨[], rfl, fun a _ => ?_⟩
      exact (or_iff_left (fun ⟨_, hm, _⟩ => nomatch hm)).symm
    | some node =>
      rw [flagNodes] at hr
      cases hc : h node with
      | none =>
        rw [hc] at hr
        exact nomatch hr
      | some c =>
        rw [hc] at hr
        obtain ⟨L, hL, hspec⟩ := @ih c.next (flagNode flags c.data) hr
        refine ⟨node :: L, ⟨rfl, c, hc, hL⟩, fun a ha => ?_⟩
        have hcovered : Covered (payloads h (node :: L)) a ↔
            Covers c.data a ∨ Covered (payloads h L) a := by
          unfold Covered
          rw [payloads_cons hc]
          simp only [List.mem_cons, exists_eq_or_imp]
        rw [hspec a ha, flagNode_eq_true flags c.data a ha, hcovered, or_assoc]

omit [CNumber R] in
/-- Whatever was done to the list, the flags are right after `__RefreshRegsFlag`. -/
theorem refreshRegsFlag_exact {fuel : Nat} {s : ExtDataList R} {flags : Nat → Bool}
    (hr : refreshRegsFlag fuel s = some flags) :
    ∃ vars, Current s vars ∧ FlagsExact flags vars := by
  obtain ⟨L, hL, hspec⟩ := flagNodes_spec hr
  refine ⟨payloads s.heap L, ⟨L, hL, rfl⟩, fun a ha => ?_⟩
  rw [hspec a ha]
  exact or_iff_right (fun hfalse => nomatch hfalse)

theorem extDataRegCheck_iff (a : Nat) :
    extDataRegCheck a = true ↔ userRegExtDataStart ≤ a ∧ a ≤ userRegExtDataEnd := by
  rw [extDataRegCheck, Bool.and_eq_true, decide_eq_true_iff, decide_eq_true_iff]

/-- The 16-bit address does not wrap: the last one is not mapped. -/
theorem checkContAddr_eq_true (flags : Nat → Bool) (usNRegs : Nat) (usAddr : UInt16) :
    checkContAddr flags usNRegs usAddr = true ↔
      ∀ i < usNRegs, extDataRegCheck (usAddr.toNat + i) = true ∧
        flags (usAddr.toNat + i - userRegExtDataStart) = true := by
  induction usNRegs generalizing usAddr with
  | zero => exact iff_of_true rfl (fun i hi => absurd hi (Nat.not_lt_zero i))
  | succ n ih =>
    rw [checkContAddr, Nat.forall_lt_succ_left]
    by_cases hfirst : extDataRegCheck usAddr.toNat = true ∧
        flags (usAddr.toNat - userRegExtDataStart) = true
    · have hend : usAddr.toNat ≤ 2047 := ((extDataRegCheck_iff _).mp hfirst.1).2
      have hnext : (usAddr + 1).toNat = usAddr.toNat + 1 := by
        rw [UInt16.toNat_add]
        show (usAddr.toNat + 1) % 65536 = _
        omega
      rw [if_neg (by rw [hfirst.1, hfirst.2]; decide), ih, hnext]
      have hshift : ∀ i, usAddr.toNat + 1 + i = usAddr.toNat + (i + 1) := by omega
      simp only [hshift]
      exact (and_iff_right hfirst).symm
    · rw [if_pos (by
        rw [Bool.or_eq_true, Bool.not_eq_true', Bool.not_eq_true', ← Bool.not_eq_true,
          ← Bool.not_eq_true]
        exact not_and_or.mp hfirst)]
      exact iff_of_false (by decide) (fun h => hfirst h.1)

/-- Every register that a variable covers is mapped. -/
def InMap (vars : List (ExtData R)) : Prop := ∀ a, Covered vars a → extDataRegCheck a = true

omit [CNumber R] in
/-- The check accepts the covered ranges just if no variable leaves the map. -/
theorem checkContAddr_covered_iff {m : Manager R} {vars : List (ExtData R)}
    (hflags : FlagsExact m.regsFlag vars) :
    (∀ usAddr usNRegs : UInt16, m.checkContAddr usAddr usNRegs = true ↔
        ∀ i < usNRegs.toNat, Covered vars (usAddr.toNat + i)) ↔ InMap vars := by
  constructor
  · intro hcheck a hcov
    -- the first register of the variable that a 16-bit address reaches
    obtain ⟨data, hdata, hen, hle, hlt⟩ := hcov
    by_contra hmap
    have husAddr := data.xIo.usAddr.toNat_lt
    obtain ⟨usAddr, hcov', hmap'⟩ : ∃ usAddr : UInt16, Covered vars usAddr.toNat ∧
        ¬ extDataRegCheck usAddr.toNat = true := by
      by_cases ha : a < 65536
      · have heq : (UInt16.ofNat a).toNat = a := by
          rw [UInt16.toNat_ofNat']
          exact Nat.mod_eq_of_lt ha
        exact ⟨UInt16.ofNat a, ⟨data, hdata, hen, by rw [heq]; exact hle, by rw [heq]; exact hlt⟩,
          by rw [heq]; exact hmap⟩
      · refine ⟨65535, ⟨data, hdata, hen, ?_, ?_⟩, by decide⟩
        · show data.xIo.usAddr.toNat ≤ 65535
          omega
        · show 65535 < _
          omega
    have haccept := (hcheck usAddr 1).mpr (fun i hi => by
      have hi0 : i = 0 := Nat.lt_one_iff.mp hi
      rw [hi0]
      exact hcov')
    exact hmap' (((checkContAddr_eq_true _ _ _).mp haccept) 0 Nat.one_pos).1
  · intro hmap usAddr usNRegs
    rw [Manager.checkContAddr, checkContAddr_eq_true]
    constructor
    · intro h i hi
      exact (hflags _ (h i hi).1).mp (h i hi).2
    · intro h i hi
      have hcheck := hmap _ (h i hi)
      exact ⟨hcheck, (hflags _ hcheck).mpr (h i hi)⟩

/-! ## Every run -/

/-- `varmanage_free_all` leaves the flags as they are: they are right behind it only if nothing
    was mapped. -/
def NothingMapped (m : Manager R) : Request R → Prop
  | .freeAll => ∀ vars, Current m.list vars → ∀ a, extDataRegCheck a = true → ¬ Covered vars a
  | _ => True

def Exact (m : Manager R) : Prop := ∃ vars, Current m.list vars ∧ FlagsExact m.regsFlag vars

theorem exact_set {m m' : Manager R} (hm : Exact m) {fuel : Nat} {pCfg : Item R} {env : SetEnv}
    (hs : setVarManageExtDataWithJson st fuel m pCfg env = some m') : Exact m' := by
  unfold setVarManageExtDataWithJson at hs
  dsimp only at hs
  split at hs
  · simp only [Option.bind_eq_bind, Option.bind_eq_some_iff, Option.some.injEq] at hs
    obtain ⟨⟨_, _⟩, -, ⟨_, _⟩, -, list, -, regsFlag, hflag, rfl⟩ := hs
    exact refreshRegsFlag_exact hflag
  · rw [← Option.some.inj hs]
    exact hm

omit [CNumber R] in
theorem exact_del {m m' : Manager R} (hm : Exact m) {fuel : Nat} {pCfg : Item R} {ok : Bool}
    (hs : delVarManageExtData st fuel m pCfg ok = some m') : Exact m' := by
  unfold delVarManageExtData at hs
  split at hs
  · split at hs
    · simp only [Option.bind_eq_bind, Option.bind_eq_some_iff, Option.some.injEq] at hs
      obtain ⟨⟨_, _⟩, -, regsFlag, hflag, rfl⟩ := hs
      exact refreshRegsFlag_exact hflag
    · rw [← Option.some.inj hs]
      exact hm
  · rw [← Option.some.inj hs]
    exact hm

omit [CNumber R] in
theorem exact_freeAll {m m' : Manager R} (hm : Exact m) (hguard : NothingMapped m .freeAll)
    {fuel : Nat} (hs : varmanageFreeAll fuel m = some m') : Exact m' := by
  obtain ⟨vars, hcur, hflags⟩ := hm
  simp only [varmanageFreeAll, Option.bind_eq_bind, Option.bind_eq_some_iff,
    Option.some.injEq] at hs
  obtain ⟨h, -, rfl⟩ := hs
  refine ⟨[], ⟨[], rfl, rfl⟩, fun a ha => iff_of_false ?_ (fun ⟨_, hmem, _⟩ => nomatch hmem)⟩
  intro hflag
  exact hguard vars hcur a ha ((hflags a ha).mp hflag)

/-- In a run that frees the variables only while none of them is mapped, the flags are those of
    the current list in every state; the check of a range is right there just if no variable of
    the list leaves the map. -/
theorem regsFlag_exact (m : Manager R) (hm : Running st (fun _ => True) NothingMapped m) :
    ∃ vars, Current m.list vars ∧ FlagsExact m.regsFlag vars ∧
      ((∀ usAddr usNRegs : UInt16, m.checkContAddr usAddr usNRegs = true ↔
          ∀ i < usNRegs.toNat, Covered vars (usAddr.toNat + i)) ↔ InMap vars) := by
  have hexact : Exact m := by
    induction hm with
    | init _ hinit =>
      obtain ⟨-, list, -, fuel, -, hflag⟩ := hinit
      exact refreshRegsFlag_exact hflag
    | @serve m m' r _ hguard hserve ih =>
      cases r with
      | set pCfg env =>
        obtain ⟨-, fuel, hs⟩ := hserve
        exact exact_set st ih hs
      | del pCfg ok =>
        obtain ⟨fuel, hs⟩ := hserve
        exact exact_del st ih hs
      | freeAll =>
        obtain ⟨fuel, hs⟩ := hserve
        exact exact_freeAll ih hguard hs
  obtain ⟨vars, hcur, hflags⟩ := hexact
  exact ⟨vars, hcur, hflags, checkContAddr_covered_iff hflags⟩

/-! ## One variable that is freed -/

/-- A storage that keeps its texts. -/
def plainStorage : Storage Int where
  selects name row := decide (row = name)
  selects_plain _ _ _ _ := rfl
  text := id
  snprintf := ⟨fun _ => [], fun _ => [], fun _ => []⟩

/-- The document of an enabled variable with the register at `usAddr`. -/
def cfgDoc (name : CStr) (usAddr : Int) : Item Int :=
  .object [(keyEn, number 1), (keyNa, .string name),
    (keyIo, .object [(keyVs, number 2), (keyAd, number usAddr)])]

def rowA : Row Int := ⟨nameA, cfgDoc nameA 1024⟩

/-- A gateway that was started with one row. -/
def startedWith (r : Row R) : Manager R where
  list := { heap := callocNode (fun _ => none) 0 r.load, n := 1, pList := some 0 }
  regsFlag := flagNode (fun _ => false) r.load
  table := [r]

theorem startedWith_init (r : Row R) : ExtDataInit [r] (startedWith r) := by
  have hinsert : Step emptyExtDataList (.insertNode r.load) (startedWith r).list := by
    refine ⟨0, 1, rfl, ?_⟩
    rfl
  have hsort : sortExtdataLink 2 (startedWith r).list = some (startedWith r).list := rfl
  have hflag : refreshRegsFlag 2 (startedWith r).list = some (startedWith r).regsFlag := rfl
  exact ⟨rfl, (startedWith r).list, .row hinsert .nil, 2, hsort, hflag⟩

theorem regsFlag_exact_one :
    ∃ vars, Current (startedWith rowA).list vars ∧ FlagsExact (startedWith rowA).regsFlag vars ∧
      ((∀ usAddr usNRegs : UInt16, (startedWith rowA).checkContAddr usAddr usNRegs = true ↔
          ∀ i < usNRegs.toNat, Covered vars (usAddr.toNat + i)) ↔ InMap vars) :=
  regsFlag_exact plainStorage (startedWith rowA) (.init trivial (startedWith_init rowA))

/-- The variable is freed, its register keeps the flag. -/
theorem regsFlag_exact_freed :
    ¬ ∀ m : Manager Int, Running plainStorage (fun _ => True) (fun _ _ => True) m →
      ∃ vars, Current m.list vars ∧ FlagsExact m.regsFlag vars ∧
        ∀ usAddr usNRegs : UInt16, m.checkContAddr usAddr usNRegs = true ↔
          ∀ i < usNRegs.toNat, Covered vars (usAddr.toNat + i) := by
  intro hall
  obtain ⟨m, hfree⟩ : ∃ m, varmanageFreeAll 2 (startedWith rowA) = some m := ⟨_, rfl⟩
  have hnull : m.list.pList = none := by
    rw [← Option.some.inj hfree]
  have hflag : m.regsFlag 0 = true := by
    rw [← Option.some.inj hfree]
    decide
  have hstart : Running plainStorage (fun _ => True) (fun _ _ => True) (startedWith rowA) :=
    .init trivial (startedWith_init rowA)
  obtain ⟨vars, ⟨L, hL, rfl⟩, hflags, -⟩ :=
    hall m (hstart.serve (r := .freeAll) trivial ⟨2, hfree⟩)
  rw [hnull] at hL
  have hnil : L = [] := by
    cases L with
    | nil => rfl
    | cons x L => exact nomatch hL.1
  subst hnil
  obtain ⟨_, hmem, -⟩ := (hflags 1024 (by decide)).mp hflag
  exact nomatch hmem

end K64Gateway.VarManage
