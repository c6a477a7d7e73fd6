import K64Gateway.Lib.Updates
import K64Gateway.Sdccp.Hjt212Report
import K64Gateway.VarManage.CfgTable

/-
  The accumulators of the uploads, `xUp.xAvgUp`, `xAvgMin` and `xAvgHour` of a variable:
  `bVarManage_UpdateAvgValue` adds a sample, the three HJ/T 212 reports start the accumulator they
  have sent again, and `setVarManageExtDataWithJson` starts all `xAvgUp` again. The resets clear
  different fields; the first sample after a reset sets the minimum and the maximum.

  A variable carries the samples since the last reset beside it; no step of the code reads them.
  Proved, over exact arithmetic: in every run each accumulator is that of its samples
  (`accumulators_exact`), until 2^32 of them wrap its counter.
-/

namespace K64Gateway.Hjt212

open LinkedHeap VarManage Cjson

/-! ## An accumulator -/

section Update

variable {R : Type} [VarReal R]

/-- The two comparisons of an update. -/
def lowerMin (varavg : VarAvg R) (value : R) : VarAvg R :=
  if VarReal.gt varavg.val_min value then { varavg with val_min := value } else varavg

def raiseMax (varavg : VarAvg R) (value : R) : VarAvg R :=
  if VarReal.gt value varavg.val_max then { varavg with val_max := value } else varavg

/-- `bVarManage_UpdateAvgValue` -/
def bVarManageUpdateAvgValue (varavg : VarAvg R) (value : R) : VarAvg R :=
  let varavg := { varavg with
    val_avg := VarReal.add varavg.val_avg value
    val_cur := value
    count := varavg.count + 1 }
  if varavg.count = 1 then
    { varavg with
      val_min := value
      val_max := value }
  else raiseMax (lowerMin varavg value) value

end Update

/-- The operations of the code on numbers are exact. -/
class ExactReal (R : Type) [AddCommMonoid R] [LinearOrder R] [VarReal R] [CNumber R] : Prop where
  add_eq : ∀ a b : R, VarReal.add a b = a + b
  gt_iff : ∀ a b : R, VarReal.gt a b = true ↔ b < a
  ofInt_zero : (VarReal.ofInt 0 : R) = 0
  number_zero : (CNumber.ofInt 0 : R) = 0

variable {R : Type} [AddCommMonoid R] [LinearOrder R] [VarReal R] [CNumber R]

/-- The accumulator is that of these samples. -/
structure Accumulates (avg : VarAvg R) (samples : List R) : Prop where
  count : avg.count.toNat = samples.length
  sum : avg.val_avg = samples.sum
  cur : ∀ x, samples.getLast? = some x → avg.val_cur = x
  min : samples ≠ [] → IsLeast {x | x ∈ samples} avg.val_min
  max : samples ≠ [] → IsGreatest {x | x ∈ samples} avg.val_max

omit [AddCommMonoid R] [LinearOrder R] [VarReal R] [CNumber R] in
theorem mem_snoc (samples : List R) (value : R) :
    {x | x ∈ samples ++ [value]} = insert value {x | x ∈ samples} := by
  ext x
  simp [or_comm]

omit [VarReal R] [CNumber R] in
/-- An accumulator without samples. -/
theorem Accumulates.reset {avg : VarAvg R} (hcount : avg.count = 0) (hsum : avg.val_avg = 0) :
    Accumulates avg [] where
  count := congrArg UInt32.toNat hcount
  sum := hsum
  cur _ h := nomatch h
  min h := absurd rfl h
  max h := absurd rfl h

section Accumulate

variable [ExactReal R]

theorem lowerMin_eq (avg : VarAvg R) (value : R) :
    lowerMin avg value = { avg with val_min := min value avg.val_min } := by
  unfold lowerMin
  by_cases h : VarReal.gt avg.val_min value = true
  · rw [if_pos h, min_eq_left ((ExactReal.gt_iff _ _).mp h).le]
  · rw [if_neg h, min_eq_right (not_lt.mp fun hlt => h ((ExactReal.gt_iff _ _).mpr hlt))]

theorem raiseMax_eq (avg : VarAvg R) (value : R) :
    raiseMax avg value = { avg with val_max := max value avg.val_max } := by
  unfold raiseMax
  by_cases h : VarReal.gt value avg.val_max = true
  · rw [if_pos h, max_eq_left ((ExactReal.gt_iff _ _).mp h).le]
  · rw [if_neg h, max_eq_right (not_lt.mp fun hlt => h ((ExactReal.gt_iff _ _).mpr hlt))]

/-- What an update makes of an accumulator. -/
theorem bVarManageUpdateAvgValue_eq (avg : VarAvg R) (value : R) :
    bVarManageUpdateAvgValue avg value =
      { avg with
        val_avg := avg.val_avg + value
        val_cur := value
        count := avg.count + 1
        val_min := if avg.count + 1 = 1 then value else min value avg.val_min
        val_max := if avg.count + 1 = 1 then value else max value avg.val_max } := by
  unfold bVarManageUpdateAvgValue
  dsimp only
  rw [ExactReal.add_eq]
  by_cases h : avg.count + 1 = 1
  · rw [if_pos h, if_pos h, if_pos h]
  · rw [if_neg h, if_neg h, if_neg h, lowerMin_eq, raiseMax_eq]

/-- A sample more, before the counter wraps. -/
theorem Accumulates.update {avg : VarAvg R} {samples : List R} (h : Accumulates avg samples)
    (value : R) (hlength : (samples ++ [value]).length < 2 ^ 32) :
    Accumulates (bVarManageUpdateAvgValue avg value) (samples ++ [value]) := by
  rw [List.length_append, List.length_singleton] at hlength
  have hcount : (avg.count + 1).toNat = samples.length + 1 := by
    rw [UInt32.toNat_add, h.count]
    exact Nat.mod_eq_of_lt hlength
  have hone : avg.count + 1 = 1 ↔ samples = [] := by
    rw [← UInt32.toNat_inj, hcount, ← List.length_eq_zero_iff]
    exact Nat.add_eq_right
  rw [bVarManageUpdateAvgValue_eq]
  refine ⟨?_, ?_, fun x hx => ?_, fun _ => ?_, fun _ => ?_⟩
  · rw [List.length_append, List.length_singleton]
    exact hcount
  · rw [List.sum_append, List.sum_singleton, ← h.sum]
  · rw [List.getLast?_concat, Option.some.injEq] at hx
    exact hx
  · rw [mem_snoc]
    by_cases hnil : samples = []
    · simp [hone.mpr hnil, hnil]
    · simp only [mt hone.mp hnil, if_false]
      exact (h.min hnil).insert value
  · rw [mem_snoc]
    by_cases hnil : samples = []
    · simp [hone.mpr hnil, hnil]
    · simp only [mt hone.mp hnil, if_false]
      exact (h.max hnil).insert value

end Accumulate

/-! ## The accumulators of the variables -/

/-- A variable, and the samples of each accumulator since its last reset. -/
structure Tracked (R : Type) where
  data : ExtData R
  samples : Kind → List R

/-- A sample is taken, by the loop of the upload task. -/
def Tracked.update (t : Tracked R) (kind : Kind) (value : R) : Tracked R where
  data := { t.data with
    xUp := kind.setAvg (bVarManageUpdateAvgValue (kind.avg t.data.xUp) value) t.data.xUp }
  samples := Function.update t.samples kind (t.samples kind ++ [value])

/-- The accumulator was sent. -/
def Tracked.report (t : Tracked R) (kind : Kind) (clock : Clock) : Tracked R where
  data := kind.reset clock t.data
  samples := Function.update t.samples kind []

/-- The document of a request is parsed into the record. -/
def Tracked.parse (t : Tracked R) (pCfg : Cjson.Item R) : Tracked R :=
  { t with data := jsonParseExtDataInfo pCfg t.data }

/-- A request has changed a record. -/
def Tracked.resetUp (t : Tracked R) (tick : UInt32) : Tracked R where
  data := VarManage.resetUp tick t.data
  samples := Function.update t.samples .real []

/-- The accumulators of the storage of the record that was changed start again. -/
def Tracked.resetStorage (t : Tracked R) (tick : UInt32) : Tracked R :=
  { t with data := VarManage.resetStorage tick t.data }

/-- The record of a row or of a request, before it is parsed. -/
def Tracked.zeroed : Tracked R := ⟨VarManage.zeroed, fun _ => []⟩

/-- What a request sets in the list: the record at `i` is parsed, and if it changes, the
    accumulators start again. -/
def setAt (ts : List (Tracked R)) (i : Nat) (pCfg : Cjson.Item R) (env : SetEnv) : List (Tracked R) :=
  let ts := ts.modify i fun t => t.parse pCfg
  if env.changed then (ts.map fun t => t.resetUp env.tick).modify i fun t => t.resetStorage env.tick
  else ts

/-- The variables in every state of a run. The list is rearranged when it is sorted, and when
    variables are deleted or given up. -/
inductive Uploading : List (Tracked R) → Prop where
  | start : Uploading []
  | load {ts : List (Tracked R)} (pCfg : Cjson.Item R) : Uploading ts →
      Uploading (ts ++ [Tracked.zeroed.parse pCfg])
  | update {ts : List (Tracked R)} (i : Nat) (kind : Kind) (value : R) : Uploading ts →
      Uploading (ts.modify i fun t => t.update kind value)
  | report {ts : List (Tracked R)} (i : Nat) (kind : Kind) (clock : Clock) : Uploading ts →
      Uploading (ts.modify i fun t => t.report kind clock)
  | set {ts : List (Tracked R)} (i : Nat) (pCfg : Cjson.Item R) (env : SetEnv) : Uploading ts →
      Uploading (setAt ts i pCfg env)
  | add {ts : List (Tracked R)} (pCfg : Cjson.Item R) (env : SetEnv) : Uploading ts →
      Uploading (setAt (ts ++ [Tracked.zeroed]) ts.length pCfg env)
  | rearrange {ts ts' : List (Tracked R)} (h : ∀ t ∈ ts', t ∈ ts) : Uploading ts → Uploading ts'

/-- Every accumulator that has not wrapped is that of its samples. -/
def Tracked.Exact (t : Tracked R) : Prop :=
  ∀ kind, (t.samples kind).length < 2 ^ 32 → Accumulates (kind.avg t.data.xUp) (t.samples kind)

omit [AddCommMonoid R] [LinearOrder R] [VarReal R] [CNumber R] in
theorem avg_setAvg (avg : VarAvg R) (xUp : ExtDataUp R) (kind k : Kind) :
    k.avg (kind.setAvg avg xUp) = if k = kind then avg else k.avg xUp := by
  cases kind <;> cases k <;> rfl

omit [AddCommMonoid R] [LinearOrder R] [VarReal R] in
/-- A document does not touch the accumulators. -/
theorem avg_parse (pCfg : Cjson.Item R) (data : ExtData R) (kind : Kind) :
    kind.avg (jsonParseExtDataInfo pCfg data).xUp = kind.avg data.xUp := by
  show kind.avg (parseSection pCfg keyUp parseUp data.xUp) = _
  unfold parseSection
  split
  · cases kind <;> rfl
  · rfl

section Steps

variable [ExactReal R]

theorem Tracked.Exact.update {t : Tracked R} (h : t.Exact) (kind : Kind) (value : R) :
    (t.update kind value).Exact := by
  intro k hlength
  show Accumulates (k.avg (kind.setAvg _ t.data.xUp)) _
  rw [avg_setAvg]
  unfold Tracked.update at hlength ⊢
  dsimp only at hlength ⊢
  by_cases hk : k = kind
  · subst hk
    rw [Function.update_self] at hlength ⊢
    rw [if_pos rfl]
    refine (h k ?_).update value hlength
    rw [List.length_append] at hlength
    omega
  · rw [Function.update_of_ne hk] at hlength ⊢
    rw [if_neg hk]
    exact h k hlength

omit [VarReal R] [CNumber R] [ExactReal R] in
/-- An accumulator starts again, the others go on. -/
theorem Tracked.Exact.resetKind {t : Tracked R} (h : t.Exact) {data : ExtData R} {kind : Kind}
    (hcount : (kind.avg data.xUp).count = 0) (hsum : (kind.avg data.xUp).val_avg = 0)
    (hother : ∀ k, k ≠ kind → k.avg data.xUp = k.avg t.data.xUp) :
    Tracked.Exact ⟨data, Function.update t.samples kind []⟩ := by
  intro k hlength
  dsimp only at hlength ⊢
  by_cases hk : k = kind
  · subst hk
    rw [Function.update_self]
    exact Accumulates.reset hcount hsum
  · rw [Function.update_of_ne hk] at hlength ⊢
    rw [hother k hk]
    exact h k hlength

theorem Tracked.Exact.report {t : Tracked R} (h : t.Exact) (kind : Kind) (clock : Clock) :
    (t.report kind clock).Exact := by
  have havg : ∀ k, k.avg (kind.reset clock t.data).xUp =
      if k = kind then
        { kind.avg t.data.xUp with
          val_avg := VarReal.ofInt 0
          val_min := VarReal.ofInt 0
          val_max := VarReal.ofInt 0
          count := 0
          time := clock.tick }
      else k.avg t.data.xUp := fun k => avg_setAvg _ _ _ _
  refine h.resetKind ?_ ?_ fun k hk => ?_
  · rw [havg, if_pos rfl]
  · rw [havg, if_pos rfl]
    exact ExactReal.ofInt_zero
  · rw [havg, if_neg hk]

omit [VarReal R] [ExactReal R] in
theorem Tracked.Exact.parse {t : Tracked R} (h : t.Exact) (pCfg : Cjson.Item R) :
    (t.parse pCfg).Exact := by
  intro kind hlength
  show Accumulates (kind.avg (jsonParseExtDataInfo pCfg t.data).xUp) _
  rw [avg_parse]
  exact h kind hlength

theorem Tracked.Exact.resetUp {t : Tracked R} (h : t.Exact) (tick : UInt32) :
    (t.resetUp tick).Exact := by
  refine h.resetKind rfl ExactReal.number_zero fun k hk => ?_
  cases k with
  | real => exact absurd rfl hk
  | minutes => rfl
  | hour => rfl

omit [VarReal R] [ExactReal R] in
theorem Tracked.Exact.resetStorage {t : Tracked R} (h : t.Exact) (tick : UInt32) :
    (t.resetStorage tick).Exact := h

theorem Tracked.exact_zeroed : (Tracked.zeroed : Tracked R).Exact := by
  intro kind _
  cases kind <;> exact Accumulates.reset rfl ExactReal.number_zero

omit [VarReal R] [CNumber R] [ExactReal R] in
/-- A step on one variable. -/
theorem exact_modify {ts : List (Tracked R)} (h : ∀ t ∈ ts, t.Exact) (i : Nat)
    {f : Tracked R → Tracked R} (hf : ∀ t : Tracked R, t.Exact → (f t).Exact) :
    ∀ t ∈ ts.modify i f, t.Exact := by
  intro t ht
  obtain ⟨j, hj⟩ := List.getElem?_of_mem ht
  rw [List.getElem?_modify] at hj
  obtain ⟨t', ht', rfl⟩ := Option.map_eq_some_iff.mp hj
  have hmem := h t' (List.mem_of_getElem? ht')
  split
  · exact hf t' hmem
  · exact hmem

theorem exact_setAt {ts : List (Tracked R)} (h : ∀ t ∈ ts, t.Exact) (i : Nat) (pCfg : Cjson.Item R)
    (env : SetEnv) : ∀ t ∈ setAt ts i pCfg env, t.Exact := by
  have hparse := exact_modify h i fun t ht => ht.parse pCfg
  unfold setAt
  dsimp only
  split
  · refine exact_modify (fun t ht => ?_) i fun t ht => ht.resetStorage env.tick
    obtain ⟨t', ht', rfl⟩ := List.mem_map.mp ht
    exact (hparse t' ht').resetUp env.tick
  · exact hparse

/-- In every state of every run each accumulator is that of its samples since the last reset. -/
theorem accumulators_exact {ts : List (Tracked R)} (hrun : Uploading ts) :
    ∀ t ∈ ts, t.Exact := by
  have hadd : ∀ {ts : List (Tracked R)} {t : Tracked R}, (∀ t ∈ ts, t.Exact) → t.Exact →
      ∀ t' ∈ ts ++ [t], t'.Exact := by
    intro ts t hts ht t' ht'
    rcases List.mem_append.mp ht' with hmem | hmem
    · exact hts t' hmem
    · exact List.mem_singleton.mp hmem ▸ ht
  induction hrun with
  | start => exact fun t ht => absurd ht List.not_mem_nil
  | load pCfg _ ih => exact hadd ih (Tracked.exact_zeroed.parse pCfg)
  | update i kind value _ ih => exact exact_modify ih i fun t ht => ht.update kind value
  | report i kind clock _ ih => exact exact_modify ih i fun t ht => ht.report kind clock
  | set i pCfg env _ ih => exact exact_setAt ih i pCfg env
  | add pCfg env _ ih => exact exact_setAt (hadd ih Tracked.exact_zeroed) _ pCfg env
  | rearrange h _ ih => exact fun t ht => ih t (h t ht)

end Steps

/-! ## The code takes these steps -/

section Report

variable [NumberText R]

omit [AddCommMonoid R] [LinearOrder R] [CNumber R] in
/-- The loop of a report changes the list by resets of accumulators. -/
theorem reportLoop_resets {cfg : Hjt212Cfg} {index : UInt8} {clock : Clock} {kind : Kind}
    {fuel : Nat} {node : Option Nat} {b b' : Batch R}
    (h : reportLoop cfg index clock kind fuel node b = some b') :
    ∃ sent : List Nat,
      b'.vars = sent.foldl (fun vars i => vars.modify i (kind.reset clock)) b.vars := by
  induction fuel generalizing node b with
  | zero => exact nomatch h
  | succ fuel ih =>
    unfold reportLoop at h
    split at h
    · exact Option.some.inj h ▸ ⟨[], rfl⟩
    · next i _ =>
      simp only [Option.bind_eq_bind, Option.bind_eq_some_iff] at h
      obtain ⟨v, -, h⟩ := h
      split at h
      · split at h
        · simp only [Option.bind_eq_some_iff] at h
          obtain ⟨mynid, -, h⟩ := h
          split at h
          · simp only [Option.bind_eq_some_iff] at h
            obtain ⟨buf, -, h⟩ := h
            split at h
            · obtain ⟨sent, hsent⟩ := ih h
              exact ⟨i :: sent, hsent⟩
            · exact Option.some.inj h ▸ ⟨[], rfl⟩
          · obtain ⟨sent, hsent⟩ := ih h
            exact ⟨sent, hsent⟩
        · exact Option.some.inj h ▸ ⟨[], rfl⟩
      · obtain ⟨sent, hsent⟩ := ih h
        exact ⟨sent, hsent⟩

omit [AddCommMonoid R] [LinearOrder R] in
/-- A report is a sequence of reset steps. -/
theorem uploading_reportData {ts : List (Tracked R)} (hrun : Uploading ts) {cfg : Hjt212Cfg}
    {index : UInt8} {clock : Clock} {kind : Kind} {ppnode : Option Nat} {r : Report R}
    (h : reportData cfg index clock kind (ts.map Tracked.data) ppnode = some r) :
    ∃ ts', Uploading ts' ∧ ts'.map Tracked.data = r.vars := by
  simp only [reportData, Option.bind_eq_bind, Option.bind_eq_some_iff, Option.some.injEq] at h
  obtain ⟨b, hloop, rfl⟩ := h
  obtain ⟨sent, hsent⟩ := reportLoop_resets hloop
  dsimp only at hsent ⊢
  rw [hsent]
  clear hsent hloop
  induction sent generalizing ts with
  | nil => exact ⟨ts, hrun, rfl⟩
  | cons i sent ih =>
    obtain ⟨ts', hrun', hdata⟩ := ih (hrun.report i kind clock)
    refine ⟨ts', hrun', hdata.trans (congrArg (sent.foldl _) ?_)⟩
    exact Updates.map_modify (f := fun t : Tracked R => t.report kind clock) (g := Tracked.data)
      (fun _ => rfl) ts i

end Report

section Set

omit [AddCommMonoid R] [LinearOrder R] [VarReal R]

/-- What a request sets, on the records. -/
theorem data_setAt (A B : List (Tracked R)) (t : Tracked R) (pCfg : Cjson.Item R) (env : SetEnv) :
    (setAt (A ++ t :: B) A.length pCfg env).map Tracked.data =
      (A.map Tracked.data).map env.upReset ++
        env.storageReset (env.upReset (jsonParseExtDataInfo pCfg t.data)) ::
          (B.map Tracked.data).map env.upReset := by
  unfold setAt SetEnv.upReset SetEnv.storageReset
  dsimp only
  rw [Updates.modify_append_cons]
  split
  · have hlength : A.length = (A.map fun t => t.resetUp env.tick).length := by simp
    rw [List.map_append, List.map_cons, hlength, Updates.modify_append_cons]
    simp [Tracked.resetUp, Tracked.resetStorage, Tracked.parse, Function.comp_def]
  · simp [Tracked.parse]

/-- The node at `p` of a list is configured: one request step on the records of the list. -/
theorem configureNode_setAt {st : Storage R} {s s' : ExtDataList R} {ts : List (Tracked R)}
    {L : List Ptr} (hlinked : Linked s L (ts.map Tracked.data)) {i : Nat} {p : Ptr}
    (hp : L[i]? = some p) {fuel : Nat} {pCfg : Cjson.Item R} {env : SetEnv} {add : Bool}
    {table table' : List (Row R)}
    (hr : configureNode st fuel s table add pCfg env (some p) = some (s', table')) :
    payloads s'.heap L = (setAt ts i pCfg env).map Tracked.data := by
  obtain ⟨A, B, rfl, rfl⟩ := exists_append_of_getElem? hp
  obtain ⟨⟨last, hseg⟩, -, hdata⟩ := hlinked
  obtain ⟨c, hc⟩ := hseg.allocated (List.mem_append_right A List.mem_cons_self)
  obtain ⟨m, q, hsegA, -⟩ := (seg_append _ A _ _ _ _ _).mp hseg
  have hlength := hsegA.length_payloads
  rw [payloads_append, payloads_cons hc] at hdata
  obtain ⟨tA, tB, rfl, hA, hB⟩ := List.map_eq_append_iff.mp hdata.symm
  obtain ⟨t, tB, rfl, ht, hB⟩ := List.map_eq_cons_iff.mp hB
  simp only [configureNode, Option.bind_eq_bind, Option.bind_eq_some_iff] at hr
  obtain ⟨_, -, s1, hparse, c1, -, hr⟩ := hr
  have hs' : s' = s1 := by
    split at hr
    · split at hr <;> exact (Prod.mk.inj (Option.some.inj hr)).1.symm
    · exact (Prod.mk.inj (Option.some.inj hr)).1.symm
  rw [hs', (parseNode_payloads ⟨last, hseg⟩ hc hparse).2, ← hA, ← hB, ← ht]
  have hi : A.length = tA.length := by rw [← hlength, ← hA, List.length_map]
  rw [hi, data_setAt]

/-- A request to set a variable: the records of the list, with those of a new node, change by one
    step. -/
theorem uploading_setVarManage {st : Storage R} {m m' : Manager R} {ts : List (Tracked R)}
    {L : List Ptr} (hlinked : Linked m.list L (ts.map Tracked.data)) {pCfg : Cjson.Item R}
    {env : SetEnv} (hfresh : ∀ p, env.node = some p → m.list.heap p = none) {fuel : Nat}
    (hs : setVarManageExtDataWithJson st fuel m pCfg env = some m') :
    ∃ L' ts', payloads m'.list.heap L' = ts'.map Tracked.data ∧
      (ts' = ts ∨ (∃ i, ts' = setAt ts i pCfg env) ∨
        ts' = setAt (ts ++ [Tracked.zeroed]) ts.length pCfg env) := by
  unfold setVarManageExtDataWithJson at hs
  dsimp only at hs
  split at hs
  · simp only [Option.bind_eq_bind, Option.bind_eq_some_iff, Option.some.injEq] at hs
    obtain ⟨⟨s1, data⟩, hnode, ⟨s2, table⟩, hconf, list, hsort, regsFlag, -, rfl⟩ := hs
    have hsame := sortExtdataLink_sameData hsort
    dsimp only at hconf ⊢
    by_cases hadd : m.list.n < (getInt pCfg keyN (-1) + 1).toInt
    · rw [requestNode, decide_eq_true hadd, if_pos rfl] at hnode
      cases hnew : env.node with
      | none =>
        rw [hnew] at hnode
        obtain ⟨rfl, rfl⟩ := Prod.mk.inj (Option.some.inj hnode)
        obtain ⟨rfl, -⟩ := Prod.mk.inj (Option.some.inj hconf)
        exact ⟨L, ts, (hsame.payloads L).trans hlinked.2.2, .inl rfl⟩
      | some p =>
        rw [hnew] at hnode
        simp only [Option.bind_eq_bind, Option.bind_eq_some_iff, Option.some.injEq,
          Prod.mk.injEq] at hnode
        obtain ⟨s0, hinsert, rfl, rfl⟩ := hnode
        have hlinked' := linked_insertNode hlinked (hfresh p hnew) hinsert
        have hzero : ts.map Tracked.data ++ [zeroed] =
            (ts ++ [(Tracked.zeroed : Tracked R)]).map Tracked.data := by simp [Tracked.zeroed]
        rw [hzero] at hlinked'
        obtain ⟨⟨last, hseg⟩, -, hpay⟩ := hlinked
        have hlength := hseg.length_payloads
        rw [hpay, List.length_map] at hlength
        refine ⟨L ++ [p], _, (hsame.payloads _).trans (configureNode_setAt hlinked' ?_ hconf),
          .inr (.inr rfl)⟩
        rw [hlength]
        simp
    · rw [requestNode, decide_eq_false hadd] at hnode
      simp only [Bool.false_eq_true, if_false, Option.bind_eq_bind, Option.bind_eq_some_iff,
        Option.some.injEq, Prod.mk.injEq] at hnode
      obtain ⟨data', hnth, rfl, rfl⟩ := hnode
      obtain ⟨last, hseg⟩ := hlinked.1
      have hdata := nthNode_eq hseg hnth
      cases data' with
      | none =>
        obtain ⟨rfl, -⟩ := Prod.mk.inj (Option.some.inj hconf)
        exact ⟨L, ts, (hsame.payloads L).trans hlinked.2.2, .inl rfl⟩
      | some p =>
        exact ⟨L, _, (hsame.payloads L).trans (configureNode_setAt hlinked hdata.symm hconf),
          .inr (.inl ⟨_, rfl⟩)⟩
  · obtain rfl := Option.some.inj hs
    exact ⟨L, ts, hlinked.2.2, .inl rfl⟩

end Set

/-! ## Two samples -/

instance : ExactReal Int where
  add_eq _ _ := rfl
  gt_iff _ _ := decide_eq_true_iff
  ofInt_zero := rfl
  number_zero := rfl

/-- A new variable with the samples 3 and 5 of a minute. -/
def twoSamples : List (Tracked Int) :=
  ((([] ++ [Tracked.zeroed.parse (.object [])]).modify 0 fun t => t.update .minutes 3).modify 0
    fun t => t.update .minutes 5)

theorem twoSamples_exact :
    ∃ t ∈ twoSamples, Accumulates (Kind.minutes.avg t.data.xUp) [3, 5] := by
  have hrun : Uploading twoSamples :=
    ((Uploading.start.load (.object [])).update 0 .minutes 3).update 0 .minutes 5
  exact ⟨_, List.mem_cons_self, accumulators_exact hrun _ List.mem_cons_self .minutes (by decide)⟩

end K64Gateway.Hjt212
