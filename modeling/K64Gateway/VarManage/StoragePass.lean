import K64Gateway.VarManage.Json
import K64Gateway.VarManage.Registers

/-
  The storage part of `vVarManage_ExtDataRefreshTask`: a pass copies a variable, stores the
  averages of the copy that are due, and clears each of them in the list, where the polling and
  the slave writes add samples meanwhile.

  Each step below is one critical section or one call of the pass; updates may come between any
  two of them. The ledger tells where the samples are; no step of the code reads it.

  Proved: no sample is lost or counted twice in a run where the clears meet what was copied
  (`books_balance`); a sample between the copy and the clear is lost
  (`books_balance_late_sample`).
-/

namespace K64Gateway.VarManage

variable {R : Type}

/-! ## The averages of a variable -/

inductive AvgKind where
  | real
  | min
  | hour
deriving DecidableEq

/-- The average that the pass looks at next. -/
def AvgKind.next : AvgKind → Option AvgKind
  | .real => some .min
  | .min => some .hour
  | .hour => none

/-- The place in the pass. -/
def AvgKind.place : AvgKind → Nat
  | .real => 0
  | .min => 1
  | .hour => 2

def ExtData.avg (data : ExtData R) : AvgKind → VarAvg R
  | .real => data.xStorage.xAvgReal
  | .min => data.xStorage.xAvgMin
  | .hour => data.xStorage.xAvgHour

def ExtData.setAvg (data : ExtData R) (avg : VarAvg R) : AvgKind → ExtData R
  | .real => { data with xStorage := { data.xStorage with xAvgReal := avg } }
  | .min => { data with xStorage := { data.xStorage with xAvgMin := avg } }
  | .hour => { data with xStorage := { data.xStorage with xAvgHour := avg } }

def ExtData.period (data : ExtData R) : AvgKind → UInt32
  | .real => rtTickFromMillisecond (data.xStorage.ulStep * 60 * 1000)
  | .min => rtTickFromMillisecond (60 * 1000)
  | .hour => rtTickFromMillisecond (60 * 60 * 1000)

/-- The two conditions before an average is stored. -/
def ExtData.due (data : ExtData R) (tick : UInt32) (kind : AvgKind) : Bool :=
  decide (data.period kind ≤ tick - (data.avg kind).time) && decide (0 < (data.avg kind).count)

/-- What `bStorageAddData` sends to the storage. -/
structure StorageItem (R : Type) where
  type : AvgKind
  ident : CStr
  value : R
  alias_ : CStr

section Values

variable [VarReal R]

/-- `val_avg / count` -/
def VarAvg.mean (avg : VarAvg R) : R :=
  VarReal.div avg.val_avg (VarReal.ofInt avg.count.toNat)

/-- The part of `vVarManage_ClearExtDataStorageAvgReal`, `..Min` and `..Hour` for the node. -/
def VarAvg.clear (avg : VarAvg R) (tick : UInt32) : VarAvg R :=
  { avg with
    val_avg := VarReal.ofInt 0
    count := 0
    time := tick }

/-- The item of an average. -/
def storageItem (data : ExtData R) (kind : AvgKind) : StorageItem R where
  type := kind
  ident := data.nameStr.take 12
  value := (data.avg kind).mean
  alias_ := data.aliasStr.take 8

end Values

/-- `prvCheckExeDataEnable` -/
def prvCheckExeDataEnable (data : ExtData R) : Bool :=
  data.bEnable && decide (data.xIo.btVarType ≤ eVarArray) &&
    decide (1024 ≤ data.xIo.usAddr ∧ data.xIo.usAddr ≤ 2048) &&
      decide (1 ≤ data.xIo.param.modbus.btSlaveAddr ∧ data.xIo.param.modbus.btSlaveAddr ≤ 247) &&
        decide (data.xIo.usDevType.toNat ≤ protoDevGprs)

/-! ## The pass -/

/-- Where the pass is; `data` is the copy of the node at `n`. -/
inductive Pass (R : Type) where
  | idle
  /-- before the look at an average -/
  | check (n : Nat) (data : ExtData R) (kind : AvgKind)
  /-- the average was stored -/
  | clear (n : Nat) (data : ExtData R) (kind : AvgKind)

/-- Behind an average: the next one, or the end of the copy. -/
def Pass.behind (n : Nat) (data : ExtData R) (kind : AvgKind) : Pass R :=
  match kind.next with
  | some kind => .check n data kind
  | none => .idle

/-- The samples of an item, and the place of their variable. -/
structure Batch (R : Type) where
  place : Nat
  type : AvgKind
  samples : List R

/-- Where the samples are. -/
structure Ledger (R : Type) where
  /-- the samples of the variable at a place -/
  taken : Nat → List R
  /-- those that are in an accumulator of the list -/
  live : Nat → AvgKind → List R
  /-- those that are in an accumulator of the copy -/
  held : AvgKind → List R
  /-- those of each item, in the order of the items -/
  batches : List (Batch R)
  /-- the variables that took a sample after the copy -/
  since : List Nat

/-- The samples that are in the stored averages of a variable. -/
def Ledger.stored (l : Ledger R) (i : Nat) (kind : AvgKind) : List R :=
  (l.batches.filter fun b => decide (b.place = i) && decide (b.type = kind)).flatMap Batch.samples

/-- A sample is added to the accumulators. -/
def Ledger.take (l : Ledger R) (i : Nat) (value : R) : Ledger R :=
  { l with
    taken := Function.update l.taken i (l.taken i ++ [value])
    live := Function.update l.live i fun kind => l.live i kind ++ [value]
    since := i :: l.since }

structure Storing (R : Type) where
  vars : List (ExtData R)
  pass : Pass R
  /-- what reached the storage -/
  items : List (StorageItem R)
  ledger : Ledger R

inductive StorageStep where
  /-- a polling reply or a slave write gives the variable at `i` a value -/
  | update (i : Nat) (xValue : VarValue)
  /-- the copy of the node at `n`; `alloc` tells whether there is memory for it -/
  | copy (n : Nat) (bEnable alloc : Bool)
  /-- the look at an average; `sent` tells whether the item reaches the queue of the storage -/
  | check (tick : UInt32) (sent : Bool)
  | clear (tick : UInt32)

section Steps

variable [VarReal R]

/-- A value is refreshed, and `__update_value` adds it to the averages. -/
def updateStep (s : Storing R) (i : Nat) (xValue : VarValue) : Storing R :=
  match s.vars[i]? with
  | some node =>
      { s with
        vars := s.vars.set i (updateValue (node.setValue xValue))
        ledger :=
          match getExtValue node.xIo.btVarType xValue with
          | some value => s.ledger.take i value
          | none => s.ledger }
  | none => s

/-- `__GetExtDataWithIndex`, and what is asked of the copy. -/
def copyStep (s : Storing R) (n : Nat) (bEnable alloc : Bool) : Storing R :=
  match s.pass, s.vars[n]? with
  | .idle, some node =>
      if alloc && prvCheckExeDataEnable node && (bEnable && node.xStorage.bEnable) then
        { s with
          pass := .check n node .real
          ledger := { s.ledger with
            held := s.ledger.live n
            since := [] } }
      else s
  | _, _ => s

def checkStep (s : Storing R) (tick : UInt32) (sent : Bool) : Storing R :=
  match s.pass with
  | .check n data kind =>
      if data.due tick kind then
        if sent then
          { s with
            pass := .clear n data kind
            items := s.items ++ [storageItem data kind]
            ledger := { s.ledger with
              batches := s.ledger.batches ++ [⟨n, kind, s.ledger.held kind⟩] } }
        else { s with pass := .clear n data kind }
      else { s with pass := .behind n data kind }
  | _ => s

/-- The first node with the name of the copy is cleared. -/
def clearStep (s : Storing R) (tick : UInt32) : Storing R :=
  match s.pass with
  | .clear n data kind =>
      match s.vars.findIdx? (fun node => decide (node.nameStr = data.nameStr)) with
      | some i =>
          match s.vars[i]? with
          | some node =>
              { s with
                vars := s.vars.set i (node.setAvg ((node.avg kind).clear tick) kind)
                pass := .behind n data kind
                ledger := { s.ledger with
                  live := Function.update s.ledger.live i
                    (Function.update (s.ledger.live i) kind []) } }
          | none => { s with pass := .behind n data kind }
      | none => { s with pass := .behind n data kind }
  | _ => s

def storageStep (s : Storing R) : StorageStep → Storing R
  | .update i xValue => updateStep s i xValue
  | .copy n bEnable alloc => copyStep s n bEnable alloc
  | .check tick sent => checkStep s tick sent
  | .clear tick => clearStep s tick

def storageRun (s : Storing R) (steps : List StorageStep) : Storing R :=
  steps.foldl storageStep s

end Steps

/-! ## Balance -/

theorem live_take (l : Ledger R) (i j : Nat) (value : R) (k : AvgKind) :
    (l.take i value).live j k = l.live j k ++ if i = j then [value] else [] := by
  unfold Ledger.take
  dsimp only
  by_cases hij : i = j
  · rw [if_pos hij, hij, Function.update_self]
  · rw [if_neg hij, Function.update_of_ne (Ne.symm hij), List.append_nil]

theorem taken_take (l : Ledger R) (i j : Nat) (value : R) :
    (l.take i value).taken j = l.taken j ++ if i = j then [value] else [] := by
  unfold Ledger.take
  dsimp only
  by_cases hij : i = j
  · rw [if_pos hij, hij, Function.update_self]
  · rw [if_neg hij, Function.update_of_ne (Ne.symm hij), List.append_nil]

section Balance

variable [VarReal R]

/-- The average is one of these samples. -/
structure Holds (avg : VarAvg R) (samples : List R) : Prop where
  sum : avg.val_avg = samples.foldl VarReal.add (VarReal.ofInt 0)
  count : avg.count = UInt32.ofNat samples.length

/-- The mean of samples, as the code computes it. -/
def meanOf (samples : List R) : R :=
  VarReal.div (samples.foldl VarReal.add (VarReal.ofInt 0))
    (VarReal.ofInt (UInt32.ofNat samples.length).toNat)

/-- The copy that the pass has. -/
def Pass.data : Pass R → Option (ExtData R)
  | .idle => none
  | .check _ data _ => some data
  | .clear _ data _ => some data

/-- The accumulators and the items are those of the ledger. -/
structure Accounted (s : Storing R) : Prop where
  vars : ∀ i node, s.vars[i]? = some node → ∀ kind, Holds (node.avg kind) (s.ledger.live i kind)
  copy : ∀ data, s.pass.data = some data → ∀ kind, Holds (data.avg kind) (s.ledger.held kind)
  items : s.items.map (fun item => (item.type, item.value)) =
    s.ledger.batches.map fun b => (b.type, meanOf b.samples)

/-- Every sample is in one stored average or in the accumulator. -/
def Balanced (l : Ledger R) (i : Nat) (kind : AvgKind) : Prop :=
  l.stored i kind ++ l.live i kind = l.taken i

/-- The copy has the samples of the list, but for the averages that the pass has left behind and
    if no sample has come. -/
def UpToDate (l : Ledger R) (n : Nat) (kind : AvgKind) : Prop :=
  n ∉ l.since → ∀ k : AvgKind, kind.place ≤ k.place → l.held k = l.live n k

/-- The step finds the list as the pass copied it: the store of a due average succeeds; the first
    node of the name is the one that was copied, and it took no sample since. -/
def Meets (s : Storing R) : StorageStep → Prop
  | .check tick sent => ∀ n data kind, s.pass = .check n data kind → data.due tick kind = true →
      sent = true
  | .clear _ => ∀ n data kind, s.pass = .clear n data kind →
      s.vars.findIdx? (fun node => decide (node.nameStr = data.nameStr)) = some n ∧
        n ∉ s.ledger.since
  | _ => True

/-- All steps of a run do. -/
def MeetsAll (s : Storing R) : List StorageStep → Prop
  | [] => True
  | step :: steps => Meets s step ∧ MeetsAll (storageStep s step) steps

/-- No average is stored and not yet cleared. -/
def Pass.Settled : Pass R → Prop
  | .clear _ _ _ => False
  | _ => True

/-! ## The accumulators -/

theorem Holds.update {avg : VarAvg R} {samples : List R} (h : Holds avg samples) (value : R) :
    Holds (avg.update value) (samples ++ [value]) := by
  refine ⟨?_, ?_⟩
  · rw [List.foldl_append, ← h.sum]
    rfl
  · show avg.count + 1 = _
    rw [h.count, List.length_append, List.length_singleton, UInt32.ofNat_add]
    rfl

theorem Holds.clear (avg : VarAvg R) (tick : UInt32) : Holds (avg.clear tick) [] := ⟨rfl, rfl⟩

theorem Holds.mean {avg : VarAvg R} {samples : List R} (h : Holds avg samples) :
    avg.mean = meanOf samples := by
  unfold VarAvg.mean meanOf
  rw [h.sum, h.count]

/-- A value that has a number is added to the three averages. -/
theorem avg_updateValue (node : ExtData R) (xValue : VarValue) (kind : AvgKind) :
    (updateValue (node.setValue xValue)).avg kind =
      match getExtValue node.xIo.btVarType xValue with
      | some value => (node.avg kind).update value
      | none => node.avg kind := by
  have htype : getExtValue (node.setValue xValue).xIo.btVarType (node.setValue xValue).xIo.xValue =
      (getExtValue node.xIo.btVarType xValue : Option R) := rfl
  unfold updateValue
  rw [htype]
  cases (getExtValue node.xIo.btVarType xValue : Option R) with
  | none => cases kind <;> rfl
  | some value => cases kind <;> rfl

omit [VarReal R] in
theorem avg_setAvg (node : ExtData R) (avg : VarAvg R) (kind k : AvgKind) :
    (node.setAvg avg kind).avg k = if k = kind then avg else node.avg k := by
  cases kind <;> cases k <;> rfl

theorem Accounted.update {s : Storing R} (h : Accounted s) (i : Nat) (xValue : VarValue) :
    Accounted (updateStep s i xValue) := by
  unfold updateStep
  split
  · next node hi =>
    obtain ⟨hlt, -⟩ := List.getElem?_eq_some_iff.mp hi
    refine ⟨fun j node' hj kind => ?_, fun data hdata kind => ?_, ?_⟩
    · by_cases hij : i = j
      · subst hij
        dsimp only at hj ⊢
        rw [List.getElem?_set_self hlt, Option.some.injEq] at hj
        rw [← hj, avg_updateValue]
        have hold := h.vars i node hi kind
        cases (getExtValue node.xIo.btVarType xValue : Option R) with
        | none => exact hold
        | some value =>
          dsimp only
          rw [live_take, if_pos rfl]
          exact hold.update value
      · dsimp only at hj ⊢
        rw [List.getElem?_set_ne hij] at hj
        have hold := h.vars j node' hj kind
        cases (getExtValue node.xIo.btVarType xValue : Option R) with
        | none => exact hold
        | some value =>
          dsimp only
          rw [live_take, if_neg hij, List.append_nil]
          exact hold
    · have hold := h.copy data hdata kind
      dsimp only
      split <;> exact hold
    · have hitems := h.items
      dsimp only
      split <;> exact hitems
  · exact h

theorem Accounted.copyStep {s : Storing R} (h : Accounted s) (n : Nat) (bEnable alloc : Bool) :
    Accounted (copyStep s n bEnable alloc) := by
  unfold VarManage.copyStep
  split
  · next node _ hn =>
    split
    · refine ⟨h.vars, fun data hdata kind => ?_, h.items⟩
      obtain rfl : node = data := Option.some.inj hdata
      exact h.vars n node hn kind
    · exact h
  · exact h

omit [VarReal R] in
theorem data_behind {n : Nat} {data data' : ExtData R} {kind : AvgKind}
    (h : (Pass.behind n data kind).data = some data') : data = data' := by
  cases kind with
  | real => exact Option.some.inj h
  | min => exact Option.some.inj h
  | hour => exact nomatch h

theorem Accounted.checkStep {s : Storing R} (h : Accounted s) (tick : UInt32) (sent : Bool) :
    Accounted (checkStep s tick sent) := by
  unfold VarManage.checkStep
  split
  · next n data kind hpass =>
    have hcopy := h.copy data (by rw [hpass]; rfl)
    split
    · split
      · refine ⟨h.vars, fun data' hdata' k => ?_, ?_⟩
        · obtain rfl : data = data' := Option.some.inj hdata'
          exact hcopy k
        · dsimp only
          rw [List.map_append, List.map_append, h.items, List.map_singleton, List.map_singleton]
          have hmean : (storageItem data kind).value = meanOf (s.ledger.held kind) :=
            (hcopy kind).mean
          rw [hmean]
          rfl
      · refine ⟨h.vars, fun data' hdata' k => ?_, h.items⟩
        obtain rfl : data = data' := Option.some.inj hdata'
        exact hcopy k
    · refine ⟨h.vars, fun data' hdata' k => ?_, h.items⟩
      obtain rfl := data_behind hdata'
      exact hcopy k
  · exact h

theorem Accounted.clearStep {s : Storing R} (h : Accounted s) (tick : UInt32) :
    Accounted (clearStep s tick) := by
  unfold VarManage.clearStep
  split
  · next n data kind hpass =>
    have hcopy := h.copy data (by rw [hpass]; rfl)
    have hbehind : ∀ data', (Pass.behind n data kind).data = some data' → ∀ k,
        Holds (data'.avg k) (s.ledger.held k) := by
      intro data' hdata' k
      obtain rfl := data_behind hdata'
      exact hcopy k
    split
    · next i _ =>
      split
      · next node hi =>
        obtain ⟨hlt, -⟩ := List.getElem?_eq_some_iff.mp hi
        refine ⟨fun j node' hj k => ?_, hbehind, h.items⟩
        dsimp only at hj ⊢
        by_cases hij : i = j
        · subst hij
          rw [List.getElem?_set_self hlt, Option.some.injEq] at hj
          rw [← hj, avg_setAvg, Function.update_self]
          by_cases hk : k = kind
          · rw [if_pos hk, hk, Function.update_self]
            exact Holds.clear _ tick
          · rw [if_neg hk, Function.update_of_ne hk]
            exact h.vars i node hi k
        · rw [List.getElem?_set_ne hij] at hj
          rw [Function.update_of_ne (Ne.symm hij)]
          exact h.vars j node' hj k
      · exact ⟨h.vars, hbehind, h.items⟩
    · exact ⟨h.vars, hbehind, h.items⟩
  · exact h

/-- In every run the accumulators and the items are those of the ledger. -/
theorem Accounted.run {s : Storing R} (h : Accounted s) (steps : List StorageStep) :
    Accounted (storageRun s steps) := by
  unfold storageRun
  induction steps generalizing s with
  | nil => exact h
  | cons step steps ih =>
    rw [List.foldl_cons]
    apply ih
    cases step with
    | update i xValue => exact h.update i xValue
    | copy n bEnable alloc => exact h.copyStep n bEnable alloc
    | check tick sent => exact h.checkStep tick sent
    | clear tick => exact h.clearStep tick

end Balance

/-! ## The books -/

section Books

theorem stored_snoc (l : Ledger R) (n i : Nat) (kind k : AvgKind) (samples : List R) :
    Ledger.stored { l with batches := l.batches ++ [⟨n, kind, samples⟩] } i k =
      l.stored i k ++ if n = i ∧ kind = k then samples else [] := by
  unfold Ledger.stored
  rw [List.filter_append, List.flatMap_append]
  congr 1
  by_cases h : n = i ∧ kind = k
  · rw [if_pos h, List.filter_cons_of_pos (by rw [h.1, h.2]; simp), List.filter_nil,
      List.flatMap_singleton]
  · rw [if_neg h, List.filter_cons_of_neg (by simpa using h), List.filter_nil, List.flatMap_nil]

/-- The books between two steps; while an average is stored and not cleared, its samples are in
    both places. -/
def Audited (s : Storing R) : Prop :=
  match s.pass with
  | .idle => ∀ i k, Balanced s.ledger i k
  | .check n _ kind => (∀ i k, Balanced s.ledger i k) ∧ UpToDate s.ledger n kind
  | .clear n _ kind =>
      (∀ i k, ¬ (n = i ∧ kind = k) → Balanced s.ledger i k) ∧
        (∃ before, s.ledger.stored n kind = before ++ s.ledger.held kind ∧
          before ++ s.ledger.live n kind = s.ledger.taken n) ∧ UpToDate s.ledger n kind

theorem Balanced.take {l : Ledger R} {j : Nat} {k : AvgKind} (h : Balanced l j k) (i : Nat)
    (value : R) : Balanced (l.take i value) j k := by
  unfold Balanced at *
  rw [live_take, taken_take, ← h, List.append_assoc]
  rfl

theorem UpToDate.take {l : Ledger R} {n : Nat} {kind : AvgKind} (h : UpToDate l n kind) (i : Nat)
    (value : R) : UpToDate (l.take i value) n kind := by
  intro hsince k hk
  obtain ⟨hne, hrest⟩ := not_or.mp (fun hor => hsince (List.mem_cons.mpr hor))
  rw [live_take, if_neg (Ne.symm hne), List.append_nil]
  exact h hrest k hk

theorem AvgKind.place_next {kind kind' : AvgKind} (h : kind.next = some kind') :
    kind.place < kind'.place := by
  cases kind with
  | real =>
    obtain rfl : AvgKind.min = kind' := Option.some.inj h
    decide
  | min =>
    obtain rfl : AvgKind.hour = kind' := Option.some.inj h
    decide
  | hour => exact nomatch h

variable [VarReal R]

theorem Audited.update {s : Storing R} (h : Audited s) (i : Nat) (xValue : VarValue) :
    Audited (updateStep s i xValue) := by
  unfold updateStep
  split
  · next node hi =>
    cases (getExtValue node.xIo.btVarType xValue : Option R) with
    | none => exact h
    | some value =>
      show Audited { s with
        vars := s.vars.set i (updateValue (node.setValue xValue))
        ledger := s.ledger.take i value }
      unfold Audited at h ⊢
      cases hpass : s.pass with
      | idle =>
        rw [hpass] at h
        exact fun j k => (h j k).take i value
      | check n data kind =>
        rw [hpass] at h
        exact ⟨fun j k => (h.1 j k).take i value, h.2.take i value⟩
      | clear n data kind =>
        rw [hpass] at h
        obtain ⟨hothers, ⟨before, hstored, htaken⟩, hcurrent⟩ := h
        refine ⟨fun j k hne => (hothers j k hne).take i value, ⟨before, hstored, ?_⟩,
          hcurrent.take i value⟩
        dsimp only
        rw [live_take, taken_take, ← htaken, List.append_assoc]
  · exact h

omit [VarReal R] in
theorem Audited.copyStep {s : Storing R} (h : Audited s) (n : Nat) (bEnable alloc : Bool) :
    Audited (copyStep s n bEnable alloc) := by
  unfold VarManage.copyStep
  split
  · next node hpass _ =>
    split
    · unfold Audited at h
      rw [hpass] at h
      exact ⟨h, fun _ k _ => rfl⟩
    · exact h
  · exact h

omit [VarReal R] in
theorem audited_behind {s : Storing R} {n : Nat} {data : ExtData R} {kind : AvgKind}
    (hpass : s.pass = .behind n data kind) (hbalanced : ∀ i k, Balanced s.ledger i k)
    (hcurrent : n ∉ s.ledger.since → ∀ k : AvgKind, kind.place < k.place →
      s.ledger.held k = s.ledger.live n k) : Audited s := by
  unfold Audited
  rw [hpass]
  unfold Pass.behind
  cases hnext : kind.next with
  | none => exact hbalanced
  | some kind' =>
    exact ⟨hbalanced, fun hsince k hk => hcurrent hsince k
      (Nat.lt_of_lt_of_le (AvgKind.place_next hnext) hk)⟩

theorem Audited.checkStep {s : Storing R} (h : Audited s) {tick : UInt32} {sent : Bool}
    (hmeets : Meets s (.check tick sent)) : Audited (checkStep s tick sent) := by
  unfold VarManage.checkStep
  split
  · next n data kind hpass =>
    unfold Audited at h
    rw [hpass] at h
    obtain ⟨hbalanced, hcurrent⟩ := h
    split
    · next hdue =>
      rw [if_pos (hmeets n data kind hpass hdue)]
      refine ⟨fun i k hne => ?_, ⟨s.ledger.stored n kind, ?_, hbalanced n kind⟩, hcurrent⟩
      · unfold Balanced
        rw [stored_snoc, if_neg hne, List.append_nil]
        exact hbalanced i k
      · rw [stored_snoc, if_pos ⟨rfl, rfl⟩]
    · exact audited_behind rfl hbalanced fun hsince k hk => hcurrent hsince k (Nat.le_of_lt hk)
  · exact h

theorem Audited.clearStep {s : Storing R} (h : Audited s) {tick : UInt32}
    (hmeets : Meets s (.clear tick)) : Audited (clearStep s tick) := by
  unfold VarManage.clearStep
  split
  · next n data kind hpass =>
    obtain ⟨hfirst, hsince⟩ := hmeets n data kind hpass
    unfold Audited at h
    rw [hpass] at h
    obtain ⟨hothers, ⟨before, hstored, htaken⟩, hcurrent⟩ := h
    rw [hfirst]
    dsimp only
    obtain ⟨hlt, -⟩ := List.findIdx?_eq_some_iff_getElem.mp hfirst
    rw [List.getElem?_eq_getElem hlt]
    have hheld := hcurrent hsince kind (Nat.le_refl _)
    refine audited_behind rfl (fun i k => ?_) fun hsince k hk => ?_
    · unfold Balanced
      dsimp only
      by_cases hat : n = i ∧ kind = k
      · -- the samples that are cleared are those of the copy
        obtain ⟨rfl, rfl⟩ := hat
        rw [Function.update_self, Function.update_self, List.append_nil, ← htaken, ← hheld]
        exact hstored
      · have hlive : Function.update s.ledger.live n (Function.update (s.ledger.live n) kind []) i k =
            s.ledger.live i k := by
          by_cases hn : i = n
          · rw [hn, Function.update_self, Function.update_of_ne fun hk => hat ⟨hn.symm, hk.symm⟩]
          · rw [Function.update_of_ne hn]
        rw [hlive]
        exact hothers i k hat
    · have hne : k ≠ kind := fun heq => absurd hk (by rw [heq]; exact Nat.lt_irrefl _)
      dsimp only
      rw [Function.update_self, Function.update_of_ne hne]
      exact hcurrent hsince k (Nat.le_of_lt hk)
  · exact h

/-- A step that finds the list as it was copied keeps the books. -/
theorem Audited.step {s : Storing R} (h : Audited s) {step : StorageStep} (hmeets : Meets s step) :
    Audited (storageStep s step) := by
  cases step with
  | update i xValue => exact h.update i xValue
  | copy n bEnable alloc => exact h.copyStep n bEnable alloc
  | check tick sent => exact h.checkStep hmeets
  | clear tick => exact h.clearStep hmeets

theorem Audited.run {s : Storing R} (h : Audited s) {steps : List StorageStep}
    (hmeets : MeetsAll s steps) : Audited (storageRun s steps) := by
  unfold storageRun
  induction steps generalizing s with
  | nil => exact h
  | cons step steps ih =>
    rw [List.foldl_cons]
    exact ih (h.step hmeets.1) hmeets.2

/-- Before the first sample. -/
def storingStart (vars : List (ExtData R)) : Storing R where
  vars := vars
  pass := .idle
  items := []
  ledger :=
    { taken := fun _ => []
      live := fun _ _ => []
      held := fun _ => []
      batches := []
      since := [] }

/-- In a run whose steps find the list as it was copied, every sample is in exactly one stored
    average or in the accumulator, whenever no stored average waits for its clear; and the
    accumulators and the stored averages are those of their samples. -/
theorem books_balance {vars : List (ExtData R)}
    (hfresh : ∀ node ∈ vars, ∀ kind, Holds (node.avg kind) []) {steps : List StorageStep}
    (hmeets : MeetsAll (storingStart vars) steps)
    (hsettled : (storageRun (storingStart vars) steps).pass.Settled) :
    (∀ i kind, Balanced (storageRun (storingStart vars) steps).ledger i kind) ∧
      Accounted (storageRun (storingStart vars) steps) := by
  have haudited : Audited (storageRun (storingStart vars) steps) :=
    Audited.run (s := storingStart vars) (fun _ _ => rfl) hmeets
  have hstart : Accounted (storingStart vars) := by
    refine ⟨fun i node hi kind => hfresh node (List.mem_of_getElem? hi) kind, ?_, rfl⟩
    intro data hdata
    exact nomatch hdata
  refine ⟨?_, hstart.run steps⟩
  unfold Audited at haudited
  cases hpass : (storageRun (storingStart vars) steps).pass with
  | idle =>
    rw [hpass] at haudited
    exact haudited
  | check n data kind =>
    rw [hpass] at haudited
    exact haudited.1
  | clear n data kind =>
    rw [hpass] at hsettled
    exact absurd hsettled id

end Books

/-! ## One stored variable -/

open CString Cjson

/-- The document of a variable that is stored each minute. -/
def storedDoc : Item Int :=
  .object [(keyEn, number 1), (keyIo, .object [(keyVs, number 2), (keySa, number 1),
    (keyAd, number 1024)]), (keyStorage, .object [(keySe, number 1), (keySs, number 1)])]

/-- The variables of some documents. -/
def storedVars (docs : List (Item Int)) : List (ExtData Int) :=
  docs.map fun doc => jsonParseExtDataInfo doc zeroed

/-- A sample, and the pass after a minute up to the store of its average. -/
def storeSample : List StorageStep :=
  [.update 0 fun _ => 1, .copy 0 true true, .check 60000 true]

theorem fresh_parsed (doc : Item Int) (kind : AvgKind) :
    Holds ((jsonParseExtDataInfo doc zeroed).avg kind) [] := by
  have hzero : (jsonParseExtDataInfo doc zeroed).avg kind = VarAvg.zero 0 := by
    have hstorage : ∀ x : ExtDataStorage Int, (∀ kind, ({ (zeroed : ExtData Int) with
        xStorage := x } : ExtData Int).avg kind = VarAvg.zero 0) →
        ({ (zeroed : ExtData Int) with
          xStorage := parseSection doc keyStorage parseStorage x } : ExtData Int).avg kind =
            VarAvg.zero 0 := by
      intro x hx
      unfold parseSection
      split
      · cases kind with
        | real => exact hx .real
        | min => exact hx .min
        | hour => exact hx .hour
      · exact hx kind
    have hparse := hstorage (zeroed : ExtData Int).xStorage fun kind => by cases kind <;> rfl
    cases kind with
    | real => exact hparse
    | min => exact hparse
    | hour => exact hparse
  rw [hzero]
  exact ⟨rfl, rfl⟩

theorem fresh_storedVars (docs : List (Item Int)) :
    ∀ node ∈ storedVars docs, ∀ kind, Holds (node.avg kind) [] := by
  intro node hnode kind
  obtain ⟨doc, -, rfl⟩ := List.mem_map.mp hnode
  exact fresh_parsed doc kind

theorem books_balance_one :
    Balanced (storageRun (storingStart (storedVars [storedDoc]))
      (storeSample ++ [.clear 60000])).ledger 0 .real := by
  have hmeets : MeetsAll (storingStart (storedVars [storedDoc]))
      (storeSample ++ [.clear 60000]) := by
    refine ⟨trivial, trivial, fun _ _ _ _ _ => rfl, fun n data kind hpass => ?_, trivial⟩
    obtain ⟨rfl, rfl, rfl⟩ := Pass.clear.inj hpass
    exact ⟨rfl, List.not_mem_nil⟩
  exact (books_balance (fresh_storedVars [storedDoc]) hmeets trivial).1 0 .real

/-- A second sample comes before the clear. -/
def lateSample : List StorageStep :=
  storeSample ++ [.update 0 fun _ => 2, .clear 60000]

/-- It is in neither. -/
theorem books_balance_late_sample :
    ¬ ∀ (docs : List (Item Int)) (steps : List StorageStep),
      (storageRun (storingStart (storedVars docs)) steps).pass.Settled →
        ∀ i kind, Balanced (storageRun (storingStart (storedVars docs)) steps).ledger i kind := by
  intro h
  have hbalanced := h [storedDoc] lateSample trivial 0 .real
  exact absurd hbalanced (by unfold Balanced; decide +kernel)

end K64Gateway.VarManage
