import K64Gateway.Lib.RingQueue

/-
  The filter of `vGetAdcValue` in `drivers/ad7689/ad7689.c`: the samples of a channel are averaged
  in groups, and the means of the last groups lie in a queue of the macros of `board/queue.h`.

  A sum that overflows and an index outside of the array give none here. Proved: neither happens,
  and the value is the average of the last means (`filter_window`).
-/

namespace K64Gateway.AdcFilter

open RingQueue

/-! ## The queue -/

/-- `_Adc_Queue_t` -/
structure AdcQueue where
  nFront : Int
  nRear : Int
  pData : Nat → UInt16

def nQueueSize : Nat := 101

/-- An integer as an unsigned one of 32 bits. -/
def u32 (x : Int) : Nat := (x % 4294967296).toNat

def bQueueRemove (q : AdcQueue) : AdcQueue :=
  if q.nFront = q.nRear then q else { q with nFront := (u32 (q.nFront + 1) % nQueueSize : Nat) }

/-- `xQueueGet` -/
def xQueueGet (q : AdcQueue) (index : Nat) : Option UInt16 :=
  let i := u32 (q.nFront + index) % nQueueSize
  if i < nQueueSize then some (q.pData i) else none

def bQueueWrite (q : AdcQueue) (e : UInt16) : Option AdcQueue :=
  if u32 (q.nRear + 1) % nQueueSize = u32 q.nFront then some q
  else if 0 ≤ q.nRear ∧ q.nRear < nQueueSize then
    some
      { q with
        pData := Function.update q.pData q.nRear.toNat e
        nRear := (u32 (q.nRear + 1) % nQueueSize : Nat) }
  else none

def bQueuePush (q : AdcQueue) (e : UInt16) : Option AdcQueue :=
  if u32 (q.nRear + 1) % nQueueSize = u32 q.nFront then bQueueWrite (bQueueRemove q) e
  else bQueueWrite q e

def nQueueLen (q : AdcQueue) : Nat := u32 (q.nRear - q.nFront + nQueueSize) % nQueueSize

/-! ## The filter -/

/-- `_adc_group`, `_adc_count_group` and `_adc_queue` of a channel. -/
structure AdcChannel where
  group : Int
  count : Int
  queue : AdcQueue

/-- The start values of the static arrays. -/
def AdcChannel.init : AdcChannel := ⟨0, 0, ⟨0, 0, fun _ => 0⟩⟩

/-- An addition of `int`. -/
def addInt (a b : Int) : Option Int :=
  if -2147483648 ≤ a + b ∧ a + b < 2147483648 then some (a + b) else none

/-- An addition of `rt_uint32_t`. -/
def addUint32 (a b : Nat) : Option Nat := if a + b < 4294967296 then some (a + b) else none

/-- A sample goes to its group, and the mean of a group that is complete to the queue. -/
def addSample (AdcGroupSz : Int) (c : AdcChannel) (usAdcVal : UInt16) : Option AdcChannel := do
  let count ← addInt c.count 1
  let group ← addInt c.group usAdcVal.toNat
  if AdcGroupSz ≤ count then
    let queue ← bQueuePush c.queue (UInt16.ofInt (group.tdiv count))
    some ⟨0, 0, queue⟩
  else some ⟨group, count, c.queue⟩

/-- `sum` after `i` turns of the loop. -/
def queueSum (q : AdcQueue) : Nat → Option Nat
  | 0 => some 0
  | i + 1 => do
    let sum ← queueSum q i
    let e ← xQueueGet q i
    addUint32 sum e.toNat

/-- The value that is worked with. -/
def filterValue (c : AdcChannel) (usAdcVal : UInt16) : Option UInt16 :=
  let len := nQueueLen c.queue
  if 0 < len then (queueSum c.queue len).map fun sum => UInt16.ofNat (sum / len)
  else some usAdcVal

/-- The samples of a channel one after the other, and the values for them. -/
def run (AdcGroupSz : Int) : AdcChannel → List UInt16 → Option (AdcChannel × List UInt16)
  | c, [] => some (c, [])
  | c, usAdcVal :: samples => do
    let c ← addSample AdcGroupSz c usAdcVal
    let value ← filterValue c usAdcVal
    let (c, values) ← run AdcGroupSz c samples
    some (c, value :: values)

/-! ## The sliding window -/

/-- A group size from 1 to 30000. -/
structure GroupSz where
  size : Nat
  pos : 0 < size
  le : size ≤ 30000

/-- The means of the complete groups. -/
def groupMeans (g : Nat) (samples : List UInt16) : List Nat :=
  (List.range (samples.length / g)).map fun j =>
    (((samples.map UInt16.toNat).drop (g * j)).take g).sum / g

/-- The average of the last 100 of them, and the last sample where there is none. -/
def filtered (g : Nat) (samples : List UInt16) : Nat :=
  let means := groupMeans g samples
  let k := means.length
  if k = 0 then (samples.getLastD 0).toNat else (means.drop (k - 100)).sum / min k 100

/-! ## The queue is a ring -/

def ringOf (q : AdcQueue) : Queue UInt16 := ⟨q.nFront.toNat, q.nRear.toNat, q.pData⟩

/-- The queue holds these means. -/
structure QueueHolds (q : AdcQueue) (l : List UInt16) : Prop where
  front : 0 ≤ q.nFront
  rear : 0 ≤ q.nRear
  holds : Holds nQueueSize (ringOf q) l

section
variable {q : AdcQueue} {l : List UInt16}

theorem u32_natCast {n : Nat} (h : n < 4294967296) : u32 n = n := by
  unfold u32
  omega

theorem QueueHolds.bounds (h : QueueHolds q l) :
    ∃ front rear : Nat, q.nFront = front ∧ q.nRear = rear ∧ front < 101 ∧ rear < 101 := by
  have hfront := h.holds.front_lt
  have hrear : (ringOf q).rear < nQueueSize := by
    rw [h.holds.rear_eq]
    exact Nat.mod_lt _ (by decide)
  exact ⟨q.nFront.toNat, q.nRear.toNat, (Int.toNat_of_nonneg h.front).symm,
    (Int.toNat_of_nonneg h.rear).symm, hfront, hrear⟩

theorem full_iff (h : QueueHolds q l) :
    u32 (q.nRear + 1) % nQueueSize = u32 q.nFront ↔ Full nQueueSize (ringOf q) := by
  obtain ⟨front, rear, hf, hr, hfront, hrear⟩ := h.bounds
  have hnext : u32 (q.nRear + 1) = rear + 1 := by
    rw [hr]
    exact u32_natCast (n := rear + 1) (by omega)
  have hfirst : u32 q.nFront = front := by
    rw [hf]
    exact u32_natCast (by omega)
  rw [hnext, hfirst, Full, ringOf, hf, hr]
  rfl

theorem nQueueLen_eq (h : QueueHolds q l) : nQueueLen q = l.length := by
  obtain ⟨front, rear, hf, hr, hfront, hrear⟩ := h.bounds
  have hlen := h.holds.length_eq
  rw [RingQueue.length, ringOf, hf, hr] at hlen
  have hsub : u32 (q.nRear - q.nFront + nQueueSize) = rear + 101 - front := by
    rw [hf, hr, ← u32_natCast (n := rear + 101 - front) (by omega)]
    congr 1
    show (rear : Int) - front + 101 = _
    omega
  rw [nQueueLen, hsub]
  exact hlen

theorem xQueueGet_eq (h : QueueHolds q l) {i : Nat} (hi : i < l.length) :
    xQueueGet q i = some l[i] := by
  obtain ⟨front, rear, hf, hr, hfront, hrear⟩ := h.bounds
  have hlt : l.length < 101 := h.holds.length_lt
  have hdata := h.holds.data_eq i hi
  have hplace : u32 (q.nFront + i) = front + i := by
    rw [hf]
    exact u32_natCast (n := front + i) (by omega)
  rw [ringOf, hf] at hdata
  unfold xQueueGet
  dsimp only
  rw [hplace, if_pos (Nat.mod_lt _ (by decide))]
  exact congrArg some hdata

theorem bQueueWrite_eq (h : QueueHolds q l) (hroom : ¬ Full nQueueSize (ringOf q))
    (e : UInt16) :
    ∃ q', bQueueWrite q e = some q' ∧ 0 ≤ q'.nFront ∧ 0 ≤ q'.nRear ∧
      ringOf q' = write nQueueSize (ringOf q) e := by
  obtain ⟨front, rear, hf, hr, hfront, hrear⟩ := h.bounds
  have hnext : u32 (q.nRear + 1) = rear + 1 := by
    rw [hr]
    exact u32_natCast (n := rear + 1) (by omega)
  have hin : 0 ≤ q.nRear ∧ q.nRear < nQueueSize := by
    rw [hr]
    exact ⟨by omega, by exact_mod_cast hrear⟩
  unfold bQueueWrite
  rw [if_neg (mt (full_iff h).mp hroom), if_pos hin]
  refine ⟨_, rfl, h.front, Int.natCast_nonneg _, ?_⟩
  rw [write, ringOf, ringOf, Queue.mk.injEq, hnext, hr]
  exact ⟨rfl, rfl, rfl⟩

theorem bQueueRemove_eq (h : QueueHolds q l) (hne : l ≠ []) :
    0 ≤ (bQueueRemove q).nFront ∧ 0 ≤ (bQueueRemove q).nRear ∧
      ringOf (bQueueRemove q) = remove nQueueSize (ringOf q) := by
  obtain ⟨front, rear, hf, hr, hfront, hrear⟩ := h.bounds
  have hnext : u32 (q.nFront + 1) = front + 1 := by
    rw [hf]
    exact u32_natCast (n := front + 1) (by omega)
  have hlen := nQueueLen_eq h
  have hdiff : q.nFront ≠ q.nRear := by
    intro heq
    rw [nQueueLen, heq, Int.sub_self] at hlen
    exact hne (List.eq_nil_of_length_eq_zero (hlen.symm.trans (by decide)))
  rw [bQueueRemove, if_neg hdiff]
  refine ⟨Int.natCast_nonneg _, h.rear, ?_⟩
  rw [remove, ringOf, ringOf, Queue.mk.injEq, hnext, hf]
  exact ⟨rfl, rfl, rfl⟩

/-- `bQueuePush` is the push of a ring. -/
theorem bQueuePush_eq (h : QueueHolds q l) (e : UInt16) :
    ∃ q', bQueuePush q e = some q' ∧ 0 ≤ q'.nFront ∧ 0 ≤ q'.nRear ∧
      ringOf q' = push nQueueSize (ringOf q) e := by
  unfold bQueuePush push
  by_cases hfull : Full nQueueSize (ringOf q)
  · rw [if_pos ((full_iff h).mpr hfull), if_pos hfull]
    have hlen := h.holds.full_iff.mp hfull
    obtain ⟨x, l, rfl⟩ := List.exists_cons_of_ne_nil (l := l) (by
      rintro rfl
      exact absurd hlen (by decide))
    obtain ⟨hf, hr, hring⟩ := bQueueRemove_eq h (List.cons_ne_nil x l)
    have hrest : QueueHolds (bQueueRemove q) l := ⟨hf, hr, hring ▸ h.holds.of_remove⟩
    rw [← hring]
    refine bQueueWrite_eq hrest (fun hagain => ?_) e
    have hlen' := hrest.holds.full_iff.mp hagain
    rw [List.length_cons] at hlen
    omega
  · rw [if_neg (mt (full_iff h).mp hfull), if_neg hfull]
    exact bQueueWrite_eq h hfull e

/-- The queue keeps the last 100 of all that were pushed. -/
theorem bQueuePush_last {all : List UInt16} (h : QueueHolds q (all.drop (all.length - 100)))
    (e : UInt16) :
    ∃ q', bQueuePush q e = some q' ∧
      QueueHolds q' ((all ++ [e]).drop ((all ++ [e]).length - 100)) := by
  obtain ⟨q', hpush, hf, hr, hring⟩ := bQueuePush_eq h e
  refine ⟨q', hpush, hf, hr, ?_⟩
  rw [hring]
  exact h.holds.of_push_last (by decide) e

/-! ## Sums -/

theorem sum_le (l : List UInt16) : (l.map UInt16.toNat).sum ≤ 65535 * l.length := by
  induction l with
  | nil => exact Nat.le_refl _
  | cons x l ih =>
    have hx := x.toNat_lt
    rw [List.map_cons, List.sum_cons, List.length_cons]
    omega

theorem queueSum_eq (h : QueueHolds q l) {i : Nat} (hi : i ≤ l.length) :
    queueSum q i = some ((l.take i).map UInt16.toNat).sum := by
  induction i with
  | zero => rfl
  | succ i ih =>
    have hlt : l.length < 101 := h.holds.length_lt
    have hsum := sum_le (l.take (i + 1))
    rw [List.length_take] at hsum
    have hnext : ((l.take (i + 1)).map UInt16.toNat).sum =
        ((l.take i).map UInt16.toNat).sum + l[i].toNat := by
      rw [List.take_succ_eq_append_getElem (by omega), List.map_append, List.sum_append]
      simp
    rw [queueSum, ih (by omega), Option.bind_eq_bind, Option.bind_some, xQueueGet_eq h (by omega),
      Option.bind_eq_bind, Option.bind_some, addUint32, ← hnext, if_pos (by omega)]

end

/-! ## Groups -/

/-- The samples of the group that is not complete. -/
def rest (g : Nat) (s : List UInt16) : List UInt16 := s.drop (g * (s.length / g))

/-- What the state is after these samples. -/
structure Follows (g : Nat) (s : List UInt16) (c : AdcChannel) : Prop where
  count : c.count = (s.length % g : Nat)
  group : c.group = (((rest g s).map UInt16.toNat).sum : Nat)
  means : ∃ all : List UInt16, all.map UInt16.toNat = groupMeans g s ∧
    QueueHolds c.queue (all.drop (all.length - 100))

theorem queueHolds_init : QueueHolds AdcChannel.init.queue [] :=
  ⟨Int.le_refl 0, Int.le_refl 0, by decide, by decide, rfl, fun i hi => absurd hi (by simp)⟩

theorem follows_init (g : Nat) : Follows g [] AdcChannel.init := by
  refine ⟨by simp [AdcChannel.init], by simp [AdcChannel.init, rest], [], ?_, queueHolds_init⟩
  simp [groupMeans]

theorem length_rest (g : Nat) (s : List UInt16) : (rest g s).length = s.length % g := by
  rw [rest, List.length_drop]
  exact (Nat.mod_eq_sub s.length g).symm

/-- A complete group stays as it is. -/
theorem groupMeans_same {g : Nat} (s : List UInt16) (x : UInt16) :
    (List.range (s.length / g)).map (fun j =>
      ((((s ++ [x]).map UInt16.toNat).drop (g * j)).take g).sum / g) = groupMeans g s := by
  refine List.map_congr_left fun j hj => ?_
  have hj := List.mem_range.mp hj
  have hend : g * j + g ≤ s.length := by
    calc g * j + g = g * (j + 1) := (Nat.mul_succ g j).symm
      _ ≤ g * (s.length / g) := Nat.mul_le_mul_left g hj
      _ ≤ s.length := Nat.mul_div_le s.length g
  have hlen : (s.map UInt16.toNat).length = s.length := List.length_map _
  rw [List.map_append, List.drop_append_of_le_length (by omega),
    List.take_append_of_le_length (by rw [List.length_drop]; omega)]

section
variable {g : Nat} {s : List UInt16} (x : UInt16)

/-- The next sample does not complete its group. -/
theorem next_open (hg : 0 < g) (h : s.length % g + 1 < g) :
    (s ++ [x]).length / g = s.length / g ∧ (s ++ [x]).length % g = s.length % g + 1 := by
  have hdiv := Nat.div_add_mod s.length g
  rw [List.length_append, List.length_singleton]
  refine (Nat.div_mod_unique hg).mpr ⟨?_, h⟩
  omega

/-- The next sample completes its group. -/
theorem next_complete (hg : 0 < g) (h : s.length % g + 1 = g) :
    (s ++ [x]).length / g = s.length / g + 1 ∧ (s ++ [x]).length % g = 0 := by
  have hdiv := Nat.div_add_mod s.length g
  rw [List.length_append, List.length_singleton]
  refine (Nat.div_mod_unique hg).mpr ⟨?_, hg⟩
  rw [Nat.mul_succ]
  omega

theorem rest_open (hg : 0 < g) (h : s.length % g + 1 < g) :
    rest g (s ++ [x]) = rest g s ++ [x] := by
  rw [rest, (next_open x hg h).1, List.drop_append_of_le_length (Nat.mul_div_le _ _)]
  rfl

theorem groupMeans_open (hg : 0 < g) (h : s.length % g + 1 < g) :
    groupMeans g (s ++ [x]) = groupMeans g s := by
  rw [groupMeans, (next_open x hg h).1]
  exact groupMeans_same s x

theorem rest_complete (hg : 0 < g) (h : s.length % g + 1 = g) : rest g (s ++ [x]) = [] := by
  apply List.eq_nil_of_length_eq_zero
  rw [length_rest, (next_complete x hg h).2]

theorem groupMeans_complete (hg : 0 < g) (h : s.length % g + 1 = g) :
    groupMeans g (s ++ [x]) =
      groupMeans g s ++ [((rest g s ++ [x]).map UInt16.toNat).sum / g] := by
  have hlast : (((s ++ [x]).map UInt16.toNat).drop (g * (s.length / g))).take g =
      (rest g s ++ [x]).map UInt16.toNat := by
    have hlen : (rest g s ++ [x]).length = g := by
      rw [List.length_append, length_rest, List.length_singleton, h]
    rw [← List.map_drop, List.drop_append_of_le_length (Nat.mul_div_le _ _), ← List.map_take]
    exact congrArg _ (List.take_of_length_le (Nat.le_of_eq hlen))
  rw [groupMeans, (next_complete x hg h).1, List.range_succ, List.map_append,
    groupMeans_same s x, List.map_singleton, hlast]

end

/-! ## A sample -/

section
variable (g : GroupSz) {s : List UInt16} {c : AdcChannel}

theorem toNat_ofInt {n : Nat} (h : n < 65536) : (UInt16.ofInt n).toNat = n := by
  have hmod : ((n : Int) % 65536).toNat = n := by omega
  show (UInt16.ofNat ((n : Int) % 65536).toNat).toNat = n
  rw [hmod]
  exact UInt16.toNat_ofNat_of_lt' h

theorem addInt_natCast {a b : Nat} (h : a + b < 2147483648) :
    addInt a b = some ((a + b : Nat) : Int) := by
  rw [addInt, if_pos (by omega), Int.natCast_add]

/-- The state after a sample; no addition overflows. -/
theorem addSample_follows (h : Follows g.size s c) (x : UInt16) :
    ∃ c', addSample g.size c x = some c' ∧ Follows g.size (s ++ [x]) c' := by
  have hg := g.pos
  have hle := g.le
  have hmod := Nat.mod_lt s.length hg
  have hsum := sum_le (rest g.size s ++ [x])
  have hcount : addInt c.count 1 = some ((s.length % g.size + 1 : Nat) : Int) := by
    rw [h.count]
    exact addInt_natCast (b := 1) (by omega)
  have hnext : ((rest g.size s ++ [x]).map UInt16.toNat).sum =
      ((rest g.size s).map UInt16.toNat).sum + x.toNat := by
    simp
  rw [List.length_append, length_rest, List.length_singleton] at hsum
  have hgroup : addInt c.group x.toNat =
      some ((((rest g.size s ++ [x]).map UInt16.toNat).sum : Nat) : Int) := by
    rw [h.group, hnext]
    exact addInt_natCast (by omega)
  obtain ⟨all, hall, hqueue⟩ := h.means
  unfold addSample
  rw [hcount, hgroup]
  simp only [Option.bind_eq_bind, Option.bind_some]
  by_cases hfull : s.length % g.size + 1 = g.size
  · -- The group is complete, and its mean is pushed.
    have hmean : ((((rest g.size s ++ [x]).map UInt16.toNat).sum : Nat) : Int).tdiv
        ((s.length % g.size + 1 : Nat) : Int) =
          ((((rest g.size s ++ [x]).map UInt16.toNat).sum / g.size : Nat) : Int) := by
      rw [hfull]
      exact (Int.ofNat_tdiv _ _).symm
    have hlt : ((rest g.size s ++ [x]).map UInt16.toNat).sum / g.size < 65536 := by
      rw [Nat.div_lt_iff_lt_mul hg]
      rw [hfull] at hsum
      omega
    rw [if_pos (by omega), hmean]
    generalize hm : ((rest g.size s ++ [x]).map UInt16.toNat).sum / g.size = mean at hlt
    obtain ⟨q', hpush, hq'⟩ := bQueuePush_last hqueue (UInt16.ofInt mean)
    rw [hpush]
    refine ⟨⟨0, 0, q'⟩, rfl, ?_, ?_, all ++ [UInt16.ofInt mean], ?_, hq'⟩
    · rw [(next_complete x hg hfull).2]
      rfl
    · rw [rest_complete x hg hfull]
      rfl
    · rw [groupMeans_complete x hg hfull, hm, List.map_append, hall, List.map_singleton]
      congr 2
      exact toNat_ofInt hlt
  · have hopen : s.length % g.size + 1 < g.size := by omega
    rw [if_neg (by omega)]
    refine ⟨_, rfl, ?_, ?_, all, ?_, hqueue⟩
    · rw [(next_open x hg hopen).2]
    · rw [rest_open x hg hopen]
    · rw [groupMeans_open x hg hopen, hall]

/-- The value after a sample. -/
theorem filterValue_follows {x : UInt16} (h : Follows g.size (s ++ [x]) c) :
    ∃ value, filterValue c x = some value ∧ value.toNat = filtered g.size (s ++ [x]) := by
  obtain ⟨all, hall, hqueue⟩ := h.means
  have hlen := nQueueLen_eq hqueue
  have hk : (groupMeans g.size (s ++ [x])).length = all.length := by
    rw [← hall, List.length_map]
  unfold filterValue filtered
  dsimp only
  rw [hlen, hk]
  by_cases hzero : all.length = 0
  · rw [if_neg (by rw [List.length_drop]; omega), if_pos hzero]
    exact ⟨x, rfl, by simp⟩
  · have hlast : (all.drop (all.length - 100)).length = min all.length 100 := by
      rw [List.length_drop]
      omega
    have hsum := sum_le (all.drop (all.length - 100))
    rw [hlast] at hsum
    rw [if_pos (by omega), if_neg hzero, queueSum_eq hqueue (Nat.le_refl _), List.take_length,
      hlast, ← hall, ← List.map_drop]
    refine ⟨_, rfl, UInt16.toNat_ofNat_of_lt' ?_⟩
    show _ < 65536
    rw [Nat.div_lt_iff_lt_mul (by omega)]
    omega

/-! ## Every sequence of samples -/

theorem run_follows (h : Follows g.size s c) (samples : List UInt16) :
    ∃ c' values, run g.size c samples = some (c', values) ∧
      values.map UInt16.toNat = (List.range samples.length).map fun i =>
        filtered g.size (s ++ samples.take (i + 1)) := by
  induction samples generalizing s c with
  | nil => exact ⟨c, [], rfl, rfl⟩
  | cons x samples ih =>
    obtain ⟨c₁, hadd, hfollows⟩ := addSample_follows g h x
    obtain ⟨value, hvalue, hfiltered⟩ := filterValue_follows g hfollows
    obtain ⟨c₂, values, hrun, hvalues⟩ := ih hfollows
    refine ⟨c₂, value :: values, ?_, ?_⟩
    · rw [run, hadd, Option.bind_eq_bind, Option.bind_some, hvalue, Option.bind_eq_bind,
        Option.bind_some, hrun]
      rfl
    · rw [List.map_cons, hvalues, hfiltered, List.length_cons, List.range_succ_eq_map,
        List.map_cons, List.map_map, List.take_succ_cons, List.take_zero]
      congr 1
      refine List.map_congr_left fun i _ => ?_
      rw [List.append_assoc]
      rfl

/-- For every sequence of samples no sum overflows and no index leaves the array, and the value
    after each sample is that of the sliding window. -/
theorem filter_window (samples : List UInt16) :
    ∃ c values, run g.size .init samples = some (c, values) ∧
      values.map UInt16.toNat = (List.range samples.length).map fun i =>
        filtered g.size (samples.take (i + 1)) :=
  run_follows g (follows_init g.size) samples

end

end K64Gateway.AdcFilter
