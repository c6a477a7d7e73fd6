import K64Gateway.Lib.NumberedLog

/-
  The history tables, `board/storage.c`: the storage thread inserts what it receives and
  `__relimit_table` deletes the oldest rows.

  Proved: exactly the tables with a limit of at least `_DEL_NUM`, and those that never grow over
  their limit, keep every row they get, at most limit + 1 rows and always the newest
  (`keepsNewest_iff`); 40 KB behind the reserve are enough for such limits (`le_limit`).
-/

namespace K64Gateway.StorageLimit

variable {α : Type}

/-! ## Limits -/

/-- `eStoragePath` -/
inductive EStoragePath
  | spiFlash
  | sd

/-- `eStorageType` -/
inductive EStorageType
  | rtData
  | minuteData
  | hourlyData
  | didoData
  | logData
  | ccBjdcData
  | commit
deriving DecidableEq

/-- What the start-up reads of `g_xCpuUsage`, in KB. -/
structure CpuUsage where
  flash_size : UInt32
  flash_use : UInt32
  sd_size : UInt32
  sd_use : UInt32

/-- `_DEL_NUM` -/
def delNum : UInt32 := 100

/-- The bytes behind the reserve of 5 MB. -/
def usable (size used : UInt32) : Nat :=
  if 5 * 1024 < size ∧ used < size then (size - 5 * 1024).toNat * 1024 else 0

def remain (g_xCpuUsage : CpuUsage) : EStoragePath → Nat
  | .spiFlash => usable g_xCpuUsage.flash_size g_xCpuUsage.flash_use
  | .sd => usable g_xCpuUsage.sd_size g_xCpuUsage.sd_use

/-- `s_limit_count` after the start-up. -/
def limitCount (g_xCpuUsage : CpuUsage) (ePath : EStoragePath) : EStorageType → UInt32
  | .logData => 1000
  | .ccBjdcData => 50000
  | .rtData => UInt32.ofNat (remain g_xCpuUsage ePath * 60 / 100 / 40)
  | .minuteData => UInt32.ofNat (remain g_xCpuUsage ePath * 20 / 100 / 40)
  | .hourlyData => UInt32.ofNat (remain g_xCpuUsage ePath * 10 / 100 / 40)
  | .didoData => UInt32.ofNat (remain g_xCpuUsage ePath * 10 / 100 / 32)
  | .commit => 0

/-! ## Tables -/

/-- The rows with their ids, and the last id of `AUTOINCREMENT`. -/
abbrev Table (α : Type) := NumberedLog α

/-- `s_db`: its tables and `sqlite3_last_insert_rowid`. -/
structure Db (α : Type) where
  tables : EStorageType → Table α
  rowid : Nat

/-- The bound of the `DELETE`, computed without a sign and printed with one. -/
def deleteBound (maxid limit : UInt32) : Int := (maxid - limit + delNum).toInt32.toInt

/-- `__relimit_table` on its table; no row leaves `minid` at `maxid`. -/
def relimitTable (limit : UInt32) (rowid : Nat) (table : Table α) : Table α :=
  let maxid := UInt32.ofNat rowid
  if limit < maxid then
    let minid := match (table.entries.map Prod.snd).min? with
      | some id => UInt32.ofNat id
      | none => maxid
    if limit < maxid - minid then table.dropBelow (deleteBound maxid limit) else table
  else table

/-- `INSERT INTO`, then `__relimit_table`. -/
def insert (limit : UInt32) (type : EStorageType) (item : α) (s_db : Db α) : Db α :=
  let table := (s_db.tables type).push item
  let rowid := table.last
  { tables := Function.update s_db.tables type (relimitTable limit rowid table), rowid }

variable (s_limit_count : EStorageType → UInt32)

/-- `rt_storage_thread` on one item. -/
def receive (s_db : Db α) (item : EStorageType × α) : Db α :=
  if item.1 = .commit then s_db
  else if 0 < s_limit_count item.1 then insert (s_limit_count item.1) item.1 item.2 s_db
  else s_db

def run (s_db : Db α) (items : List (EStorageType × α)) : Db α :=
  items.foldl (receive s_limit_count) s_db

/-- The items for one table. -/
def written (type : EStorageType) (items : List (EStorageType × α)) : List α :=
  (items.filter fun item => item.1 = type).map Prod.snd

/-- All rows that were ever in a table, with their ids. -/
def history (table : Table α) (items : List α) : List (α × Nat) :=
  table.entries ++ items.zipIdx (table.last + 1)

/-- After every insert the row is there, with at most limit + 1 rows, the newest ones. -/
structure Kept (limit : UInt32) (start : Table α) (items : List α) (item : α) (table : Table α) :
    Prop where
  present : (item, start.last + items.length + 1) ∈ table.entries
  bounded : table.entries.length ≤ limit.toNat + 1
  newest : table.entries <:+ history start (items ++ [item])

/-- All inserts of a run into one table. -/
def KeepsNewest (s_db : Db α) (items : List (EStorageType × α)) (type : EStorageType) : Prop :=
  ∀ before item after, items = before ++ item :: after → item.1 = type →
    Kept (s_limit_count type) (s_db.tables type) (written type before) item.2
      ((run s_limit_count s_db (before ++ [item])).tables type)

/-! ## One insert -/

/-- One insert into one table. -/
def store (limit : UInt32) (table : Table α) (item : α) : Table α :=
  relimitTable limit (table.last + 1) (table.push item)

theorem toNat_rowid {rowid : Nat} (h : rowid < 2 ^ 31) : (UInt32.ofNat rowid).toNat = rowid :=
  UInt32.toNat_ofNat_of_lt' (by norm_num [UInt32.size]; omega)

/-- The bound is `_DEL_NUM` after the limit, or negative. -/
theorem deleteBound_eq {rowid : Nat} (h : rowid < 2 ^ 31) {limit : UInt32}
    (hlimit : limit.toNat < rowid) :
    deleteBound (UInt32.ofNat rowid) limit =
      if rowid - limit.toNat + 100 < 2 ^ 31 then ((rowid - limit.toNat + 100 : Nat) : Int)
      else ((rowid - limit.toNat + 100 : Nat) : Int) - 2 ^ 32 := by
  have hsub : (UInt32.ofNat rowid - limit).toNat = rowid - limit.toNat := by
    rw [UInt32.toNat_sub_of_le _ _ (UInt32.le_iff_toNat_le.mpr (by rw [toNat_rowid h]; omega)),
      toNat_rowid h]
  have hadd : (UInt32.ofNat rowid - limit + delNum).toNat = rowid - limit.toNat + 100 := by
    rw [UInt32.toNat_add, hsub]
    exact Nat.mod_eq_of_lt (show rowid - limit.toNat + 100 < 2 ^ 32 by omega)
  have hnat : (UInt32.ofNat rowid - limit + delNum).toBitVec.toNat =
      rowid - limit.toNat + 100 := hadd
  show (UInt32.ofNat rowid - limit + delNum).toBitVec.toInt = _
  rw [BitVec.toInt_eq_toNat_cond, hnat]
  split <;> split <;> omega

/-- What is deleted after an insert. -/
theorem store_eq (limit : UInt32) (table : Table α) (item : α)
    (h : table.last + 1 < 2 ^ 31) :
    store limit table item =
      if limit.toNat < table.entries.length then
        (table.push item).dropBelow (deleteBound (UInt32.ofNat (table.last + 1)) limit)
      else table.push item := by
  have hlen := table.first_add_length
  have hpos := table.first_pos
  have hmin : ((table.push item).entries.map Prod.snd).min? = some table.first := by
    rw [NumberedLog.min?_numbers _ (by simp), NumberedLog.push_first]
  have hmax := toNat_rowid h
  have hfirst := toNat_rowid (show table.first < 2 ^ 31 by omega)
  have hdiff : (UInt32.ofNat (table.last + 1) - UInt32.ofNat table.first).toNat =
      table.entries.length := by
    rw [UInt32.toNat_sub_of_le _ _ (UInt32.le_iff_toNat_le.mpr (by omega))]
    omega
  unfold store relimitTable
  rw [hmin]
  dsimp only
  simp only [UInt32.lt_iff_toNat_lt, hmax, hdiff]
  split
  · rfl
  · rw [if_neg (by omega)]

/-- An insert with nothing to delete. -/
theorem store_short {limit : UInt32} {table : Table α} (item : α)
    (h : table.last + 1 < 2 ^ 31) (hlen : table.entries.length ≤ limit.toNat) :
    store limit table item = table.push item := by
  rw [store_eq limit table item h, if_neg (by omega)]

theorem store_last (limit : UInt32) (table : Table α) (item : α)
    (h : table.last + 1 < 2 ^ 31) :
    (store limit table item).last = table.last + 1 := by
  rw [store_eq limit table item h]
  split <;> rfl

theorem store_suffix (limit : UInt32) (table : Table α) (item : α)
    (h : table.last + 1 < 2 ^ 31) :
    (store limit table item).entries <:+
      table.entries ++ [(item, table.last + 1)] := by
  rw [store_eq limit table item h]
  split
  · exact NumberedLog.dropBelow_suffix _ _
  · exact List.suffix_refl _

/-- A limit of at least `_DEL_NUM` keeps the new row and the bound. -/
theorem store_large {limit : UInt32} (table : Table α) (item : α)
    (h : table.last + 1 < 2 ^ 31) (hlimit : 100 ≤ limit.toNat) :
    (item, table.last + 1) ∈ (store limit table item).entries ∧
      (store limit table item).entries.length ≤
        limit.toNat + 1 := by
  have hlen := table.first_add_length
  have hpos := table.first_pos
  rw [store_eq limit table item h]
  split
  next hlong =>
    rw [deleteBound_eq h (by omega), if_pos (by omega)]
    refine ⟨(table.last_mem_dropBelow item _).mpr (by omega), ?_⟩
    rw [NumberedLog.length_dropBelow _ (by rw [NumberedLog.push_first]; omega),
      NumberedLog.push_last]
    omega
  next hshort =>
    refine ⟨by simp, ?_⟩
    rw [NumberedLog.push_entries, List.length_append, List.length_singleton]
    omega

/-- A smaller limit deletes the new row too, or, at the end of the ids, nothing. -/
theorem store_small {limit : UInt32} (table : Table α) (item : α)
    (h : table.last + 1 < 2 ^ 31) (hlimit : limit.toNat < 100)
    (hlong : limit.toNat < table.entries.length) :
    (item, table.last + 1) ∉ (store limit table item).entries ∨
      limit.toNat + 1 <
        (store limit table item).entries.length := by
  have hlen := table.first_add_length
  have hpos := table.first_pos
  rw [store_eq limit table item h, if_pos hlong, deleteBound_eq h (by omega)]
  split
  · exact .inl fun hmem => absurd ((table.last_mem_dropBelow item _).mp hmem) (by omega)
  · right
    rw [NumberedLog.dropBelow_nonpos _ (by omega), NumberedLog.push_entries, List.length_append,
      List.length_singleton]
    omega

/-! ## Runs -/

theorem written_append (type : EStorageType) (items more : List (EStorageType × α)) :
    written type (items ++ more) = written type items ++ written type more := by
  simp [written]

theorem written_cons_self {type : EStorageType} {item : EStorageType × α} (h : item.1 = type)
    (items : List (EStorageType × α)) :
    written type (item :: items) = item.2 :: written type items := by
  simp [written, h]

theorem written_cons_of_ne {type : EStorageType} {item : EStorageType × α} (h : item.1 ≠ type)
    (items : List (EStorageType × α)) : written type (item :: items) = written type items := by
  simp [written, h]

/-- An item changes the table of its type only. -/
theorem receive_tables (s_db : Db α) (item : EStorageType × α) {type : EStorageType}
    (hcommit : type ≠ .commit) (hlimit : 0 < s_limit_count type) :
    (receive s_limit_count s_db item).tables type =
      (written type [item]).foldl (store (s_limit_count type)) (s_db.tables type) := by
  obtain ⟨type', a⟩ := item
  unfold receive
  dsimp only
  by_cases h : type' = type
  · subst h
    have hself : written type' [(type', a)] = [a] := written_cons_self rfl []
    rw [if_neg hcommit, if_pos hlimit, hself]
    exact Function.update_self ..
  · rw [written_cons_of_ne h]
    split
    · rfl
    · split
      · exact Function.update_of_ne (Ne.symm h) ..
      · rfl

/-- The tables do not disturb each other. -/
theorem run_tables (s_db : Db α) (items : List (EStorageType × α)) {type : EStorageType}
    (hcommit : type ≠ .commit) (hlimit : 0 < s_limit_count type) :
    (run s_limit_count s_db items).tables type =
      (written type items).foldl (store (s_limit_count type)) (s_db.tables type) := by
  induction items generalizing s_db with
  | nil => rfl
  | cons item items ih =>
    have hsplit : written type (item :: items) = written type [item] ++ written type items :=
      written_append type [item] items
    rw [hsplit, List.foldl_append, ← receive_tables s_limit_count s_db item hcommit hlimit]
    exact ih (receive s_limit_count s_db item)

variable (limit : UInt32)

theorem foldl_store_last (start : Table α) (items : List α)
    (h : start.last + items.length < 2 ^ 31) :
    (items.foldl (store limit) start).last = start.last + items.length := by
  induction items generalizing start with
  | nil => rfl
  | cons item items ih =>
    rw [List.length_cons] at h ⊢
    have hlast := store_last limit start item (by omega)
    rw [List.foldl_cons, ih _ (by omega), hlast]
    omega

theorem history_append (start : Table α) (items : List α) (item : α) :
    history start (items ++ [item]) =
      history start items ++ [(item, start.last + items.length + 1)] := by
  simp [history, List.zipIdx_append]
  omega

/-- A table is the end of its history. -/
theorem foldl_store_suffix (start : Table α) (items : List α)
    (h : start.last + items.length < 2 ^ 31) :
    (items.foldl (store limit) start).entries <:+ history start items := by
  induction items using List.reverseRecOn with
  | nil => simp [history]
  | append_singleton items item ih =>
    rw [List.length_append, List.length_singleton] at h
    have hlast := foldl_store_last limit start items (by omega)
    have hstep := store_suffix limit (items.foldl (store limit) start) item (by omega)
    obtain ⟨older, holder⟩ := ih (by omega)
    rw [hlast] at hstep
    rw [List.foldl_append, history_append, ← holder, List.append_assoc]
    exact hstep.trans (List.suffix_append older _)

/-- As long as the limit is not exceeded, nothing is deleted. -/
theorem foldl_store_short (start : Table α) (items : List α)
    (h : start.last + items.length < 2 ^ 31)
    (hshort : start.entries.length + items.length ≤ limit.toNat + 1) :
    (items.foldl (store limit) start).entries.length = start.entries.length + items.length := by
  induction items generalizing start with
  | nil => rfl
  | cons item items ih =>
    rw [List.length_cons] at h hshort ⊢
    have hstore : store limit start item = start.push item :=
      store_short item (by omega) (by omega)
    have hpush : (start.push item).entries.length = start.entries.length + 1 := by simp
    rw [List.foldl_cons, hstore, ih _ (by rw [NumberedLog.push_last]; omega) (by omega), hpush]
    omega

/-- The items before the one that is written after `k` others. -/
theorem exists_split (type : EStorageType) (items : List (EStorageType × α)) {k : Nat}
    (h : k < (written type items).length) :
    ∃ before item after, items = before ++ item :: after ∧ item.1 = type ∧
      (written type before).length = k := by
  induction items generalizing k with
  | nil => exact absurd h (Nat.not_lt_zero _)
  | cons first items ih =>
    by_cases hfirst : first.1 = type
    · cases k with
      | zero => exact ⟨[], first, items, rfl, hfirst, rfl⟩
      | succ k =>
        rw [written_cons_self hfirst, List.length_cons] at h
        obtain ⟨before, item, after, hsplit, hitem, hk⟩ := ih (Nat.lt_of_succ_lt_succ h)
        refine ⟨first :: before, item, after, by rw [hsplit]; rfl, hitem, ?_⟩
        rw [written_cons_self hfirst, List.length_cons, hk]
    · rw [written_cons_of_ne hfirst] at h
      obtain ⟨before, item, after, hsplit, hitem, hk⟩ := ih h
      refine ⟨first :: before, item, after, by rw [hsplit]; rfl, hitem, ?_⟩
      rw [written_cons_of_ne hfirst, hk]

/-- One more insert keeps the newest rows, when the limit is large or not yet reached. -/
theorem kept_store (start : Table α) (items : List α) (item : α)
    (h : start.last + items.length + 1 < 2 ^ 31)
    (hkeeps : 100 ≤ limit.toNat ∨ start.entries.length + items.length ≤ limit.toNat) :
    Kept limit start items item (store limit (items.foldl (store limit) start) item) := by
  have hlast := foldl_store_last limit start items (by omega)
  have hids : (items.foldl (store limit) start).last + 1 < 2 ^ 31 := by omega
  have hnewest := foldl_store_suffix limit start (items ++ [item])
    (by rw [List.length_append, List.length_singleton]; omega)
  rw [List.foldl_append] at hnewest
  rcases hkeeps with hlarge | hshort
  · obtain ⟨hpresent, hbounded⟩ :=
      store_large (items.foldl (store limit) start) item hids hlarge
    rw [hlast] at hpresent
    exact ⟨hpresent, hbounded, hnewest⟩
  · have hlen := foldl_store_short limit start items (by omega) (by omega)
    have hstore : store limit (items.foldl (store limit) start) item =
        (items.foldl (store limit) start).push item := store_short item hids (by omega)
    refine ⟨?_, ?_, hnewest⟩
    · rw [hstore, NumberedLog.push_entries, hlast]
      exact List.mem_append_right _ (List.mem_singleton_self _)
    · rw [hstore, NumberedLog.push_entries, List.length_append, List.length_singleton]
      omega

/-- The insert that reaches a small limit is not kept. -/
theorem not_kept_store (start : Table α) (items : List α) (item : α)
    (h : start.last + items.length + 1 < 2 ^ 31) (hsmall : limit.toNat < 100)
    (hlong : limit.toNat < (items.foldl (store limit) start).entries.length) :
    ¬ Kept limit start items item (store limit (items.foldl (store limit) start) item) := by
  have hlast := foldl_store_last limit start items (by omega)
  intro hkept
  rcases store_small (items.foldl (store limit) start) item (by omega) hsmall hlong with
    habsent | hlonger
  · rw [hlast] at habsent
    exact habsent hkept.present
  · exact absurd hkept.bounded (by omega)

/-- All inserts into a table keep the newest rows exactly when its limit is at least `_DEL_NUM`,
    nothing is written, or everything written fits with what was there. -/
theorem keepsNewest_iff (g_xCpuUsage : CpuUsage) (ePath : EStoragePath) (s_db : Db α)
    (items : List (EStorageType × α)) (type : EStorageType)
    (hlimit : limitCount g_xCpuUsage ePath type ≠ 0)
    (hids : (s_db.tables type).last + (written type items).length < 2 ^ 31) :
    KeepsNewest (limitCount g_xCpuUsage ePath) s_db items type ↔
      100 ≤ (limitCount g_xCpuUsage ePath type).toNat ∨ written type items = [] ∨
        (s_db.tables type).entries.length + (written type items).length ≤
          (limitCount g_xCpuUsage ePath type).toNat + 1 := by
  have hcommit : type ≠ .commit := fun h => hlimit (by rw [h]; rfl)
  have hpos : 0 < limitCount g_xCpuUsage ePath type := UInt32.pos_iff_ne_zero.mpr hlimit
  have hafter : ∀ before (item : EStorageType × α), item.1 = type →
      (run (limitCount g_xCpuUsage ePath) s_db (before ++ [item])).tables type =
        store (limitCount g_xCpuUsage ePath type)
          ((written type before).foldl (store (limitCount g_xCpuUsage ePath type))
            (s_db.tables type)) item.2 := fun before item hitem => by
    rw [run_tables _ s_db _ hcommit hpos, written_append, written_cons_self hitem,
      List.foldl_append]
    rfl
  constructor
  · intro hkeeps
    by_contra hnot
    obtain ⟨hsmall, hwritten, hlong⟩ : ¬ 100 ≤ _ ∧ _ ≠ [] ∧ ¬ _ ≤ _ := by
      simpa only [not_or] using hnot
    have hlen := List.length_pos_iff.mpr hwritten
    -- the insert with limit + 1 rows before it, or the first one
    obtain ⟨before, item, after, hsplit, hitem, hk⟩ := exists_split type items
      (show (limitCount g_xCpuUsage ePath type).toNat + 1 - (s_db.tables type).entries.length <
        (written type items).length by omega)
    have hkept := hkeeps before item after hsplit hitem
    rw [hafter before item hitem] at hkept
    refine not_kept_store _ _ _ _ (by omega) (by omega) ?_ hkept
    rcases Nat.eq_zero_or_pos (written type before).length with hzero | hsome
    · rw [List.length_eq_zero_iff.mp hzero, List.foldl_nil]
      omega
    · rw [foldl_store_short _ _ _ (by omega) (by omega)]
      omega
  · intro hkeeps before item after hsplit hitem
    have hlen : (written type items).length =
        (written type before).length + ((written type after).length + 1) := by
      rw [hsplit, written_append, List.length_append, written_cons_self hitem, List.length_cons]
    rw [hafter before item hitem]
    refine kept_store _ _ _ _ (by omega) ?_
    rcases hkeeps with hlarge | hnone | hshort
    · exact .inl hlarge
    · rw [hnone, List.length_nil] at hlen
      omega
    · exact .inr (by omega)

/-- No table has rows yet. -/
def Db.empty : Db α := ⟨fun _ => .empty 0, 0⟩

/-- 40 rows of the log keep the newest ones. -/
theorem keepsNewest_log :
    KeepsNewest (limitCount ⟨5121, 0, 0, 0⟩ .spiFlash) Db.empty
      (List.replicate 40 (.logData, ())) .logData :=
  (keepsNewest_iff ⟨5121, 0, 0, 0⟩ .spiFlash Db.empty (List.replicate 40 (.logData, ())) .logData
    (by decide) (by decide)).mpr (.inl (by decide))

/-- With 1 KB behind the reserve, two rows per hour are the limit: the fourth one deletes all. -/
theorem not_keepsNewest : ¬ ∀ (g_xCpuUsage : CpuUsage) (ePath : EStoragePath) (s_db : Db Unit)
    (items : List (EStorageType × Unit)) (type : EStorageType),
    limitCount g_xCpuUsage ePath type ≠ 0 →
    (s_db.tables type).last + (written type items).length < 2 ^ 31 →
    KeepsNewest (limitCount g_xCpuUsage ePath) s_db items type := fun h => by
  have hkept := h ⟨5121, 0, 0, 0⟩ .spiFlash Db.empty (List.replicate 4 (.hourlyData, ()))
    .hourlyData (by decide) (by decide) (List.replicate 3 (.hourlyData, ())) (.hourlyData, ()) []
    rfl rfl
  have habsent : ((), 4) ∉ ((run (limitCount ⟨5121, 0, 0, 0⟩ .spiFlash) Db.empty
      (List.replicate 4 (.hourlyData, ()))).tables .hourlyData).entries := by decide
  exact habsent hkept.present

/-! ## Enough room -/

/-- `k` KB behind the reserve, and not all used. -/
def Room (g_xCpuUsage : CpuUsage) (k : Nat) : EStoragePath → Prop
  | .spiFlash => g_xCpuUsage.flash_size.toNat = 5 * 1024 + k ∧
      g_xCpuUsage.flash_use < g_xCpuUsage.flash_size
  | .sd => g_xCpuUsage.sd_size.toNat = 5 * 1024 + k ∧ g_xCpuUsage.sd_use < g_xCpuUsage.sd_size

theorem usable_of_room {size used : UInt32} {k : Nat} (hsize : size.toNat = 5 * 1024 + k)
    (hk : 0 < k) (hused : used < size) : usable size used = k * 1024 := by
  have hreserve : (5 * 1024 : UInt32).toNat = 5 * 1024 := rfl
  have hlt : 5 * 1024 < size := UInt32.lt_iff_toNat_lt.mpr (by omega)
  unfold usable
  rw [if_pos ⟨hlt, hused⟩, UInt32.toNat_sub_of_le _ _ (UInt32.le_of_lt hlt), hsize, hreserve,
    Nat.add_sub_cancel_left]

/-- With 40 KB behind the reserve, and less than 256 GB, all limits are at least `_DEL_NUM`. -/
theorem le_limit (g_xCpuUsage : CpuUsage) (ePath : EStoragePath) {k : Nat}
    (hroom : Room g_xCpuUsage k ePath) (hlow : 40 ≤ k) (hhigh : k < 2 ^ 28) {type : EStorageType}
    (hcommit : type ≠ .commit) : 100 ≤ (limitCount g_xCpuUsage ePath type).toNat := by
  have hremain : remain g_xCpuUsage ePath = k * 1024 := by
    cases ePath with
    | spiFlash => exact usable_of_room hroom.1 (by omega) hroom.2
    | sd => exact usable_of_room hroom.1 (by omega) hroom.2
  have hofNat : ∀ n, 100 ≤ n → n < 2 ^ 32 → 100 ≤ (UInt32.ofNat n).toNat := fun n hn hmax => by
    rw [UInt32.toNat_ofNat_of_lt' hmax]
    exact hn
  cases type with
  | commit => exact absurd rfl hcommit
  | logData => exact show 100 ≤ (1000 : UInt32).toNat by decide
  | ccBjdcData => exact show 100 ≤ (50000 : UInt32).toNat by decide
  | rtData => exact hofNat _ (by omega) (by omega)
  | minuteData => exact hofNat _ (by omega) (by omega)
  | hourlyData => exact hofNat _ (by omega) (by omega)
  | didoData => exact hofNat _ (by omega) (by omega)

end K64Gateway.StorageLimit
