import Mathlib.Data.List.Chain
import K64Gateway.Lua.Heap

/-
  The blocks of the heap.

  Proved: what each part of the heap's functions does to the list of blocks: cutting a block
  (`tiled_cut`), using one (`take_whole`, `take_cut`), joining free ones (`shape_join`,
  `plug_holes_spec`), and the two searches (`search_eq_some`, `search_eq_none`, `lowest_spec`).
-/

namespace K64Gateway.Lua

open Tiling Window

/-! ## The shape of the heap -/

/-- The bytes of the used blocks, with their headers. -/
def usedBytes (h : Heap) (blocks : List Nat) : Nat :=
  ((blocks.filter h.used).map fun x => h.next x - x).sum

/-- Two blocks beside each other are not both free. -/
def Coalesced (used : Nat → Bool) (blocks : List Nat) : Prop :=
  blocks.IsChain fun x y => used x = true ∨ used y = true

/-- The headers cut the heap into blocks. -/
structure Shape (h : Heap) (blocks : List Nat) : Prop where
  tiled : Tiled sizeofStructMem h.next h.prev 0 blocks h.heap_end
  aligned : ∀ x ∈ blocks, x % 4 = 0
  inside : ∀ x ∈ blocks, x + sizeofStructMem < h.heap_end
  magic : ∀ x ∈ blocks, h.used x = true → h.magic x = true
  used_end : h.used h.heap_end = true
  used_mem : h.used_mem = usedBytes h blocks

/-- `lfree` is a free block, or the end, and then some block is used. -/
def FreePtr (h : Heap) (blocks : List Nat) : Prop :=
  (h.lfree = h.heap_end ∧ ∃ z ∈ blocks, h.used z = true) ∨
    h.lfree ∈ blocks ∧ h.used h.lfree = false

/-- No free block lies before `lfree`, so that a search misses none. -/
def Lowest (h : Heap) (blocks : List Nat) : Prop := ∀ z ∈ blocks, h.used z = false → h.lfree ≤ z

/-- What holds between the calls. -/
structure Inv (h : Heap) (blocks : List Nat) : Prop where
  shape : Shape h blocks
  coalesced : Coalesced h.used blocks
  lfree : FreePtr h blocks

/-- A block is in use: its address and the bytes behind its header. -/
def Live (h : Heap) (blocks : List Nat) (p c : Nat) : Prop :=
  ∃ x ∈ blocks, h.used x = true ∧ p = x + sizeofStructMem ∧ h.next x = p + c

variable {h : Heap} {blocks l₁ l₂ : List Nat} {x y : Nat}

theorem usedBytes_append : usedBytes h (l₁ ++ l₂) = usedBytes h l₁ + usedBytes h l₂ := by
  unfold usedBytes
  rw [List.filter_append, List.map_append, List.sum_append]

theorem usedBytes_cons_used (hx : h.used x = true) :
    usedBytes h (x :: l₁) = h.next x - x + usedBytes h l₁ := by
  unfold usedBytes
  rw [List.filter_cons_of_pos hx, List.map_cons, List.sum_cons]

theorem usedBytes_cons_free (hx : h.used x = false) : usedBytes h (x :: l₁) = usedBytes h l₁ := by
  unfold usedBytes
  rw [List.filter_cons_of_neg (by rw [hx]; exact Bool.false_ne_true)]

theorem usedBytes_congr {h' : Heap} (hused : ∀ z ∈ blocks, h'.used z = h.used z)
    (hnext : ∀ z ∈ blocks, h.used z = true → h'.next z = h.next z) :
    usedBytes h' blocks = usedBytes h blocks := by
  unfold usedBytes
  rw [List.filter_congr hused]
  congr 1
  refine List.map_congr_left fun z hz => ?_
  obtain ⟨hz, huse⟩ := List.mem_filter.mp hz
  rw [hnext z hz huse]

theorem used_lua_system_heap_init (h : Heap) : h.lua_system_heap_init.used 0 = false := by
  have hpos : 0 < h.heap_end := Nat.succ_pos _
  show Function.update (Function.update h.used 0 false) h.heap_end true 0 = _
  rw [Function.update_of_ne (Nat.ne_of_lt hpos), Function.update_self]

theorem next_lua_system_heap_init (h : Heap) : h.lua_system_heap_init.next 0 = h.heap_end := by
  have hpos : 0 < h.heap_end := Nat.succ_pos _
  show Function.update (Function.update h.next 0 h.heap_end) h.heap_end h.heap_end 0 = _
  rw [Function.update_of_ne (Nat.ne_of_lt hpos), Function.update_self]

/-- The blocks of a heap that has just been set up. -/
theorem inv_lua_system_heap_init (h : Heap) (hused : h.used_mem = 0) :
    Inv h.lua_system_heap_init [0] := by
  have hend : h.lua_system_heap_init.heap_end = h.heap_end := rfl
  have hpos : 0 < h.heap_end := Nat.succ_pos _
  have hnext := next_lua_system_heap_init h
  have hprev : h.lua_system_heap_init.prev 0 = 0 := by
    show Function.update (Function.update h.prev 0 0) h.heap_end h.heap_end 0 = _
    rw [Function.update_of_ne (Nat.ne_of_lt hpos), Function.update_self]
  have hfree := used_lua_system_heap_init h
  refine ⟨⟨⟨⟨rfl, ?_, ?_⟩, hprev, trivial⟩, ?_, ?_, ?_, ?_, ?_⟩, ?_, ?_⟩
  · rw [hnext]
    exact Nat.le_add_left _ _
  · rw [hnext]
    rfl
  · intro x hx
    rw [List.mem_singleton.mp hx]
  · intro x hx
    rw [List.mem_singleton.mp hx]
    have hroom : 8 ≤ h.mem_size_aligned := h.room
    show 0 + 8 < h.mem_size_aligned + 8
    omega
  · intro x hx huse
    rw [List.mem_singleton.mp hx, hfree] at huse
    exact absurd huse Bool.false_ne_true
  · exact Function.update_self ..
  · rw [usedBytes_cons_free hfree]
    exact hused
  · exact List.isChain_singleton _
  · exact Or.inr ⟨List.mem_singleton_self _, hfree⟩

/-! ## Free blocks beside each other -/

theorem coalesced_iff {used : Nat → Bool} :
    Coalesced used (l₁ ++ x :: l₂) ↔ Coalesced used l₁ ∧ Coalesced used l₂ ∧
      (∀ w ∈ l₁.getLast?, used w = true ∨ used x = true) ∧
      (∀ y ∈ l₂.head?, used x = true ∨ used y = true) := by
  unfold Coalesced
  rw [List.isChain_append, List.isChain_cons]
  constructor
  · rintro ⟨h₁, ⟨hhead, h₂⟩, hlast⟩
    exact ⟨h₁, h₂, fun w hw => hlast w hw x rfl, hhead⟩
  · rintro ⟨h₁, h₂, hlast, hhead⟩
    refine ⟨h₁, ⟨hhead, h₂⟩, fun w hw z hz => ?_⟩
    obtain rfl := Option.some.inj hz
    exact hlast w hw

theorem Coalesced.congr {used used' : Nat → Bool} (h : Coalesced used blocks)
    (heq : ∀ z ∈ blocks, used' z = used z) : Coalesced used' blocks :=
  h.imp_of_mem_imp fun z w hz hw hzw => by rw [heq z hz, heq w hw]; exact hzw

/-! ## The searches -/

/-- A block that is found is free and large enough. -/
theorem search_eq_some {size fuel ptr : Nat} {l : List Nat}
    (hseg : Seg sizeofStructMem h.next ptr l h.heap_end) (hfound : h.search size fuel ptr = some x) :
    x ∈ l ∧ h.used x = false ∧ size ≤ h.next x - (x + sizeofStructMem) ∧
      x < h.mem_size_aligned - size := by
  induction fuel generalizing ptr l with
  | zero => exact absurd hfound (by simp [Heap.search])
  | succ fuel ih =>
    unfold Heap.search at hfound
    split at hfound
    · next hlt =>
      cases l with
      | nil =>
        have hend : ptr = h.mem_size_aligned + sizeofStructMem := hseg
        omega
      | cons z l =>
        obtain ⟨rfl, -, hrest⟩ := hseg
        split at hfound
        · next hfit =>
          obtain rfl := Option.some.inj hfound
          exact ⟨List.mem_cons_self, hfit.1, hfit.2, hlt⟩
        · obtain ⟨hmem, hfit⟩ := ih hrest hfound
          exact ⟨List.mem_cons_of_mem _ hmem, hfit⟩
    · exact absurd hfound (by simp)

/-- Where nothing is found, no block below the bound is free and large enough. -/
theorem search_eq_none {size fuel ptr : Nat} {l : List Nat}
    (hseg : Seg sizeofStructMem h.next ptr l h.heap_end) (hfuel : h.heap_end ≤ fuel + ptr)
    (hnone : h.search size fuel ptr = none) :
    ∀ x ∈ l, x < h.mem_size_aligned - size →
      h.used x = true ∨ h.next x - (x + sizeofStructMem) < size := by
  induction fuel generalizing ptr l with
  | zero =>
    intro x hx hlt
    have hbounds := hseg.bounds hx
    unfold Heap.heap_end at hfuel
    omega
  | succ fuel ih =>
    intro x hx hlt
    unfold Heap.search at hnone
    split at hnone
    · cases l with
      | nil => exact absurd hx List.not_mem_nil
      | cons z l =>
        obtain ⟨rfl, hgap, hrest⟩ := hseg
        have hsize : sizeofStructMem = 8 := rfl
        split at hnone
        · exact absurd hnone (by simp)
        · next hfit =>
          rcases List.mem_cons.mp hx with rfl | hx
          · rcases Bool.eq_false_or_eq_true (h.used x) with huse | hfree
            · exact Or.inl huse
            · exact Or.inr (Nat.lt_of_not_le fun hle => hfit ⟨hfree, hle⟩)
          · exact ih hrest (by omega) hnone x hx hlt
    · have hbounds := hseg.bounds hx
      omega

/-- The lowest free block from a block on, or the end. -/
theorem lowest_spec {fuel ptr : Nat} {l : List Nat}
    (hseg : Seg sizeofStructMem h.next ptr l h.heap_end) (hfuel : h.heap_end ≤ fuel + ptr) :
    (h.lowest fuel ptr = h.heap_end ∨
        h.lowest fuel ptr ∈ l ∧ h.used (h.lowest fuel ptr) = false) ∧
      ∀ x ∈ l, h.used x = false → h.lowest fuel ptr ≤ x := by
  induction fuel generalizing ptr l with
  | zero =>
    cases l with
    | nil => exact ⟨Or.inl hseg, fun x hx => absurd hx List.not_mem_nil⟩
    | cons z l =>
      obtain ⟨rfl, hgap, hrest⟩ := hseg
      have hle := hrest.le
      have hsize : sizeofStructMem = 8 := rfl
      omega
  | succ fuel ih =>
    unfold Heap.lowest
    cases l with
    | nil =>
      have hptr : ptr = h.heap_end := hseg
      rw [if_neg fun hand => hand.2 hptr]
      exact ⟨Or.inl hptr, fun x hx => absurd hx List.not_mem_nil⟩
    | cons z l =>
      obtain ⟨rfl, hgap, hrest⟩ := hseg
      have hle := hrest.le
      have hsize : sizeofStructMem = 8 := rfl
      have hne : ptr ≠ h.heap_end := by omega
      rcases Bool.eq_false_or_eq_true (h.used ptr) with huse | hfree
      · rw [if_pos ⟨huse, hne⟩]
        obtain ⟨hwhere, hlow⟩ := ih hrest (by omega)
        refine ⟨hwhere.imp_right fun hmem => ⟨List.mem_cons_of_mem _ hmem.1, hmem.2⟩, ?_⟩
        intro x hx hxfree
        rcases List.mem_cons.mp hx with rfl | hx
        · exact absurd (huse.symm.trans hxfree) (by decide)
        · exact hlow x hx hxfree
      · rw [if_neg fun hand => absurd (hand.1.symm.trans hfree) (by decide)]
        refine ⟨Or.inr ⟨List.mem_cons_self, hfree⟩, fun x hx _ => ?_⟩
        have hall : Seg sizeofStructMem h.next ptr (ptr :: l) h.heap_end := ⟨rfl, hgap, hrest⟩
        exact (hall.bounds hx).1

/-! ## A block is cut -/

section
variable (hshape : Shape h (l₁ ++ x :: l₂))
include hshape

theorem mem_ne {z : Nat} (hz : z ∈ l₁ ++ l₂) : z ≠ x := by
  have hnodup := hshape.tiled.nodup (by decide)
  rintro rfl
  rw [List.nodup_append] at hnodup
  obtain ⟨-, hcons, hapart⟩ := hnodup
  rcases List.mem_append.mp hz with hz | hz
  · exact hapart z hz z List.mem_cons_self rfl
  · exact (List.nodup_cons.mp hcons).1 hz

/-- A place inside a block is no block. -/
theorem mem_ne_inside {z : Nat} (hz : z ∈ l₁ ++ l₂) (hxy : x < y) (hy : y < h.next x) :
    z ≠ y := by
  rcases List.mem_append.mp hz with hz | hz
  · have hlt := hshape.tiled.lt_of_mem_front (by decide) hz
    omega
  · have hle := hshape.tiled.le_of_mem_behind hz
    omega

/-- The block `x` ends at `y` and the rest of it is the block `y`. -/
theorem tiled_cut (hxy : x + sizeofStructMem ≤ y) (hy : y + sizeofStructMem ≤ h.next x) :
    Tiled sizeofStructMem (h.cut x y).next (h.cut x y).prev 0 (l₁ ++ x :: y :: l₂) h.heap_end := by
  have hgap : 0 < sizeofStructMem := by decide
  have hbounds := hshape.tiled.seg.bounds (List.mem_append_right l₁ (List.mem_cons_self (l := l₂)))
  refine hshape.tiled.split hgap hxy hy fun z hz => ?_
  show (if h.next x ≠ h.heap_end then _ else _ : Nat → Nat) z = _
  by_cases hend : h.next x = h.heap_end
  · rw [if_neg (not_not_intro hend), Function.update_apply, hend, if_neg (Nat.ne_of_lt hz)]
  · rw [if_pos hend, Function.update_apply, Function.update_apply]
    split
    · rw [if_neg (by omega)]
    · rfl

/-- The blocks after the cut are where blocks may be. -/
theorem cut_places (hmod : y % 4 = 0) (hin : y + sizeofStructMem < h.heap_end) {z : Nat}
    (hz : z ∈ l₁ ++ x :: y :: l₂) : z % 4 = 0 ∧ z + sizeofStructMem < h.heap_end := by
  have hx : x ∈ l₁ ++ x :: l₂ := List.mem_append_right _ List.mem_cons_self
  rw [List.mem_append, List.mem_cons, List.mem_cons] at hz
  rcases hz with hz | rfl | rfl | hz
  · have hz' := List.mem_append_left (x :: l₂) hz
    exact ⟨hshape.aligned z hz', hshape.inside z hz'⟩
  · exact ⟨hshape.aligned z hx, hshape.inside z hx⟩
  · exact ⟨hmod, hin⟩
  · have hz' := List.mem_append_right l₁ (List.mem_cons_of_mem x hz)
    exact ⟨hshape.aligned z hz', hshape.inside z hz'⟩

end

/-! ## A block is used -/

/-- The used blocks are the same. -/
structure SameUsed (h h' : Heap) (l l' : List Nat) : Prop where
  iff : ∀ z, (z ∈ l' ∧ h'.used z = true) ↔ (z ∈ l ∧ h.used z = true)
  next : ∀ z ∈ l, h.used z = true → h'.next z = h.next z

/-- A free block that is large enough is used, whole or in part. -/
structure Taken (h : Heap) (l₁ : List Nat) (x : Nat) (l₂ : List Nat) (size : Nat) (h' : Heap)
    (l₂' : List Nat) : Prop where
  shape : Shape h' (l₁ ++ x :: l₂')
  coalesced : Coalesced h'.used (l₁ ++ x :: l₂')
  used : h'.used x = true
  room : x + sizeofStructMem + size ≤ h'.next x
  same : SameUsed h h' (l₁ ++ l₂) (l₁ ++ l₂')
  free : ∀ z ∈ l₁ ++ l₂, h.used z = false → z ∈ l₁ ++ l₂' ∧ h'.used z = false
  behind : ∀ z ∈ l₁ ++ l₂', h'.used z = false → z ∈ l₁ ++ l₂ ∧ h.used z = false ∨ x < z
  heap_end : h'.heap_end = h.heap_end
  lfree : h'.lfree = h.lfree
  data : h'.data = h.data

theorem take_whole {size : Nat} (hshape : Shape h (l₁ ++ x :: l₂))
    (hco : Coalesced h.used (l₁ ++ x :: l₂)) (hfree : h.used x = false)
    (hfit : size ≤ h.next x - (x + sizeofStructMem))
    (hsmall : ¬ size + sizeofStructMem + minSizeAligned ≤ h.next x - (x + sizeofStructMem)) :
    Taken h l₁ x l₂ size (h.take size x) l₂ := by
  have hbounds := hshape.tiled.seg.bounds (List.mem_append_right l₁ (List.mem_cons_self (l := l₂)))
  have htake : h.take size x = { h.count (h.next x - x) with
      used := Function.update h.used x true
      magic := Function.update h.magic x true } := by
    unfold Heap.take
    dsimp only
    rw [if_neg hsmall]
    rfl
  have hend : h.heap_end ≠ x := by
    have hsize : sizeofStructMem = 8 := rfl
    omega
  have hother : ∀ z ∈ l₁ ++ l₂, Function.update h.used x true z = h.used z :=
    fun z hz => Function.update_of_ne (mem_ne hshape hz) _ _
  rw [htake]
  refine
    { shape :=
        { tiled := hshape.tiled
          aligned := hshape.aligned
          inside := hshape.inside
          magic := fun z hz huse => ?_
          used_end := (Function.update_of_ne hend _ _).trans hshape.used_end
          used_mem := ?_ }
      coalesced := ?_
      used := Function.update_self ..
      room := by dsimp only [Heap.count]; omega
      same :=
        { iff := fun z => and_congr_right fun hz => by
            show Function.update h.used x true z = true ↔ _
            rw [hother z hz]
          next := fun _ _ _ => rfl }
      free := fun z hz hzfree => ⟨hz, (hother z hz).trans hzfree⟩
      behind := fun z hz hzfree => Or.inl ⟨hz, (hother z hz).symm.trans hzfree⟩
      heap_end := rfl
      lfree := rfl
      data := rfl }
  · by_cases hzx : z = x
    · rw [hzx]
      exact Function.update_self ..
    · have huse' : h.used z = true := (Function.update_of_ne hzx _ _).symm.trans huse
      exact (Function.update_of_ne hzx _ _).trans (hshape.magic z hz huse')
  · have hsum := @usedBytes_congr h (l₁ ++ l₂)
      { h.count (h.next x - x) with
        used := Function.update h.used x true
        magic := Function.update h.magic x true } hother fun _ _ _ => rfl
    have hused := hshape.used_mem
    rw [usedBytes_append, usedBytes_cons_free hfree] at hused
    rw [usedBytes_append, usedBytes_append] at hsum
    rw [usedBytes_append, usedBytes_cons_used (Function.update_self ..)]
    show h.used_mem + (h.next x - x) = _ + (h.next x - x + _)
    omega
  · obtain ⟨hco₁, hco₂, -, -⟩ := coalesced_iff.mp hco
    exact coalesced_iff.mpr
      ⟨hco₁.congr fun z hz => hother z (List.mem_append_left _ hz),
        hco₂.congr fun z hz => hother z (List.mem_append_right _ hz),
        fun _ _ => Or.inr (Function.update_self ..), fun _ _ => Or.inl (Function.update_self ..)⟩

theorem take_cut {size : Nat} (hshape : Shape h (l₁ ++ x :: l₂))
    (hco : Coalesced h.used (l₁ ++ x :: l₂)) (hfree : h.used x = false) (hsize : size % 4 = 0)
    (hlarge : size + sizeofStructMem + minSizeAligned ≤ h.next x - (x + sizeofStructMem)) :
    Taken h l₁ x l₂ size (h.take size x) ((x + sizeofStructMem + size) :: l₂) := by
  have h8 : sizeofStructMem = 8 := rfl
  have hmin : minSizeAligned = 8 := rfl
  have hbounds := hshape.tiled.seg.bounds (List.mem_append_right l₁ (List.mem_cons_self (l := l₂)))
  have htake : h.take size x =
      { (h.cut x (x + sizeofStructMem + size)).count (size + sizeofStructMem) with
        used := Function.update (h.cut x (x + sizeofStructMem + size)).used x true
        magic := Function.update h.magic x true } := by
    unfold Heap.take
    dsimp only
    rw [if_pos hlarge]
    rfl
  rw [htake]
  generalize hy : x + sizeofStructMem + size = y at *
  have hx : x ∈ l₁ ++ x :: l₂ := List.mem_append_right _ List.mem_cons_self
  -- the headers of the other blocks
  have hne : ∀ z ∈ l₁ ++ l₂, z ≠ x ∧ z ≠ y := fun z hz =>
    ⟨mem_ne hshape hz, mem_ne_inside hshape hz (by omega) (by omega)⟩
  have hother : ∀ z, z ≠ x → z ≠ y →
      Function.update (h.cut x y).used x true z = h.used z := by
    intro z hzx hzy
    rw [Function.update_of_ne hzx]
    exact Function.update_of_ne hzy _ _
  have hnext : ∀ z, z ≠ x → z ≠ y → (h.cut x y).next z = h.next z := by
    intro z hzx hzy
    exact (Function.update_of_ne hzx _ _).trans (Function.update_of_ne hzy _ _)
  have hnextX : (h.cut x y).next x = y := Function.update_self ..
  have hfreeY : Function.update (h.cut x y).used x true y = false := by
    rw [Function.update_of_ne (by omega)]
    exact Function.update_self ..
  refine
    { shape :=
        { tiled := tiled_cut hshape (by omega) (by omega)
          aligned := fun z hz => ?_
          inside := fun z hz => ?_
          magic := fun z hz huse => ?_
          used_end := ?_
          used_mem := ?_ }
      coalesced := ?_
      used := Function.update_self ..
      room := by rw [hy]; exact Nat.le_of_eq hnextX.symm
      same :=
        { iff := fun z => ?_
          next := fun z hz _ => hnext z (hne z hz).1 (hne z hz).2 }
      free := fun z hz hzfree =>
        ⟨?_, (hother z (hne z hz).1 (hne z hz).2).trans hzfree⟩
      behind := fun z hz hzfree => ?_
      heap_end := rfl
      lfree := rfl
      data := rfl }
  · have halign := hshape.aligned x hx
    exact (cut_places hshape (by omega) (by omega) hz).1
  · have halign := hshape.aligned x hx
    exact (cut_places hshape (by omega) (by omega) hz).2
  · by_cases hzx : z = x
    · rw [hzx]
      exact Function.update_self ..
    · refine (Function.update_of_ne hzx _ _).trans ?_
      have hzy : z ≠ y := by
        rintro rfl
        exact absurd (hfreeY.symm.trans huse) (by decide)
      have hold : z ∈ l₁ ++ x :: l₂ := by
        rw [List.mem_append, List.mem_cons, List.mem_cons] at hz
        rw [List.mem_append, List.mem_cons]
        tauto
      exact hshape.magic z hold ((hother z hzx hzy).symm.trans huse)
  · refine (hother _ ?_ ?_).trans hshape.used_end
    · show h.heap_end ≠ x
      omega
    · show h.heap_end ≠ y
      omega
  · have hsum := @usedBytes_congr h (l₁ ++ l₂)
      { (h.cut x y).count (size + sizeofStructMem) with
        used := Function.update (h.cut x y).used x true
        magic := Function.update h.magic x true }
      (fun z hz => hother z (hne z hz).1 (hne z hz).2)
      (fun z hz _ => hnext z (hne z hz).1 (hne z hz).2)
    have hused := hshape.used_mem
    rw [usedBytes_append, usedBytes_cons_free hfree] at hused
    rw [usedBytes_append, usedBytes_append] at hsum
    rw [usedBytes_append, usedBytes_cons_used (Function.update_self ..), usedBytes_cons_free hfreeY]
    show h.used_mem + (size + sizeofStructMem) = _ + ((h.cut x y).next x - x + _)
    rw [hnextX]
    omega
  · obtain ⟨hco₁, hco₂, -, hhead⟩ := coalesced_iff.mp hco
    refine coalesced_iff.mpr ⟨hco₁.congr fun z hz => ?_, ?_,
      fun _ _ => Or.inr (Function.update_self ..), fun _ _ => Or.inl (Function.update_self ..)⟩
    · exact hother z (hne z (List.mem_append_left _ hz)).1 (hne z (List.mem_append_left _ hz)).2
    · have hmem : ∀ z ∈ l₂, Function.update (h.cut x y).used x true z = h.used z := fun z hz =>
        hother z (hne z (List.mem_append_right _ hz)).1 (hne z (List.mem_append_right _ hz)).2
      rw [← List.nil_append (y :: l₂)]
      refine coalesced_iff.mpr ⟨List.IsChain.nil, hco₂.congr hmem, ?_, fun z hz => ?_⟩
      · intro w hw
        exact absurd hw (by simp)
      · right
        refine (hmem z (List.mem_of_mem_head? hz)).trans ?_
        exact (hhead z hz).resolve_left (by rw [hfree]; exact Bool.false_ne_true)
  · rw [List.mem_append, List.mem_cons]
    constructor
    · rintro ⟨hz | rfl | hz, huse⟩
      · have hz' := List.mem_append_left l₂ hz
        exact ⟨hz', (hother z (hne z hz').1 (hne z hz').2).symm.trans huse⟩
      · exact absurd (hfreeY.symm.trans huse) (by decide)
      · have hz' := List.mem_append_right l₁ hz
        exact ⟨hz', (hother z (hne z hz').1 (hne z hz').2).symm.trans huse⟩
    · rintro ⟨hz, huse⟩
      refine ⟨?_, (hother z (hne z hz).1 (hne z hz).2).trans huse⟩
      rcases List.mem_append.mp hz with hz | hz
      · exact Or.inl hz
      · exact Or.inr (Or.inr hz)
  · rw [List.mem_append, List.mem_cons]
    rcases List.mem_append.mp hz with hz | hz
    · exact Or.inl hz
    · exact Or.inr (Or.inr hz)
  · rw [List.mem_append, List.mem_cons] at hz
    rcases hz with hz | rfl | hz
    · have hz' := List.mem_append_left l₂ hz
      exact Or.inl ⟨hz', (hother z (hne z hz').1 (hne z hz').2).symm.trans hzfree⟩
    · exact Or.inr (by omega)
    · have hz' := List.mem_append_right l₁ hz
      exact Or.inl ⟨hz', (hother z (hne z hz').1 (hne z hz').2).symm.trans hzfree⟩

/-! ## Holes are plugged -/

theorem SameUsed.refl (h : Heap) (l : List Nat) : SameUsed h h l l :=
  ⟨fun _ => Iff.rfl, fun _ _ _ => rfl⟩

theorem SameUsed.trans {h' h'' : Heap} {l l' l'' : List Nat} (h₁ : SameUsed h h' l l')
    (h₂ : SameUsed h' h'' l' l'') : SameUsed h h'' l l'' where
  iff z := (h₂.iff z).trans (h₁.iff z)
  next z hz huse := by
    obtain ⟨hz', huse'⟩ := (h₁.iff z).mpr ⟨hz, huse⟩
    rw [h₂.next z hz' huse', h₁.next z hz huse]

/-- Two free blocks are joined. -/
theorem shape_join (hshape : Shape h (l₁ ++ x :: y :: l₂)) (hx : h.used x = false)
    (hy : h.used y = false) :
    Shape (h.join x y) (l₁ ++ x :: l₂) ∧
      SameUsed h (h.join x y) (l₁ ++ x :: y :: l₂) (l₁ ++ x :: l₂) ∧
      (FreePtr h (l₁ ++ x :: y :: l₂) → FreePtr (h.join x y) (l₁ ++ x :: l₂)) ∧
      (Lowest h (l₁ ++ x :: y :: l₂) → Lowest (h.join x y) (l₁ ++ x :: l₂)) := by
  have hsub : ∀ z, z ∈ l₁ ++ x :: l₂ → z ∈ l₁ ++ x :: y :: l₂ := by
    intro z hz
    rw [List.mem_append, List.mem_cons] at hz
    rw [List.mem_append, List.mem_cons, List.mem_cons]
    tauto
  have hrest : ∀ z, z ∈ l₁ ++ x :: y :: l₂ → z ≠ y → z ∈ l₁ ++ x :: l₂ := by
    intro z hz hzy
    rw [List.mem_append, List.mem_cons, List.mem_cons] at hz
    rw [List.mem_append, List.mem_cons]
    tauto
  have hne : ∀ z, h.used z = true → z ≠ x ∧ z ≠ y := by
    intro z huse
    constructor
    · rintro rfl
      exact absurd (huse.symm.trans hx) (by decide)
    · rintro rfl
      exact absurd (huse.symm.trans hy) (by decide)
  have hnext : ∀ z, h.used z = true → (h.join x y).next z = h.next z := fun z huse =>
    Function.update_of_ne (hne z huse).1 _ _
  refine ⟨⟨?_, fun z hz => hshape.aligned z (hsub z hz), fun z hz => hshape.inside z (hsub z hz),
    fun z hz => hshape.magic z (hsub z hz), hshape.used_end, ?_⟩,
    ⟨fun z => ?_, fun z _ huse => hnext z huse⟩, ?_, ?_⟩
  · refine hshape.tiled.merge (by decide) fun z _ => ?_
    show Function.update h.prev (h.next y) x z = _
    rw [Function.update_apply]
  · have hsum : usedBytes (h.join x y) (l₁ ++ x :: l₂) = usedBytes h (l₁ ++ x :: l₂) :=
      usedBytes_congr (fun _ _ => rfl) fun z _ huse => hnext z huse
    have hused := hshape.used_mem
    rw [usedBytes_append, usedBytes_cons_free hx, usedBytes_cons_free hy] at hused
    rw [hsum, usedBytes_append, usedBytes_cons_free hx]
    exact hused
  · constructor
    · rintro ⟨hz, huse⟩
      exact ⟨hsub z hz, huse⟩
    · rintro ⟨hz, huse⟩
      exact ⟨hrest z hz (hne z huse).2, huse⟩
  · rintro (⟨hend, z, hz, huse⟩ | ⟨hmem, hfree⟩)
    · left
      refine ⟨?_, z, hrest z hz (hne z huse).2, huse⟩
      have hylt : y < h.heap_end :=
        hshape.tiled.lt_last (by decide) (List.mem_append_right _ (by simp))
      show (if h.lfree = y then x else h.lfree) = h.heap_end
      rw [if_neg (by omega)]
      exact hend
    · right
      show (if h.lfree = y then x else h.lfree) ∈ _ ∧ h.used (if h.lfree = y then x else h.lfree) = _
      by_cases hly : h.lfree = y
      · rw [if_pos hly]
        exact ⟨List.mem_append_right _ List.mem_cons_self, hx⟩
      · rw [if_neg hly]
        exact ⟨hrest _ hmem hly, hfree⟩
  · intro hlow z hz hfree
    have hxy : x < y := by
      have hbounds := hshape.tiled.seg.bounds (x := x) (by simp)
      have hgap : sizeofStructMem = 8 := rfl
      have hle := hshape.tiled.head_behind
      omega
    have hlowX := hlow x (List.mem_append_right _ List.mem_cons_self) hx
    show (if h.lfree = y then x else h.lfree) ≤ z
    rw [if_neg (by omega)]
    exact hlow z (hsub z hz) hfree

theorem joinNext_spec (hshape : Shape h (l₁ ++ x :: l₂)) (hx : h.used x = false)
    (hco : Coalesced h.used l₂) (hlfree : FreePtr h (l₁ ++ x :: l₂)) :
    ∃ l₂', Shape (h.joinNext x) (l₁ ++ x :: l₂') ∧
      SameUsed h (h.joinNext x) (l₁ ++ x :: l₂) (l₁ ++ x :: l₂') ∧
      FreePtr (h.joinNext x) (l₁ ++ x :: l₂') ∧
      (Lowest h (l₁ ++ x :: l₂) → Lowest (h.joinNext x) (l₁ ++ x :: l₂')) ∧
      Coalesced h.used l₂' ∧ ∀ z ∈ l₂'.head?, h.used z = true := by
  unfold Heap.joinNext
  dsimp only
  cases l₂ with
  | nil =>
    have hnext : h.next x = h.heap_end := hshape.tiled.seg_split.2.2
    rw [if_neg fun hand => hand.2.2 hnext]
    exact ⟨[], hshape, SameUsed.refl .., hlfree, id, hco, fun z hz => absurd hz (by simp)⟩
  | cons y l₂ =>
    have hnext : h.next x = y := hshape.tiled.head_behind
    have hbounds := hshape.tiled.seg.bounds (x := x) (by simp)
    have hgap : sizeofStructMem = 8 := rfl
    have hylt : y < h.heap_end := hshape.tiled.lt_last (by decide) (by simp)
    rw [hnext]
    rcases Bool.eq_false_or_eq_true (h.used y) with huse | hfree
    · rw [if_neg fun hand => absurd (huse.symm.trans hand.2.1) (by decide)]
      refine ⟨y :: l₂, hshape, SameUsed.refl .., hlfree, id, hco, fun z hz => ?_⟩
      rw [← Option.some.inj hz]
      exact huse
    · rw [if_pos ⟨by omega, hfree, by omega⟩]
      obtain ⟨hshape', hsame, hptr, hlow⟩ := shape_join hshape hx hfree
      obtain ⟨hhead, hrest⟩ := List.isChain_cons.mp hco
      refine ⟨l₂, hshape', hsame, hptr hlfree, hlow, hrest, fun z hz => ?_⟩
      exact (hhead z hz).resolve_left (by rw [hfree]; exact Bool.false_ne_true)

theorem joinPrev_spec (hshape : Shape h (l₁ ++ x :: l₂)) (hx : h.used x = false)
    (hco₁ : Coalesced h.used l₁) (hco₂ : Coalesced h.used l₂)
    (hhead : ∀ z ∈ l₂.head?, h.used z = true) (hlfree : FreePtr h (l₁ ++ x :: l₂)) :
    ∃ blocks, Inv (h.joinPrev x) blocks ∧ SameUsed h (h.joinPrev x) (l₁ ++ x :: l₂) blocks ∧
      (Lowest h (l₁ ++ x :: l₂) → Lowest (h.joinPrev x) blocks) := by
  have hprev := hshape.tiled.prev_eq
  unfold Heap.joinPrev
  dsimp only
  rw [hprev]
  rcases List.eq_nil_or_concat l₁ with rfl | ⟨l₁, w, rfl⟩
  · have hzero : 0 = x := hshape.tiled.seg_split.1
    rw [if_neg fun hand => hand.1 hzero]
    exact ⟨[] ++ x :: l₂, ⟨hshape, coalesced_iff.mpr
      ⟨hco₁, hco₂, fun w hw => absurd hw (by simp), fun z hz => Or.inr (hhead z hz)⟩, hlfree⟩,
      SameUsed.refl .., id⟩
  · rw [List.concat_eq_append] at *
    have hlast : (l₁ ++ [w]).getLastD 0 = w := List.getLastD_concat ..
    have hlist : l₁ ++ [w] ++ x :: l₂ = l₁ ++ w :: x :: l₂ := by
      rw [List.append_assoc]
      rfl
    have hwx : w < x := hshape.tiled.lt_of_mem_front (by decide) (by simp)
    rw [hlast]
    rcases Bool.eq_false_or_eq_true (h.used w) with huse | hfree
    · rw [if_neg fun hand => absurd (huse.symm.trans hand.2) (by decide)]
      refine ⟨_, ⟨hshape, coalesced_iff.mpr
        ⟨hco₁, hco₂, fun z hz => Or.inl ?_, fun z hz => Or.inr (hhead z hz)⟩, hlfree⟩,
        SameUsed.refl .., id⟩
      rw [List.getLast?_concat] at hz
      rw [← Option.some.inj hz]
      exact huse
    · rw [if_pos ⟨by omega, hfree⟩]
      rw [hlist] at hshape hlfree ⊢
      obtain ⟨hshape', hsame, hptr, hlow⟩ := shape_join hshape hfree hx
      obtain ⟨hfront, -, hlastUsed, -⟩ := coalesced_iff.mp hco₁
      exact ⟨l₁ ++ w :: l₂, ⟨hshape', coalesced_iff.mpr
        ⟨hfront, hco₂, hlastUsed, fun z hz => Or.inr (hhead z hz)⟩, hptr hlfree⟩, hsame, hlow⟩

@[simp] theorem heap_end_joinNext : (h.joinNext x).heap_end = h.heap_end := by
  unfold Heap.joinNext
  dsimp only
  split <;> rfl

@[simp] theorem used_joinNext : (h.joinNext x).used = h.used := by
  unfold Heap.joinNext
  dsimp only
  split <;> rfl

@[simp] theorem heap_end_plug_holes : (h.plug_holes x).heap_end = h.heap_end := by
  refine Eq.trans ?_ (heap_end_joinNext (h := h) (x := x))
  unfold Heap.plug_holes Heap.joinPrev
  dsimp only
  split <;> rfl

@[simp] theorem data_plug_holes : (h.plug_holes x).data = h.data := by
  have hnext : (h.joinNext x).data = h.data := by
    unfold Heap.joinNext
    dsimp only
    split <;> rfl
  refine Eq.trans ?_ hnext
  unfold Heap.plug_holes Heap.joinPrev
  dsimp only
  split <;> rfl

/-- A free block whose neighbours may be free joins them. -/
theorem plug_holes_spec (hshape : Shape h (l₁ ++ x :: l₂)) (hx : h.used x = false)
    (hco₁ : Coalesced h.used l₁) (hco₂ : Coalesced h.used l₂)
    (hlfree : FreePtr h (l₁ ++ x :: l₂)) :
    ∃ blocks, Inv (h.plug_holes x) blocks ∧
      SameUsed h (h.plug_holes x) (l₁ ++ x :: l₂) blocks ∧
      (Lowest h (l₁ ++ x :: l₂) → Lowest (h.plug_holes x) blocks) := by
  obtain ⟨l₂', hshape', hsame', hlfree', hlow', hco', hhead'⟩ := joinNext_spec hshape hx hco₂ hlfree
  obtain ⟨blocks, hinv, hsame, hlow⟩ := joinPrev_spec hshape' (by rw [used_joinNext]; exact hx)
    (by rw [used_joinNext]; exact hco₁) (by rw [used_joinNext]; exact hco')
    (by rw [used_joinNext]; exact hhead') hlfree'
  exact ⟨blocks, hinv, hsame'.trans hsame, hlow ∘ hlow'⟩

end K64Gateway.Lua
