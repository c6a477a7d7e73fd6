import K64Gateway.Lua.HeapBlocks

/-
  The calls of the heap, against an allocator that only knows which stretches of memory are lent.

  Proved: a call keeps the invariant, fails no assertion and writes behind no block where it may be
  made, and does what the allocator may do (`call_refines`).
-/

namespace K64Gateway.Lua

open Tiling Window

/-! ## An allocator -/

/-- The stretches that are lent, by their address and length, and the bytes of the memory. -/
structure Alloc where
  live : Nat → Nat → Prop
  data : Nat → UInt8

inductive Call where
  | malloc (size : Nat)
  | calloc (count size : Nat)
  | free (p : Option Nat)
  | realloc (p : Option Nat) (newsize : Nat)

/-- A stretch that touches none of those that are lent. -/
def Alloc.Fresh (a : Alloc) (p c : Nat) : Prop :=
  ∀ q d, a.live q d → p ≠ q ∧ (p + c ≤ q ∨ q + d ≤ p)

def Alloc.lend (a : Alloc) (p c : Nat) : Alloc :=
  { a with live := fun q d => q = p ∧ d = c ∨ a.live q d }

def Alloc.takeBack (a : Alloc) (p : Nat) : Alloc :=
  { a with live := fun q d => q ≠ p ∧ a.live q d }

/-- What an allocator may do in a call. It need not lend anything. -/
inductive Alloc.Step : Alloc → Call → Option Nat → Alloc → Prop
  | refused (a : Alloc) (call : Call) (hcall : ∀ p, call ≠ .free (some p)) : Step a call none a
  | malloc {a : Alloc} {size p c : Nat} (hfresh : a.Fresh p c) (hroom : rtAlign size ≤ c) :
      Step a (.malloc size) (some p) (a.lend p c)
  | calloc {a : Alloc} {count size p c : Nat} (hfresh : a.Fresh p c)
      (hroom : count * size % 2 ^ 32 ≤ c) :
      Step a (.calloc count size) (some p)
        { a.lend p c with
          data := overlay a.data p (List.replicate (count * size % 2 ^ 32) 0) }
  | free {a : Alloc} {p c : Nat} (hlive : a.live p c) :
      Step a (.free (some p)) none (a.takeBack p)
  | reallocNull {a : Alloc} {newsize p c : Nat} (hfresh : a.Fresh p c)
      (hroom : rtAlign newsize ≤ c) : Step a (.realloc none newsize) (some p) (a.lend p c)
  | reallocKeep {a : Alloc} {newsize p c c' : Nat} (hlive : a.live p c)
      (hroom : rtAlign newsize ≤ c') (hle : c' ≤ c) :
      Step a (.realloc (some p) newsize) (some p) ((a.takeBack p).lend p c')
  | reallocMove {a : Alloc} {newsize p q c d : Nat} (hlive : a.live p c) (hfresh : a.Fresh q d)
      (hroom : rtAlign newsize ≤ d) :
      Step a (.realloc (some p) newsize) (some q)
        { (a.lend q d).takeBack p with
          data := overlay a.data q (window a.data p (min c (rtAlign newsize))) }

/-! ## The calls of the heap -/

/-- A call, with its result; none is an assertion that fails or a write behind a block. -/
def Heap.call (h : Heap) : Call → Option (Heap × Option Nat)
  | .malloc size => some (h.lua_malloc size)
  | .calloc count size => h.lua_calloc count size
  | .free p => (h.lua_free p).map fun h => (h, none)
  | .realloc p newsize => h.lua_realloc p newsize

/-- The heap as an allocator. -/
def Heap.alloc (h : Heap) (blocks : List Nat) : Alloc := ⟨Live h blocks, h.data⟩

/-- The call may be made: it is given null or a pointer that was lent, and the bytes that it is to
clear can be rounded up within 32 bits. -/
def Alloc.Allows (a : Alloc) : Call → Prop
  | .calloc count size => count * size % 2 ^ 32 + 3 < 2 ^ 32
  | .free (some p) => ∃ c, a.live p c
  | .realloc (some p) _ => ∃ c, a.live p c
  | _ => True

/-- The call cuts the end of a block off; `lfree` stays although the rest may lie below it. -/
def Heap.Shrinks (h : Heap) : Call → Prop
  | .realloc (some rmem) newsize =>
    let ptr := rmem - sizeofStructMem
    rtAlign newsize + sizeofStructMem + minSizeAligned < h.next ptr - ptr - sizeofStructMem
  | _ => False

variable {h : Heap} {blocks l₁ l₂ : List Nat} {x : Nat}

theorem alloc_ext {a b : Alloc} (hlive : ∀ q d, a.live q d ↔ b.live q d) (hdata : a.data = b.data) :
    a = b := by
  obtain ⟨live, data⟩ := a
  obtain ⟨live', data'⟩ := b
  obtain rfl : live = live' := by
    funext q d
    exact propext (hlive q d)
  obtain rfl : data = data' := hdata
  rfl

/-- The stretches that are lent do not touch each other. -/
theorem live_apart (hinv : Inv h blocks) {p c q d : Nat} (hp : Live h blocks p c)
    (hq : Live h blocks q d) (hne : p ≠ q) :
    p + c + sizeofStructMem ≤ q ∨ q + d + sizeofStructMem ≤ p := by
  obtain ⟨x, hx, -, rfl, hnextX⟩ := hp
  obtain ⟨y, hy, -, rfl, hnextY⟩ := hq
  rcases hinv.shape.tiled.apart hx hy (by rintro rfl; exact hne rfl) with hle | hle
  · exact Or.inl (by omega)
  · exact Or.inr (by omega)

/-- Where a stretch that is lent lies. -/
theorem live_bounds (hinv : Inv h blocks) {p c : Nat} (hp : Live h blocks p c) :
    p % 4 = 0 ∧ sizeofStructMem ≤ p ∧ p + c ≤ h.heap_end := by
  obtain ⟨x, hx, -, rfl, hnext⟩ := hp
  have hbounds := hinv.shape.tiled.seg.bounds hx
  have halign := hinv.shape.aligned x hx
  have hsize : sizeofStructMem = 8 := rfl
  omega

/-! ## lua_malloc -/

theorem rtAlign_mod (size : Nat) : rtAlign size % 4 = 0 := by
  unfold rtAlign
  omega

theorem le_rtAlign {size : Nat} (hsize : size + 3 < 2 ^ 32) : size ≤ rtAlign size := by
  unfold rtAlign
  omega

/-- What `lua_malloc` leaves when it lends the block `x`. -/
structure Lent (h : Heap) (blocks : List Nat) (size : Nat) (h' : Heap) (p c : Nat)
    (blocks' : List Nat) : Prop where
  inv : Inv h' blocks'
  room : size ≤ c
  live : ∀ q d, Live h' blocks' q d ↔ q = p ∧ d = c ∨ Live h blocks q d
  fresh : ∀ q d, Live h blocks q d → p ≠ q ∧ (p + c ≤ q ∨ q + d ≤ p)
  data : h'.data = h.data
  heap_end : h'.heap_end = h.heap_end
  lowest : Lowest h blocks → Lowest h' blocks'

theorem taken_of_fit {size : Nat} (hinv : Inv h (l₁ ++ x :: l₂)) (hfree : h.used x = false)
    (hsize : size % 4 = 0) (hfit : size ≤ h.next x - (x + sizeofStructMem)) :
    ∃ l₂', Taken h l₁ x l₂ size (h.take size x) l₂' := by
  by_cases hlarge : size + sizeofStructMem + minSizeAligned ≤ h.next x - (x + sizeofStructMem)
  · exact ⟨_, take_cut hinv.shape hinv.coalesced hfree hsize hlarge⟩
  · exact ⟨_, take_whole hinv.shape hinv.coalesced hfree hfit hlarge⟩

theorem live_taken {size : Nat} {h' : Heap} {l₂' : List Nat} (hfree : h.used x = false)
    (ht : Taken h l₁ x l₂ size h' l₂') (q d : Nat) :
    Live h' (l₁ ++ x :: l₂') q d ↔
      q = x + sizeofStructMem ∧ d = h'.next x - (x + sizeofStructMem) ∨
        Live h (l₁ ++ x :: l₂) q d := by
  have hroom := ht.room
  constructor
  · rintro ⟨z, hz, huse, rfl, hnext⟩
    by_cases hzx : z = x
    · left
      subst hzx
      exact ⟨rfl, by omega⟩
    · right
      have hz' : z ∈ l₁ ++ l₂' := by
        rw [List.mem_append, List.mem_cons] at hz
        rw [List.mem_append]
        tauto
      obtain ⟨hold, huseOld⟩ := (ht.same.iff z).mp ⟨hz', huse⟩
      refine ⟨z, ?_, huseOld, rfl, (ht.same.next z hold huseOld).symm.trans hnext⟩
      rw [List.mem_append] at hold
      rw [List.mem_append, List.mem_cons]
      tauto
  · rintro (⟨rfl, rfl⟩ | ⟨z, hz, huse, rfl, hnext⟩)
    · exact ⟨x, List.mem_append_right _ List.mem_cons_self, ht.used, rfl, by omega⟩
    · have hzx : z ≠ x := by
        rintro rfl
        exact absurd (huse.symm.trans hfree) (by decide)
      have hz' : z ∈ l₁ ++ l₂ := by
        rw [List.mem_append, List.mem_cons] at hz
        rw [List.mem_append]
        tauto
      obtain ⟨hnew, huseNew⟩ := (ht.same.iff z).mpr ⟨hz', huse⟩
      refine ⟨z, ?_, huseNew, rfl, (ht.same.next z hz' huse).trans hnext⟩
      rw [List.mem_append] at hnew
      rw [List.mem_append, List.mem_cons]
      tauto

/-- `lfree` after a block has been used. -/
theorem freePtr_taken {size : Nat} {h' : Heap} {l₂' : List Nat}
    (hlfree : FreePtr h (l₁ ++ x :: l₂)) (ht : Taken h l₁ x l₂ size h' l₂')
    (hne : x ≠ h.lfree) : FreePtr h' (l₁ ++ x :: l₂') := by
  unfold FreePtr
  rw [ht.lfree, ht.heap_end]
  rcases hlfree with ⟨hend, -⟩ | ⟨hmem, hfree⟩
  · exact Or.inl ⟨hend, x, List.mem_append_right _ List.mem_cons_self, ht.used⟩
  · have hold : h.lfree ∈ l₁ ++ l₂ := by
      rw [List.mem_append, List.mem_cons] at hmem
      rw [List.mem_append]
      tauto
    obtain ⟨hnew, hfree'⟩ := ht.free _ hold hfree
    refine Or.inr ⟨?_, hfree'⟩
    rw [List.mem_append] at hnew
    rw [List.mem_append, List.mem_cons]
    tauto

theorem lowest_taken {size : Nat} {h' : Heap} {l₂' : List Nat} (hfree : h.used x = false)
    (hlow : Lowest h (l₁ ++ x :: l₂)) (ht : Taken h l₁ x l₂ size h' l₂') :
    Lowest h' (l₁ ++ x :: l₂') := by
  have hlowX := hlow x (List.mem_append_right _ List.mem_cons_self) hfree
  intro z hz hzfree
  rw [ht.lfree]
  have hzx : z ≠ x := by
    rintro rfl
    exact absurd (ht.used.symm.trans hzfree) (by decide)
  have hz' : z ∈ l₁ ++ l₂' := by
    rw [List.mem_append, List.mem_cons] at hz
    rw [List.mem_append]
    tauto
  rcases ht.behind z hz' hzfree with ⟨hold, hfreeOld⟩ | hlt
  · refine hlow z ?_ hfreeOld
    rw [List.mem_append] at hold
    rw [List.mem_append, List.mem_cons]
    tauto
  · omega

theorem Shape.setLfree (hshape : Shape h blocks) (lfree : Nat) :
    Shape { h with lfree := lfree } blocks :=
  ⟨hshape.tiled, hshape.aligned, hshape.inside, hshape.magic, hshape.used_end, hshape.used_mem⟩

theorem freePtr_lowest {h : Heap} (hshape : Shape h (l₁ ++ x :: l₂)) (hused : h.used x = true) :
    FreePtr { h with lfree := h.lowest h.heap_end x } (l₁ ++ x :: l₂) := by
  have hseg : Seg sizeofStructMem h.next x (x :: l₂) h.heap_end :=
    ⟨rfl, hshape.tiled.seg_split.2⟩
  obtain ⟨hwhere, -⟩ := lowest_spec hseg (Nat.le_add_right _ _)
  rcases hwhere with hend | ⟨hmem, hfree⟩
  · exact Or.inl ⟨hend, x, List.mem_append_right _ List.mem_cons_self, hused⟩
  · exact Or.inr ⟨List.mem_append_right _ hmem, hfree⟩

/-- A search begins at a block, or at the end. -/
theorem Inv.search_from (hinv : Inv h blocks) :
    ∃ l, l ⊆ blocks ∧ Seg sizeofStructMem h.next h.lfree l h.heap_end ∧
      ∀ z ∈ blocks, h.lfree ≤ z → z ∈ l := by
  have htiled := hinv.shape.tiled
  rcases hinv.lfree with ⟨hend, -⟩ | ⟨hmem, -⟩
  · refine ⟨[], List.nil_subset _, hend, fun z hz hle => ?_⟩
    have hlt := htiled.lt_last (by decide) hz
    omega
  · obtain ⟨l₁, l₂, rfl⟩ := List.append_of_mem hmem
    refine ⟨_, List.subset_append_right _ _, ⟨rfl, htiled.seg_split.2⟩, fun z hz hle => ?_⟩
    rcases List.mem_append.mp hz with hz | hz
    · have hlt := htiled.lt_of_mem_front (by decide) hz
      omega
    · exact hz

theorem lowest_lowest {size : Nat} {h' : Heap} {l₂' : List Nat} (hfree : h.used x = false)
    (heq : x = h.lfree) (hlow : Lowest h (l₁ ++ x :: l₂)) (ht : Taken h l₁ x l₂ size h' l₂') :
    Lowest { h' with lfree := h'.lowest h'.heap_end x } (l₁ ++ x :: l₂') := by
  have hseg : Seg sizeofStructMem h'.next x (x :: l₂') h'.heap_end :=
    ⟨rfl, ht.shape.tiled.seg_split.2⟩
  obtain ⟨-, hleast⟩ := lowest_spec hseg (Nat.le_add_right h'.heap_end x)
  intro z hz hzfree
  rcases List.mem_append.mp hz with hfront | hz
  · have hlt := ht.shape.tiled.lt_of_mem_front (by decide) hfront
    have hle := lowest_taken hfree hlow ht z hz hzfree
    rw [ht.lfree, ← heq] at hle
    omega
  · exact hleast z hz hzfree

/-- `lua_malloc` -/
theorem lua_malloc_spec (hinv : Inv h blocks) (size : Nat) :
    (h.lua_malloc size = (h, none)) ∨
      ∃ h' p c blocks', h.lua_malloc size = (h', some p) ∧
        Lent h blocks (rtAlign size) h' p c blocks' := by
  unfold Heap.lua_malloc
  split
  · exact Or.inl rfl
  · dsimp only
    split
    · exact Or.inl rfl
    · next hroom =>
      generalize hwant : max (rtAlign size) minSizeAligned = want
      have hwantMod : want % 4 = 0 := by
        have hmod := rtAlign_mod size
        rw [Nat.max_def] at hwant
        split at hwant
        · rw [← hwant]
          rfl
        · rw [← hwant]
          exact hmod
      cases hsearch : h.search want h.heap_end h.lfree with
      | none => exact Or.inl rfl
      | some x =>
        right
        obtain ⟨l, hsub, hseg, -⟩ := hinv.search_from
        obtain ⟨hmem, hfree, hfit, -⟩ := search_eq_some hseg hsearch
        obtain ⟨l₁, l₂, rfl⟩ := List.append_of_mem (hsub hmem)
        obtain ⟨l₂', ht⟩ := taken_of_fit hinv hfree hwantMod hfit
        have hle : rtAlign size ≤ want := by
          rw [← hwant]
          exact Nat.le_max_left _ _
        have hlive := live_taken hfree ht
        have hroomX := ht.room
        have hbounds := ht.shape.tiled.seg.bounds (x := x) (by simp)
        -- the heap with `lfree` where it is in the end
        obtain ⟨h', hret, hinv', hnext', hused', hend', hdata', hlow'⟩ : ∃ h',
            (if x = h.lfree then
              { h.take want x with
                lfree := (h.take want x).lowest (h.take want x).heap_end x }
              else h.take want x) = h' ∧ Inv h' (l₁ ++ x :: l₂') ∧
              h'.next = (h.take want x).next ∧ h'.used = (h.take want x).used ∧
              h'.heap_end = h.heap_end ∧ h'.data = h.data ∧
              (Lowest h (l₁ ++ x :: l₂) → Lowest h' (l₁ ++ x :: l₂')) := by
          split
          · next heq =>
            exact ⟨_, rfl,
              ⟨ht.shape.setLfree _, ht.coalesced, freePtr_lowest ht.shape ht.used⟩, rfl, rfl,
              ht.heap_end, ht.data, fun hlow => lowest_lowest hfree heq hlow ht⟩
          · next hne =>
            exact ⟨_, rfl, ⟨ht.shape, ht.coalesced, freePtr_taken hinv.lfree ht hne⟩, rfl, rfl,
              ht.heap_end, ht.data, fun hlow => lowest_taken hfree hlow ht⟩
        have hlive' : ∀ q d, Live h' (l₁ ++ x :: l₂') q d ↔
            Live (h.take want x) (l₁ ++ x :: l₂') q d := by
          intro q d
          unfold Live
          rw [hnext', hused']
        refine ⟨h', x + sizeofStructMem, h'.next x - (x + sizeofStructMem), l₁ ++ x :: l₂', ?_,
          { inv := hinv'
            room := by rw [hnext']; omega
            live := fun q d => (hlive' q d).trans (by rw [hnext']; exact hlive q d)
            fresh := fun q d hq => ?_
            data := hdata'
            heap_end := hend'
            lowest := hlow' }⟩
        · dsimp only
          rw [hret]
        · have hnew : Live h' (l₁ ++ x :: l₂') (x + sizeofStructMem)
              (h'.next x - (x + sizeofStructMem)) :=
            (hlive' _ _).mpr ((hlive _ _).mpr (Or.inl ⟨rfl, by rw [hnext']⟩))
          have hold : Live h' (l₁ ++ x :: l₂') q d :=
            (hlive' _ _).mpr ((hlive _ _).mpr (Or.inr hq))
          have hne : x + sizeofStructMem ≠ q := by
            obtain ⟨z, -, huse, rfl, -⟩ := hq
            rintro heq
            obtain rfl : x = z := by omega
            exact absurd (huse.symm.trans hfree) (by decide)
          have hapart := live_apart hinv' hnew hold hne
          exact ⟨hne, by omega⟩

/-! ## lua_free -/

theorem SameUsed.live {h' : Heap} {l l' : List Nat} (hs : SameUsed h h' l l') (q d : Nat) :
    Live h' l' q d ↔ Live h l q d := by
  constructor
  · rintro ⟨z, hz, huse, rfl, hnext⟩
    obtain ⟨hold, huseOld⟩ := (hs.iff z).mp ⟨hz, huse⟩
    exact ⟨z, hold, huseOld, rfl, (hs.next z hold huseOld).symm.trans hnext⟩
  · rintro ⟨z, hz, huse, rfl, hnext⟩
    obtain ⟨hnew, huseNew⟩ := (hs.iff z).mpr ⟨hz, huse⟩
    exact ⟨z, hnew, huseNew, rfl, (hs.next z hz huse).trans hnext⟩

/-- A block that is lent is given back. -/
theorem lua_free_spec (hinv : Inv h blocks) {p c : Nat} (hlive : Live h blocks p c) :
    ∃ h' blocks', h.lua_free (some p) = some h' ∧ Inv h' blocks' ∧
      (∀ q d, Live h' blocks' q d ↔ q ≠ p ∧ Live h blocks q d) ∧ h'.data = h.data ∧
      h'.heap_end = h.heap_end ∧ (Lowest h blocks → Lowest h' blocks') := by
  obtain ⟨halign, -, -⟩ := live_bounds hinv hlive
  obtain ⟨x, hx, huse, rfl, hnext⟩ := hlive
  have hin := hinv.shape.inside x hx
  have hmagic := hinv.shape.magic x hx huse
  obtain ⟨l₁, l₂, rfl⟩ := List.append_of_mem hx
  have hshape := hinv.shape
  let h' : Heap := { h with
    used := Function.update h.used x false
    magic := Function.update h.magic x false
    lfree := if x < h.lfree then x else h.lfree
    used_mem := h.used_mem - (h.next x - x) }
  have hret : h.lua_free (some (x + sizeofStructMem)) = some (h'.plug_holes x) := by
    unfold Heap.lua_free
    dsimp only
    rw [if_neg (by omega), Nat.add_sub_cancel, if_pos ⟨huse, hmagic⟩]
  have hother : ∀ z ∈ l₁ ++ l₂, h'.used z = h.used z :=
    fun z hz => Function.update_of_ne (mem_ne hshape hz) _ _
  have hfree : h'.used x = false := Function.update_self ..
  have hshape' : Shape h' (l₁ ++ x :: l₂) := by
    refine ⟨hshape.tiled, hshape.aligned, hshape.inside, fun z hz huseZ => ?_, ?_, ?_⟩
    · have hzx : z ≠ x := by
        rintro rfl
        exact absurd (huseZ.symm.trans hfree) (by decide)
      refine (Function.update_of_ne hzx _ _).trans (hshape.magic z hz ?_)
      exact (Function.update_of_ne hzx _ _).symm.trans huseZ
    · have hne : h.heap_end ≠ x := by omega
      exact (Function.update_of_ne hne _ _).trans hshape.used_end
    · have hsum : usedBytes h' (l₁ ++ l₂) = usedBytes h (l₁ ++ l₂) :=
        usedBytes_congr hother fun _ _ _ => rfl
      have hused := hshape.used_mem
      rw [usedBytes_append, usedBytes_cons_used huse] at hused
      rw [usedBytes_append, usedBytes_append] at hsum
      rw [usedBytes_append, usedBytes_cons_free hfree]
      show h.used_mem - (h.next x - x) = _
      omega
  obtain ⟨hco₁, hco₂, -, -⟩ := coalesced_iff.mp hinv.coalesced
  have hlfree' : FreePtr h' (l₁ ++ x :: l₂) := by
    right
    show (if x < h.lfree then x else h.lfree) ∈ _ ∧ h'.used (if x < h.lfree then x else h.lfree) = _
    split
    · exact ⟨hx, hfree⟩
    · next hge =>
      rcases hinv.lfree with ⟨hend, -⟩ | ⟨hmem, hfreeOld⟩
      · omega
      · refine ⟨hmem, ?_⟩
        by_cases hxl : h.lfree = x
        · rw [hxl]
          exact hfree
        · exact (Function.update_of_ne hxl _ _).trans hfreeOld
  have hlow' : Lowest h (l₁ ++ x :: l₂) → Lowest h' (l₁ ++ x :: l₂) := by
    intro hlow z hz hzfree
    show (if x < h.lfree then x else h.lfree) ≤ z
    by_cases hzx : z = x
    · split <;> omega
    · have hle := hlow z hz ((Function.update_of_ne hzx _ _).symm.trans hzfree)
      split <;> omega
  obtain ⟨blocks', hinv', hsame, hlow⟩ := plug_holes_spec hshape' hfree
    (hco₁.congr fun z hz => hother z (List.mem_append_left _ hz))
    (hco₂.congr fun z hz => hother z (List.mem_append_right _ hz)) hlfree'
  refine ⟨_, blocks', hret, hinv', fun q d => (hsame.live q d).trans ?_, data_plug_holes,
    heap_end_plug_holes, hlow ∘ hlow'⟩
  constructor
  · rintro ⟨z, hz, huseZ, rfl, hnextZ⟩
    have hzx : z ≠ x := by
      rintro rfl
      exact absurd (huseZ.symm.trans hfree) (by decide)
    exact ⟨by omega, z, hz, (Function.update_of_ne hzx _ _).symm.trans huseZ, rfl, hnextZ⟩
  · rintro ⟨hne, z, hz, huseZ, rfl, hnextZ⟩
    have hzx : z ≠ x := by
      rintro rfl
      exact hne rfl
    exact ⟨z, hz, (Function.update_of_ne hzx _ _).trans huseZ, rfl, hnextZ⟩

/-! ## lua_realloc -/

/-- The end of a block is cut off and becomes free. -/
theorem lua_shrink_spec {size : Nat} (hinv : Inv h (l₁ ++ x :: l₂)) (huse : h.used x = true)
    (hmod : size % 4 = 0)
    (hlarge : x + sizeofStructMem + size + sizeofStructMem + minSizeAligned < h.next x) :
    let y := x + sizeofStructMem + size
    let h' := { h with used_mem := h.used_mem - (h.next x - y) }.cut x y
    ∃ blocks',
      Inv ({ h' with magic := Function.update h'.magic y true }.plug_holes y) blocks' ∧
      ∀ q d, Live ({ h' with magic := Function.update h'.magic y true }.plug_holes y) blocks' q d ↔
        q = x + sizeofStructMem ∧ d = size ∨
          q ≠ x + sizeofStructMem ∧ Live h (l₁ ++ x :: l₂) q d := by
  have h8 : sizeofStructMem = 8 := rfl
  have hmin : minSizeAligned = 8 := rfl
  have hshape := hinv.shape
  have hx : x ∈ l₁ ++ x :: l₂ := List.mem_append_right _ List.mem_cons_self
  have halign := hshape.aligned x hx
  have hbounds := hshape.tiled.seg.bounds hx
  generalize hy : x + sizeofStructMem + size = y at *
  dsimp only
  generalize hcut : ({ ({ h with used_mem := h.used_mem - (h.next x - y) }.cut x y) with
    magic := Function.update ({ h with used_mem := h.used_mem - (h.next x - y) }.cut x y).magic y
      true } : Heap) = h'
  have hused' : h'.used = Function.update h.used y false := by rw [← hcut]; rfl
  have hnext' : h'.next = (h.cut x y).next := by rw [← hcut]; rfl
  have hend' : h'.heap_end = h.heap_end := by rw [← hcut]; rfl
  have hlfree' : h'.lfree = h.lfree := by rw [← hcut]; rfl
  -- the headers of the other blocks
  have hne : ∀ z ∈ l₁ ++ l₂, z ≠ x ∧ z ≠ y := fun z hz =>
    ⟨mem_ne hshape hz, mem_ne_inside hshape hz (by omega) (by omega)⟩
  have hkeep : ∀ z, z ≠ y → h'.used z = h.used z := fun z hz => by
    rw [hused']
    exact Function.update_of_ne hz _ _
  have hnext : ∀ z, z ≠ x → z ≠ y → h'.next z = h.next z := by
    intro z hzx hzy
    rw [hnext']
    exact (Function.update_of_ne hzx _ _).trans (Function.update_of_ne hzy _ _)
  have hnextX : h'.next x = y := by
    rw [hnext']
    exact Function.update_self ..
  have hfreeY : h'.used y = false := by
    rw [hused']
    exact Function.update_self ..
  have huseX : h'.used x = true := (hkeep x (by omega)).trans huse
  have hold : ∀ z, z ∈ l₁ ++ x :: y :: l₂ → z ≠ y → z ∈ l₁ ++ x :: l₂ := by
    intro z hz hzy
    rw [List.mem_append, List.mem_cons, List.mem_cons] at hz
    rw [List.mem_append, List.mem_cons]
    tauto
  have hnew : ∀ z, z ∈ l₁ ++ x :: l₂ → z ∈ l₁ ++ x :: y :: l₂ ∧ z ≠ y := by
    intro z hz
    rw [List.mem_append, List.mem_cons] at hz
    rw [List.mem_append, List.mem_cons, List.mem_cons]
    refine ⟨by tauto, ?_⟩
    rcases hz with hz | rfl | hz
    · exact (hne z (List.mem_append_left _ hz)).2
    · omega
    · exact (hne z (List.mem_append_right _ hz)).2
  have hshape' : Shape h' (l₁ ++ x :: y :: l₂) := by
    refine ⟨?_, fun z hz => ?_, fun z hz => ?_, fun z hz huseZ => ?_, ?_, ?_⟩
    · have htiled := tiled_cut hshape (y := y) (by omega) (by omega)
      rw [← hcut]
      exact htiled
    · exact (cut_places hshape (by omega) (by omega) hz).1
    · rw [hend']
      exact (cut_places hshape (by omega) (by omega) hz).2
    · have hzy : z ≠ y := by
        rintro rfl
        exact absurd (hfreeY.symm.trans huseZ) (by decide)
      have hmagic := hshape.magic z (hold z hz hzy) ((hkeep z hzy).symm.trans huseZ)
      rw [← hcut]
      exact (Function.update_of_ne hzy _ _).trans hmagic
    · rw [hend']
      exact (hkeep _ (by omega)).trans hshape.used_end
    · have hsum := @usedBytes_congr h (l₁ ++ l₂) h' (fun z hz => hkeep z (hne z hz).2)
        (fun z hz _ => hnext z (hne z hz).1 (hne z hz).2)
      have hused := hshape.used_mem
      rw [usedBytes_append, usedBytes_cons_used huse] at hused
      rw [usedBytes_append, usedBytes_append] at hsum
      rw [usedBytes_append, usedBytes_cons_used huseX, usedBytes_cons_free hfreeY, hnextX]
      have hmem : h'.used_mem = h.used_mem - (h.next x - y) := by rw [← hcut]; rfl
      omega
  obtain ⟨hco₁, hco₂, -, -⟩ := coalesced_iff.mp hinv.coalesced
  have hfront : Coalesced h'.used (l₁ ++ [x]) := by
    refine coalesced_iff.mpr ⟨hco₁.congr fun z hz => hkeep z ?_, List.IsChain.nil,
      fun w _ => Or.inr huseX, fun z hz => absurd hz (by simp)⟩
    exact (hne z (List.mem_append_left _ hz)).2
  have hptr : FreePtr h' (l₁ ++ x :: y :: l₂) := by
    unfold FreePtr
    rw [hlfree', hend']
    rcases hinv.lfree with ⟨hend, -⟩ | ⟨hmem, hfree⟩
    · exact Or.inl ⟨hend, x, by simp, huseX⟩
    · obtain ⟨hmem', hzy⟩ := hnew _ hmem
      exact Or.inr ⟨hmem', (hkeep _ hzy).trans hfree⟩
  have hlist : l₁ ++ x :: y :: l₂ = l₁ ++ [x] ++ y :: l₂ := by
    rw [List.append_assoc]
    rfl
  rw [hlist] at hshape' hptr
  obtain ⟨blocks', hinv', hsame, -⟩ := plug_holes_spec hshape' hfreeY hfront
    (hco₂.congr fun z hz => hkeep z (hne z (List.mem_append_right _ hz)).2) hptr
  refine ⟨blocks', hinv', fun q d => (hsame.live q d).trans ?_⟩
  rw [← hlist]
  constructor
  · rintro ⟨z, hz, huseZ, rfl, hnextZ⟩
    have hzy : z ≠ y := by
      rintro rfl
      exact absurd (hfreeY.symm.trans huseZ) (by decide)
    by_cases hzx : z = x
    · subst hzx
      exact Or.inl ⟨rfl, by omega⟩
    · refine Or.inr ⟨by omega, z, hold z hz hzy, (hkeep z hzy).symm.trans huseZ, rfl, ?_⟩
      exact (hnext z hzx hzy).symm.trans hnextZ
  · rintro (⟨rfl, rfl⟩ | ⟨hqx, z, hz, huseZ, rfl, hnextZ⟩)
    · exact ⟨x, by simp, huseX, rfl, by omega⟩
    · obtain ⟨hz', hzy⟩ := hnew z hz
      have hzx : z ≠ x := by
        rintro rfl
        exact hqx rfl
      exact ⟨z, hz', (hkeep z hzy).trans huseZ, rfl, (hnext z hzx hzy).trans hnextZ⟩

theorem rtAlign_rtAlign {size : Nat} (hsize : rtAlign size < 2 ^ 24) :
    rtAlign (rtAlign size) = rtAlign size := by
  unfold rtAlign at *
  omega

/-! ## Every call -/

theorem Inv.setData (hinv : Inv h blocks) (data : Nat → UInt8) :
    Inv { h with data := data } blocks :=
  ⟨⟨hinv.shape.tiled, hinv.shape.aligned, hinv.shape.inside, hinv.shape.magic,
    hinv.shape.used_end, hinv.shape.used_mem⟩, hinv.coalesced, hinv.lfree⟩

theorem Lent.alloc_eq {size p c : Nat} {h' : Heap} {blocks' : List Nat}
    (hlent : Lent h blocks size h' p c blocks') :
    h'.alloc blocks' = (h.alloc blocks).lend p c :=
  alloc_ext hlent.live hlent.data

theorem rtAlign_le_of_malloc {newsize : Nat} (hle : rtAlign newsize ≤ h.mem_size_aligned) :
    rtAlign (rtAlign newsize) = rtAlign newsize := by
  have hsmall := h.small
  exact rtAlign_rtAlign (by omega)

/-- `lua_realloc` of a block that is lent. -/
theorem lua_realloc_spec (hinv : Inv h blocks) {p c : Nat} (hlive : Live h blocks p c)
    (newsize : Nat) :
    ∃ h' r blocks', h.lua_realloc (some p) newsize = some (h', r) ∧ Inv h' blocks' ∧
      h'.heap_end = h.heap_end ∧
      (¬ h.Shrinks (.realloc (some p) newsize) → Lowest h blocks → Lowest h' blocks') ∧
      Alloc.Step (h.alloc blocks) (.realloc (some p) newsize) r (h'.alloc blocks') := by
  have h8 : sizeofStructMem = 8 := rfl
  have hmin : minSizeAligned = 8 := rfl
  have hrefused : Alloc.Step (h.alloc blocks) (.realloc (some p) newsize) none (h.alloc blocks) :=
    .refused _ _ fun q => Call.noConfusion
  unfold Heap.lua_realloc
  dsimp only
  split
  · exact ⟨h, none, blocks, rfl, hinv, rfl, fun _ => id, hrefused⟩
  next hroom =>
  have hsame := rtAlign_le_of_malloc (Nat.not_lt.mp hroom)
  generalize hwant : rtAlign newsize = want at *
  have hwantMod : want % 4 = 0 := by
    rw [← hwant]
    exact rtAlign_mod newsize
  have hlive' := hlive
  obtain ⟨x, hx, huse, rfl, hnext⟩ := hlive'
  have hin := hinv.shape.inside x hx
  rw [if_neg (by omega), Nat.add_sub_cancel, show h.next x - x - sizeofStructMem = c by omega]
  split
  -- the size stays
  · next heq =>
    subst heq
    refine ⟨h, some _, blocks, rfl, hinv, rfl, fun _ => id, ?_⟩
    have hkeep : h.alloc blocks =
        ((h.alloc blocks).takeBack (x + sizeofStructMem)).lend (x + sizeofStructMem) c := by
      refine alloc_ext (fun q d => ?_) rfl
      show Live h blocks q d ↔
        q = x + sizeofStructMem ∧ d = c ∨ q ≠ x + sizeofStructMem ∧ Live h blocks q d
      constructor
      · intro hq
        by_cases hqx : q = x + sizeofStructMem
        · obtain ⟨z, -, -, rfl, hnextZ⟩ := hq
          obtain rfl : z = x := by omega
          exact Or.inl ⟨rfl, by omega⟩
        · exact Or.inr ⟨hqx, hq⟩
      · rintro (⟨rfl, rfl⟩ | ⟨-, hq⟩)
        · exact hlive
        · exact hq
    have hstep : Alloc.Step (h.alloc blocks) (.realloc (some (x + sizeofStructMem)) newsize)
        (some (x + sizeofStructMem))
        (((h.alloc blocks).takeBack (x + sizeofStructMem)).lend (x + sizeofStructMem) c) :=
      .reallocKeep hlive (Nat.le_of_eq hwant) (Nat.le_refl c)
    rw [← hkeep] at hstep
    exact hstep
  · split
    -- the end of the block is cut off
    · next hlarge =>
      obtain ⟨l₁, l₂, rfl⟩ := List.append_of_mem hx
      obtain ⟨blocks', hinv', hlive'⟩ := lua_shrink_spec hinv huse hwantMod (by omega)
      rw [show h.next x - (x + sizeofStructMem + want) = c - want by omega] at hinv' hlive'
      refine ⟨_, _, blocks', rfl, hinv', heap_end_plug_holes, fun hnot => ?_, ?_⟩
      · refine absurd ?_ hnot
        unfold Heap.Shrinks
        dsimp only
        rw [Nat.add_sub_cancel]
        omega
      have halloc := alloc_ext
        (a := Heap.alloc _ blocks')
        (b := ((h.alloc (l₁ ++ x :: l₂)).takeBack (x + sizeofStructMem)).lend
          (x + sizeofStructMem) want) hlive' data_plug_holes
      rw [halloc]
      exact .reallocKeep hlive (Nat.le_of_eq hwant) (by omega)
    -- a new block
    · rcases lua_malloc_spec hinv want with hnone | ⟨h₁, q, d, blocks₁, hret, hlent⟩
      · rw [hnone]
        exact ⟨h, none, blocks, rfl, hinv, rfl, fun _ => id, hrefused⟩
      · rw [hret]
        dsimp only
        have hcopy : overlay h₁.data q (window h₁.data (x + sizeofStructMem) (min c want)) =
            overlay h.data q (window h.data (x + sizeofStructMem) (min c want)) := by
          rw [hlent.data]
        generalize overlay h₁.data q (window h₁.data (x + sizeofStructMem) (min c want)) = data at *
        have hinv₁ := hlent.inv.setData data
        have hold : Live { h₁ with data := data } blocks₁ (x + sizeofStructMem) c :=
          (hlent.live _ _).mpr (Or.inr hlive)
        obtain ⟨h₂, blocks₂, hfree, hinv₂, hlive₂, hdata₂, hend₂, hlow₂⟩ := lua_free_spec hinv₁ hold
        rw [hfree]
        refine ⟨h₂, some q, blocks₂, rfl, hinv₂, hend₂.trans hlent.heap_end,
          fun _ hlow => hlow₂ (hlent.lowest hlow), ?_⟩
        have halloc : h₂.alloc blocks₂ =
            { ((h.alloc blocks).lend q d).takeBack (x + sizeofStructMem) with
              data := overlay h.data q (window h.data (x + sizeofStructMem) (min c want)) } := by
          refine alloc_ext (fun r e => ?_) ?_
          · exact (hlive₂ r e).trans (and_congr_right fun _ => hlent.live r e)
          · exact hdata₂.trans hcopy
        rw [halloc, ← hwant]
        refine .reallocMove hlive hlent.fresh ?_
        rw [hwant, ← hsame]
        exact hlent.room

/-- A call that may be made fails no assertion, and the heap does what an allocator may do. -/
theorem call_refines (hinv : Inv h blocks) {call : Call} (hcall : (h.alloc blocks).Allows call) :
    ∃ h' r blocks', h.call call = some (h', r) ∧ Inv h' blocks' ∧ h'.heap_end = h.heap_end ∧
      (¬ h.Shrinks call → Lowest h blocks → Lowest h' blocks') ∧
      Alloc.Step (h.alloc blocks) call r (h'.alloc blocks') := by
  cases call with
  | malloc size =>
    unfold Heap.call
    dsimp only
    rcases lua_malloc_spec hinv size with hnone | ⟨h', p, c, blocks', hret, hlent⟩
    · rw [hnone]
      exact ⟨h, none, blocks, rfl, hinv, rfl, fun _ => id, .refused _ _ fun q => Call.noConfusion⟩
    · rw [hret]
      refine ⟨h', some p, blocks', rfl, hlent.inv, hlent.heap_end, fun _ => hlent.lowest, ?_⟩
      rw [hlent.alloc_eq]
      exact .malloc hlent.fresh hlent.room
  | calloc count size =>
    unfold Heap.call Heap.lua_calloc
    dsimp only
    rcases lua_malloc_spec hinv (count * size % 2 ^ 32) with
      hnone | ⟨h', p, c, blocks', hret, hlent⟩
    · rw [hnone]
      exact ⟨h, none, blocks, rfl, hinv, rfl, fun _ => id, .refused _ _ fun q => Call.noConfusion⟩
    · rw [hret]
      dsimp only
      have hbytes : count * size % 2 ^ 32 ≤ c := Nat.le_trans (le_rtAlign hcall) hlent.room
      obtain ⟨x, -, -, rfl, hnext⟩ := (hlent.live p c).mpr (Or.inl ⟨rfl, rfl⟩)
      rw [Nat.add_sub_cancel, hnext, if_pos (by omega)]
      refine ⟨_, _, blocks', rfl, hlent.inv.setData _, hlent.heap_end, fun _ => hlent.lowest, ?_⟩
      generalize x + sizeofStructMem = p at *
      have halloc : Heap.alloc { h' with
          data := overlay h'.data p (List.replicate (count * size % 2 ^ 32) 0) } blocks' =
          { (h.alloc blocks).lend p c with
            data := overlay h.data p (List.replicate (count * size % 2 ^ 32) 0) } := by
        refine alloc_ext hlent.live ?_
        show overlay h'.data _ _ = _
        rw [hlent.data]
      rw [halloc]
      exact .calloc hlent.fresh hbytes
  | free p =>
    cases p with
    | none =>
      exact ⟨h, none, blocks, rfl, hinv, rfl, fun _ => id, .refused _ _ fun q hq => by cases hq⟩
    | some p =>
      obtain ⟨c, hlive⟩ := hcall
      obtain ⟨h', blocks', hret, hinv', hlive', hdata', hend', hlow'⟩ := lua_free_spec hinv hlive
      unfold Heap.call
      dsimp only
      rw [hret]
      refine ⟨h', none, blocks', rfl, hinv', hend', fun _ => hlow', ?_⟩
      have halloc : h'.alloc blocks' = (h.alloc blocks).takeBack p := alloc_ext hlive' hdata'
      rw [halloc]
      exact .free hlive
  | realloc p newsize =>
    cases p with
    | none =>
      unfold Heap.call Heap.lua_realloc
      dsimp only
      split
      · exact ⟨h, none, blocks, rfl, hinv, rfl, fun _ => id, .refused _ _ fun q => Call.noConfusion⟩
      · next hroom =>
        have hsame := rtAlign_le_of_malloc (Nat.not_lt.mp hroom)
        rcases lua_malloc_spec hinv (rtAlign newsize) with
          hnone | ⟨h', p, c, blocks', hret, hlent⟩
        · rw [hnone]
          exact ⟨h, none, blocks, rfl, hinv, rfl, fun _ => id, .refused _ _ fun q => Call.noConfusion⟩
        · rw [hret]
          refine ⟨h', some p, blocks', rfl, hlent.inv, hlent.heap_end, fun _ => hlent.lowest, ?_⟩
          rw [hlent.alloc_eq]
          refine .reallocNull hlent.fresh ?_
          rw [← hsame]
          exact hlent.room
    | some p =>
      obtain ⟨c, hlive⟩ := hcall
      exact lua_realloc_spec hinv hlive newsize

end K64Gateway.Lua
