import Mathlib
import K64Gateway.Lib.Tiling
import K64Gateway.Lib.Window

/-
  The memory of the Lua scripts, `board/lua/lua_mem.c`: a heap that is cut into blocks. The header of
  a block tells where the next block and the one before it begin and whether the block is used, and
  `lfree` points to a free block from which on a search begins.

  Addresses count from `heap_ptr`, and the headers stand apart from the bytes behind them: no
  address is both, as the blocks do not overlap.
-/

namespace K64Gateway.Lua

open Tiling Window

/-! ## The heap -/

/-- `SIZEOF_STRUCT_MEM` -/
abbrev sizeofStructMem : Nat := 8

/-- `MIN_SIZE_ALIGNED`, and `MIN_SIZE`, which is the same. -/
abbrev minSizeAligned : Nat := 8

/-- `RT_ALIGN` to four bytes; `rt_size_t` has 32 bits. -/
def rtAlign (size : Nat) : Nat := (size + 3) % 2 ^ 32 / 4 * 4

/-- The variables and the headers. `next` and `prev` have 24 bits. -/
structure Heap where
  mem_size_aligned : Nat
  next : Nat → Nat
  prev : Nat → Nat
  used : Nat → Bool
  magic : Nat → Bool
  lfree : Nat
  used_mem : Nat
  max_mem : Nat
  data : Nat → UInt8
  aligned : mem_size_aligned % 4 = 0
  room : minSizeAligned ≤ mem_size_aligned
  small : mem_size_aligned + sizeofStructMem < 2 ^ 24

/-- `heap_end` -/
def Heap.heap_end (h : Heap) : Nat := h.mem_size_aligned + sizeofStructMem

/-- `lua_system_heap_init`. Everything that is not written here is as it lies in the memory `h`. -/
def Heap.lua_system_heap_init (h : Heap) : Heap :=
  { h with
    next := Function.update (Function.update h.next 0 h.heap_end) h.heap_end h.heap_end
    prev := Function.update (Function.update h.prev 0 0) h.heap_end h.heap_end
    used := Function.update (Function.update h.used 0 false) h.heap_end true
    magic := Function.update (Function.update h.magic 0 true) h.heap_end true
    lfree := 0 }

/-- The block joins the next one. -/
def Heap.join (h : Heap) (mem nmem : Nat) : Heap :=
  { h with
    lfree := if h.lfree = nmem then mem else h.lfree
    next := Function.update h.next mem (h.next nmem)
    prev := Function.update h.prev (h.next nmem) mem }

/-- The first half of `plug_holes`. -/
def Heap.joinNext (h : Heap) (mem : Nat) : Heap :=
  let nmem := h.next mem
  if mem ≠ nmem ∧ h.used nmem = false ∧ nmem ≠ h.heap_end then h.join mem nmem else h

/-- The second half of `plug_holes`. -/
def Heap.joinPrev (h : Heap) (mem : Nat) : Heap :=
  let pmem := h.prev mem
  if pmem ≠ mem ∧ h.used pmem = false then h.join pmem mem else h

/-- `plug_holes` -/
def Heap.plug_holes (h : Heap) (mem : Nat) : Heap := (h.joinNext mem).joinPrev mem

/-! ## Allocation -/

/-- The loop of `lua_malloc`. -/
def Heap.search (h : Heap) (size : Nat) : Nat → Nat → Option Nat
  | 0, _ => none
  | fuel + 1, ptr =>
    if ptr < h.mem_size_aligned - size then
      if h.used ptr = false ∧ size ≤ h.next ptr - (ptr + sizeofStructMem) then some ptr
      else h.search size fuel (h.next ptr)
    else none

/-- The block after `ptr` is cut off at `ptr2`; the end of the heap has no use for its `prev`. -/
def Heap.cut (h : Heap) (ptr ptr2 : Nat) : Heap :=
  let prev := Function.update h.prev ptr2 ptr
  { h with
    used := Function.update h.used ptr2 false
    next := Function.update (Function.update h.next ptr2 (h.next ptr)) ptr ptr2
    prev := if h.next ptr ≠ h.heap_end then Function.update prev (h.next ptr) ptr2 else prev }

/-- `used_mem += n` -/
def Heap.count (h : Heap) (n : Nat) : Heap :=
  { h with used_mem := h.used_mem + n, max_mem := max h.max_mem (h.used_mem + n) }

/-- The block is used, with its rest cut off where it has room for a block. -/
def Heap.take (h : Heap) (size ptr : Nat) : Heap :=
  let h :=
    if size + sizeofStructMem + minSizeAligned ≤ h.next ptr - (ptr + sizeofStructMem) then
      (h.cut ptr (ptr + sizeofStructMem + size)).count (size + sizeofStructMem)
    else h.count (h.next ptr - ptr)
  { h with
    used := Function.update h.used ptr true
    magic := Function.update h.magic ptr true }

/-- The loop that looks for the next free block. -/
def Heap.lowest (h : Heap) : Nat → Nat → Nat
  | 0, ptr => ptr
  | fuel + 1, ptr =>
    if h.used ptr = true ∧ ptr ≠ h.heap_end then h.lowest fuel (h.next ptr) else ptr

/-- `lua_malloc` -/
def Heap.lua_malloc (h : Heap) (size : Nat) : Heap × Option Nat :=
  if size = 0 then (h, none)
  else
    let size := rtAlign size
    if h.mem_size_aligned < size then (h, none)
    else
      let size := max size minSizeAligned
      match h.search size h.heap_end h.lfree with
      | none => (h, none)
      | some ptr =>
        let h' := h.take size ptr
        let h' := if ptr = h.lfree then { h' with lfree := h'.lowest h'.heap_end ptr } else h'
        (h', some (ptr + sizeofStructMem))

/-- `lua_calloc`; the product has 32 bits. None is a write behind the block. -/
def Heap.lua_calloc (h : Heap) (count size : Nat) : Option (Heap × Option Nat) :=
  let bytes := count * size % 2 ^ 32
  match h.lua_malloc bytes with
  | (h, none) => some (h, none)
  | (h, some p) =>
    if p + bytes ≤ h.next (p - sizeofStructMem) then
      some ({ h with data := overlay h.data p (List.replicate bytes 0) }, some p)
    else none

/-! ## Release -/

/-- `lua_free`; none is an assertion that fails. -/
def Heap.lua_free (h : Heap) : Option Nat → Option Heap
  | none => some h
  | some rmem =>
    if rmem % 4 ≠ 0 ∨ h.heap_end ≤ rmem then none
    else
      let mem := rmem - sizeofStructMem
      if h.used mem = true ∧ h.magic mem = true then
        let h := { h with
          used := Function.update h.used mem false
          magic := Function.update h.magic mem false
          lfree := if mem < h.lfree then mem else h.lfree
          used_mem := h.used_mem - (h.next mem - mem) }
        some (h.plug_holes mem)
      else none

/-- `lua_realloc`; none is an assertion that fails. -/
def Heap.lua_realloc (h : Heap) (rmem : Option Nat) (newsize : Nat) : Option (Heap × Option Nat) :=
  let newsize := rtAlign newsize
  if h.mem_size_aligned < newsize then some (h, none)
  else
    match rmem with
    | none => some (h.lua_malloc newsize)
    | some rmem =>
      if h.heap_end ≤ rmem then some (h, some rmem)
      else
        let ptr := rmem - sizeofStructMem
        let size := h.next ptr - ptr - sizeofStructMem
        if size = newsize then some (h, some rmem)
        else if newsize + sizeofStructMem + minSizeAligned < size then
          let ptr2 := ptr + sizeofStructMem + newsize
          let h := { h with used_mem := h.used_mem - (size - newsize) }.cut ptr ptr2
          let h := { h with magic := Function.update h.magic ptr2 true }
          some (h.plug_holes ptr2, some rmem)
        else
          match h.lua_malloc newsize with
          | (h, none) => some (h, none)
          | (h, some nmem) =>
            let h := { h with
              data := overlay h.data nmem (window h.data rmem (min size newsize)) }
            (h.lua_free (some rmem)).map fun h => (h, some nmem)

end K64Gateway.Lua
