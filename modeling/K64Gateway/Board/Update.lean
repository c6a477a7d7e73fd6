import Mathlib
import K64Gateway.Board.RtCrc32
import K64Gateway.Lib.CString
import K64Gateway.Lib.FileImage
import K64Gateway.Lib.LittleEndian

/-
  The update image of `board/update.c`: what one pass of the check and of the installation does
  with the pack at the read position.
-/

namespace K64Gateway.Update

open CString FileImage LittleEndian RtCrc32

/-! ## Packs -/

/-- `S_IMG_PACK` -/
structure ImgPack where
  szPath : List UInt8
  szDesc : List UInt8
  ulLength : UInt32
  ulCRC32 : UInt32

/-- `sizeof(S_IMG_PACK)` -/
def imgPackSize : Nat := 392

/-- The bytes of a header in the fields of the structure. -/
def imgPack (hdr : List UInt8) : ImgPack :=
  ⟨slice hdr 0 128, slice hdr 128 256, word32 (slice hdr 384 4), word32 (slice hdr 388 4)⟩

/-- `IMG_FIRMWARE_PATH` -/
def imgFirmwarePath : List UInt8 := chars "#-firm-#-ware-#".toList

/-- `strcmp(IMG_FIRMWARE_PATH, szPath) == 0` -/
def ImgPack.isFirmware (img : ImgPack) : Bool :=
  img.szPath.take (imgFirmwarePath.length + 1) = imgFirmwarePath ++ [0]

def imgMagicNum1 : UInt32 := 0x526F2678
def imgMagicNum2 : UInt32 := 0x1B5C4DEE
def imgMagicNum3 : UInt32 := 0x67FAB5CD

/-- The three numbers in front of the packs. -/
def magicsRight (file : List UInt8) : Bool :=
  word32 (slice file 0 4) = imgMagicNum1 ∧ word32 (slice file 4 4) = imgMagicNum2 ∧
    word32 (slice file 8 4) = imgMagicNum3

/-! ## Reading -/

/-- `int remain = ulLength`, as far as a loop `while (remain > 0)` counts. -/
def remainOf (ulLength : UInt32) : Nat :=
  if ulLength.toNat < 2 ^ 31 then ulLength.toNat else 0

/-- `lseek(fd, ulLength, SEEK_CUR)` on a file that is open for reading: an offset that is negative
    as a number of 32 bits is refused, and one behind the end is cut. -/
def lseekCur (file : List UInt8) (pos : Nat) (ulLength : UInt32) : Nat :=
  let offset := (ulLength + UInt32.ofNat pos).toNat
  if offset < 2 ^ 31 then min offset file.length else pos

/-! ## `__update_check` -/

/-- What one pass of a loop over the packs comes to: the loop is left, or goes on. -/
inductive Turn (σ ρ : Type) where
  | leaves (ret : ρ)
  | goesOn (st : σ)

/-- The read position, and how many times memory was asked for. -/
structure Walk where
  pos : Nat
  mallocs : Nat
deriving DecidableEq

/-- One pass of the loop of `__update_check`. It is left by a break (`true`) or to `__end`. -/
def checkTurn (file : List UInt8) (malloc : Nat → Bool) (w : Walk) : Turn Walk Bool :=
  let hdr := slice file w.pos imgPackSize
  if imgPackSize ≤ hdr.length then
    let img := imgPack hdr
    let pos := w.pos + imgPackSize
    if img.isFirmware then .goesOn ⟨lseekCur file pos img.ulLength, w.mallocs⟩
    else if malloc w.mallocs then
      let remain := remainOf img.ulLength
      let (pos, crc) := readBlocks 4096 (fun _ => file) ulRTCrc32 remain pos remain 0
      if crc ≠ img.ulCRC32 then .leaves false else .goesOn ⟨pos, w.mallocs + 1⟩
    else .leaves true
  else .leaves true

def checkLoop (file : List UInt8) (malloc : Nat → Bool) : Nat → Walk → Option Bool
  | 0, _ => none
  | fuel + 1, w =>
      match checkTurn file malloc w with
      | .leaves ret => some ret
      | .goesOn w => checkLoop file malloc fuel w

/-- The files and the directories by what the paths stand for. -/
structure Fs (κ : Type) where
  files : κ → Option (List UInt8)
  dirs : κ → Bool

section
variable {κ : Type} [DecidableEq κ]

def Fs.mkdir (fs : Fs κ) (p : κ) : Fs κ := { fs with dirs := Function.update fs.dirs p true }

def Fs.unlink (fs : Fs κ) (p : κ) : Fs κ := { fs with files := Function.update fs.files p none }

/-- `open` with `O_CREAT | O_TRUNC` -/
def Fs.openTrunc (fs : Fs κ) (p : κ) : Fs κ :=
  { fs with files := Function.update fs.files p (some []) }

/-- `write` at the end of a file that is open. -/
def Fs.append (fs : Fs κ) (p : κ) (block : List UInt8) : Fs κ :=
  { fs with files := Function.update fs.files p ((fs.files p).map (· ++ block)) }

variable (resolve : List UInt8 → κ)

/-- `create_dir` -/
def createDir (fs : Fs κ) (path : List UInt8) : Fs κ :=
  (List.range path.length).foldl
    (fun fs i =>
      if path.getD i 0 = 47 ∧ 0 < i then
        let dirPath := resolve (path.take i)
        if (fs.files dirPath).isSome ∨ fs.dirs dirPath then fs else fs.mkdir dirPath
      else fs) fs

/-- The loop of `__file_crc`. -/
def fileCrcLoop (file : List UInt8) : Nat → Nat → UInt32 → UInt32
  | 0, _, crc => crc
  | fuel + 1, pos, crc =>
      let buffer := slice file pos 4096
      if 0 < buffer.length then fileCrcLoop file fuel (pos + buffer.length) (ulRTCrc32 crc buffer)
      else crc

/-- `__file_crc` -/
def fileCrc (file : Option (List UInt8)) : UInt32 :=
  match file with
  | some file => fileCrcLoop file (file.length + 1) 0 0
  | none => 0

/-- The path of a pack, as the file functions read it. -/
def ImgPack.path (img : ImgPack) : List UInt8 := cstr img.szPath

/-- The bytes at the path of the image. -/
def Fs.image (fs : Fs κ) (src : κ) : List UInt8 := (fs.files src).getD []

/-- One pass of the loop of `__update_do`, with the image at `src`. -/
def doTurn (src : κ) (st : Nat × Fs κ) : Turn (Nat × Fs κ) (Fs κ) :=
  let (pos, fs) := st
  let hdr := slice (fs.image src) pos imgPackSize
  if imgPackSize ≤ hdr.length then
    let img := imgPack hdr
    let pos := pos + imgPackSize
    if img.isFirmware then .goesOn (lseekCur (fs.image src) pos img.ulLength, fs)
    else
      let dst := resolve img.path
      if fileCrc (fs.files dst) = img.ulCRC32 then
        .goesOn (lseekCur (fs.image src) pos img.ulLength, fs)
      else
        let remain := remainOf img.ulLength
        let fs := (createDir resolve fs img.path).openTrunc dst
        .goesOn (readBlocks 512 (fun fs => fs.image src) (fun fs => fs.append dst) remain pos remain fs)
  else .leaves fs

def doLoop (src : κ) : Nat → Nat × Fs κ → Option (Fs κ)
  | 0, _ => none
  | fuel + 1, st =>
      match doTurn resolve src st with
      | .leaves fs => some fs
      | .goesOn st => doLoop src fuel st

/-- `__update_do`: what it returns, and the file system then. -/
def updateDo (fuel : Nat) (fs : Fs κ) (src : κ) : Option (Bool × Fs κ) :=
  match fs.files src with
  | some bytes =>
      if 12 + imgPackSize < bytes.length then
        if magicsRight bytes then
          (doLoop resolve src fuel (12, fs)).map fun fs => (true, fs.unlink src)
        else some (true, fs.unlink src)
      else some (false, fs.unlink src)
  | none => some (false, fs.unlink src)

end

end K64Gateway.Update
