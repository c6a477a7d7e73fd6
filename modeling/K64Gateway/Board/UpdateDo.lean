import K64Gateway.Board.Update

/-
  `__update_do` on an image of well-formed packs.

  Proved: afterwards the file of each pack holds its bytes and the other files are as before,
  exactly if no pack is for the image itself and none is skipped over a file that differs
  (`updateDo_effect`).
-/

namespace K64Gateway.Update

open CString FileImage LittleEndian RtCrc32

/-! ## Images -/

/-- A pack of an image: a header and the bytes it announces, with a path that is terminated. -/
structure Pack where
  hdr : List UInt8
  data : List UInt8
  length_hdr : hdr.length = imgPackSize
  length_data : data.length = (imgPack hdr).ulLength.toNat
  terminated : (0 : UInt8) ∈ (imgPack hdr).szPath
  crc : (imgPack hdr).isFirmware = false → ulRTCrc32 0 data = (imgPack hdr).ulCRC32

def Pack.img (p : Pack) : ImgPack := imgPack p.hdr

def packBytes (packs : List Pack) : List UInt8 := packs.flatMap fun p => p.hdr ++ p.data

/-- The bytes of an image. -/
def imageBytes (packs : List Pack) : List UInt8 :=
  bytes32 imgMagicNum1 ++ bytes32 imgMagicNum2 ++ bytes32 imgMagicNum3 ++ packBytes packs

/-- The packs that are files. -/
def filesOf (packs : List Pack) : List Pack := packs.filter fun p => !p.img.isFirmware

section
variable {κ : Type} [DecidableEq κ] (resolve : List UInt8 → κ)

def Pack.dst (p : Pack) : κ := resolve p.img.path

/-- Each pack that is a file is there, the other files are as before, and the image is gone. -/
structure Effect (packs : List Pack) (src : κ) (fs fs' : Fs κ) : Prop where
  installed : ∀ p ∈ filesOf packs, fs'.files (p.dst resolve) = some p.data
  unchanged : ∀ q, q ≠ src → (∀ p ∈ filesOf packs, p.dst resolve ≠ q) → fs'.files q = fs.files q
  deleted : fs'.files src = none

/-- No pack is for the path of the image, and where the file that is there has the check of the
    pack, or the image is too short to be looked at, the file has the bytes of the pack. -/
def Installable (packs : List Pack) (src : κ) (fs : Fs κ) : Prop :=
  ∀ p ∈ filesOf packs, p.dst resolve ≠ src ∧
    (fileCrc (fs.files (p.dst resolve)) = p.img.ulCRC32 ∨
        (imageBytes packs).length ≤ 12 + imgPackSize →
      fs.files (p.dst resolve) = some p.data)

end

/-! ## The single steps -/

theorem fileCrcLoop_eq (file : List UInt8) (fuel pos : Nat) (crc : UInt32)
    (h : file.length - pos < fuel) :
    fileCrcLoop file fuel pos crc = ulRTCrc32 crc (file.drop pos) := by
  induction fuel generalizing pos crc with
  | zero => exact absurd h (Nat.not_lt_zero _)
  | succ fuel ih =>
    have hlen : (slice file pos 4096).length = min 4096 (file.length - pos) := by
      unfold slice
      rw [List.length_take, List.length_drop]
    unfold fileCrcLoop
    dsimp only
    split
    · next hblock =>
      have hsplit : file.drop pos =
          slice file pos 4096 ++ file.drop (pos + (slice file pos 4096).length) := by
        rw [← List.drop_drop, hlen]
        unfold slice
        rw [List.take_eq_take_min, List.length_drop, List.take_append_drop]
      rw [ih _ _ (by omega), ← ulRTCrc32_append, ← hsplit]
    · next hend =>
      rw [List.drop_of_length_le (by omega), ulRTCrc32_nil]

/-- `__file_crc` is the check of the bytes, and 0 where there is no file. -/
theorem fileCrc_eq (file : Option (List UInt8)) :
    fileCrc file = ulRTCrc32 0 (file.getD []) := by
  cases file with
  | none => exact (ulRTCrc32_nil 0).symm
  | some file => exact fileCrcLoop_eq file _ 0 0 (Nat.lt_succ_self _)

section
variable {κ : Type} [DecidableEq κ] (resolve : List UInt8 → κ)

theorem createDir_files (fs : Fs κ) (path : List UInt8) :
    (createDir resolve fs path).files = fs.files := by
  unfold createDir
  induction List.range path.length generalizing fs with
  | nil => rfl
  | cons i is ih =>
    rw [List.foldl_cons, ih]
    dsimp only
    split
    · split
      · rfl
      · rfl
    · rfl

variable {resolve}

theorem append_nil (fs : Fs κ) (q : κ) : fs.append q [] = fs := by
  have hmap : (fs.files q).map (· ++ ([] : List UInt8)) = fs.files q := by
    cases fs.files q with
    | none => rfl
    | some bytes => exact congrArg some (List.append_nil bytes)
  unfold Fs.append
  rw [hmap, Function.update_eq_self]

theorem append_append (fs : Fs κ) (q : κ) (x y : List UInt8) :
    fs.append q (x ++ y) = (fs.append q x).append q y := by
  have hmap : (fs.files q).map (· ++ (x ++ y)) =
      ((fs.files q).map (· ++ x)).map (· ++ y) := by
    cases fs.files q with
    | none => rfl
    | some bytes => exact congrArg some (List.append_assoc bytes x y).symm
  unfold Fs.append
  dsimp only
  rw [Function.update_self, Function.update_idem, hmap]

theorem append_image (fs : Fs κ) {q src : κ} (h : q ≠ src) (x : List UInt8) :
    (fs.append q x).image src = fs.image src := by
  unfold Fs.image Fs.append
  dsimp only
  rw [Function.update_of_ne (Ne.symm h)]

theorem openTrunc_append (fs : Fs κ) (q : κ) (x : List UInt8) :
    (fs.openTrunc q).append q x = { fs with files := Function.update fs.files q (some x) } := by
  unfold Fs.append Fs.openTrunc
  dsimp only
  rw [Function.update_self, Function.update_idem]
  rfl

/-! ## One pack -/

variable (resolve) in
/-- What one pack does to the files. -/
def install (fs : Fs κ) (p : Pack) : Fs κ :=
  if p.img.isFirmware ∨ fileCrc (fs.files (p.dst resolve)) = p.img.ulCRC32 then fs
  else
    { createDir resolve fs p.img.path with
      files := Function.update fs.files (p.dst resolve) (some p.data) }

theorem install_files_of_ne (fs : Fs κ) {p : Pack} {q : κ}
    (h : p.img.isFirmware = false → p.dst resolve ≠ q) :
    (install resolve fs p).files q = fs.files q := by
  unfold install
  split
  · rfl
  · next hnot =>
    have hfirm := Bool.eq_false_iff.mpr fun hfirm => hnot (Or.inl hfirm)
    exact Function.update_of_ne (Ne.symm (h hfirm)) _ _

theorem install_files_dst (fs : Fs κ) {p : Pack} (h : p.img.isFirmware = false) :
    (install resolve fs p).files (p.dst resolve) =
      if fileCrc (fs.files (p.dst resolve)) = p.img.ulCRC32 then fs.files (p.dst resolve)
      else some p.data := by
  unfold install
  rw [h]
  split
  · next hcrc => rw [if_pos (hcrc.resolve_left Bool.false_ne_true)]
  · next hcrc =>
    rw [if_neg fun heq => hcrc (Or.inr heq)]
    exact Function.update_self _ _ _

theorem lseekCur_eq {file : List UInt8} (hsize : file.length < 2 ^ 31) {pos : Nat} {n : UInt32}
    (h : pos + n.toNat ≤ file.length) : lseekCur file pos n = pos + n.toNat := by
  have hoffset : (n + UInt32.ofNat pos).toNat = pos + n.toNat := by
    rw [UInt32.toNat_add, UInt32.toNat_ofNat_of_lt' (by show _ < 4294967296; omega),
      Nat.mod_eq_of_lt (by omega), Nat.add_comm]
  unfold lseekCur
  dsimp only
  rw [hoffset, if_pos (by omega), Nat.min_eq_left h]

/-- One pass of the loop, with a pack at the read position. -/
theorem doTurn_eq {fs : Fs κ} {src : κ} (hsize : (fs.image src).length < 2 ^ 31) {pos : Nat}
    {p : Pack} {rest : List UInt8} (hpack : (fs.image src).drop pos = p.hdr ++ p.data ++ rest)
    (hdst : p.img.isFirmware = false → p.dst resolve ≠ src) :
    doTurn resolve src (pos, fs) =
      .goesOn (pos + imgPackSize + p.data.length, install resolve fs p) := by
  have hhdr : slice (fs.image src) pos imgPackSize = p.hdr := by
    unfold slice
    rw [hpack, List.append_assoc, List.take_left' p.length_hdr]
  have hrest : (fs.image src).drop (pos + imgPackSize) = p.data ++ rest := by
    rw [← List.drop_drop, hpack, List.append_assoc, List.drop_left' p.length_hdr]
  have hdata : slice (fs.image src) (pos + imgPackSize) p.data.length = p.data := by
    unfold slice
    rw [hrest, List.take_left]
  have hfits : pos + imgPackSize + p.data.length ≤ (fs.image src).length := by
    have hlen := congrArg List.length hpack
    have hpos := p.length_hdr
    have hsz : 0 < imgPackSize := by decide
    rw [List.length_append, List.length_append, List.length_drop] at hlen
    omega
  have hseek : lseekCur (fs.image src) (pos + imgPackSize) p.img.ulLength =
      pos + imgPackSize + p.data.length := by
    have hlen : p.img.ulLength.toNat = p.data.length := p.length_data.symm
    rw [lseekCur_eq hsize (hlen ▸ hfits), hlen]
  have hremain : remainOf p.img.ulLength = p.data.length := by
    have hlen : p.img.ulLength.toNat = p.data.length := p.length_data.symm
    unfold remainOf
    rw [if_pos (by omega), hlen]
  unfold doTurn
  dsimp only
  rw [hhdr, if_pos (Nat.le_of_eq p.length_hdr.symm)]
  change (if p.img.isFirmware = true then _ else if fileCrc (fs.files (p.dst resolve)) = p.img.ulCRC32
    then _ else _) = _
  unfold install
  by_cases hfirm : p.img.isFirmware = true
  · rw [if_pos hfirm, if_pos (Or.inl hfirm)]
    exact congrArg (fun pos => Turn.goesOn (pos, fs)) hseek
  · rw [if_neg hfirm]
    by_cases hcrc : fileCrc (fs.files (p.dst resolve)) = p.img.ulCRC32
    · rw [if_pos hcrc, if_pos (Or.inr hcrc)]
      exact congrArg (fun pos => Turn.goesOn (pos, fs)) hseek
    · have hne := hdst (Bool.eq_false_iff.mpr hfirm)
      have himage : ((createDir resolve fs p.img.path).openTrunc (p.dst resolve)).image src =
          fs.image src := by
        unfold Fs.image Fs.openTrunc
        dsimp only
        rw [Function.update_of_ne (Ne.symm hne), createDir_files]
      have hread : ∀ fs : Fs κ, readBlocks 512 (fun fs : Fs κ => fs.image src)
          (fun fs => fs.append (p.dst resolve)) (remainOf p.img.ulLength) (pos + imgPackSize)
            (remainOf p.img.ulLength) fs =
          (pos + imgPackSize + (slice (fs.image src) (pos + imgPackSize) p.data.length).length,
            fs.append (p.dst resolve)
              (slice (fs.image src) (pos + imgPackSize) p.data.length)) := fun fs => by
        rw [hremain]
        exact readBlocks_eq (by omega) (fun fs => append_nil fs _) (fun fs => append_append fs _)
          (fun fs => append_image fs hne) (Nat.le_refl _) _ fs
      rw [if_neg hcrc, if_neg fun h => h.elim hfirm hcrc]
      refine congrArg Turn.goesOn
        ((hread ((createDir resolve fs p.img.path).openTrunc (p.dst resolve))).trans ?_)
      rw [himage, hdata, openTrunc_append, createDir_files]

/-! ## All packs -/

theorem mem_filesOf {packs : List Pack} {p : Pack} :
    p ∈ filesOf packs ↔ p ∈ packs ∧ p.img.isFirmware = false := by
  unfold filesOf
  rw [List.mem_filter, Bool.not_eq_true']

theorem filesOf_cons_subset (p : Pack) (packs : List Pack) {r : Pack} (h : r ∈ filesOf packs) :
    r ∈ filesOf (p :: packs) :=
  mem_filesOf.mpr ⟨List.mem_cons_of_mem _ (mem_filesOf.mp h).1, (mem_filesOf.mp h).2⟩

theorem foldl_install_of_ne {packs : List Pack} {q : κ}
    (h : ∀ p ∈ filesOf packs, p.dst resolve ≠ q) (fs : Fs κ) :
    (packs.foldl (install resolve) fs).files q = fs.files q := by
  induction packs generalizing fs with
  | nil => rfl
  | cons p packs ih =>
    rw [List.foldl_cons, ih (fun r hr => h r (filesOf_cons_subset p packs hr))]
    exact install_files_of_ne fs fun hfirm =>
      h p (mem_filesOf.mpr ⟨List.mem_cons_self .., hfirm⟩)

/-- What is at the path of a pack in the end depends on what was there at first. -/
theorem foldl_install_dst {packs : List Pack}
    (hdistinct : ((filesOf packs).map (Pack.dst resolve)).Nodup) {p : Pack}
    (hp : p ∈ filesOf packs) (fs : Fs κ) :
    (packs.foldl (install resolve) fs).files (p.dst resolve) =
      if fileCrc (fs.files (p.dst resolve)) = p.img.ulCRC32 then fs.files (p.dst resolve)
      else some p.data := by
  induction packs generalizing fs with
  | nil => exact nomatch hp
  | cons r packs ih =>
    rw [List.foldl_cons]
    by_cases hfirm : r.img.isFirmware = true
    · have hfilter : filesOf (r :: packs) = filesOf packs := by
        unfold filesOf
        rw [List.filter_cons_of_neg (by rw [hfirm]; decide)]
      rw [hfilter] at hp hdistinct
      rw [ih hdistinct hp]
      have hsame : (install resolve fs r).files (p.dst resolve) = fs.files (p.dst resolve) :=
        install_files_of_ne fs fun h => absurd hfirm (Bool.eq_false_iff.mp h)
      rw [hsame]
    · have hfilter : filesOf (r :: packs) = r :: filesOf packs := by
        unfold filesOf
        rw [List.filter_cons_of_pos (by rw [Bool.eq_false_iff.mpr hfirm]; rfl)]
      rw [hfilter] at hp hdistinct
      rw [List.map_cons, List.nodup_cons] at hdistinct
      obtain ⟨hnew, hdistinct⟩ := hdistinct
      have hne : ∀ t ∈ filesOf packs, t.dst resolve ≠ r.dst resolve := fun t ht heq =>
        hnew (heq ▸ List.mem_map_of_mem ht)
      obtain rfl | hp := List.mem_cons.mp hp
      · rw [foldl_install_of_ne hne]
        exact install_files_dst fs (Bool.eq_false_iff.mpr hfirm)
      · rw [ih hdistinct hp, install_files_of_ne fs fun _ => Ne.symm (hne p hp)]

/-- The loop, on an image whose packs are left from the read position on. -/
theorem doLoop_eq {src : κ} (packs : List Pack) (hdst : ∀ p ∈ filesOf packs, p.dst resolve ≠ src)
    {fs : Fs κ} (hsize : (fs.image src).length < 2 ^ 31) {pos : Nat}
    (hpacks : (fs.image src).drop pos = packBytes packs) {fuel : Nat}
    (hfuel : packs.length < fuel) :
    doLoop resolve src fuel (pos, fs) = some (packs.foldl (install resolve) fs) := by
  induction packs generalizing fs pos fuel with
  | nil =>
    obtain ⟨fuel, rfl⟩ := Nat.exists_eq_succ_of_ne_zero (Nat.ne_of_gt hfuel)
    have hend : slice (fs.image src) pos imgPackSize = [] := by
      unfold slice
      rw [hpacks]
      rfl
    unfold doLoop doTurn
    dsimp only
    rw [hend, if_neg (by decide)]
    rfl
  | cons p packs ih =>
    obtain ⟨fuel, rfl⟩ := Nat.exists_eq_succ_of_ne_zero (Nat.ne_of_gt (Nat.zero_lt_of_lt hfuel))
    have hpack : (fs.image src).drop pos = p.hdr ++ p.data ++ packBytes packs := hpacks
    have hne : p.img.isFirmware = false → p.dst resolve ≠ src := fun hfirm =>
      hdst p (mem_filesOf.mpr ⟨List.mem_cons_self .., hfirm⟩)
    have himage : (install resolve fs p).image src = fs.image src := by
      unfold Fs.image
      rw [install_files_of_ne fs hne]
    have hrest : (fs.image src).drop (pos + imgPackSize + p.data.length) = packBytes packs := by
      rw [← List.drop_drop, ← List.drop_drop, hpack, List.append_assoc,
        List.drop_left' p.length_hdr, List.drop_left]
    unfold doLoop
    rw [doTurn_eq hsize hpack hne]
    exact ih (fun r hr => hdst r (filesOf_cons_subset p packs hr)) (himage ▸ hsize)
      (himage ▸ hrest) (Nat.lt_of_succ_lt_succ hfuel)

/-! ## The effect -/

theorem magicsRight_imageBytes (packs : List Pack) : magicsRight (imageBytes packs) = true := by
  have h0 : slice (imageBytes packs) 0 4 = bytes32 imgMagicNum1 := rfl
  have h4 : slice (imageBytes packs) 4 4 = bytes32 imgMagicNum2 := rfl
  have h8 : slice (imageBytes packs) 8 4 = bytes32 imgMagicNum3 := rfl
  unfold magicsRight
  rw [h0, h4, h8]
  decide

/-- An image whose packs are not for itself. -/
theorem updateDo_eq {packs : List Pack} {fs : Fs κ} {src : κ}
    (himage : fs.files src = some (imageBytes packs))
    (hsize : (imageBytes packs).length < 2 ^ 31)
    (hdst : ∀ p ∈ filesOf packs, p.dst resolve ≠ src) {fuel : Nat} (hfuel : packs.length < fuel) :
    updateDo resolve fuel fs src =
      if 12 + imgPackSize < (imageBytes packs).length then
        some (true, (packs.foldl (install resolve) fs).unlink src)
      else some (false, fs.unlink src) := by
  have hbytes : fs.image src = imageBytes packs := by
    unfold Fs.image
    rw [himage]
    rfl
  have hdrop : (fs.image src).drop 12 = packBytes packs := by
    rw [hbytes]
    rfl
  unfold updateDo
  rw [himage]
  dsimp only
  rw [magicsRight_imageBytes, if_pos rfl, doLoop_eq packs hdst (hbytes ▸ hsize) hdrop hfuel]
  rfl

theorem unlink_files_of_ne (fs : Fs κ) {src q : κ} (h : q ≠ src) :
    (fs.unlink src).files q = fs.files q := Function.update_of_ne h _ _

theorem unlink_files_self (fs : Fs κ) (src : κ) : (fs.unlink src).files src = none :=
  Function.update_self _ _ _

/-- After the installation of an image each pack is a file, and the other files are as before,
    exactly if every pack is installable. -/
theorem updateDo_effect (resolve : List UInt8 → κ) {packs : List Pack} {fs : Fs κ} {src : κ}
    (himage : fs.files src = some (imageBytes packs))
    (hsize : (imageBytes packs).length < 2 ^ 31)
    (hdistinct : ((filesOf packs).map (Pack.dst resolve)).Nodup)
    {fuel : Nat} (hfuel : packs.length < fuel) :
    (∃ ret fs', updateDo resolve fuel fs src = some (ret, fs') ∧
        Effect resolve packs src fs fs') ↔ Installable resolve packs src fs := by
  have hothers : ∀ q, q ≠ src → (∀ p ∈ filesOf packs, p.dst resolve ≠ q) →
      (packs.foldl (install resolve) fs).files q = fs.files q :=
    fun q _ hq => foldl_install_of_ne hq fs
  constructor
  · rintro ⟨ret, fs', hdo, heffect⟩
    have hdst : ∀ p ∈ filesOf packs, p.dst resolve ≠ src := fun p hp heq => by
      have hfile := heffect.installed p hp
      rw [heq, heffect.deleted] at hfile
      exact nomatch hfile
    intro p hp
    refine ⟨hdst p hp, fun hskip => ?_⟩
    rw [updateDo_eq himage hsize hdst hfuel] at hdo
    have hfile := heffect.installed p hp
    split at hdo
    · next hlong =>
      obtain ⟨-, rfl⟩ := Prod.mk.inj (Option.some.inj hdo)
      rw [unlink_files_of_ne _ (hdst p hp), foldl_install_dst hdistinct hp,
        if_pos (hskip.resolve_right (Nat.not_le_of_lt hlong))] at hfile
      exact hfile
    · obtain ⟨-, rfl⟩ := Prod.mk.inj (Option.some.inj hdo)
      rwa [unlink_files_of_ne _ (hdst p hp)] at hfile
  · intro hinst
    have hdst : ∀ p ∈ filesOf packs, p.dst resolve ≠ src := fun p hp => (hinst p hp).1
    rw [updateDo_eq himage hsize hdst hfuel]
    split
    · refine ⟨true, _, rfl, ⟨fun p hp => ?_, fun q hq hnot => ?_, unlink_files_self _ _⟩⟩
      · rw [unlink_files_of_ne _ (hdst p hp), foldl_install_dst hdistinct hp]
        split
        · next hcrc => exact (hinst p hp).2 (Or.inl hcrc)
        · rfl
      · rw [unlink_files_of_ne _ hq]
        exact hothers q hq hnot
    · next hshort =>
      refine ⟨false, _, rfl, ⟨fun p hp => ?_, fun q hq _ => unlink_files_of_ne _ hq,
        unlink_files_self _ _⟩⟩
      rw [unlink_files_of_ne _ (hdst p hp)]
      exact (hinst p hp).2 (Or.inr (Nat.le_of_not_lt hshort))

end

/-! ## Two files -/

/-- The header of a file. -/
def header (path data : List UInt8) : List UInt8 :=
  path ++ List.replicate (384 - path.length) 0 ++ bytes32 (UInt32.ofNat data.length) ++
    bytes32 (ulRTCrc32 0 data)

set_option maxRecDepth 4000 in
/-- A file without bytes. -/
def emptyPack : Pack where
  hdr := header (chars "/a".toList) []
  data := []
  length_hdr := rfl
  length_data := rfl
  terminated := by decide
  crc := fun _ => rfl

set_option maxRecDepth 4000 in
def bytePack : Pack where
  hdr := header (chars "/b".toList) [1]
  data := [1]
  length_hdr := rfl
  length_data := rfl
  terminated := by decide
  crc := fun _ => rfl

def imagePath : List UInt8 := chars "/update.img".toList

/-- A file system with an image and no other file. -/
def onlyImage (packs : List Pack) : Fs (List UInt8) :=
  ⟨fun path => if path = imagePath then some (imageBytes packs) else none, fun _ => false⟩

theorem onlyImage_files (packs : List Pack) {path : List UInt8} (h : path ≠ imagePath) :
    (onlyImage packs).files path = none := if_neg h

theorem onlyImage_image (packs : List Pack) :
    (onlyImage packs).files imagePath = some (imageBytes packs) := rfl

set_option maxRecDepth 4000 in
theorem dst_emptyPack : Pack.dst id emptyPack = chars "/a".toList := by
  decide

set_option maxRecDepth 4000 in
theorem dst_bytePack : Pack.dst id bytePack = chars "/b".toList := by
  decide

set_option maxRecDepth 4000 in
/-- A file that was not there is installed. -/
theorem bytePack_installed :
    ∃ ret fs', updateDo id 2 (onlyImage [bytePack]) imagePath = some (ret, fs') ∧
      Effect id [bytePack] imagePath (onlyImage [bytePack]) fs' := by
  have hdistinct : ((filesOf [bytePack]).map (Pack.dst id)).Nodup := List.nodup_singleton _
  have hsize : (imageBytes [bytePack]).length < 2 ^ 31 := by
    show 405 < 2 ^ 31
    decide
  refine (updateDo_effect id (onlyImage_image _) hsize hdistinct (by decide)).mpr ?_
  · intro p hp
    obtain rfl := List.mem_singleton.mp (mem_filesOf.mp hp).1
    have hne : Pack.dst id bytePack ≠ imagePath := by
      rw [dst_bytePack]
      decide
    refine ⟨hne, ?_⟩
    rintro (hcrc | hshort)
    · rw [onlyImage_files _ hne] at hcrc
      exact absurd hcrc (by decide)
    · exact absurd hshort (show ¬ 405 ≤ 404 by decide)

set_option maxRecDepth 4000 in
/-- A file without bytes is not made where it is missing. -/
theorem emptyPack_skipped :
    (onlyImage [emptyPack, bytePack]).files imagePath = some (imageBytes [emptyPack, bytePack]) ∧
      ((filesOf [emptyPack, bytePack]).map (Pack.dst id)).Nodup ∧
      ¬ ∃ ret fs', updateDo id 3 (onlyImage [emptyPack, bytePack]) imagePath = some (ret, fs') ∧
        Effect id [emptyPack, bytePack] imagePath (onlyImage [emptyPack, bytePack]) fs' := by
  have hfiles : filesOf [emptyPack, bytePack] = [emptyPack, bytePack] := rfl
  have hne : ∀ p ∈ filesOf [emptyPack, bytePack], Pack.dst id p ≠ imagePath := by
    intro p hp
    obtain rfl | rfl := List.mem_pair.mp (mem_filesOf.mp hp).1
    · rw [dst_emptyPack]
      decide
    · rw [dst_bytePack]
      decide
  have hdistinct : ((filesOf [emptyPack, bytePack]).map (Pack.dst id)).Nodup := by
    rw [hfiles, List.map_cons, List.map_singleton, dst_emptyPack, dst_bytePack]
    decide
  refine ⟨onlyImage_image _, hdistinct, ?_⟩
  rintro ⟨ret, fs', hdo, heffect⟩
  have hmem : emptyPack ∈ filesOf [emptyPack, bytePack] := by
    rw [hfiles]
    exact List.mem_cons_self ..
  have hsize : (imageBytes [emptyPack, bytePack]).length < 2 ^ 31 := by
    show 797 < 2 ^ 31
    decide
  have hlong : 12 + imgPackSize < (imageBytes [emptyPack, bytePack]).length := by
    show 404 < 797
    decide
  rw [updateDo_eq (onlyImage_image _) hsize hne (by decide), if_pos hlong] at hdo
  obtain ⟨-, rfl⟩ := Prod.mk.inj (Option.some.inj hdo)
  have hfile := heffect.installed emptyPack hmem
  rw [unlink_files_of_ne _ (hne _ hmem), foldl_install_dst hdistinct hmem,
    onlyImage_files _ (hne _ hmem), if_pos (by rfl)] at hfile
  exact nomatch hfile

end K64Gateway.Update
