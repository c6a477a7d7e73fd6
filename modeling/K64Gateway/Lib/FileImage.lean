import Mathlib

/-
  The content of a file as the list of its bytes, and what a write at a position does to it.
-/

namespace FileImage

variable {α : Type}

/-- The `n` bytes from `pos` on, or what there is of them. -/
def slice (file : List α) (pos n : Nat) : List α := (file.drop pos).take n

/-- The file after `data` was written at `pos`. -/
def writeAt (file : List α) (pos : Nat) (data : List α) : List α :=
  file.take pos ++ data ++ file.drop (pos + data.length)

theorem length_slice {file : List α} {pos n : Nat} (h : pos + n ≤ file.length) :
    (slice file pos n).length = n := by
  unfold slice
  rw [List.length_take, List.length_drop]
  omega

/-- A slice that is complete lies in the file. -/
theorem le_of_length_slice {file : List α} {pos n : Nat} (h : (slice file pos n).length = n)
    (hn : 0 < n) : pos + n ≤ file.length := by
  unfold slice at h
  rw [List.length_take, List.length_drop] at h
  omega

theorem slice_of_length_le {file : List α} {pos : Nat} (h : file.length ≤ pos) (n : Nat) :
    slice file pos n = [] := by
  unfold slice
  rw [List.drop_of_length_le h, List.take_nil]

/-- A part of a slice. -/
theorem slice_slice {file : List α} {pos n pos' n' : Nat} (h : pos' + n' ≤ n) :
    slice (slice file pos n) pos' n' = slice file (pos + pos') n' := by
  unfold slice
  rw [List.drop_take, List.take_take, List.drop_drop, Nat.min_eq_left (by omega)]

theorem slice_append_left {file : List α} (rest : List α) {pos n : Nat}
    (h : pos + n ≤ file.length) : slice (file ++ rest) pos n = slice file pos n := by
  unfold slice
  rw [List.drop_append_of_le_length (by omega),
    List.take_append_of_le_length (by rw [List.length_drop]; omega)]

theorem slice_append_right {file : List α} (rest : List α) {pos : Nat}
    (h : file.length ≤ pos) (n : Nat) :
    slice (file ++ rest) pos n = slice rest (pos - file.length) n := by
  unfold slice
  rw [List.drop_append, List.drop_of_length_le h, List.nil_append]

/-- A part of a file, between what stands before and behind it. -/
theorem slice_append (before part rest : List α) {pos n : Nat} (hpos : before.length = pos)
    (hn : part.length = n) : slice (before ++ part ++ rest) pos n = part := by
  unfold slice
  rw [List.append_assoc, List.drop_left' hpos, List.take_left' hn]

theorem length_writeAt {file : List α} {pos : Nat} (data : List α) (h : pos ≤ file.length) :
    (writeAt file pos data).length = max file.length (pos + data.length) := by
  unfold writeAt
  rw [List.length_append, List.length_append, List.length_take, List.length_drop]
  omega

/-- At the end of a file. -/
theorem writeAt_length (file data : List α) : writeAt file file.length data = file ++ data := by
  unfold writeAt
  rw [List.take_length, List.drop_of_length_le (Nat.le_add_right _ _), List.append_nil]

/-- What was written is read back. -/
theorem slice_writeAt {file : List α} {pos : Nat} (data : List α) (h : pos ≤ file.length) :
    slice (writeAt file pos data) pos data.length = data := by
  have hlen : (file.take pos).length = pos := List.length_take_of_le h
  unfold slice writeAt
  rw [List.append_assoc, List.drop_left' hlen, List.take_left]

/-- In front of what was written nothing changes. -/
theorem slice_writeAt_before {file : List α} {pos : Nat} (data : List α) (h : pos ≤ file.length)
    {pos' n : Nat} (hbefore : pos' + n ≤ pos) :
    slice (writeAt file pos data) pos' n = slice file pos' n := by
  have hlen : (file.take pos).length = pos := List.length_take_of_le h
  unfold writeAt
  rw [List.append_assoc, slice_append_left _ (by omega)]
  conv_rhs => rw [← List.take_append_drop pos file, slice_append_left _ (by omega)]

/-- Nor does it behind. -/
theorem slice_writeAt_after {file : List α} {pos : Nat} (data : List α) (h : pos ≤ file.length)
    {pos' : Nat} (n : Nat) (hafter : pos + data.length ≤ pos') :
    slice (writeAt file pos data) pos' n = slice file pos' n := by
  have hlen : (file.take pos ++ data).length = pos + data.length := by
    rw [List.length_append, List.length_take_of_le h]
  unfold writeAt
  rw [slice_append_right _ (by omega), hlen]
  unfold slice
  rw [List.drop_drop, Nat.add_sub_cancel' hafter]

/-- Two writes, one behind the other. -/
theorem writeAt_writeAt {file : List α} {pos : Nat} (data data' : List α) (h : pos ≤ file.length) :
    writeAt (writeAt file pos data) (pos + data.length) data' = writeAt file pos (data ++ data') := by
  have hlen : (file.take pos ++ data).length = pos + data.length := by
    rw [List.length_append, List.length_take_of_le h]
  have hdrop : (file.take pos ++ data ++ file.drop (pos + data.length)).drop
      (pos + data.length + data'.length) = file.drop (pos + (data ++ data').length) := by
    rw [← List.drop_drop, List.drop_left' hlen, List.drop_drop, List.length_append, Nat.add_assoc]
  unfold writeAt
  rw [List.take_left' hlen, hdrop, List.append_assoc, List.append_assoc, List.append_assoc,
    List.append_assoc]

/-! ## Reading in blocks -/

/-- A slice whose first `n` bytes are read before the rest. -/
theorem slice_eq_append (file : List α) (pos : Nat) {n remain : Nat} (h : n ≤ remain) :
    slice file pos remain = slice file pos n ++
      slice file (pos + (slice file pos n).length) (remain - (slice file pos n).length) := by
  unfold slice
  rw [← List.drop_drop]
  generalize file.drop pos = rest
  have hmin : rest.take n = rest.take (rest.take n).length := by
    rw [List.length_take, ← List.take_eq_take_min]
  have hle : (rest.take n).length ≤ remain := Nat.le_trans (List.length_take_le n rest) h
  generalize (rest.take n).length = m at hmin hle ⊢
  rw [hmin, ← List.take_add, Nat.add_sub_cancel' hle]

/-- Reads `remain` bytes from `pos` on in blocks of at most `bufsz`, up to the end of the file, and
    hands them to `f`. The file is a part of the state that `f` works on. -/
def readBlocks {β : Type} (bufsz : Nat) (src : β → List α) (f : β → List α → β) :
    Nat → Nat → Nat → β → Nat × β
  | 0, pos, _, b => (pos, b)
  | fuel + 1, pos, remain, b =>
      if 0 < remain then
        let block := slice (src b) pos (if bufsz < remain then bufsz else remain)
        if 0 < block.length then
          readBlocks bufsz src f fuel (pos + block.length) (remain - block.length) (f b block)
        else (pos, b)
      else (pos, b)

section
variable {β : Type} {bufsz : Nat} {src : β → List α} {f : β → List α → β}

/-- Where `f` leaves the file alone and takes two blocks as it takes them in one, it is the same
    as one read of all. -/
theorem readBlocks_eq (hsz : 0 < bufsz) (hnil : ∀ b, f b [] = b)
    (happend : ∀ b x y, f b (x ++ y) = f (f b x) y) (hsrc : ∀ b x, src (f b x) = src b)
    {fuel remain : Nat} (hfuel : remain ≤ fuel) (pos : Nat) (b : β) :
    readBlocks bufsz src f fuel pos remain b =
      (pos + (slice (src b) pos remain).length, f b (slice (src b) pos remain)) := by
  have hzero : ∀ pos (b : β), (pos, b) =
      (pos + (slice (src b) pos 0).length, f b (slice (src b) pos 0)) := fun pos b => by
    rw [show slice (src b) pos 0 = [] from List.take_zero, hnil]
    rfl
  induction fuel generalizing pos remain b with
  | zero =>
    rw [Nat.le_zero.mp hfuel]
    exact hzero pos b
  | succ fuel ih =>
    unfold readBlocks
    by_cases hpos : 0 < remain
    · rw [if_pos hpos]
      dsimp only
      obtain ⟨hle, hn⟩ : (if bufsz < remain then bufsz else remain) ≤ remain ∧
          0 < (if bufsz < remain then bufsz else remain) := by
        split <;> omega
      generalize (if bufsz < remain then bufsz else remain) = n at hle hn ⊢
      have hsplit := slice_eq_append (src b) pos hle
      by_cases hblock : 0 < (slice (src b) pos n).length
      · rw [if_pos hblock, ih (by omega), hsrc, ← happend, ← hsplit]
        rw [hsplit, List.length_append, Nat.add_assoc]
      · rw [if_neg hblock]
        have hend : (src b).length ≤ pos := by
          unfold slice at hblock
          rw [List.length_take, List.length_drop] at hblock
          omega
        rw [slice_of_length_le hend, hnil]
        rfl
    · rw [if_neg hpos, Nat.eq_zero_of_not_pos hpos]
      exact hzero pos b

end

end FileImage
