import Mathlib
import K64Gateway.Board.BoardCfg

/-
  Sequences of writes to the configuration file.

  Proved: a section reads back what was last written to it, and a section that was never written
  does not read, exactly if no seek fills up such a section with a record of its own
  (`boardCfg_independent`).
-/

namespace K64Gateway.Board

open FileImage

/-! ## Calls -/

/-- A call of `board_cfg_write`, with what the file system does behind the end of the file. -/
structure Call where
  sec : Section
  seek : SeekEnd
  pcfg : List UInt8

/-- Data that fit into a section of `board_cfg.h`. -/
structure Call.Valid (c : Call) : Prop where
  mem : c.sec ∈ sections
  fits : c.pcfg.length + 6 ≤ c.sec.size

/-- The file after the calls, none at first. -/
def run (calls : List Call) : Option (List UInt8) :=
  calls.foldl (fun file c => some (boardCfgWrite c.seek file c.sec.ofs c.pcfg).1) none

/-- How far the records of the calls reach. -/
def fileEnd (calls : List Call) : Nat :=
  calls.foldl (fun pos c => max pos (c.sec.ofs + (c.pcfg.length + 6))) 0

/-- Every section reads what was last written to it, or not at all where nothing was. -/
structure Independent (calls : List Call) : Prop where
  written (clips : Bool) (pre : List Call) (c : Call) (post : List Call) :
    calls = pre ++ c :: post → (∀ d ∈ post, d.sec ≠ c.sec) →
      boardCfgRead clips (run calls) c.sec.ofs c.pcfg.length = some c.pcfg
  unwritten (clips : Bool) (s : Section) (len : Nat) :
    s ∈ sections → (∀ c ∈ calls, c.sec ≠ s) → len + 6 ≤ s.size →
      boardCfgRead clips (run calls) s.ofs len = none

/-- No call lets the file grow over a section that is never written by bytes that are a record. -/
def NoRecordInGap (calls : List Call) : Prop :=
  ∀ (pre : List Call) (c : Call) (post : List Call), calls = pre ++ c :: post →
    ∀ gap, c.seek = .extends gap → ∀ s ∈ sections, (∀ d ∈ calls, d.sec ≠ s) →
      fileEnd pre ≤ s.ofs → s.ofs + s.size ≤ c.sec.ofs → ∀ len, len + 6 ≤ s.size →
        ¬ IsRecord ((List.range' s.ofs s.size).map gap) len

theorem run_append (pre : List Call) (c : Call) :
    run (pre ++ [c]) = some (boardCfgWrite c.seek (run pre) c.sec.ofs c.pcfg).1 := by
  unfold run
  rw [List.foldl_append]
  rfl

theorem fileEnd_append (pre : List Call) (c : Call) :
    fileEnd (pre ++ [c]) = max (fileEnd pre) (c.sec.ofs + (c.pcfg.length + 6)) := by
  unfold fileEnd
  rw [List.foldl_append]
  rfl

theorem fileEnd_le_append (pre post : List Call) : fileEnd pre ≤ fileEnd (pre ++ post) := by
  induction post using List.reverseRecOn with
  | nil => exact Nat.le_of_eq (by rw [List.append_nil])
  | append_singleton post c ih =>
    rw [← List.append_assoc, fileEnd_append]
    exact Nat.le_trans ih (Nat.le_max_left _ _)

theorem sections_apart {s t : Section} (hs : s ∈ sections) (ht : t ∈ sections) (h : s ≠ t) :
    s.ofs + s.size ≤ t.ofs ∨ t.ofs + t.size ≤ s.ofs := by
  have hall : ∀ s ∈ sections, ∀ t ∈ sections, s ≠ t →
      s.ofs + s.size ≤ t.ofs ∨ t.ofs + t.size ≤ s.ofs := by decide
  exact hall s hs t ht h

/-! ## One call -/

section
variable (pre : List Call) (c : Call)

/-- The file that the record is written into. -/
def filled : List UInt8 :=
  (run pre).getD [] ++
    fillOf c.seek ((run pre).getD []).length (c.sec.ofs - ((run pre).getD []).length)

theorem le_length_filled : c.sec.ofs ≤ (filled pre c).length := by
  unfold filled
  rw [List.length_append, length_fillOf]
  omega

theorem run_snoc : run (pre ++ [c]) = some (writeAt (filled pre c) c.sec.ofs (record c.pcfg)) := by
  rw [run_append, boardCfgWrite_eq]
  rfl

/-- The record is in the file. -/
theorem slice_run_self :
    slice ((run (pre ++ [c])).getD []) c.sec.ofs (c.pcfg.length + 6) = record c.pcfg := by
  rw [run_snoc, ← length_record]
  exact slice_writeAt _ (le_length_filled pre c)

/-- Apart from the record the file is what it was filled up to. -/
theorem slice_run_other {pos n : Nat}
    (hapart : pos + n ≤ c.sec.ofs ∨ c.sec.ofs + (c.pcfg.length + 6) ≤ pos) :
    slice ((run (pre ++ [c])).getD []) pos n = slice (filled pre c) pos n := by
  rw [run_snoc]
  rcases hapart with hbefore | hafter
  · exact slice_writeAt_before _ (le_length_filled pre c) hbefore
  · exact slice_writeAt_after _ (le_length_filled pre c) _ (by rwa [length_record])

end

theorem length_run (calls : List Call) : ((run calls).getD []).length = fileEnd calls := by
  induction calls using List.reverseRecOn with
  | nil => rfl
  | append_singleton pre c ih =>
    rw [run_snoc, Option.getD_some, length_writeAt _ (le_length_filled pre c), fileEnd_append,
      length_record]
    unfold filled
    rw [List.length_append, length_fillOf, ih]
    omega

/-- What lies in the file stays, up to the next call for its section. -/
theorem slice_run_append {pre : List Call} {s : Section} (hs : s ∈ sections) {n : Nat}
    (hn : n ≤ s.size) (hend : s.ofs + n ≤ fileEnd pre) (post : List Call)
    (hvalid : ∀ d ∈ post, d.Valid) (hother : ∀ d ∈ post, d.sec ≠ s) :
    slice ((run (pre ++ post)).getD []) s.ofs n = slice ((run pre).getD []) s.ofs n := by
  induction post using List.reverseRecOn with
  | nil => rw [List.append_nil]
  | append_singleton post d ih =>
    have hlast : d ∈ post ++ [d] := List.mem_append_right _ (List.mem_singleton.mpr rfl)
    have hd := hvalid d hlast
    have hle : s.ofs + n ≤ ((run (pre ++ post)).getD []).length := by
      rw [length_run]
      exact Nat.le_trans hend (fileEnd_le_append pre post)
    have hapart : s.ofs + n ≤ d.sec.ofs ∨ d.sec.ofs + (d.pcfg.length + 6) ≤ s.ofs := by
      have hfits := hd.fits
      rcases sections_apart hs hd.mem (Ne.symm (hother d hlast)) with h | h
      · left
        omega
      · right
        omega
    rw [← List.append_assoc, slice_run_other _ _ hapart]
    unfold filled
    rw [slice_append_left _ hle]
    exact ih (fun e he => hvalid e (List.mem_append_left _ he))
      (fun e he => hother e (List.mem_append_left _ he))

/-! ## Sections that were never written -/

/-- The file ends in front of such a section, or one call has let it grow over the section. -/
theorem fileEnd_le_or_grown {calls : List Call} (hvalid : ∀ c ∈ calls, c.Valid) {s : Section}
    (hs : s ∈ sections) (hother : ∀ c ∈ calls, c.sec ≠ s) :
    fileEnd calls ≤ s.ofs ∨ ∃ pre c post, calls = pre ++ c :: post ∧ fileEnd pre ≤ s.ofs ∧
      s.ofs + s.size ≤ c.sec.ofs := by
  induction calls using List.reverseRecOn with
  | nil => exact Or.inl (Nat.zero_le _)
  | append_singleton pre c ih =>
    have hlast : c ∈ pre ++ [c] := List.mem_append_right _ (List.mem_singleton.mpr rfl)
    have hc := hvalid c hlast
    rcases ih (fun d hd => hvalid d (List.mem_append_left _ hd))
      (fun d hd => hother d (List.mem_append_left _ hd)) with hle | ⟨pre', d, post, rfl, hd⟩
    · have hfits := hc.fits
      rcases sections_apart hs hc.mem (Ne.symm (hother c hlast)) with h | h
      · exact Or.inr ⟨pre, c, [], rfl, hle, h⟩
      · left
        rw [fileEnd_append]
        omega
    · right
      refine ⟨pre', d, post ++ [c], ?_, hd⟩
      rw [List.append_assoc, List.cons_append]

/-- What stands in it then. -/
theorem slice_run_grown {calls pre post : List Call} {c : Call} (hcalls : calls = pre ++ c :: post)
    (hvalid : ∀ d ∈ calls, d.Valid) {s : Section} (hs : s ∈ sections)
    (hother : ∀ d ∈ calls, d.sec ≠ s) (hend : fileEnd pre ≤ s.ofs)
    (hgrown : s.ofs + s.size ≤ c.sec.ofs) :
    slice ((run calls).getD []) s.ofs s.size = fillOf c.seek s.ofs s.size := by
  have hpost : ∀ d ∈ post, d ∈ calls := fun d hd => by
    rw [hcalls]
    exact List.mem_append_right _ (List.mem_cons_of_mem _ hd)
  have hstep : slice ((run (pre ++ [c])).getD []) s.ofs s.size = fillOf c.seek s.ofs s.size := by
    rw [slice_run_other _ _ (Or.inl hgrown)]
    unfold filled
    rw [length_run, slice_append_right _ (by rwa [length_run]), length_run,
      slice_fillOf _ _ (by omega), Nat.add_sub_cancel' hend]
  have hin : s.ofs + s.size ≤ fileEnd (pre ++ [c]) := by
    rw [fileEnd_append]
    omega
  have hkept := slice_run_append hs (Nat.le_refl _) hin post (fun d hd => hvalid d (hpost d hd))
    (fun d hd => hother d (hpost d hd))
  rw [← List.append_cons] at hkept
  rw [hcalls, hkept, hstep]

theorem not_isRecord_zeros (n len : Nat) : ¬ IsRecord (List.replicate n 0) len := by
  intro h
  have hmagic := h.1
  unfold slice at hmagic
  rw [List.drop_zero, List.take_replicate] at hmagic
  have hfour : min 4 n = 0 ∨ min 4 n = 1 ∨ min 4 n = 2 ∨ min 4 n = 3 ∨ min 4 n = 4 := by omega
  revert hmagic
  rcases hfour with h | h | h | h | h <;> rw [h] <;> decide

/-! ## Independence -/

theorem boardCfgRead_run (clips : Bool) {calls : List Call} {bytes : List UInt8}
    {ofs size len : Nat} (hbytes : slice ((run calls).getD []) ofs size = bytes)
    (hsize : bytes.length = size) (hlen : len + 6 ≤ size) :
    boardCfgRead clips (run calls) ofs len =
      if IsRecord bytes len then some (slice bytes 4 len) else none := by
  cases hrun : run calls with
  | some file =>
    rw [hrun] at hbytes
    exact boardCfgRead_slice clips hbytes hsize hlen
  | none =>
    rw [hrun, Option.getD_none, slice_of_length_le (Nat.zero_le _)] at hbytes
    rw [← hbytes, List.length_nil] at hsize
    omega

theorem written_reads {calls pre post : List Call} {c : Call} (hcalls : calls = pre ++ c :: post)
    (hvalid : ∀ d ∈ calls, d.Valid) (hother : ∀ d ∈ post, d.sec ≠ c.sec) (clips : Bool) :
    boardCfgRead clips (run calls) c.sec.ofs c.pcfg.length = some c.pcfg := by
  have hpost : ∀ d ∈ post, d ∈ calls := fun d hd => by
    rw [hcalls]
    exact List.mem_append_right _ (List.mem_cons_of_mem _ hd)
  have hc : c.Valid := hvalid c (by
    rw [hcalls]
    exact List.mem_append_right _ (List.mem_cons_self ..))
  have hin : c.sec.ofs + (c.pcfg.length + 6) ≤ fileEnd (pre ++ [c]) := by
    rw [fileEnd_append]
    exact Nat.le_max_right _ _
  have hkept := slice_run_append hc.mem hc.fits hin post (fun d hd => hvalid d (hpost d hd)) hother
  rw [← List.append_cons, ← hcalls, slice_run_self] at hkept
  rw [boardCfgRead_run clips hkept (length_record _) (Nat.le_refl _), if_pos (isRecord_record _),
    (slice_record c.pcfg).2.1]

/-- Every section keeps what was last written to it, and one that was never written does not read,
    exactly if no seek has put a record there. -/
theorem boardCfg_independent (calls : List Call) (hvalid : ∀ c ∈ calls, c.Valid) :
    Independent calls ↔ NoRecordInGap calls := by
  constructor
  · intro h pre c post hcalls gap hgap s hs hother hend hgrown len hlen hrecord
    have hslice := slice_run_grown hcalls hvalid hs hother hend hgrown
    have hread := boardCfgRead_run true hslice (length_fillOf _ _ _) hlen
    rw [h.unwritten true s len hs hother hlen, hgap] at hread
    unfold fillOf at hread
    rw [if_pos hrecord] at hread
    exact nomatch hread
  · intro h
    refine ⟨fun clips pre c post hcalls hother => written_reads hcalls hvalid hother clips, ?_⟩
    intro clips s len hs hother hlen
    rcases fileEnd_le_or_grown hvalid hs hother with hend | ⟨pre, c, post, hcalls, hend, hgrown⟩
    · cases hrun : run calls with
      | none => rfl
      | some file =>
        rw [← length_run, hrun] at hend
        exact boardCfgRead_beyond clips len hend
    · have hslice := slice_run_grown hcalls hvalid hs hother hend hgrown
      rw [boardCfgRead_run clips hslice (length_fillOf _ _ _) hlen]
      cases hseek : c.seek with
      | stops => exact if_neg (not_isRecord_zeros _ _)
      | «extends» gap => exact if_neg (h pre c post hcalls gap hseek s hs hother hend hgrown len hlen)

/-- Two sections in the wrong order, on a file system that stops at the end. -/
theorem two_independent :
    Independent [⟨tcpipCfg, .stops, [1, 2]⟩, ⟨cfgInfo, .stops, [3]⟩] := by
  refine (boardCfg_independent _ ?_).mpr ?_
  · intro c hc
    rcases List.mem_pair.mp hc with rfl | rfl
    · exact ⟨by decide, by decide⟩
    · exact ⟨by decide, by decide⟩
  · intro pre c post hcalls gap hgap
    have hc : c ∈ [⟨tcpipCfg, .stops, [1, 2]⟩, ⟨cfgInfo, .stops, [3]⟩] := by
      rw [hcalls]
      exact List.mem_append_right _ (List.mem_cons_self ..)
    rcases List.mem_pair.mp hc with rfl | rfl
    · exact nomatch hgap
    · exact nomatch hgap

/-- The device section as it stood in a cluster of the file that was deleted before. -/
def staleDevCfg (pos : Nat) : UInt8 := (record [7]).getD (pos - devCfg.ofs) 0

/-- The two writes that follow a deletion, on a file system that lets the file grow. -/
def writesAfterDel : List Call :=
  [⟨cfgInfo, .stops, [1]⟩, ⟨regCfg, .extends staleDevCfg, [2]⟩]

/-- The device section is back although it was never written. -/
theorem unwritten_reads :
    (∀ c ∈ writesAfterDel, c.Valid) ∧ (∀ c ∈ writesAfterDel, c.sec ≠ devCfg) ∧
      boardCfgRead true (run writesAfterDel) devCfg.ofs 1 = some [7] ∧
        ¬ Independent writesAfterDel := by
  have hvalid : ∀ c ∈ writesAfterDel, c.Valid := fun c hc => by
    rcases List.mem_pair.mp hc with rfl | rfl
    · exact ⟨by decide, by decide⟩
    · exact ⟨by decide, by decide⟩
  have hother : ∀ c ∈ writesAfterDel, c.sec ≠ devCfg := by
    decide
  have hread : boardCfgRead true (run writesAfterDel) devCfg.ofs 1 = some [7] := by
    have hcalls : writesAfterDel =
        [⟨cfgInfo, .stops, [1]⟩] ++ ⟨regCfg, .extends staleDevCfg, [2]⟩ :: [] := rfl
    have hslice := slice_run_grown hcalls hvalid (show devCfg ∈ sections by decide) hother
      (by decide) (by decide)
    rw [boardCfgRead_run true hslice (length_fillOf _ _ _) (by decide)]
    decide
  refine ⟨hvalid, hother, hread, fun h => ?_⟩
  have hnone := h.unwritten true devCfg 1 (by decide) hother (by decide)
  rw [hread] at hnone
  exact nomatch hnone

end K64Gateway.Board
