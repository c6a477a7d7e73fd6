import K64Gateway.Board.CfgLines

/-
  `__readline` on any file. Each call reads a full buffer and closes the line at its line break;
  what has no line break at the end of the file is not closed, and goes on with what the buffer
  held there.

  Proved: from the start of a file the calls return its lines in order exactly if no line has a
  zero byte, each fits the buffer with its line end, and a last line without a line break has no
  carriage return as its last byte but one and ends where the line in front of it did
  (`readlines_iff`).
-/

namespace K64Gateway.CfgLines

open CString FileImage

/-! ## Files -/

/-- The lines of a file, and what is behind the last line break. -/
structure TextFile where
  lines : List FileLine
  last : List UInt8
  noBreak : (10 : UInt8) ∉ last

namespace TextFile

def bytes (t : TextFile) : List UInt8 := t.lines.flatMap FileLine.bytes ++ t.last

/-- The lines without their ends. -/
def texts (t : TextFile) : List (List UInt8) :=
  t.lines.map FileLine.text ++ if t.last = [] then [] else [t.last]

/-- All lines are shorter than `bufsz - 1` bytes. -/
def Short (t : TextFile) (bufsz : Nat) : Prop := ∀ text ∈ t.texts, text.length < bufsz - 1

/-- A byte in front of a file. -/
theorem exists_cons (b : UInt8) (t : TextFile) : ∃ t' : TextFile, t'.bytes = b :: t.bytes := by
  obtain ⟨lines, last, hlast⟩ := t
  by_cases hb : b = 10
  · exact ⟨⟨⟨[], false, List.not_mem_nil, by simp⟩ :: lines, last, hlast⟩, by
      simp [bytes, FileLine.bytes, FileLine.eol, hb]⟩
  · have hb' : (10 : UInt8) ≠ b := Ne.symm hb
    cases lines with
    | nil => exact ⟨⟨[], b :: last, by simp [hb', hlast]⟩, by simp [bytes]⟩
    | cons l lines =>
      by_cases hcr : l.crlf = false ∧ l.text = [] ∧ b = 13
      · obtain ⟨hlf, htext, rfl⟩ := hcr
        exact ⟨⟨⟨[], true, List.not_mem_nil, by simp⟩ :: lines, last, hlast⟩, by
          simp [bytes, FileLine.bytes, FileLine.eol, hlf, htext]⟩
      · refine ⟨⟨⟨b :: l.text, l.crlf, by simp [hb', l.noBreak], fun hlf => ?_⟩ :: lines, last,
          hlast⟩, by simp [bytes, FileLine.bytes, FileLine.eol]⟩
        cases htext : l.text with
        | nil => simpa using fun h => hcr ⟨hlf, htext, h⟩
        | cons c text =>
          rw [List.getLast?_cons_cons, ← htext]
          exact l.noCr hlf

/-- Every file is a file of lines. -/
theorem exists_bytes (file : List UInt8) : ∃ t : TextFile, t.bytes = file := by
  induction file with
  | nil => exact ⟨⟨[], [], List.not_mem_nil⟩, rfl⟩
  | cons b file ih =>
    obtain ⟨t, rfl⟩ := ih
    exact exists_cons b t

end TextFile

/-- The calls of `__readline` from a position on: the strings that are returned up to null. -/
def readlines (file : List UInt8) (bufsz : Nat) :
    Nat → Nat → List UInt8 → Option (List (List UInt8))
  | 0, _, _ => none
  | fuel + 1, pos, buf =>
      match readline file bufsz pos buf with
      | some (pos, buf) => (readlines file bufsz fuel pos buf).map (cstr buf :: ·)
      | none => some []

/-- Where a last line without a line break ends: a zero byte is there in the memory of the buffer,
    or the line in front of it ended there. -/
def ClosedAt (buf : List UInt8) (n : Nat) : Option FileLine → Prop
  | none => buf.getD n 0 = 0
  | some l => l.text.length ≤ n ∧ n ≤ l.bytes.length

structure TextFile.Readable (t : TextFile) (bufsz : Nat) (buf : List UInt8) : Prop where
  noZero : ∀ text ∈ t.texts, (0 : UInt8) ∉ text
  fits : ∀ l ∈ t.lines, l.bytes.length < bufsz
  last : t.last ≠ [] →
    ¬ (2 ≤ t.last.length ∧ t.last.getD (t.last.length - 2) 0 = 13) ∧
      ClosedAt buf t.last.length t.lines.getLast?

/-! ## One call -/

section Call

variable {file rest : List UInt8} {pos bufsz : Nat} (buf : List UInt8)

theorem readline_nil (h : file.drop pos = []) : readline file bufsz pos buf = none := by
  simp [readline, slice, h]

/-- A line whose line break does not fit the buffer is read with its carriage return. -/
theorem readline_overfull (l : FileLine) (hdrop : file.drop pos = l.bytes ++ rest)
    (htext : l.text.length < bufsz - 1) (hfull : bufsz ≤ l.bytes.length) :
    ∃ pos' buf', readline file bufsz pos buf = some (pos', buf') ∧ cstr buf' ≠ l.text := by
  have hbytes := l.length_bytes
  have heol := l.length_eol
  have hcrlf : l.crlf = true := by
    by_contra h
    rw [if_neg h] at heol
    omega
  rw [if_pos hcrlf] at heol
  have hlen : (l.text ++ [13]).length = l.text.length + 1 := by
    rw [List.length_append, List.length_singleton]
  have hslice : slice file pos (bufsz - 1) = l.text ++ [13] := by
    have hsplit : l.bytes ++ rest = (l.text ++ [13]) ++ 10 :: rest := by
      simp [FileLine.bytes, FileLine.eol, hcrlf]
    have hsz : bufsz - 1 = (l.text ++ [13]).length := by omega
    rw [slice, hdrop, hsplit, hsz, List.take_left]
  obtain ⟨buf', hread, hget⟩ := readline_open buf hslice (by simp) (by simp [l.noBreak])
  refine ⟨_, buf', hread, fun h => ?_⟩
  have hzero := (cstr_eq_iff.mp h).2.2
  rw [hget, hlen, if_neg (by omega), if_neg (by omega), if_pos (by omega),
    getD_append_self] at hzero
  exact absurd hzero (by decide)

/-- The end of a file without a line break is not closed. -/
theorem readline_unended {last : List UInt8} (hdrop : file.drop pos = last) (hne : last ≠ [])
    (hbreak : (10 : UInt8) ∉ last) (hlen : last.length < bufsz - 1) :
    ∃ buf', readline file bufsz pos buf = some (pos + last.length, buf') ∧
      ∀ j ≤ last.length, buf'.getD j 0 =
        if (2 ≤ last.length ∧ last.getD (last.length - 2) 0 = 13) ∧ j = last.length - 2 then 0
        else if j < last.length then last.getD j 0 else buf.getD j 0 := by
  have hslice : slice file pos (bufsz - 1) = last := by
    rw [slice, hdrop, List.take_of_length_le (Nat.le_of_lt hlen)]
  obtain ⟨buf', hread, hget⟩ := readline_open buf hslice hne hbreak
  refine ⟨buf', hread, fun j hj => ?_⟩
  rw [hget, if_neg (show j ≠ bufsz - 1 by omega)]

end Call

/-! ## All calls -/

section Calls

variable {file : List UInt8} {bufsz pos fuel : Nat}

theorem TextFile.bytes_cons (l : FileLine) (lines : List FileLine) {last : List UInt8}
    (h : (10 : UInt8) ∉ last) :
    TextFile.bytes ⟨l :: lines, last, h⟩ = l.bytes ++ TextFile.bytes ⟨lines, last, h⟩ := by
  simp [TextFile.bytes]

theorem TextFile.texts_cons (l : FileLine) (lines : List FileLine) {last : List UInt8}
    (h : (10 : UInt8) ∉ last) :
    TextFile.texts ⟨l :: lines, last, h⟩ = l.text :: TextFile.texts ⟨lines, last, h⟩ := rfl

theorem getD_ne_zero {l : List UInt8} (h : (0 : UInt8) ∉ l) {j : Nat} (hj : j < l.length) :
    l.getD j 0 ≠ 0 := by
  have hne := getD_ne_of_not_mem h [] hj
  rwa [List.append_nil] at hne

/-- Behind the only line, the buffer has a zero at the length of the rest exactly if the line ended
    there. -/
theorem closedAt_read {l : FileLine} {last buf : List UInt8} (hl : (0 : UInt8) ∉ l.text)
    (hlast : (0 : UInt8) ∉ last) (hne : last ≠ [])
    (hbuf : buf.getD last.length 0 =
      if l.text.length ≤ last.length ∧ last.length ≤ l.bytes.length then 0
      else (l.bytes ++ last).getD last.length 0) :
    buf.getD last.length 0 = 0 ↔
      l.text.length ≤ last.length ∧ last.length ≤ l.bytes.length := by
  rw [hbuf]
  refine ⟨fun h => ?_, fun h => if_pos h⟩
  by_contra hout
  rw [if_neg hout] at h
  have hbytes := l.length_bytes
  have hbody := l.length_body
  by_cases hlt : last.length < l.text.length
  · rw [getD_append_of_lt _ (by omega), FileLine.bytes, getD_append_of_lt _ hlt] at h
    exact getD_ne_zero hl hlt h
  · have hpos : 0 < last.length := List.length_pos_iff.mpr hne
    have hge : l.bytes.length ≤ last.length := by omega
    have hin : last.length - l.bytes.length < last.length := by omega
    rw [List.getD_eq_getElem?_getD, List.getElem?_append_right hge,
      ← List.getD_eq_getElem?_getD] at h
    exact getD_ne_zero hlast hin h

/-- A line that is read, and the rest behind it. -/
theorem readable_cons {l : FileLine} {lines : List FileLine} {last buf buf' : List UInt8}
    (h : (10 : UInt8) ∉ last) (hlast : last.length < bufsz - 1) (hfits : l.bytes.length < bufsz)
    (hbuf : ∀ j < bufsz - 1, j < (l.bytes ++ TextFile.bytes ⟨lines, last, h⟩).length →
      buf'.getD j 0 = if l.text.length ≤ j ∧ j ≤ l.bytes.length then 0
        else (l.bytes ++ TextFile.bytes ⟨lines, last, h⟩).getD j 0) :
    TextFile.Readable ⟨l :: lines, last, h⟩ bufsz buf ↔
      (0 : UInt8) ∉ l.text ∧ TextFile.Readable ⟨lines, last, h⟩ bufsz buf' := by
  have hclosed : last ≠ [] → (0 : UInt8) ∉ l.text → (0 : UInt8) ∉ last →
      (ClosedAt buf last.length (l :: lines).getLast? ↔
        ClosedAt buf' last.length lines.getLast?) := by
    intro hne hl hzero
    cases lines with
    | nil =>
      have hbytes : TextFile.bytes ⟨[], last, h⟩ = last := rfl
      have heol := l.length_eol
      have hlen := l.length_bytes
      rw [hbytes] at hbuf
      have hend := hbuf last.length hlast (by
        rw [List.length_append]
        split_ifs at heol <;> omega)
      exact (closedAt_read hl hzero hne hend).symm
    | cons l' lines => rw [List.getLast?_cons_cons, List.getLast?_cons]; rfl
  have hmem : last ≠ [] → last ∈ TextFile.texts ⟨lines, last, h⟩ := fun hne => by
    simp [TextFile.texts, hne]
  constructor
  · intro hr
    have hl : (0 : UInt8) ∉ l.text := hr.noZero _ List.mem_cons_self
    have hrest : ∀ text ∈ TextFile.texts ⟨lines, last, h⟩, (0 : UInt8) ∉ text :=
      fun text htext => hr.noZero _ (List.mem_cons_of_mem _ htext)
    exact ⟨hl, hrest, fun x hx => hr.fits _ (List.mem_cons_of_mem _ hx), fun hne =>
      ⟨(hr.last hne).1, (hclosed hne hl (hrest _ (hmem hne))).mp (hr.last hne).2⟩⟩
  · rintro ⟨hl, hr⟩
    refine ⟨fun text htext => ?_, fun x hx => ?_, fun hne => ⟨(hr.last hne).1,
      (hclosed hne hl (hr.noZero _ (hmem hne))).mpr (hr.last hne).2⟩⟩
    · obtain rfl | htext := List.mem_cons.mp htext
      · exact hl
      · exact hr.noZero _ htext
    · obtain rfl | hx := List.mem_cons.mp hx
      · exact hfits
      · exact hr.fits _ hx

theorem readlines_succ {buf buf' : List UInt8} {pos' : Nat}
    (h : readline file bufsz pos buf = some (pos', buf')) (text : List UInt8)
    (texts : List (List UInt8)) :
    readlines file bufsz (fuel + 1) pos buf = some (text :: texts) ↔
      cstr buf' = text ∧ readlines file bufsz fuel pos' buf' = some texts := by
  rw [readlines, h, Option.map_eq_some_iff]
  constructor
  · rintro ⟨rest, hrest, heq⟩
    obtain ⟨hhead, rfl⟩ := List.cons.inj heq
    exact ⟨hhead, hrest⟩
  · rintro ⟨rfl, hrest⟩
    exact ⟨texts, hrest, rfl⟩

theorem readlines_end (h : file.drop pos = []) (buf : List UInt8) :
    readlines file bufsz (fuel + 1) pos buf = some [] := by
  rw [readlines, readline_nil buf h]

/-- The last line, if there is one. -/
theorem readlines_last {last : List UInt8} (h : (10 : UInt8) ∉ last)
    (hdrop : file.drop pos = last) (hlen : last ≠ [] → last.length < bufsz - 1)
    (hfuel : last.length < fuel) (buf : List UInt8) :
    readlines file bufsz fuel pos buf = some (TextFile.texts ⟨[], last, h⟩) ↔
      TextFile.Readable ⟨[], last, h⟩ bufsz buf := by
  obtain _ | fuel := fuel
  · exact absurd hfuel (Nat.not_lt_zero _)
  by_cases hnil : last = []
  · subst hnil
    rw [readlines_end hdrop]
    exact iff_of_true rfl ⟨by simp [TextFile.texts], by simp, fun hne => absurd rfl hne⟩
  · have htexts : TextFile.texts ⟨[], last, h⟩ = [last] := by simp [TextFile.texts, hnil]
    obtain ⟨buf', hread, hget⟩ := readline_unended buf hdrop hnil h (hlen hnil)
    have hpos : 0 < last.length := List.length_pos_iff.mpr hnil
    have hrest : readlines file bufsz fuel (pos + last.length) buf' = some [] := by
      obtain ⟨n, rfl⟩ := Nat.exists_eq_add_of_le' (show 1 ≤ fuel by omega)
      refine readlines_end ?_ buf'
      rw [← List.drop_drop, hdrop, List.drop_length]
    rw [htexts, readlines_succ hread, cstr_eq_iff]
    constructor
    · rintro ⟨⟨hzero, hsame, hend⟩, -⟩
      rw [hget _ (Nat.le_refl _), if_neg (by omega), if_neg (Nat.lt_irrefl _)] at hend
      refine ⟨by simpa [htexts] using hzero, by simp, fun _ => ⟨fun hcr => ?_, hend⟩⟩
      have hcut := hsame (last.length - 2) (by omega)
      rw [hget _ (by omega), if_pos ⟨hcr, rfl⟩, hcr.2] at hcut
      exact absurd hcut (by decide)
    · intro hr
      obtain ⟨hcr, hend⟩ := hr.last hnil
      refine ⟨⟨hr.noZero last (by simp [htexts]), fun j hj => ?_, ?_⟩, hrest⟩
      · rw [hget j (Nat.le_of_lt hj), if_neg fun hc => hcr hc.1, if_pos hj]
      · rw [hget _ (Nat.le_refl _), if_neg fun hc => hcr hc.1, if_neg (Nat.lt_irrefl _)]
        exact hend

/-- The lines from a position on. -/
theorem readlines_from {lines : List FileLine} {last : List UInt8} (h : (10 : UInt8) ∉ last)
    (hdrop : file.drop pos = TextFile.bytes ⟨lines, last, h⟩)
    (hshort : TextFile.Short ⟨lines, last, h⟩ bufsz)
    (hfuel : (TextFile.bytes ⟨lines, last, h⟩).length < fuel) (buf : List UInt8) :
    readlines file bufsz fuel pos buf = some (TextFile.texts ⟨lines, last, h⟩) ↔
      TextFile.Readable ⟨lines, last, h⟩ bufsz buf := by
  induction lines generalizing pos fuel buf with
  | nil =>
    exact readlines_last h hdrop (fun hne => hshort last (by simp [TextFile.texts, hne])) hfuel buf
  | cons l lines ih =>
    obtain _ | fuel := fuel
    · exact absurd hfuel (Nat.not_lt_zero _)
    have htext : l.text.length < bufsz - 1 := hshort l.text List.mem_cons_self
    have hshort' : TextFile.Short ⟨lines, last, h⟩ bufsz := fun text htext =>
      hshort text (List.mem_cons_of_mem _ htext)
    have hlast : last.length < bufsz - 1 := by
      by_cases hne : last = []
      · rw [hne]
        exact Nat.zero_lt_of_lt htext
      · exact hshort' last (by simp [TextFile.texts, hne])
    rw [TextFile.bytes_cons] at hdrop hfuel
    rw [TextFile.texts_cons]
    by_cases hfits : l.bytes.length < bufsz
    · obtain ⟨buf', hread, hget⟩ := readline_ended buf l hdrop hfits
      have hdrop' : file.drop (pos + l.bytes.length) = TextFile.bytes ⟨lines, last, h⟩ := by
        rw [← List.drop_drop, hdrop, List.drop_left]
      have hlen := l.length_body
      rw [readlines_succ hread, cstr_ended htext hget, readable_cons h hlast hfits hget,
        ih hdrop' hshort' (by rw [List.length_append] at hfuel; omega)]
    · obtain ⟨pos', buf', hread, hne⟩ := readline_overfull buf l hdrop htext
        (Nat.le_of_not_lt hfits)
      rw [readlines_succ hread]
      exact iff_of_false (fun hc => hne hc.1) fun hr => hfits (hr.fits l List.mem_cons_self)

end Calls

/-- From the start of a file the calls return its lines, and then null, exactly if it is
    readable. -/
theorem readlines_iff (t : TextFile) {bufsz fuel : Nat} (hshort : t.Short bufsz)
    (hfuel : t.bytes.length < fuel) (buf : List UInt8) :
    readlines t.bytes bufsz fuel 0 buf = some t.texts ↔ t.Readable bufsz buf :=
  readlines_from t.noBreak List.drop_zero hshort hfuel buf

/-- Two lines, and a last one that ends where the second did. -/
def threeLines : TextFile where
  lines := [⟨[97, 98], true, by decide, by decide⟩, ⟨[99], false, by decide, by decide⟩]
  last := [120, 121]
  noBreak := by decide

theorem threeLines_read :
    readlines threeLines.bytes lineBufsz 10 0 (List.replicate lineBufsz 1) =
      some [[97, 98], [99], [120, 121]] :=
  (readlines_iff threeLines (by unfold TextFile.Short; decide) (by decide) _).mpr
    ⟨by decide, by decide, fun _ => ⟨by decide, by decide, by decide⟩⟩

/-- A last line that is shorter than the line in front of it. -/
def staleFile : TextFile where
  lines := [⟨[97, 98, 99, 100, 101, 102], false, by decide, by decide⟩]
  last := [120, 121]
  noBreak := by decide

/-- It goes on with the bytes of that line. -/
theorem staleFile_read : staleFile.Short lineBufsz ∧
    readlines staleFile.bytes lineBufsz 10 0 (List.replicate lineBufsz 0) =
      some [[97, 98, 99, 100, 101, 102], [120, 121, 99, 100, 101, 102]] ∧
    readlines staleFile.bytes lineBufsz 10 0 (List.replicate lineBufsz 0) ≠
      some staleFile.texts := by
  have hread : readlines staleFile.bytes lineBufsz 10 0 (List.replicate lineBufsz 0) =
      some [[97, 98, 99, 100, 101, 102], [120, 121, 99, 100, 101, 102]] := by
    decide +kernel
  refine ⟨by unfold TextFile.Short; decide, hread, ?_⟩
  rw [hread]
  decide

end K64Gateway.CfgLines
