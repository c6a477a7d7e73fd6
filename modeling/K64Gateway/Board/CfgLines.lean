import K64Gateway.Lib.CString
import K64Gateway.Lib.FileImage

/-
  The backup file of `board/cfg/cfg_recover.c`: one line for the version and one for each entry of
  the configuration.

  Proved: what a call of `__readline` leaves in the buffer, for a line that ends in it
  (`readline_ended`) and where no line break is read (`readline_open`); and the texts that are read
  back are those that were written, exactly if none of them has more than 4099 bytes
  (`recover_save`).
-/

namespace K64Gateway.CfgLines

open CString FileImage

/-! ## Writing -/

/-- The text of an entry as `cJSON_PrintUnformatted` prints an object. -/
structure CfgText where
  body : List UInt8
  noBreak : (10 : UInt8) ∉ body
  noZero : (0 : UInt8) ∉ body

/-- The text with its braces. -/
def CfgText.text (t : CfgText) : List UInt8 := 123 :: t.body ++ [125]

/-- What `__write_cfg_line` writes, without the line break. -/
def cfgLine (t : CfgText) : List UInt8 := [35, 35] ++ t.text ++ [35, 35]

/-- `CFG_VER` -/
def cfgVer : Nat := 1

/-- The text of the version. -/
def verText : CfgText where
  body := chars "\"ver\":".toList ++ decimal cfgVer
  noBreak := by decide
  noZero := by decide

/-- The file that `cfg_save_with_json` writes. -/
def cfgSaveWithJson (entries : List CfgText) : List UInt8 :=
  (verText :: entries).flatMap fun t => cfgLine t ++ [10]

/-! ## Reading -/

/-- `_LINE_BUFSZ` -/
def lineBufsz : Nat := 4096 + 8

/-- `while (line[index++] != '\n' && index < len)` -/
def scanLine (line : List UInt8) (len : Nat) : Nat → Nat → Nat
  | 0, index => index
  | fuel + 1, index =>
      if line.getD index 0 ≠ 10 ∧ index + 1 < len then scanLine line len fuel (index + 1)
      else index + 1

/-- `__readline`: the new read position, and the buffer. -/
def readline (file : List UInt8) (bufsz pos : Nat) (line : List UInt8) :
    Option (Nat × List UInt8) :=
  let data := slice file pos (bufsz - 1)
  let len := data.length
  let line := (data ++ line.drop len).set (bufsz - 1) 0
  if 0 < len then
    let index := scanLine line len len 0
    let pos := if index < len then pos + index else pos + len
    let line := if index < len then line.set index 0 else line
    let line := if 1 ≤ index ∧ line.getD (index - 1) 0 = 10 then line.set (index - 1) 0 else line
    let line := if 2 ≤ index ∧ line.getD (index - 2) 0 = 13 then line.set (index - 2) 0 else line
    some (pos, line)
  else none

/-- `__check_cfg_line` on a string. -/
def checkCfgLine (line : List UInt8) : Option (List UInt8) :=
  let len := line.length
  if line.getD 0 0 = 35 ∧ line.getD 1 0 = 35 ∧ line.getD 2 0 = 123 ∧
      line.getD (len - 3) 0 = 125 ∧ line.getD (len - 2) 0 = 35 ∧ line.getD (len - 1) 0 = 35 then
    some ((line.take (len - 2)).drop 2)
  else none

/-- The loop of `cfg_recover_with_json`: the line that is taken for the version, and those that
    are passed to `__parse_cfg_line`. Every line that is read takes a byte of the file at least. -/
def recoverLoop (file : List UInt8) :
    Nat → Nat → List UInt8 → Option (List UInt8) → List (List UInt8) →
      Option (List UInt8) × List (List UInt8)
  | 0, _, _, ver, passed => (ver, passed)
  | fuel + 1, pos, buf, ver, passed =>
      match readline file lineBufsz pos buf with
      | some (pos, buf) =>
          match checkCfgLine (cstr buf), ver with
          | some line, none => recoverLoop file fuel pos buf (some line) passed
          | some line, some ver => recoverLoop file fuel pos buf (some ver) (passed ++ [line])
          | none, ver => recoverLoop file fuel pos buf ver passed
      | none => (ver, passed)

/-- `cfg_recover_with_json`, with what the memory of the line buffer held at first. -/
def cfgRecoverWithJson (file buf : List UInt8) : Option (List UInt8) × List (List UInt8) :=
  recoverLoop file (file.length + 1) 0 buf none []

/-! ## Lines -/

/-- A line with its end, LF or CR LF. -/
structure FileLine where
  text : List UInt8
  crlf : Bool
  noBreak : (10 : UInt8) ∉ text
  noCr : crlf = false → text.getLast? ≠ some 13

def FileLine.eol (l : FileLine) : List UInt8 := if l.crlf then [13, 10] else [10]

def FileLine.bytes (l : FileLine) : List UInt8 := l.text ++ l.eol

theorem FileLine.length_bytes (l : FileLine) : l.bytes.length = l.text.length + l.eol.length :=
  List.length_append

theorem FileLine.length_eol (l : FileLine) : l.eol.length = if l.crlf then 2 else 1 := by
  unfold FileLine.eol
  split_ifs <;> rfl

/-- A line up to its line break. -/
def FileLine.body (l : FileLine) : List UInt8 := if l.crlf then l.text ++ [13] else l.text

theorem FileLine.bytes_eq (l : FileLine) : l.bytes = l.body ++ [10] := by
  unfold FileLine.bytes FileLine.body FileLine.eol
  split_ifs <;> simp

theorem FileLine.not_mem_body (l : FileLine) : (10 : UInt8) ∉ l.body := by
  unfold FileLine.body
  split_ifs
  · simpa using l.noBreak
  · exact l.noBreak

theorem FileLine.length_body (l : FileLine) : l.bytes.length = l.body.length + 1 := by
  rw [l.bytes_eq, List.length_append, List.length_singleton]

/-- The last byte of the body is a carriage return exactly in a line that ends in CR LF. -/
theorem FileLine.body_cr_iff (l : FileLine) {j : Nat} (hj : j + 1 = l.body.length) :
    l.body.getD j 0 = 13 ↔ j = l.text.length := by
  cases hcr : l.crlf with
  | true =>
    have hbody : l.body = l.text ++ [13] := by simp [FileLine.body, hcr]
    rw [hbody, List.length_append, List.length_singleton] at hj
    obtain rfl : j = l.text.length := by omega
    simp [hbody]
  | false =>
    have hbody : l.body = l.text := by simp [FileLine.body, hcr]
    rw [hbody] at hj ⊢
    refine iff_of_false (fun h => l.noCr hcr ?_) (by omega)
    rw [List.getLast?_eq_getElem?, ← hj, Nat.add_sub_cancel,
      List.getElem?_eq_getElem (by omega)]
    rw [List.getD_eq_getElem?_getD, List.getElem?_eq_getElem (by omega)] at h
    exact congrArg some h

/-! ## One line -/

theorem scanLine_eq {line : List UInt8} {len k : Nat} (hk : k < len)
    (hbefore : ∀ j < k, line.getD j 0 ≠ 10) (hend : line.getD k 0 = 10 ∨ k + 1 = len)
    {fuel index : Nat} (hindex : index ≤ k) (hfuel : len ≤ fuel + index) :
    scanLine line len fuel index = k + 1 := by
  induction fuel generalizing index with
  | zero => omega
  | succ fuel ih =>
    unfold scanLine
    by_cases hlt : index < k
    · rw [if_pos ⟨hbefore index hlt, by omega⟩]
      exact ih hlt (by omega)
    · obtain rfl : index = k := by omega
      rw [if_neg fun h => hend.elim h.1 (by omega)]

theorem getD_append_self (text rest : List UInt8) (c : UInt8) :
    (text ++ c :: rest).getD text.length 0 = c := by
  simp

theorem getD_ne_of_not_mem {text : List UInt8} {c : UInt8} (h : c ∉ text) (rest : List UInt8)
    {j : Nat} (hj : j < text.length) : (text ++ rest).getD j 0 ≠ c := by
  intro heq
  rw [List.getD_eq_getElem?_getD, List.getElem?_append_left hj, List.getElem?_eq_getElem hj,
    Option.getD_some] at heq
  exact h (heq ▸ List.getElem_mem hj)

theorem getD_append_of_lt {text : List UInt8} (rest : List UInt8) {i : Nat}
    (h : i < text.length) : (text ++ rest).getD i 0 = text.getD i 0 := by
  simp [List.getD_eq_getElem?_getD, List.getElem?_append_left h]

theorem getD_take {l : List UInt8} {n j : Nat} (hj : j < n) :
    (l.take n).getD j 0 = l.getD j 0 := by
  rw [List.getD_eq_getElem?_getD, List.getElem?_take_of_lt hj, List.getD_eq_getElem?_getD]

theorem getD_set_zero (l : List UInt8) (i j : Nat) :
    (l.set i 0).getD j 0 = if j = i then 0 else l.getD j 0 := by
  simp only [List.getD_eq_getElem?_getD, List.getElem?_set]
  grind

/-- The bytes of the buffer behind `read`. -/
theorem getD_read (data old : List UInt8) (n j : Nat) :
    ((data ++ old.drop data.length).set n 0).getD j 0 =
      if j = n then 0 else if j < data.length then data.getD j 0 else old.getD j 0 := by
  rw [getD_set_zero]
  split_ifs with hn hj
  · rfl
  · exact getD_append_of_lt _ hj
  · rw [List.getD_eq_getElem?_getD, List.getElem?_append_right (Nat.le_of_not_lt hj),
      List.getElem?_drop, Nat.add_sub_cancel' (Nat.le_of_not_lt hj), List.getD_eq_getElem?_getD]

/-- What `__readline` writes into the buffer behind the search. -/
def closeLine (line : List UInt8) (len index : Nat) : List UInt8 :=
  let line := if index < len then line.set index 0 else line
  let line := if 1 ≤ index ∧ line.getD (index - 1) 0 = 10 then line.set (index - 1) 0 else line
  if 2 ≤ index ∧ line.getD (index - 2) 0 = 13 then line.set (index - 2) 0 else line

theorem getD_set_if (p : Prop) [Decidable p] (l : List UInt8) (i j : Nat) :
    (if p then l.set i 0 else l).getD j 0 = if p ∧ j = i then 0 else l.getD j 0 := by
  by_cases hp : p
  · simp only [hp, if_true, true_and, getD_set_zero]
  · simp only [hp, if_false, false_and]

/-- A line break is closed by zeros at the break, behind it, and at a carriage return in front of
    it. -/
theorem getD_closeLine_break {line : List UInt8} {n : Nat} (hbreak : line.getD n 0 = 10)
    (len j : Nat) :
    (closeLine line len (n + 1)).getD j 0 =
      if (j = n + 1 ∧ n + 1 < len) ∨ j = n ∨ (j + 1 = n ∧ line.getD j 0 = 13) then 0
      else line.getD j 0 := by
  unfold closeLine
  dsimp only
  generalize hopen : (if n + 1 < len then line.set (n + 1) 0 else line) = opened
  have hget : ∀ i, opened.getD i 0 = if n + 1 < len ∧ i = n + 1 then 0 else line.getD i 0 := by
    intro i
    rw [← hopen, getD_set_if]
  have hstop : opened.getD n 0 = 10 := by
    rw [hget, if_neg fun h => Nat.ne_of_lt (Nat.lt_succ_self n) h.2, hbreak]
  rw [Nat.add_sub_cancel, if_pos (c := 1 ≤ n + 1 ∧ opened.getD n 0 = 10) ⟨by omega, hstop⟩,
    getD_set_if, getD_set_zero, getD_set_zero, hget, hget]
  obtain _ | n := n
  · grind
  · have hcr : n + 1 + 1 - 2 = n := rfl
    have hn : n ≠ n + 1 ∧ ¬ (n + 1 + 1 < len ∧ n = n + 1 + 1) := by omega
    rw [hcr, if_neg hn.1, if_neg hn.2]
    grind

/-- Without a line break nothing is closed, and a carriage return in the last place but one cuts
    the line. -/
theorem getD_closeLine_end {line : List UInt8} {n : Nat} (hbreak : line.getD (n - 1) 0 ≠ 10)
    (j : Nat) :
    (closeLine line n n).getD j 0 =
      if (2 ≤ n ∧ line.getD (n - 2) 0 = 13) ∧ j = n - 2 then 0 else line.getD j 0 := by
  unfold closeLine
  dsimp only
  rw [if_neg (Nat.lt_irrefl n), if_neg (c := 1 ≤ n ∧ line.getD (n - 1) 0 = 10) fun h => hbreak h.2,
    getD_set_if]

section Call

variable {file rest : List UInt8} {pos bufsz : Nat} (buf : List UInt8)

/-- The buffer behind a call that reads at least one byte and finds the end at `n`. -/
theorem readline_eq (file : List UInt8) (pos bufsz : Nat) {n : Nat}
    (hn : n < (slice file pos (bufsz - 1)).length)
    (hbefore : ∀ j < n, (slice file pos (bufsz - 1)).getD j 0 ≠ 10)
    (hend : (slice file pos (bufsz - 1)).getD n 0 = 10 ∨
      n + 1 = (slice file pos (bufsz - 1)).length) :
    ∃ line, readline file bufsz pos buf = some (pos + (n + 1),
        closeLine line (slice file pos (bufsz - 1)).length (n + 1)) ∧
      ∀ j, line.getD j 0 = if j = bufsz - 1 then 0
        else if j < (slice file pos (bufsz - 1)).length then
          (slice file pos (bufsz - 1)).getD j 0 else buf.getD j 0 := by
  have hsz : (slice file pos (bufsz - 1)).length ≤ bufsz - 1 := List.length_take_le _ _
  generalize hdata : slice file pos (bufsz - 1) = data at hn hbefore hend hsz
  generalize hline : (data ++ buf.drop data.length).set (bufsz - 1) 0 = line
  have hget : ∀ j, line.getD j 0 = if j = bufsz - 1 then 0
      else if j < data.length then data.getD j 0 else buf.getD j 0 := by
    intro j
    rw [← hline, getD_read]
  have hin : ∀ j ≤ n, line.getD j 0 = data.getD j 0 := fun j hj => by
    rw [hget, if_neg (by omega), if_pos (by omega)]
  have hindex : scanLine line data.length data.length 0 = n + 1 :=
    scanLine_eq hn (fun j hj => hin j (Nat.le_of_lt hj) ▸ hbefore j hj)
      (hin n (Nat.le_refl n) ▸ hend) (Nat.zero_le _) (Nat.le_refl _)
  have hpos : (if n + 1 < data.length then pos + (n + 1) else pos + data.length) =
      pos + (n + 1) := by
    split_ifs <;> omega
  refine ⟨line, ?_, hget⟩
  unfold readline
  dsimp only
  rw [hdata, hline, if_pos (Nat.zero_lt_of_lt hn), hindex, hpos]
  rfl

/-- Where no line break is read, the buffer is not closed. -/
theorem readline_open {data : List UInt8} (hslice : slice file pos (bufsz - 1) = data)
    (hne : data ≠ []) (hbreak : (10 : UInt8) ∉ data) :
    ∃ buf', readline file bufsz pos buf = some (pos + data.length, buf') ∧
      ∀ j, buf'.getD j 0 =
        if (2 ≤ data.length ∧ data.getD (data.length - 2) 0 = 13) ∧ j = data.length - 2 then 0
        else if j = bufsz - 1 then 0
        else if j < data.length then data.getD j 0 else buf.getD j 0 := by
  have hpos : 0 < data.length := List.length_pos_iff.mpr hne
  have hsz : data.length ≤ bufsz - 1 := hslice ▸ List.length_take_le _ _
  have hne10 : ∀ j < data.length, data.getD j 0 ≠ 10 := fun j hj => by
    have h := getD_ne_of_not_mem hbreak [] hj
    rwa [List.append_nil] at h
  obtain ⟨line, hread, hget⟩ := readline_eq buf file pos bufsz (n := data.length - 1)
    (by rw [hslice]; omega)
    (fun j hj => by
      rw [hslice]
      exact hne10 j (by omega))
    (Or.inr (by rw [hslice]; omega))
  rw [hslice, Nat.sub_add_cancel hpos] at hread
  rw [hslice] at hget
  have hin : ∀ j < data.length, line.getD j 0 = data.getD j 0 := fun j hj => by
    rw [hget, if_neg (by omega), if_pos hj]
  refine ⟨_, hread, fun j => ?_⟩
  rw [getD_closeLine_end (by rw [hin _ (by omega)]; exact hne10 _ (by omega)), hget j,
    hin _ (by omega)]

/-- A line that fits the buffer with its end is closed where its text ends, with zeros from there up
    to the byte behind the line. -/
theorem readline_ended (l : FileLine) (hdrop : file.drop pos = l.bytes ++ rest)
    (hfits : l.bytes.length < bufsz) :
    ∃ buf', readline file bufsz pos buf = some (pos + l.bytes.length, buf') ∧
      ∀ j < bufsz - 1, j < (l.bytes ++ rest).length → buf'.getD j 0 =
        if l.text.length ≤ j ∧ j ≤ l.bytes.length then 0 else (l.bytes ++ rest).getD j 0 := by
  have hslice : slice file pos (bufsz - 1) = (l.bytes ++ rest).take (bufsz - 1) := by
    rw [slice, hdrop]
  have hlen : (slice file pos (bufsz - 1)).length =
      min (bufsz - 1) (l.bytes ++ rest).length := by
    rw [hslice, List.length_take]
  have hbody := l.length_body
  have htext : l.text.length ≤ l.body.length ∧ l.body.length ≤ l.text.length + 1 := by
    unfold FileLine.body
    split_ifs <;> simp
  have hdata : ∀ j < bufsz - 1, (slice file pos (bufsz - 1)).getD j 0 =
      (l.bytes ++ rest).getD j 0 := fun j hj => by rw [hslice, getD_take hj]
  have hall : (l.bytes ++ rest).length = l.bytes.length + rest.length := List.length_append
  have hhead : ∀ j < l.body.length, (l.bytes ++ rest).getD j 0 = l.body.getD j 0 := fun j hj => by
    rw [l.bytes_eq, List.append_assoc, getD_append_of_lt _ hj]
  have hstop : (l.bytes ++ rest).getD l.body.length 0 = 10 := by
    rw [l.bytes_eq, List.append_assoc]
    exact getD_append_self _ _ _
  obtain ⟨line, hread, hget⟩ := readline_eq buf file pos bufsz (n := l.body.length) (by omega)
    (fun j hj => by
      rw [hdata j (by omega), l.bytes_eq, List.append_assoc]
      exact getD_ne_of_not_mem l.not_mem_body _ hj)
    (Or.inl (by rw [hdata _ (by omega), hstop]))
  refine ⟨_, hread.trans (by rw [hbody]), fun j hj hj' => ?_⟩
  have hline : ∀ j < bufsz - 1, j < (l.bytes ++ rest).length →
      line.getD j 0 = (l.bytes ++ rest).getD j 0 := fun j hj hj' => by
    rw [hget, if_neg (by omega), if_pos (by omega), hdata j hj]
  rw [getD_closeLine_break (by rw [hline _ (by omega) (by omega), hstop]), hline j hj hj', hlen]
  by_cases hcr : j + 1 = l.body.length
  · have hiff := l.body_cr_iff hcr
    rw [hhead j (by omega)]
    grind
  · grind

/-- A buffer that holds a line up to a zero behind its text. -/
theorem cstr_ended {l : FileLine} {buf' : List UInt8} (htext : l.text.length < bufsz - 1)
    (hbuf : ∀ j < bufsz - 1, j < (l.bytes ++ rest).length → buf'.getD j 0 =
      if l.text.length ≤ j ∧ j ≤ l.bytes.length then 0 else (l.bytes ++ rest).getD j 0) :
    cstr buf' = l.text ↔ (0 : UInt8) ∉ l.text := by
  have hbytes : l.bytes.length = l.text.length + l.eol.length := List.length_append
  have hpos := l.length_body
  have hall : (l.bytes ++ rest).length = l.bytes.length + rest.length := List.length_append
  have htext' : l.text.length < l.bytes.length := by
    have heol := l.length_eol
    split_ifs at heol <;> omega
  rw [cstr_eq_iff]
  refine ⟨fun hc => hc.1, fun hzero => ⟨hzero, fun j hj => ?_, ?_⟩⟩
  · rw [hbuf j (by omega) (by omega), if_neg (by omega), FileLine.bytes, List.append_assoc,
      getD_append_of_lt _ hj]
  · rw [hbuf _ htext (by omega), if_pos (by omega)]

/-- The bytes from the read position on begin with a line that fits the buffer. -/
theorem readline_line {text : List UInt8} (hdrop : file.drop pos = text ++ 10 :: rest)
    (hfits : text.length + 1 < bufsz) (hbreak : (10 : UInt8) ∉ text) (hzero : (0 : UInt8) ∉ text)
    (hcr : text.getD (text.length - 1) 0 ≠ 13) :
    ∃ buf', readline file bufsz pos buf = some (pos + (text.length + 1), buf') ∧
      cstr buf' = text := by
  let l : FileLine := ⟨text, false, hbreak, fun _ hlast => hcr (by
    rw [List.getD_eq_getElem?_getD, ← List.getLast?_eq_getElem?, hlast]
    rfl)⟩
  have hbytes : l.bytes = text ++ [10] := rfl
  have hlen : l.bytes.length = text.length + 1 := by
    rw [hbytes, List.length_append, List.length_singleton]
  have hdrop' : file.drop pos = l.bytes ++ rest := by
    rw [hdrop, hbytes, List.append_assoc]
    rfl
  have hfits' : l.bytes.length < bufsz := by omega
  obtain ⟨buf', hread, hget⟩ := readline_ended buf l hdrop' hfits'
  have htext : l.text.length < bufsz - 1 := by
    show text.length < bufsz - 1
    omega
  exact ⟨buf', hlen ▸ hread, (cstr_ended htext hget).mpr hzero⟩

/-- They begin with more than the buffer holds. -/
theorem readline_full {text : List UInt8} (hdrop : file.drop pos = text ++ rest)
    (hlen : text.length + 1 = bufsz) (hpos : 0 < text.length) (hbreak : (10 : UInt8) ∉ text)
    (hzero : (0 : UInt8) ∉ text) (hcr : text.getD (text.length - 2) 0 ≠ 13) :
    ∃ buf', readline file bufsz pos buf = some (pos + text.length, buf') ∧ cstr buf' = text := by
  have hsz : bufsz - 1 = text.length := by omega
  have hslice : slice file pos (bufsz - 1) = text := by
    rw [slice, hdrop, hsz, List.take_left]
  obtain ⟨buf', hread, hget⟩ :=
    readline_open buf hslice (List.length_pos_iff.mp hpos) hbreak
  refine ⟨buf', hread, cstr_eq_iff.mpr ⟨hzero, fun j hj => ?_, ?_⟩⟩
  · rw [hget, if_neg fun h => hcr h.1.2, if_neg (by omega), if_pos hj]
  · rw [hget, if_neg (by omega), if_pos hsz.symm]

end Call

theorem length_cstr_le_of_zero {l : List UInt8} {i : Nat} (hi : i < l.length)
    (h : l.getD i 0 = 0) : (cstr l).length ≤ i := by
  have hsplit : l = l.take i ++ 0 :: l.drop (i + 1) := by
    have hget : l[i] = 0 := by
      simpa [List.getD_eq_getElem?_getD, List.getElem?_eq_getElem hi] using h
    rw [← hget, ← List.drop_eq_getElem_cons hi, List.take_append_drop]
  rw [hsplit, cstr_append_zero]
  exact Nat.le_trans (length_cstr_le _) (List.length_take_le _ _)

/-- A buffer that is closed by a zero. -/
def Closed (bufsz : Nat) (line : List UInt8) : Prop :=
  line.length = bufsz ∧ line.getD (bufsz - 1) 0 = 0

theorem Closed.set {bufsz : Nat} {line : List UInt8} (h : Closed bufsz line) (i : Nat) :
    Closed bufsz (line.set i 0) := by
  refine ⟨by rw [List.length_set, h.1], ?_⟩
  rw [List.getD_eq_getElem?_getD, List.getElem?_set]
  split
  · split <;> rfl
  · rw [← List.getD_eq_getElem?_getD, h.2]

/-- What is read is a string that fits the buffer. -/
theorem closed_readline {file buf : List UInt8} {bufsz pos pos' : Nat} {buf' : List UInt8}
    (hsz : 0 < bufsz) (hbuf : buf.length = bufsz)
    (h : readline file bufsz pos buf = some (pos', buf')) : Closed bufsz buf' := by
  have hdata : (slice file pos (bufsz - 1)).length ≤ bufsz - 1 := by
    unfold slice
    exact List.length_take_le _ _
  have hread : Closed bufsz ((slice file pos (bufsz - 1) ++
      buf.drop (slice file pos (bufsz - 1)).length).set (bufsz - 1) 0) := by
    have hlen : (slice file pos (bufsz - 1) ++
        buf.drop (slice file pos (bufsz - 1)).length).length = bufsz := by
      rw [List.length_append, List.length_drop, hbuf]
      omega
    refine ⟨by rw [List.length_set, hlen], ?_⟩
    rw [List.getD_eq_getElem?_getD, List.getElem?_set_self (by omega)]
    rfl
  have hset : ∀ (p : Prop) [Decidable p] (l : List UInt8) (i : Nat), Closed bufsz l →
      Closed bufsz (if p then l.set i 0 else l) := fun p _ l i hl => by
    split
    · exact hl.set i
    · exact hl
  unfold readline at h
  dsimp only at h
  split at h
  · obtain ⟨-, rfl⟩ := Prod.mk.inj (Option.some.inj h)
    exact hset _ _ _ (hset _ _ _ (hset _ _ _ hread))
  · exact nomatch h

/-! ## The lines of a file -/

theorem length_cfgLine (t : CfgText) : (cfgLine t).length = t.text.length + 4 := by
  simp [cfgLine]

/-- The line of a text passes the check. -/
theorem checkCfgLine_cfgLine (t : CfgText) : checkCfgLine (cfgLine t) = some t.text := by
  have hlen : (cfgLine t).length = t.body.length + 6 := by
    simp [cfgLine, CfgText.text]
  have hbrace : (cfgLine t).getD (t.body.length + 3) 0 = 125 := by
    simp [cfgLine, CfgText.text]
  have hhash : (cfgLine t).getD (t.body.length + 4) 0 = 35 := by
    simp [cfgLine, CfgText.text]
  have hhash' : (cfgLine t).getD (t.body.length + 5) 0 = 35 := by
    simp [cfgLine, CfgText.text]
  have htext : ((cfgLine t).take (t.body.length + 4)).drop 2 = t.text := by
    simp [cfgLine, CfgText.text, List.take_append]
  unfold checkCfgLine
  dsimp only
  rw [hlen, show t.body.length + 6 - 3 = t.body.length + 3 by omega,
    show t.body.length + 6 - 2 = t.body.length + 4 by omega,
    show t.body.length + 6 - 1 = t.body.length + 5 by omega, htext]
  exact if_pos ⟨rfl, rfl, rfl, hbrace, hhash, hhash'⟩

/-- A text that passes is four bytes shorter than its line. -/
theorem length_of_checkCfgLine {line text : List UInt8} (h : checkCfgLine line = some text) :
    text.length + 4 = line.length := by
  unfold checkCfgLine at h
  dsimp only at h
  split at h
  · next hends =>
    obtain ⟨h0, h1, h2, h3, -, -⟩ := hends
    have hlong : 3 < line.length := by
      rcases line with _ | ⟨a, _ | ⟨b, _ | ⟨c, _ | ⟨d, line⟩⟩⟩⟩ <;> simp_all
    obtain rfl := Option.some.inj h
    rw [List.length_drop, List.length_take]
    omega
  · exact nomatch h

theorem not_mem_cfgLine {c : UInt8} (t : CfgText) (hc : c ≠ 35 ∧ c ≠ 123 ∧ c ≠ 125)
    (h : c ∉ t.body) : c ∉ cfgLine t := by
  simp [cfgLine, CfgText.text, hc, h]

/-- An empty line does not pass. -/
theorem checkCfgLine_nil : checkCfgLine [] = none := by
  simp [checkCfgLine]

/-- The string in the buffer, and what is done with it. -/
theorem recoverLoop_succ {file buf buf' : List UInt8} {pos pos' : Nat}
    (h : readline file lineBufsz pos buf = some (pos', buf')) (fuel : Nat)
    (ver : List UInt8) (passed : List (List UInt8)) :
    recoverLoop file (fuel + 1) pos buf (some ver) passed =
      recoverLoop file fuel pos' buf' (some ver)
        (passed ++ (checkCfgLine (cstr buf')).toList) := by
  conv_lhs => unfold recoverLoop
  rw [h]
  dsimp only
  cases checkCfgLine (cstr buf') with
  | none => simp
  | some line => simp

/-- A line that fits the buffer. -/
theorem readline_cfgLine {file rest : List UInt8} (buf : List UInt8) {pos : Nat} (t : CfgText)
    (hdrop : file.drop pos = cfgLine t ++ 10 :: rest) (hlen : t.text.length ≤ 4098) :
    ∃ buf', readline file lineBufsz pos buf = some (pos + ((cfgLine t).length + 1), buf') ∧
      cstr buf' = cfgLine t := by
  have hlast : (cfgLine t).getD ((cfgLine t).length - 1) 0 = 35 := by
    simp [cfgLine]
  refine readline_line buf hdrop ?_ (not_mem_cfgLine t (by decide) t.noBreak)
    (not_mem_cfgLine t (by decide) t.noZero) ?_
  · rw [length_cfgLine, lineBufsz]
    omega
  · rw [hlast]
    decide

/-- Where the line is one byte longer than that, its line break is read as a line of its own. -/
theorem readline_cfgLine_full {file rest : List UInt8} (buf : List UInt8) {pos : Nat}
    (t : CfgText) (hdrop : file.drop pos = cfgLine t ++ 10 :: rest)
    (hlen : t.text.length = 4099) :
    ∃ buf' buf'', readline file lineBufsz pos buf = some (pos + (cfgLine t).length, buf') ∧
      cstr buf' = cfgLine t ∧
      readline file lineBufsz (pos + (cfgLine t).length) buf' =
        some (pos + ((cfgLine t).length + 1), buf'') ∧ cstr buf'' = [] := by
  have hsecond : (cfgLine t).getD ((cfgLine t).length - 2) 0 = 35 := by
    simp [cfgLine]
  have hfull : (cfgLine t).length + 1 = lineBufsz := by
    rw [length_cfgLine, hlen, lineBufsz]
  obtain ⟨buf', hread, hcstr⟩ := readline_full buf hdrop hfull
    (by rw [length_cfgLine]; omega) (not_mem_cfgLine t (by decide) t.noBreak)
    (not_mem_cfgLine t (by decide) t.noZero) (by rw [hsecond]; decide)
  have hdrop' : file.drop (pos + (cfgLine t).length) = [] ++ 10 :: rest := by
    rw [← List.drop_drop, hdrop, List.drop_left]
    rfl
  obtain ⟨buf'', hread', hcstr'⟩ := readline_line buf' hdrop' (by decide : 0 + 1 < lineBufsz)
    List.not_mem_nil List.not_mem_nil (by decide)
  exact ⟨buf', buf'', hread, hcstr, hread', hcstr'⟩

/-- Nothing is read at the end of the file. -/
theorem recoverLoop_end {file : List UInt8} {pos : Nat} (h : file.drop pos = []) (fuel : Nat)
    (buf : List UInt8) (ver : Option (List UInt8)) (passed : List (List UInt8)) :
    recoverLoop file fuel pos buf ver passed = (ver, passed) := by
  have hnone : readline file lineBufsz pos buf = none := by
    simp [readline, slice, h]
  cases fuel with
  | zero => rfl
  | succ fuel =>
    unfold recoverLoop
    rw [hnone]

/-- The texts from the read position on are passed one by one. -/
theorem recoverLoop_eq {file : List UInt8} (ver : List UInt8) (entries : List CfgText)
    (hlen : ∀ t ∈ entries, t.text.length ≤ 4099) {pos : Nat}
    (hdrop : file.drop pos = entries.flatMap fun t => cfgLine t ++ [10])
    {buf : List UInt8} (hbuf : buf.length = lineBufsz) {fuel : Nat}
    (hfuel : file.length < fuel + pos) (passed : List (List UInt8)) :
    (recoverLoop file fuel pos buf (some ver) passed).2 = passed ++ entries.map CfgText.text := by
  have hsz : 0 < lineBufsz := by decide
  induction entries generalizing pos buf fuel passed with
  | nil =>
    rw [recoverLoop_end hdrop]
    exact (List.append_nil _).symm
  | cons t entries ih =>
    have hline : file.drop pos =
        cfgLine t ++ 10 :: entries.flatMap fun t => cfgLine t ++ [10] := by
      rw [hdrop, List.flatMap_cons, List.append_assoc]
      rfl
    have hrest : file.drop (pos + ((cfgLine t).length + 1)) =
        entries.flatMap fun t => cfgLine t ++ [10] := by
      rw [← List.drop_drop, hline, ← List.drop_drop, List.drop_left]
      rfl
    have hlong : pos + ((cfgLine t).length + 1) ≤ file.length := by
      have h := congrArg List.length hline
      rw [List.length_drop, List.length_append, List.length_cons] at h
      omega
    have hfour := length_cfgLine t
    have htexts : passed ++ (t :: entries).map CfgText.text =
        passed ++ [t.text] ++ entries.map CfgText.text := by
      simp
    have hrec : ∀ t' ∈ entries, t'.text.length ≤ 4099 := fun t' h =>
      hlen t' (List.mem_cons_of_mem _ h)
    by_cases hfits : t.text.length ≤ 4098
    · obtain ⟨fuel, rfl⟩ := Nat.exists_eq_add_of_le' (show 1 ≤ fuel by omega)
      obtain ⟨buf', hread, hcstr⟩ := readline_cfgLine buf t hline hfits
      rw [recoverLoop_succ hread, hcstr, checkCfgLine_cfgLine, htexts]
      exact ih hrec hrest (closed_readline hsz hbuf hread).1 (by omega) _
    · -- The line is read without its break, and the break as an empty line.
      obtain ⟨fuel, rfl⟩ := Nat.exists_eq_add_of_le' (show 2 ≤ fuel by omega)
      obtain ⟨buf', buf'', hread, hcstr, hread', hcstr'⟩ := readline_cfgLine_full buf t hline
        (Nat.le_antisymm (hlen t (List.mem_cons_self ..)) (by omega))
      have hbuf' := (closed_readline hsz hbuf hread).1
      rw [recoverLoop_succ hread, hcstr, checkCfgLine_cfgLine, recoverLoop_succ hread', hcstr',
        checkCfgLine_nil, htexts]
      simp only [Option.toList_some, Option.toList_none, List.append_nil]
      exact ih hrec hrest (closed_readline hsz hbuf' hread').1 (by omega) _

/-- A text that is passed fits the buffer together with its marks. -/
theorem recoverLoop_length {file : List UInt8} (fuel pos : Nat) {buf : List UInt8}
    (hbuf : buf.length = lineBufsz) (ver : Option (List UInt8)) {passed : List (List UInt8)}
    (hpassed : ∀ text ∈ passed, text.length ≤ 4099) :
    ∀ text ∈ (recoverLoop file fuel pos buf ver passed).2, text.length ≤ 4099 := by
  have hsz : 0 < lineBufsz := by decide
  induction fuel generalizing pos buf ver passed with
  | zero => exact hpassed
  | succ fuel ih =>
    unfold recoverLoop
    split
    · next pos' buf' hread =>
      have hclosed := closed_readline hsz hbuf hread
      have hcstr : (cstr buf').length ≤ 4103 := by
        have h := length_cstr_le_of_zero (i := lineBufsz - 1) (by rw [hclosed.1]; omega) hclosed.2
        exact h
      split
      · exact ih _ hclosed.1 _ hpassed
      · next line ver hcheck =>
        have hline := length_of_checkCfgLine hcheck
        refine ih _ hclosed.1 _ fun text htext => ?_
        obtain htext | htext := List.mem_append.mp htext
        · exact hpassed text htext
        · rw [List.mem_singleton.mp htext]
          omega
      · exact ih _ hclosed.1 _ hpassed
    · exact hpassed

theorem cfgRecoverWithJson_length (file : List UInt8) {buf : List UInt8}
    (hbuf : buf.length = lineBufsz) :
    ∀ text ∈ (cfgRecoverWithJson file buf).2, text.length ≤ 4099 :=
  recoverLoop_length _ _ hbuf none fun _ h => absurd h List.not_mem_nil

/-! ## The round trip -/

/-- The texts that are passed on reading are those that were written, exactly if each of them has
    at most 4099 bytes. -/
theorem recover_save (entries : List CfgText) (buf : List UInt8)
    (hbuf : buf.length = lineBufsz) :
    (cfgRecoverWithJson (cfgSaveWithJson entries) buf).2 = entries.map CfgText.text ↔
      ∀ t ∈ entries, t.text.length ≤ 4099 := by
  constructor
  · intro h t ht
    have hmem : t.text ∈ (cfgRecoverWithJson (cfgSaveWithJson entries) buf).2 := by
      rw [h]
      exact List.mem_map_of_mem ht
    exact cfgRecoverWithJson_length _ hbuf _ hmem
  · intro hlen
    have hline : (cfgSaveWithJson entries).drop 0 =
        cfgLine verText ++ 10 :: entries.flatMap fun t => cfgLine t ++ [10] := by
      rw [List.drop_zero, cfgSaveWithJson, List.flatMap_cons, List.append_assoc]
      rfl
    have hrest : (cfgSaveWithJson entries).drop (0 + ((cfgLine verText).length + 1)) =
        entries.flatMap fun t => cfgLine t ++ [10] := by
      rw [← List.drop_drop, hline, ← List.drop_drop, List.drop_left]
      rfl
    obtain ⟨buf', hread, hcstr⟩ := readline_cfgLine buf verText hline (by decide)
    unfold cfgRecoverWithJson recoverLoop
    rw [hread]
    dsimp only
    rw [hcstr, checkCfgLine_cfgLine]
    exact recoverLoop_eq _ entries hlen hrest
      (closed_readline (by decide) hbuf hread).1 (by omega) []

/-- Two entries that are read back. -/
theorem two_recovered :
    (cfgRecoverWithJson (cfgSaveWithJson [⟨[], List.not_mem_nil, List.not_mem_nil⟩, verText])
      (List.replicate lineBufsz 1)).2 = [[123, 125], verText.text] :=
  (recover_save _ _ List.length_replicate).mpr (by
    intro t ht
    obtain rfl | rfl := List.mem_pair.mp ht <;> decide)

/-- The text of a variable whose expression has 4096 characters, without its other fields. -/
def longText : CfgText where
  body := chars "\"type\":\"extvar\",\"cfg\":\x7b\"exp\":\"".toList ++ List.replicate 4096 97 ++
    chars "\"\x7d".toList
  noBreak := by
    simp only [List.mem_append, List.mem_replicate, not_or]
    decide
  noZero := by
    simp only [List.mem_append, List.mem_replicate, not_or]
    decide

theorem length_longText : longText.text.length = 4130 := by
  rw [CfgText.text, longText, List.length_append, List.length_cons, List.length_append,
    List.length_append, List.length_replicate]
  rfl

/-- It is not passed. -/
theorem longText_lost :
    (cfgRecoverWithJson (cfgSaveWithJson [longText]) (List.replicate lineBufsz 0)).2 ≠
      [longText.text] := by
  intro h
  have hlen := cfgRecoverWithJson_length (cfgSaveWithJson [longText]) List.length_replicate
    longText.text (by rw [h]; exact List.mem_singleton.mpr rfl)
  rw [length_longText] at hlen
  omega

end K64Gateway.CfgLines
