import Mathlib

/-
  A byte receiver that cuts a stream into frames with one ring buffer and two states.

  In state `head` it waits for a preamble that is one word sent twice; after a mismatch it
  restarts behind the first word it has stored, and that word is never replaced. In state `eom`
  it waits for an end mark at a position of at least `minLen`, hands the buffer to `frame` and
  starts again at position 0.

  Proved: what the receiver holds after any stream (`putBytes_phase`), that its position is 0
  exactly after the streams that are `Drained` (`putBytes_pos_eq_zero`), what it does with a
  well-delimited frame from position 0 (`putBytes_frame`), and that it accepts such a frame after
  a stream if and only if the stream is drained and the frame fits (`accepts_iff`). The traced
  receiver puts out every end mark itself: the same run (`traced_putBytes`), and its end marks are
  the ends of the complete frames (`Complete.mark`).
-/

namespace Framing

inductive RcvState where
  | head
  | eom
deriving DecidableEq

/-- What a receiver is built from. `keep` is the position after a mismatch of the preamble,
    `frame` is what is done with the buffer and the position at an end mark. -/
structure Format (α ε : Type) where
  size : Nat
  pre : List α
  keep : Nat
  eom : List α
  eomFrom : Nat
  minLen : Nat
  frame : List α → Nat → List α × List ε
  keep_pos : 0 < keep
  pre_double : pre = pre.take keep ++ pre.take keep
  pre_length : pre.length = 2 * keep
  eomFrom_le : eomFrom ≤ minLen
  mark_le : pre.length + eom.length ≤ minLen
  pre_lt : pre.length < minLen
  minLen_le : minLen ≤ size
  frame_length : ∀ buf n, (frame buf n).1.length = buf.length

variable {α ε : Type} {F : Format α ε}

/-- The receive buffer, the next position in it and the state. -/
structure Receiver (F : Format α ε) where
  buf : List α
  pos : Nat
  state : RcvState
  buf_length : buf.length = F.size
  pos_lt : pos < F.size

theorem Format.pre_lt_size (F : Format α ε) : F.pre.length < F.size :=
  Nat.lt_of_lt_of_le F.pre_lt F.minLen_le

theorem Format.keep_lt_pre (F : Format α ε) : F.keep < F.pre.length := by
  have h1 := F.pre_length
  have h2 := F.keep_pos
  omega

/-! ## The receiver -/

/-- `pBuffer[nPos++] = b; if (nPos >= SIZE) nPos = 0;` -/
def Receiver.store (s : Receiver F) (b : α) : Receiver F where
  buf := s.buf.set s.pos b
  pos := if s.pos + 1 ≥ F.size then 0 else s.pos + 1
  state := s.state
  buf_length := by rw [List.length_set, s.buf_length]
  pos_lt := by
    have := F.pre_lt_size
    split <;> omega

section Run

variable [DecidableEq α]

/-- The body of the loop over the bytes of a call; the second component is what `frame` put
    out. -/
def Receiver.putByte (s : Receiver F) (b : α) : Receiver F × List ε :=
  let s := s.store b
  match s.state with
  | .head =>
      if s.pos = F.pre.length then
        if s.buf.take F.pre.length = F.pre then ({ s with state := .eom }, [])
        else ({ s with pos := F.keep,
                       pos_lt := Nat.lt_trans F.keep_lt_pre F.pre_lt_size }, [])
      else (s, [])
  | .eom =>
      if F.eomFrom ≤ s.pos ∧
          (s.buf.drop (s.pos - F.eom.length)).take F.eom.length = F.eom ∧ F.minLen ≤ s.pos then
        ({ buf := (F.frame s.buf s.pos).1, pos := 0, state := .head,
           buf_length := by rw [F.frame_length, s.buf_length],
           pos_lt := Nat.lt_of_le_of_lt (Nat.zero_le _) s.pos_lt }, (F.frame s.buf s.pos).2)
      else (s, [])

def Receiver.putBytes (s : Receiver F) : List α → Receiver F × List ε
  | [] => (s, [])
  | b :: bs =>
      let r := s.putByte b
      let r' := r.1.putBytes bs
      (r'.1, r.2 ++ r'.2)

/-- One call after the other, one chunk each. -/
def Receiver.putChunks (s : Receiver F) : List (List α) → Receiver F × List ε
  | [] => (s, [])
  | c :: cs =>
      let r := s.putBytes c
      let r' := r.1.putChunks cs
      (r'.1, r.2 ++ r'.2)

theorem Receiver.putBytes_append (s : Receiver F) (xs ys : List α) :
    s.putBytes (xs ++ ys) = (((s.putBytes xs).1.putBytes ys).1,
      (s.putBytes xs).2 ++ ((s.putBytes xs).1.putBytes ys).2) := by
  induction xs generalizing s with
  | nil => rfl
  | cons x xs ih => simp only [List.cons_append, putBytes, ih, List.append_assoc]

/-- How a stream is cut into calls makes no difference. -/
theorem Receiver.putChunks_eq (s : Receiver F) (cs : List (List α)) :
    s.putChunks cs = s.putBytes cs.flatten := by
  induction cs generalizing s with
  | nil => rfl
  | cons c cs ih => rw [List.flatten_cons, putBytes_append, putChunks, ih]

end Run

/-- A fresh receiver on the buffer `buf`. -/
def Receiver.start (buf : List α) (h : buf.length = F.size) : Receiver F where
  buf := buf
  pos := 0
  state := .head
  buf_length := h
  pos_lt := Nat.lt_of_le_of_lt (Nat.zero_le _) F.pre_lt_size

/-! ## Preambles and end marks in a stream

`t` is what arrived in state `head` since the position was 0, `w` is the preamble with what
arrived after it. -/

/-- The last byte of `t` completes the preamble: the first word stored is the preamble's, and
    so is the last one, which ends on a word boundary. -/
def IsLock (F : Format α ε) (t : List α) : Prop :=
  2 * F.keep ≤ t.length ∧ F.keep ∣ t.length ∧ t.take F.keep = F.pre.take F.keep ∧
    t.drop (t.length - F.keep) = F.pre.take F.keep

/-- The last byte of `w` completes an end mark where the receiver looks for one. -/
def EndAt (F : Format α ε) (w : List α) : Prop :=
  F.eom <:+ w ∧ F.minLen ≤ w.length % F.size

instance [DecidableEq α] (F : Format α ε) (t : List α) : Decidable (IsLock F t) := by
  unfold IsLock
  infer_instance

instance [DecidableEq α] (F : Format α ε) (w : List α) : Decidable (EndAt F w) := by
  unfold EndAt
  infer_instance

/-- No byte of `t` completes a preamble. -/
def NoLock (F : Format α ε) (t : List α) : Prop := ∀ j ≤ t.length, ¬ IsLock F (t.take j)

/-- The last byte of `t` completes a preamble, and no byte before it does. -/
def FirstLock (F : Format α ε) (t : List α) : Prop :=
  IsLock F t ∧ ∀ j < t.length, ¬ IsLock F (t.take j)

/-- After the preamble no byte of `v` completes an end mark. -/
def NoEnd (F : Format α ε) (v : List α) : Prop := ∀ j ≤ v.length, ¬ EndAt F (F.pre ++ v.take j)

/-- After the preamble the last byte of `v` completes an end mark, and no byte before it
    does. -/
def FirstEnd (F : Format α ε) (v : List α) : Prop :=
  EndAt F (F.pre ++ v) ∧ ∀ j < v.length, ¬ EndAt F (F.pre ++ v.take j)

/-- The stream is cut into frames without a rest. -/
inductive Frames (F : Format α ε) : List α → Prop where
  | nil : Frames F []
  | frame {g t v : List α} : Frames F g → FirstLock F t → FirstEnd F v → Frames F (g ++ (t ++ v))

/-- The stream is cut into frames, with no rest or with the rest of an unfinished frame that
    fills the buffer to its last byte. -/
def Drained (F : Format α ε) (g : List α) : Prop :=
  Frames F g ∨ ∃ g' t v, g = g' ++ (t ++ v) ∧ Frames F g' ∧ FirstLock F t ∧ NoEnd F v ∧
    (F.pre.length + v.length) % F.size = 0

/-- `f` starts with the preamble, ends with the end mark, and has no end mark before. -/
structure Delimited (F : Format α ε) (f : List α) : Prop where
  pre : F.pre <+: f
  eom : F.eom <:+ f
  once : ∀ j < f.length, ¬ F.eom <:+ f.take j

theorem isLock_pre (F : Format α ε) : IsLock F F.pre := by
  have hlen := F.pre_length
  refine ⟨by omega, ⟨2, by omega⟩, rfl, ?_⟩
  have hsub : F.pre.length - F.keep = (F.pre.take F.keep).length := by
    rw [List.length_take]
    omega
  rw [hsub]
  conv_lhs => rw [F.pre_double]
  rw [List.take_append_of_le_length (by rw [List.length_take]; omega), List.take_take,
    Nat.min_self, List.drop_left]

theorem firstLock_pre (F : Format α ε) : FirstLock F F.pre := by
  refine ⟨isLock_pre F, fun j hj h => ?_⟩
  have h2 := h.1
  have hlen := F.pre_length
  rw [List.length_take] at h2
  omega

theorem not_isLock_nil (F : Format α ε) : ¬ IsLock F [] := by
  intro h
  have h1 := h.1
  have h2 := F.keep_pos
  simp only [List.length_nil] at h1
  omega

theorem noLock_nil (F : Format α ε) : NoLock F [] := by
  intro j _
  rw [List.take_nil]
  exact not_isLock_nil F

theorem NoLock.snoc {t : List α} {b : α} (h : NoLock F t) (hb : ¬ IsLock F (t ++ [b])) :
    NoLock F (t ++ [b]) := by
  intro j hj
  rw [List.length_append, List.length_singleton] at hj
  rcases Nat.lt_or_ge t.length j with hlt | hle
  · rw [List.take_of_length_le (by simp; omega)]
    exact hb
  · rw [List.take_append_of_le_length hle]
    exact h j hle

theorem NoLock.firstLock {t : List α} {b : α} (h : NoLock F t) (hb : IsLock F (t ++ [b])) :
    FirstLock F (t ++ [b]) := by
  refine ⟨hb, fun j hj => ?_⟩
  rw [List.length_append, List.length_singleton] at hj
  rw [List.take_append_of_le_length (by omega)]
  exact h j (by omega)

theorem NoEnd.snoc {v : List α} {b : α} (h : NoEnd F v) (hb : ¬ EndAt F (F.pre ++ (v ++ [b]))) :
    NoEnd F (v ++ [b]) := by
  intro j hj
  rw [List.length_append, List.length_singleton] at hj
  rcases Nat.lt_or_ge v.length j with hlt | hle
  · rw [List.take_of_length_le (by simp; omega)]
    exact hb
  · rw [List.take_append_of_le_length hle]
    exact h j hle

theorem NoEnd.firstEnd {v : List α} {b : α} (h : NoEnd F v)
    (hb : EndAt F (F.pre ++ (v ++ [b]))) : FirstEnd F (v ++ [b]) := by
  refine ⟨hb, fun j hj => ?_⟩
  rw [List.length_append, List.length_singleton] at hj
  rw [List.take_append_of_le_length (by omega)]
  exact h j (by omega)

theorem noEnd_nil (F : Format α ε) : NoEnd F [] := by
  intro j _ h
  have h2 := h.2
  have h3 := F.pre_lt
  rw [List.take_nil, List.append_nil, Nat.mod_eq_of_lt F.pre_lt_size] at h2
  omega

theorem FirstEnd.ne_nil {v : List α} (h : FirstEnd F v) : v ≠ [] := by
  rintro rfl
  exact noEnd_nil F 0 (Nat.le_refl 0) h.1

/-- The first lock of a stream, if there is one. -/
theorem noLock_or_firstLock [DecidableEq α] (F : Format α ε) (t : List α) :
    NoLock F t ∨ ∃ j ≤ t.length, FirstLock F (t.take j) := by
  by_cases h : ∃ j, j ≤ t.length ∧ IsLock F (t.take j)
  · right
    refine ⟨Nat.find h, (Nat.find_spec h).1, (Nat.find_spec h).2, fun i hi => ?_⟩
    rw [List.length_take] at hi
    have hmin := Nat.find_min h (m := i) (by omega)
    rw [List.take_take, Nat.min_eq_left (by omega)]
    exact fun hl => hmin ⟨by omega, hl⟩
  · left
    exact fun j hj hl => h ⟨j, hj, hl⟩

/-- A mark that ends in `x` lies in `x`, unless it reaches back over the start of `x`. -/
theorem suffix_of_disjoint {eom w x : List α} {a : α} (hx : x.head? = some a) (ha : a ∉ eom)
    (h : eom <:+ w ++ x) : eom <:+ x := by
  rcases List.suffix_or_suffix_of_suffix h (List.suffix_append w x) with hs | hs
  · exact hs
  · have hmem : a ∈ x := by
      cases x with
      | nil => exact absurd hx (by simp)
      | cons b x =>
        rw [List.head?_cons] at hx
        rw [Option.some.inj hx]
        exact List.mem_cons_self
    exact absurd (hs.subset hmem) ha

/-- Two words from a lock the word before was the preamble's already. -/
theorem isLock_earlier {t f : List α} (ht : t ≠ []) (hf : F.pre <+: f)
    (h : IsLock F (t ++ f.take F.pre.length)) : IsLock F (t ++ f.take F.keep) := by
  have hn := F.pre_length
  have hk := F.keep_pos
  obtain ⟨x, rfl⟩ := hf
  rw [List.take_left] at h
  rw [List.take_append_of_le_length (by omega)]
  obtain ⟨h1, h2, h3, h4⟩ := h
  rw [List.length_append, hn, Nat.dvd_add_left ⟨2, Nat.mul_comm 2 _⟩] at h2
  have htk := Nat.le_of_dvd (List.length_pos_iff.mpr ht) h2
  have hlen : (F.pre.take F.keep).length = F.keep := by
    rw [List.length_take]
    omega
  refine ⟨?_, ?_, ?_, ?_⟩
  · rw [List.length_append, hlen]
    omega
  · rw [List.length_append, hlen]
    exact Nat.dvd_add h2 (Nat.dvd_refl _)
  · rw [List.take_append_of_le_length htk] at h3 ⊢
    exact h3
  · rw [List.length_append, hlen, Nat.add_sub_cancel, List.drop_left]

/-! ## One byte -/

theorem take_set_succ (l : List α) {p : Nat} (hp : p < l.length) (b : α) :
    (l.set p b).take (p + 1) = l.take p ++ [b] := by
  rw [List.take_succ_eq_append_getElem (by simpa using hp), List.take_set_of_le (Nat.le_refl p),
    List.getElem_set_self]

/-- The position in state `head` after `n` bytes without a lock. -/
def searchPos (F : Format α ε) (n : Nat) : Nat :=
  if n < F.keep then n else F.keep + n % F.keep

/-- The receiver looks for a preamble and has seen `t` since its position was 0; `old` is the
    buffer of that moment. The buffer holds the first word of `t` and the bytes of its last,
    incomplete word. -/
structure Search (old t : List α) (s : Receiver F) : Prop where
  state : s.state = .head
  pos : s.pos = searchPos F t.length
  seen : s.buf.take s.pos =
    if t.length < F.keep then t else t.take F.keep ++ t.drop (t.length - t.length % F.keep)
  rest : s.buf.drop F.pre.length = old.drop F.pre.length

/-- The receiver looks for an end mark and has stored `w` since its position was 0, going round
    the buffer if need be. -/
structure Body (old w : List α) (s : Receiver F) : Prop where
  state : s.state = .eom
  pos : s.pos = w.length % F.size
  recent : s.buf.take s.pos = w.drop (w.length - s.pos)
  buf : w.length ≤ F.size → s.buf = w ++ old.drop w.length

/-- The buffer and the position of `s` were handed to `frame`, and the receiver starts again. -/
structure Fired (s : Receiver F) (r : Receiver F × List ε) : Prop where
  state : r.1.state = .head
  pos : r.1.pos = 0
  buf : r.1.buf = (F.frame s.buf s.pos).1
  out : r.2 = (F.frame s.buf s.pos).2

theorem search_start {s : Receiver F} (hp : s.pos = 0) (hs : s.state = .head) :
    Search s.buf [] s := by
  have hk := F.keep_pos
  refine ⟨hs, ?_, ?_, rfl⟩
  · rw [hp, searchPos, List.length_nil, if_pos hk]
  · rw [hp, List.length_nil, if_pos hk, List.take_zero]

theorem body_start {s : Receiver F} (hp : s.pos = 0) (hs : s.state = .eom) : Body s.buf [] s := by
  refine ⟨hs, ?_, ?_, fun _ => by simp⟩
  · rw [hp, List.length_nil, Nat.zero_mod]
  · rw [hp, List.take_zero, List.drop_nil]

theorem Receiver.store_pos (s : Receiver F) (b : α) (h : s.pos + 1 < F.size) :
    (s.store b).pos = s.pos + 1 := by
  simp only [store]
  rw [if_neg (by omega)]

theorem Receiver.store_pos_le (s : Receiver F) (b : α) : (s.store b).pos ≤ s.pos + 1 := by
  simp only [store]
  split <;> omega

theorem Receiver.store_take (s : Receiver F) (b : α) (h : s.pos + 1 < F.size) :
    (s.store b).buf.take (s.store b).pos = s.buf.take s.pos ++ [b] := by
  rw [s.store_pos b h]
  exact take_set_succ s.buf (by rw [s.buf_length]; exact s.pos_lt) b

theorem Receiver.store_drop (s : Receiver F) (b : α) {n : Nat} (h : s.pos < n) :
    (s.store b).buf.drop n = s.buf.drop n := by
  simp only [store]
  rw [List.drop_set_of_lt h]

theorem searchPos_lt (F : Format α ε) (n : Nat) : searchPos F n < F.pre.length := by
  have h1 := F.pre_length
  have h2 := F.keep_pos
  have h3 := Nat.mod_lt n h2
  unfold searchPos
  split <;> omega

theorem succ_mod_of_lt {n k : Nat} (h : n % k + 1 < k) : (n + 1) % k = n % k + 1 := by
  rw [Nat.add_mod, Nat.mod_eq_of_lt (show 1 < k by omega), Nat.mod_eq_of_lt h]

/-- The words of a stream: one byte more, in the middle of a word. -/
theorem drop_word_snoc {t : List α} {b : α} {k : Nat} (h : t.length % k + 1 < k) :
    (t ++ [b]).drop ((t ++ [b]).length - (t ++ [b]).length % k) =
      t.drop (t.length - t.length % k) ++ [b] := by
  have hmod := succ_mod_of_lt h
  rw [List.length_append, List.length_singleton, hmod,
    List.drop_append_of_le_length (by omega)]
  congr 2
  omega

theorem mod_succ_of_word {n k : Nat} (hk : 0 < k) (h : ¬ n % k + 1 < k) : (n + 1) % k = 0 := by
  have hlt := Nat.mod_lt n hk
  have hdiv := Nat.div_add_mod n k
  exact Nat.mod_eq_zero_of_dvd ⟨n / k + 1, by rw [Nat.mul_succ]; omega⟩

theorem IsLock.dvd {t : List α} (h : IsLock F t) : t.length % F.keep = 0 :=
  Nat.mod_eq_zero_of_dvd h.2.1

theorem set_append_length (w : List α) {r : List α} (hr : r ≠ []) (b : α) :
    (w ++ r).set w.length b = w ++ [b] ++ r.drop 1 := by
  cases r with
  | nil => exact absurd rfl hr
  | cons a r =>
    rw [List.set_append_right _ _ (Nat.le_refl _), Nat.sub_self, List.set_cons_zero,
      List.append_assoc]
    rfl

/-- In state `eom` a byte is stored behind the ones before it. -/
theorem Body.store {old w : List α} {s : Receiver F} (h : Body old w s) (b : α) :
    Body old (w ++ [b]) (s.store b) := by
  have hlen : (w ++ [b]).length = w.length + 1 := by rw [List.length_append, List.length_singleton]
  have hp := h.pos
  have hlt := s.pos_lt
  have hle := Nat.mod_le w.length F.size
  have hbuf : (w ++ [b]).length ≤ F.size →
      (s.store b).buf = w ++ [b] ++ old.drop (w ++ [b]).length := by
    intro hw
    rw [hlen] at hw
    have hpw : s.pos = w.length := by rw [hp, Nat.mod_eq_of_lt (by omega)]
    have hold : old.drop w.length ≠ [] := by
      intro hnil
      have hsize := s.buf_length
      rw [h.buf (by omega), hnil, List.append_nil] at hsize
      omega
    show s.buf.set s.pos b = _
    rw [h.buf (by omega), hpw, set_append_length w hold, List.drop_drop, hlen]
  rcases Nat.lt_or_ge (s.pos + 1) F.size with hlt | hge
  · have hpos := s.store_pos b hlt
    have hmod : (w.length + 1) % F.size = s.pos + 1 := by
      rw [succ_mod_of_lt (by omega), hp]
    refine ⟨h.state, by rw [hlen, hmod, hpos], ?_, hbuf⟩
    rw [s.store_take b hlt, h.recent, hpos, hlen, List.drop_append_of_le_length (by omega)]
    congr 2
    omega
  · have hpos : (s.store b).pos = 0 := by
      simp only [Receiver.store]
      rw [if_pos hge]
    have hmod : (w.length + 1) % F.size = 0 := mod_succ_of_word (by omega) (by omega)
    refine ⟨h.state, by rw [hlen, hmod, hpos], ?_, hbuf⟩
    rw [hpos, List.take_zero, Nat.sub_zero, List.drop_length]

/-- What the receiver compares is the end mark of the stream. -/
theorem Body.check {old w : List α} {s : Receiver F} (h : Body old w s) :
    (F.eomFrom ≤ s.pos ∧
      (s.buf.drop (s.pos - F.eom.length)).take F.eom.length = F.eom ∧ F.minLen ≤ s.pos) ↔
    EndAt F w := by
  have hp := h.pos
  have hle := Nat.mod_le w.length F.size
  have hfrom := F.eomFrom_le
  have hmark := F.mark_le
  have hslice : F.minLen ≤ s.pos → (s.buf.drop (s.pos - F.eom.length)).take F.eom.length =
      w.drop (w.length - F.eom.length) := by
    intro hmin
    have heq : F.eom.length = s.pos - (s.pos - F.eom.length) := by omega
    conv_lhs => rw [show (List.take F.eom.length) = List.take (s.pos - (s.pos - F.eom.length))
      from congrArg List.take heq]
    rw [← List.drop_take, h.recent, List.drop_drop]
    congr 1
    omega
  constructor
  · rintro ⟨-, heom, hmin⟩
    rw [hslice hmin] at heom
    exact ⟨heom ▸ List.drop_suffix _ _, by omega⟩
  · rintro ⟨heom, hmin⟩
    have hmin' : F.minLen ≤ s.pos := by omega
    refine ⟨by omega, ?_, hmin'⟩
    rw [hslice hmin']
    exact (List.suffix_iff_eq_drop.mp heom).symm

section Run

variable [DecidableEq α]

theorem putByte_head {s : Receiver F} (hs : s.state = .head) (b : α)
    (h : s.pos + 1 < F.pre.length) : s.putByte b = (s.store b, []) := by
  have hpos := s.store_pos b (Nat.lt_trans h F.pre_lt_size)
  have hst : (s.store b).state = .head := hs
  simp only [Receiver.putByte, hst]
  rw [if_neg (by omega)]

theorem putByte_full {s : Receiver F} (hs : s.state = .head) (b : α)
    (h : s.pos + 1 = F.pre.length) :
    s.putByte b = if s.buf.take s.pos ++ [b] = F.pre then ({ s.store b with state := .eom }, [])
      else ({ s.store b with pos := F.keep,
                             pos_lt := Nat.lt_trans F.keep_lt_pre F.pre_lt_size }, []) := by
  have hlt : s.pos + 1 < F.size := by
    have := F.pre_lt_size
    omega
  have hpos := s.store_pos b hlt
  have htake := s.store_take b hlt
  rw [hpos, h] at htake
  have hst : (s.store b).state = .head := hs
  simp only [Receiver.putByte, hst]
  rw [if_pos (by omega), htake]

/-- One byte in the middle of a word. -/
theorem Search.store {old t : List α} {s : Receiver F} (h : Search old t s) (b : α)
    (hlt : s.pos + 1 < F.pre.length) :
    Search old (t ++ [b]) (s.putByte b).1 ∧ (s.putByte b).2 = [] := by
  have hn := F.pre_length
  have hsize := Nat.lt_trans hlt F.pre_lt_size
  rw [putByte_head h.state b hlt]
  refine ⟨⟨h.state, ?_, ?_, ?_⟩, rfl⟩
  · rw [s.store_pos b hsize, h.pos, List.length_append, List.length_singleton]
    have hp := h.pos
    unfold searchPos at hp ⊢
    by_cases hk : t.length < F.keep
    · rw [if_pos hk] at hp ⊢
      rcases Nat.lt_or_ge (t.length + 1) F.keep with hk1 | hk1
      · rw [if_pos hk1]
      · have heq : t.length + 1 = F.keep := by omega
        rw [if_neg (by omega), heq, Nat.mod_self, Nat.add_zero]
    · rw [if_neg hk] at hp ⊢
      rw [if_neg (by omega), succ_mod_of_lt (by omega)]
      omega
  · rw [s.store_take b hsize, h.seen]
    have hp := h.pos
    unfold searchPos at hp
    by_cases hk : t.length < F.keep
    · rw [if_pos hk]
      by_cases hk1 : (t ++ [b]).length < F.keep
      · rw [if_pos hk1]
      · have heq : (t ++ [b]).length = F.keep := by
          rw [List.length_append, List.length_singleton] at hk1 ⊢
          omega
        rw [if_neg hk1, List.take_of_length_le (by omega), heq, Nat.mod_self, Nat.sub_zero,
          List.drop_of_length_le (by omega), List.append_nil]
    · rw [if_neg hk] at hp ⊢
      have hword : t.length % F.keep + 1 < F.keep := by omega
      rw [if_neg (by rw [List.length_append]; omega), drop_word_snoc hword,
        List.take_append_of_le_length (by omega), List.append_assoc]
  · rw [s.store_drop b (by omega)]
    exact h.rest

/-- One byte that ends a word: the preamble is complete, or the word is dropped. -/
theorem Search.full {old t : List α} {s : Receiver F} (h : Search old t s) (b : α)
    (hfull : s.pos + 1 = F.pre.length) :
    (IsLock F (t ++ [b]) → Body old F.pre (s.putByte b).1 ∧ (s.putByte b).2 = []) ∧
    (¬ IsLock F (t ++ [b]) → Search old (t ++ [b]) (s.putByte b).1 ∧ (s.putByte b).2 = []) := by
  have hn := F.pre_length
  have hk0 := F.keep_pos
  have hsize : s.pos + 1 < F.size := by
    have := F.pre_lt_size
    omega
  have hp := h.pos
  have hk : ¬ t.length < F.keep := by
    intro hk
    rw [searchPos, if_pos hk] at hp
    omega
  rw [searchPos, if_neg hk] at hp
  have hword : ¬ t.length % F.keep + 1 < F.keep := by omega
  have hmod := mod_succ_of_word hk0 hword
  have hseen := h.seen
  rw [if_neg hk] at hseen
  have hlast : (t ++ [b]).drop ((t ++ [b]).length - F.keep) =
      t.drop (t.length - t.length % F.keep) ++ [b] := by
    rw [List.length_append, List.length_singleton, List.drop_append_of_le_length (by omega)]
    congr 2
    omega
  have htake : (t ++ [b]).take F.keep = t.take F.keep := List.take_append_of_le_length (by omega)
  -- the buffer holds the preamble exactly if its two words are the preamble's word
  have hiff : s.buf.take s.pos ++ [b] = F.pre ↔ IsLock F (t ++ [b]) := by
    rw [hseen, List.append_assoc, ← hlast, ← htake, IsLock]
    constructor
    · intro heq
      rw [F.pre_double] at heq
      have hinj := List.append_inj heq (by simp only [List.length_take, List.length_append]; omega)
      refine ⟨?_, ?_, hinj.1, hinj.2⟩
      · rw [List.length_append, List.length_singleton]
        have hdm := Nat.div_add_mod t.length F.keep
        have hle : F.keep * 1 ≤ F.keep * (t.length / F.keep) :=
          Nat.mul_le_mul_left _ (Nat.div_pos (by omega) hk0)
        omega
      · rw [List.length_append, List.length_singleton]
        exact Nat.dvd_of_mod_eq_zero hmod
    · rintro ⟨-, -, h1, h2⟩
      rw [h1, h2]
      exact F.pre_double.symm
  have hstore := s.store_take b hsize
  rw [s.store_pos b hsize, hfull] at hstore
  constructor
  · intro hlock
    rw [putByte_full h.state b hfull, if_pos (hiff.mpr hlock)]
    have hpre := hstore.trans (hiff.mpr hlock)
    have hbuf : (s.store b).buf = F.pre ++ old.drop F.pre.length := by
      rw [← List.take_append_drop F.pre.length (s.store b).buf, hpre, s.store_drop b (by omega),
        h.rest]
    refine ⟨⟨rfl, ?_, ?_, fun _ => hbuf⟩, rfl⟩
    · show (s.store b).pos = _
      rw [s.store_pos b hsize, hfull, Nat.mod_eq_of_lt F.pre_lt_size]
    · show (s.store b).buf.take (s.store b).pos = _
      rw [s.store_pos b hsize, hfull, Nat.sub_self, List.drop_zero, hstore]
      exact hiff.mpr hlock
  · intro hlock
    rw [putByte_full h.state b hfull, if_neg (fun he => hlock (hiff.mp he))]
    have hlen : (t ++ [b]).length = t.length + 1 := by
      rw [List.length_append, List.length_singleton]
    refine ⟨⟨h.state, ?_, ?_, ?_⟩, rfl⟩
    · show F.keep = _
      rw [searchPos, hlen, if_neg (by omega), hmod, Nat.add_zero]
    · show (s.store b).buf.take F.keep = _
      rw [if_neg (by omega), hlen, hmod, Nat.sub_zero, List.drop_of_length_le (by omega),
        List.append_nil, htake]
      have hfront : ((s.store b).buf.take F.pre.length).take F.keep = t.take F.keep := by
        rw [hstore, hseen, List.append_assoc, List.take_append_of_le_length
          (by rw [List.length_take]; omega), List.take_take, Nat.min_self]
      rw [List.take_take, Nat.min_eq_left (by omega)] at hfront
      exact hfront
    · show (s.store b).buf.drop F.pre.length = _
      rw [s.store_drop b (by omega)]
      exact h.rest

/-- One byte in state `head`. -/
theorem Search.step {old t : List α} {s : Receiver F} (h : Search old t s) (b : α) :
    (IsLock F (t ++ [b]) → Body old F.pre (s.putByte b).1 ∧ (s.putByte b).2 = []) ∧
    (¬ IsLock F (t ++ [b]) → Search old (t ++ [b]) (s.putByte b).1 ∧ (s.putByte b).2 = []) := by
  have hlt : s.pos < F.pre.length := by
    rw [h.pos]
    exact searchPos_lt F _
  rcases Nat.lt_or_ge (s.pos + 1) F.pre.length with hmid | hfull
  · have hstore := h.store b hmid
    refine ⟨fun hlock => ?_, fun _ => hstore⟩
    -- a lock ends a word that is not the first one
    have hn := F.pre_length
    have hk0 := F.keep_pos
    have h1 := hlock.1
    have h2 := hlock.dvd
    have hp := h.pos
    rw [List.length_append, List.length_singleton] at h1 h2
    rw [searchPos, if_neg (by omega)] at hp
    have hword : t.length % F.keep + 1 < F.keep := by omega
    rw [succ_mod_of_lt hword] at h2
    omega
  · exact h.full b (by omega)

/-- One byte in state `eom`. -/
theorem Body.step {old w : List α} {s : Receiver F} (h : Body old w s) (b : α) :
    (EndAt F (w ++ [b]) → Fired (s.store b) (s.putByte b)) ∧
    (¬ EndAt F (w ++ [b]) → Body old (w ++ [b]) (s.putByte b).1 ∧ (s.putByte b).2 = []) := by
  have hstore := h.store b
  have hst : (s.store b).state = .eom := hstore.state
  have hcheck := hstore.check
  constructor
  · intro hend
    simp only [Receiver.putByte, hst]
    rw [if_pos (hcheck.mpr hend)]
    exact ⟨rfl, rfl, rfl, rfl⟩
  · intro hend
    simp only [Receiver.putByte, hst]
    rw [if_neg (fun hc => hend (hcheck.mp hc))]
    exact ⟨hstore, rfl⟩

/-! ## Runs -/

theorem Search.run {old t x : List α} {s : Receiver F} (h : Search old t s)
    (hx : NoLock F (t ++ x)) :
    Search old (t ++ x) (s.putBytes x).1 ∧ (s.putBytes x).2 = [] := by
  induction x generalizing t s with
  | nil =>
    rw [List.append_nil]
    exact ⟨h, rfl⟩
  | cons b x ih =>
    have hassoc : t ++ b :: x = (t ++ [b]) ++ x := by simp
    rw [hassoc] at hx ⊢
    have hb : ¬ IsLock F (t ++ [b]) := by
      have := hx (t ++ [b]).length (List.prefix_append (t ++ [b]) x).length_le
      rwa [List.take_left] at this
    obtain ⟨hstep, hnone⟩ := (h.step b).2 hb
    obtain ⟨hrun, hnone'⟩ := ih hstep hx
    refine ⟨hrun, ?_⟩
    rw [Receiver.putBytes, hnone, hnone']
    rfl

theorem Body.run {old w x : List α} {s : Receiver F} (h : Body old w s)
    (hx : ∀ j, 0 < j → j ≤ x.length → ¬ EndAt F (w ++ x.take j)) :
    Body old (w ++ x) (s.putBytes x).1 ∧ (s.putBytes x).2 = [] := by
  induction x generalizing w s with
  | nil =>
    rw [List.append_nil]
    exact ⟨h, rfl⟩
  | cons b x ih =>
    have hassoc : w ++ b :: x = (w ++ [b]) ++ x := by simp
    have hb : ¬ EndAt F (w ++ [b]) := hx 1 (by omega) (by rw [List.length_cons]; omega)
    obtain ⟨hstep, hnone⟩ := (h.step b).2 hb
    have hx' : ∀ j, 0 < j → j ≤ x.length → ¬ EndAt F ((w ++ [b]) ++ x.take j) := by
      intro j _ hj
      have := hx (j + 1) (by omega) (by rw [List.length_cons]; omega)
      rwa [List.take_succ_cons, show w ++ b :: x.take j = (w ++ [b]) ++ x.take j by simp] at this
    obtain ⟨hrun, hnone'⟩ := ih hstep hx'
    rw [hassoc]
    refine ⟨hrun, ?_⟩
    rw [Receiver.putBytes, hnone, hnone']
    rfl

/-- In state `head` up to the first lock. -/
theorem Search.run_lock {old t u : List α} {s : Receiver F} (h : Search old t s) (hu : u ≠ [])
    (hlock : IsLock F (t ++ u)) (hno : ∀ j < (t ++ u).length, ¬ IsLock F ((t ++ u).take j)) :
    Body old F.pre (s.putBytes u).1 ∧ (s.putBytes u).2 = [] := by
  rcases List.eq_nil_or_concat u with rfl | ⟨u, b, rfl⟩
  · exact absurd rfl hu
  · rw [List.concat_eq_append, ← List.append_assoc] at *
    have hn : NoLock F (t ++ u) := by
      intro j hj
      have hlen : (t ++ u ++ [b]).length = (t ++ u).length + 1 := List.length_append
      have := hno j (by omega)
      rwa [List.take_append_of_le_length hj] at this
    obtain ⟨hrun, hnone⟩ := h.run hn
    obtain ⟨hbody, hnone'⟩ := (hrun.step b).1 hlock
    rw [Receiver.putBytes_append]
    refine ⟨hbody, ?_⟩
    rw [hnone, List.nil_append]
    simp only [Receiver.putBytes, hnone', List.append_nil]

/-- From position 0 in state `head` to the end of a preamble. -/
theorem putBytes_lock {s : Receiver F} (hp : s.pos = 0) (hs : s.state = .head) {t : List α}
    (ht : FirstLock F t) :
    Body s.buf F.pre (s.putBytes t).1 ∧ (s.putBytes t).2 = [] := by
  refine (search_start hp hs).run_lock ?_ ht.1 ht.2
  rintro rfl
  exact not_isLock_nil F ht.1

/-- In state `eom` up to the first end mark. -/
theorem Body.run_end {old w x : List α} {s : Receiver F} (h : Body old w s) (hx : x ≠ [])
    (hend : EndAt F (w ++ x)) (hno : ∀ j, 0 < j → j < x.length → ¬ EndAt F (w ++ x.take j)) :
    ∃ s', Body old (w ++ x) s' ∧ Fired s' (s.putBytes x) := by
  rcases List.eq_nil_or_concat x with rfl | ⟨u, b, rfl⟩
  · exact absurd rfl hx
  · rw [List.concat_eq_append] at *
    have hu : ∀ j, 0 < j → j ≤ u.length → ¬ EndAt F (w ++ u.take j) := by
      intro j hj0 hj
      have := hno j hj0 (by rw [List.length_append, List.length_singleton]; omega)
      rwa [List.take_append_of_le_length hj] at this
    obtain ⟨hrun, hnone⟩ := h.run hu
    rw [← List.append_assoc] at hend ⊢
    have hfired := (hrun.step b).1 hend
    refine ⟨_, hrun.store b, ?_⟩
    have hput : s.putBytes (u ++ [b]) = (s.putBytes u).1.putByte b := by
      rw [Receiver.putBytes_append, hnone, List.nil_append]
      simp only [Receiver.putBytes, List.append_nil]
    rw [hput]
    exact hfired

/-! ## Where a stream leaves the receiver -/

/-- What the receiver holds after the stream `g`: complete frames have come and gone, and
    behind them it looks for a preamble or for an end mark. -/
inductive Phase (F : Format α ε) (g : List α) (s : Receiver F) : Prop where
  | search {g' t old : List α} (cut : g = g' ++ t) (frames : Frames F g') (lock : NoLock F t)
      (inv : Search old t s)
  | body {g' t v old : List α} (cut : g = g' ++ (t ++ v)) (frames : Frames F g')
      (lock : FirstLock F t) (noEnd : NoEnd F v) (inv : Body old (F.pre ++ v) s)

theorem Phase.step {g : List α} {s : Receiver F} (h : Phase F g s) (b : α) :
    Phase F (g ++ [b]) (s.putByte b).1 := by
  cases h with
  | @search g' t old cut frames lock inv =>
    by_cases hb : IsLock F (t ++ [b])
    · have hbody : Body old (F.pre ++ []) (s.putByte b).1 := by
        rw [List.append_nil]
        exact ((inv.step b).1 hb).1
      refine .body ?_ frames (lock.firstLock hb) (noEnd_nil F) hbody
      rw [cut, List.append_nil, List.append_assoc]
    · refine .search (t := t ++ [b]) ?_ frames (lock.snoc hb) ((inv.step b).2 hb).1
      rw [cut, List.append_assoc]
  | @body g' t v old cut frames lock noEnd inv =>
    have hcut : g ++ [b] = g' ++ (t ++ (v ++ [b])) := by simp only [cut, List.append_assoc]
    have hstep := inv.step b
    rw [List.append_assoc] at hstep
    by_cases hb : EndAt F (F.pre ++ (v ++ [b]))
    · have hfired := hstep.1 hb
      have hframes : Frames F (g ++ [b]) := by
        rw [hcut]
        exact .frame frames lock (noEnd.firstEnd hb)
      exact .search (List.append_nil _).symm hframes (noLock_nil F)
        (search_start hfired.pos hfired.state)
    · exact .body hcut frames lock (noEnd.snoc hb) (hstep.2 hb).1

theorem putBytes_phase {s : Receiver F} (hp : s.pos = 0) (hs : s.state = .head) (g : List α) :
    Phase F g (s.putBytes g).1 := by
  induction g using List.reverseRecOn with
  | nil =>
    have hcut : ([] : List α) = [] ++ [] := rfl
    exact .search hcut .nil (noLock_nil F) (search_start hp hs)
  | append_singleton g b ih =>
    rw [Receiver.putBytes_append]
    exact ih.step b

/-- Complete frames lead back to the start. -/
theorem putBytes_frames {s : Receiver F} (hp : s.pos = 0) (hs : s.state = .head) {g : List α}
    (hg : Frames F g) : (s.putBytes g).1.pos = 0 ∧ (s.putBytes g).1.state = .head := by
  induction hg with
  | nil => exact ⟨hp, hs⟩
  | @frame g t v _ hlock hend ih =>
    have hbody := (putBytes_lock ih.1 ih.2 hlock).1
    have hno : ∀ j, 0 < j → j < v.length → ¬ EndAt F (F.pre ++ v.take j) :=
      fun j _ hj => hend.2 j hj
    obtain ⟨_, -, hfired⟩ := hbody.run_end hend.ne_nil hend.1 hno
    rw [Receiver.putBytes_append, Receiver.putBytes_append]
    exact ⟨hfired.pos, hfired.state⟩

/-- The position is 0 exactly after a drained stream. -/
theorem putBytes_pos_eq_zero {s : Receiver F} (hp : s.pos = 0) (hs : s.state = .head)
    (g : List α) : (s.putBytes g).1.pos = 0 ↔ Drained F g := by
  constructor
  · intro hzero
    cases putBytes_phase hp hs g with
    | @search g' t old cut frames lock inv =>
      have hk := F.keep_pos
      have hpos := inv.pos
      rw [hzero, searchPos] at hpos
      have ht : t = [] := by
        apply List.eq_nil_of_length_eq_zero
        split at hpos <;> omega
      rw [ht, List.append_nil] at cut
      exact Or.inl (cut ▸ frames)
    | @body g' t v old cut frames lock noEnd inv =>
      have hpos := inv.pos
      rw [hzero, List.length_append] at hpos
      exact Or.inr ⟨g', t, v, cut, frames, lock, noEnd, hpos.symm⟩
  · rintro (hframes | ⟨g', t, v, rfl, hframes, hlock, hno, hfull⟩)
    · exact (putBytes_frames hp hs hframes).1
    · obtain ⟨hp', hs'⟩ := putBytes_frames hp hs hframes
      have hbody := (putBytes_lock hp' hs' hlock).1
      obtain ⟨hrun, -⟩ := hbody.run fun j _ hj => hno j hj
      rw [Receiver.putBytes_append, Receiver.putBytes_append]
      show (((s.putBytes g').1.putBytes t).1.putBytes v).1.pos = 0
      rw [hrun.pos, List.length_append, hfull]

/-! ## One frame after a stream -/

/-- From position 0, whatever the state, the receiver hands over what it was sent up to the
    first end mark. -/
theorem putBytes_frame {s : Receiver F} (hp : s.pos = 0) {f : List α} (hpre : F.pre <+: f)
    (hend : EndAt F f) (hno : ∀ j < f.length, ¬ EndAt F (f.take j)) (hlt : f.length < F.size) :
    ∃ s' : Receiver F, s'.pos = f.length ∧ s'.buf = f ++ s.buf.drop f.length ∧
      Fired s' (s.putBytes f) := by
  obtain ⟨x, rfl⟩ := hpre
  have hx : x ≠ [] := by
    rintro rfl
    exact noEnd_nil F 0 (Nat.le_refl 0) (by rwa [List.take_nil])
  have hno' : ∀ j, 0 < j → j < x.length → ¬ EndAt F (F.pre ++ x.take j) := by
    intro j _ hj
    have := hno (F.pre.length + j) (by rw [List.length_append]; omega)
    rwa [List.take_append, List.take_of_length_le (by omega), Nat.add_sub_cancel_left] at this
  have hbody : Body s.buf F.pre (s.putBytes F.pre).1 ∧ (s.putBytes F.pre).2 = [] := by
    cases hs : s.state with
    | head => exact putBytes_lock hp hs (firstLock_pre F)
    | eom =>
      have hearly : ∀ j, 0 < j → j ≤ F.pre.length → ¬ EndAt F ([] ++ F.pre.take j) := by
        intro j _ hj h
        have h2 := h.2
        have h3 := F.pre_lt
        have h4 := Nat.mod_le ([] ++ F.pre.take j).length F.size
        rw [List.nil_append, List.length_take] at h2 h4
        omega
      exact (body_start hp hs).run hearly
  obtain ⟨s', hbody', hfired⟩ := hbody.1.run_end hx hend hno'
  have hput : s.putBytes (F.pre ++ x) = (s.putBytes F.pre).1.putBytes x := by
    rw [Receiver.putBytes_append, hbody.2, List.nil_append]
  refine ⟨s', ?_, hbody'.buf (Nat.le_of_lt hlt), ?_⟩
  · rw [hbody'.pos, Nat.mod_eq_of_lt hlt]
  · rw [hput]
    exact hfired

/-- A preamble and `w` fill the whole buffer without an end mark, and `x` ends the frame in
    front of it: the rest of `w` is left in the buffer. -/
theorem putBytes_ring {s : Receiver F} (hp : s.pos = 0) (hs : s.state = .head) {w x : List α}
    (hw : (F.pre ++ w).length = F.size) (hno : NoEnd F w) (hx : EndAt F x)
    (hxno : ∀ j, 0 < j → j < x.length → ¬ EndAt F (x.take j)) (hlt : x.length < F.size) :
    ∃ s' : Receiver F, s'.pos = x.length ∧ s'.buf = x ++ (F.pre ++ w).drop x.length ∧
      Fired s' ((s.putBytes (F.pre ++ w)).1.putBytes x) := by
  have hbody := (putBytes_lock hp hs (firstLock_pre F)).1
  have hfull := (hbody.run fun j _ hj => hno j hj).1
  have hput : (s.putBytes (F.pre ++ w)).1 = ((s.putBytes F.pre).1.putBytes w).1 := by
    rw [Receiver.putBytes_append]
  rw [← hput] at hfull
  have hbuf : (s.putBytes (F.pre ++ w)).1.buf = F.pre ++ w := by
    rw [hfull.buf (Nat.le_of_eq hw), hw, List.drop_of_length_le (Nat.le_of_eq s.buf_length),
      List.append_nil]
  have hpos : (s.putBytes (F.pre ++ w)).1.pos = 0 := by rw [hfull.pos, hw, Nat.mod_self]
  have hne : x ≠ [] := by
    rintro rfl
    have h1 := hx.2
    have h2 := F.pre_lt
    rw [List.length_nil, Nat.zero_mod] at h1
    omega
  obtain ⟨s', hbody', hfired⟩ := (body_start hpos hfull.state).run_end hne hx hxno
  refine ⟨s', ?_, ?_, hfired⟩
  · rw [hbody'.pos, List.nil_append, Nat.mod_eq_of_lt hlt]
  · rw [hbody'.buf (Nat.le_of_lt hlt), hbuf, List.nil_append]

theorem eq_zero_of_mod {a b n : Nat} (h : (a + b) % n = b) : a % n = 0 := by
  have hdiv := Nat.div_add_mod (a + b) n
  rw [h] at hdiv
  have ha : a = n * ((a + b) / n) := by omega
  rw [ha, Nat.mul_mod_right]

theorem Delimited.head {f : List α} (hf : Delimited F f) : ∃ a ∈ F.pre, f.head? = some a := by
  obtain ⟨x, rfl⟩ := hf.pre
  have hn := F.pre_length
  have hk := F.keep_pos
  cases hpre : F.pre with
  | nil =>
    rw [hpre, List.length_nil] at hn
    omega
  | cons a u => exact ⟨a, List.mem_cons_self, rfl⟩

/-- A delimited frame that arrives in state `eom`. -/
theorem Body.putBytes_delimited {old w : List α} {s : Receiver F} (h : Body old w s) {f : List α}
    (hf : Delimited F f) (hdisj : ∀ a ∈ F.pre, a ∉ F.eom) :
    (s.putBytes f).2 = [] ∨ ∃ s' : Receiver F, (s.putBytes f).2 = (F.frame s'.buf s'.pos).2 ∧
      F.minLen ≤ s'.pos ∧ (s'.pos = f.length → s.pos = 0) := by
  obtain ⟨a, ha, hhead⟩ := hf.head
  have hno : ∀ j, 0 < j → j < f.length → ¬ EndAt F (w ++ f.take j) := by
    intro j hj0 hj hend
    have hhead' : (f.take j).head? = some a := by
      rw [List.head?_take, if_neg (by omega)]
      exact hhead
    exact hf.once j hj (suffix_of_disjoint hhead' (hdisj a ha) hend.1)
  by_cases hend : EndAt F (w ++ f)
  · have hne : f ≠ [] := by
      rintro rfl
      exact absurd hhead (by simp)
    obtain ⟨s', hbody, hfired⟩ := h.run_end hne hend hno
    refine Or.inr ⟨s', hfired.out, ?_, fun hp => ?_⟩
    · rw [hbody.pos]
      exact hend.2
    · rw [hbody.pos, List.length_append] at hp
      rw [h.pos]
      exact eq_zero_of_mod hp
  · refine Or.inl (h.run fun j hj0 hj => ?_).2
    rcases Nat.lt_or_eq_of_le hj with hlt | rfl
    · exact hno j hj0 hlt
    · rwa [List.take_length]

/-- A delimited frame that arrives in state `head`. -/
theorem Search.putBytes_delimited {old t : List α} {s : Receiver F} (h : Search old t s)
    (ht : NoLock F t) {f : List α} (hf : Delimited F f) :
    (s.putBytes f).2 = [] ∨ ∃ s' : Receiver F, (s.putBytes f).2 = (F.frame s'.buf s'.pos).2 ∧
      F.minLen ≤ s'.pos ∧ (s'.pos = f.length → s.pos = 0) := by
  rcases noLock_or_firstLock F (t ++ f) with hno | ⟨j, hj, hlock⟩
  · exact Or.inl (h.run hno).2
  · rw [List.length_append] at hj
    have hjt : t.length < j := by
      by_contra hle
      have := ht j (by omega)
      have htake : (t ++ f).take j = t.take j := List.take_append_of_le_length (by omega)
      rw [← htake] at this
      exact this hlock.1
    -- `u` completes the preamble, `x` is the rest of the frame
    obtain ⟨u, x, hu, rfl⟩ : ∃ u x, u.length = j - t.length ∧ f = u ++ x :=
      ⟨f.take (j - t.length), f.drop (j - t.length), by rw [List.length_take]; omega,
        (List.take_append_drop _ f).symm⟩
    have hcut : (t ++ (u ++ x)).take j = t ++ u := by
      rw [← List.append_assoc, List.take_left']
      rw [List.length_append]
      omega
    rw [hcut] at hlock
    obtain ⟨hbody, hnone⟩ := h.run_lock (u := u) (by rintro rfl; simp at hu; omega) hlock.1 hlock.2
    have hput : (s.putBytes (u ++ x)).2 = ((s.putBytes u).1.putBytes x).2 := by
      rw [Receiver.putBytes_append, hnone, List.nil_append]
    have hmark := F.mark_le
    have hno : ∀ i, 0 < i → i < x.length → ¬ EndAt F (F.pre ++ x.take i) := by
      intro i _ hi hend
      have hlen := Nat.le_trans hend.2 (Nat.mod_le _ _)
      rw [List.length_append, List.length_take, Nat.min_eq_left (by omega)] at hlen
      have hsuf : F.eom <:+ x.take i := List.suffix_of_suffix_length_le hend.1
        (List.suffix_append _ _) (by rw [List.length_take]; omega)
      refine hf.once (u.length + i) (by rw [List.length_append]; omega) ?_
      rw [List.take_append, List.take_of_length_le (by omega), Nat.add_sub_cancel_left]
      exact hsuf.trans (List.suffix_append _ _)
    rw [hput]
    by_cases hend : EndAt F (F.pre ++ x)
    · have hx : x ≠ [] := by
        rintro rfl
        exact noEnd_nil F 0 (Nat.le_refl 0) hend
      obtain ⟨s', hbody', hfired⟩ := hbody.run_end hx hend hno
      refine Or.inr ⟨s', hfired.out, ?_, fun hp => ?_⟩
      · rw [hbody'.pos]
        exact hend.2
      · have hsize := F.pre_lt_size
        have hlt := s'.pos_lt
        rw [hp, List.length_append] at hlt
        rw [hbody'.pos, List.length_append, List.length_append] at hp
        have hup : u.length = F.pre.length := by
          rcases Nat.lt_or_ge (F.pre.length + x.length) F.size with hsm | hge
          · rw [Nat.mod_eq_of_lt hsm] at hp
            omega
          · rw [Nat.mod_eq_sub_mod hge, Nat.mod_eq_of_lt (by omega)] at hp
            omega
        by_cases hnil : t = []
        · rw [h.pos, hnil, searchPos, List.length_nil, if_pos F.keep_pos]
        · -- the lock would come one word earlier
          have hn := F.pre_length
          have hk := F.keep_pos
          have hfull : IsLock F (t ++ (u ++ x).take F.pre.length) := by
            rw [← hup, List.take_left]
            exact hlock.1
          have hearly := isLock_earlier hnil hf.pre hfull
          have := hlock.2 (t.length + F.keep) (by rw [List.length_append]; omega)
          rw [List.take_append, List.take_of_length_le (by omega), Nat.add_sub_cancel_left] at this
          rw [List.take_append_of_le_length (by omega)] at hearly
          exact absurd hearly this
    · refine Or.inl (hbody.run fun i hi0 hi => ?_).2
      rcases Nat.lt_or_eq_of_le hi with hlt | rfl
      · exact hno i hi0 hlt
      · rwa [List.take_length]

/-- What a delimited frame makes the receiver hand over at most, and that it is the whole frame
    only from position 0. -/
theorem Phase.putBytes_delimited {g : List α} {s : Receiver F} (h : Phase F g s) {f : List α}
    (hf : Delimited F f) (hdisj : ∀ a ∈ F.pre, a ∉ F.eom) :
    (s.putBytes f).2 = [] ∨ ∃ s' : Receiver F, (s.putBytes f).2 = (F.frame s'.buf s'.pos).2 ∧
      F.minLen ≤ s'.pos ∧ (s'.pos = f.length → s.pos = 0) := by
  cases h with
  | search _ _ lock inv => exact inv.putBytes_delimited lock hf
  | body _ _ _ _ inv => exact inv.putBytes_delimited hf hdisj

/-- A delimited frame is put out as `e` with `isOf e` exactly if the receiver is at position 0
    and the frame fits, provided that `frame` puts such an `e` out for the whole frame only. -/
theorem accepts_iff {s : Receiver F} (hp : s.pos = 0) (hs : s.state = .head) (g : List α)
    {f : List α} (hf : Delimited F f) (hdisj : ∀ a ∈ F.pre, a ∉ F.eom) (isOf : ε → Prop)
    (honly : ∀ (s' : Receiver F) (e : ε), F.minLen ≤ s'.pos → e ∈ (F.frame s'.buf s'.pos).2 →
      isOf e → s'.pos = f.length)
    (hout : f.length < F.size → F.minLen ≤ f.length → ∀ rest,
      ∃ e, (F.frame (f ++ rest) f.length).2 = [e] ∧ isOf e) :
    (∃ e, (s.putBytes (g ++ f)).2 = (s.putBytes g).2 ++ [e] ∧ isOf e ∧
      (s.putBytes (g ++ f)).1.state = .head ∧ (s.putBytes (g ++ f)).1.pos = 0) ↔
    Drained F g ∧ F.minLen ≤ f.length ∧ f.length < F.size := by
  rw [← putBytes_pos_eq_zero hp hs g, Receiver.putBytes_append]
  simp only [List.append_cancel_left_eq]
  have hphase := putBytes_phase hp hs g
  generalize (s.putBytes g).1 = s at hphase ⊢
  constructor
  · rintro ⟨e, he, hof, -, -⟩
    rcases hphase.putBytes_delimited hf hdisj with hnone | ⟨s', hout', hmin, hpos⟩
    · rw [hnone] at he
      exact absurd he (by simp)
    · have hlen : s'.pos = f.length :=
        honly s' e hmin (by rw [← hout', he]; exact List.mem_singleton_self e) hof
      have hlt := s'.pos_lt
      exact ⟨hpos hlen, by omega, by omega⟩
  · rintro ⟨hzero, hmin, hlt⟩
    have hend : EndAt F f := ⟨hf.eom, by rwa [Nat.mod_eq_of_lt hlt]⟩
    obtain ⟨s', hpos, hbuf, hfired⟩ :=
      putBytes_frame hzero hf.pre hend (fun j hj h => hf.once j hj h.1) hlt
    obtain ⟨e, he, hof⟩ := hout hlt hmin (s.buf.drop f.length)
    refine ⟨e, ?_, hof, hfired.state, hfired.pos⟩
    rw [hfired.out, hpos, hbuf]
    exact he

/-! ## How much a frame can hold -/

theorem putByte_pos_le (s : Receiver F) (b : α) : (s.putByte b).1.pos ≤ s.pos + 1 := by
  have hstore := s.store_pos_le b
  have hkeep := F.keep_lt_pre
  unfold Receiver.putByte
  dsimp only
  split
  · split
    · split
      · exact hstore
      · next hfull _ =>
        show F.keep ≤ s.pos + 1
        omega
    · exact hstore
  · split
    · exact Nat.zero_le _
    · exact hstore

theorem mem_putByte {s : Receiver F} {b : α} {e : ε} (he : e ∈ (s.putByte b).2) :
    e ∈ (F.frame (s.store b).buf (s.store b).pos).2 ∧ F.minLen ≤ (s.store b).pos := by
  unfold Receiver.putByte at he
  dsimp only at he
  split at he
  · split at he
    · split at he <;> exact absurd he List.not_mem_nil
    · exact absurd he List.not_mem_nil
  · split at he
    · next hend => exact ⟨he, hend.2.2⟩
    · exact absurd he List.not_mem_nil

/-- What is handed over during `x` has no more bytes than were stored before and in `x`. -/
theorem mem_putBytes {s : Receiver F} {x : List α} {e : ε} (he : e ∈ (s.putBytes x).2) :
    ∃ s' : Receiver F, e ∈ (F.frame s'.buf s'.pos).2 ∧ F.minLen ≤ s'.pos ∧
      s'.pos ≤ s.pos + x.length := by
  induction x generalizing s with
  | nil => exact absurd he List.not_mem_nil
  | cons b x ih =>
    rw [List.length_cons]
    rcases List.mem_append.mp he with hb | hx
    · obtain ⟨hout, hmin⟩ := mem_putByte hb
      have := s.store_pos_le b
      exact ⟨s.store b, hout, hmin, by omega⟩
    · obtain ⟨s', hout, hmin, hle⟩ := ih hx
      have := putByte_pos_le s b
      exact ⟨s', hout, hmin, by omega⟩

/-! ## Where frames are handed over -/

omit [DecidableEq α] in
/-- A place of a stream that is delivered in chunks. -/
theorem exists_chunk {chunks : List (List α)} {x rest : List α} {b : α}
    (h : chunks.flatten = x ++ b :: rest) :
    ∃ cs c c' cs', chunks = cs ++ (c ++ b :: c') :: cs' ∧ cs.flatten ++ c = x := by
  induction chunks generalizing x with
  | nil => simp at h
  | cons d ds ih =>
    rw [List.flatten_cons] at h
    rcases List.append_eq_append_iff.mp h with ⟨x', rfl, hds⟩ | ⟨d', rfl, hd'⟩
    · obtain ⟨cs, c, c', cs', rfl, rfl⟩ := ih hds
      exact ⟨d :: cs, c, c', cs', rfl, by rw [List.flatten_cons, List.append_assoc]⟩
    · cases d' with
      | nil =>
        rw [List.nil_append] at hd'
        obtain ⟨cs, c, c', cs', rfl, hx⟩ := ih (x := []) hd'.symm
        refine ⟨(x ++ []) :: cs, c, c', cs', rfl, ?_⟩
        rw [List.flatten_cons, List.append_assoc, hx, List.append_nil, List.append_nil]
      | cons b' d' =>
        rw [List.cons_append, List.cons.injEq] at hd'
        obtain ⟨rfl, -⟩ := hd'
        exact ⟨[], x, d', ds, rfl, rfl⟩

/-- `P` holds of everything that is handed over while the chunks are put in, one call each, and
    of the stream up to then. -/
def Receiver.Each (s : Receiver F) (chunks : List (List α)) (P : List α → ε → Prop) : Prop :=
  ∀ cs c b c' cs', chunks = cs ++ (c ++ b :: c') :: cs' →
    ∀ e ∈ (((s.putChunks cs).1.putBytes c).1.putByte b).2, P (cs.flatten ++ c ++ [b]) e

theorem Receiver.each_iff (s : Receiver F) (chunks : List (List α)) (P : List α → ε → Prop) :
    s.Each chunks P ↔ ∀ x b, x ++ [b] <+: chunks.flatten →
      ∀ e ∈ ((s.putBytes x).1.putByte b).2, P (x ++ [b]) e := by
  have hstate : ∀ cs c, ((s.putChunks cs).1.putBytes c).1 = (s.putBytes (cs.flatten ++ c)).1 :=
    fun cs c => by rw [putChunks_eq, putBytes_append]
  constructor
  · rintro h x b ⟨rest, hx⟩ e he
    rw [List.append_assoc] at hx
    obtain ⟨cs, c, c', cs', hchunks, rfl⟩ := exists_chunk hx.symm
    refine h cs c b c' cs' hchunks e ?_
    rw [hstate]
    exact he
  · intro h cs c b c' cs' hchunks e he
    rw [hstate] at he
    refine h _ b ⟨c' ++ cs'.flatten, ?_⟩ e he
    rw [hchunks]
    simp only [List.flatten_append, List.flatten_cons, List.append_assoc, List.cons_append,
      List.nil_append]

/-- The stream `x` ends with an end mark that the receiver finds: complete frames `g`, then `t`
    up to a preamble and `v` up to the mark. -/
structure Complete (F : Format α ε) (x g t v : List α) : Prop where
  cut : x = g ++ (t ++ v)
  frames : Frames F g
  lock : FirstLock F t
  last : FirstEnd F v

/-- What the buffer has in front of the position at the end mark. -/
def held (F : Format α ε) (v : List α) : List α :=
  (F.pre ++ v).drop ((F.pre ++ v).length - (F.pre ++ v).length % F.size)

omit [DecidableEq α] in
theorem length_held (F : Format α ε) (v : List α) :
    (held F v).length = (F.pre ++ v).length % F.size := by
  have hle := Nat.mod_le (F.pre ++ v).length F.size
  unfold held
  rw [List.length_drop]
  omega

omit [DecidableEq α] in
/-- The buffer was not filled to its end. -/
theorem held_of_lt {v : List α} (h : (F.pre ++ v).length < F.size) : held F v = F.pre ++ v := by
  unfold held
  rw [Nat.mod_eq_of_lt h, Nat.sub_self, List.drop_zero]

omit [DecidableEq α] in
/-- The position went back to 0 after the preamble. -/
theorem held_suffix {v : List α} (h : F.size ≤ (F.pre ++ v).length) : held F v <:+ v := by
  have hmod := Nat.mod_lt (F.pre ++ v).length (Nat.lt_of_le_of_lt (Nat.zero_le _) F.pre_lt_size)
  have hsplit := Nat.div_add_mod (F.pre ++ v).length F.size
  have hdiv : F.size * 1 ≤ F.size * ((F.pre ++ v).length / F.size) :=
    Nat.mul_le_mul_left _ (Nat.div_pos h (by omega))
  have hpre := F.pre_lt_size
  unfold held
  rw [List.drop_append, List.drop_of_length_le (by omega), List.nil_append]
  exact List.drop_suffix _ _

omit [DecidableEq α] in
/-- The bytes in front of the position end with the end mark. -/
theorem eom_suffix_held {v : List α} (h : EndAt F (F.pre ++ v)) : F.eom <:+ held F v := by
  have hmark := F.mark_le
  have hlen := length_held F v
  have hmin := h.2
  exact List.suffix_of_suffix_length_le h.1 (List.drop_suffix _ _) (by
    show F.eom.length ≤ (held F v).length
    omega)

omit [DecidableEq α] in
theorem suffix_eq {a b x : List α} (ha : a <:+ x) (hb : b <:+ x) (h : a.length = b.length) :
    a = b :=
  (List.suffix_of_suffix_length_le ha hb (Nat.le_of_eq h)).eq_of_length h

/-- What is handed over is handed over at an end mark. -/
theorem exists_complete {s : Receiver F} (hp : s.pos = 0) (hs : s.state = .head) {x : List α}
    {b : α} {e : ε} (he : e ∈ ((s.putBytes x).1.putByte b).2) :
    ∃ g t v, Complete F (x ++ [b]) g t v := by
  cases putBytes_phase hp hs x with
  | @search g t old cut frames lock inv =>
    have hnone : ((s.putBytes x).1.putByte b).2 = [] := by
      by_cases hb : IsLock F (t ++ [b])
      · exact ((inv.step b).1 hb).2
      · exact ((inv.step b).2 hb).2
    rw [hnone] at he
    exact absurd he List.not_mem_nil
  | @body g t v old cut frames lock noEnd inv =>
    have hstep := inv.step b
    rw [List.append_assoc] at hstep
    by_cases hb : EndAt F (F.pre ++ (v ++ [b]))
    · refine ⟨g, t, v ++ [b], ?_, frames, lock, noEnd.firstEnd hb⟩
      simp only [cut, List.append_assoc]
    · rw [(hstep.2 hb).2] at he
      exact absurd he List.not_mem_nil

/-- At an end mark the buffer is handed over with what it holds. -/
theorem Complete.out {s : Receiver F} (hp : s.pos = 0) (hs : s.state = .head) {x g t v : List α}
    {b : α} (h : Complete F (x ++ [b]) g t v) :
    ∃ s' : Receiver F, s'.pos = (held F v).length ∧ s'.buf.take s'.pos = held F v ∧
      F.minLen ≤ s'.pos ∧ ((s.putBytes x).1.putByte b).2 = (F.frame s'.buf s'.pos).2 := by
  obtain ⟨cut, frames, lock, last⟩ := h
  rcases List.eq_nil_or_concat v with rfl | ⟨v, b', rfl⟩
  · exact absurd rfl last.ne_nil
  · rw [List.concat_eq_append] at *
    rw [← List.append_assoc, ← List.append_assoc] at cut
    obtain ⟨hx, hb⟩ := List.append_inj' cut rfl
    obtain rfl : b = b' := List.singleton_inj.mp hb
    obtain ⟨hpos, hstate⟩ := putBytes_frames hp hs frames
    have hbody := (putBytes_lock hpos hstate lock).1
    have hno : ∀ j, 0 < j → j ≤ v.length → ¬ EndAt F (F.pre ++ v.take j) := by
      intro j _ hj
      have := last.2 j (by rw [List.length_append, List.length_singleton]; omega)
      rwa [List.take_append_of_le_length hj] at this
    have hrun := (hbody.run hno).1
    have hput : (s.putBytes x).1 = (((s.putBytes g).1.putBytes t).1.putBytes v).1 := by
      rw [hx, Receiver.putBytes_append, Receiver.putBytes_append]
    rw [← hput] at hrun
    have hend : EndAt F (F.pre ++ v ++ [b]) := by
      rw [List.append_assoc]
      exact last.1
    have hfired := (hrun.step b).1 hend
    have hstore := hrun.store b
    have hlen := length_held F (v ++ [b])
    have hmin := hend.2
    rw [← List.append_assoc] at hlen
    refine ⟨(s.putBytes x).1.store b, ?_, ?_, ?_, hfired.out⟩
    · rw [hstore.pos, hlen]
    · rw [hstore.recent, hstore.pos]
      unfold held
      rw [← List.append_assoc]
    · rw [hstore.pos]
      exact hmin

omit [DecidableEq α] in
/-- A preamble that is completed first by its own last byte has nothing in front. -/
theorem FirstLock.eq_pre {t : List α} (h : FirstLock F t) (hpre : F.pre <:+ t) : t = F.pre := by
  obtain ⟨⟨-, hdvd, htake, -⟩, hfirst⟩ := h
  have hn := F.pre_length
  have hk := F.keep_pos
  have hword : (F.pre.take F.keep).length = F.keep := by
    rw [List.length_take]
    omega
  obtain ⟨u, rfl⟩ := hpre
  rcases List.eq_nil_or_concat u with rfl | ⟨u', a, hu⟩
  · rfl
  · exfalso
    have hlen : (u ++ F.pre).length = u.length + 2 * F.keep := by rw [List.length_append, hn]
    rw [hlen, Nat.dvd_add_left ⟨2, Nat.mul_comm 2 _⟩] at hdvd
    have hpos : 0 < u.length := by
      rw [hu, List.concat_eq_append, List.length_append, List.length_singleton]
      omega
    have hle := Nat.le_of_dvd hpos hdvd
    have hcut : (u ++ F.pre).take (u.length + F.keep) = u ++ F.pre.take F.keep := by
      rw [List.take_length_add_append]
    refine hfirst (u.length + F.keep) (by omega) ?_
    rw [hcut]
    refine ⟨?_, ?_, ?_, ?_⟩
    · rw [List.length_append, hword]
      omega
    · rw [List.length_append, hword]
      exact Nat.dvd_add hdvd (Nat.dvd_refl _)
    · rw [List.take_append_of_le_length hle] at htake ⊢
      exact htake
    · rw [List.length_append, hword, Nat.add_sub_cancel, List.drop_left]

omit [DecidableEq α] in
/-- The preamble stands in the stream in front of `v` only where nothing was between its words. -/
theorem Complete.pre_iff {x g t v : List α} (h : Complete F x g t v) :
    F.pre ++ v <:+ x ↔ t = F.pre := by
  obtain ⟨rfl, -, lock, -⟩ := h
  have hn := F.pre_length
  have hmin := lock.1.1
  rw [← List.append_assoc]
  constructor
  · rintro ⟨y, hy⟩
    rw [← List.append_assoc] at hy
    obtain ⟨hfront, -⟩ := List.append_inj' hy rfl
    have hsuf : F.pre <:+ g ++ t := ⟨y, hfront⟩
    rcases List.suffix_or_suffix_of_suffix hsuf (List.suffix_append g t) with hpre | hpre
    · exact lock.eq_pre hpre
    · exact hpre.eq_of_length_le (by omega)
  · rintro rfl
    exact ⟨g, by rw [List.append_assoc]⟩

/-! ## The end marks of a run -/

omit [DecidableEq α] in
/-- The same receiver, but an end mark puts out the buffer and the position it was found at. -/
def Format.traced (F : Format α ε) : Format α (List α × Nat) where
  size := F.size
  pre := F.pre
  keep := F.keep
  eom := F.eom
  eomFrom := F.eomFrom
  minLen := F.minLen
  frame := fun buf n => ((F.frame buf n).1, [(buf, n)])
  keep_pos := F.keep_pos
  pre_double := F.pre_double
  pre_length := F.pre_length
  eomFrom_le := F.eomFrom_le
  mark_le := F.mark_le
  pre_lt := F.pre_lt
  minLen_le := F.minLen_le
  frame_length := F.frame_length

def Receiver.traced (s : Receiver F) : Receiver F.traced where
  buf := s.buf
  pos := s.pos
  state := s.state
  buf_length := s.buf_length
  pos_lt := s.pos_lt

/-- What `F` puts out at the end marks `ms`. -/
def outOf (F : Format α ε) (ms : List (List α × Nat)) : List ε :=
  ms.flatMap fun m => (F.frame m.1 m.2).2

theorem Receiver.traced_putByte (s : Receiver F) (b : α) :
    (s.traced.putByte b).1 = (s.putByte b).1.traced ∧
      outOf F (s.traced.putByte b).2 = (s.putByte b).2 := by
  unfold putByte
  dsimp only [Receiver.traced, Receiver.store, Format.traced]
  cases s.state with
  | head =>
    dsimp only
    split_ifs
    all_goals exact ⟨rfl, rfl⟩
  | eom =>
    dsimp only
    split_ifs
    all_goals first | exact ⟨rfl, List.append_nil _⟩ | exact ⟨rfl, rfl⟩

theorem Receiver.traced_putBytes (s : Receiver F) (x : List α) :
    (s.traced.putBytes x).1 = (s.putBytes x).1.traced ∧
      outOf F (s.traced.putBytes x).2 = (s.putBytes x).2 := by
  induction x generalizing s with
  | nil => exact ⟨rfl, rfl⟩
  | cons b x ih =>
    obtain ⟨hstate, hout⟩ := s.traced_putByte b
    obtain ⟨hstate', hout'⟩ := ih (s.putByte b).1
    simp only [putBytes, hstate]
    refine ⟨hstate', ?_⟩
    rw [← hout, ← hout']
    exact List.flatMap_append

omit [DecidableEq α] in
theorem Frames.traced {g : List α} (h : Frames F g) : Frames F.traced g := by
  induction h with
  | nil => exact .nil
  | frame _ lock last ih => exact .frame ih lock last

omit [DecidableEq α] in
theorem Frames.of_traced {g : List α} (h : Frames F.traced g) : Frames F g := by
  induction h with
  | nil => exact .nil
  | frame _ lock last ih => exact .frame ih lock last

/-- An end mark of the trace is the end of a complete frame. -/
theorem exists_complete_of_mark {s : Receiver F} (hp : s.pos = 0) (hs : s.state = .head)
    {x : List α} {b : α} {m : List α × Nat} (hm : m ∈ ((s.traced.putBytes x).1.putByte b).2) :
    ∃ g t v, Complete F (x ++ [b]) g t v := by
  obtain ⟨g, t, v, h⟩ := exists_complete (s := s.traced) hp hs hm
  exact ⟨g, t, v, h.cut, h.frames.of_traced, h.lock, h.last⟩

/-- At the end of a complete frame the trace has one end mark, with what the buffer holds. -/
theorem Complete.mark {s : Receiver F} (hp : s.pos = 0) (hs : s.state = .head)
    {x g t v : List α} {b : α} (h : Complete F (x ++ [b]) g t v) :
    ∃ buf, ((s.traced.putBytes x).1.putByte b).2 = [(buf, (held F v).length)] ∧
      buf.take (held F v).length = held F v ∧ F.minLen ≤ (held F v).length := by
  have h' : Complete F.traced (x ++ [b]) g t v := ⟨h.cut, h.frames.traced, h.lock, h.last⟩
  obtain ⟨s', hpos, hbuf, hmin, hout⟩ := h'.out (s := s.traced) hp hs
  have hheld : held F.traced v = held F v := rfl
  rw [hheld] at hpos hbuf
  rw [hpos] at hbuf hmin hout
  exact ⟨s'.buf, hout, hbuf, hmin⟩

end Run

end Framing
