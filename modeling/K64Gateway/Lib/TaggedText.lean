import Mathlib

/-
  Texts of fields `tag value sep` that are read by searching the tag from the start of the
  text, and the field's value from behind the tag up to a stop character.

  `behind_joinFields` says where such a search ends: behind the first tag that stands in the
  value of an earlier field, and only else behind the field's own tag.
-/

namespace TaggedText

variable {α : Type}

theorem prefix_of_not_mem {t v rest : List α} {sep : α} (hsep : sep ∉ t)
    (h : t <+: v ++ sep :: rest) : t <+: v := by
  rcases List.prefix_or_prefix_of_prefix h (List.prefix_append v (sep :: rest)) with ht | hv
  · exact ht
  · obtain ⟨x, rfl⟩ := hv
    rw [List.prefix_append_right_inj] at h
    cases x with
    | nil => rw [List.append_nil]
    | cons a x =>
      obtain rfl := (List.cons_prefix_cons.mp h).1
      exact absurd (List.mem_append_right _ List.mem_cons_self) hsep

section Search

variable [DecidableEq α]

/-! ## Searching -/

/-- `m` from the first place on where `t` stands. -/
def strstr (t : List α) : List α → Option (List α)
  | [] => if t = [] then some [] else none
  | b :: m => if t <+: b :: m then some (b :: m) else strstr t m

/-- What stands in `m` behind the first `t`. -/
def behind (t m : List α) : Option (List α) := (strstr t m).map (·.drop t.length)

/-- At most `n` characters of `m`, up to the first `stop`. -/
def scanText (n : Nat) (stop : α) (m : List α) : List α := (m.takeWhile (· != stop)).take n

theorem strstr_prefix {t m : List α} (h : t <+: m) : strstr t m = some m := by
  cases m with
  | nil => rw [strstr, if_pos (List.prefix_nil.mp h)]
  | cons b m => rw [strstr, if_pos h]

theorem strstr_eq_none_iff {t m : List α} : strstr t m = none ↔ ¬ t <:+: m := by
  induction m with
  | nil => simp [strstr]
  | cons b m ih =>
    rw [List.infix_cons_iff, strstr]
    by_cases h : t <+: b :: m
    · simp [h]
    · simp only [h, if_false, false_or, ih]

theorem strstr_eq_some {t m p : List α} (h : strstr t m = some p) : t <+: p ∧ p <:+ m := by
  induction m with
  | nil =>
    rw [strstr] at h
    split at h
    · next ht =>
      obtain rfl := Option.some.inj h
      exact ⟨ht ▸ List.prefix_rfl, List.suffix_rfl⟩
    · exact absurd h (by simp)
  | cons b m ih =>
    rw [strstr] at h
    split at h
    · next ht =>
      obtain rfl := Option.some.inj h
      exact ⟨ht, List.suffix_rfl⟩
    · exact ⟨(ih h).1, (ih h).2.trans (List.suffix_cons b m)⟩

/-- A place that is found stays found when the text grows. -/
theorem strstr_append_of_some {t m p : List α} (h : strstr t m = some p) (z : List α) :
    strstr t (m ++ z) = some (p ++ z) := by
  induction m with
  | nil =>
    rw [strstr] at h
    split at h
    · next ht =>
      obtain rfl := Option.some.inj h
      exact strstr_prefix (ht ▸ List.nil_prefix)
    · exact absurd h (by simp)
  | cons b m ih =>
    rw [strstr] at h
    split at h
    · next ht =>
      obtain rfl := Option.some.inj h
      exact strstr_prefix (ht.trans (List.prefix_append _ _))
    · next ht =>
      rw [List.cons_append, strstr]
      split
      · next ht' =>
        -- `t` ends behind the text: impossible, as it stands inside the text further on
        have hlen := (strstr_eq_some h).1.length_le.trans (strstr_eq_some h).2.length_le
        refine absurd (List.prefix_of_prefix_length_le ht' (List.prefix_append (b :: m) z) ?_) ht
        rw [List.length_cons]
        omega
      · exact ih h

/-- Nothing is found at the places of `u`. -/
theorem strstr_skip {t u m : List α} (h : ∀ i < u.length, ¬ t <+: u.drop i ++ m) :
    strstr t (u ++ m) = strstr t m := by
  induction u with
  | nil => rfl
  | cons b u ih =>
    have h0 := h 0 (Nat.zero_lt_succ _)
    rw [List.drop_zero] at h0
    rw [List.cons_append, strstr, if_neg (by rwa [← List.cons_append])]
    refine ih fun i hi => ?_
    have := h (i + 1) (by rw [List.length_cons]; omega)
    rwa [List.drop_succ_cons] at this

/-- A separator that is not in `t` cuts the search in two. -/
theorem strstr_sep {t : List α} {sep : α} (hsep : sep ∉ t) (v rest : List α) :
    strstr t (v ++ sep :: rest) =
      match strstr t v with
      | some p => some (p ++ sep :: rest)
      | none => strstr t rest := by
  cases hv : strstr t v with
  | some p => exact strstr_append_of_some hv _
  | none =>
    rw [List.append_cons]
    refine strstr_skip fun i hi ht => ?_
    rw [List.length_append, List.length_singleton] at hi
    rw [List.drop_append_of_le_length (by omega), List.append_assoc] at ht
    have hin := prefix_of_not_mem hsep ht
    exact strstr_eq_none_iff.mp hv (hin.isInfix.trans (List.drop_suffix i v).isInfix)

/-- `t` does not start inside `u`, whatever follows `u`. -/
def Apart (u t : List α) : Prop := ∀ i < u.length, ¬ t <+: u.drop i ∧ ¬ u.drop i <+: t

instance (u t : List α) : Decidable (Apart u t) := by
  unfold Apart
  infer_instance

theorem strstr_apart {u t : List α} (h : Apart u t) (m : List α) :
    strstr t (u ++ m) = strstr t m := by
  refine strstr_skip fun i hi ht => ?_
  rcases List.prefix_or_prefix_of_prefix ht (List.prefix_append (u.drop i) m) with hp | hp
  · exact (h i hi).1 hp
  · exact (h i hi).2 hp

theorem behind_self (t m : List α) : behind t (t ++ m) = some m := by
  rw [behind, strstr_prefix (List.prefix_append t m), Option.map_some, List.drop_left]

theorem behind_eq_none_iff {t m : List α} : behind t m = none ↔ ¬ t <:+: m := by
  rw [behind, Option.map_eq_none_iff, strstr_eq_none_iff]

theorem behind_suffix {t m y : List α} (h : behind t m = some y) : t ++ y <:+ m := by
  obtain ⟨p, hp, rfl⟩ := Option.map_eq_some_iff.mp h
  obtain ⟨⟨y, rfl⟩, hsuf⟩ := strstr_eq_some hp
  rwa [List.drop_left]

theorem behind_append_of_some {t m y : List α} (h : behind t m = some y) (z : List α) :
    behind t (m ++ z) = some (y ++ z) := by
  obtain ⟨p, hp, rfl⟩ := Option.map_eq_some_iff.mp h
  rw [behind, strstr_append_of_some hp, Option.map_some,
    List.drop_append_of_le_length (strstr_eq_some hp).1.length_le]

theorem behind_apart {u t : List α} (h : Apart u t) (m : List α) :
    behind t (u ++ m) = behind t m := by
  rw [behind, strstr_apart h, behind]

theorem behind_sep {t : List α} {sep : α} (hsep : sep ∉ t) (v rest : List α) :
    behind t (v ++ sep :: rest) =
      match behind t v with
      | some y => some (y ++ sep :: rest)
      | none => behind t rest := by
  cases hv : behind t v with
  | some y => exact behind_append_of_some hv _
  | none =>
    rw [behind, strstr_sep hsep, Option.map_eq_none_iff.mp hv]
    rfl

/-! ## Reading -/

theorem takeWhile_stop {v : List α} {stop : α} (h : stop ∉ v)
    (rest : List α) : (v ++ stop :: rest).takeWhile (· != stop) = v := by
  rw [List.takeWhile_append_of_pos fun a ha => by
    have hne : a ≠ stop := fun he => h (he ▸ ha)
    simpa using hne]
  rw [List.takeWhile_cons_of_neg (by simp), List.append_nil]

theorem scanText_stop {n : Nat} {v : List α} {stop : α} (h : stop ∉ v) (rest : List α) :
    scanText n stop (v ++ stop :: rest) = v.take n := by
  rw [scanText, takeWhile_stop h]

theorem scanText_of_not_mem {n : Nat} {m : List α} {stop : α} (h : stop ∉ m) :
    scanText n stop m = m.take n := by
  rw [scanText, List.takeWhile_eq_self_iff.mpr]
  intro a ha
  have hne : a ≠ stop := fun he => h (he ▸ ha)
  simpa using hne

/-- A text that is closed in `m`, by its stop character or by its limit, does not depend on
    what stands behind `m`. -/
theorem scanText_closed {n : Nat} {m : List α} {stop : α} (h : stop ∈ m ∨ n ≤ m.length)
    (z : List α) : scanText n stop (m ++ z) = scanText n stop m := by
  by_cases hm : stop ∈ m
  · obtain ⟨v, rest, rfl, hv⟩ := List.eq_append_cons_of_mem hm
    rw [List.append_assoc, List.cons_append, scanText_stop hv, scanText_stop hv]
  · have hn := h.resolve_left hm
    have hall : ∀ a ∈ m, (a != stop) = true := fun a ha => by
      have hne : a ≠ stop := fun he => hm (he ▸ ha)
      simpa using hne
    rw [scanText_of_not_mem hm, scanText, List.takeWhile_append_of_pos hall,
      List.take_append_of_le_length hn]

/-! ## Fields -/

/-- Fields, each a tag and a value, with `sep` behind every value. -/
def joinFields (sep : α) : List (List α × List α) → List α → List α
  | [], tail => tail
  | f :: fs, tail => f.1 ++ (f.2 ++ sep :: joinFields sep fs tail)

/-- What stands behind the first `t` in the values of the fields. -/
def behindFields (sep : α) (t : List α) : List (List α × List α) → List α → Option (List α)
  | [], _ => none
  | f :: fs, tail =>
      match behind t f.2 with
      | some y => some (y ++ sep :: joinFields sep fs tail)
      | none => behindFields sep t fs tail

/-- What stands behind the first `t` in the values, up to the end of that value. -/
def firstBehind (t : List α) : List (List α × List α) → Option (List α)
  | [] => none
  | f :: fs =>
      match behind t f.2 with
      | some y => some y
      | none => firstBehind t fs

omit [DecidableEq α] in
theorem joinFields_append (sep : α) (fs gs : List (List α × List α)) (tail : List α) :
    joinFields sep (fs ++ gs) tail = joinFields sep fs (joinFields sep gs tail) := by
  induction fs with
  | nil => rfl
  | cons f fs ih => rw [List.cons_append, joinFields, joinFields, ih]

omit [DecidableEq α] in
theorem joinFields_append_tail (sep : α) (fs : List (List α × List α)) (tail z : List α) :
    joinFields sep fs (tail ++ z) = joinFields sep fs tail ++ z := by
  induction fs with
  | nil => rfl
  | cons f fs ih => simp only [joinFields, ih, List.append_assoc, List.cons_append]

omit [DecidableEq α] in
theorem joinFields_suffix (sep : α) (fs : List (List α × List α)) (tail : List α) :
    tail <:+ joinFields sep fs tail := by
  induction fs with
  | nil => exact List.suffix_rfl
  | cons f fs ih =>
    have hf : joinFields sep fs tail <:+ f.2 ++ sep :: joinFields sep fs tail :=
      (List.suffix_cons _ _).trans (List.suffix_append _ _)
    exact (ih.trans hf).trans (List.suffix_append _ _)

omit [DecidableEq α] in
/-- A field among others, with the fields behind it out of sight. -/
theorem exists_joinFields (sep : α) {front fs : List (List α × List α)} {f : List α × List α}
    (h : front ++ [f] <+: fs) (tail : List α) :
    ∃ rest, joinFields sep fs tail = joinFields sep front (f.1 ++ (f.2 ++ sep :: rest)) := by
  obtain ⟨gs, rfl⟩ := h
  rw [List.append_assoc, joinFields_append]
  exact ⟨_, rfl⟩

theorem behindFields_append_tail (sep : α) (t : List α) (fs : List (List α × List α))
    (tail z : List α) :
    behindFields sep t fs (tail ++ z) = (behindFields sep t fs tail).map (· ++ z) := by
  induction fs with
  | nil => rfl
  | cons f fs ih =>
    rw [behindFields, behindFields]
    cases behind t f.2 with
    | some y => simp [joinFields_append_tail]
    | none => exact ih

/-- The search for `t` through fields with other tags. -/
theorem behind_joinFields {sep : α} {t : List α} (hsep : sep ∉ t)
    {fs : List (List α × List α)} (hfs : ∀ f ∈ fs, Apart f.1 t) (tail : List α) :
    behind t (joinFields sep fs tail) = (behindFields sep t fs tail).or (behind t tail) := by
  induction fs with
  | nil => rfl
  | cons f fs ih =>
    rw [joinFields, behind_apart (hfs f List.mem_cons_self), behind_sep hsep, behindFields]
    cases behind t f.2 with
    | some y => rfl
    | none => exact ih fun g hg => hfs g (List.mem_cons_of_mem f hg)

/-- A text read behind a `t` in the values stops at the end of that value at the latest. -/
theorem behindFields_eq_some (sep : α) (t : List α) (fs : List (List α × List α))
    (tail : List α) :
    (firstBehind t fs = none ∧ behindFields sep t fs tail = none) ∨
      ∃ y rest, firstBehind t fs = some y ∧ behindFields sep t fs tail = some (y ++ sep :: rest) ∧
        tail <:+ rest ∧ ∃ f ∈ fs, y <:+ f.2 := by
  induction fs with
  | nil => exact Or.inl ⟨rfl, rfl⟩
  | cons f fs ih =>
    rw [firstBehind, behindFields]
    cases hf : behind t f.2 with
    | some y =>
      have hy := (List.suffix_append t y).trans (behind_suffix hf)
      exact Or.inr ⟨y, _, rfl, rfl, joinFields_suffix sep fs tail, f, List.mem_cons_self, hy⟩
    | none =>
      rcases ih with h | ⟨y, rest, h1, h2, htail, g, hg, hy⟩
      · exact Or.inl h
      · exact Or.inr ⟨y, rest, h1, h2, htail, g, List.mem_cons_of_mem f hg, hy⟩

end Search

end TaggedText
