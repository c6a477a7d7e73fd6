import Mathlib

/-
  C strings in a list of bytes: the string at an address is the memory from there up to its
  first zero byte, and a string function sees nothing behind it.
-/

namespace CString

/-- The bytes of an ASCII text. -/
def chars (cs : List Char) : List UInt8 := cs.map fun c => UInt8.ofNat c.toNat

/-- The string at the start of the memory `m`. -/
def cstr (m : List UInt8) : List UInt8 := m.takeWhile (· != 0)

theorem zero_not_mem_cstr (m : List UInt8) : (0 : UInt8) ∉ cstr m := by
  intro h
  have := List.mem_takeWhile_imp h
  simp at this

theorem cstr_of_not_mem {m : List UInt8} (h : (0 : UInt8) ∉ m) : cstr m = m := by
  unfold cstr
  rw [List.takeWhile_eq_self_iff]
  intro b hb
  have hne : b ≠ 0 := fun he => h (he ▸ hb)
  simpa using hne

/-- A zero byte ends the string whatever is behind it. -/
theorem cstr_append_zero (m rest : List UInt8) : cstr (m ++ 0 :: rest) = cstr m := by
  induction m with
  | nil => rfl
  | cons b m ih =>
    unfold cstr at ih ⊢
    rw [List.cons_append, List.takeWhile_cons, List.takeWhile_cons, ih]

theorem length_cstr_le (m : List UInt8) : (cstr m).length ≤ m.length :=
  (List.takeWhile_prefix _).length_le

theorem cstr_append_of_not_mem {m : List UInt8} (h : (0 : UInt8) ∉ m) (rest : List UInt8) :
    cstr (m ++ rest) = m ++ cstr rest := by
  unfold cstr
  rw [List.takeWhile_append_of_pos]
  intro b hb
  have hne : b ≠ 0 := fun he => h (he ▸ hb)
  simpa using hne

/-- Where a memory begins with zero, it does not hold a longer string. -/
theorem not_holds_cons {m s : List UInt8} {c : UInt8} (h : m.getD 0 0 = 0) :
    ¬ ((0 : UInt8) ∉ c :: s ∧ (∀ j < (c :: s).length, m.getD j 0 = (c :: s).getD j 0) ∧
      m.getD (c :: s).length 0 = 0) := by
  rintro ⟨hz, hs, -⟩
  have hc : m.getD 0 0 = c := hs 0 (Nat.succ_pos _)
  exact hz (List.mem_cons.mpr (Or.inl (h.symm.trans hc)))

/-- The string of a memory, by the bytes that are read from it. -/
theorem cstr_eq_iff {m s : List UInt8} :
    cstr m = s ↔ (0 : UInt8) ∉ s ∧ (∀ j < s.length, m.getD j 0 = s.getD j 0) ∧
      m.getD s.length 0 = 0 := by
  induction m generalizing s with
  | nil =>
    cases s with
    | nil => simp [cstr]
    | cons c s => exact iff_of_false (by simp [cstr]) (not_holds_cons rfl)
  | cons b m ih =>
    by_cases hb : b = 0
    · subst hb
      have hnil : cstr (0 :: m) = [] := by simp [cstr]
      rw [hnil]
      cases s with
      | nil => simp
      | cons c s => exact iff_of_false (by simp) (not_holds_cons rfl)
    · have hcons : cstr (b :: m) = b :: cstr m := by simp [cstr, hb]
      rw [hcons]
      cases s with
      | nil => simp [hb]
      | cons c s =>
        rw [List.cons.injEq, ih, List.mem_cons, not_or, List.length_cons, Nat.forall_lt_succ_left]
        simp only [List.getD_cons_zero, List.getD_cons_succ]
        constructor
        · rintro ⟨rfl, hz, hs, hend⟩
          exact ⟨⟨fun h => hb h.symm, hz⟩, ⟨rfl, hs⟩, hend⟩
        · rintro ⟨⟨-, hz⟩, ⟨rfl, hs⟩, hend⟩
          exact ⟨rfl, hz, hs, hend⟩

/-! ## Numbers -/

def isSpace (c : UInt8) : Bool := c == 32 || (9 ≤ c && c ≤ 13)

/-- The number at the start of a text, behind `n`. -/
def digits (n : Nat) : List UInt8 → Nat
  | [] => n
  | c :: s => if 48 ≤ c ∧ c ≤ 57 then digits (10 * n + (c.toNat - 48)) s else n

def atoi (s : List UInt8) : Int :=
  match s.dropWhile isSpace with
  | [] => 0
  | c :: s =>
      if c = 45 then -(digits 0 s : Int) else if c = 43 then digits 0 s else digits 0 (c :: s)

/-- `%u` of a number that is not zero. -/
def decimal (n : Nat) : List UInt8 := (Nat.digits 10 n).reverse.map fun d => UInt8.ofNat (48 + d)

theorem toNat_digit {d : Nat} (h : d < 10) : (UInt8.ofNat (48 + d)).toNat = 48 + d := by
  rw [UInt8.toNat_ofNat']
  omega

theorem mem_decimal {n : Nat} {c : UInt8} (h : c ∈ decimal n) : 48 ≤ c ∧ c ≤ 57 := by
  obtain ⟨d, hd, rfl⟩ := List.mem_map.mp h
  have hlt : d < 10 := Nat.digits_lt_base (by decide) (List.mem_reverse.mp hd)
  rw [UInt8.le_iff_toNat_le, UInt8.le_iff_toNat_le, toNat_digit hlt]
  have h48 : (48 : UInt8).toNat = 48 := rfl
  have h57 : (57 : UInt8).toNat = 57 := rfl
  omega

theorem length_decimal_le {n k : Nat} (h : n < 10 ^ k) : (decimal n).length ≤ k := by
  unfold decimal
  rw [List.length_map, List.length_reverse]
  exact (Nat.digits_length_le_iff (by decide) n).mpr h

theorem decimal_ne_nil {n : Nat} (h : 0 < n) : decimal n ≠ [] := by
  unfold decimal
  rw [Ne, List.map_eq_nil_iff, List.reverse_eq_nil_iff]
  exact Nat.digits_ne_nil_iff_ne_zero.mpr h.ne'

theorem digits_map (ds : List Nat) (h : ∀ d ∈ ds, d < 10) : ∀ n : Nat,
    digits n (ds.map fun d => UInt8.ofNat (48 + d)) = ds.foldl (fun n d => 10 * n + d) n := by
  induction ds with
  | nil => exact fun _ => rfl
  | cons d ds ih =>
    intro n
    have hd := h d List.mem_cons_self
    have hmem : 48 ≤ UInt8.ofNat (48 + d) ∧ UInt8.ofNat (48 + d) ≤ 57 := by
      rw [UInt8.le_iff_toNat_le, UInt8.le_iff_toNat_le, toNat_digit hd]
      have h48 : (48 : UInt8).toNat = 48 := rfl
      have h57 : (57 : UInt8).toNat = 57 := rfl
      omega
    rw [List.map_cons, digits, if_pos hmem, toNat_digit hd, Nat.add_sub_cancel_left,
      ih fun e he => h e (List.mem_cons_of_mem d he), List.foldl_cons]

/-- The decimal text of a number is read back. -/
theorem atoi_decimal {n : Nat} (h : 0 < n) : atoi (decimal n) = n := by
  have hvalue : digits 0 (decimal n) = n := by
    unfold decimal
    rw [digits_map _ fun d hd => Nat.digits_lt_base (by decide) (List.mem_reverse.mp hd),
      List.foldl_reverse]
    have hofDigits : ∀ ds : List Nat, ds.foldr (fun d n => 10 * n + d) 0 = Nat.ofDigits 10 ds := by
      intro ds
      induction ds with
      | nil => rfl
      | cons d ds ih => rw [List.foldr_cons, ih, Nat.ofDigits_cons, Nat.add_comm]
    rw [hofDigits, Nat.ofDigits_digits]
  obtain ⟨c, cs, hcs⟩ := List.exists_cons_of_ne_nil (decimal_ne_nil h)
  obtain ⟨h48, h57⟩ := mem_decimal (hcs ▸ List.mem_cons_self : c ∈ decimal n)
  have hspace : isSpace c = false := by
    unfold isSpace
    grind
  have hsign : c ≠ 45 ∧ c ≠ 43 := by grind
  unfold atoi
  rw [hcs, List.dropWhile_cons_of_neg (by simp [hspace])]
  dsimp only
  rw [if_neg hsign.1, if_neg hsign.2, ← hcs, hvalue]

end CString
