import Mathlib.Data.List.Pairwise
import Mathlib.Logic.Function.Basic

/-
  A stretch of memory that is cut into pieces. Each piece begins with a header that tells where the
  next piece begins and where the one before it began.

  `Tiled gap next prev first tiles last` says that the headers lead from `first` through the pieces
  `tiles` to `last`, and back, and that each piece has room for its header of size `gap`.

  Proved: pieces do not overlap (`Tiled.apart`), and a piece may be cut in two (`Tiled.split`) or
  joined with the next one (`Tiled.merge`) by writes to the headers beside the cut.
-/

namespace Tiling

/-- The next pointers lead from `a` through `tiles` to `b`. -/
def Seg (gap : Nat) (next : Nat → Nat) : Nat → List Nat → Nat → Prop
  | a, [], b => a = b
  | a, x :: tiles, b => a = x ∧ x + gap ≤ next x ∧ Seg gap next (next x) tiles b

/-- Each piece knows the one before it; the one before the first is `p`. -/
def Back (prev : Nat → Nat) : Nat → List Nat → Prop
  | _, [] => True
  | p, x :: tiles => prev x = p ∧ Back prev x tiles

variable {gap : Nat} {next next' prev prev' : Nat → Nat} {a b p : Nat} {l l₁ l₂ : List Nat}

theorem seg_append (l₁ l₂ : List Nat) :
    Seg gap next a (l₁ ++ l₂) b ↔ ∃ m, Seg gap next a l₁ m ∧ Seg gap next m l₂ b := by
  induction l₁ generalizing a with
  | nil =>
    constructor
    · intro h
      exact ⟨a, rfl, h⟩
    · rintro ⟨m, rfl, h⟩
      exact h
  | cons x l₁ ih =>
    constructor
    · rintro ⟨rfl, hgap, hrest⟩
      obtain ⟨m, h₁, h₂⟩ := ih.mp hrest
      exact ⟨m, ⟨rfl, hgap, h₁⟩, h₂⟩
    · rintro ⟨m, ⟨rfl, hgap, h₁⟩, h₂⟩
      exact ⟨rfl, hgap, ih.mpr ⟨m, h₁, h₂⟩⟩

theorem Seg.le (h : Seg gap next a l b) : a ≤ b := by
  induction l generalizing a with
  | nil => exact Nat.le_of_eq h
  | cons x l ih =>
    obtain ⟨rfl, hgap, hrest⟩ := h
    exact Nat.le_trans (Nat.le_trans (Nat.le_add_right _ _) hgap) (ih hrest)

/-- Where a piece lies. -/
theorem Seg.bounds (h : Seg gap next a l b) {x : Nat} (hx : x ∈ l) :
    a ≤ x ∧ x + gap ≤ next x ∧ next x ≤ b := by
  induction l generalizing a with
  | nil => exact absurd hx List.not_mem_nil
  | cons y l ih =>
    obtain ⟨rfl, hgap, hrest⟩ := h
    rcases List.mem_cons.mp hx with rfl | hx
    · exact ⟨Nat.le_refl _, hgap, hrest.le⟩
    · obtain ⟨hle, hbounds⟩ := ih hrest hx
      exact ⟨by omega, hbounds⟩

/-- The pieces lie one behind the other. -/
theorem Seg.pairwise (h : Seg gap next a l b) : l.Pairwise fun x y => next x ≤ y := by
  induction l generalizing a with
  | nil => exact List.Pairwise.nil
  | cons x l ih =>
    obtain ⟨rfl, -, hrest⟩ := h
    exact List.pairwise_cons.mpr ⟨fun y hy => (hrest.bounds hy).1, ih hrest⟩

theorem Seg.congr (h : Seg gap next a l b) (heq : ∀ x ∈ l, next' x = next x) :
    Seg gap next' a l b := by
  induction l generalizing a with
  | nil => exact h
  | cons x l ih =>
    obtain ⟨rfl, hgap, hrest⟩ := h
    have hx := heq a List.mem_cons_self
    refine ⟨rfl, by rw [hx]; exact hgap, ?_⟩
    rw [hx]
    exact ih hrest fun y hy => heq y (List.mem_cons_of_mem _ hy)

theorem Back.congr (h : Back prev p l) (heq : ∀ x ∈ l, prev' x = prev x) : Back prev' p l := by
  induction l generalizing p with
  | nil => trivial
  | cons x l ih =>
    exact ⟨(heq x List.mem_cons_self).trans h.1,
      ih h.2 fun y hy => heq y (List.mem_cons_of_mem _ hy)⟩

theorem back_append (l₁ l₂ : List Nat) :
    Back prev p (l₁ ++ l₂) ↔ Back prev p l₁ ∧ Back prev (l₁.getLastD p) l₂ := by
  induction l₁ generalizing p with
  | nil => exact ⟨fun h => ⟨trivial, h⟩, fun h => h.2⟩
  | cons x l₁ ih =>
    have hlast : (x :: l₁).getLastD p = l₁.getLastD x := by
      cases l₁ <;> rfl
    rw [List.cons_append, hlast]
    exact ⟨fun h => ⟨⟨h.1, (ih.mp h.2).1⟩, (ih.mp h.2).2⟩,
      fun h => ⟨h.1.1, ih.mpr ⟨h.1.2, h.2⟩⟩⟩

/-- The pieces of a stretch; the one before the first is the first itself. -/
structure Tiled (gap : Nat) (next prev : Nat → Nat) (first : Nat) (tiles : List Nat)
    (last : Nat) : Prop where
  seg : Seg gap next first tiles last
  back : Back prev first tiles

namespace Tiled

variable {x y z : Nat} {l l₁ l₂ : List Nat}

/-- The part of a stretch from a piece on. -/
theorem seg_split (h : Tiled gap next prev a (l₁ ++ x :: l₂) b) :
    Seg gap next a l₁ x ∧ x + gap ≤ next x ∧ Seg gap next (next x) l₂ b := by
  obtain ⟨m, h₁, rfl, hgap, h₂⟩ := (seg_append l₁ (x :: l₂)).mp h.seg
  exact ⟨h₁, hgap, h₂⟩

/-- The pieces before a piece lie below it. -/
theorem lt_of_mem_front (hgap : 0 < gap) (h : Tiled gap next prev a (l₁ ++ x :: l₂) b)
    (hy : y ∈ l₁) : y < x := by
  have hbounds := h.seg_split.1.bounds hy
  omega

theorem le_of_mem_behind (h : Tiled gap next prev a (l₁ ++ x :: l₂) b) (hy : y ∈ l₂) :
    next x ≤ y :=
  (h.seg_split.2.2.bounds hy).1

theorem lt_last (hgap : 0 < gap) (h : Tiled gap next prev a l b) (hx : x ∈ l) : x < b := by
  have hbounds := h.seg.bounds hx
  omega

/-- Two pieces of a stretch do not overlap. -/
theorem apart (h : Tiled gap next prev a l b) (hx : x ∈ l) (hy : y ∈ l) (hne : x ≠ y) :
    next x ≤ y ∨ next y ≤ x := by
  have hpair := h.seg.pairwise.imp (S := fun x y => next x ≤ y ∨ next y ≤ x) fun h => Or.inl h
  have hsymm : Std.Symm fun x y => next x ≤ y ∨ next y ≤ x := ⟨fun _ _ h => h.symm⟩
  exact hpair.forall hx hy hne

theorem nodup (hgap : 0 < gap) (h : Tiled gap next prev a l b) : l.Nodup := by
  have hbounds : ∀ x ∈ l, x + gap ≤ next x := fun x hx => (h.seg.bounds hx).2.1
  refine List.Pairwise.imp_of_mem (fun {x y} hx _ hle heq => ?_) h.seg.pairwise
  have hroom := hbounds x hx
  omega

/-- What is behind a piece begins where its next pointer says. -/
theorem head_behind (h : Tiled gap next prev a (l₁ ++ x :: y :: l₂) b) : next x = y :=
  h.seg_split.2.2.1

theorem prev_behind (h : Tiled gap next prev a (l₁ ++ x :: y :: l₂) b) : prev y = x :=
  ((back_append l₁ (x :: y :: l₂)).mp h.back).2.2.1

theorem prev_eq (h : Tiled gap next prev a (l₁ ++ x :: l₂) b) : prev x = l₁.getLastD a :=
  ((back_append l₁ (x :: l₂)).mp h.back).2.1

/-- A piece is cut at `y`. -/
theorem split (hgap : 0 < gap) (h : Tiled gap next prev a (l₁ ++ x :: l₂) b)
    (hxy : x + gap ≤ y) (hy : y + gap ≤ next x)
    (hprev : ∀ z < b, prev' z = if z = y then x else if z = next x then y else prev z) :
    Tiled gap (Function.update (Function.update next y (next x)) x y) prev' a
      (l₁ ++ x :: y :: l₂) b := by
  obtain ⟨hfront, -, hbehind⟩ := h.seg_split
  have hlast := hbehind.le
  have hx : Function.update (Function.update next y (next x)) x y x = y := Function.update_self ..
  have hy' : Function.update (Function.update next y (next x)) x y y = next x := by
    rw [Function.update_of_ne (by omega), Function.update_self]
  have hother : ∀ z, z ≠ x → z ≠ y →
      Function.update (Function.update next y (next x)) x y z = next z := by
    intro z hzx hzy
    rw [Function.update_of_ne hzx, Function.update_of_ne hzy]
  constructor
  · refine (seg_append _ _).mpr ⟨x, ?_, rfl, by rw [hx]; exact hxy, ?_⟩
    · refine hfront.congr fun z hz => hother z ?_ ?_
      all_goals
        have hlt := h.lt_of_mem_front hgap hz
        omega
    · rw [hx]
      refine ⟨rfl, by rw [hy']; exact hy, ?_⟩
      rw [hy']
      refine hbehind.congr fun z hz => hother z ?_ ?_
      all_goals
        have hle := h.le_of_mem_behind hz
        omega
  · obtain ⟨hback₁, hbackX, hback₂⟩ := (back_append l₁ (x :: l₂)).mp h.back
    refine (back_append _ _).mpr ⟨?_, ?_, ?_, ?_⟩
    · refine hback₁.congr fun z hz => ?_
      have hlt := h.lt_of_mem_front hgap hz
      rw [hprev z (by omega), if_neg (by omega), if_neg (by omega)]
    · rw [hprev x (by omega), if_neg (by omega), if_neg (by omega)]
      exact hbackX
    · rw [hprev y (by omega), if_pos rfl]
    · cases l₂ with
      | nil => trivial
      | cons z l₂ =>
        obtain ⟨rfl, hgapZ, hrest⟩ := hbehind
        have hlastZ := hrest.le
        refine ⟨?_, hback₂.2.congr fun w hw => ?_⟩
        · rw [hprev _ (by omega), if_neg (by omega), if_pos rfl]
        · have hbounds := hrest.bounds hw
          rw [hprev w (by omega), if_neg (by omega), if_neg (by omega)]

/-- A piece is joined with the next one. -/
theorem merge (hgap : 0 < gap) (h : Tiled gap next prev a (l₁ ++ x :: y :: l₂) b)
    (hprev : ∀ z < b, prev' z = if z = next y then x else prev z) :
    Tiled gap (Function.update next x (next y)) prev' a (l₁ ++ x :: l₂) b := by
  obtain ⟨hfront, hgapX, hxy, hgapY, hbehind⟩ := h.seg_split
  have hlast := hbehind.le
  have hother : ∀ z, z ≠ x → Function.update next x (next y) z = next z :=
    fun z hz => Function.update_of_ne hz _ _
  constructor
  · refine (seg_append _ _).mpr ⟨x, ?_, rfl, ?_, ?_⟩
    · refine hfront.congr fun z hz => hother z ?_
      have hlt := h.lt_of_mem_front hgap hz
      omega
    · rw [Function.update_self]
      omega
    · rw [Function.update_self]
      refine hbehind.congr fun z hz => hother z ?_
      have hbounds := hbehind.bounds hz
      omega
  · obtain ⟨hback₁, hbackX, hbackY, hback₂⟩ := (back_append l₁ (x :: y :: l₂)).mp h.back
    refine (back_append _ _).mpr ⟨?_, ?_, ?_⟩
    · refine hback₁.congr fun z hz => ?_
      have hlt := h.lt_of_mem_front hgap hz
      rw [hprev z (by omega), if_neg (by omega)]
    · rw [hprev x (by omega), if_neg (by omega)]
      exact hbackX
    · cases l₂ with
      | nil => trivial
      | cons z l₂ =>
        obtain ⟨rfl, hgapZ, hrest⟩ := hbehind
        have hlastZ := hrest.le
        refine ⟨?_, hback₂.2.congr fun w hw => ?_⟩
        · rw [hprev _ (by omega), if_pos rfl]
        · have hbounds := hrest.bounds hw
          rw [hprev w (by omega), if_neg (by omega)]

end Tiled

end Tiling
