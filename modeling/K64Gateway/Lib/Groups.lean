import Mathlib

/-
  Values put into groups by a key: a value goes behind those of the first group with its key, or
  opens a group of its own behind the last one.
-/

namespace Groups

variable {κ α : Type} [DecidableEq κ]

structure Group (κ α : Type) where
  key : κ
  members : List α

/-- Put a value into the group of its key. -/
def add (key : κ) (a : α) : List (Group κ α) → List (Group κ α)
  | [] => [⟨key, [a]⟩]
  | g :: gs => if g.key = key then ⟨g.key, g.members ++ [a]⟩ :: gs else g :: add key a gs

/-- The groups of values put in one after the other. -/
def groups (items : List (κ × α)) : List (Group κ α) :=
  items.foldl (fun gs item => add item.1 item.2 gs) []

/-- The values with this key. -/
def valuesOf (key : κ) (items : List (κ × α)) : List α :=
  (items.filter fun item => item.1 = key).map Prod.snd

theorem valuesOf_append (key : κ) (xs ys : List (κ × α)) :
    valuesOf key (xs ++ ys) = valuesOf key xs ++ valuesOf key ys := by
  simp [valuesOf]

theorem valuesOf_cons_self (key : κ) (a : α) (items : List (κ × α)) :
    valuesOf key ((key, a) :: items) = a :: valuesOf key items := by
  simp [valuesOf]

theorem valuesOf_cons_of_ne {key : κ} {item : κ × α} (h : item.1 ≠ key) (items : List (κ × α)) :
    valuesOf key (item :: items) = valuesOf key items := by
  simp [valuesOf, h]

theorem valuesOf_eq_nil {key : κ} {items : List (κ × α)} (h : key ∉ items.map Prod.fst) :
    valuesOf key items = [] := by
  unfold valuesOf
  rw [List.map_eq_nil_iff, List.filter_eq_nil_iff]
  intro item hitem heq
  exact h (List.mem_map.mpr ⟨item, hitem, of_decide_eq_true heq⟩)

theorem groups_append_singleton (items : List (κ × α)) (item : κ × α) :
    groups (items ++ [item]) = add item.1 item.2 (groups items) := by
  unfold groups
  rw [List.foldl_append]
  rfl

/-! ## The keys -/

theorem keys_add (key : κ) (a : α) (gs : List (Group κ α)) :
    (add key a gs).map Group.key =
      if key ∈ gs.map Group.key then gs.map Group.key else gs.map Group.key ++ [key] := by
  induction gs with
  | nil => rfl
  | cons g gs ih =>
    unfold add
    by_cases hg : g.key = key
    · simp [hg]
    · rw [if_neg hg, List.map_cons, ih]
      have hne : ¬ key = g.key := fun h => hg h.symm
      by_cases hmem : key ∈ gs.map Group.key
      · rw [if_pos hmem, List.map_cons, if_pos (List.mem_cons_of_mem _ hmem)]
      · rw [if_neg hmem, List.map_cons, if_neg (by simp [hne, hmem]), List.cons_append]

theorem mem_keys_groups {key : κ} {items : List (κ × α)} :
    key ∈ (groups items).map Group.key ↔ key ∈ items.map Prod.fst := by
  induction items using List.reverseRecOn with
  | nil => exact Iff.rfl
  | append_singleton items item ih =>
    rw [groups_append_singleton, keys_add, List.map_append, List.mem_append, ← ih]
    split
    · rename_i hmem
      constructor
      · exact Or.inl
      · rintro (h | h)
        · exact h
        · rw [List.mem_singleton.mp h]
          exact hmem
    · rw [List.mem_append]
      exact Iff.rfl

theorem nodup_keys_groups (items : List (κ × α)) : ((groups items).map Group.key).Nodup := by
  induction items using List.reverseRecOn with
  | nil => exact List.nodup_nil
  | append_singleton items item ih =>
    rw [groups_append_singleton, keys_add]
    split
    · exact ih
    · rename_i hmem
      apply ih.append (List.nodup_singleton item.1)
      rw [List.disjoint_singleton]
      exact hmem

/-! ## The groups -/

/-- The group of the key is the only one that changes. -/
theorem add_split {front back : List (Group κ α)} {g : Group κ α}
    (hfront : g.key ∉ front.map Group.key) (a : α) :
    add g.key a (front ++ g :: back) = front ++ ⟨g.key, g.members ++ [a]⟩ :: back := by
  induction front with
  | nil => rw [List.nil_append, add, if_pos rfl, List.nil_append]
  | cons f front ih =>
    rw [List.map_cons, List.mem_cons, not_or] at hfront
    rw [List.cons_append, add, if_neg fun h => hfront.1 h.symm, ih hfront.2, List.cons_append]

theorem add_new {gs : List (Group κ α)} {key : κ} (h : key ∉ gs.map Group.key) (a : α) :
    add key a gs = gs ++ [⟨key, [a]⟩] := by
  induction gs with
  | nil => rfl
  | cons g gs ih =>
    rw [List.map_cons, List.mem_cons, not_or] at h
    rw [add, if_neg fun he => h.1 he.symm, ih h.2, List.cons_append]

omit [DecidableEq κ] in
/-- A key stands once among the groups. -/
theorem split_of_nodup {front back : List (Group κ α)} {g : Group κ α}
    (h : ((front ++ g :: back).map Group.key).Nodup) :
    g.key ∉ front.map Group.key ∧ g.key ∉ back.map Group.key := by
  rw [List.map_append, List.map_cons, List.nodup_middle, List.nodup_cons, List.mem_append,
    not_or] at h
  exact h.1

omit [DecidableEq κ] in
/-- Where keys stand once, a key tells the place. -/
theorem split_unique {front back front' back' : List (Group κ α)} {g g' : Group κ α}
    (h : ((front ++ g :: back).map Group.key).Nodup) (hkey : g'.key = g.key)
    (heq : front ++ g :: back = front' ++ g' :: back') :
    front = front' ∧ g = g' ∧ back = back' := by
  obtain ⟨hfront, hback⟩ := split_of_nodup h
  rw [← hkey] at hfront hback
  exact (List.append_cons_inj_of_notMem (fun hmem => hfront (List.mem_map_of_mem hmem))
    (fun hmem => hback (List.mem_map_of_mem hmem))).mp heq

/-- A group has the values of its key in their order. -/
theorem members_of_mem_groups {items : List (κ × α)} {g : Group κ α} (hg : g ∈ groups items) :
    g.members = valuesOf g.key items := by
  induction items using List.reverseRecOn generalizing g with
  | nil => exact absurd hg List.not_mem_nil
  | append_singleton items item ih =>
    obtain ⟨key, a⟩ := item
    rw [groups_append_singleton] at hg
    have hother : ∀ f ∈ groups items, f.key ≠ key →
        f.members = valuesOf f.key (items ++ [(key, a)]) := by
      intro f hf hne
      rw [valuesOf_append, valuesOf_cons_of_ne hne.symm, ih hf]
      simp [valuesOf]
    by_cases hmem : key ∈ (groups items).map Group.key
    · obtain ⟨f, hf, rfl⟩ := List.mem_map.mp hmem
      obtain ⟨front, back, hsplit⟩ := List.append_of_mem hf
      have hnodup := nodup_keys_groups items
      rw [hsplit] at hnodup
      obtain ⟨hfront, hback⟩ := split_of_nodup hnodup
      rw [hsplit, add_split hfront, List.mem_append, List.mem_cons] at hg
      have hne : ∀ {gs : List (Group κ α)}, f.key ∉ gs.map Group.key → g ∈ gs → g.key ≠ f.key :=
        fun hnot hin heq => hnot (List.mem_map.mpr ⟨g, hin, heq⟩)
      rcases hg with hg | rfl | hg
      · exact hother g (hsplit ▸ List.mem_append_left _ hg) (hne hfront hg)
      · rw [valuesOf_append, valuesOf_cons_self, ih hf]
        rfl
      · exact hother g (hsplit ▸ List.mem_append_right _ (List.mem_cons_of_mem _ hg))
          (hne hback hg)
    · rw [add_new hmem, List.mem_append, List.mem_singleton] at hg
      rcases hg with hg | rfl
      · apply hother g hg
        intro heq
        exact hmem (List.mem_map.mpr ⟨g, hg, heq⟩)
      · rw [mem_keys_groups] at hmem
        rw [valuesOf_append, valuesOf_eq_nil hmem, valuesOf_cons_self]
        rfl

theorem members_ne_nil {items : List (κ × α)} {g : Group κ α} (hg : g ∈ groups items) :
    g.members ≠ [] := by
  rw [members_of_mem_groups hg]
  intro hnil
  have hkey : g.key ∈ items.map Prod.fst := mem_keys_groups.mp (List.mem_map_of_mem hg)
  obtain ⟨item, hitem, heq⟩ := List.mem_map.mp hkey
  unfold valuesOf at hnil
  rw [List.map_eq_nil_iff, List.filter_eq_nil_iff] at hnil
  exact hnil item hitem (decide_eq_true heq)

/-- Where a value is among the groups. -/
theorem groups_split {items pre post : List (κ × α)} {key : κ} {a : α}
    (h : items = pre ++ (key, a) :: post) : ∃ front back,
      groups items = front ++ ⟨key, valuesOf key pre ++ a :: valuesOf key post⟩ :: back := by
  have hkey : key ∈ (groups items).map Group.key := by
    rw [mem_keys_groups, h]
    simp
  obtain ⟨g, hg, rfl⟩ := List.mem_map.mp hkey
  obtain ⟨front, back, hsplit⟩ := List.append_of_mem hg
  have hmembers := members_of_mem_groups hg
  rw [h, valuesOf_append, valuesOf_cons_self] at hmembers
  refine ⟨front, back, ?_⟩
  rw [← hmembers]
  exact hsplit

omit [DecidableEq κ] in
theorem exists_last {key : κ} : ∀ {items : List (κ × α)}, key ∈ items.map Prod.fst →
    ∃ pre a post, items = pre ++ (key, a) :: post ∧ key ∉ post.map Prod.fst
  | [], h => absurd h List.not_mem_nil
  | item :: items, h => by
      by_cases hlater : key ∈ items.map Prod.fst
      · obtain ⟨pre, a, post, rfl, hpost⟩ := exists_last hlater
        exact ⟨item :: pre, a, post, rfl, hpost⟩
      · rw [List.map_cons, List.mem_cons, or_iff_left hlater] at h
        exact ⟨[], item.2, items, by rw [h]; rfl, hlater⟩

/-- The last value of the last group is the last one of its key. -/
theorem groups_last {items : List (κ × α)} (h : items ≠ []) : ∃ pre key a post front,
    items = pre ++ (key, a) :: post ∧
      groups items = front ++ [⟨key, valuesOf key pre ++ [a]⟩] := by
  have hne : groups items ≠ [] := by
    intro hnil
    obtain ⟨item, hitem⟩ := List.exists_mem_of_ne_nil items h
    have hkey := mem_keys_groups.mpr (List.mem_map_of_mem hitem)
    rw [hnil] at hkey
    exact absurd hkey List.not_mem_nil
  obtain ⟨front, g, hlast⟩ := (List.eq_nil_or_concat (groups items)).resolve_left hne
  rw [List.concat_eq_append] at hlast
  have hg : g ∈ groups items := by
    rw [hlast]
    exact List.mem_append_right _ (List.mem_singleton_self g)
  have hkey : g.key ∈ items.map Prod.fst := mem_keys_groups.mp (List.mem_map_of_mem hg)
  obtain ⟨pre, a, post, hitems, hpost⟩ := exists_last hkey
  have hmembers := members_of_mem_groups hg
  rw [hitems, valuesOf_append, valuesOf_cons_self, valuesOf_eq_nil hpost] at hmembers
  refine ⟨pre, g.key, a, post, front, hitems, ?_⟩
  rw [hlast, ← hmembers]

/-! ## Sums -/

theorem sum_members_add (size : α → Nat) (key : κ) (a : α) (gs : List (Group κ α)) :
    ((add key a gs).map fun g => (g.members.map size).sum).sum =
      (gs.map fun g => (g.members.map size).sum).sum + size a := by
  induction gs with
  | nil => simp [add]
  | cons g gs ih =>
    unfold add
    split
    · simp only [List.map_cons, List.sum_cons, List.map_append, List.sum_append, List.map_nil,
        List.sum_nil]
      omega
    · rw [List.map_cons, List.sum_cons, ih, List.map_cons, List.sum_cons]
      omega

theorem sum_members_groups (size : α → Nat) (items : List (κ × α)) :
    ((groups items).map fun g => (g.members.map size).sum).sum =
      (items.map fun item => size item.2).sum := by
  induction items using List.reverseRecOn with
  | nil => rfl
  | append_singleton items item ih =>
    rw [groups_append_singleton, sum_members_add, ih, List.map_append, List.sum_append]
    rfl

/-- A sum over the groups, of a part for the key and a part for each member. -/
theorem sum_groups (sizeKey : κ → Nat) (size : α → Nat) (items : List (κ × α)) :
    ((groups items).map fun g => sizeKey g.key + (g.members.map size).sum).sum =
      ((items.map Prod.fst).dedup.map sizeKey).sum +
        (items.map fun item => size item.2).sum := by
  have hkeys : ((groups items).map fun g => sizeKey g.key).sum =
      ((items.map Prod.fst).dedup.map sizeKey).sum := by
    have hperm : ((groups items).map Group.key).Perm (items.map Prod.fst).dedup := by
      rw [List.perm_ext_iff_of_nodup (nodup_keys_groups items) (List.nodup_dedup _)]
      intro key
      rw [mem_keys_groups, List.mem_dedup]
    rw [← (hperm.map sizeKey).sum_eq, List.map_map]
    rfl
  rw [List.sum_map_add, hkeys, sum_members_groups]

end Groups
