import Mathlib

/-
  Work through a list in passes. A pass goes over the items from where the last one stopped,
  takes those that are ready, and ends in front of an item that is apart from the one before
  it, or earlier. The next pass starts behind the last item taken.

  Such passes come to the end of the list only if every item in front of a break is ready
  (`Chained`); a pass that takes nothing and does not reach the end is repeated for ever.
-/

namespace Resume

section Group

variable {α : Type} (apart : α → α → Prop) [DecidableRel apart]

/-- The items of the list up to the first break, behind the item `a`. -/
def groupFrom (a : α) : List α → List α
  | [] => []
  | b :: l => if apart a b then [] else b :: groupFrom b l

/-- The items of the list up to the first break. -/
def group : List α → List α
  | [] => []
  | a :: l => a :: groupFrom apart a l

theorem groupFrom_initial (a : α) (l : List α) : groupFrom apart a l <+: l := by
  induction l generalizing a with
  | nil => exact List.prefix_rfl
  | cons b l ih =>
    rw [groupFrom]
    split
    · exact List.nil_prefix
    · exact List.cons_prefix_cons.mpr ⟨rfl, ih b⟩

theorem group_initial (l : List α) : group apart l <+: l := by
  cases l with
  | nil => exact List.prefix_rfl
  | cons a l => exact List.cons_prefix_cons.mpr ⟨rfl, groupFrom_initial apart a l⟩

theorem groupFrom_isChain (a : α) (l : List α) :
    (a :: groupFrom apart a l).IsChain fun a b => ¬ apart a b := by
  induction l generalizing a with
  | nil => exact List.isChain_singleton a
  | cons b l ih =>
    rw [groupFrom]
    split
    · exact List.isChain_singleton a
    · next h => exact List.isChain_cons_cons.mpr ⟨h, ih b⟩

theorem group_isChain (l : List α) : (group apart l).IsChain fun a b => ¬ apart a b := by
  cases l with
  | nil => exact List.isChain_nil
  | cons a l => exact groupFrom_isChain apart a l

/-- A group that is not the whole list ends in front of a break. -/
theorem groupFrom_break {a : α} {l : List α} (h : groupFrom apart a l ≠ l) :
    ∃ g c b r, a :: groupFrom apart a l = g ++ [c] ∧ a :: l = g ++ c :: b :: r ∧ apart c b := by
  induction l generalizing a with
  | nil => exact absurd rfl h
  | cons b l ih =>
    rw [groupFrom] at h ⊢
    split at h
    · next hab =>
      rw [if_pos hab]
      exact ⟨[], a, b, l, rfl, rfl, hab⟩
    · next hab =>
      rw [if_neg hab]
      obtain ⟨g, c, x, r, h1, h2, hcx⟩ := ih fun he => h (congrArg (List.cons b) he)
      exact ⟨a :: g, c, x, r, by rw [h1, List.cons_append], by rw [h2, List.cons_append], hcx⟩

theorem group_break {l : List α} (h : group apart l ≠ l) :
    ∃ g c b r, group apart l = g ++ [c] ∧ l = g ++ c :: b :: r ∧ apart c b := by
  cases l with
  | nil => exact absurd rfl h
  | cons a l => exact groupFrom_break apart fun he => h (by rw [group, he])

end Group

/-! ## Passes -/

section Pass

variable {α : Type} (apart : α → α → Prop) [DecidableRel apart] (ready : α → Prop)

/-- Every item in front of a break is ready. -/
def Chained (l : List α) : Prop := l.IsChain fun a b => apart a b → ready a

/-- There is a break, and nothing in front of the first one is ready. -/
def Quiet (l : List α) : Prop := group apart l ≠ l ∧ ∀ a ∈ group apart l, ¬ ready a

/-- How a pass ends. -/
inductive Outcome (α : Type) where
  | finished
  | resumed (rest : List α)
  | idle

/-- A pass over the items `l`: to the end; with the last item taken in the first group; or to
    the end of the first group with nothing taken. -/
inductive Pass : List α → Outcome α → Prop where
  | finished {l : List α} (all : group apart l = l) : Pass l .finished
  | resumed {d : List α} {k : α} {rest : List α} (seen : d ++ [k] <+: group apart (d ++ k :: rest))
      (taken : ready k) : Pass (d ++ k :: rest) (.resumed rest)
  | idle {l : List α} (quiet : Quiet apart ready l) : Pass l .idle

variable {apart ready}

theorem Pass.chained_of_finished {l : List α} (h : Pass apart ready l .finished) :
    Chained apart ready l := by
  cases h with
  | finished all =>
    rw [← all]
    exact (group_isChain apart l).imp fun _ _ hab h => absurd h hab

theorem Pass.chained_iff_of_resumed {l rest : List α}
    (h : Pass apart ready l (.resumed rest)) : Chained apart ready l ↔ Chained apart ready rest := by
  cases h with
  | @resumed d k _ seen taken =>
    have hno : (d ++ [k]).IsChain fun a b => ¬ apart a b :=
      List.IsChain.prefix (group_isChain apart (d ++ k :: rest)) seen
    have hd : (d ++ [k]).IsChain fun a b => apart a b → ready a :=
      hno.imp fun _ _ hab h => absurd h hab
    unfold Chained
    rw [List.isChain_split, List.isChain_cons]
    exact ⟨fun h => h.2.2, fun h => ⟨hd, fun _ _ _ => taken, h⟩⟩

theorem Quiet.not_chained {l : List α} (h : Quiet apart ready l) : ¬ Chained apart ready l := by
  obtain ⟨g, c, b, r, hg, hl, hcb⟩ := group_break apart h.1
  intro hchained
  have hc : ¬ ready c := h.2 c (by rw [hg]; simp)
  unfold Chained at hchained
  rw [hl, List.isChain_split, List.isChain_cons_cons] at hchained
  exact hc (hchained.2.1 hcb)

theorem Pass.quiet_of_idle {l : List α} (h : Pass apart ready l .idle) : Quiet apart ready l := by
  cases h with
  | idle quiet => exact quiet

theorem Pass.not_quiet_of_finished {l : List α} (h : Pass apart ready l .finished) :
    ¬ Quiet apart ready l := by
  cases h with
  | finished all => exact fun hq => hq.1 all

theorem Pass.not_quiet_of_resumed {l rest : List α} (h : Pass apart ready l (.resumed rest)) :
    ¬ Quiet apart ready l := by
  cases h with
  | resumed seen taken =>
    exact fun hq => hq.2 _ (seen.subset (List.mem_append_right _ List.mem_cons_self)) taken

theorem Pass.mem_of_resumed {l rest : List α} (h : Pass apart ready l (.resumed rest)) {a : α}
    (ha : a ∈ rest) : a ∈ l := by
  cases h with
  | resumed seen taken => exact List.mem_append_right _ (List.mem_cons_of_mem _ ha)

theorem Pass.length_lt_of_resumed {l rest : List α} (h : Pass apart ready l (.resumed rest)) :
    rest.length < l.length := by
  cases h with
  | resumed seen taken =>
    rw [List.length_append, List.length_cons]
    omega

end Pass

end Resume
