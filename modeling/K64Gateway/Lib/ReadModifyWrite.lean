import Mathlib

/-
  Workers that change one shared value, each change in three steps: copy the value, change the copy,
  store the copy. The steps of different workers interleave.

  A store is clean if it stores what the change would make of the value as it is now. Proved: as long
  as every store is clean, the shared value is the result of the changes in the order of their stores
  (`serial_runFrom`).
-/

namespace ReadModifyWrite

variable {S P Op T : Type*}

/-- The three steps, with a private copy of type `P`. -/
structure Method (S P Op : Type*) where
  copy : S → P
  change : Op → P → P
  store : P → S

/-- What a change makes of the shared value when nothing comes in between. -/
def Method.perform (m : Method S P Op) (s : S) (op : Op) : S := m.store (m.change op (m.copy s))

inductive Phase (P : Type*) where
  | idle
  | copied (p : P)
  | changed (p : P)

/-- The changes that a worker has still to do, and how far the first one is. -/
structure Worker (P Op : Type*) where
  todo : List Op
  phase : Phase P

structure State (S P Op T : Type*) where
  shared : S
  worker : T → Worker P Op

/-- Nobody has begun. -/
def State.start (prog : T → List Op) (s : S) : State S P Op T := ⟨s, fun t => ⟨prog t, .idle⟩⟩

/-- The change and the copy that a worker stores next. -/
def State.pending (s : State S P Op T) (t : T) : Option (Op × P) :=
  match (s.worker t).todo, (s.worker t).phase with
  | op :: _, .changed p => some (op, p)
  | _, _ => none

variable [DecidableEq T]

/-- The next step of a worker. -/
def Method.step (m : Method S P Op) (s : State S P Op T) (t : T) : State S P Op T :=
  match (s.worker t).todo, (s.worker t).phase with
  | [], _ => s
  | op :: rest, .idle =>
    { s with worker := Function.update s.worker t ⟨op :: rest, .copied (m.copy s.shared)⟩ }
  | op :: rest, .copied p =>
    { s with worker := Function.update s.worker t ⟨op :: rest, .changed (m.change op p)⟩ }
  | _ :: rest, .changed p =>
    { shared := m.store p
      worker := Function.update s.worker t ⟨rest, .idle⟩ }

def Method.runFrom (m : Method S P Op) (s : State S P Op T) (run : List T) : State S P Op T :=
  run.foldl m.step s

/-- A condition on a state and the worker that goes on, at every step of a run. -/
def Method.EachStep (m : Method S P Op) (cond : State S P Op T → T → Prop) :
    State S P Op T → List T → Prop
  | _, [] => True
  | s, t :: run => cond s t ∧ m.EachStep cond (m.step s t) run

instance Method.decidableEachStep (m : Method S P Op) (cond : State S P Op T → T → Prop)
    [∀ s t, Decidable (cond s t)] :
    ∀ (s : State S P Op T) (run : List T), Decidable (m.EachStep cond s run)
  | _, [] => inferInstanceAs (Decidable True)
  | s, t :: run =>
    have := decidableEachStep m cond (m.step s t) run
    inferInstanceAs (Decidable (cond s t ∧ m.EachStep cond (m.step s t) run))

/-- A store stores what the change makes of the value as it is now. -/
def Method.Clean (m : Method S P Op) (s : State S P Op T) (t : T) : Prop :=
  ∀ x ∈ s.pending t, m.store x.2 = m.perform s.shared x.1

/-! ## The order of the stores -/

/-- The changes of one worker. -/
def changesOf (t : T) (order : List (T × Op)) : List Op :=
  (order.filter fun x => decide (x.1 = t)).map Prod.snd

theorem changesOf_append_self (t : T) (order : List (T × Op)) (op : Op) :
    changesOf t (order ++ [(t, op)]) = changesOf t order ++ [op] := by
  simp [changesOf]

theorem changesOf_append_of_ne {t u : T} (h : u ≠ t) (order : List (T × Op)) (op : Op) :
    changesOf u (order ++ [(t, op)]) = changesOf u order := by
  simp [changesOf, h.symm]

/-- The shared value is the result of the changes in `order`, which are those that each worker has
    finished. -/
structure Serial (m : Method S P Op) (prog : T → List Op) (start : S) (s : State S P Op T)
    (order : List (T × Op)) : Prop where
  shared : s.shared = (order.map Prod.snd).foldl m.perform start
  finished : ∀ t, prog t = changesOf t order ++ (s.worker t).todo

theorem serial_start (m : Method S P Op) (prog : T → List Op) (s : S) :
    Serial m prog s (.start prog s) [] := ⟨rfl, fun _ => rfl⟩

/-- A step that is no store. -/
theorem Serial.setPhase {m : Method S P Op} {prog : T → List Op} {start : S} {s : State S P Op T}
    {order : List (T × Op)} (h : Serial m prog start s order) (t : T) (phase : Phase P) :
    Serial m prog start
      { s with worker := Function.update s.worker t ⟨(s.worker t).todo, phase⟩ } order where
  shared := h.shared
  finished u := by
    dsimp only
    by_cases hu : u = t
    · rw [hu, Function.update_self]
      exact h.finished t
    · rw [Function.update_of_ne hu]
      exact h.finished u

/-- A clean store. -/
theorem Serial.store {m : Method S P Op} {prog : T → List Op} {start : S} {s : State S P Op T}
    {order : List (T × Op)} (h : Serial m prog start s order) {t : T} {op : Op} {rest : List Op}
    (htodo : (s.worker t).todo = op :: rest) {p : P} (hp : m.store p = m.perform s.shared op) :
    Serial m prog start
      { shared := m.store p
        worker := Function.update s.worker t ⟨rest, .idle⟩ } (order ++ [(t, op)]) where
  shared := by
    rw [hp, h.shared, List.map_append, List.foldl_append]
    rfl
  finished u := by
    dsimp only
    by_cases hu : u = t
    · rw [hu, Function.update_self, changesOf_append_self, h.finished t, htodo, List.append_assoc]
      rfl
    · rw [Function.update_of_ne hu, changesOf_append_of_ne hu]
      exact h.finished u

theorem Serial.step {m : Method S P Op} {prog : T → List Op} {start : S} {s : State S P Op T}
    {order : List (T × Op)} (h : Serial m prog start s order) {t : T} (hclean : m.Clean s t) :
    ∃ order', Serial m prog start (m.step s t) order' := by
  unfold Method.Clean State.pending at hclean
  unfold Method.step
  split
  · exact ⟨order, h⟩
  · next htodo _ => exact ⟨order, htodo ▸ h.setPhase t _⟩
  · next htodo _ => exact ⟨order, htodo ▸ h.setPhase t _⟩
  · next op rest p htodo hphase =>
    rw [htodo, hphase] at hclean
    exact ⟨_, h.store htodo (hclean (op, p) rfl)⟩

/-- Clean stores leave the result of the changes in the order of the stores. -/
theorem serial_runFrom {m : Method S P Op} {prog : T → List Op} {start : S} {run : List T}
    {s : State S P Op T} {order : List (T × Op)} (h : Serial m prog start s order)
    (hclean : m.EachStep m.Clean s run) :
    ∃ order', Serial m prog start (m.runFrom s run) order' := by
  induction run generalizing s order with
  | nil => exact ⟨order, h⟩
  | cons t run ih =>
    obtain ⟨order', h'⟩ := h.step hclean.1
    exact ih h' hclean.2

/-! ## Copies -/

/-- Every copy that is stored next has been changed by its change. -/
def Changed (m : Method S P Op) (s : State S P Op T) : Prop :=
  ∀ t, ∀ x ∈ s.pending t, ∃ p, x.2 = m.change x.1 p

omit [DecidableEq T] in
theorem changed_start (m : Method S P Op) (prog : T → List Op) (s : S) :
    Changed m (.start prog s : State S P Op T) := by
  intro t x hx
  unfold State.pending State.start at hx
  dsimp only at hx
  split at hx <;> simp_all

/-- Only the worker that goes on gets another copy. -/
theorem pending_update_of_ne {s : State S P Op T} {shared : S} {t u : T} (h : u ≠ t)
    (w : Worker P Op) :
    (⟨shared, Function.update s.worker t w⟩ : State S P Op T).pending u = s.pending u := by
  unfold State.pending
  dsimp only
  rw [Function.update_of_ne h]

theorem pending_update_self (shared : S) (worker : T → Worker P Op) (t : T) (w : Worker P Op) :
    (⟨shared, Function.update worker t w⟩ : State S P Op T).pending t =
      (⟨shared, fun _ => w⟩ : State S P Op T).pending t := by
  unfold State.pending
  dsimp only
  rw [Function.update_self]

theorem Changed.step {m : Method S P Op} {s : State S P Op T} (h : Changed m s) (t : T) :
    Changed m (m.step s t) := by
  have hothers : ∀ (shared : S) (w : Worker P Op),
      (∀ x ∈ (⟨shared, fun _ => w⟩ : State S P Op T).pending t, ∃ p, x.2 = m.change x.1 p) →
        Changed m (⟨shared, Function.update s.worker t w⟩ : State S P Op T) := by
    intro shared w hw u x hx
    by_cases hu : u = t
    · rw [hu, pending_update_self] at hx
      exact hw x hx
    · rw [pending_update_of_ne hu] at hx
      exact h u x hx
  unfold Method.step
  split
  · exact h
  · exact hothers _ _ fun x hx => by simp [State.pending] at hx
  · next op rest p _ _ =>
    refine hothers _ _ fun x hx => ⟨p, ?_⟩
    rw [← Option.mem_some_iff.mp hx]
  · next rest p _ _ =>
    refine hothers _ _ fun x hx => ?_
    unfold State.pending at hx
    dsimp only at hx
    split at hx <;> simp_all

/-- A condition that makes stores of changed copies clean makes every store of a run clean. -/
theorem Method.EachStep.clean {m : Method S P Op} {cond : State S P Op T → T → Prop}
    (hcond : ∀ s t, Changed m s → cond s t → m.Clean s t) {run : List T} {s : State S P Op T}
    (hs : Changed m s) (h : m.EachStep cond s run) : m.EachStep m.Clean s run := by
  induction run generalizing s with
  | nil => trivial
  | cons t run ih => exact ⟨hcond s t hs h.1, ih (hs.step t) h.2⟩

end ReadModifyWrite
