import Mathlib

/-
  Runs of a system that takes one step for each event.

  Proved: what the steps of the allowed events preserve holds of every run of them
  (`Run.invariant`), and each event of a run is a step that was taken on the way (`Run.split`).
-/

namespace EventRun

variable {σ ε : Type*} {step : σ → ε → σ → Prop} {s : σ}

/-- The states that are come to from `s`, with the events up to there. -/
inductive Run (step : σ → ε → σ → Prop) (s : σ) : List ε → σ → Prop
  | start : Run step s [] s
  | next {events : List ε} {t u : σ} {e : ε} (h : Run step s events t) (hstep : step t e u) :
      Run step s (events ++ [e]) u

theorem Run.invariant {P : σ → Prop} {allowed : ε → Prop} (hstart : P s)
    (hpres : ∀ t e u, allowed e → P t → step t e u → P u) {events : List ε} {t : σ}
    (h : Run step s events t) (hallowed : ∀ e ∈ events, allowed e) : P t := by
  induction h with
  | start => exact hstart
  | next _ hstep ih =>
    have hlast := hallowed _ (List.mem_append_right _ (List.mem_singleton_self _))
    exact hpres _ _ _ hlast (ih fun e he => hallowed e (List.mem_append_left _ he)) hstep

/-- The step that an event of the run takes. -/
theorem Run.split {events : List ε} {t : σ} {e : ε} (h : Run step s events t)
    (he : e ∈ events) :
    ∃ pre u v, (pre ++ [e]) <+: events ∧ Run step s pre u ∧ step u e v := by
  induction h with
  | start => exact absurd he List.not_mem_nil
  | @next events t u e' hrun hstep ih =>
    obtain he | he := List.mem_append.mp he
    · obtain ⟨pre, u, v, hpre, hrun, hstep⟩ := ih he
      exact ⟨pre, u, v, hpre.trans (List.prefix_append _ _), hrun, hstep⟩
    · obtain rfl := List.mem_singleton.mp he
      exact ⟨events, t, u, List.prefix_refl _, hrun, hstep⟩

end EventRun
