/-
  Threads with states of their own over a shared state.

  A step of a thread depends on its own state, on the shared state and on what comes from outside.
  An `Outline` says what a thread knows at each of its states, and what holds of the shared state
  at any time; it is kept by the steps of the thread and by those of the others, as far as the
  steps meet a condition.  **`Outline.run`**: it holds after every run all of whose steps meet the
  condition.
-/
import Mathlib.Algebra.Order.Ring.Int
import Mathlib.Data.Nat.Notation
import Mathlib.Logic.Function.Basic

namespace Parties

/-- Threads, by number. -/
abbrev Tid := ℕ

/-- Shared state and states of the threads. -/
structure System (σ ℓ : Type) where
  shared : σ
  locals : Tid → ℓ

/-- What a step does: thread, input from outside, state of the thread and shared state. -/
abbrev Semantics (σ ℓ N : Type) := Tid → N → ℓ → σ → ℓ × σ

section
variable {σ ℓ N : Type} (exec : Semantics σ ℓ N)

/-- A step of one thread with an input. -/
def step (s : System σ ℓ) (p : Tid × N) : System σ ℓ :=
  let r := exec p.1 p.2 (s.locals p.1) s.shared
  ⟨r.2, Function.update s.locals p.1 r.1⟩

def run (picks : List (Tid × N)) (s : System σ ℓ) : System σ ℓ := picks.foldl (step exec) s

/-- A condition on steps: thread, input, state of the thread and shared state. -/
abbrev Condition (σ ℓ N : Type) := Tid → N → ℓ → σ → Prop

/-- Every step of the run meets the condition. -/
def Along (Meets : Condition σ ℓ N) : List (Tid × N) → System σ ℓ → Prop
  | [], _ => True
  | p :: ps, s => Meets p.1 p.2 (s.locals p.1) s.shared ∧ Along Meets ps (step exec s p)

instance Along.decidable (Meets : Condition σ ℓ N) [∀ t n l x, Decidable (Meets t n l x)] :
    ∀ (picks : List (Tid × N)) (s : System σ ℓ), Decidable (Along exec Meets picks s)
  | [], _ => inferInstanceAs (Decidable True)
  | p :: ps, s =>
    have := Along.decidable Meets ps (step exec s p)
    inferInstanceAs (Decidable (_ ∧ _))

/-- What thread `t` knows at its states (`Knows t`), and what holds of the shared state. -/
structure Outline (Meets : Condition σ ℓ N) (Knows : Tid → ℓ → σ → Prop) (Holds : σ → Prop) :
    Prop where
  own : ∀ {t n l x}, Meets t n l x → Holds x → Knows t l x →
    Holds (exec t n l x).2 ∧ Knows t (exec t n l x).1 (exec t n l x).2
  others : ∀ {t n l x t' l'}, t ≠ t' → Meets t n l x → Holds x → Knows t l x → Knows t' l' x →
    Knows t' l' (exec t n l x).2

/-- All threads know what they know at their states. -/
structure Known (Knows : Tid → ℓ → σ → Prop) (Holds : σ → Prop) (s : System σ ℓ) : Prop where
  holds : Holds s.shared
  knows : ∀ t, Knows t (s.locals t) s.shared

variable {exec} {Meets : Condition σ ℓ N} {Knows : Tid → ℓ → σ → Prop} {Holds : σ → Prop}

theorem Outline.step (h : Outline exec Meets Knows Holds) {s : System σ ℓ} {p : Tid × N}
    (hmeets : Meets p.1 p.2 (s.locals p.1) s.shared) (hs : Known Knows Holds s) :
    Known Knows Holds (step exec s p) := by
  have hown := h.own hmeets hs.holds (hs.knows p.1)
  refine ⟨hown.1, fun t => ?_⟩
  by_cases ht : t = p.1
  · subst ht
    simpa [Parties.step] using hown.2
  · have hother := h.others (Ne.symm ht) hmeets hs.holds (hs.knows p.1) (hs.knows t)
    simpa [Parties.step, ht] using hother

/-- **What the threads know at the start of a run, they know at its end.** -/
theorem Outline.run (h : Outline exec Meets Knows Holds) (picks : List (Tid × N))
    {s : System σ ℓ} (halong : Along exec Meets picks s) (hs : Known Knows Holds s) :
    Known Knows Holds (run exec picks s) := by
  induction picks generalizing s with
  | nil => exact hs
  | cons p picks ih => exact ih halong.2 (h.step halong.1 hs)

end

end Parties
