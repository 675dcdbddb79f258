/-
  Sequences of calls on an object with a state.

  `Every P` says that `P` holds of each call in the state it is made in.  With an invariant of the
  states, properties of single calls become properties of all sequences.
-/
import Mathlib.Algebra.Order.Ring.Int
import Mathlib.Data.List.Basic
import Mathlib.Logic.Nonempty

namespace Calls

variable {σ κ : Type} (step : σ → κ → σ)

/-- `P` holds of every call, in the state in which it is made. -/
def Every (P : σ → κ → Prop) : σ → List κ → Prop
  | _, [] => True
  | s, c :: calls => P s c ∧ Every P (step s c) calls

variable {step} {I : σ → Prop} {P Q : σ → κ → Prop} {s : σ} {calls : List κ}

/-- Properties that say the same of single calls say the same of all sequences, also where only they
    keep the invariant. -/
theorem every_iff_of_kept (hstep : ∀ s c, I s → Q s c → I (step s c))
    (h : ∀ s c, I s → (P s c ↔ Q s c)) (hs : I s) :
    Every step P s calls ↔ Every step Q s calls := by
  induction calls generalizing s with
  | nil => exact Iff.rfl
  | cons c calls ih =>
    constructor
    · rintro ⟨hp, hcalls⟩
      have hq := (h s c hs).1 hp
      exact ⟨hq, (ih (hstep s c hs hq)).1 hcalls⟩
    · rintro ⟨hq, hcalls⟩
      exact ⟨(h s c hs).2 hq, (ih (hstep s c hs hq)).2 hcalls⟩

/-- The same for all calls that have a property. -/
theorem every_iff_of_every {R : σ → κ → Prop} (hstep : ∀ s c, I s → R s c → I (step s c))
    (h : ∀ s c, I s → R s c → (P s c ↔ Q s c)) (hs : I s) (hR : Every step R s calls) :
    Every step P s calls ↔ Every step Q s calls := by
  induction calls generalizing s with
  | nil => exact Iff.rfl
  | cons c calls ih =>
    obtain ⟨hc, hcalls⟩ := hR
    exact and_congr (h s c hs hc) (ih (hstep s c hs hc) hcalls)

/-- The same for an invariant that all calls keep. -/
theorem every_iff_of_inv (hstep : ∀ s c, I s → I (step s c)) (h : ∀ s c, I s → (P s c ↔ Q s c))
    (hs : I s) : Every step P s calls ↔ Every step Q s calls :=
  every_iff_of_kept (fun s c hs _ => hstep s c hs) h hs

/-- The same for a family of objects that take the same steps. -/
theorem forall_every_iff {ι : Type} [Nonempty ι] {step : ι → σ → κ → σ} {P Q : ι → σ → κ → Prop}
    (hsame : ∀ x y s c, step x s c = step y s c) (hstep : ∀ x s c, I s → I (step x s c))
    (h : ∀ s c, I s → ((∀ x, P x s c) ↔ ∀ x, Q x s c)) (hs : I s) :
    (∀ x, Every (step x) (P x) s calls) ↔ ∀ x, Every (step x) (Q x) s calls := by
  induction calls generalizing s with
  | nil => exact Iff.rfl
  | cons c calls ih =>
    have hrest : ∀ R : ι → σ → κ → Prop, (∀ x, Every (step x) (R x) s (c :: calls)) ↔
        (∀ x, R x s c) ∧ ∀ x, Every (step x) (R x) (step (Classical.arbitrary ι) s c) calls := by
      intro R
      refine forall_and.trans (and_congr_right fun _ => forall_congr' fun x => ?_)
      rw [hsame x (Classical.arbitrary ι)]
    rw [hrest, hrest, h s c hs, ih (hstep _ s c hs)]

end Calls
