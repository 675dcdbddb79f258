/-
  Computations that may throw and that keep the state they had reached when they throw.

  `Keeps E R x`: however `x` ends, exceptions outside `E` apart, the final state is `R`-related
  to the initial one; for a preorder `R` this composes along the program.  `Sim R S x y`: run
  from `R`-related states, `x` and `y` end the same way, with `S`-related results in `R`-related
  states.
-/
import Mathlib.Algebra.Order.Ring.Int
import Mathlib.Order.Basic
import Mathlib.Tactic.Common

namespace Exec

variable {ε σ τ α β γ δ : Type}

/-- A computation with state `σ` and exceptions `ε`; an exception keeps the state. -/
abbrev M (ε σ α : Type) := EStateM ε σ α

/-- The state in which a run ends. -/
def final : EStateM.Result ε σ α → σ
  | .ok _ s => s
  | .error _ s => s

/-- The run returns normally. -/
def isOk : EStateM.Result ε σ α → Bool
  | .ok _ _ => true
  | .error _ _ => false

@[simp] theorem final_ok (a : α) (s : σ) : final (.ok a s : EStateM.Result ε σ α) = s := rfl
@[simp] theorem final_error (e : ε) (s : σ) : final (.error e s : EStateM.Result ε σ α) = s := rfl
@[simp] theorem isOk_ok (a : α) (s : σ) : isOk (.ok a s : EStateM.Result ε σ α) = true := rfl
@[simp] theorem isOk_error (e : ε) (s : σ) :
    isOk (.error e s : EStateM.Result ε σ α) = false := rfl

/-- `assert c` or throw `e`. -/
def require (c : Prop) [Decidable c] (e : ε) : M ε σ Unit :=
  if c then pure () else throw e

/-- `f i; f (i + 1); …`, `n` calls. -/
def forRange (i : ℕ) : ℕ → (ℕ → M ε σ Unit) → M ε σ Unit
  | 0, _ => pure ()
  | n + 1, f => do f i; forRange (i + 1) n f

/-- `for (a : l) f a`. -/
def forEach : List α → (α → M ε σ Unit) → M ε σ Unit
  | [], _ => pure ()
  | a :: l, f => do f a; forEach l f

/-- `try x catch (e) { h e }`. -/
def catchWith (x : M ε σ α) (h : ε → M ε σ α) : M ε σ α := fun s =>
  match x s with
  | .ok a s' => .ok a s'
  | .error e s' => h e s'

/-! ## Evaluation -/

@[simp] theorem pure_apply (a : α) (s : σ) : (pure a : M ε σ α) s = .ok a s := rfl
@[simp] theorem throw_apply (e : ε) (s : σ) : (throw e : M ε σ α) s = .error e s := rfl
@[simp] theorem get_apply (s : σ) : (get : M ε σ σ) s = .ok s s := rfl
@[simp] theorem set_apply (t s : σ) : (set t : M ε σ PUnit) s = .ok ⟨⟩ t := rfl
@[simp] theorem modify_apply (f : σ → σ) (s : σ) : (modify f : M ε σ PUnit) s = .ok ⟨⟩ (f s) := rfl

theorem bind_apply (x : M ε σ α) (f : α → M ε σ β) (s : σ) :
    (x >>= f) s = match x s with
      | .ok a s' => f a s'
      | .error e s' => .error e s' := rfl

theorem bind_ok {x : M ε σ α} {f : α → M ε σ β} {s s' : σ} {a : α} (h : x s = .ok a s') :
    (x >>= f) s = f a s' := by
  rw [bind_apply, h]

theorem bind_error {x : M ε σ α} {f : α → M ε σ β} {s s' : σ} {e : ε} (h : x s = .error e s') :
    (x >>= f) s = .error e s' := by
  rw [bind_apply, h]

theorem bind_eq_ok {x : M ε σ α} {f : α → M ε σ β} {s t : σ} {b : β} :
    (x >>= f) s = .ok b t ↔ ∃ a s', x s = .ok a s' ∧ f a s' = .ok b t := by
  rw [bind_apply]
  cases x s with
  | ok a s' => simp
  | error e s' => simp

theorem bind_eq_error {x : M ε σ α} {f : α → M ε σ β} {s t : σ} {e : ε} :
    (x >>= f) s = .error e t ↔
      x s = .error e t ∨ ∃ a s', x s = .ok a s' ∧ f a s' = .error e t := by
  rw [bind_apply]
  cases x s with
  | ok a s' => simp
  | error e s' => simp

theorem require_apply (c : Prop) [Decidable c] (e : ε) (s : σ) :
    require c e s = if c then .ok () s else .error e s := by
  unfold require; split <;> rfl

@[simp] theorem require_eq_ok {c : Prop} [Decidable c] {e : ε} {s t : σ} {u : Unit} :
    require c e s = .ok u t ↔ c ∧ s = t := by
  rw [require_apply]; split <;> simp_all

theorem require_of {c : Prop} [Decidable c] (h : c) (e : ε) (s : σ) :
    require c e s = .ok () s := by
  rw [require_apply, if_pos h]

theorem require_of_not {c : Prop} [Decidable c] (h : ¬ c) (e : ε) (s : σ) :
    require c e s = .error e s := by
  rw [require_apply, if_neg h]

theorem get_bind (f : σ → M ε σ α) (s : σ) : (get >>= f) s = f s s := rfl

theorem modify_bind (g : σ → σ) (f : PUnit → M ε σ α) (s : σ) :
    ((modify g : M ε σ PUnit) >>= f) s = f ⟨⟩ (g s) := rfl

theorem require_bind {c : Prop} [Decidable c] {e : ε} (f : Unit → M ε σ α) (s : σ) :
    (require c e >>= f) s = if c then f () s else .error e s := by
  by_cases h : c
  · rw [bind_ok (require_of h e s), if_pos h]
  · rw [bind_error (require_of_not h e s), if_neg h]

/-- Two programs that run alike, where the second parts only have to agree on what the first parts
    lead to. -/
theorem bind_congr_of {x y : M ε σ α} {f g : α → M ε σ β} {s : σ} (hx : x s = y s)
    (h : ∀ a t, x s = .ok a t → f a t = g a t) : (x >>= f) s = (y >>= g) s := by
  rw [bind_apply, bind_apply, ← hx]
  cases hs : x s with
  | ok a t => exact h a t hs
  | error e t => rfl

theorem forRange_congr {f g : ℕ → M ε σ Unit} : ∀ {n i : ℕ},
    (∀ j, i ≤ j → j < i + n → f j = g j) → forRange i n f = forRange i n g
  | 0, _, _ => rfl
  | n + 1, i, h => by
    rw [forRange, forRange, h i (Nat.le_refl i) (by omega),
      forRange_congr fun j hij hj => h j (by omega) (by omega)]

theorem catchWith_apply (x : M ε σ α) (h : ε → M ε σ α) (s : σ) :
    catchWith x h s = match x s with
      | .ok a s' => .ok a s'
      | .error e s' => h e s' := rfl

theorem discard_apply (x : M ε σ α) (s : σ) :
    (discard x : M ε σ PUnit) s = match x s with
      | .ok _ s' => .ok ⟨⟩ s'
      | .error e s' => .error e s' := rfl

theorem discard_bind (x : M ε σ α) (f : α → M ε σ β) :
    (discard (x >>= f) : M ε σ PUnit) = x >>= fun a => discard (f a) := by
  funext s
  rw [discard_apply, bind_apply, bind_apply]
  cases x s with
  | ok a t => exact (discard_apply _ _).symm
  | error e t => rfl

@[simp] theorem discard_pure (a : α) : (discard (pure a) : M ε σ PUnit) = pure ⟨⟩ := rfl

/-! ## What a computation keeps -/

/-- The final state satisfies `P`, unless the run ends in an exception outside `E`. -/
def Ends (E : ε → Prop) (P : σ → Prop) : EStateM.Result ε σ α → Prop
  | .ok _ s => P s
  | .error e s => E e → P s

/-- However `x` ends, exceptions outside `E` apart, its final state is `R`-related to the initial
    one. -/
def Keeps (E : ε → Prop) (R : σ → σ → Prop) (x : M ε σ α) : Prop := ∀ s, Ends E (R s) (x s)

theorem Ends.imp {E E' : ε → Prop} {P Q : σ → Prop} {r : EStateM.Result ε σ α} (h : Ends E P r)
    (hE : ∀ e, E' e → E e) (hPQ : ∀ s, P s → Q s) : Ends E' Q r := by
  cases r with
  | ok a s => exact hPQ s h
  | error e s => exact fun he => hPQ s (h (hE e he))

namespace Keeps

variable {E : ε → Prop} {R : σ → σ → Prop} {x : M ε σ α}

theorem pure [Std.Refl R] (a : α) : Keeps E R (pure a : M ε σ α) := fun s => Std.Refl.refl s

theorem throw [Std.Refl R] (e : ε) : Keeps E R (throw e : M ε σ α) := fun s _ => Std.Refl.refl s

theorem get [Std.Refl R] : Keeps E R (get : M ε σ σ) := fun s => Std.Refl.refl s

theorem require [Std.Refl R] (c : Prop) [Decidable c] (e : ε) :
    Keeps E R (require c e : M ε σ Unit) := by
  intro s
  rw [require_apply]
  split
  · exact Std.Refl.refl s
  · exact fun _ => Std.Refl.refl s

/-- The rest of a computation, of which something is known about the result so far. -/
theorem bind_of [IsTrans σ R] {f : α → M ε σ β} (hx : Keeps E R x)
    (hf : ∀ s a t, x s = .ok a t → Ends E (R t) (f a t)) : Keeps E R (x >>= f) := by
  intro s
  have h := hx s
  rw [bind_apply]
  cases hxs : x s with
  | ok a t =>
    rw [hxs] at h
    exact (hf s a t hxs).imp (fun _ he => he) fun u hu => IsTrans.trans _ _ _ h hu
  | error e t => rw [hxs] at h; exact h

theorem bind [IsTrans σ R] {f : α → M ε σ β} (hx : Keeps E R x) (hf : ∀ a, Keeps E R (f a)) :
    Keeps E R (x >>= f) := hx.bind_of fun _ a t _ => hf a t

theorem ite {c : Prop} [Decidable c] {y : M ε σ α} (hx : Keeps E R x) (hy : Keeps E R y) :
    Keeps E R (if c then x else y) := by
  split
  · exact hx
  · exact hy

theorem forRange [Std.Refl R] [IsTrans σ R] {f : ℕ → M ε σ Unit} (h : ∀ i, Keeps E R (f i)) :
    ∀ n i, Keeps E R (forRange i n f)
  | 0, _ => Keeps.pure ()
  | n + 1, i => (h i).bind fun _ => forRange h n (i + 1)

theorem forEach [Std.Refl R] [IsTrans σ R] {f : α → M ε σ Unit} (h : ∀ a, Keeps E R (f a)) :
    ∀ l, Keeps E R (forEach l f)
  | [] => Keeps.pure ()
  | a :: l => (h a).bind fun _ => forEach h l

theorem discard (h : Keeps E R x) : Keeps E R (Functor.discard x) := by
  intro s
  have hs := h s
  rw [discard_apply]
  cases hx : x s with
  | ok a t => rw [hx] at hs; exact hs
  | error e t => rw [hx] at hs; exact hs

theorem catchWith [IsTrans σ R] {f : ε → M ε σ α} (hx : Keeps (fun _ => True) R x)
    (hf : ∀ e, Keeps E R (f e)) : Keeps E R (Exec.catchWith x f) := by
  intro s
  have hs := hx s
  rw [catchWith_apply]
  cases hxs : x s with
  | ok a t => rw [hxs] at hs; exact hs
  | error e t =>
    rw [hxs] at hs
    exact (hf e t).imp (fun _ he => he) fun u hu => IsTrans.trans _ _ _ (hs trivial) hu

theorem mono {E' : ε → Prop} {R' : σ → σ → Prop} (h : Keeps E R x) (hE : ∀ e, E' e → E e)
    (hR : ∀ s t, R s t → R' s t) : Keeps E' R' x := fun s => (h s).imp hE (hR s)

theorem of_ok (h : Keeps E R x) {s t : σ} {a : α} (hs : x s = .ok a t) : R s t := by
  have := h s; rwa [hs] at this

theorem of_error (h : Keeps E R x) {s t : σ} {e : ε} (hs : x s = .error e t) (he : E e) :
    R s t := by
  have := h s; rw [hs] at this; exact this he

end Keeps

/-! ## Keeping an invariant -/

/-- A run ends where `I` and `P` hold, and an exception is one of `E`. -/
def SafeEnd (E : ε → Prop) (I P : σ → Prop) : EStateM.Result ε σ α → Prop
  | .ok _ s => I s ∧ P s
  | .error e s => E e ∧ I s ∧ P s

/-- From a state in `I`, `x` ends in a state in `I` that is `R`-related, and only with exceptions
    in `E`. -/
def Safe (E : ε → Prop) (I : σ → Prop) (R : σ → σ → Prop) (x : M ε σ α) : Prop :=
  ∀ s, I s → SafeEnd E I (R s) (x s)

theorem SafeEnd.imp {E : ε → Prop} {I P Q : σ → Prop} {r : EStateM.Result ε σ α}
    (h : SafeEnd E I P r) (hPQ : ∀ s, P s → Q s) : SafeEnd E I Q r := by
  cases r with
  | ok a s => exact ⟨h.1, hPQ s h.2⟩
  | error e s => exact ⟨h.1, h.2.1, hPQ s h.2.2⟩

theorem SafeEnd.of_ok {E : ε → Prop} {I P : σ → Prop} {r : EStateM.Result ε σ α} {a : α} {t : σ}
    (h : SafeEnd E I P r) (hr : r = .ok a t) : I t ∧ P t := by
  rw [hr] at h
  exact h

theorem SafeEnd.final {E : ε → Prop} {I P : σ → Prop} {r : EStateM.Result ε σ α}
    (h : SafeEnd E I P r) : I (final r) ∧ P (final r) := by
  cases r with
  | ok a s => exact h
  | error e s => exact h.2

/-- The rest of a computation, from the state it starts in. -/
theorem SafeEnd.bind {E : ε → Prop} {I : σ → Prop} {R : σ → σ → Prop} [IsTrans σ R]
    {x : M ε σ α} {f : α → M ε σ β} {s : σ} (hx : SafeEnd E I (R s) (x s))
    (hf : ∀ a t, x s = .ok a t → I t → R s t → SafeEnd E I (R t) (f a t)) :
    SafeEnd E I (R s) ((x >>= f) s) := by
  rw [bind_apply]
  cases hxs : x s with
  | ok a t =>
    rw [hxs] at hx
    exact (hf a t hxs hx.1 hx.2).imp fun _ hu => IsTrans.trans _ _ _ hx.2 hu
  | error e t => rw [hxs] at hx; exact hx

theorem SafeEnd.catchWith {E : ε → Prop} {I : σ → Prop} {R : σ → σ → Prop} [IsTrans σ R]
    {x : M ε σ α} {f : ε → M ε σ α} {s : σ} (hx : SafeEnd E I (R s) (x s))
    (hf : ∀ e t, x s = .error e t → E e → I t → R s t → SafeEnd E I (R t) (f e t)) :
    SafeEnd E I (R s) (catchWith x f s) := by
  rw [catchWith_apply]
  cases hxs : x s with
  | ok a t => rw [hxs] at hx; exact hx
  | error e t =>
    rw [hxs] at hx
    exact (hf e t hxs hx.1 hx.2.1 hx.2.2).imp fun _ hu => IsTrans.trans _ _ _ hx.2.2 hu

theorem SafeEnd.discard {E : ε → Prop} {I P : σ → Prop} {x : M ε σ α} {s : σ}
    (h : SafeEnd E I P (x s)) : SafeEnd E I P ((Functor.discard x : M ε σ PUnit) s) := by
  rw [discard_apply]
  cases hx : x s with
  | ok a t => rw [hx] at h; exact h
  | error e t => rw [hx] at h; exact h

namespace Safe

variable {E : ε → Prop} {I : σ → Prop} {R : σ → σ → Prop} {x : M ε σ α}

theorem pure [Std.Refl R] (a : α) : Safe E I R (pure a : M ε σ α) :=
  fun s hI => ⟨hI, Std.Refl.refl s⟩

theorem throw [Std.Refl R] {e : ε} (he : E e) : Safe E I R (throw e : M ε σ α) :=
  fun s hI => ⟨he, hI, Std.Refl.refl s⟩

theorem get [Std.Refl R] : Safe E I R (get : M ε σ σ) := fun s hI => ⟨hI, Std.Refl.refl s⟩

theorem require [Std.Refl R] (c : Prop) [Decidable c] {e : ε} (he : E e) :
    Safe E I R (require c e : M ε σ Unit) := by
  intro s hI
  rw [require_apply]
  split
  · exact ⟨hI, Std.Refl.refl s⟩
  · exact ⟨he, hI, Std.Refl.refl s⟩

theorem modify {f : σ → σ} (h : ∀ s, I s → I (f s) ∧ R s (f s)) :
    Safe E I R (modify f : M ε σ PUnit) := h

theorem bind [IsTrans σ R] {f : α → M ε σ β} (hx : Safe E I R x) (hf : ∀ a, Safe E I R (f a)) :
    Safe E I R (x >>= f) := fun s hI => (hx s hI).bind fun a t _ hIt _ => hf a t hIt

theorem ite {c : Prop} [Decidable c] {y : M ε σ α} (hx : Safe E I R x) (hy : Safe E I R y) :
    Safe E I R (if c then x else y) := by
  split
  · exact hx
  · exact hy

theorem discard (h : Safe E I R x) : Safe E I R (Functor.discard x) := fun s hI => (h s hI).discard

theorem catchWith [IsTrans σ R] {f : ε → M ε σ α} (hx : Safe E I R x)
    (hf : ∀ e, E e → Safe E I R (f e)) : Safe E I R (Exec.catchWith x f) :=
  fun s hI => (hx s hI).catchWith fun e t _ he hIt _ => hf e he t hIt

theorem forEach [Std.Refl R] [IsTrans σ R] {f : α → M ε σ Unit} (h : ∀ a, Safe E I R (f a)) :
    ∀ l, Safe E I R (forEach l f)
  | [] => Safe.pure ()
  | a :: l => (h a).bind fun _ => forEach h l

end Safe

/-! ## Of one run -/

/-- `P` of a run that returns, `Q` of one that throws. -/
def Post (P : α → σ → Prop) (Q : ε → σ → Prop) : EStateM.Result ε σ α → Prop
  | .ok a s => P a s
  | .error e s => Q e s

theorem Post.imp {P P' : α → σ → Prop} {Q Q' : ε → σ → Prop} {r : EStateM.Result ε σ α}
    (h : Post P Q r) (hP : ∀ a s, P a s → P' a s) (hQ : ∀ e s, Q e s → Q' e s) :
    Post P' Q' r := by
  cases r with
  | ok a s => exact hP a s h
  | error e s => exact hQ e s h

theorem Post.bind {P : α → σ → Prop} {P' : β → σ → Prop} {Q : ε → σ → Prop} {x : M ε σ α}
    {f : α → M ε σ β} {s : σ} (hx : Post P Q (x s)) (hf : ∀ a t, P a t → Post P' Q (f a t)) :
    Post P' Q ((x >>= f) s) := by
  rw [bind_apply]
  generalize x s = r at hx ⊢
  cases r with
  | ok a t => exact hf a t hx
  | error e t => exact hx

theorem Post.catchWith {P : α → σ → Prop} {Q Q' : ε → σ → Prop} {x : M ε σ α}
    {f : ε → M ε σ α} {s : σ} (hx : Post P Q (x s)) (hf : ∀ e t, Q e t → Post P Q' (f e t)) :
    Post P Q' (catchWith x f s) := by
  rw [catchWith_apply]
  generalize x s = r at hx ⊢
  cases r with
  | ok a t => exact hx
  | error e t => exact hf e t hx

theorem Post.discard {P : σ → Prop} {Q : ε → σ → Prop} {x : M ε σ α} {s : σ}
    (hx : Post (fun _ => P) Q (x s)) :
    Post (fun _ => P) Q ((Functor.discard x : M ε σ PUnit) s) := by
  rw [discard_apply]
  generalize x s = r at hx ⊢
  cases r with
  | ok a t => exact hx
  | error e t => exact hx

/-! ## Two runs side by side -/

/-- Two ways of ending: the same exception or `S`-related results, in `R`-related states. -/
inductive SimEnd (R : σ → τ → Prop) (S : α → β → Prop) :
    EStateM.Result ε σ α → EStateM.Result ε τ β → Prop
  | ok {a b s t} : S a b → R s t → SimEnd R S (.ok a s) (.ok b t)
  | error {e s t} : R s t → SimEnd R S (.error e s) (.error e t)

theorem SimEnd.final {R : σ → τ → Prop} {S : α → β → Prop} {r : EStateM.Result ε σ α}
    {q : EStateM.Result ε τ β} (h : SimEnd R S r q) : R (final r) (final q) := by
  cases h with
  | ok _ h => exact h
  | error h => exact h

/-- From `R`-related states, `x` and `y` end alike, with `S`-related results. -/
def Sim (R : σ → τ → Prop) (S : α → β → Prop) (x : M ε σ α) (y : M ε τ β) : Prop :=
  ∀ s t, R s t → SimEnd R S (x s) (y t)

namespace Sim

variable {R : σ → τ → Prop} {S : α → β → Prop} {T : γ → δ → Prop}
variable {x : M ε σ α} {y : M ε τ β}

theorem pure {a : α} {b : β} (h : S a b) : Sim R S (pure a : M ε σ α) (pure b : M ε τ β) :=
  fun _ _ hR => .ok h hR

theorem throw (e : ε) : Sim R S (throw e : M ε σ α) (throw e : M ε τ β) :=
  fun _ _ hR => .error hR

theorem require (c : Prop) [Decidable c] (e : ε) :
    Sim R (· = ·) (require c e : M ε σ Unit) (require c e : M ε τ Unit) := by
  intro s t hR
  rw [require_apply, require_apply]
  split
  · exact .ok rfl hR
  · exact .error hR

theorem bind {f : α → M ε σ γ} {g : β → M ε τ δ} (hx : Sim R S x y)
    (hf : ∀ a b, S a b → Sim R T (f a) (g b)) : Sim R T (x >>= f) (y >>= g) := by
  intro s t hR
  have h := hx s t hR
  rw [bind_apply, bind_apply]
  generalize x s = r at h ⊢
  generalize y t = q at h ⊢
  cases h with
  | ok hS hR' => exact hf _ _ hS _ _ hR'
  | error hR' => exact .error hR'

theorem modify {f : σ → σ} {g : τ → τ} (h : ∀ s t, R s t → R (f s) (g t)) :
    Sim R (· = ·) (modify f : M ε σ PUnit) (modify g : M ε τ PUnit) :=
  fun s t hR => .ok rfl (h s t hR)

theorem catchWith {f : ε → M ε σ α} {g : ε → M ε τ β} (hx : Sim R S x y)
    (hf : ∀ e, Sim R S (f e) (g e)) : Sim R S (Exec.catchWith x f) (Exec.catchWith y g) := by
  intro s t hR
  have h := hx s t hR
  rw [catchWith_apply, catchWith_apply]
  generalize x s = r at h ⊢
  generalize y t = q at h ⊢
  cases h with
  | ok hS hR' => exact .ok hS hR'
  | error hR' => exact hf _ _ _ hR'

theorem discard (h : Sim R S x y) :
    Sim R (· = ·) (discard x : M ε σ PUnit) (discard y : M ε τ PUnit) := by
  intro s t hR
  have h := h s t hR
  rw [discard_apply, discard_apply]
  generalize x s = r at h ⊢
  generalize y t = q at h ⊢
  cases h with
  | ok _ hR' => exact .ok rfl hR'
  | error hR' => exact .error hR'

theorem ite {c : Prop} [Decidable c] {x' : M ε σ α} {y' : M ε τ β} (hx : Sim R S x y)
    (hy : Sim R S x' y') : Sim R S (if c then x else x') (if c then y else y') := by
  split
  · exact hx
  · exact hy

theorem forRange {f : ℕ → M ε σ Unit} {g : ℕ → M ε τ Unit} (h : ∀ j, Sim R (· = ·) (f j) (g j)) :
    ∀ n i, Sim R (· = ·) (forRange i n f) (forRange i n g)
  | 0, _ => Sim.pure rfl
  | n + 1, i => (h i).bind fun _ _ _ => forRange h n (i + 1)

end Sim

end Exec
