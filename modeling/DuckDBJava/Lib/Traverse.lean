/-
  Fallible functions along a list: `xs.mapM f` in `Except ε`.

  A traversal succeeds iff it does at every element (`mapM_eq_ok`); whether and how it fails
  depends on `f` only through where and how `f` fails (`failure_mapM_congr`).  `Yields P c r`: the
  run `r` fails exactly as `c` says, and otherwise ends with `P`.
-/
import DuckDBJava.Lib.Exec

namespace Exec

variable {ε σ α β γ : Type}

/-- A fallible value as a computation that leaves the state alone. -/
def liftE (x : Except ε α) : M ε σ α := fun s =>
  match x with
  | .ok a => .ok a s
  | .error e => .error e s

@[simp] theorem liftE_ok (a : α) (s : σ) : (liftE (.ok a) : M ε σ α) s = .ok a s := rfl
@[simp] theorem liftE_error (e : ε) (s : σ) : (liftE (.error e) : M ε σ α) s = .error e s := rfl

theorem liftE_eq_ok {x : Except ε α} {s t : σ} {a : α} :
    (liftE x : M ε σ α) s = .ok a t ↔ x = .ok a ∧ s = t := by
  cases x with
  | ok b => simp
  | error e => simp

/-- Success if `c`, else the exception `e`. -/
def requireE (c : Prop) [Decidable c] (e : ε) : Except ε Unit := if c then .ok () else .error e

theorem requireE_of {c : Prop} [Decidable c] (h : c) (e : ε) : requireE c e = .ok () := if_pos h

/-- Success or the exception, without the value. -/
def failure : Except ε α → Except ε Unit
  | .ok _ => .ok ()
  | .error e => .error e

@[simp] theorem failure_ok (a : α) : failure (.ok a : Except ε α) = .ok () := rfl
@[simp] theorem failure_error (e : ε) : failure (.error e : Except ε α) = .error e := rfl

theorem failure_eq_ok {x : Except ε α} : failure x = .ok () ↔ ∃ a, x = .ok a := by
  cases x with
  | ok a => simp
  | error e => simp

theorem Except.bind_eq_ok {x : Except ε α} {f : α → Except ε β} {b : β} :
    (x >>= f) = .ok b ↔ ∃ a, x = .ok a ∧ f a = .ok b := by
  cases x with
  | ok a => simp [bind, Except.bind]
  | error e => simp [bind, Except.bind]

theorem Except.bind_eq_error {x : Except ε α} {f : α → Except ε β} {e : ε} :
    (x >>= f) = .error e ↔ x = .error e ∨ ∃ a, x = .ok a ∧ f a = .error e := by
  cases x with
  | ok a => simp [bind, Except.bind]
  | error e => simp [bind, Except.bind]

theorem Except.bind_of_error {x : Except ε α} {f : α → Except ε β} {e : ε} (h : x = .error e) :
    (x >>= f) = .error e := Except.bind_eq_error.2 (.inl h)

theorem Except.bind_of_ok {x : Except ε α} {a : α} {f : α → Except ε β} {e : ε} (hx : x = .ok a)
    (hf : f a = .error e) : (x >>= f) = .error e := Except.bind_eq_error.2 (.inr ⟨a, hx, hf⟩)

/-- A traversal succeeds iff it does pointwise. -/
theorem mapM_eq_ok {f : α → Except ε β} {xs : List α} {ys : List β} :
    xs.mapM f = .ok ys ↔ List.Forall₂ (fun x y => f x = .ok y) xs ys := by
  induction xs generalizing ys with
  | nil =>
    constructor
    · intro h; cases h; exact .nil
    · intro h; cases h; rfl
  | cons x xs ih =>
    rw [List.mapM_cons, Except.bind_eq_ok]
    constructor
    · rintro ⟨y, hy, h⟩
      obtain ⟨zs, hzs, h⟩ := Except.bind_eq_ok.1 h
      cases h
      exact .cons hy (ih.1 hzs)
    · intro h
      cases h with
      | cons hy h => exact ⟨_, hy, Except.bind_eq_ok.2 ⟨_, ih.2 h, rfl⟩⟩

theorem mapM_congr {f g : α → Except ε β} {xs : List α} (h : ∀ x ∈ xs, f x = g x) :
    xs.mapM f = xs.mapM g := by
  induction xs with
  | nil => rfl
  | cons x xs ih =>
    rw [List.mapM_cons, List.mapM_cons, h x List.mem_cons_self,
      ih fun y hy => h y (List.mem_cons_of_mem x hy)]

theorem failure_mapM_cons (f : α → Except ε β) (x : α) (xs : List α) :
    failure ((x :: xs).mapM f) = failure (f x) >>= fun _ => failure (xs.mapM f) := by
  rw [List.mapM_cons]
  cases f x with
  | error e => rfl
  | ok y =>
    cases xs.mapM f with
    | error e => rfl
    | ok ys => rfl

/-- Traversals that fail alike at every pair of elements fail alike. -/
theorem failure_mapM_forall₂ {δ : Type} {f : α → Except ε β} {g : γ → Except ε δ} {xs : List α}
    {ys : List γ} (h : List.Forall₂ (fun x y => failure (f x) = failure (g y)) xs ys) :
    failure (xs.mapM f) = failure (ys.mapM g) := by
  induction h with
  | nil => rfl
  | cons hxy _ ih => rw [failure_mapM_cons, failure_mapM_cons, hxy, ih]

theorem failure_mapM_congr {f : α → Except ε β} {g : α → Except ε γ} {xs : List α}
    (h : ∀ x ∈ xs, failure (f x) = failure (g x)) :
    failure (xs.mapM f) = failure (xs.mapM g) := by
  refine failure_mapM_forall₂ ?_
  induction xs with
  | nil => exact .nil
  | cons x xs ih => exact .cons (h x List.mem_cons_self) (ih fun y hy => h y (.tail x hy))

theorem mapM_forall₂ {f : α → Except ε β} {g : γ → Except ε β} {xs : List α} {ys : List γ}
    (h : List.Forall₂ (fun x y => f x = g y) xs ys) : xs.mapM f = ys.mapM g := by
  induction h with
  | nil => rfl
  | cons hxy _ ih => rw [List.mapM_cons, List.mapM_cons, hxy, ih]

/-- A property of the elements of a list and of their places, counted from `i`. -/
theorem forall_getElem?_cons {P : ℕ → α → Prop} {x : α} {xs : List α} {i : ℕ} :
    (∀ j y, (x :: xs)[j]? = some y → P (i + j) y) ↔
      P i x ∧ ∀ j y, xs[j]? = some y → P (i + 1 + j) y := by
  constructor
  · intro h
    refine ⟨h 0 x rfl, fun j y hy => ?_⟩
    have := h (j + 1) y hy
    rwa [Nat.add_comm j 1, ← Nat.add_assoc] at this
  · rintro ⟨hx, hxs⟩ j y hy
    cases j with
    | zero => cases hy; exact hx
    | succ j =>
      rw [Nat.add_comm j 1, ← Nat.add_assoc]
      exact hxs j y hy

theorem mapM_isOk {f : α → Except ε β} {xs : List α} :
    (∃ ys, xs.mapM f = .ok ys) ↔ ∀ x ∈ xs, ∃ y, f x = .ok y := by
  induction xs with
  | nil => simp [pure, Except.pure]
  | cons x xs ih =>
    rw [List.forall_mem_cons, ← ih, List.mapM_cons]
    constructor
    · rintro ⟨ys, h⟩
      obtain ⟨y, hy, h⟩ := Except.bind_eq_ok.1 h
      obtain ⟨zs, hzs, -⟩ := Except.bind_eq_ok.1 h
      exact ⟨⟨y, hy⟩, zs, hzs⟩
    · rintro ⟨⟨y, hy⟩, zs, hzs⟩
      exact ⟨y :: zs, Except.bind_eq_ok.2 ⟨y, hy, Except.bind_eq_ok.2 ⟨zs, hzs, rfl⟩⟩⟩

theorem mapM_of_forall {f : α → Except ε β} {g : α → β} {xs : List α}
    (h : ∀ x ∈ xs, f x = .ok (g x)) : xs.mapM f = .ok (xs.map g) := by
  induction xs with
  | nil => rfl
  | cons x xs ih =>
    obtain ⟨hx, hxs⟩ := List.forall_mem_cons.1 h
    rw [List.mapM_cons, hx, ih hxs]
    rfl

/-- A traversal fails at the first element that fails. -/
theorem mapM_error_of {f : α → Except ε β} {done rest : List α} {x : α} {e : ε}
    (hdone : ∀ y ∈ done, ∃ z, f y = .ok z) (hx : f x = .error e) :
    (done ++ x :: rest).mapM f = .error e := by
  induction done with
  | nil =>
    rw [List.nil_append, List.mapM_cons, hx]
    rfl
  | cons y done ih =>
    obtain ⟨⟨z, hz⟩, hdone⟩ := List.forall_mem_cons.1 hdone
    rw [List.cons_append, List.mapM_cons, hz, ih hdone]
    rfl

/-- All elements have a property, or there is a first one that does not. -/
theorem forall_or_first (P : α → Prop) (xs : List α) :
    (∀ x ∈ xs, P x) ∨
      ∃ done x rest, xs = done ++ x :: rest ∧ (∀ y ∈ done, P y) ∧ ¬ P x := by
  induction xs with
  | nil => exact .inl nofun
  | cons x xs ih =>
    by_cases hx : P x
    · rcases ih with hxs | ⟨done, y, rest, rfl, hdone, hy⟩
      · exact .inl (List.forall_mem_cons.2 ⟨hx, hxs⟩)
      · exact .inr ⟨x :: done, y, rest, rfl, List.forall_mem_cons.2 ⟨hx, hdone⟩, hy⟩
    · exact .inr ⟨[], x, xs, rfl, nofun, hx⟩

/-! ## Computations with a known failure -/

/-- The run ends as `c` says, and if it succeeds, with `P`. -/
def Yields (P : β → σ → Prop) : Except ε Unit → EStateM.Result ε σ β → Prop
  | .ok _, .ok b s => P b s
  | .error e, .error e' _ => e = e'
  | _, _ => False

section
variable {P : α → σ → Prop} {Q : β → σ → Prop} {c c' : Except ε Unit}

theorem Yields.bind {x : M ε σ α} {f : α → M ε σ β} {s : σ} (hx : Yields P c (x s))
    (hf : ∀ a t, P a t → Yields Q c' (f a t)) : Yields Q (c >>= fun _ => c') ((x >>= f) s) := by
  rw [bind_apply]
  cases c with
  | ok u => cases hxs : x s with
    | ok a t => rw [hxs] at hx; exact hf a t hx
    | error e t => rw [hxs] at hx; exact hx.elim
  | error e => cases hxs : x s with
    | ok a t => rw [hxs] at hx; exact hx.elim
    | error e' t => rw [hxs] at hx; exact hx

/-- The result of a run, changed. -/
theorem Yields.map {x : M ε σ α} {g : α → β} {s : σ} (hx : Yields P c (x s))
    (hg : ∀ a t, P a t → Q (g a) t) : Yields Q c ((x >>= fun a => pure (g a)) s) := by
  rw [bind_apply]
  cases c with
  | ok u => cases hxs : x s with
    | ok a t => rw [hxs] at hx; exact hg a t hx
    | error e t => rw [hxs] at hx; exact hx.elim
  | error e => cases hxs : x s with
    | ok a t => rw [hxs] at hx; exact hx.elim
    | error e' t => rw [hxs] at hx; exact hx

theorem Yields.require (C : Prop) [Decidable C] (e : ε) (s : σ) :
    Yields (fun _ t => C ∧ t = s) (requireE C e) (Exec.require C e s) := by
  rw [require_apply, requireE]
  by_cases h : C
  · rw [if_pos h, if_pos h]; exact ⟨h, rfl⟩
  · rw [if_neg h, if_neg h]; exact rfl

theorem Yields.liftE (x : Except ε α) (s : σ) :
    Yields (fun a t => x = .ok a ∧ t = s) (failure x) ((liftE x : M ε σ α) s) := by
  cases x with
  | ok a => exact ⟨rfl, rfl⟩
  | error e => exact rfl

theorem Yields.imp {r : EStateM.Result ε σ α} {P' : α → σ → Prop} (h : Yields P c r)
    (hP : ∀ a s, P a s → P' a s) : Yields P' c r := by
  cases c with
  | ok u => cases r with
    | ok a s => exact hP a s h
    | error e s => exact h
  | error e => cases r with
    | ok a s => exact h
    | error e' s => exact h

end

end Exec
