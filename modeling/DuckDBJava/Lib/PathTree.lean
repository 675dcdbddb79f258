/-
  Trees of infinite width and depth, as functions of paths, and computations focused on a
  subtree.

  A `PathTree α` carries an `α` at every node; `child i` is its `i`-th subtree.  `onChild i x` runs
  `x` on the `i`-th subtree and `onPath p x` on the subtree at `p`; nothing else changes.
  Paths are written leaf first: `i :: p` is the `i`-th child of `p`, and `p <:+ q` says that `q`
  is at or below `p`.
-/
import DuckDBJava.Lib.Exec
import Mathlib.Data.List.Infix

open Exec

/-- A tree with an `α` at every node; every node has a child for every number. -/
def PathTree (α : Type) : Type := List ℕ → α

namespace PathTree

variable {ε α β : Type}

/-- The label of the root. -/
def root (t : PathTree α) : α := t []

/-- The `i`-th subtree. -/
def child (t : PathTree α) (i : ℕ) : PathTree α := fun p => t (i :: p)

/-- The tree with the given root and subtrees. -/
def cons (a : α) (c : ℕ → PathTree α) : PathTree α
  | [] => a
  | i :: p => c i p

/-- Relabel the root. -/
def setRoot (t : PathTree α) (a : α) : PathTree α
  | [] => a
  | i :: p => t (i :: p)

/-- Replace the `i`-th subtree. -/
def setChild (t : PathTree α) (i : ℕ) (c : PathTree α) : PathTree α
  | [] => t []
  | j :: p => if j = i then c p else t (j :: p)

/-- The subtree at `p`. -/
def sub (t : PathTree α) : List ℕ → PathTree α
  | [] => t
  | i :: p => (t.sub p).child i

/-- Replace the subtree at `p`. -/
def setSub (t : PathTree α) : List ℕ → PathTree α → PathTree α
  | [], c => c
  | i :: p, c => t.setSub p ((t.sub p).setChild i c)

theorem ext {t u : PathTree α} (h : t.root = u.root) (hc : ∀ i, t.child i = u.child i) : t = u := by
  funext p
  cases p with
  | nil => exact h
  | cons i p => exact congrFun (hc i) p

@[simp] theorem root_cons (a : α) (c : ℕ → PathTree α) : (cons a c).root = a := rfl
@[simp] theorem child_cons (a : α) (c : ℕ → PathTree α) (i : ℕ) : (cons a c).child i = c i := rfl
@[simp] theorem root_setRoot (a : α) (t : PathTree α) : (t.setRoot a).root = a := rfl
@[simp] theorem child_setRoot (a : α) (t : PathTree α) (i : ℕ) :
    (t.setRoot a).child i = t.child i := rfl
@[simp] theorem root_setChild (i : ℕ) (c t : PathTree α) : (t.setChild i c).root = t.root := rfl

theorem setChild_cons (t c : PathTree α) (i j : ℕ) (p : List ℕ) :
    t.setChild i c (j :: p) = if j = i then c p else t (j :: p) := rfl

@[simp] theorem child_setChild_self (i : ℕ) (c t : PathTree α) : (t.setChild i c).child i = c := by
  funext p; simp [child, setChild]

theorem child_setChild_ne {i j : ℕ} (h : j ≠ i) (c t : PathTree α) :
    (t.setChild i c).child j = t.child j := by
  funext p; simp [child, setChild, h]

theorem child_setChild (i j : ℕ) (c t : PathTree α) :
    (t.setChild i c).child j = if j = i then c else t.child j := by
  split
  · next h => rw [h, child_setChild_self]
  · next h => exact child_setChild_ne h c t

@[simp] theorem setChild_child (i : ℕ) (t : PathTree α) : t.setChild i (t.child i) = t := by
  refine ext rfl fun j => ?_
  rw [child_setChild]; split
  · next h => rw [h]
  · rfl

@[simp] theorem setRoot_root (t : PathTree α) : t.setRoot t.root = t := ext rfl fun _ => rfl

@[simp] theorem setRoot_setRoot (a b : α) (t : PathTree α) :
    (t.setRoot a).setRoot b = t.setRoot b := ext rfl fun _ => rfl

@[simp] theorem setChild_setChild (i : ℕ) (c d t : PathTree α) :
    (t.setChild i c).setChild i d = t.setChild i d := by
  refine ext rfl fun j => ?_
  rw [child_setChild, child_setChild, child_setChild]
  split <;> rfl

/-! ## Subtrees at a path -/

theorem sub_append (r p : List ℕ) (t : PathTree α) : t.sub (r ++ p) = (t.sub p).sub r := by
  induction r with
  | nil => rfl
  | cons i r ih => simp only [List.cons_append, sub, ih]

@[simp] theorem sub_setSub_self (p : List ℕ) (c t : PathTree α) : (t.setSub p c).sub p = c := by
  induction p generalizing c with
  | nil => rfl
  | cons i p ih => simp only [setSub, sub, ih, child_setChild_self]

@[simp] theorem setSub_sub (p : List ℕ) (t : PathTree α) : t.setSub p (t.sub p) = t := by
  induction p with
  | nil => rfl
  | cons i p ih => simp only [setSub, sub, setChild_child, ih]

/-- Replacing the subtree at `p` leaves the subtrees beside it alone. -/
theorem sub_setSub_of_incomparable {p q : List ℕ} (c t : PathTree α) (hpq : ¬ p <:+ q)
    (hqp : ¬ q <:+ p) : (t.setSub p c).sub q = t.sub q := by
  induction p generalizing c with
  | nil => exact absurd (List.nil_suffix) hpq
  | cons i p ih =>
    simp only [setSub]
    by_cases hp : p <:+ q
    · obtain ⟨r, rfl⟩ := hp
      rcases List.eq_nil_or_concat' r with rfl | ⟨r, j, rfl⟩
      · exact absurd (List.suffix_cons i p) hqp
      · have hj : j ≠ i := by
          rintro rfl
          exact hpq ⟨r, by simp⟩
        rw [List.append_assoc, List.singleton_append, sub_append, sub_append]
        simp only [sub, sub_setSub_self, child_setChild_ne hj]
    · exact ih _ hp fun h => hqp (h.trans (List.suffix_cons i p))

/-- Replacing the subtree at `p` leaves the labels above `p` alone. -/
theorem root_sub_setSub {p q : List ℕ} (c t : PathTree α) (hpq : ¬ p <:+ q) :
    ((t.setSub p c).sub q).root = (t.sub q).root := by
  induction p generalizing c with
  | nil => exact absurd (List.nil_suffix) hpq
  | cons i p ih =>
    simp only [setSub]
    by_cases hp : p <:+ q
    · by_cases hq : q <:+ i :: p
      · have : q = p := by
          rcases List.suffix_cons_iff.1 hq with rfl | h
          · exact absurd (List.suffix_refl _) hpq
          · exact (h.eq_of_length_le hp.length_le).symm ▸ rfl
        rw [this, sub_setSub_self, root_setChild]
      · have h := sub_setSub_of_incomparable c t hpq hq
        simp only [setSub] at h
        rw [h]
    · exact ih _ hp

/-! ## Labels of a subtree

`t q` is the label at the path `q`, root first. -/

theorem sub_apply (p : List ℕ) (t : PathTree α) (q : List ℕ) : t.sub p q = t (p.reverse ++ q) := by
  induction p generalizing q with
  | nil => rfl
  | cons i p ih => simp only [sub, child, ih, List.reverse_cons, List.append_assoc,
      List.singleton_append]

theorem setSub_apply (p : List ℕ) (c t : PathTree α) (q : List ℕ) :
    t.setSub p c (p.reverse ++ q) = c q :=
  (sub_apply p (t.setSub p c) q).symm.trans (congrFun (sub_setSub_self p c t) q)

theorem setSub_apply_of_not {p q : List ℕ} (c t : PathTree α) (h : ¬ p.reverse <+: q) :
    t.setSub p c q = t q := by
  have hq : ¬ p <:+ q.reverse := fun hs => h (by simpa using List.reverse_prefix.2 hs)
  have := root_sub_setSub c t hq
  simpa [root, sub_apply] using this

/-! ## Focused computations -/

/-- Read the label of the root. -/
def getRoot : M ε (PathTree α) α := fun t => .ok t.root t

/-- Change the label of the root. -/
def modifyRoot (f : α → α) : M ε (PathTree α) Unit := fun t => .ok () (t.setRoot (f t.root))

/-- Run `x` on the `i`-th subtree. -/
def onChild (i : ℕ) (x : M ε (PathTree α) β) : M ε (PathTree α) β := fun t =>
  match x (t.child i) with
  | .ok b c => .ok b (t.setChild i c)
  | .error e c => .error e (t.setChild i c)

/-- Run `x` on the subtree at `p`. -/
def onPath : List ℕ → M ε (PathTree α) β → M ε (PathTree α) β
  | [], x => x
  | i :: p, x => onPath p (onChild i x)

@[simp] theorem getRoot_apply (t : PathTree α) :
    (getRoot : M ε (PathTree α) α) t = .ok t.root t := rfl

@[simp] theorem modifyRoot_apply (f : α → α) (t : PathTree α) :
    (modifyRoot f : M ε (PathTree α) Unit) t = .ok () (t.setRoot (f t.root)) := rfl

theorem getRoot_bind (f : α → M ε (PathTree α) β) (t : PathTree α) :
    (getRoot >>= f) t = f t.root t := rfl

theorem onChild_eq_ok {i : ℕ} {x : M ε (PathTree α) β} {t t' : PathTree α} {b : β} :
    onChild i x t = .ok b t' ↔ ∃ c, x (t.child i) = .ok b c ∧ t' = t.setChild i c := by
  unfold onChild
  cases x (t.child i) with
  | ok b' c =>
    simp only [EStateM.Result.ok.injEq]
    constructor
    · rintro ⟨rfl, rfl⟩; exact ⟨c, ⟨rfl, rfl⟩, rfl⟩
    · rintro ⟨c', ⟨rfl, rfl⟩, rfl⟩; exact ⟨rfl, rfl⟩
  | error e c => simp

theorem onChild_eq_error {i : ℕ} {x : M ε (PathTree α) β} {t t' : PathTree α} {e : ε} :
    onChild i x t = .error e t' ↔ ∃ c, x (t.child i) = .error e c ∧ t' = t.setChild i c := by
  unfold onChild
  cases x (t.child i) with
  | ok b' c => simp
  | error e' c =>
    simp only [EStateM.Result.error.injEq]
    constructor
    · rintro ⟨rfl, rfl⟩; exact ⟨c, ⟨rfl, rfl⟩, rfl⟩
    · rintro ⟨c', ⟨rfl, rfl⟩, rfl⟩; exact ⟨rfl, rfl⟩

theorem onChild_congr {i : ℕ} {x y : M ε (PathTree α) β} {t : PathTree α}
    (h : x (t.child i) = y (t.child i)) : onChild i x t = onChild i y t := by
  rw [onChild, onChild, h]

theorem onPath_apply (p : List ℕ) (x : M ε (PathTree α) β) (t : PathTree α) :
    onPath p x t = match x (t.sub p) with
      | .ok b c => .ok b (t.setSub p c)
      | .error e c => .error e (t.setSub p c) := by
  induction p generalizing x with
  | nil => simp only [onPath, sub, setSub]; cases x t <;> rfl
  | cons i p ih =>
    simp only [onPath, ih, onChild, sub, setSub]
    cases x ((t.sub p).child i) <;> rfl

theorem onPath_eq_ok {p : List ℕ} {x : M ε (PathTree α) β} {t t' : PathTree α} {b : β} :
    onPath p x t = .ok b t' ↔ ∃ c, x (t.sub p) = .ok b c ∧ t' = t.setSub p c := by
  rw [onPath_apply]
  cases x (t.sub p) with
  | ok b' c =>
    simp only [EStateM.Result.ok.injEq]
    constructor
    · rintro ⟨rfl, rfl⟩; exact ⟨c, ⟨rfl, rfl⟩, rfl⟩
    · rintro ⟨c', ⟨rfl, rfl⟩, rfl⟩; exact ⟨rfl, rfl⟩
  | error e c => simp

@[simp] theorem isOk_onPath (p : List ℕ) (x : M ε (PathTree α) β) (t : PathTree α) :
    isOk (onPath p x t) = isOk (x (t.sub p)) := by
  rw [onPath_apply]; cases x (t.sub p) <;> rfl

/-- A focused computation keeps what it keeps on the subtree. -/
theorem keeps_onChild {E : ε → Prop} {R R' : PathTree α → PathTree α → Prop} {i : ℕ}
    {x : M ε (PathTree α) β} (hx : Keeps E R' x)
    (h : ∀ t c, R' (t.child i) c → R t (t.setChild i c)) : Keeps E R (onChild i x) := by
  intro t
  have := hx (t.child i)
  rw [onChild]
  cases hc : x (t.child i) with
  | ok b c => rw [hc] at this; exact h _ _ this
  | error e c => rw [hc] at this; exact fun he => h _ _ (this he)

theorem keeps_modifyRoot {E : ε → Prop} {R : PathTree α → PathTree α → Prop} {f : α → α}
    (h : ∀ t : PathTree α, R t (t.setRoot (f t.root))) :
    Keeps E R (modifyRoot f : M ε (PathTree α) Unit) := h

theorem keeps_getRoot {E : ε → Prop} {R : PathTree α → PathTree α → Prop} [Std.Refl R] :
    Keeps E R (getRoot : M ε (PathTree α) α) := fun t => Std.Refl.refl t

end PathTree
