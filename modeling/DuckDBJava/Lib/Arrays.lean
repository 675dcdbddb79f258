/-
  Arrays that are assigned element by element.

  A program that allocates, reads and stores arrays is written once over an `ArrayMemory`.
  `references` is the memory of a language with mutable arrays: a store is seen through every
  reference to the array.  In `values` an array is its contents, and there is nothing to share.
-/
import Mathlib.Algebra.Order.Ring.Int
import Mathlib.Data.List.GetD

/-- Arrays of `α`: how they are allocated, read and assigned. -/
structure ArrayMemory (α : Type) where
  Heap : Type
  Ref : Type
  empty : Heap
  new : List α → Heap → Ref × Heap
  read : Heap → Ref → List α
  /-- `a[i] = x`, and the array afterwards -/
  store : Heap → Ref → ℕ → α → Ref × Heap

namespace ArrayMemory

variable {α : Type}

/-- An array is a place in the heap. -/
abbrev references (α : Type) : ArrayMemory α where
  Heap := List (List α)
  Ref := ℕ
  empty := []
  new l h := (h.length, h ++ [l])
  read h r := h.getD r []
  store h r i x := (r, h.modify r (·.set i x))

/-- An array is its contents. -/
abbrev values (α : Type) : ArrayMemory α where
  Heap := Unit
  Ref := List α
  empty := ()
  new l h := (l, h)
  read _ r := r
  store h r i x := (r.set i x, h)

/-- A place of the heap. -/
def Live (h : (references α).Heap) (r : (references α).Ref) : Prop :=
  r < h.length

variable {h : (references α).Heap} {r r' : (references α).Ref} {l : List α} {i : ℕ} {x : α}

theorem live_new_self : Live ((references α).new l h).2 ((references α).new l h).1 := by
  show h.length < (h ++ [l]).length
  rw [List.length_append]
  exact Nat.lt_succ_self _

theorem Live.new (hr : Live h r) : Live ((references α).new l h).2 r := by
  show r < (h ++ [l]).length
  rw [List.length_append]
  exact Nat.lt_succ_of_lt hr

theorem Live.ne_new (hr : Live h r) : r ≠ ((references α).new l h).1 :=
  fun heq => absurd (heq ▸ hr : Live h ((references α).new l h).1) (Nat.lt_irrefl _)

theorem Live.store (hr : Live h r) : Live ((references α).store h r' i x).2 r := by
  show r < (h.modify r' (·.set i x)).length
  rw [List.length_modify]
  exact hr

theorem read_new_self : (references α).read ((references α).new l h).2
    ((references α).new l h).1 = l := by
  show (h ++ [l]).getD h.length [] = l
  rw [List.getD_append_right _ _ _ _ (Nat.le_refl _), Nat.sub_self]
  rfl

theorem read_new (hr : Live h r) :
    (references α).read ((references α).new l h).2 r = (references α).read h r :=
  List.getD_append _ _ _ _ hr

/-- An array that has elements is in the heap. -/
theorem live_of_lt (hi : i < ((references α).read h r).length) : Live h r := by
  by_contra hnot
  rw [show (references α).read h r = [] from List.getD_eq_default _ _ (Nat.le_of_not_lt hnot)] at hi
  cases hi

theorem read_store_self (hr : Live h r) :
    (references α).read ((references α).store h r i x).2 r =
      ((references α).read h r).set i x := by
  show (h.modify r (·.set i x)).getD r [] = (h.getD r []).set i x
  rw [List.getD_eq_getElem?_getD, List.getD_eq_getElem?_getD, List.getElem?_modify_eq,
    List.getElem?_eq_getElem hr]
  rfl

theorem read_store_of_ne (hne : r ≠ r') :
    (references α).read ((references α).store h r i x).2 r' = (references α).read h r' := by
  show (h.modify r (·.set i x)).getD r' [] = h.getD r' []
  rw [List.getD_eq_getElem?_getD, List.getD_eq_getElem?_getD, List.getElem?_modify_ne _ _ hne]

end ArrayMemory
