/-
  Bytes in memory: little-endian numbers, and a memory as a function from addresses to bytes.

  `store m a bs` overwrites the bytes from `a` on with `bs`, `load m a n` reads `n` bytes; the
  lemmas say how loads and stores of neighbouring and of disjoint ranges compose.
-/
import Mathlib.Algebra.Order.Ring.Int
import Mathlib.Data.List.GetD
import Mathlib.Tactic.Ring

namespace Bytes

/-! ## Little-endian numbers -/

/-- The `w` low bytes of `n`, least significant first. -/
def le : ℕ → ℕ → List UInt8
  | 0, _ => []
  | w + 1, n => UInt8.ofNat n :: le w (n / 256)

/-- The number with these bytes, least significant first. -/
def ofLE : List UInt8 → ℕ
  | [] => 0
  | b :: bs => b.toNat + 256 * ofLE bs

@[simp] theorem length_le (w n : ℕ) : (le w n).length = w := by
  induction w generalizing n with
  | zero => rfl
  | succ w ih => simp only [le, List.length_cons, ih]

theorem ofLE_le (w n : ℕ) : ofLE (le w n) = n % 256 ^ w := by
  induction w generalizing n with
  | zero => simp only [le, ofLE, Nat.pow_zero, Nat.mod_one]
  | succ w ih =>
    have hb : (UInt8.ofNat n).toNat = n % 256 := UInt8.toNat_ofNat'
    simp only [le, ofLE, ih, hb]
    rw [Nat.pow_succ', Nat.mod_mul]

theorem ofLE_le_of_lt {w n : ℕ} (h : n < 256 ^ w) : ofLE (le w n) = n := by
  rw [ofLE_le, Nat.mod_eq_of_lt h]

/-! ## Memory -/

/-- A byte at every address. -/
abbrev Mem := ℕ → UInt8

/-- Overwrite the bytes from `a` on. -/
def Mem.store (m : Mem) (a : ℕ) (bs : List UInt8) : Mem := fun i =>
  if a ≤ i ∧ i < a + bs.length then bs.getD (i - a) 0 else m i

/-- The `n` bytes from `a` on. -/
def Mem.load (m : Mem) (a n : ℕ) : List UInt8 := (List.range n).map fun i => m (a + i)

section
variable (m : Mem) (a b n k : ℕ) (bs cs : List UInt8)

@[simp] theorem Mem.length_load : (m.load a n).length = n := by simp [load]

@[simp] theorem Mem.store_nil : m.store a [] = m := by
  funext i
  have h : ¬ (a ≤ i ∧ i < a + 0) := by omega
  simp only [store, List.length_nil, if_neg h]

theorem Mem.getElem_load (i : ℕ) (h : i < (m.load a n).length) : (m.load a n)[i] = m (a + i) := by
  simp [load]

/-- Two stores side by side are one. -/
theorem Mem.store_append :
    (m.store a bs).store (a + bs.length) cs = m.store a (bs ++ cs) := by
  funext i
  simp only [store, List.length_append]
  by_cases hc : a + bs.length ≤ i ∧ i < a + bs.length + cs.length
  · have h : a ≤ i ∧ i < a + (bs.length + cs.length) := by omega
    rw [if_pos hc, if_pos h, List.getD_append_right _ _ _ _ (by omega)]
    congr 1
    omega
  · rw [if_neg hc]
    by_cases hb : a ≤ i ∧ i < a + bs.length
    · have h : a ≤ i ∧ i < a + (bs.length + cs.length) := by omega
      rw [if_pos hb, if_pos h, List.getD_append _ _ _ _ (by omega)]
    · have h : ¬ (a ≤ i ∧ i < a + (bs.length + cs.length)) := by omega
      rw [if_neg hb, if_neg h]

theorem Mem.load_add : m.load a (n + k) = m.load a n ++ m.load (a + n) k := by
  simp only [load, List.range_add, List.map_append, List.map_map]
  congr 1
  refine List.map_congr_left fun i _ => ?_
  show m (a + (n + i)) = m (a + n + i)
  rw [Nat.add_assoc]

@[simp] theorem Mem.load_store_self : (m.store a bs).load a bs.length = bs := by
  refine List.ext_getElem (length_load _ _ _) fun i h1 h2 => ?_
  have h : a ≤ a + i ∧ a + i < a + bs.length := ⟨Nat.le_add_right a i, by omega⟩
  rw [getElem_load]
  simp only [store, if_pos h, Nat.add_sub_cancel_left]
  rw [List.getD_eq_getElem _ _ h2]

theorem Mem.load_store_of_disjoint (h : a + bs.length ≤ b ∨ b + n ≤ a) :
    (m.store a bs).load b n = m.load b n := by
  refine List.map_congr_left fun i hi => ?_
  have hi := List.mem_range.1 hi
  exact if_neg (by omega)

/-- A store at the front of a range leaves the rest of it. -/
theorem Mem.load_store_front :
    (m.store a bs).load a (bs.length + k) = bs ++ m.load (a + bs.length) k := by
  rw [load_add, load_store_self, load_store_of_disjoint _ _ _ _ _ (.inl le_rfl)]

end

end Bytes
