/-
  Numbers in bytes, most significant first, and two's complement.

  `swaps_eq_reverse`: exchanging the bytes of a buffer from both ends to the middle turns one byte
  order into the other.
-/
import DuckDBJava.Lib.Bytes
import Mathlib.Data.Int.Order.Lemmas

namespace Bytes

/-! ## Byte order -/

/-- The number with these bytes, most significant first. -/
def ofBE (bs : List UInt8) : ℕ := ofLE bs.reverse

theorem le_add (w k n : ℕ) : le (w + k) n = le w n ++ le k (n / 256 ^ w) := by
  induction w generalizing n with
  | zero => simp [le]
  | succ w ih =>
    rw [Nat.succ_add, le, le, ih, List.cons_append, Nat.div_div_eq_div_mul, ← Nat.pow_succ']

/-- The low bytes of a number do not depend on the high ones. -/
theorem le_add_mul (w n m : ℕ) : le w (n + 256 ^ w * m) = le w n := by
  induction w generalizing n with
  | zero => rfl
  | succ w ih =>
    have hpow : n + 256 ^ (w + 1) * m = n + 256 * (256 ^ w * m) := by ring
    have hhead : UInt8.ofNat (n + 256 * (256 ^ w * m)) = UInt8.ofNat n := by
      refine UInt8.toNat_inj.1 ?_
      rw [UInt8.toNat_ofNat', UInt8.toNat_ofNat']
      exact Nat.add_mul_mod_self_left ..
    rw [le, le, hpow, hhead, Nat.add_mul_div_left _ _ (by decide), ih]

/-! ## Exchanging from both ends -/

section
variable {α : Type} (d : α)

/-- `keep = xs[i]; xs[i] = xs[j]; xs[j] = keep` -/
def swap (xs : List α) (i j : ℕ) : List α := (xs.set i (xs.getD j d)).set j (xs.getD i d)

/-- Exchange entry `i` and entry `n - 1 - i`, for every `i < k`. -/
def swaps (n k : ℕ) (xs : List α) : List α :=
  (List.range k).foldl (fun ys i => swap d ys i (n - 1 - i)) xs

theorem swaps_succ (n k : ℕ) (xs : List α) :
    swaps d n (k + 1) xs = swap d (swaps d n k xs) k (n - 1 - k) := by
  rw [swaps, List.range_succ, List.foldl_append]
  rfl

variable {d} {xs : List α}

@[simp] theorem length_swap (i j : ℕ) : (swap d xs i j).length = xs.length := by
  rw [swap, List.length_set, List.length_set]

@[simp] theorem length_swaps (n k : ℕ) : (swaps d n k xs).length = xs.length := by
  induction k with
  | zero => rfl
  | succ k ih => rw [swaps_succ, length_swap, ih]

theorem getElem?_swap {i j m : ℕ} (hi : i < xs.length) (hj : j < xs.length) :
    (swap d xs i j)[m]? = if m = j then xs[i]? else if m = i then xs[j]? else xs[m]? := by
  simp only [swap, List.getElem?_set, List.length_set, List.getD_eq_getElem?_getD]
  by_cases hmj : m = j
  · simp [hmj, hi, hj]
  · by_cases hmi : m = i
    · subst hmi
      simp [hi, hj, hmj, Ne.symm hmj]
    · simp [hmi, hmj, Ne.symm hmi, Ne.symm hmj]

/-- After `k` exchanges the `k` first and the `k` last entries have changed places. -/
theorem getElem?_swaps {k m : ℕ} (hk : 2 * k ≤ xs.length) (hm : m < xs.length) :
    (swaps d xs.length k xs)[m]? =
      if m < k ∨ xs.length - k ≤ m then xs[xs.length - 1 - m]? else xs[m]? := by
  induction k generalizing m with
  | zero =>
    have h : ¬ (m < 0 ∨ xs.length - 0 ≤ m) := by omega
    rw [if_neg h]
    rfl
  | succ k ih =>
    have hlen : (swaps d xs.length k xs).length = xs.length := length_swaps _ _
    rw [swaps_succ, getElem?_swap (by omega) (by omega)]
    split
    · next hj =>
      subst hj
      rw [ih (by omega) (by omega), if_neg (by omega), if_pos (by omega)]
      congr 1
      omega
    · next hj =>
      split
      · next hi =>
        subst hi
        rw [ih (by omega) (by omega), if_neg (by omega), if_pos (by omega)]
      · next hi =>
        rw [ih (by omega) hm]
        by_cases hout : m < k ∨ xs.length - k ≤ m
        · rw [if_pos hout, if_pos (by omega)]
        · rw [if_neg hout, if_neg (by omega)]

/-- **Exchanging all pairs** reverses the list. -/
theorem swaps_eq_reverse {k : ℕ} (hk : xs.length = 2 * k) :
    swaps d xs.length k xs = xs.reverse := by
  refine List.ext_getElem? fun m => ?_
  by_cases hm : m < xs.length
  · rw [getElem?_swaps (by omega) hm, if_pos (by omega), List.getElem?_reverse hm]
  · rw [List.getElem?_eq_none (by simpa using hm), List.getElem?_eq_none (by simpa using hm)]

end

/-! ## Two's complement -/

/-- The number in two's complement with these bytes, most significant first. -/
def signedBE (bs : List UInt8) : ℤ := (ofBE bs : ℤ).bmod (256 ^ bs.length)

theorem ofBE_reverse_le (w n : ℕ) : ofBE (le w n).reverse = n % 256 ^ w := by
  rw [ofBE, List.reverse_reverse, ofLE_le]

theorem signedBE_reverse_le (w n : ℕ) : signedBE (le w n).reverse = (n : ℤ).bmod (256 ^ w) := by
  rw [signedBE, ofBE_reverse_le, List.length_reverse, length_le]
  push_cast
  exact Int.emod_bmod ..

/-- A number in the range of the two's complement is what its low bits denote. -/
theorem bmod_emod_eq {v : ℤ} {m : ℕ} (hlo : -(m : ℤ) ≤ 2 * v) (hhi : 2 * v < m) :
    (v % m).bmod m = v := by
  rw [Int.emod_bmod]
  exact Int.bmod_eq_of_le (by omega) (by omega)

end Bytes
