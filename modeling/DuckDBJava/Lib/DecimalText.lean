/-
  Decimal numbers as text: an optional sign, digits, and optionally a point with more digits.

  `read` takes a text to the number its digits form and to the count of digits behind the point.
-/
import Mathlib.Algebra.Order.Ring.Int
import Mathlib.Data.Int.Notation
import Mathlib.Data.List.TakeWhile
import Mathlib.Tactic.Common

namespace DecimalText

/-- Only digits. -/
def Digits (cs : List Char) : Prop := ∀ c ∈ cs, c.isDigit = true

/-- The number with these digits. -/
def value (cs : List Char) : ℕ := Nat.ofDigitChars 10 cs 0

/-- A number without sign. -/
def readUnsigned (cs : List Char) : Option (ℕ × ℕ) :=
  let whole := cs.takeWhile Char.isDigit
  if whole = [] then none
  else
    match cs.dropWhile Char.isDigit with
    | [] => some (value whole, 0)
    | c :: frac =>
      if c = '.' ∧ frac.all Char.isDigit = true then some (value (whole ++ frac), frac.length)
      else none

/-- A number: the one its digits form, and how many are behind the point. -/
def read : List Char → Option (ℤ × ℕ)
  | [] => none
  | c :: cs =>
    if c = '-' then (readUnsigned cs).map fun x => (-(x.1 : ℤ), x.2)
    else (readUnsigned (c :: cs)).map fun x => ((x.1 : ℤ), x.2)

variable {whole frac cs : List Char}

theorem digits_toDigits (n : ℕ) : Digits (Nat.toDigits 10 n) := fun _ h =>
  Nat.isDigit_of_mem_toDigits (by decide) (by decide) h

theorem toDigits_ne_nil (n : ℕ) : Nat.toDigits 10 n ≠ [] :=
  List.ne_nil_of_length_pos Nat.length_toDigits_pos

theorem value_toDigits (n : ℕ) : value (Nat.toDigits 10 n) = n := Nat.ofDigitChars_ten_toDigits

/-- Zeros in front do not count. -/
theorem value_zeros_append (k : ℕ) (cs : List Char) :
    value (List.replicate k '0' ++ cs) = value cs := by
  rw [value, Nat.ofDigitChars_append, Nat.ofDigitChars_replicate_zero, Nat.mul_zero]
  rfl

theorem readUnsigned_whole (h : Digits whole) (hne : whole ≠ []) :
    readUnsigned whole = some (value whole, 0) := by
  have htake : whole.takeWhile Char.isDigit = whole := List.takeWhile_eq_self_iff.2 h
  have hdrop : whole.dropWhile Char.isDigit = [] := List.dropWhile_eq_nil_iff.2 h
  rw [readUnsigned, htake, hdrop, if_neg hne]

theorem readUnsigned_point (h : Digits whole) (hne : whole ≠ []) (hf : Digits frac) :
    readUnsigned (whole ++ '.' :: frac) = some (value (whole ++ frac), frac.length) := by
  have htake : (whole ++ '.' :: frac).takeWhile Char.isDigit = whole := by
    rw [List.takeWhile_append_of_pos h]
    simp
  have hdrop : (whole ++ '.' :: frac).dropWhile Char.isDigit = '.' :: frac := by
    rw [List.dropWhile_append_of_pos h]
    simp
  have hall : frac.all Char.isDigit = true := List.all_eq_true.2 hf
  rw [readUnsigned, htake, hdrop, if_neg hne]
  simp [hall]

/-- A number that is read has a digit in front. -/
theorem read_of_unsigned {x : ℕ × ℕ} (h : readUnsigned cs = some x) :
    read cs = some ((x.1 : ℤ), x.2) := by
  cases cs with
  | nil => cases h
  | cons c cs =>
    have hc : c ≠ '-' := by
      rintro rfl
      simp [readUnsigned] at h
    rw [read, if_neg hc, h]
    rfl

theorem read_neg {x : ℕ × ℕ} (h : readUnsigned cs = some x) :
    read ('-' :: cs) = some (-(x.1 : ℤ), x.2) := by
  rw [read, if_pos rfl, h]
  rfl

end DecimalText
