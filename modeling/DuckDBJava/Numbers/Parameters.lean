/-
  A `BigDecimal` as a parameter: `create_value_from_bigdecimal`.

  **`bigdecimal_bound_iff`**: the value is rejected or bound as it is iff its scale is negative, or
  its precision and its scale are at most 38.  Beyond that the parameter is NULL.
-/
import DuckDBJava.Lib.DecimalText
import DuckDBJava.Numbers.Decimal
import Mathlib.Algebra.Order.Field.Rat

namespace DuckDBJava

open DecimalText

namespace BigDecimal

/-- The number. -/
def toRat (a : BigDecimal) : ℚ := a.unscaled * (10 : ℚ) ^ (-a.scale)

/-- `toBigInteger`: the fraction is discarded. -/
def toBigInteger (a : BigDecimal) : ℤ :=
  if 0 ≤ a.scale then a.unscaled.tdiv (10 ^ a.scale.toNat)
  else a.unscaled * 10 ^ (-a.scale).toNat

/-- `longValue`: the low 64 bits. -/
def longValue (a : BigDecimal) : BitVec 64 := DuckDBJava.longValue a.toBigInteger

/-- The sign of `toPlainString`. -/
def signChars (a : BigDecimal) : List Char := if a.unscaled < 0 then ['-'] else []

/-- `toPlainString` -/
def toPlainString (a : BigDecimal) : List Char :=
  let digits := Nat.toDigits 10 a.unscaled.natAbs
  if a.scale = 0 then a.signChars ++ digits
  else if a.scale < 0 then
    if a.unscaled = 0 then ['0'] else a.signChars ++ digits ++ List.replicate a.scale.natAbs '0'
  else
    let scale := a.scale.toNat
    if scale = digits.length then a.signChars ++ '0' :: '.' :: digits
    else if scale < digits.length then
      let insertionPoint := digits.length - scale
      a.signChars ++ digits.take insertionPoint ++ '.' :: digits.drop insertionPoint
    else a.signChars ++ '0' :: '.' :: (List.replicate (scale - digits.length) '0' ++ digits)

end BigDecimal

/-- A `duckdb::Value` of type DECIMAL, or NULL. -/
inductive DecimalValue where
  | null
  | decimal (unscaled : ℤ) (width scale : ℕ)
  deriving DecidableEq

/-- What the binding throws. -/
inductive BindError where
  /-- "Converting from a BigDecimal with negative scale is not supported" -/
  | negativeScale
  /-- the cast of the text fails -/
  | cast
  deriving DecidableEq

/-- The cast of a VARCHAR to `DECIMAL(width, scale)`: the unscaled value. -/
abbrev DecimalCast := List Char → ℕ → ℕ → Except BindError ℤ

/-- The cast of a text is exact, or throws. -/
def DecimalCast.Exact (cast : DecimalCast) : Prop :=
  ∀ text (width scale : ℕ) unscaled digits (k : ℕ), cast text width scale = .ok unscaled →
    read text = some (digits, k) →
      BigDecimal.toRat ⟨unscaled, scale⟩ = BigDecimal.toRat ⟨digits, k⟩

/-- `create_value_from_bigdecimal` -/
def createValueFromBigDecimal (cast : DecimalCast) (decimal : BigDecimal) :
    Except BindError DecimalValue :=
  let scale := decimal.scale
  let precision : ℤ := if scale > decimal.precision then scale else decimal.precision
  if scale < 0 then .error .negativeScale
  else if precision ≤ 18 then
    let noPointDec := decimal.scaleByPowerOfTen scale
    let result := noPointDec.longValue
    .ok (.decimal result.toInt (precision.toNat % 2 ^ 8) (scale.toNat % 2 ^ 8))
  else if precision ≤ 38 then do
    let unscaled ← cast decimal.toPlainString precision.toNat scale.toNat
    return .decimal unscaled precision.toNat scale.toNat
  else .ok .null

/-! ## Text -/

theorem read_signChars {v : BigDecimal} {body : List Char} {k : ℕ}
    (h : readUnsigned body = some (v.unscaled.natAbs, k)) :
    read (v.signChars ++ body) = some (v.unscaled, k) := by
  unfold BigDecimal.signChars
  split
  · next hneg =>
    rw [List.singleton_append, read_neg h]
    have habs : -(v.unscaled.natAbs : ℤ) = v.unscaled := by omega
    rw [habs]
  · next hpos =>
    rw [List.nil_append, read_of_unsigned h]
    have habs : (v.unscaled.natAbs : ℤ) = v.unscaled := by omega
    rw [habs]

/-- The text is read as the number itself. -/
theorem read_toPlainString {v : BigDecimal} (h : 0 ≤ v.scale) :
    read v.toPlainString = some (v.unscaled, v.scale.toNat) := by
  have hdigits := digits_toDigits v.unscaled.natAbs
  have hne := toDigits_ne_nil v.unscaled.natAbs
  have hvalue := value_toDigits v.unscaled.natAbs
  have hzero : Digits ['0'] := by
    intro c hc
    rw [List.mem_singleton.1 hc]
    rfl
  unfold BigDecimal.toPlainString
  generalize Nat.toDigits 10 v.unscaled.natAbs = digits at hdigits hne hvalue
  dsimp only
  split
  · next hscale =>
    rw [read_signChars (by rw [readUnsigned_whole hdigits hne, hvalue]), hscale]
    rfl
  · rw [if_neg (not_lt.2 h)]
    split
    · next hlen =>
      refine read_signChars ?_
      have hpoint := readUnsigned_point hzero (List.cons_ne_nil _ _) hdigits
      have hval : value (['0'] ++ digits) = value digits := value_zeros_append 1 digits
      rw [hval, hvalue, ← hlen] at hpoint
      exact hpoint
    · split
      · next hlt =>
        rw [List.append_assoc]
        refine read_signChars ?_
        have hsplit : digits.take (digits.length - v.scale.toNat) ++
            digits.drop (digits.length - v.scale.toNat) = digits := List.take_append_drop ..
        have hwhole : digits.take (digits.length - v.scale.toNat) ≠ [] := by
          rw [ne_eq, List.take_eq_nil_iff]
          rintro (hnone | hnil)
          · exact absurd (Nat.sub_eq_zero_iff_le.1 hnone) (not_le.2 hlt)
          · exact hne hnil
        have hlen : (digits.drop (digits.length - v.scale.toNat)).length = v.scale.toNat := by
          rw [List.length_drop]
          exact Nat.sub_sub_self hlt.le
        rw [readUnsigned_point (fun c hc => hdigits c (List.mem_of_mem_take hc)) hwhole
          fun c hc => hdigits c (List.mem_of_mem_drop hc), hsplit, hvalue, hlen]
      · next hne' hge =>
        refine read_signChars ?_
        have hzeros : Digits (List.replicate (v.scale.toNat - digits.length) '0' ++ digits) := by
          intro c hc
          rcases List.mem_append.1 hc with hc | hc
          · rw [List.eq_of_mem_replicate hc]
            rfl
          · exact hdigits c hc
        have hpoint := readUnsigned_point hzero (List.cons_ne_nil _ _) hzeros
        have hval : value (['0'] ++
            (List.replicate (v.scale.toNat - digits.length) '0' ++ digits)) = value digits :=
          (value_zeros_append 1 _).trans (value_zeros_append _ digits)
        have hlen : (List.replicate (v.scale.toNat - digits.length) '0' ++ digits).length =
            v.scale.toNat := by
          rw [List.length_append, List.length_replicate]
          omega
        rw [hval, hvalue, hlen] at hpoint
        exact hpoint

/-! ## Parameters -/

/-- The 64-bit case keeps the number. -/
theorem longValue_noPoint {v : BigDecimal} (h : v.precision ≤ 18) :
    (v.scaleByPowerOfTen v.scale).longValue.toInt = v.unscaled := by
  have hu := (precision_le_iff (by decide)).1 h
  obtain ⟨hlo, hhi⟩ := lt_of_natAbs_lt (n := 2 ^ 63) hu le_rfl (by decide)
  push_cast at hlo hhi
  have hint : (v.scaleByPowerOfTen v.scale).toBigInteger = v.unscaled := by
    simp [BigDecimal.toBigInteger, BigDecimal.scaleByPowerOfTen]
  rw [BigDecimal.longValue, hint, longValue, BitVec.toInt_ofInt]
  exact Int.bmod_eq_of_le (by push_cast; omega) (by push_cast; omega)

section
variable {cast : DecimalCast} {v : BigDecimal}

/-- The width of the parameter. -/
def BigDecimal.width (v : BigDecimal) : ℕ := max v.precision v.scale.toNat

theorem width_eq (h : 0 ≤ v.scale) :
    (if v.scale > v.precision then v.scale else (v.precision : ℤ)) = v.width := by
  unfold BigDecimal.width
  split <;> omega

theorem create_of_neg (h : v.scale < 0) :
    createValueFromBigDecimal cast v = .error .negativeScale := if_pos h

theorem create_of_small (h : 0 ≤ v.scale) (h18 : v.width ≤ 18) :
    createValueFromBigDecimal cast v = .ok (.decimal v.unscaled v.width v.scale.toNat) := by
  have hp : v.precision ≤ 18 := (Nat.le_max_left ..).trans h18
  have hs : v.scale.toNat ≤ 18 := (Nat.le_max_right ..).trans h18
  unfold createValueFromBigDecimal
  simp only [width_eq h, longValue_noPoint hp]
  rw [if_neg (not_lt.2 h), if_pos (by exact_mod_cast h18), Int.toNat_natCast,
    Nat.mod_eq_of_lt (by omega), Nat.mod_eq_of_lt (by omega)]

theorem create_of_text (h : 0 ≤ v.scale) (h18 : 18 < v.width) (h38 : v.width ≤ 38) :
    createValueFromBigDecimal cast v = (do
      let unscaled ← cast v.toPlainString v.width v.scale.toNat
      return .decimal unscaled v.width v.scale.toNat) := by
  unfold createValueFromBigDecimal
  simp only [width_eq h]
  rw [if_neg (not_lt.2 h), if_neg (by omega), if_pos (by exact_mod_cast h38), Int.toNat_natCast]

theorem create_of_large (h : 0 ≤ v.scale) (h38 : 38 < v.width) :
    createValueFromBigDecimal cast v = .ok .null := by
  unfold createValueFromBigDecimal
  simp only [width_eq h]
  rw [if_neg (not_lt.2 h), if_neg (by omega), if_neg (by omega)]

end

/-- The parameter is rejected, or it is the number with its scale. -/
def BindsExactly (cast : DecimalCast) (v : BigDecimal) : Prop :=
  match createValueFromBigDecimal cast v with
  | .error _ => True
  | .ok .null => False
  | .ok (.decimal unscaled width scale) =>
    BigDecimal.toRat ⟨unscaled, scale⟩ = v.toRat ∧ width ≤ 38 ∧ (scale : ℤ) = v.scale

/-- **Binding a `BigDecimal`** is exact, or throws, iff the scale is negative or neither precision
    nor scale exceeds 38. -/
theorem bigdecimal_bound_iff (cast : DecimalCast) (hcast : cast.Exact) (v : BigDecimal) :
    BindsExactly cast v ↔ v.scale < 0 ∨ v.precision ≤ 38 ∧ v.scale ≤ 38 := by
  by_cases hneg : v.scale < 0
  · rw [BindsExactly, create_of_neg hneg]
    exact ⟨fun _ => .inl hneg, fun _ => trivial⟩
  have h0 : 0 ≤ v.scale := not_lt.1 hneg
  have hscale : (v.scale.toNat : ℤ) = v.scale := Int.toNat_of_nonneg h0
  have hwidth : v.width ≤ 38 ↔ v.precision ≤ 38 ∧ v.scale ≤ 38 := by
    rw [BigDecimal.width, Nat.max_le]
    omega
  rw [or_iff_right hneg, ← hwidth]
  by_cases h18 : v.width ≤ 18
  · rw [BindsExactly, create_of_small h0 h18]
    refine iff_of_true ⟨?_, by omega, hscale⟩ (by omega)
    rw [hscale]
  by_cases h38 : v.width ≤ 38
  · rw [BindsExactly, create_of_text h0 (not_le.1 h18) h38]
    refine iff_of_true ?_ h38
    cases hc : cast v.toPlainString v.width v.scale.toNat with
    | error e => exact trivial
    | ok unscaled =>
      refine ⟨?_, h38, hscale⟩
      rw [hcast _ _ _ _ _ _ hc (read_toPlainString h0), hscale]
  · rw [BindsExactly, create_of_large h0 (not_le.1 h38)]
    exact iff_of_false id h38

/-! ## A cast -/

/-- The cast that takes the texts with as many digits behind the point as the type has. -/
def castSameScale : DecimalCast := fun text width scale =>
  match read text with
  | some (digits, k) => if k = scale ∧ digits.natAbs < 10 ^ width then .ok digits else .error .cast
  | none => .error .cast

theorem castSameScale_exact : castSameScale.Exact := by
  intro text width scale unscaled digits k hc hr
  rw [castSameScale, hr] at hc
  dsimp only at hc
  split at hc
  · next h =>
    cases hc
    rw [h.1]
  · cases hc

theorem bigdecimal_bound_ulong : BindsExactly castSameScale ⟨18446744073709551615, 2⟩ :=
  (bigdecimal_bound_iff castSameScale castSameScale_exact ⟨18446744073709551615, 2⟩).2
    (.inr ⟨by decide +kernel, by decide⟩)

/-- A number of 39 digits is bound as NULL. -/
theorem bigdecimal_bound_as_null : ¬ ∀ cast : DecimalCast, cast.Exact → ∀ v : BigDecimal,
    BindsExactly cast v := by
  intro h
  have hnull := h castSameScale castSameScale_exact ⟨10 ^ 38, 0⟩
  have hwidth : 38 < BigDecimal.width ⟨10 ^ 38, 0⟩ := by decide +kernel
  rw [BindsExactly, create_of_large le_rfl hwidth] at hnull
  exact hnull

end DuckDBJava
