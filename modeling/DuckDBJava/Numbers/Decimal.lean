/-
  DECIMAL cells: `putDecimal` of a `BigDecimal` and `getBigDecimal`.

  **`decimal_round_trip`**: a `BigDecimal` is accepted iff it has the scale of the column and fits
  its width; what is stored is read back as the same `BigDecimal`.
-/
import DuckDBJava.Numbers.HugeInt
import Mathlib.Tactic.SplitIfs

namespace DuckDBJava

open Exec PathTree Bytes

/-! ## BigDecimal -/

/-- `java.math.BigDecimal`: `unscaled * 10 ^ -scale`. -/
structure BigDecimal where
  unscaled : ℤ
  scale : ℤ
  deriving DecidableEq

namespace BigDecimal

/-- `new BigDecimal(n)` -/
def ofInt (n : ℤ) : BigDecimal := ⟨n, 0⟩

def multiply (a b : BigDecimal) : BigDecimal := ⟨a.unscaled * b.unscaled, a.scale + b.scale⟩

/-- The scale of the sum is the larger one. -/
def add (a b : BigDecimal) : BigDecimal :=
  let scale := max a.scale b.scale
  ⟨a.unscaled * 10 ^ (scale - a.scale).toNat + b.unscaled * 10 ^ (scale - b.scale).toNat, scale⟩

def scaleByPowerOfTen (a : BigDecimal) (n : ℤ) : BigDecimal := ⟨a.unscaled, a.scale - n⟩

def precision (a : BigDecimal) : ℕ := DuckDBJava.precision a.unscaled

theorem add_of_scale_eq {a b : BigDecimal} (h : a.scale = b.scale) :
    a.add b = ⟨a.unscaled + b.unscaled, a.scale⟩ := by
  simp [add, h]

end BigDecimal

/-- `ULONG_MULTIPLIER` -/
def ulongMultiplier : BigDecimal := .ofInt (2 ^ 64)

/-- `getBigDecimal` of a slot of a DECIMAL column, by `type_size`. -/
def getBigDecimal (internalType : CAPIType) (scale : ℕ) (bits : ℕ) : Option BigDecimal :=
  match internalType with
  | .smallint => some ((BigDecimal.ofInt (signed 2 bits)).scaleByPowerOfTen (scale * -1))
  | .integer => some ((BigDecimal.ofInt (signed 4 bits)).scaleByPowerOfTen (scale * -1))
  | .bigint => some ((BigDecimal.ofInt (signed 8 bits)).scaleByPowerOfTen (scale * -1))
  | .hugeint =>
    let lower := signed 8 bits
    let upper := signed 8 (bits / 256 ^ 8)
    -- `Long.toUnsignedString`
    let unsignedLower := lower % 2 ^ 64
    some ((((BigDecimal.ofInt upper).multiply ulongMultiplier).add
      (.ofInt unsignedLower)).scaleByPowerOfTen (scale * -1))
  | _ => none

/-- `getObject` returns it too. -/
theorem decimalObject_eq (t : CAPIType) (scale bits : ℕ) : decimalObject t scale bits =
    match getBigDecimal t scale bits with
    | some v => .ok (.bigDecimal v.unscaled scale)
    | none => .error .engine := by
  cases t with
  | hugeint =>
    have hpow : (256 : ℕ) ^ 8 = 2 ^ 64 := by norm_num
    have hlow : signed 8 bits % 2 ^ 64 = unsigned 8 bits := by
      rw [signed, unsigned, hpow]
      have hmod : (bits : ℤ).bmod (2 ^ 64) % 2 ^ 64 = bits % 2 ^ 64 := Int.bmod_emod ..
      omega
    simp only [decimalObject, getBigDecimal, BigDecimal.multiply, ulongMultiplier,
      BigDecimal.ofInt, hlow, hpow]
    rw [BigDecimal.add_of_scale_eq (by rfl)]
    rfl
  | smallint | integer | bigint => simp only [decimalObject, getBigDecimal, BigDecimal.ofInt,
      BigDecimal.scaleByPowerOfTen]
  | _ => rfl

/-! ## Widths -/

theorem precision_le_iff {u : ℤ} {p : ℕ} (hp : 1 ≤ p) : precision u ≤ p ↔ u.natAbs < 10 ^ p := by
  obtain ⟨q, rfl⟩ : ∃ q, p = q + 1 := ⟨p - 1, by omega⟩
  rw [precision, Nat.add_le_add_iff_right, ← Nat.lt_succ_iff]
  exact ⟨Nat.lt_pow_of_log_lt (by decide), Nat.log_lt_of_lt_pow' (by omega)⟩

/-- The physical type of a DECIMAL of that width. -/
def internalTypeOf (width : ℕ) : CAPIType :=
  if width ≤ 4 then .smallint else if width ≤ 9 then .integer else if width ≤ 18 then .bigint
  else .hugeint

theorem internalTypeOf_cases (width : ℕ) :
    (width ≤ 4 ∧ internalTypeOf width = .smallint) ∨ (width ≤ 9 ∧ internalTypeOf width = .integer) ∨
      (width ≤ 18 ∧ internalTypeOf width = .bigint) ∨ internalTypeOf width = .hugeint := by
  unfold internalTypeOf
  split_ifs with h4 h9 h18
  · exact .inl ⟨h4, rfl⟩
  · exact .inr (.inl ⟨h9, rfl⟩)
  · exact .inr (.inr (.inl ⟨h18, rfl⟩))
  · exact .inr (.inr (.inr rfl))

/-- The physical type holds every number of the width. -/
theorem lt_of_natAbs_lt {u : ℤ} {p q n : ℕ} (hu : u.natAbs < 10 ^ p) (hpq : p ≤ q)
    (hq : 10 ^ q ≤ n) : -(n : ℤ) < u ∧ u < n := by
  have hlt : u.natAbs < n := hu.trans_le ((Nat.pow_le_pow_right (by decide) hpq).trans hq)
  omega

/-! ## Cells -/

section
variable {u sc : ℤ} {width scale : ℕ}

theorem valueExact_of_mem {n : ℕ} (hlo : -2 ^ (n - 1) ≤ u) (hhi : u < 2 ^ (n - 1)) :
    valueExact n u = .ok (.fixed (BitVec.ofInt n u).toNat) := if_pos ⟨hlo, hhi⟩

theorem scaleByPowerOfTen_ofInt (n : ℤ) (scale : ℕ) :
    (BigDecimal.ofInt n).scaleByPowerOfTen (scale * -1) = ⟨n, scale⟩ := by
  simp [BigDecimal.ofInt, BigDecimal.scaleByPowerOfTen]

/-- The 128-bit reader joins the two longs again. -/
theorem getBigDecimal_hugeInt (hlo : -2 ^ 127 ≤ u) (hhi : u < 2 ^ 127) (scale : ℕ) :
    getBigDecimal .hugeint scale (hugeIntBits u) = some ⟨u, scale⟩ := by
  have hlower := toNat_longValue u
  have hupper := toNat_longValue (u / 2 ^ 64)
  have hlt := (longValue u).isLt
  have hpow : (256 : ℕ) ^ 8 = 2 ^ 64 := by norm_num
  have hsplit : hugeIntBits u / 2 ^ 64 = (longValue (u / 2 ^ 64)).toNat := by
    rw [hugeIntBits, Nat.add_mul_div_left _ _ (by decide), Nat.div_eq_of_lt hlt, Nat.zero_add]
  have hhigh : signed 8 (hugeIntBits u / 256 ^ 8) = u / 2 ^ 64 := by
    rw [hpow, hsplit, signed, hupper, hpow]
    exact bmod_emod_eq (by push_cast; omega) (by push_cast; omega)
  have hlow : signed 8 (hugeIntBits u) % 2 ^ 64 = u % 2 ^ 64 := by
    have hmod : (u % 2 ^ 128).bmod (2 ^ 64) % 2 ^ 64 = u % 2 ^ 128 % 2 ^ 64 := Int.bmod_emod ..
    rw [signed, hpow, hugeIntBits_eq, hmod]
    omega
  simp only [getBigDecimal, hhigh, hlow, BigDecimal.multiply, ulongMultiplier, BigDecimal.ofInt]
  rw [BigDecimal.add_of_scale_eq (by rfl), BigDecimal.scaleByPowerOfTen]
  refine congrArg some ?_
  simp only [BigDecimal.mk.injEq]
  omega

theorem checkDecimalPrecision_ok {t : CAPIType} {q : ℕ} (h : precision u ≤ q) :
    checkDecimalPrecision u t q = .ok () := if_neg (not_lt.2 h)

/-- The two checks of `putDecimal`. -/
theorem decimalCell_checked (t : CAPIType) (hp : precision u ≤ width) :
    decimalCell t width scale u scale = match t with
      | .smallint => do checkDecimalPrecision u .smallint 4; valueExact 16 u
      | .integer => do checkDecimalPrecision u .integer 9; valueExact 32 u
      | .bigint => do checkDecimalPrecision u .bigint 18; valueExact 64 u
      | .hugeint => do
        checkDecimalPrecision u .hugeint 38
        return hugeIntCell (longValue u) (longValue (u / 2 ^ 64))
      | t => throw (.sql (.invalidDecimalInternalType t)) := by
  have hscale : ¬ (scale : ℤ) ≠ scale := not_not.2 rfl
  exact (if_neg (not_lt.2 hp)).trans (if_neg hscale)

/-- **An accepted `BigDecimal`** is stored so that it is read back. -/
theorem decimalCell_ok (h1 : 1 ≤ width) (h38 : width ≤ 38) (hp : precision u ≤ width) :
    ∃ bits, decimalCell (internalTypeOf width) width scale u scale = .ok (.fixed bits) ∧
      getBigDecimal (internalTypeOf width) scale bits = some ⟨u, scale⟩ := by
  have hu := (precision_le_iff h1).1 hp
  rw [decimalCell_checked _ hp]
  rcases internalTypeOf_cases width with ⟨h4, ht⟩ | ⟨h9, ht⟩ | ⟨h18, ht⟩ | ht
  · obtain ⟨hlo, hhi⟩ := lt_of_natAbs_lt (n := 2 ^ 15) hu h4 (by decide)
    push_cast at hlo hhi
    rw [ht]
    refine ⟨(BitVec.ofInt 16 u).toNat, ?_, ?_⟩
    · simp only [checkDecimalPrecision_ok (hp.trans h4)]
      exact valueExact_of_mem (by omega) (by omega)
    · simp only [getBigDecimal]
      rw [signed_ofInt (by decide) (by push_cast; omega) (by push_cast; omega),
        scaleByPowerOfTen_ofInt]
  · obtain ⟨hlo, hhi⟩ := lt_of_natAbs_lt (n := 2 ^ 31) hu h9 (by decide)
    push_cast at hlo hhi
    rw [ht]
    refine ⟨(BitVec.ofInt 32 u).toNat, ?_, ?_⟩
    · simp only [checkDecimalPrecision_ok (hp.trans h9)]
      exact valueExact_of_mem (by omega) (by omega)
    · simp only [getBigDecimal]
      rw [signed_ofInt (by decide) (by push_cast; omega) (by push_cast; omega),
        scaleByPowerOfTen_ofInt]
  · obtain ⟨hlo, hhi⟩ := lt_of_natAbs_lt (n := 2 ^ 63) hu h18 (by decide)
    push_cast at hlo hhi
    rw [ht]
    refine ⟨(BitVec.ofInt 64 u).toNat, ?_, ?_⟩
    · simp only [checkDecimalPrecision_ok (hp.trans h18)]
      exact valueExact_of_mem (by omega) (by omega)
    · simp only [getBigDecimal]
      rw [signed_ofInt (by decide) (by push_cast; omega) (by push_cast; omega),
        scaleByPowerOfTen_ofInt]
  · obtain ⟨hlo, hhi⟩ := lt_of_natAbs_lt (n := 2 ^ 127) hu h38 (by decide)
    push_cast at hlo hhi
    rw [ht]
    refine ⟨hugeIntBits u, ?_, getBigDecimal_hugeInt (by omega) hhi scale⟩
    simp only [checkDecimalPrecision_ok (hp.trans h38)]
    rfl

/-- Any other one is rejected. -/
theorem decimalCell_error (t : CAPIType) (h : ¬ (precision u ≤ width ∧ (scale : ℤ) = sc)) :
    ∃ e, decimalCell t width scale u sc = .error (.sql e) := by
  by_cases hp : precision u ≤ width
  · have hs : (scale : ℤ) ≠ sc := fun hs => h ⟨hp, hs⟩
    unfold decimalCell
    rw [if_neg (not_lt.2 hp), if_pos hs]
    exact ⟨_, rfl⟩
  · unfold decimalCell
    rw [if_pos (not_le.1 hp)]
    exact ⟨_, rfl⟩

end

/-! ## One append -/

section
variable {cfg : Config} {s : Appender} {col : Column} {u sc : ℤ} {t : CAPIType} {width scale : ℕ}

theorem append_bigDecimal (hs : s.CanPut col) (hk : col.kind = .decimal t width scale)
    (hw : 0 < t.widthBytes) : append cfg (.bigDecimal (some (u, sc))) s =
      s.putResult cfg col (decimalCell t width scale u sc) := by
  have hwidth : col.kind.widthBytes = t.widthBytes := by
    rw [hk]
    rfl
  have ht : col.colType = .decimal := congrArg TypeKind.colType hk
  refine append_cell hs (by omega) fun v => ?_
  rw [write_apply (by simp [Append.types, ht]) rfl, hwidth]
  show Stored.put (s.env cfg) col s.rowIdx (.bigDecimal u sc) v = _
  rw [Stored.put, hk]
  rfl

theorem internalTypeOf_widthBytes (width : ℕ) : 0 < (internalTypeOf width).widthBytes := by
  unfold internalTypeOf
  split
  · decide
  · split
    · decide
    · split <;> decide

/-- **DECIMAL round trip**: `append(v)` succeeds iff `v` has the scale of the column and at most
    its width, and then the cell is read as `v`; else it throws `SQLException`. -/
theorem decimal_round_trip (cfg : Config) (s : Appender) (col : Column) (v : BigDecimal)
    (width scale : ℕ) (h1 : 1 ≤ width) (h38 : width ≤ 38)
    (hk : col.kind = .decimal (internalTypeOf width) width scale) (hs : s.CanPut col) :
    match append cfg (.bigDecimal (some (v.unscaled, v.scale))) s with
    | .ok _ t => (v.precision ≤ width ∧ v.scale = scale) ∧ ∃ bits,
        cellAt t.chunk col s.rowIdx = some (.fixed bits) ∧
          getBigDecimal (internalTypeOf width) scale bits = some v
    | .error e _ => e.isSql = true ∧ ¬ (v.precision ≤ width ∧ v.scale = scale) := by
  rw [append_bigDecimal hs hk (internalTypeOf_widthBytes width)]
  by_cases hok : v.precision ≤ width ∧ v.scale = scale
  · obtain ⟨hp, hscale⟩ := hok
    obtain ⟨bits, hcell, hget⟩ : ∃ bits, decimalCell (internalTypeOf width) width scale v.unscaled
        scale = .ok (.fixed bits) ∧ _ := decimalCell_ok h1 h38 hp
    rw [hscale, hcell]
    refine ⟨⟨hp, rfl⟩, bits, cellAt_chunkWith .., ?_⟩
    rw [hget, ← hscale]
  · have hrejected : ¬ (DuckDBJava.precision v.unscaled ≤ width ∧ (scale : ℤ) = v.scale) :=
      fun h => hok ⟨h.1, h.2.symm⟩
    obtain ⟨e, he⟩ := decimalCell_error (internalTypeOf width) hrejected
    rw [he]
    exact ⟨rfl, hok⟩

end

/-- A table with one column DECIMAL(4, 1). -/
def decimalTable : Config :=
  .plain (.single (.node (.decimal .smallint 4 1) []) (.node ⟨rfl, by decide⟩ nofun))

/-- Its column. -/
def decimalColumn : Column := .top 0 (.node (.decimal .smallint 4 1) [])

/-- In the first row. -/
def decimalRow : Appender := { decimalTable.start with currentColumn := some decimalColumn }

theorem decimalRow_canPut : decimalRow.CanPut decimalColumn :=
  ⟨rfl, rfl, ⟨by decide +kernel, by decide +kernel, by decide +kernel⟩⟩

theorem decimal_round_trip_one :
    match append decimalTable (.bigDecimal (some (-9999, 1))) decimalRow with
    | .ok _ t => (BigDecimal.precision ⟨-9999, 1⟩ ≤ 4 ∧ (1 : ℤ) = (1 : ℕ)) ∧ ∃ bits,
        cellAt t.chunk decimalColumn 0 = some (.fixed bits) ∧
          getBigDecimal (internalTypeOf 4) 1 bits = some ⟨-9999, 1⟩
    | .error e _ =>
      e.isSql = true ∧ ¬ (BigDecimal.precision ⟨-9999, 1⟩ ≤ 4 ∧ (1 : ℤ) = (1 : ℕ)) :=
  decimal_round_trip decimalTable decimalRow decimalColumn ⟨-9999, 1⟩ 4 1 (by decide) (by decide)
    rfl decimalRow_canPut

end DuckDBJava
