/-
  128-bit integers: `putBigInteger` and `DuckDBHugeInt` split a `BigInteger` into two `long`s,
  `getHugeint` and `getUhugeint` join the 16 bytes of a slot.

  **`int128_round_trip_iff`**: a HUGEINT is always read back as it was appended; an UHUGEINT is
  unless it is negative within the range of a HUGEINT, or above that range.  The range check of
  `putBigInteger` is that of HUGEINT for both types.
-/
import DuckDBJava.Lib.TwosComplement
import DuckDBJava.Appender.Slots
import DuckDBJava.Result.Vectors

namespace DuckDBJava

open Exec PathTree Bytes

/-! ## Two longs -/

/-- `HUGE_INT_MIN` -/
def hugeIntMin : ℤ := -2 ^ 127

/-- `HUGE_INT_MAX` -/
def hugeIntMax : ℤ := 2 ^ 127 - 1

/-- The errors of the constructor of `DuckDBHugeInt`. -/
inductive HugeIntError where
  | isNull
  | outOfRange
  deriving DecidableEq

/-- `DuckDBHugeInt`. -/
structure DuckDBHugeInt where
  lower : BitVec 64
  upper : BitVec 64
  deriving DecidableEq

/-- `new DuckDBHugeInt(bi)` -/
def DuckDBHugeInt.new : Option ℤ → Except HugeIntError DuckDBHugeInt
  | none => .error .isNull
  | some bi =>
    if bi < hugeIntMin ∨ hugeIntMax < bi then .error .outOfRange
    else .ok ⟨longValue bi, longValue (bi / 2 ^ 64)⟩

/-- The number that two longs stand for. -/
def DuckDBHugeInt.value (h : DuckDBHugeInt) : ℤ := h.upper.toInt * 2 ^ 64 + h.lower.toNat

theorem toNat_longValue (v : ℤ) : ((longValue v).toNat : ℤ) = v % 2 ^ 64 := by
  rw [longValue, BitVec.toNat_ofInt]
  omega

/-- The two longs as an unsigned number. -/
theorem halves_emod (v : ℤ) :
    v % 2 ^ 64 + 2 ^ 64 * (v / 2 ^ 64 % 2 ^ 64) = v % 2 ^ 128 := by
  omega

/-- **Parameters**: the two longs stand for the number. -/
theorem DuckDBHugeInt.value_new {v : ℤ} (hlo : hugeIntMin ≤ v) (hhi : v ≤ hugeIntMax) :
    ∃ h, DuckDBHugeInt.new (some v) = .ok h ∧ h.value = v := by
  unfold hugeIntMin at hlo
  unfold hugeIntMax at hhi
  refine ⟨⟨longValue v, longValue (v / 2 ^ 64)⟩,
    if_neg (by unfold hugeIntMin hugeIntMax; omega), ?_⟩
  have hlower := toNat_longValue v
  have hupper : (longValue (v / 2 ^ 64)).toInt = v / 2 ^ 64 := by
    rw [longValue, BitVec.toInt_ofInt]
    exact Int.bmod_eq_of_le (by omega) (by omega)
  rw [value, hlower, hupper]
  omega

/-! ## Sixteen bytes -/

/-- The loop of `getHugeint` and `getUhugeint`, and the new `byte[]` before it. -/
def bigEndian (buf : List UInt8) : List UInt8 := swaps 0 16 8 buf

/-- `getHugeint` of the 16 bytes of a slot: `new BigInteger(buf)`. -/
def getHugeint (buf : List UInt8) : ℤ := signedBE (bigEndian buf)

/-- `getUhugeint` of the 16 bytes of a slot: `new BigInteger(1, buf)`. -/
def getUhugeint (buf : List UInt8) : ℤ := ofBE (bigEndian buf)

/-- The low bytes of a number in the signed range. -/
theorem signed_ofInt {u : ℤ} {w n : ℕ} (hn : 2 ^ n = 256 ^ w) (hlo : -(2 ^ n : ℕ) ≤ 2 * u)
    (hhi : 2 * u < (2 ^ n : ℕ)) : signed w (BitVec.ofInt n u).toNat = u := by
  have hnat : ((BitVec.ofInt n u).toNat : ℤ) = u % (2 ^ n : ℕ) := by
    rw [BitVec.toNat_ofInt]
    exact Int.toNat_of_nonneg (Int.emod_nonneg _ (by exact_mod_cast (Nat.two_pow_pos n).ne'))
  rw [signed, hnat, ← hn]
  exact bmod_emod_eq hlo hhi

theorem bigEndian_le (bits : ℕ) : bigEndian (le 16 bits) = (le 16 bits).reverse := by
  have h : swaps 0 (le 16 bits).length 8 (le 16 bits) = _ := swaps_eq_reverse (length_le ..)
  rwa [length_le] at h

theorem getHugeint_le (bits : ℕ) : getHugeint (le 16 bits) = signed 16 bits := by
  rw [getHugeint, bigEndian_le, signedBE_reverse_le, signed]

theorem getUhugeint_le (bits : ℕ) : getUhugeint (le 16 bits) = unsigned 16 bits := by
  rw [getUhugeint, bigEndian_le, ofBE_reverse_le, unsigned]

/-- The 16 bytes of the cell are those of `putLong(lower); putLong(upper)`. -/
theorem le_hugeInt (lower upper : BitVec 64) :
    le 16 (lower.toNat + 2 ^ 64 * upper.toNat) = le 8 lower.toNat ++ le 8 upper.toNat := by
  have hpow : (2 : ℕ) ^ 64 = 256 ^ 8 := by norm_num
  have hlower : lower.toNat < 256 ^ 8 := hpow ▸ lower.isLt
  rw [hpow, le_add 8 8, le_add_mul, Nat.add_mul_div_left _ _ (by decide),
    Nat.div_eq_of_lt hlower, Nat.zero_add]

/-! ## The column types -/

/-- The numbers of the type. -/
def inInt128Range : CAPIType → ℤ → Prop
  | .hugeint, v => -2 ^ 127 ≤ v ∧ v ≤ 2 ^ 127 - 1
  | .uhugeint, v => 0 ≤ v ∧ v ≤ 2 ^ 128 - 1
  | _, _ => False

/-- The reader of the type. -/
def getInt128 : CAPIType → List UInt8 → ℤ
  | .hugeint => getHugeint
  | _ => getUhugeint

/-- The bits `putBigInteger` stores. -/
def hugeIntBits (v : ℤ) : ℕ := (longValue v).toNat + 2 ^ 64 * (longValue (v / 2 ^ 64)).toNat

theorem hugeIntBits_eq (v : ℤ) : (hugeIntBits v : ℤ) = v % 2 ^ 128 := by
  have hlower := toNat_longValue v
  have hupper := toNat_longValue (v / 2 ^ 64)
  rw [← halves_emod, hugeIntBits]
  omega

theorem bigIntegerCell_eq (v : ℤ) : bigIntegerCell v =
    if v < -2 ^ 127 ∨ 2 ^ 127 - 1 < v then .error (.sql .bigIntegerOutOfRange)
    else .ok (.fixed (hugeIntBits v)) := rfl

/-- What is read of the bits. -/
theorem getInt128_hugeIntBits (t : CAPIType) (v : ℤ) : getInt128 t (le 16 (hugeIntBits v)) =
    if t = .hugeint then v.bmod (2 ^ 128) else v % 2 ^ 128 := by
  have hpow : (256 : ℕ) ^ 16 = 2 ^ 128 := by norm_num
  split
  · next ht =>
    rw [ht, getInt128, getHugeint_le, signed, hugeIntBits_eq, hpow]
    exact Int.emod_bmod ..
  · next ht =>
    have hget : getInt128 t = getUhugeint := by
      cases t <;> first | rfl | exact absurd rfl ht
    have hlt : hugeIntBits v < 2 ^ 128 := by
      have := hugeIntBits_eq v
      omega
    rw [hget, getUhugeint_le, unsigned, hpow, Nat.mod_eq_of_lt hlt, hugeIntBits_eq]

/-! ## The claims on one append -/

section
variable (cfg : Config) (s : Appender) (col : Column) (v : ℤ)

/-- `append(v)` throws `SQLException` for a number out of the range of the type, else it stores 16
    bytes that are read as `v`. -/
def AppendsInt128 : Prop :=
  match append cfg (.bigInteger (some v)) s with
  | .ok _ t => inInt128Range col.colType v ∧ ∃ bits,
      cellAt t.chunk col s.rowIdx = some (.fixed bits) ∧ getInt128 col.colType (le 16 bits) = v
  | .error e _ => e.isSql = true ∧ ¬ inInt128Range col.colType v

/-- A parameter in the range of HUGEINT stands for the number. -/
def BindsInt128 : Prop := inInt128Range .hugeint v →
  ∃ h, DuckDBHugeInt.new (some v) = .ok h ∧ h.value = v

variable {cfg s col v}

theorem append_bigInteger (hs : s.CanPut col)
    (ht : col.colType = .hugeint ∨ col.colType = .uhugeint) :
    append cfg (.bigInteger (some v)) s = s.putResult cfg col (bigIntegerCell v) := by
  have hw : col.kind.widthBytes = col.colType.widthBytes := by
    rcases ht with ht | ht
    · exact Column.widthBytes_eq ht (by decide) (by decide)
    · exact Column.widthBytes_eq ht (by decide) (by decide)
  refine append_fixed hs (by simpa [Append.types] using ht) rfl rfl hw ?_
  rcases ht with ht | ht <;> rw [ht] <;> decide

/-- What an append does to a number in the range of HUGEINT. -/
theorem appendsInt128_of_mem (hs : s.CanPut col)
    (ht : col.colType = .hugeint ∨ col.colType = .uhugeint) (hlo : -2 ^ 127 ≤ v)
    (hhi : v ≤ 2 ^ 127 - 1) :
    AppendsInt128 cfg s col v ↔ (col.colType = .uhugeint → 0 ≤ v) := by
  have hcell : bigIntegerCell v = .ok (.fixed (hugeIntBits v)) := by
    rw [bigIntegerCell_eq, if_neg (by omega)]
  have happend : append cfg (.bigInteger (some v)) s = _ := append_bigInteger hs ht
  rw [hcell] at happend
  have hslot : cellAt (s.supplied cfg col (s.chunkWith col (.fixed (hugeIntBits v)))).chunk col
      s.rowIdx = some (.fixed (hugeIntBits v)) := cellAt_chunkWith ..
  rw [AppendsInt128, happend]
  show inInt128Range col.colType v ∧ (∃ bits, cellAt _ col s.rowIdx = some (.fixed bits) ∧ _) ↔ _
  rw [hslot]
  have hbits : (∃ bits, some (Cell.fixed (hugeIntBits v)) = some (.fixed bits) ∧
      getInt128 col.colType (le 16 bits) = v) ↔
      (if col.colType = .hugeint then v.bmod (2 ^ 128) else v % 2 ^ 128) = v := by
    rw [← getInt128_hugeIntBits]
    constructor
    · rintro ⟨bits, heq, hget⟩
      cases heq
      exact hget
    · exact fun h => ⟨_, rfl, h⟩
  rw [hbits]
  rcases ht with ht | ht
  · rw [ht, if_pos rfl]
    have hmod : v.bmod (2 ^ 128) = v := Int.bmod_eq_of_le (by omega) (by omega)
    exact ⟨fun _ h => (by cases h), fun _ => ⟨⟨hlo, hhi⟩, hmod⟩⟩
  · rw [ht, if_neg (by decide)]
    constructor
    · exact fun h _ => h.1.1
    · intro h
      have h0 := h rfl
      exact ⟨⟨h0, by omega⟩, Int.emod_eq_of_lt h0 (by omega)⟩

/-- Any other number is rejected. -/
theorem appendsInt128_of_not_mem (hs : s.CanPut col)
    (ht : col.colType = .hugeint ∨ col.colType = .uhugeint) (hv : v < -2 ^ 127 ∨ 2 ^ 127 - 1 < v) :
    AppendsInt128 cfg s col v ↔ (col.colType = .uhugeint → v < 0 ∨ 2 ^ 128 ≤ v) := by
  have hcell : bigIntegerCell v = .error (.sql .bigIntegerOutOfRange) := by
    rw [bigIntegerCell_eq, if_pos hv]
  have happend : append cfg (.bigInteger (some v)) s = _ := append_bigInteger hs ht
  rw [hcell] at happend
  rw [AppendsInt128, happend]
  show (true = true ∧ ¬ inInt128Range col.colType v) ↔ _
  rcases ht with ht | ht
  · rw [ht]
    refine ⟨fun _ h => (by cases h), fun _ => ⟨rfl, fun hin => ?_⟩⟩
    have hlo : -2 ^ 127 ≤ v := hin.1
    have hhi : v ≤ 2 ^ 127 - 1 := hin.2
    omega
  · rw [ht]
    have hrange : inInt128Range .uhugeint v ↔ 0 ≤ v ∧ v ≤ 2 ^ 128 - 1 := Iff.rfl
    rw [hrange]
    constructor
    · intro h _
      have := h.2
      omega
    · intro h
      have := h rfl
      exact ⟨rfl, by omega⟩

end

/-- **128-bit integers** are stored and bound as they are, and rejected when they are out of range,
    except for the numbers that one of the column types HUGEINT and UHUGEINT has and the other has
    not, in a column of type UHUGEINT. -/
theorem int128_round_trip_iff (cfg : Config) (s : Appender) (col : Column) (v : ℤ)
    (hs : s.CanPut col) (ht : col.colType = .hugeint ∨ col.colType = .uhugeint) :
    AppendsInt128 cfg s col v ∧ BindsInt128 v ↔
      (col.colType = .uhugeint → v < -2 ^ 127 ∨ 0 ≤ v ∧ v < 2 ^ 127 ∨ 2 ^ 128 ≤ v) := by
  have hbinds : BindsInt128 v := fun h => DuckDBHugeInt.value_new h.1 h.2
  rw [and_iff_left hbinds]
  by_cases hv : v < -2 ^ 127 ∨ 2 ^ 127 - 1 < v
  · rw [appendsInt128_of_not_mem hs ht hv]
    refine forall_congr' fun _ => ?_
    omega
  · rw [appendsInt128_of_mem hs ht (by omega) (by omega)]
    refine forall_congr' fun _ => ?_
    omega

/-! ## A UHUGEINT column -/

/-- A table with one UHUGEINT column. -/
def uhugeintTable : Config :=
  .plain (.single (.node (.scalar .uhugeint rfl) []) (LogicalType.scalar_wf _ _))

/-- Its column. -/
def uhugeintColumn : Column := .top 0 (.node (.scalar .uhugeint rfl) [])

/-- In the first row. -/
def uhugeintRow : Appender := { uhugeintTable.start with currentColumn := some uhugeintColumn }

theorem uhugeintRow_canPut : uhugeintRow.CanPut uhugeintColumn :=
  ⟨rfl, rfl, ⟨by decide +kernel, by decide +kernel, by decide +kernel⟩⟩

theorem int128_round_trip_one :
    AppendsInt128 uhugeintTable uhugeintRow uhugeintColumn 1 ∧ BindsInt128 1 :=
  (int128_round_trip_iff uhugeintTable uhugeintRow uhugeintColumn 1 uhugeintRow_canPut
    (.inr rfl)).2 fun _ => .inr (.inl (by decide))

/-- A negative number is accepted and read back as another. -/
theorem uhugeint_minus_one : ¬ ∀ (cfg : Config) (s : Appender) (col : Column) (v : ℤ),
    s.CanPut col → (col.colType = .hugeint ∨ col.colType = .uhugeint) →
      AppendsInt128 cfg s col v ∧ BindsInt128 v := by
  intro h
  have hone := (h uhugeintTable uhugeintRow uhugeintColumn (-1) uhugeintRow_canPut (.inr rfl)).1
  rw [appendsInt128_of_mem uhugeintRow_canPut (.inr rfl) (by decide) (by decide)] at hone
  exact absurd (hone rfl) (by decide)

end DuckDBJava
