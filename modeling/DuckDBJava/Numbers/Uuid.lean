/-
  UUIDs: the 16 bytes of `putUUID`, the hugeint of `create_value_from_uuid`, and `getUuid`.

  **`uuid_encodings_agree`**: both writers stand for one signed 128-bit number, its bytes are read
  back as the UUID, and the numbers are ordered as the unsigned halves and as the texts.
-/
import DuckDBJava.Lib.FixedWidth
import DuckDBJava.Numbers.HugeInt
import Mathlib.Data.Char

namespace DuckDBJava

open Exec PathTree Bytes FixedWidth

/-- `java.util.UUID`. -/
structure UUID where
  mostSigBits : BitVec 64
  leastSigBits : BitVec 64
  deriving DecidableEq

/-! ## The three pieces of code -/

/-- The bytes of `putUUID`: two calls of `putLong`. -/
def putUUID (u : UUID) : List UInt8 :=
  le 8 u.leastSigBits.toNat ++ le 8 (u.mostSigBits ^^^ BitVec.intMin 64).toNat

/-- `hugeint_t` -/
structure HugeintT where
  upper : BitVec 64
  lower : BitVec 64
  deriving DecidableEq

/-- The number of a `hugeint_t`. -/
def HugeintT.value (h : HugeintT) : ℤ := h.upper.toInt * 2 ^ 64 + h.lower.toNat

/-- `create_value_from_uuid` -/
def createValueFromUuid (u : UUID) : HugeintT :=
  ⟨u.mostSigBits ^^^ BitVec.intMin 64, u.leastSigBits⟩

/-- `ByteBuffer.getLong()` -/
def getLong (buf : List UInt8) (position : ℕ) : BitVec 64 :=
  BitVec.ofNat 64 (ofLE ((buf.drop position).take 8))

/-- `getUuid`, on the bytes of a slot. -/
def getUuid (buf : List UInt8) : UUID :=
  let leastSignificantBits := getLong buf 0
  let mostSignificantBits := getLong buf 8
  ⟨mostSignificantBits ^^^ BitVec.intMin 64, leastSignificantBits⟩

/-- The value of a hex digit, as `UUID.toString` writes it. -/
def hexDigit (d : ℕ) : Char := "0123456789abcdef".toList.getD d '0'

/-- `UUID.toString()` -/
def UUID.chars (u : UUID) : List Char :=
  text 16 hexDigit 8 (u.mostSigBits.toNat / 2 ^ 32) ++ '-' ::
    (text 16 hexDigit 4 (u.mostSigBits.toNat / 2 ^ 16) ++ '-' ::
      (text 16 hexDigit 4 u.mostSigBits.toNat ++ '-' ::
        (text 16 hexDigit 4 (u.leastSigBits.toNat / 2 ^ 48) ++ '-' ::
          text 16 hexDigit 12 u.leastSigBits.toNat)))

/-! ## The number -/

/-- The signed number of a UUID: its halves, the upper one shifted below zero. -/
def UUID.number (u : UUID) : ℤ := (u.mostSigBits.toNat - 2 ^ 63) * 2 ^ 64 + u.leastSigBits.toNat

/-- Unsigned halves, the most significant first. -/
def UUID.Below (u v : UUID) : Prop :=
  u.mostSigBits.toNat < v.mostSigBits.toNat ∨
    (u.mostSigBits.toNat = v.mostSigBits.toNat ∧ u.leastSigBits.toNat < v.leastSigBits.toNat)

/-- Flipping the most significant bit of an unsigned number. -/
theorem toNat_xor_intMin (x : BitVec 64) :
    (x ^^^ BitVec.intMin 64).toNat = (x.toNat + 2 ^ 63) % 2 ^ 64 := by
  have hlow : (x.toNat ^^^ 2 ^ 63) % 2 ^ 63 = x.toNat % 2 ^ 63 := by
    rw [Nat.xor_mod_two_pow, Nat.mod_self, Nat.xor_zero]
  have hhigh : (x.toNat ^^^ 2 ^ 63) / 2 ^ 63 = x.toNat / 2 ^ 63 ^^^ 1 := Nat.xor_div_two_pow
  have hbit : x.toNat / 2 ^ 63 = 0 ∨ x.toNat / 2 ^ 63 = 1 := by omega
  have hmin : (BitVec.intMin 64).toNat = 2 ^ 63 := BitVec.toNat_intMin_of_pos (by decide)
  rw [BitVec.toNat_xor, hmin]
  rcases hbit with hbit | hbit <;> rw [hbit] at hhigh
  · have : (x.toNat ^^^ 2 ^ 63) / 2 ^ 63 = 1 := hhigh
    omega
  · have : (x.toNat ^^^ 2 ^ 63) / 2 ^ 63 = 0 := hhigh
    omega

/-- It shifts the number into the signed range. -/
theorem toInt_xor_intMin (x : BitVec 64) : (x ^^^ BitVec.intMin 64).toInt = x.toNat - 2 ^ 63 := by
  rw [BitVec.toInt_eq_toNat_cond, toNat_xor_intMin]
  have hx := x.isLt
  split <;> omega

theorem xor_intMin_self (x : BitVec 64) : x ^^^ BitVec.intMin 64 ^^^ BitVec.intMin 64 = x := by
  rw [BitVec.xor_assoc, BitVec.xor_self, BitVec.xor_zero]

/-- The number is in the range of a HUGEINT. -/
theorem UUID.number_mem (u : UUID) : -2 ^ 127 ≤ u.number ∧ u.number < 2 ^ 127 := by
  have hm := u.mostSigBits.isLt
  have hl := u.leastSigBits.isLt
  unfold UUID.number
  omega

theorem value_createValueFromUuid (u : UUID) : (createValueFromUuid u).value = u.number := by
  rw [HugeintT.value, createValueFromUuid, toInt_xor_intMin]
  rfl

/-- The bits of the cell `putUUID` fills. -/
def UUID.bits (u : UUID) : ℕ :=
  u.leastSigBits.toNat + 2 ^ 64 * (u.mostSigBits ^^^ BitVec.intMin 64).toNat

theorem le_bits (u : UUID) : le 16 u.bits = putUUID u := le_hugeInt ..

theorem bits_eq (u : UUID) : (u.bits : ℤ) = u.number % 2 ^ 128 := by
  have hl := u.leastSigBits.isLt
  have hm := u.mostSigBits.isLt
  have hnat := toNat_xor_intMin u.mostSigBits
  unfold UUID.bits UUID.number
  omega

theorem signedBE_putUUID (u : UUID) : signedBE (putUUID u).reverse = u.number := by
  have hpow : (256 : ℕ) ^ 16 = 2 ^ 128 := by norm_num
  have hrange := u.number_mem
  rw [← le_bits, signedBE_reverse_le, hpow, bits_eq]
  exact bmod_emod_eq (by push_cast; omega) (by push_cast; omega)

/-! ## The reader -/

theorem getLong_le (v : BitVec 64) (as bs : List UInt8) :
    getLong (as ++ (le 8 v.toNat ++ bs)) as.length = v := by
  have hpow : (2 : ℕ) ^ 64 = 256 ^ 8 := by norm_num
  rw [getLong, List.drop_left, List.take_left' (length_le ..), ofLE_le_of_lt (hpow ▸ v.isLt),
    BitVec.ofNat_toNat, BitVec.setWidth_eq]

theorem getUuid_putUUID (u : UUID) : getUuid (putUUID u) = u := by
  have hleast : getLong (putUUID u) 0 = u.leastSigBits := getLong_le u.leastSigBits [] _
  have hmost : getLong (putUUID u) 8 = u.mostSigBits ^^^ BitVec.intMin 64 := by
    have h := getLong_le (u.mostSigBits ^^^ BitVec.intMin 64) (le 8 u.leastSigBits.toNat) []
    rwa [length_le, List.append_nil] at h
  rw [getUuid, hleast, hmost, xor_intMin_self]

/-- `getObject` returns the UUID that `getUuid` reads. -/
theorem constObject_bits (env : Platform) (h : CAPIType.uuid.isScalar = true) (u : UUID) :
    constObject env (.scalar .uuid h) (.fixed u.bits) =
      .ok (.uuid u.mostSigBits.toInt u.leastSigBits.toInt) := by
  have hl := u.leastSigBits.isLt
  have hpow : ((256 ^ 8 : ℕ) : ℕ) = 2 ^ 64 := by norm_num
  have hleast : signed 8 u.bits = u.leastSigBits.toInt := by
    rw [signed, hpow, BitVec.toInt_eq_toNat_bmod, UUID.bits]
    push_cast
    exact Int.add_mul_bmod_self_left ..
  have hdiv : u.bits / 2 ^ 64 = (u.mostSigBits ^^^ BitVec.intMin 64).toNat := by
    unfold UUID.bits
    omega
  have hmost : (signed 8 (u.bits / 2 ^ 64) + 2 ^ 63).bmod (2 ^ 64) = u.mostSigBits.toInt := by
    have hsigned : signed 8 (u.mostSigBits ^^^ BitVec.intMin 64).toNat =
        (u.mostSigBits ^^^ BitVec.intMin 64).toInt := by
      rw [signed, hpow, BitVec.toInt_eq_toNat_bmod]
    rw [hdiv, hsigned, toInt_xor_intMin, Int.sub_add_cancel, BitVec.toInt_eq_toNat_bmod]
  show Except.ok (JObject.uuid _ _) = _
  rw [hmost, hleast]

/-! ## The order -/

theorem number_lt_iff (u v : UUID) : u.number < v.number ↔ u.Below v := by
  have hu := u.leastSigBits.isLt
  have hv := v.leastSigBits.isLt
  unfold UUID.number UUID.Below
  omega

theorem hexDigit_ordered : Ordered 16 hexDigit := by
  intro d e hde he
  revert d
  revert e
  decide

/-- **The texts** of two UUIDs are ordered as their unsigned halves. -/
theorem chars_lt_iff (u v : UUID) : u.chars < v.chars ↔ u.Below v := by
  have hum := u.mostSigBits.isLt
  have hul := u.leastSigBits.isLt
  have hvm := v.mostSigBits.isLt
  have hvl := v.leastSigBits.isLt
  have hlt : ∀ w m n, text 16 hexDigit w m < text 16 hexDigit w n ↔ m % 16 ^ w < n % 16 ^ w :=
    text_lt_iff (α := Char) hexDigit_ordered (by decide)
  have heq : ∀ w m n, text 16 hexDigit w m = text 16 hexDigit w n ↔ m % 16 ^ w = n % 16 ^ w :=
    text_eq_iff (α := Char) hexDigit_ordered (by decide)
  have hdash : ∀ cs ds : List Char, '-' :: cs < '-' :: ds ↔ cs < ds := fun cs ds => by
    rw [List.cons_lt_cons_iff]
    simp
  have hstep : ∀ (w m n : ℕ) (cs ds : List Char),
      text 16 hexDigit w m ++ cs < text 16 hexDigit w n ++ ds ↔
        m % 16 ^ w < n % 16 ^ w ∨ (m % 16 ^ w = n % 16 ^ w ∧ cs < ds) := fun w m n cs ds => by
    rw [append_lt_append_iff (by rw [length_text, length_text]), hlt, heq]
  rw [UUID.chars, UUID.chars, hstep, hdash, hstep, hdash, hstep, hdash, hstep, hdash, hlt]
  unfold UUID.Below
  generalize u.mostSigBits.toNat = a at *
  generalize v.mostSigBits.toNat = b at *
  generalize u.leastSigBits.toNat = c at *
  generalize v.leastSigBits.toNat = d at *
  omega

/-! ## All encodings -/

/-- What `append(u)` stores, what `setObject(u)` binds and what is read of it. -/
structure UUID.EncodedBy (u : UUID) (h : UUID → ℤ) (cfg : Config) (s : Appender) (col : Column) :
    Prop where
  /-- `h(u)` is a signed 128-bit integer -/
  range : -2 ^ 127 ≤ h u ∧ h u < 2 ^ 127
  /-- the appender stores `u` in 16 bytes that stand for `h(u)` -/
  appended : ∃ t bits, append cfg (.uuid (some (u.mostSigBits, u.leastSigBits))) s = .ok () t ∧
    cellAt t.chunk col s.rowIdx = some (.fixed bits) ∧ le 16 bits = putUUID u ∧
      signedBE (putUUID u).reverse = h u
  /-- the parameter stands for `h(u)` -/
  bound : (createValueFromUuid u).value = h u
  /-- the little-endian bytes of `h(u)` are read as `u` -/
  read : getUuid (le 16 (h u % 2 ^ 128).toNat) = u

/-- **UUID encodings agree.**  One number stands for a UUID in a column and in a parameter, its
    bytes are read back as the UUID, and the numbers are ordered as the unsigned halves and as
    the texts of the UUIDs. -/
theorem uuid_encodings_agree (cfg : Config) (s : Appender) (col : Column) (hs : s.CanPut col)
    (ht : col.colType = .uuid) :
    ∃ h : UUID → ℤ, (∀ u : UUID, u.EncodedBy h cfg s col) ∧
      ∀ u v : UUID, (h u < h v ↔ u.Below v) ∧ (u.Below v ↔ u.chars < v.chars) := by
  refine ⟨UUID.number, fun u => ?_, fun u v => ⟨number_lt_iff u v, (chars_lt_iff u v).symm⟩⟩
  have happend : append cfg (.uuid (some (u.mostSigBits, u.leastSigBits))) s =
      s.putResult cfg col (.ok (.fixed u.bits)) := by
    refine append_fixed hs (by rw [ht]; exact List.mem_singleton_self _) rfl rfl ?_
      (by rw [ht]; decide)
    exact Column.widthBytes_eq ht (by decide) (by decide)
  have hbits : (u.number % 2 ^ 128).toNat = u.bits := by
    rw [← bits_eq, Int.toNat_natCast]
  refine ⟨u.number_mem, ⟨_, u.bits, happend, cellAt_chunkWith .., le_bits u, signedBE_putUUID u⟩,
    value_createValueFromUuid u, ?_⟩
  rw [hbits, le_bits, getUuid_putUUID]

/-! ## A UUID column -/

/-- A table with one UUID column. -/
def uuidTable : Config :=
  .plain (.single (.node (.scalar .uuid (.refl true)) []) (LogicalType.scalar_wf _ _))

/-- Its column. -/
def uuidColumn : Column := .top 0 (.node (.scalar .uuid (.refl true)) [])

/-- In the first row. -/
def uuidRow : Appender := { uuidTable.start with currentColumn := some uuidColumn }

theorem uuid_encodings_agree_first : ∃ h : UUID → ℤ,
    (∀ u : UUID, u.EncodedBy h uuidTable uuidRow uuidColumn) ∧
      ∀ u v : UUID, (h u < h v ↔ u.Below v) ∧ (u.Below v ↔ u.chars < v.chars) :=
  uuid_encodings_agree uuidTable uuidRow uuidColumn
    ⟨rfl, rfl, ⟨by decide +kernel, by decide +kernel, by decide +kernel⟩⟩ rfl

end DuckDBJava
