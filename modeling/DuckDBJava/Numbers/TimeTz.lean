/-
  TIME WITH TIME ZONE: `putDayMicros` packs the microseconds of the day into the 40 high bits and
  the inverted, biased offset into the 24 low ones; `toOffsetTime` takes them apart.

  **`timetz_round_trip_iff`**: the offsets of the format end at ±15:59:59, those of Java at ±18:00;
  the appender does not check the bound, and a time beyond it is read back in UTC.
-/
import DuckDBJava.Appender.Slots
import DuckDBJava.Result.Vectors

namespace DuckDBJava

open Exec PathTree

/-- `java.time.OffsetTime`. -/
structure OffsetTime where
  nanoOfDay : ℕ
  totalSeconds : ℤ
  nanoOfDay_lt : nanoOfDay < 86400000000000
  offset_ge : -64800 ≤ totalSeconds
  offset_le : totalSeconds ≤ 64800

/-- The time of day in whole microseconds. -/
def OffsetTime.microOfDay (t : OffsetTime) : ℕ := t.nanoOfDay / 1000

/-- The largest offset of the format, 15:59:59. -/
def maxOffset : ℤ := 57599

/-! ## The packed bits -/

/-- The bits `putDayMicros` stores. -/
def timeTzBits (micros : ℕ) (offset : ℤ) : ℕ :=
  micros % 2 ^ 40 * 2 ^ 24 + ((maxOffset - offset) % 2 ^ 24).toNat

theorem toNat_mask (x : BitVec 64) (n : ℕ) (m : BitVec 64) (hm : m.toNat = 2 ^ n - 1) :
    (x &&& m).toNat = x.toNat % 2 ^ n := by
  rw [BitVec.toNat_and, hm, Nat.and_two_pow_sub_one_eq_mod]

theorem timeTzCell_eq (micros : BitVec 64) (offset : ℤ) :
    timeTzCell micros offset = .fixed (timeTzBits micros.toNat offset) := by
  have hmicros := toNat_mask micros 40 0xFFFFFFFFFF#64 rfl
  have hoffset := toNat_mask (BitVec.ofInt 64 (maxOffset - offset)) 24 0xFFFFFF#64 rfl
  have hlow : (BitVec.ofInt 64 (maxOffset - offset)).toNat % 2 ^ 24 =
      ((maxOffset - offset) % 2 ^ 24).toNat := by
    rw [BitVec.toNat_ofInt]
    omega
  have hlt : ((maxOffset - offset) % 2 ^ 24).toNat < 2 ^ 24 := by omega
  have hshift : ((micros &&& 0xFFFFFFFFFF#64) <<< 24).toNat = micros.toNat % 2 ^ 40 * 2 ^ 24 := by
    rw [BitVec.toNat_shiftLeft, hmicros, Nat.shiftLeft_eq]
    omega
  show Cell.fixed (((micros &&& 0xFFFFFFFFFF#64) <<< 24) |||
    (BitVec.ofInt 64 (maxOffset - offset) &&& 0xFFFFFF#64)).toNat = _
  rw [BitVec.toNat_or, hshift, hoffset, hlow, timeTzBits, ← Nat.shiftLeft_eq,
    Nat.shiftLeft_add_eq_or_of_lt hlt]

theorem signed_timeTzBits {micros : ℕ} (h : micros < 2 ^ 39) (offset : ℤ) :
    signed 8 (timeTzBits micros offset) = timeTzBits micros offset := by
  have hpow : (256 ^ 8 : ℕ) = 2 ^ 64 := by decide
  have hlt : timeTzBits micros offset < 2 ^ 63 := by
    unfold timeTzBits
    omega
  rw [signed, hpow]
  exact Int.bmod_eq_of_le (by omega) (by omega)

/-! ## Reading -/

/-- `toOffsetTime` in terms of the two parts; the offset is put together from its hours, minutes
    and seconds. -/
theorem toOffsetTime_eq {timeBits micros low : ℤ} (hbits : timeBits = micros * 2 ^ 24 + low)
    (hlow : 0 ≤ low ∧ low < 2 ^ 24) (hmicros : 0 ≤ micros ∧ micros < 86400000000) :
    toOffsetTime timeBits = .ok (.offsetTime (micros * 1000)
      (if -57600 < maxOffset - low ∧ maxOffset - low < 57600 then maxOffset - low else 0)) := by
  have hdiv : timeBits / 2 ^ 24 = micros := by omega
  have hmod : timeBits % 2 ^ 24 = low := by omega
  have htime : localTimeOfNanoOfDay (micros * 1000) = .ok (micros * 1000) :=
    if_pos ⟨by omega, by omega⟩
  unfold toOffsetTime
  simp only [hdiv, hmod, htime]
  have hoffset : (16 * 60 * 60 - 1 - low : ℤ) = maxOffset - low := rfl
  rw [hoffset]
  generalize maxOffset - low = offset
  by_cases hhh : 15 < (offset.natAbs : ℤ) / 60 / 60
  · have hout : ¬ (-57600 < offset ∧ offset < 57600) := by omega
    rw [if_neg hout]
    show (if _ then _ else _ : Except JavaException JObject) = _
    rw [if_pos hhh]
    rfl
  · have hin : -57600 < offset ∧ offset < 57600 := by omega
    rw [if_pos hin]
    show (if _ then _ else _ : Except JavaException JObject) = _
    rw [if_neg hhh]
    refine congrArg Except.ok (congrArg _ ?_)
    split <;> omega

/-! ## One append -/

section
variable (cfg : Config) (s : Appender) (col : Column) (t : OffsetTime)

/-- `append(t)` throws `SQLException`, or stores 64 bits that `toOffsetTime` decodes to `t` in whole
    microseconds, with the offset of `t`. -/
def RoundTripsTimeTz : Prop :=
  match append cfg (.offsetTime (some (t.nanoOfDay, t.totalSeconds))) s with
  | .ok _ s' => ∃ bits, cellAt s'.chunk col s.rowIdx = some (.fixed bits) ∧
      toOffsetTime (signed 8 bits) = .ok (.offsetTime (t.microOfDay * 1000) t.totalSeconds)
  | .error e _ => e.isSql = true

variable {cfg s col t}

/-- What is read of the bits stored for a time. -/
theorem toOffsetTime_timeTzBits (t : OffsetTime) :
    toOffsetTime (signed 8 (timeTzBits t.microOfDay t.totalSeconds)) = .ok (.offsetTime
      (t.microOfDay * 1000) (if -57600 < t.totalSeconds ∧ t.totalSeconds < 57600 then
        t.totalSeconds else 0)) := by
  have hmicros : t.microOfDay < 86400000000 := by
    have := t.nanoOfDay_lt
    unfold OffsetTime.microOfDay
    omega
  have hge := t.offset_ge
  have hle := t.offset_le
  have hlow : 0 ≤ (maxOffset - t.totalSeconds) % 2 ^ 24 ∧
      (maxOffset - t.totalSeconds) % 2 ^ 24 < 2 ^ 24 := by omega
  have hbits : (timeTzBits t.microOfDay t.totalSeconds : ℤ) =
      t.microOfDay * 2 ^ 24 + (maxOffset - t.totalSeconds) % 2 ^ 24 := by
    unfold timeTzBits
    omega
  rw [signed_timeTzBits (by omega), toOffsetTime_eq hbits hlow ⟨by omega, by omega⟩]
  refine congrArg Except.ok (congrArg _ ?_)
  unfold maxOffset at *
  split <;> split <;> omega

theorem append_offsetTime (hs : s.CanPut col) (ht : col.colType = .timeTz) :
    append cfg (.offsetTime (some (t.nanoOfDay, t.totalSeconds))) s =
      s.putResult cfg col (.ok (.fixed (timeTzBits t.microOfDay t.totalSeconds))) := by
  have hmicros : (BitVec.ofNat 64 (t.nanoOfDay / 1000)).toNat = t.microOfDay := by
    have := t.nanoOfDay_lt
    unfold OffsetTime.microOfDay
    rw [BitVec.toNat_ofNat]
    omega
  rw [← hmicros, ← timeTzCell_eq]
  refine append_fixed hs (by rw [ht]; exact List.mem_cons_self) rfl rfl ?_ (by rw [ht]; decide)
  exact Column.widthBytes_eq ht (by decide) (by decide)

end

/-- **TIME WITH TIME ZONE.**  An `OffsetTime` is read back, in whole microseconds and with its
    offset, exactly when the offset is between -15:59:59 and +15:59:59. -/
theorem timetz_round_trip_iff (cfg : Config) (s : Appender) (col : Column) (t : OffsetTime)
    (hs : s.CanPut col) (ht : col.colType = .timeTz) :
    RoundTripsTimeTz cfg s col t ↔ -57600 < t.totalSeconds ∧ t.totalSeconds < 57600 := by
  have hcell : cellAt (s.supplied cfg col (s.chunkWith col
      (.fixed (timeTzBits t.microOfDay t.totalSeconds)))).chunk col s.rowIdx =
        some (.fixed (timeTzBits t.microOfDay t.totalSeconds)) := cellAt_chunkWith ..
  rw [RoundTripsTimeTz, append_offsetTime hs ht]
  show (∃ bits, cellAt _ col s.rowIdx = some (.fixed bits) ∧ _) ↔ _
  rw [hcell]
  constructor
  · rintro ⟨bits, heq, hread⟩
    cases heq
    rw [toOffsetTime_timeTzBits] at hread
    injection hread with hread
    injection hread with _ hread
    split at hread <;> omega
  · intro h
    refine ⟨_, rfl, ?_⟩
    rw [toOffsetTime_timeTzBits, if_pos h]

/-! ## A TIMETZ column -/

/-- A table with one TIMETZ column. -/
def timeTzTable : Config :=
  .plain (.single (.node (.scalar .timeTz rfl) []) (LogicalType.scalar_wf _ _))

/-- Its column. -/
def timeTzColumn : Column := .top 0 (.node (.scalar .timeTz rfl) [])

/-- In the first row. -/
def timeTzRow : Appender := { timeTzTable.start with currentColumn := some timeTzColumn }

theorem timeTzRow_canPut : timeTzRow.CanPut timeTzColumn :=
  ⟨rfl, rfl, ⟨by decide +kernel, by decide +kernel, by decide +kernel⟩⟩

/-- Noon at an offset. -/
def noonAt (totalSeconds : ℤ) (hge : -64800 ≤ totalSeconds) (hle : totalSeconds ≤ 64800) :
    OffsetTime :=
  ⟨43200000000000, totalSeconds, by decide, hge, hle⟩

theorem timetz_round_trip_limit :
    RoundTripsTimeTz timeTzTable timeTzRow timeTzColumn (noonAt 57599 (by decide) (by decide)) :=
  (timetz_round_trip_iff timeTzTable timeTzRow timeTzColumn _ timeTzRow_canPut rfl).2
    ⟨by decide, by decide⟩

/-- Noon at +16:00 is read as noon in UTC. -/
theorem timetz_offset_lost : ¬ ∀ (cfg : Config) (s : Appender) (col : Column) (t : OffsetTime),
    s.CanPut col → col.colType = .timeTz → RoundTripsTimeTz cfg s col t := by
  intro h
  have hnoon := h timeTzTable timeTzRow timeTzColumn (noonAt 57600 (by decide) (by decide))
    timeTzRow_canPut rfl
  rw [RoundTripsTimeTz, append_offsetTime timeTzRow_canPut rfl] at hnoon
  obtain ⟨bits, hcell, hread⟩ := hnoon
  cases (cellAt_chunkWith ..).symm.trans hcell
  rw [toOffsetTime_timeTzBits] at hread
  injection hread with hread
  injection hread with _ hread
  exact absurd hread (by decide)

end DuckDBJava
