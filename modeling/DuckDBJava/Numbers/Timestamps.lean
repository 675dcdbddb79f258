/-
  Timestamp columns: `putLocalDateTime`, `putDate` and `putOffsetDateTime` count units from the
  epoch, `DuckDBTimestamp` counts microseconds, and the readers split a count into seconds and
  nanoseconds.

  **`micros_decoders_agree`**: both ways to decode microseconds give one date-time, and its count
  is the one decoded.
  **`timestamp_writers_agree_iff`**: a date-time is stored as the number of units to it, rounded
  toward the epoch, and read back up to the unit; a `java.util.Date` alike, unless the nanoseconds
  that `putDate` does not read would change the number.
-/
import DuckDBJava.Numbers.HugeInt
import DuckDBJava.Numbers.TemporalParameters
import DuckDBJava.Result.CalendarGetters

namespace DuckDBJava

open Exec PathTree Calendar

/-! ## Date-times as nanoseconds -/

/-- The date-times of `java.time`. -/
structure LocalDateTime.Valid (v : LocalDateTime) : Prop where
  day : inLocalDateRange v.epochDay
  second_nonneg : 0 ≤ v.secondOfDay
  second_lt : v.secondOfDay < secondsPerDay
  nano_nonneg : 0 ≤ v.nano
  nano_lt : v.nano < nanosPerSecond

/-- The nanoseconds from the epoch. -/
def LocalDateTime.epochNanos (v : LocalDateTime) : ℤ := v.epochDay * nanosPerDay + v.nanoOfDay

/-- `!v.isAfter(w)`: by the date, then by the time. -/
def LocalDateTime.NotAfter (v w : LocalDateTime) : Prop :=
  v.epochDay < w.epochDay ∨ (v.epochDay = w.epochDay ∧ v.nanoOfDay ≤ w.nanoOfDay)

section
variable {v w : LocalDateTime}

theorem LocalDateTime.Valid.nanoOfDay_mem (h : v.Valid) :
    0 ≤ v.nanoOfDay ∧ v.nanoOfDay < nanosPerDay := by
  obtain ⟨-, h1, h2, h3, h4⟩ := h
  unfold LocalDateTime.nanoOfDay
  unfold secondsPerDay at h2
  unfold nanosPerSecond at h4 ⊢
  unfold nanosPerDay
  omega

theorem notAfter_iff (hv : v.Valid) (hw : w.Valid) :
    v.NotAfter w ↔ v.epochNanos ≤ w.epochNanos := by
  have h1 := hv.nanoOfDay_mem
  have h2 := hw.nanoOfDay_mem
  unfold LocalDateTime.NotAfter LocalDateTime.epochNanos
  unfold nanosPerDay at *
  omega

theorem eq_of_epochNanos_eq (hv : v.Valid) (hw : w.Valid) (h : v.epochNanos = w.epochNanos) :
    v = w := by
  obtain ⟨-, hv1, hv2, hv3, hv4⟩ := hv
  obtain ⟨-, hw1, hw2, hw3, hw4⟩ := hw
  obtain ⟨a, b, c⟩ := v
  obtain ⟨d, e, f⟩ := w
  unfold LocalDateTime.epochNanos LocalDateTime.nanoOfDay nanosPerDay nanosPerSecond at h
  unfold secondsPerDay at hv2 hw2
  unfold nanosPerSecond at hv4 hw4
  simp only at *
  rw [LocalDateTime.mk.injEq]
  omega

/-- The date-time of a second and its nanoseconds. -/
theorem epochNanos_ofEpochSecond (epochSecond nano : ℤ) :
    (LocalDateTime.ofEpochSecond epochSecond nano 0).epochNanos =
      epochSecond * nanosPerSecond + nano := by
  unfold LocalDateTime.ofEpochSecond LocalDateTime.epochNanos LocalDateTime.nanoOfDay nanosPerDay
    nanosPerSecond secondsPerDay
  simp only [Int.add_zero]
  omega

theorem valid_ofEpochSecond {epochSecond nano : ℤ} (hday : inLocalDateRange (epochSecond / 86400))
    (h0 : 0 ≤ nano) (hlt : nano < nanosPerSecond) :
    (LocalDateTime.ofEpochSecond epochSecond nano 0).Valid := by
  unfold LocalDateTime.ofEpochSecond secondsPerDay
  rw [Int.add_zero]
  exact ⟨hday, Int.emod_nonneg _ (by decide), Int.emod_lt_of_pos _ (by decide), h0, hlt⟩

end

/-! ## DuckDBTimestamp -/

/-- `micros2seconds` -/
def micros2seconds (micros : BitVec 64) : BitVec 64 :=
  if 0 ≤ (micros.srem 1000000#64).toInt then micros.sdiv 1000000#64
  else micros.sdiv 1000000#64 - 1#64

/-- `nanosPartMicros` -/
def nanosPartMicros (micros : BitVec 64) : BitVec 32 :=
  if 0 ≤ (micros.srem 1000000#64).toInt then (micros.srem 1000000#64 * 1000#64).setWidth 32
  else ((1000000#64 + micros.srem 1000000#64) * 1000#64).setWidth 32

/-- `DuckDBTimestamp`. -/
structure DuckDBTimestamp where
  timeMicros : BitVec 64

/-- `toLocalDateTime` -/
def DuckDBTimestamp.toLocalDateTime (ts : DuckDBTimestamp) : LocalDateTime :=
  .ofEpochSecond (micros2seconds ts.timeMicros).toInt (nanosPartMicros ts.timeMicros).toInt 0

/-- `localDateTime2Micros` -/
def localDateTime2Micros (localDateTime : LocalDateTime) : Option ℤ := untilMicros localDateTime

section
variable (m : BitVec 64)

theorem toInt_srem_million : (m.srem 1000000#64).toInt = m.toInt.tmod 1000000 :=
  BitVec.toInt_srem ..

theorem toInt_sdiv_million : (m.sdiv 1000000#64).toInt = m.toInt.tdiv 1000000 :=
  BitVec.toInt_sdiv_of_ne_or_ne _ _ (.inr (by decide))

/-- Java's remainder is the floored one, unless it is negative. -/
theorem tmod_million (n : ℤ) : n.tdiv 1000000 * 1000000 + n.tmod 1000000 = n ∧
    -1000000 < n.tmod 1000000 ∧ n.tmod 1000000 < 1000000 :=
  ⟨Int.tdiv_mul_add_tmod .., Int.lt_tmod_of_pos _ (by decide), Int.tmod_lt_of_pos _ (by decide)⟩

theorem toInt_micros2seconds : (micros2seconds m).toInt = m.toInt / 1000000 := by
  obtain ⟨hsum, hgt, hlt⟩ := tmod_million m.toInt
  have hlo := m.le_toInt
  have hhi := m.toInt_lt
  have hrem := toInt_srem_million m
  have hdiv := toInt_sdiv_million m
  unfold micros2seconds
  rw [hrem]
  split
  · rw [hdiv]
    omega
  · rw [BitVec.toInt_sub, hdiv]
    have hone : (1#64).toInt = 1 := rfl
    rw [hone, Int.bmod_eq_of_le (by omega) (by omega)]
    omega

/-- The low 32 bits of a small number. -/
theorem toInt_setWidth_of_mem {x : BitVec 64} (h0 : 0 ≤ x.toInt) (hlt : x.toInt < 2 ^ 31) :
    (x.setWidth 32).toInt = x.toInt := by
  have hnat : (x.toNat : ℤ) = x.toInt := by
    rw [BitVec.toInt_eq_toNat_cond] at h0 ⊢
    have := x.isLt
    split at h0 <;> split <;> omega
  rw [BitVec.toInt_setWidth, hnat]
  exact Int.bmod_eq_of_le (by omega) (by omega)

theorem toInt_nanosPartMicros : (nanosPartMicros m).toInt = m.toInt % 1000000 * 1000 := by
  obtain ⟨hsum, hgt, hlt⟩ := tmod_million m.toInt
  have hrem := toInt_srem_million m
  have hthousand : (1000#64).toInt = 1000 := rfl
  have hmillion : (1000000#64).toInt = 1000000 := rfl
  have hmul : ∀ x : BitVec 64, 0 ≤ x.toInt → x.toInt < 1000000 →
      ((x * 1000#64).setWidth 32).toInt = x.toInt * 1000 := by
    intro x h0 h1
    have hx : (x * 1000#64).toInt = x.toInt * 1000 := by
      rw [BitVec.toInt_mul, hthousand]
      exact Int.bmod_eq_of_le (by omega) (by omega)
    rw [toInt_setWidth_of_mem (by omega) (by omega), hx]
  unfold nanosPartMicros
  rw [hrem]
  split
  · rw [hmul _ (by omega) (by omega), hrem]
    omega
  · have hadd : (1000000#64 + m.srem 1000000#64).toInt = 1000000 + m.toInt.tmod 1000000 := by
      rw [BitVec.toInt_add, hmillion, hrem]
      exact Int.bmod_eq_of_le (by omega) (by omega)
    rw [hmul _ (by omega) (by omega), hadd]
    omega

/-- The days of a `long` of microseconds are days of `java.time`. -/
theorem inLocalDateRange_micros : inLocalDateRange (m.toInt / 1000000 / 86400) := by
  have hlo := m.le_toInt
  have hhi := m.toInt_lt
  unfold inLocalDateRange
  omega

/-- **The two microsecond decoders** agree, on a date-time of `java.time` whose count of
    microseconds is the one decoded. -/
theorem micros_decoders_agree :
    LocalDateTime.ofInstant (createInstant m.toInt .micros) utc =
        (DuckDBTimestamp.mk m).toLocalDateTime ∧
      (0 ≤ (nanosPartMicros m).toInt ∧ (nanosPartMicros m).toInt < 1000000000) ∧
      (DuckDBTimestamp.mk m).toLocalDateTime.Valid ∧
      localDateTime2Micros (DuckDBTimestamp.mk m).toLocalDateTime = some m.toInt := by
  have hnano : 0 ≤ m.toInt % 1000000 * 1000 ∧ m.toInt % 1000000 * 1000 < 1000000000 := by omega
  have hldt : (DuckDBTimestamp.mk m).toLocalDateTime =
      .ofEpochSecond (m.toInt / 1000000) (m.toInt % 1000000 * 1000) 0 := by
    rw [DuckDBTimestamp.toLocalDateTime, toInt_micros2seconds, toInt_nanosPartMicros]
  rw [hldt, toInt_nanosPartMicros]
  refine ⟨?_, hnano, valid_ofEpochSecond (inLocalDateRange_micros m) hnano.1 hnano.2, ?_⟩
  · rw [createInstant_micros]
    rfl
  · have hnanos := epochNanos_ofEpochSecond (m.toInt / 1000000) (m.toInt % 1000000 * 1000)
    have hmicros : m.toInt / 1000000 * nanosPerSecond + m.toInt % 1000000 * 1000 =
        m.toInt * 1000 := by
      unfold nanosPerSecond
      omega
    rw [hmicros] at hnanos
    rw [localDateTime2Micros, untilMicros]
    show checkedLong ((LocalDateTime.ofEpochSecond _ _ 0).epochNanos.tdiv 1000) = _
    rw [hnanos, Int.mul_tdiv_cancel _ (by decide), checkedLong,
      if_pos ⟨m.le_toInt, m.toInt_lt⟩]

end

/-! ## The stored count -/

/-- A number of 64 bits. -/
def FitsLong (n : ℤ) : Prop := -2 ^ 63 ≤ n ∧ n < 2 ^ 63

instance (n : ℤ) : Decidable (FitsLong n) := inferInstanceAs (Decidable (_ ∧ _))

/-- `EPOCH_DATE_TIME.until(v, unit)`, if it fits: the whole units from the epoch to `v`, rounded
    toward the epoch. -/
def LocalDateTime.count (v : LocalDateTime) (unit : ℤ) : ℤ := v.epochNanos.tdiv unit

/-- What a date-time passed to `append` is in the model of the appender. -/
def LocalDateTime.arg (v : LocalDateTime) : ℤ × ℕ :=
  (v.epochDay * secondsPerDay + v.secondOfDay, v.nano.toNat)

/-- The instant of the milliseconds of a `java.util.Date`. -/
def UtilDate.ofMillis (d : UtilDate) : Instant := .ofEpochMilli d.getTime.toInt

/-- The instant of a `java.util.Date`, to the nanosecond. -/
def UtilDate.instant (d : UtilDate) : Instant :=
  ⟨d.ofMillis.epochSecond, d.ofMillis.nano + d.nanosOfMilli⟩

/-- An instant in UTC. -/
def Instant.inUtc (i : Instant) : LocalDateTime := .ofInstant i utc

/-- `odt.atZoneSameInstant(UTC)` and `odt.withOffsetSameInstant(UTC)`: the local date-time. -/
def OffsetDateTime.inUtc (odt : OffsetDateTime) : LocalDateTime := odt.toInstant.inUtc

/-- What an `OffsetDateTime` passed to `append` is in the model of the appender. -/
def OffsetDateTime.arg (odt : OffsetDateTime) : ℤ × ℕ :=
  (odt.toInstant.epochSecond, odt.toInstant.nano.toNat)

/-- `new DuckDBTimestampTZ(odt)`: the microseconds. -/
def timestampTZMicros (odt : OffsetDateTime) : Option ℤ := untilMicros odt.inUtc

section
variable {v : LocalDateTime} {unit : ℤ}

theorem nanos_arg (hv : v.Valid) : v.arg.1 * 1000000000 + v.arg.2 = v.epochNanos := by
  have hnano : (v.nano.toNat : ℤ) = v.nano := Int.toNat_of_nonneg hv.nano_nonneg
  unfold LocalDateTime.arg LocalDateTime.epochNanos LocalDateTime.nanoOfDay secondsPerDay
    nanosPerDay nanosPerSecond
  simp only [hnano]
  omega

theorem untilCell_arg (hv : v.Valid) : untilCell unit v.arg.1 v.arg.2 =
    if FitsLong (v.count unit) then .ok (.fixed (BitVec.ofInt 64 (v.count unit)).toNat)
    else .error .arithmetic := by
  rw [untilCell, nanos_arg hv]
  by_cases h : FitsLong (v.count unit)
  · have hexact : exactLong (v.epochNanos.tdiv unit) = .ok (BitVec.ofInt 64 (v.count unit)) :=
      if_pos h
    rw [hexact, if_pos h]
    rfl
  · have hexact : exactLong (v.epochNanos.tdiv unit) = .error .arithmetic := if_neg h
    rw [hexact, if_neg h]
    rfl

theorem untilMicros_eq (v : LocalDateTime) :
    untilMicros v = if FitsLong (v.count 1000) then some (v.count 1000) else none := rfl

theorem signed_count {n : ℤ} (h : FitsLong n) : signed 8 (BitVec.ofInt 64 n).toNat = n :=
  signed_ofInt (by norm_num) (by have := h.1; push_cast; omega) (by have := h.2; push_cast; omega)

/-! ## Rounding toward the epoch -/

theorem count_mul_add (v : LocalDateTime) (unit : ℤ) :
    v.count unit * unit + v.epochNanos.tmod unit = v.epochNanos := Int.tdiv_mul_add_tmod ..

theorem abs_count_sub_lt (v : LocalDateTime) (hunit : 0 < unit) :
    |v.count unit * unit - v.epochNanos| < unit := by
  have hsum := count_mul_add v unit
  have hlt := Int.tmod_lt_of_pos v.epochNanos hunit
  have hgt := Int.lt_tmod_of_pos v.epochNanos hunit
  rw [abs_lt]
  constructor <;> omega

theorem count_mul_eq_iff (v : LocalDateTime) (unit : ℤ) :
    v.count unit * unit = v.epochNanos ↔ unit ∣ v.epochNanos := by
  have hsum := count_mul_add v unit
  rw [Int.dvd_iff_tmod_eq_zero]
  omega

end

/-! ## Reading -/

/-- The nanoseconds of a unit. -/
def ChronoUnit.nanosOf (unit : ChronoUnit) : ℤ := nanosPerSecond / unit.perSecond

/-- The date-time a count is read as, in whatever zone. -/
theorem localDateTimeFromTimestamp_eq (systemDefault : Zone) (value : ℤ) (unit : ChronoUnit) :
    localDateTimeFromTimestamp systemDefault value unit none =
      .ofEpochSecond (wallSecond value unit) (wallNano value unit) 0 := by
  rw [localDateTimeFromTimestamp, createInstant_eq]
  rfl

theorem wallNano_mem (value : ℤ) (unit : ChronoUnit) :
    0 ≤ wallNano value unit ∧ wallNano value unit < nanosPerSecond := by
  unfold wallNano nanosPerSecond
  cases unit <;> simp only [ChronoUnit.perSecond] <;> omega

theorem epochNanos_read (systemDefault : Zone) (value : ℤ) (unit : ChronoUnit) :
    (localDateTimeFromTimestamp systemDefault value unit none).epochNanos =
      value * unit.nanosOf := by
  rw [localDateTimeFromTimestamp_eq, epochNanos_ofEpochSecond]
  unfold wallSecond wallNano ChronoUnit.nanosOf nanosPerSecond
  cases unit <;> simp only [ChronoUnit.perSecond] <;> omega

/-- What is read of the count of a date-time is a date-time of `java.time`. -/
theorem valid_read (systemDefault : Zone) {v : LocalDateTime} (hv : v.Valid) (unit : ChronoUnit) :
    (localDateTimeFromTimestamp systemDefault (v.count unit.nanosOf) unit none).Valid := by
  have hunit : 0 < unit.nanosOf := by cases unit <;> decide
  have hnanos := epochNanos_read systemDefault (v.count unit.nanosOf) unit
  have hmem := wallNano_mem (v.count unit.nanosOf) unit
  have hsum := count_mul_add v unit.nanosOf
  have hlt := Int.tmod_lt_of_pos v.epochNanos hunit
  have htime := hv.nanoOfDay_mem
  have hday := hv.day
  rw [localDateTimeFromTimestamp_eq, epochNanos_ofEpochSecond] at hnanos
  rw [localDateTimeFromTimestamp_eq]
  refine valid_ofEpochSecond ?_ hmem.1 hmem.2
  -- the count is rounded toward the epoch, so it stays between the epoch and the date-time
  have hbetween : (0 ≤ v.epochNanos → 0 ≤ v.epochNanos.tmod unit.nanosOf ∧
        0 ≤ v.count unit.nanosOf * unit.nanosOf) ∧
      (v.epochNanos ≤ 0 → v.epochNanos.tmod unit.nanosOf ≤ 0 ∧
        v.count unit.nanosOf * unit.nanosOf ≤ 0) := by
    refine ⟨fun h => ⟨Int.tmod_nonneg _ h, Int.mul_nonneg (Int.tdiv_nonneg h hunit.le) hunit.le⟩,
      fun h => ?_⟩
    have hneg : 0 ≤ (-v.epochNanos).tmod unit.nanosOf := Int.tmod_nonneg _ (by omega)
    have hquot : 0 ≤ (-v.epochNanos).tdiv unit.nanosOf := Int.tdiv_nonneg (by omega) hunit.le
    have hprod := Int.mul_nonneg hquot hunit.le
    rw [Int.neg_tmod] at hneg
    rw [Int.neg_tdiv, Int.neg_mul] at hprod
    unfold LocalDateTime.count
    omega
  obtain ⟨hpos, hneg⟩ := hbetween
  generalize v.count unit.nanosOf * unit.nanosOf = c at *
  generalize v.epochNanos.tmod unit.nanosOf = r at *
  unfold LocalDateTime.epochNanos at *
  unfold inLocalDateRange nanosPerDay nanosPerSecond at *
  omega

/-! ## One append -/

/-- The call stores this 64-bit number in the current slot. -/
def StoresCount (cfg : Config) (s : Appender) (col : Column) (a : Append) (n : ℤ) : Prop :=
  ∃ t bits, append cfg a s = .ok () t ∧ cellAt t.chunk col s.rowIdx = some (.fixed bits) ∧
    signed 8 bits = n

/-- The call throws and leaves the appender as it is. -/
def AppendThrows (cfg : Config) (s : Appender) (a : Append) : Prop :=
  ∃ e, append cfg a s = .error e s

section
variable {cfg : Config} {s : Appender} {col : Column} {a : Append} {n : ℤ}

/-- The cell of a count, or the exception where it does not fit. -/
def countCell (n : ℤ) : Except Exn Cell :=
  if FitsLong n then .ok (.fixed (BitVec.ofInt 64 n).toNat) else .error .arithmetic

theorem storesCount_iff (h : append cfg a s = s.putResult cfg col (countCell n)) (m : ℤ) :
    StoresCount cfg s col a m ↔ FitsLong n ∧ m = n := by
  unfold StoresCount
  rw [h, countCell]
  by_cases hn : FitsLong n
  · rw [if_pos hn]
    constructor
    · rintro ⟨t, bits, heq, hcell, hm⟩
      cases heq
      cases (cellAt_chunkWith ..).symm.trans hcell
      exact ⟨hn, hm.symm.trans (signed_count hn)⟩
    · rintro ⟨-, rfl⟩
      exact ⟨_, _, rfl, cellAt_chunkWith .., signed_count hn⟩
  · rw [if_neg hn]
    constructor
    · rintro ⟨t, bits, heq, -⟩
      cases heq
    · rintro ⟨hfits, -⟩
      exact absurd hfits hn

theorem appendThrows_of_not_fits (h : append cfg a s = s.putResult cfg col (countCell n))
    (hn : ¬ FitsLong n) : AppendThrows cfg s a := by
  rw [countCell, if_neg hn] at h
  exact ⟨_, h⟩

/-- The four types of timestamps without a time zone. -/
theorem kind_of_unitNanos {unit : ℤ} (h : unitNanos col.colType = some unit) :
    ∃ u : ChronoUnit, zonelessUnit col.kind.columnType = some u ∧ u.nanosOf = unit ∧
      col.colType ∈ timestampLocalTypes ∧ col.kind.widthBytes = col.colType.widthBytes ∧
        0 < col.colType.widthBytes := by
  have hcol : col.colType = col.kind.colType := rfl
  rw [hcol] at h ⊢
  cases hk : col.kind with
  | scalar t ht =>
    rw [hk] at h
    have hkind : (TypeKind.scalar t ht).colType = t := rfl
    rw [hkind] at h ⊢
    cases t <;> cases h
    · exact ⟨.micros, rfl, rfl, by decide, rfl, by decide⟩
    · exact ⟨.seconds, rfl, rfl, by decide, rfl, by decide⟩
    · exact ⟨.millis, rfl, rfl, by decide, rfl, by decide⟩
    · exact ⟨.nanos, rfl, rfl, by decide, rfl, by decide⟩
  | unlisted t => rw [hk] at h; cases t <;> cases h
  | _ => rw [hk] at h; cases h

theorem append_localDateTime (hs : s.CanPut col) {unit : ℤ}
    (hunit : unitNanos col.colType = some unit) {v : LocalDateTime} (hv : v.Valid) :
    append cfg (.localDateTime (some v.arg)) s =
      s.putResult cfg col (countCell (v.count unit)) := by
  obtain ⟨-, -, -, ht, hw, hpos⟩ := kind_of_unitNanos hunit
  have hcell : localDateTimeCell col.colType v.arg.1 v.arg.2 = countCell (v.count unit) := by
    rw [localDateTimeCell, hunit]
    exact untilCell_arg hv
  refine append_fixed hs ht rfl ?_ hw hpos
  rw [← hcell]
  rfl

theorem append_offsetDateTime (hs : s.CanPut col) (ht : col.colType = .timestampTz)
    {odt : OffsetDateTime} (hodt : odt.dateTime.Valid) :
    append cfg (.offsetDateTime (some odt.arg)) s =
      s.putResult cfg col (countCell (odt.inUtc.count 1000)) := by
  have hnano : (odt.toInstant.nano.toNat : ℤ) = odt.toInstant.nano :=
    Int.toNat_of_nonneg hodt.nano_nonneg
  have hnanos : odt.arg.1 * 1000000000 + odt.arg.2 = odt.inUtc.epochNanos := by
    show odt.toInstant.epochSecond * 1000000000 + (odt.toInstant.nano.toNat : ℤ) = _
    rw [hnano]
    exact (epochNanos_ofEpochSecond ..).symm
  have hcell : untilCell 1000 odt.arg.1 odt.arg.2 = countCell (odt.inUtc.count 1000) := by
    rw [untilCell, hnanos]
    show (do
      let moment ← (if FitsLong (odt.inUtc.count 1000) then _ else _)
      _ : Except Exn Cell) = _
    unfold countCell
    split <;> rfl
  refine append_fixed hs (by rw [ht]; exact List.mem_singleton_self _) rfl ?_ ?_
    (by rw [ht]; decide)
  · rw [← hcell]
    rfl
  · exact Column.widthBytes_eq ht (by decide) (by decide)

end

/-! ## All writers -/

/-- What the appender does with a date-time in a column of that unit. -/
structure WritesDateTime (cfg : Config) (systemDefault : Zone) (resolve : ℤ → ℤ) (s : Appender)
    (col : Column) (unit : ℤ) (v : LocalDateTime) : Prop where
  /-- it throws when the count of units does not fit 64 bits -/
  throws : ¬ FitsLong (v.count unit) → AppendThrows cfg s (.localDateTime (some v.arg))
  /-- else it stores the count -/
  stores : ∀ n, StoresCount cfg s col (.localDateTime (some v.arg)) n ↔
    FitsLong (v.count unit) ∧ n = v.count unit
  /-- the cell is read as `v` if `v` is a multiple of the unit, else less than one unit away -/
  reads : ∀ n, StoresCount cfg s col (.localDateTime (some v.arg)) n →
    ∃ r, getLocalDateTimeFromTimestamp systemDefault col.kind.columnType n none = some r ∧ r.Valid ∧
      (r = v ↔ unit ∣ v.epochNanos) ∧ |r.epochNanos - v.epochNanos| < unit
  /-- a later date-time is not read as an earlier one -/
  monotone : ∀ w : LocalDateTime, w.Valid → v.NotAfter w → ∀ n m q r,
    StoresCount cfg s col (.localDateTime (some v.arg)) n →
    StoresCount cfg s col (.localDateTime (some w.arg)) m →
    getLocalDateTimeFromTimestamp systemDefault col.kind.columnType n none = some q →
    getLocalDateTimeFromTimestamp systemDefault col.kind.columnType m none = some r → q.NotAfter r
  /-- the microseconds are those `setObject` binds -/
  setObject : col.colType = .timestamp → ∀ n,
    StoresCount cfg s col (.localDateTime (some v.arg)) n ↔
      temporalValueOf systemDefault resolve (.localDateTime v) = some (.timestamp n)

section
variable {cfg : Config} {systemDefault : Zone} {resolve : ℤ → ℤ} {s : Appender} {col : Column}

theorem untilMicros_eq_some {v : LocalDateTime} {n : ℤ} :
    untilMicros v = some n ↔ FitsLong (v.count 1000) ∧ n = v.count 1000 := by
  rw [untilMicros_eq]
  split
  · next h => simp [h, eq_comm]
  · next h => simp [h]

theorem getLocalDateTime_of_unit {type : DuckDBColumnType} {u : ChronoUnit}
    (h : zonelessUnit type = some u) (n : ℤ) :
    getLocalDateTimeFromTimestamp systemDefault type n none =
      some (localDateTimeFromTimestamp systemDefault n u none) := by
  cases type <;> cases h <;> rfl

theorem writesDateTime (hs : s.CanPut col) {unit : ℤ} (hunit : unitNanos col.colType = some unit)
    {v : LocalDateTime} (hv : v.Valid) :
    WritesDateTime cfg systemDefault resolve s col unit v := by
  obtain ⟨u, htype, rfl, -, -, -⟩ := kind_of_unitNanos hunit
  have hpos : 0 < u.nanosOf := by cases u <;> decide
  have hstores : ∀ w : LocalDateTime, w.Valid → ∀ n,
      StoresCount cfg s col (.localDateTime (some w.arg)) n ↔
        FitsLong (w.count u.nanosOf) ∧ n = w.count u.nanosOf :=
    fun w hw => storesCount_iff (append_localDateTime hs hunit hw)
  refine ⟨appendThrows_of_not_fits (append_localDateTime hs hunit hv), hstores v hv, ?_, ?_, ?_⟩
  · intro n hn
    obtain ⟨-, rfl⟩ := (hstores v hv n).1 hn
    have hnanos := epochNanos_read systemDefault (v.count u.nanosOf) u
    refine ⟨_, getLocalDateTime_of_unit htype _, valid_read systemDefault hv u, ?_, ?_⟩
    · rw [← count_mul_eq_iff, ← hnanos]
      exact ⟨congrArg _, eq_of_epochNanos_eq (valid_read systemDefault hv u) hv⟩
    · rw [hnanos]
      exact abs_count_sub_lt v hpos
  · intro w hw hvw n m q r hn hm hq hr
    obtain ⟨-, rfl⟩ := (hstores v hv n).1 hn
    obtain ⟨-, rfl⟩ := (hstores w hw m).1 hm
    rw [getLocalDateTime_of_unit htype, Option.some.injEq] at hq hr
    rw [← hq, ← hr, notAfter_iff (valid_read systemDefault hv u) (valid_read systemDefault hw u),
      epochNanos_read, epochNanos_read]
    exact Int.mul_le_mul_of_nonneg_right
      (Int.tdiv_le_tdiv hpos ((notAfter_iff hv hw).1 hvw)) hpos.le
  · intro ht n
    have hmicros : u.nanosOf = 1000 := by
      rw [ht] at hunit
      exact (Option.some.inj hunit).symm
    rw [hstores v hv, hmicros, ← untilMicros_eq_some]
    show _ ↔ (untilMicros v).map TemporalValue.timestamp = some (.timestamp n)
    rw [Option.map_eq_some_iff]
    constructor
    · exact fun h => ⟨n, h, rfl⟩
    · rintro ⟨k, h, heq⟩
      cases heq
      exact h

theorem valid_dateInUtc (d : UtilDate) : d.instant.inUtc.Valid := by
  have hlo := d.getTime.le_toInt
  have hhi := d.getTime.toInt_lt
  have hsub := d.nanosOfMilli.isLt
  refine valid_ofEpochSecond ?_ ?_ ?_
  · show inLocalDateRange (d.getTime.toInt / 1000 / 86400)
    unfold inLocalDateRange
    omega
  · show 0 ≤ d.getTime.toInt % 1000 * 1000000 + (d.nanosOfMilli : ℕ)
    omega
  · show d.getTime.toInt % 1000 * 1000000 + (d.nanosOfMilli : ℕ) < nanosPerSecond
    unfold nanosPerSecond
    omega

theorem epochNanos_millisInUtc (d : UtilDate) :
    d.ofMillis.inUtc.epochNanos = d.getTime.toInt * 1000000 := by
  have h : d.ofMillis.inUtc.epochNanos =
      d.getTime.toInt / 1000 * nanosPerSecond + d.getTime.toInt % 1000 * 1000000 :=
    epochNanos_ofEpochSecond ..
  rw [h]
  unfold nanosPerSecond
  omega

/-- `putDate` counts the milliseconds as `putLocalDateTime` does. -/
theorem dateCell_eq {t : CAPIType} {unit : ℤ} (hunit : unitNanos t = some unit) (d : UtilDate) :
    dateCell t d = countCell (d.ofMillis.inUtc.count unit) := by
  unfold dateCell
  rw [LocalDateTime.count, epochNanos_millisInUtc]
  generalize d.getTime = millis
  have hlo := millis.le_toInt
  have hhi := millis.toInt_lt
  have hfits : FitsLong millis.toInt := ⟨hlo, hhi⟩
  cases t <;> cases hunit
  · -- microseconds
    have hcount : (millis.toInt * 1000000).tdiv 1000 = millis.toInt * 1000 := by
      have hfactor : millis.toInt * 1000000 = millis.toInt * 1000 * 1000 := by omega
      rw [hfactor, Int.mul_tdiv_cancel _ (by decide)]
    rw [hcount]
    show (do let moment ← (if FitsLong _ then _ else _); _ : Except Exn Cell) = _
    unfold countCell
    split <;> rfl
  · -- seconds
    have hcount : (millis.toInt * 1000000).tdiv 1000000000 = millis.toInt.tdiv 1000 :=
      Int.mul_tdiv_mul_of_pos_left (b := 1000000) millis.toInt 1000 (by decide)
    have hsecond : FitsLong (millis.toInt.tdiv 1000) := by
      have hsum := Int.tdiv_mul_add_tmod millis.toInt 1000
      have hgt := Int.lt_tmod_of_pos millis.toInt (b := 1000) (by decide)
      have hlt := Int.tmod_lt_of_pos millis.toInt (b := 1000) (by decide)
      unfold FitsLong
      omega
    rw [hcount, countCell, if_pos hsecond]
    rfl
  · -- milliseconds
    have hcount : (millis.toInt * 1000000).tdiv 1000000 = millis.toInt :=
      Int.mul_tdiv_cancel _ (by decide)
    rw [hcount, countCell, if_pos hfits, BitVec.ofInt_toInt]
    rfl
  · -- nanoseconds
    have hcount : (millis.toInt * 1000000).tdiv 1 = millis.toInt * 1000000 := Int.tdiv_one _
    rw [hcount]
    show (do let moment ← (if FitsLong _ then _ else _); _ : Except Exn Cell) = _
    unfold countCell
    split <;> rfl

/-- What the appender should do with a `java.util.Date`: store the count of its date-time in UTC,
    or throw when it does not fit 64 bits. -/
structure WritesDate (cfg : Config) (s : Appender) (col : Column) (unit : ℤ) (d : UtilDate) :
    Prop where
  stores : FitsLong (d.instant.inUtc.count unit) → ∀ n,
    StoresCount cfg s col (.date (some d)) n ↔
      StoresCount cfg s col (.localDateTime (some d.instant.inUtc.arg)) n
  throws : ¬ FitsLong (d.instant.inUtc.count unit) → AppendThrows cfg s (.date (some d))

/-- The nanoseconds below the millisecond are less than a unit; before the epoch, where the units
    are rounded up, there are none, or the millisecond is not a whole number of units. -/
def UtilDate.KeepsUnits (d : UtilDate) (unit : ℤ) : Prop :=
  if 0 ≤ d.getTime.toInt then (d.nanosOfMilli : ℕ) < unit
  else d.nanosOfMilli = 0 ∨ ¬ unit ∣ d.getTime.toInt * 1000000

/-- The units of a date do not fit 64 bits, with the nanoseconds below the millisecond and
    without. -/
def UtilDate.Overflows (d : UtilDate) (unit : ℤ) : Prop :=
  ¬ FitsLong ((d.getTime.toInt * 1000000).tdiv unit) ∧
    ¬ FitsLong ((d.getTime.toInt * 1000000 + (d.nanosOfMilli : ℕ)).tdiv unit)

theorem epochNanos_dateInUtc (d : UtilDate) :
    d.instant.inUtc.epochNanos = d.getTime.toInt * 1000000 + (d.nanosOfMilli : ℕ) := by
  have h : d.instant.inUtc.epochNanos = d.getTime.toInt / 1000 * nanosPerSecond +
      (d.getTime.toInt % 1000 * 1000000 + (d.nanosOfMilli : ℕ)) := epochNanos_ofEpochSecond ..
  rw [h]
  unfold nanosPerSecond
  omega

/-- When the nanoseconds that `putDate` leaves out do not change the count. -/
theorem UtilDate.count_eq_iff {t : CAPIType} {unit : ℤ} (hunit : unitNanos t = some unit)
    (d : UtilDate) :
    d.ofMillis.inUtc.count unit = d.instant.inUtc.count unit ↔ d.KeepsUnits unit := by
  have hsub := d.nanosOfMilli.isLt
  have hzero : d.nanosOfMilli = 0 ↔ (d.nanosOfMilli : ℕ) = 0 := Fin.ext_iff
  rw [LocalDateTime.count, LocalDateTime.count, epochNanos_millisInUtc, epochNanos_dateInUtc,
    KeepsUnits, hzero]
  generalize d.getTime.toInt = millis
  generalize (d.nanosOfMilli : ℕ) = nanos at hsub ⊢
  by_cases h : 0 ≤ millis
  · rw [if_pos h, Int.tdiv_eq_ediv_of_nonneg (by omega), Int.tdiv_eq_ediv_of_nonneg (by omega)]
    cases t <;> cases hunit <;> omega
  · -- the date is before the epoch with its nanoseconds, too
    have hneg : (millis * 1000000).tdiv unit = -(-(millis * 1000000) / unit) := by
      rw [← Int.tdiv_eq_ediv_of_nonneg (by omega), Int.neg_tdiv, Int.neg_neg]
    have hneg' : (millis * 1000000 + nanos).tdiv unit = -(-(millis * 1000000 + nanos) / unit) := by
      rw [← Int.tdiv_eq_ediv_of_nonneg (by omega), Int.neg_tdiv, Int.neg_neg]
    rw [if_neg h, hneg, hneg']
    cases t <;> cases hunit <;> omega

theorem append_date (hs : s.CanPut col) {unit : ℤ} (hunit : unitNanos col.colType = some unit)
    (d : UtilDate) :
    append cfg (.date (some d)) s =
      s.putResult cfg col (countCell (d.ofMillis.inUtc.count unit)) := by
  obtain ⟨-, -, -, ht, hw, hpos⟩ := kind_of_unitNanos hunit
  refine append_fixed hs ht rfl ?_ hw hpos
  rw [← dateCell_eq hunit]
  rfl

theorem writesDate_iff (hs : s.CanPut col) {unit : ℤ} (hunit : unitNanos col.colType = some unit)
    (d : UtilDate) :
    WritesDate cfg s col unit d ↔ d.KeepsUnits unit ∨ d.Overflows unit := by
  have hoverflows : d.Overflows unit ↔ ¬ FitsLong (d.ofMillis.inUtc.count unit) ∧
      ¬ FitsLong (d.instant.inUtc.count unit) := by
    rw [UtilDate.Overflows, LocalDateTime.count, LocalDateTime.count, epochNanos_millisInUtc,
      epochNanos_dateInUtc]
  rw [← UtilDate.count_eq_iff hunit, hoverflows]
  have hdate : ∀ n, StoresCount cfg s col (.date (some d)) n ↔
      FitsLong (d.ofMillis.inUtc.count unit) ∧ n = d.ofMillis.inUtc.count unit :=
    storesCount_iff (append_date hs hunit d)
  have hldt : ∀ n, StoresCount cfg s col (.localDateTime (some d.instant.inUtc.arg)) n ↔
      FitsLong (d.instant.inUtc.count unit) ∧ n = d.instant.inUtc.count unit :=
    storesCount_iff (append_localDateTime hs hunit (valid_dateInUtc d))
  constructor
  · rintro ⟨hstores, hthrows⟩
    by_cases hfits : FitsLong (d.instant.inUtc.count unit)
    · exact .inl ((hdate _).1 ((hstores hfits _).2 ((hldt _).2 ⟨hfits, rfl⟩))).2.symm
    · refine .inr ⟨fun hmillis => ?_, hfits⟩
      obtain ⟨e, he⟩ := hthrows hfits
      obtain ⟨t, bits, hok, -⟩ := (hdate _).2 ⟨hmillis, rfl⟩
      rw [he] at hok
      cases hok
  · rintro (heq | ⟨hmillis, hfits⟩)
    · refine ⟨fun _ n => by rw [hdate, hldt, heq], fun hfits => ?_⟩
      exact appendThrows_of_not_fits (append_date hs hunit d) (heq ▸ hfits)
    · exact ⟨fun h => absurd h hfits, fun _ =>
        appendThrows_of_not_fits (append_date hs hunit d) hmillis⟩

end

/-- **Timestamp writers agree and read back.**  A date-time is stored as the number of whole units
    from the epoch to it; a `java.util.Date` as its date-time in UTC, if the nanoseconds below the
    millisecond do not count or the count does not fit, and only then; and in microseconds the count
    is that of the parameter. -/
theorem timestamp_writers_agree_iff (cfg : Config) (systemDefault : Zone) (resolve : ℤ → ℤ)
    (s : Appender) (col : Column) (hs : s.CanPut col) :
    (∀ unit, unitNanos col.colType = some unit →
      (∀ v : LocalDateTime, v.Valid → WritesDateTime cfg systemDefault resolve s col unit v) ∧
      ∀ d : UtilDate, WritesDate cfg s col unit d ↔ d.KeepsUnits unit ∨ d.Overflows unit) ∧
    (col.colType = .timestampTz → ∀ odt : OffsetDateTime, odt.dateTime.Valid → ∀ n,
      StoresCount cfg s col (.offsetDateTime (some odt.arg)) n ↔
        timestampTZMicros odt = some n) := by
  refine ⟨fun unit hunit => ⟨fun v hv => writesDateTime hs hunit hv, writesDate_iff hs hunit⟩, ?_⟩
  intro ht odt hodt n
  rw [storesCount_iff (append_offsetDateTime hs ht hodt), timestampTZMicros, untilMicros_eq_some]

/-! ## A TIMESTAMP column -/

/-- A table with one TIMESTAMP column. -/
def timestampTable : Config :=
  .plain (.single (.node (.scalar .timestamp (.refl true)) []) (LogicalType.scalar_wf _ _))

/-- Its column. -/
def timestampColumn : Column := .top 0 (.node (.scalar .timestamp (.refl true)) [])

/-- In the first row. -/
def timestampRow : Appender := { timestampTable.start with currentColumn := some timestampColumn }

theorem canPut_timestampRow : timestampRow.CanPut timestampColumn :=
  ⟨rfl, rfl, ⟨by decide +kernel, by decide +kernel, by decide +kernel⟩⟩

theorem timestamp_writers_agree_micros :
    WritesDateTime timestampTable utc id timestampRow timestampColumn 1000 ⟨-1, 86399, 999999999⟩ ∧
      WritesDate timestampTable timestampRow timestampColumn 1000 ⟨-1, 0⟩ := by
  have h := (timestamp_writers_agree_iff timestampTable utc id timestampRow timestampColumn
    canPut_timestampRow).1 1000 rfl
  exact ⟨h.1 _ ⟨by decide, by decide, by decide, by decide, by decide⟩,
    (h.2 ⟨-1, 0⟩).2 (.inl (.inl rfl))⟩

/-- The `java.sql.Timestamp` of one microsecond after the epoch is stored as the epoch. -/
theorem timestamp_writers_differ : ¬ ∀ (cfg : Config) (s : Appender) (col : Column),
    s.CanPut col → ∀ unit, unitNanos col.colType = some unit →
      ∀ d : UtilDate, WritesDate cfg s col unit d := by
  intro h
  have hdate := h timestampTable timestampRow timestampColumn canPut_timestampRow 1000 rfl ⟨0, 1000⟩
  rcases (writesDate_iff canPut_timestampRow rfl _).1 hdate with hunits | hfits
  · rw [UtilDate.KeepsUnits, if_pos (by decide)] at hunits
    exact absurd hunits (by decide)
  · exact absurd (by decide) hfits.2

end DuckDBJava
