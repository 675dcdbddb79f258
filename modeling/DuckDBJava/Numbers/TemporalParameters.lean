/-
  Temporal parameters: `setTimestamp`, `setTime` and `setDate`, with a calendar and without.

  With a calendar the setter stores a `java.time` value, read from the milliseconds of the
  argument in the calendar's zone.  Without one it stores the argument, and
  `DuckDBTimestamp.valueOf` later reads its fields in the default zone.  The fields of a
  `java.util.Date` are those of the hybrid calendar, with the years before the first counted
  backwards.
-/
import DuckDBJava.Result.Timestamps

namespace DuckDBJava

open Calendar

/-! ## java.util and java.sql -/

/-- The fields with the year of the era, as `java.util.Date` reports them. -/
def inEra (d : MarchDate) : MarchDate :=
  if d.civilYear ≤ 0 then ⟨(if d.day < 306 then 1 else -1) - d.year, d.day⟩ else d

/-- The year, month and day that `java.util.Date` reports for a day. -/
def dateFields (epochDay : ℤ) : MarchDate :=
  if gregorianCutover ≤ epochDay then .ofEpochDay epochDay else inEra (.ofJulianDay epochDay)

/-- `LocalDate.of`: a day past the end of the year is a February 29 the year does not have. -/
def localDateOf (d : MarchDate) : Option ℤ :=
  if d.day < gregorianYears (d.year + 1) - gregorianYears d.year then some d.gregorianDay else none

/-- `toLocalDate` of a `java.sql.Date` on that day. -/
def toLocalDate (epochDay : ℤ) : Option ℤ := localDateOf (dateFields epochDay)

/-- `java.sql.Timestamp`. -/
structure SqlTimestamp where
  second : ℤ
  nanos : ℤ
  nanos_nonneg : 0 ≤ nanos
  nanos_lt : nanos < nanosPerSecond

/-- `getTime` -/
def SqlTimestamp.getTime (x : SqlTimestamp) : ℤ := x.second * 1000 + x.nanos / 1000000

/-- `toLocalDateTime` -/
def SqlTimestamp.toLocalDateTime (systemDefault : Zone) (x : SqlTimestamp) : Option LocalDateTime :=
  let l := systemDefault.localSecond x.second
  (toLocalDate (l / secondsPerDay)).map fun day => ⟨day, l % secondsPerDay, x.nanos⟩

/-- The second of `Date.valueOf(LocalDate)`. -/
def dateValueOf (resolve : ℤ → ℤ) (epochDay : ℤ) : ℤ :=
  resolve (hybridDay epochDay * secondsPerDay)

/-! ## java.time -/

def nanosPerDay : ℤ := 86400000000000

/-- A `long` result that throws `ArithmeticException` on overflow. -/
def checkedLong (n : ℤ) : Option ℤ := if -2 ^ 63 ≤ n ∧ n < 2 ^ 63 then some n else none

/-- `Instant.ofEpochMilli` -/
def Instant.ofEpochMilli (epochMilli : ℤ) : Instant :=
  ⟨epochMilli / 1000, epochMilli % 1000 * 1000000⟩

/-- `toEpochMilli` -/
def Instant.toEpochMilli (instant : Instant) : Option ℤ :=
  checkedLong (instant.epochSecond * 1000 + instant.nano / 1000000)

/-- `toNanoOfDay` of the local time. -/
def LocalDateTime.nanoOfDay (ldt : LocalDateTime) : ℤ :=
  ldt.secondOfDay * nanosPerSecond + ldt.nano

/-- `RefLocalDateTime.until(ldt, MICROS)`: whole microseconds from the epoch, rounded toward it. -/
def untilMicros (ldt : LocalDateTime) : Option ℤ :=
  checkedLong ((ldt.epochDay * nanosPerDay + ldt.nanoOfDay).tdiv 1000)

/-- `TimeUnit.MILLISECONDS.toMicros`, which saturates. -/
def millisToMicros (millis : ℤ) : ℤ := max (-2 ^ 63) (min (2 ^ 63 - 1) (millis * 1000))

/-- `TimeUnit.NANOSECONDS.toMicros` -/
def nanosToMicros (nanos : ℤ) : ℤ := nanos.tdiv 1000

/-! ## The driver -/

/-- The value of a parameter, as the engine gets it. -/
inductive TemporalValue where
  | timestamp (micros : ℤ)
  | time (micros : ℤ)
  | date (days : BitVec 32)
  deriving DecidableEq

/-- What a setter stores. -/
inductive TemporalParam where
  | sqlTimestamp (x : SqlTimestamp)
  | sqlTime (millis : BitVec 64)
  | sqlDate (millis : BitVec 64)
  | localDateTime (ldt : LocalDateTime)
  | localTime (nanoOfDay : ℤ)
  | localDate (epochDay : ℤ)

/-- `setTimestamp(parameterIndex, x, cal)` -/
def setTimestamp (x : SqlTimestamp) : Option Zone → TemporalParam
  | none => .sqlTimestamp x
  | some zoneId => .localDateTime (.ofInstant (.ofEpochMilli x.getTime) zoneId)

/-- `setTime(parameterIndex, x, cal)` -/
def setTime (millis : BitVec 64) : Option Zone → TemporalParam
  | none => .sqlTime millis
  | some zoneId =>
    .localTime (LocalDateTime.ofInstant (.ofEpochMilli millis.toInt) zoneId).nanoOfDay

/-- `setDate(parameterIndex, x, cal)` -/
def setDate (millis : BitVec 64) : Option Zone → TemporalParam
  | none => .sqlDate millis
  | some zoneId => .localDate (LocalDateTime.ofInstant (.ofEpochMilli millis.toInt) zoneId).epochDay

/-- `DuckDBTime.timeToMillis` -/
def timeToMillis (systemDefault : Zone) (millis : ℤ) : Option ℤ :=
  ((LocalDateTime.ofInstant (.ofEpochMilli millis) systemDefault).toInstant 0).toEpochMilli

/-- `DuckDBDate`, of the second of a `java.sql.Date`; the engine's date has 32 bits. -/
def duckDBDate (systemDefault : Zone) (second : ℤ) : Option (BitVec 32) :=
  (toLocalDate (systemDefault.localSecond second / secondsPerDay)).map (BitVec.ofInt 32)

/-- `DuckDBTimestamp.valueOf`, and the value made of its result; `none` where it throws. -/
def temporalValueOf (systemDefault : Zone) (resolve : ℤ → ℤ) :
    TemporalParam → Option TemporalValue
  | .sqlTimestamp x => do
    let ldt ← x.toLocalDateTime systemDefault
    (untilMicros ldt).map .timestamp
  | .localDateTime ldt => (untilMicros ldt).map .timestamp
  | .localDate epochDay => (duckDBDate systemDefault (dateValueOf resolve epochDay)).map .date
  | .sqlDate millis => (duckDBDate systemDefault (millis.toInt / 1000)).map .date
  | .sqlTime millis =>
    (timeToMillis systemDefault millis.toInt).map fun millis => .time (millisToMicros millis)
  | .localTime nanoOfDay => some (.time (nanosToMicros nanoOfDay))

/-! ## Days of the hybrid calendar -/

/-- The day before which `java.util` counts years backwards, in the Julian calendar: 0001-01-01. -/
def firstDayOfEra : ℤ := -719164

theorem civilYear_pos_iff {d : MarchDate} (h : d.IsJulian) :
    0 < d.civilYear ↔ firstDayOfEra ≤ d.julianDay := by
  obtain ⟨y, e⟩ := d
  obtain ⟨hnonneg, hlt⟩ := h
  simp only [julianYears] at hnonneg hlt
  unfold MarchDate.civilYear MarchDate.julianDay firstDayOfEra julianYears
  simp only
  split <;> omega

@[simp] theorem inEra_day (d : MarchDate) : (inEra d).day = d.day := by
  unfold inEra
  split_ifs <;> rfl

theorem inEra_year (d : MarchDate) : (inEra d).year =
    if d.civilYear ≤ 0 then (if d.day < 306 then 1 else -1) - d.year else d.year := by
  unfold inEra
  split_ifs <;> rfl

theorem inEra_of_pos {d : MarchDate} (h : 0 < d.civilYear) : inEra d = d :=
  if_neg (not_le.2 h)

/-- A year counted backwards is a year of the era. -/
theorem inEra_gregorianDay_of_nonpos {d : MarchDate} (h : d.IsJulian) (hyear : d.civilYear ≤ 0) :
    firstDayOfEra + 2 ≤ (inEra d).gregorianDay := by
  obtain ⟨y, e⟩ := d
  obtain ⟨hnonneg, hlt⟩ := h
  unfold inEra
  rw [if_pos hyear]
  unfold MarchDate.civilYear at hyear
  simp only at hyear hnonneg
  unfold MarchDate.gregorianDay firstDayOfEra gregorianYears
  simp only
  split_ifs at hyear ⊢ <;> omega

theorem localDateOf_eq_some {d : MarchDate} {day : ℤ} :
    localDateOf d = some day ↔
      d.day < gregorianYears (d.year + 1) - gregorianYears d.year ∧ d.gregorianDay = day := by
  unfold localDateOf
  split_ifs with h <;> simp [h]

theorem toLocalDate_of_le {day : ℤ} (h : gregorianCutover ≤ day) : toLocalDate day = some day := by
  unfold toLocalDate dateFields
  rw [if_pos h, localDateOf_eq_some]
  exact ⟨(MarchDate.isGregorian_ofEpochDay day).lt, MarchDate.gregorianDay_ofEpochDay day⟩

theorem toLocalDate_of_lt {day : ℤ} (h : day < gregorianCutover) :
    toLocalDate day = localDateOf (inEra (.ofJulianDay day)) := by
  unfold toLocalDate dateFields
  rw [if_neg (not_le.2 h)]

/-- Before the cutover, the days whose fields are the same in both calendars. -/
theorem sameInHybrid_iff_of_lt {day : ℤ} (h : day < gregorianCutover) :
    SameInHybrid day ↔ MarchDate.ofJulianDay day = .ofEpochDay day := by
  rw [← hybridDay_eq_iff, hybridDay, if_neg (not_le.2 h)]
  constructor
  · intro hday
    have hJ := MarchDate.ofJulianDay_julianDay (MarchDate.isGregorian_ofEpochDay day).isJulian
    rwa [hday] at hJ
  · intro hfields
    rw [← hfields]
    exact MarchDate.julianDay_ofJulianDay day

/-- Dates with the same day number whose years of the era agree are one date. -/
theorem eq_of_inEra_eq {d e : MarchDate} (hday : d.julianDay = e.gregorianDay)
    (h : inEra d = inEra e) : d = e := by
  have hyear := congrArg MarchDate.year h
  have hsame := congrArg MarchDate.day h
  rw [inEra_day, inEra_day] at hsame
  rw [inEra_year, inEra_year] at hyear
  obtain ⟨y, a⟩ := d
  obtain ⟨z, b⟩ := e
  unfold MarchDate.julianDay MarchDate.gregorianDay julianYears gregorianYears at hday
  unfold MarchDate.civilYear at hyear
  simp only at hday hsame hyear
  rw [MarchDate.mk.injEq]
  split_ifs at hyear <;> omega

/-- The day is read as itself on the days both calendars name alike, and on no other. -/
theorem toLocalDate_eq_self_iff (day : ℤ) : toLocalDate day = some day ↔ SameInHybrid day := by
  by_cases hle : gregorianCutover ≤ day
  · exact iff_of_true (toLocalDate_of_le hle) (.inl hle)
  have hlt : day < gregorianCutover := not_le.1 hle
  have hJ := MarchDate.isJulian_ofJulianDay day
  have hJday := MarchDate.julianDay_ofJulianDay day
  have hera := civilYear_pos_iff hJ
  rw [hJday] at hera
  rw [toLocalDate_of_lt hlt, localDateOf_eq_some]
  constructor
  · rintro ⟨hvalid, hday⟩
    have hpos : 0 < (MarchDate.ofJulianDay day).civilYear := by
      by_contra hnonpos
      have := inEra_gregorianDay_of_nonpos hJ (not_lt.1 hnonpos)
      rw [hday] at this
      exact hnonpos (hera.2 (by omega))
    rw [inEra_of_pos hpos] at hvalid hday
    refine (sameInHybrid_iff_of_lt hlt).2 (MarchDate.IsGregorian.eq ⟨hJ.nonneg, hvalid⟩
      (MarchDate.isGregorian_ofEpochDay day) ?_)
    rw [hday, MarchDate.gregorianDay_ofEpochDay]
  · intro hsame
    have hpos : 0 < (MarchDate.ofJulianDay day).civilYear := by
      refine hera.2 ?_
      rcases hsame with h | h
      · exact absurd h hle
      · have h200 : gregorianYears 200 = 73048 := by decide
        unfold firstDayOfEra
        omega
    rw [inEra_of_pos hpos, (sameInHybrid_iff_of_lt hlt).1 hsame]
    exact ⟨(MarchDate.isGregorian_ofEpochDay day).lt, MarchDate.gregorianDay_ofEpochDay day⟩

/-- Within the range of a `long` of milliseconds, the two ways to read a day of the Julian calendar
    are less than `2 ^ 32` days apart. -/
theorem inEra_close {d e : MarchDate} (hd : d.IsJulian) (he : e.IsGregorian)
    (hday : d.julianDay = e.gregorianDay) (hlo : -2 ^ 38 ≤ d.julianDay)
    (hhi : d.julianDay ≤ 2 ^ 38) :
    -2 ^ 32 < (inEra d).gregorianDay - (inEra e).gregorianDay ∧
      (inEra d).gregorianDay - (inEra e).gregorianDay < 2 ^ 32 := by
  have hdyear := gregorianYears_bounds (inEra d).year
  have heyear := gregorianYears_bounds (inEra e).year
  have hyear := gregorianYears_bounds e.year
  have hdlt := hd.lt
  have helt := he.isJulian.lt
  have hd0 := hd.nonneg
  have he0 := he.nonneg
  unfold MarchDate.gregorianDay at hday ⊢
  rw [inEra_day, inEra_day]
  generalize gregorianYears (inEra d).year = p at *
  generalize gregorianYears (inEra e).year = q at *
  generalize gregorianYears e.year = r at *
  rw [inEra_year] at hdyear heyear
  unfold MarchDate.civilYear at hdyear heyear
  unfold MarchDate.julianDay julianYears at *
  split_ifs at hdyear heyear <;> omega

/-- The two ways to read a day give one 32-bit date only on the days both calendars name alike. -/
theorem sameInHybrid_of_dates {day a b : ℤ} (hlo : -2 ^ 38 ≤ day) (hhi : day ≤ 2 ^ 38)
    (ha : toLocalDate day = some a) (hb : toLocalDate (hybridDay day) = some b)
    (heq : BitVec.ofInt 32 a = BitVec.ofInt 32 b) : SameInHybrid day := by
  by_cases hle : gregorianCutover ≤ day
  · exact .inl hle
  have hlt : day < gregorianCutover := not_le.1 hle
  have hJ := MarchDate.isJulian_ofJulianDay day
  have hG := MarchDate.isGregorian_ofEpochDay day
  have hJday := MarchDate.julianDay_ofJulianDay day
  have hGday := MarchDate.gregorianDay_ofEpochDay day
  rw [sameInHybrid_iff_of_lt hlt]
  rw [toLocalDate_of_lt hlt, localDateOf_eq_some] at ha
  obtain ⟨havalid, ha⟩ := ha
  rw [hybridDay, if_neg hle] at hb
  generalize MarchDate.ofJulianDay day = J at *
  generalize MarchDate.ofEpochDay day = G at *
  have hmod : (a - b) % 2 ^ 32 = 0 := by
    have h := congrArg BitVec.toNat heq
    rw [BitVec.toNat_ofInt, BitVec.toNat_ofInt] at h
    omega
  by_cases hcut : gregorianCutover ≤ G.julianDay
  · -- the last ten days before the cutover: one reading goes back ten days, the other forward
    rw [toLocalDate_of_le hcut, Option.some.injEq] at hb
    have hJ0 := hJ.nonneg
    have hJlt := hJ.lt
    have hG0 := hG.nonneg
    have hGlt := hG.isJulian.lt
    have hGyear : G.year = 1582 := by
      unfold MarchDate.julianDay MarchDate.gregorianDay julianYears gregorianYears
        gregorianCutover at *
      omega
    have hJyear : J.year = 1582 := by
      unfold MarchDate.julianDay MarchDate.gregorianDay julianYears gregorianYears
        gregorianCutover at *
      omega
    have hpos : 0 < J.civilYear := by
      unfold MarchDate.civilYear
      split <;> omega
    rw [inEra_of_pos hpos] at ha
    unfold MarchDate.julianDay MarchDate.gregorianDay at *
    rw [hJyear] at ha hJday
    rw [hGyear] at hb hGday
    have hgregorian : gregorianYears 1582 = 577813 := by decide
    have hjulian : julianYears 1582 = 577825 := by decide
    omega
  · rw [toLocalDate_of_lt (not_le.1 hcut), MarchDate.ofJulianDay_julianDay hG.isJulian,
      localDateOf_eq_some] at hb
    obtain ⟨hbvalid, hb⟩ := hb
    have hclose := inEra_close hJ hG (hJday.trans hGday.symm) (by omega) (by omega)
    have hday : (inEra J).gregorianDay = (inEra G).gregorianDay := by omega
    refine eq_of_inEra_eq (hJday.trans hGday.symm) (MarchDate.IsGregorian.eq ⟨?_, havalid⟩
      ⟨?_, hbvalid⟩ hday)
    · rw [inEra_day]
      exact hJ.nonneg
    · rw [inEra_day]
      exact hG.nonneg

/-! ## The setters -/

/-- An argument of a temporal setter; a `Time` and a `Date` by their milliseconds. -/
inductive SqlTemporal where
  | timestamp (x : SqlTimestamp)
  | time (millis : BitVec 64)
  | date (millis : BitVec 64)

/-- What the setter of the argument's type stores. -/
def SqlTemporal.set : SqlTemporal → Option Zone → TemporalParam
  | timestamp x => setTimestamp x
  | time millis => setTime millis
  | date millis => setDate millis

/-- A TIME lies in `[0, 24h)`. -/
def TemporalValue.InDay : TemporalValue → Prop
  | time micros => 0 ≤ micros ∧ micros < 86400000000
  | _ => True

/-- The two setters bind the same value, and a TIME lies in `[0, 24h)`. -/
def SettersAgree (systemDefault : Zone) (resolve : ℤ → ℤ) (x : SqlTemporal) : Prop :=
  ∃ v, temporalValueOf systemDefault resolve (x.set none) = some v ∧
    temporalValueOf systemDefault resolve (x.set (some systemDefault)) = some v ∧ v.InDay

/-- The local day of the second. -/
def localDay (zone : Zone) (second : ℤ) : ℤ := zone.localSecond second / secondsPerDay

/-- The milliseconds of local time since the epoch. -/
def localMillis (zone : Zone) (millis : ℤ) : ℤ := millis + zone.offset (millis / 1000) * 1000

/-- Nothing is lost of the nanoseconds: below a millisecond there are less than one microsecond,
    and before the epoch, where they are rounded up, none. -/
def NoSubMillis (l nanos : ℤ) : Prop :=
  if 0 ≤ l then nanos % 1000000 < 1000 else nanos % 1000000 = 0

/-- The microseconds of a local time fit a `long`. -/
def MicrosFit (l nanos : ℤ) : Prop :=
  -2 ^ 63 ≤ l * 1000000 + nanos / 1000000 * 1000 ∧ l * 1000000 + nanos / 1000000 * 1000 < 2 ^ 63

/-- When the two setters agree. -/
def AgreeCondition (systemDefault : Zone) : SqlTemporal → Prop
  | .timestamp x => SameInHybrid (localDay systemDefault x.second) ∧
      NoSubMillis (systemDefault.localSecond x.second) x.nanos ∧
      MicrosFit (systemDefault.localSecond x.second) x.nanos
  | .time millis => 0 ≤ localMillis systemDefault millis.toInt ∧
      localMillis systemDefault millis.toInt < 86400000
  | .date millis => SameInHybrid (localDay systemDefault (millis.toInt / 1000))

/-- `java.util` resolves the midnight of the date it makes of a day to an instant of that date. -/
def MidnightKept (systemDefault : Zone) (resolve : ℤ → ℤ) (epochDay : ℤ) : Prop :=
  localDay systemDefault (dateValueOf resolve epochDay) = hybridDay epochDay

/-- The offsets of `java.time` are at most 18 hours. -/
def Zone18Hours (zone : Zone) : Prop := ∀ s, -64800 ≤ zone.offset s ∧ zone.offset s ≤ 64800

section
variable {systemDefault : Zone} {resolve : ℤ → ℤ}

theorem checkedLong_eq_some {n v : ℤ} :
    checkedLong n = some v ↔ (-2 ^ 63 ≤ n ∧ n < 2 ^ 63) ∧ n = v := by
  unfold checkedLong
  split_ifs with h
  · rw [Option.some.injEq, and_iff_right h]
  · exact iff_of_false nofun fun hn => h hn.1

/-- On any other day, or with less than a millisecond left over, the microseconds differ. -/
theorem micros_eq_iff (l day : ℤ) {n : ℤ} (h0 : 0 ≤ n) (h1 : n < nanosPerSecond) :
    (day * nanosPerDay + (l % secondsPerDay * nanosPerSecond + n)).tdiv 1000 =
        l * 1000000 + n / 1000000 * 1000 ↔
      day = l / secondsPerDay ∧ NoSubMillis l n := by
  unfold NoSubMillis nanosPerDay secondsPerDay nanosPerSecond at *
  have hsign : Int.sign 1000 = 1 := rfl
  rw [Int.tdiv_eq_ediv, hsign]
  split_ifs <;> omega

theorem ofEpochMilli_getTime (x : SqlTimestamp) :
    Instant.ofEpochMilli x.getTime = ⟨x.second, x.nanos / 1000000 * 1000000⟩ := by
  have h0 := x.nanos_nonneg
  have h1 := x.nanos_lt
  unfold nanosPerSecond at h1
  unfold Instant.ofEpochMilli SqlTimestamp.getTime
  rw [Instant.mk.injEq]
  omega

/-- Through the calendar, the microseconds of the local time cut to milliseconds. -/
theorem calendar_timestamp_value (x : SqlTimestamp) :
    temporalValueOf systemDefault resolve (setTimestamp x (some systemDefault)) =
      (checkedLong (systemDefault.localSecond x.second * 1000000 +
        x.nanos / 1000000 * 1000)).map .timestamp := by
  have h0 := x.nanos_nonneg
  have h1 := x.nanos_lt
  simp only [setTimestamp, temporalValueOf, ofEpochMilli_getTime, LocalDateTime.ofInstant,
    LocalDateTime.ofEpochSecond, untilMicros, LocalDateTime.nanoOfDay]
  have hlocal : x.second + systemDefault.offset x.second = systemDefault.localSecond x.second := rfl
  rw [hlocal]
  have hcut0 : 0 ≤ x.nanos / 1000000 * 1000000 := by omega
  have hcut1 : x.nanos / 1000000 * 1000000 < nanosPerSecond := by omega
  rw [(micros_eq_iff (systemDefault.localSecond x.second) _ hcut0 hcut1).2
    ⟨rfl, by unfold NoSubMillis; split_ifs <;> omega⟩]
  congr 2
  omega

theorem timestamp_setters_agree_iff (x : SqlTimestamp) :
    SettersAgree systemDefault resolve (.timestamp x) ↔
      AgreeCondition systemDefault (.timestamp x) := by
  have hnano := fun day => micros_eq_iff (systemDefault.localSecond x.second) day
    x.nanos_nonneg x.nanos_lt
  simp only [SettersAgree, AgreeCondition, SqlTemporal.set, MicrosFit, localDay,
    calendar_timestamp_value, ← toLocalDate_eq_self_iff]
  simp only [setTimestamp, temporalValueOf, SqlTimestamp.toLocalDateTime, untilMicros,
    LocalDateTime.nanoOfDay, Option.map_eq_some_iff, checkedLong_eq_some, bind,
    Option.bind_eq_some_iff]
  constructor
  · rintro ⟨_, ⟨_, ⟨day, hday, rfl⟩, micros, ⟨-, rfl⟩, rfl⟩, ⟨_, ⟨hfit, rfl⟩, heq⟩, -⟩
    obtain ⟨rfl, hsub⟩ := (hnano day).1 (TemporalValue.timestamp.inj heq).symm
    exact ⟨hday, hsub, hfit⟩
  · rintro ⟨hday, hsub, hfit⟩
    have hmicros := (hnano _).2 ⟨rfl, hsub⟩
    refine ⟨_, ⟨_, ⟨_, hday, rfl⟩, _, ⟨?_, rfl⟩, rfl⟩, ⟨_, ⟨hfit, rfl⟩, ?_⟩, trivial⟩
    · rw [hmicros]
      exact hfit
    · rw [hmicros]

/-- Without a calendar, all milliseconds of local time since the epoch. -/
theorem sqlTime_value (millis : BitVec 64) :
    temporalValueOf systemDefault resolve (setTime millis none) =
      (checkedLong (localMillis systemDefault millis.toInt)).map
        fun millis => .time (millisToMicros millis) := by
  simp only [setTime, temporalValueOf, timeToMillis, LocalDateTime.ofInstant,
    toInstant_ofEpochSecond, Instant.toEpochMilli, Instant.ofEpochMilli, localMillis]
  congr 2
  omega

/-- Through the calendar, the milliseconds since midnight. -/
theorem calendar_time_value (millis : BitVec 64) :
    temporalValueOf systemDefault resolve (setTime millis (some systemDefault)) =
      some (.time (localMillis systemDefault millis.toInt % 86400000 * 1000)) := by
  simp only [setTime, temporalValueOf, LocalDateTime.ofInstant, LocalDateTime.ofEpochSecond,
    LocalDateTime.nanoOfDay, Instant.ofEpochMilli, localMillis, nanosToMicros, secondsPerDay,
    nanosPerSecond]
  generalize systemDefault.offset (millis.toInt / 1000) = offset
  rw [Option.some.injEq, TemporalValue.time.injEq, Int.tdiv_eq_ediv_of_nonneg (by omega)]
  omega

theorem time_setters_agree_iff (millis : BitVec 64) :
    SettersAgree systemDefault resolve (.time millis) ↔
      AgreeCondition systemDefault (.time millis) := by
  simp only [SettersAgree, AgreeCondition, SqlTemporal.set, sqlTime_value, calendar_time_value,
    Option.map_eq_some_iff, checkedLong_eq_some, millisToMicros]
  generalize localMillis systemDefault millis.toInt = l
  constructor
  · rintro ⟨_, ⟨_, ⟨-, rfl⟩, rfl⟩, heq, -⟩
    have hmicros := TemporalValue.time.inj (Option.some.inj heq)
    omega
  · rintro ⟨h0, h1⟩
    refine ⟨_, ⟨l, ⟨by omega, rfl⟩, rfl⟩, ?_, ?_⟩
    · rw [Option.some.injEq, TemporalValue.time.injEq]
      omega
    · show 0 ≤ _ ∧ _ < _
      omega

theorem localDay_range (hoffset : Zone18Hours systemDefault) (millis : BitVec 64) :
    -2 ^ 38 ≤ localDay systemDefault (millis.toInt / 1000) ∧
      localDay systemDefault (millis.toInt / 1000) ≤ 2 ^ 38 := by
  have hlt := BitVec.toInt_lt (x := millis)
  have hle := BitVec.le_toInt (x := millis)
  have hzone := hoffset (millis.toInt / 1000)
  unfold localDay Zone.localSecond secondsPerDay
  omega

theorem date_setters_agree_iff (hoffset : Zone18Hours systemDefault) {millis : BitVec 64}
    (hmidnight : MidnightKept systemDefault resolve
      (localDay systemDefault (millis.toInt / 1000))) :
    SettersAgree systemDefault resolve (.date millis) ↔
      AgreeCondition systemDefault (.date millis) := by
  obtain ⟨hlo, hhi⟩ := localDay_range hoffset millis
  have hcal : (LocalDateTime.ofInstant (.ofEpochMilli millis.toInt) systemDefault).epochDay =
      localDay systemDefault (millis.toInt / 1000) := rfl
  unfold MidnightKept localDay at hmidnight
  simp only [SettersAgree, AgreeCondition, SqlTemporal.set, setDate, temporalValueOf, duckDBDate,
    hcal]
  unfold localDay at *
  rw [hmidnight]
  generalize systemDefault.localSecond (millis.toInt / 1000) / secondsPerDay = day at *
  constructor
  · simp only [Option.map_eq_some_iff]
    rintro ⟨_, ⟨_, ⟨a, ha, rfl⟩, rfl⟩, ⟨_, ⟨b, hb, rfl⟩, heq⟩, -⟩
    exact sameInHybrid_of_dates hlo hhi ha hb (TemporalValue.date.inj heq).symm
  · intro hsame
    rw [(hybridDay_eq_iff day).2 hsame, (toLocalDate_eq_self_iff day).2 hsame]
    exact ⟨_, rfl, rfl, trivial⟩

/-- **Temporal setters with a calendar and without.**  In every default zone, an argument is bound
    to the same value through a calendar of that zone, a TIME in `[0, 24h)`, if and only if it is
    a timestamp or a date on a day that both calendars name alike, the timestamp with nothing
    below the millisecond that counts, or a time without a date part. -/
theorem temporal_setters_agree_iff (hoffset : Zone18Hours systemDefault) (x : SqlTemporal)
    (hmidnight : ∀ millis, x = .date millis →
      MidnightKept systemDefault resolve (localDay systemDefault (millis.toInt / 1000))) :
    SettersAgree systemDefault resolve x ↔ AgreeCondition systemDefault x := by
  cases x with
  | timestamp x => exact timestamp_setters_agree_iff x
  | time millis => exact time_setters_agree_iff millis
  | date millis => exact date_setters_agree_iff hoffset (hmidnight millis rfl)

end

/-- 2023-11-14 in UTC+1. -/
theorem temporal_setters_agree_date :
    SettersAgree ⟨fun _ => 3600⟩ (fun l => l - 3600) (.date 1699999200000) := by
  have hrange : (-64800 : ℤ) ≤ 3600 ∧ (3600 : ℤ) ≤ 64800 := by decide
  have hoffset : Zone18Hours ⟨fun _ => 3600⟩ := fun _ => hrange
  refine (temporal_setters_agree_iff hoffset _ ?_).2 (.inl (by decide))
  rintro millis heq
  cases heq
  show localDay _ _ = hybridDay _
  decide

/-- A microsecond after the epoch is lost through the calendar, and so is the day of a time a day
    after it. -/
theorem temporal_setters_differ :
    ¬ SettersAgree utc (fun l => l - 0) (.timestamp ⟨0, 1000, by decide, by decide⟩) ∧
      ¬ SettersAgree utc (fun l => l - 0) (.time 86400000) := by
  constructor
  · rintro ⟨v, hsql, hcal, -⟩
    rw [← hsql] at hcal
    revert hcal
    decide
  · rintro ⟨v, hsql, hcal, -⟩
    rw [← hsql] at hcal
    revert hcal
    decide

end DuckDBJava
