/-
  Timestamps of a result set: from the stored number to `java.time` and `java.sql.Timestamp`.

  The system zone is any `Zone`.  `Timestamp.valueOf` reads the fields of a local date-time in
  the hybrid calendar of `java.util` and resolves them in the same zone.
-/
import DuckDBJava.Lib.Calendar
import DuckDBJava.Result.Types

namespace DuckDBJava

open Calendar

/-! ## java.time -/

/-- `Instant`. -/
structure Instant where
  epochSecond : ℤ
  nano : ℤ
  deriving DecidableEq

/-- `LocalDateTime`, with the date as its epoch day. -/
structure LocalDateTime where
  epochDay : ℤ
  secondOfDay : ℤ
  nano : ℤ
  deriving DecidableEq

/-- `OffsetDateTime`, with the offset in seconds. -/
structure OffsetDateTime where
  dateTime : LocalDateTime
  offset : ℤ
  deriving DecidableEq

/-- The units of the timestamp types. -/
inductive ChronoUnit where
  | seconds | millis | micros | nanos
  deriving DecidableEq

def secondsPerDay : ℤ := 86400

def nanosPerSecond : ℤ := 1000000000

/-- `Instant.ofEpochSecond(epochSecond, nanoAdjustment)`. -/
def Instant.ofEpochSecond (epochSecond nanoAdjustment : ℤ) : Instant :=
  ⟨epochSecond + nanoAdjustment / nanosPerSecond, nanoAdjustment % nanosPerSecond⟩

/-- `LocalDateTime.ofEpochSecond(epochSecond, nano, offset)`. -/
def LocalDateTime.ofEpochSecond (epochSecond nano offset : ℤ) : LocalDateTime :=
  ⟨(epochSecond + offset) / secondsPerDay, (epochSecond + offset) % secondsPerDay, nano⟩

/-- `LocalDateTime.ofInstant(instant, zone)`. -/
def LocalDateTime.ofInstant (instant : Instant) (zone : Zone) : LocalDateTime :=
  ofEpochSecond instant.epochSecond instant.nano (zone.offset instant.epochSecond)

/-- `ldt.toInstant(offset)`. -/
def LocalDateTime.toInstant (ldt : LocalDateTime) (offset : ℤ) : Instant :=
  ⟨ldt.epochDay * secondsPerDay + ldt.secondOfDay - offset, ldt.nano⟩

/-- `odt.toInstant()`. -/
def OffsetDateTime.toInstant (odt : OffsetDateTime) : Instant := odt.dateTime.toInstant odt.offset

/-- `ZoneOffset.UTC`. -/
def utc : Zone := ⟨fun _ => 0⟩

/-! ## DuckDBTimestamp -/

/-- `createInstant`. -/
def createInstant (value : ℤ) : ChronoUnit → Instant
  | .seconds => .ofEpochSecond value 0
  | .millis => ⟨value / 1000, value % 1000 * 1000000⟩
  | .micros => .ofEpochSecond (value.tdiv 1000000) (value.tmod 1000000 * 1000)
  | .nanos => .ofEpochSecond (value.tdiv 1000000000) (value.tmod 1000000000)

/-- `localDateTimeFromTimestampWithTimezone`. -/
def localDateTimeFromTimestampWithTimezone (systemDefault : Zone) (value : ℤ) (unit : ChronoUnit)
    (zoneIdNullable : Option Zone) : LocalDateTime :=
  .ofInstant (createInstant value unit) (zoneIdNullable.getD systemDefault)

/-- `localDateTimeFromTimestamp`. -/
def localDateTimeFromTimestamp (systemDefault : Zone) (value : ℤ) (unit : ChronoUnit)
    (zoneIdNullable : Option Zone) : LocalDateTime :=
  let instant := createInstant value unit
  let ldt := LocalDateTime.ofInstant instant utc
  match zoneIdNullable with
  | none => ldt
  | some zone =>
    let ldtDefault := LocalDateTime.ofInstant instant systemDefault
    let ldtZoned := LocalDateTime.ofInstant instant zone
    let duration := (ldtDefault.toInstant 0).epochSecond - (ldtZoned.toInstant 0).epochSecond
    .ofEpochSecond (ldt.toInstant 0).epochSecond ldt.nano duration

/-! ## DuckDBVector -/

/-- `getLocalDateTimeFromTimestamp` on a cell that is not NULL; `none` for the other types. -/
def getLocalDateTimeFromTimestamp (systemDefault : Zone) (duckdbType : DuckDBColumnType)
    (value : ℤ) (zoneIdNullable : Option Zone) : Option LocalDateTime :=
  match duckdbType with
  | .timestamp => some (localDateTimeFromTimestamp systemDefault value .micros zoneIdNullable)
  | .timestampMs => some (localDateTimeFromTimestamp systemDefault value .millis zoneIdNullable)
  | .timestampNs => some (localDateTimeFromTimestamp systemDefault value .nanos zoneIdNullable)
  | .timestampS => some (localDateTimeFromTimestamp systemDefault value .seconds zoneIdNullable)
  | .timestampWithTimeZone =>
    some (localDateTimeFromTimestampWithTimezone systemDefault value .micros zoneIdNullable)
  | _ => none

/-- `getOffsetDateTime` on a cell of a timestamp type that is not NULL. -/
def getOffsetDateTime (systemDefault : Zone) (duckdbType : DuckDBColumnType) (value : ℤ) :
    Option OffsetDateTime :=
  (getLocalDateTimeFromTimestamp systemDefault duckdbType value none).map fun ldt =>
    let instant := ldt.toInstant 0
    ⟨ldt, systemDefault.offset instant.epochSecond⟩

/-! ## java.sql.Timestamp -/

/-- The first day of the Gregorian calendar in `java.util`, 1582-10-15. -/
def gregorianCutover : ℤ := -141427

/-- The day that `java.util.Date` makes of the year, month and day of an ISO date: before the
    cutover it reads them in the Julian calendar. -/
def hybridDay (epochDay : ℤ) : ℤ :=
  if gregorianCutover ≤ epochDay then epochDay else (MarchDate.ofEpochDay epochDay).julianDay

/-- `Timestamp.valueOf(LocalDateTime)`; `resolve` takes a local time of the system zone to an
    instant. -/
def timestampValueOf (resolve : ℤ → ℤ) (ldt : LocalDateTime) : Instant :=
  ⟨resolve (hybridDay ldt.epochDay * secondsPerDay + ldt.secondOfDay), ldt.nano⟩

/-- `getTimestamp` on a cell of a timestamp type that is not NULL. -/
def getTimestamp (systemDefault : Zone) (resolve : ℤ → ℤ) (duckdbType : DuckDBColumnType)
    (value : ℤ) (calNullable : Option Zone) : Option Instant :=
  (getLocalDateTimeFromTimestamp systemDefault duckdbType value calNullable).map
    (timestampValueOf resolve)

/-! ## TIMESTAMP WITH TIME ZONE -/

/-- The instant a stored number of microseconds stands for. -/
def storedInstant (micros : ℤ) : Instant := ⟨micros / 1000000, micros % 1000000 * 1000⟩

theorem createInstant_micros (micros : ℤ) :
    createInstant micros .micros = storedInstant micros := by
  unfold createInstant storedInstant Instant.ofEpochSecond nanosPerSecond
  have hdiv : micros.tdiv 1000000 * 1000000 + micros.tmod 1000000 = micros := by
    rw [Int.mul_comm]
    exact Int.mul_tdiv_add_tmod micros 1000000
  have hlt := Int.tmod_lt_of_pos micros (b := 1000000) (by decide)
  have hgt := Int.lt_tmod_of_pos micros (b := 1000000) (by decide)
  generalize micros.tdiv 1000000 = q at hdiv ⊢
  generalize micros.tmod 1000000 = r at hdiv hlt hgt ⊢
  rw [Instant.mk.injEq]
  omega

theorem toInstant_ofEpochSecond (epochSecond nano offset k : ℤ) :
    (LocalDateTime.ofEpochSecond epochSecond nano offset).toInstant k =
      ⟨epochSecond + offset - k, nano⟩ := by
  unfold LocalDateTime.ofEpochSecond LocalDateTime.toInstant
  rw [Int.ediv_mul_add_emod]

/-- The local time that the fields of a local time stand for in the hybrid calendar. -/
def hybridSecond (l : ℤ) : ℤ := hybridDay (l / secondsPerDay) * secondsPerDay + l % secondsPerDay

/-- Days whose fields the hybrid calendar reads as the same day: from the cutover on, and from
    0200-03-01 to 0300-02-28. -/
def SameInHybrid (day : ℤ) : Prop :=
  gregorianCutover ≤ day ∨ (gregorianYears 200 ≤ day + 719468 ∧ day + 719468 < gregorianYears 300)

theorem hybridDay_eq_iff (day : ℤ) : hybridDay day = day ↔ SameInHybrid day := by
  unfold hybridDay SameInHybrid
  by_cases h : gregorianCutover ≤ day
  · rw [if_pos h]
    exact iff_of_true rfl (.inl h)
  · rw [if_neg h, or_iff_right h]
    have hyear := julianDay_eq_gregorianDay_iff (MarchDate.ofEpochDay day)
    rw [MarchDate.gregorianDay_ofEpochDay] at hyear
    rw [hyear]
    show 200 ≤ gregorianYear (day + 719468) ∧ gregorianYear (day + 719468) < 300 ↔ _
    rw [le_gregorianYear_iff, ← not_le, le_gregorianYear_iff, not_le]

theorem hybridSecond_eq_iff (l : ℤ) : hybridSecond l = l ↔ SameInHybrid (l / secondsPerDay) := by
  rw [← hybridDay_eq_iff]
  unfold hybridSecond secondsPerDay
  omega

section
variable {zone : Zone} {o : Overlap} {resolve : ℤ → ℤ} {micros : ℤ}

/-- `getOffsetDateTime` looks the offset up at the local time, as if it were an instant. -/
theorem getOffsetDateTime_toInstant :
    (getOffsetDateTime zone .timestampWithTimeZone micros).map OffsetDateTime.toInstant =
      some ⟨zone.localSecond (micros / 1000000) -
        zone.offset (zone.localSecond (micros / 1000000)), (storedInstant micros).nano⟩ := by
  simp only [getOffsetDateTime, getLocalDateTimeFromTimestamp,
    localDateTimeFromTimestampWithTimezone, createInstant_micros, Option.getD_none,
    Option.map_some, LocalDateTime.ofInstant, OffsetDateTime.toInstant, toInstant_ofEpochSecond,
    Int.sub_zero]
  rfl

theorem getTimestamp_eq :
    getTimestamp zone resolve .timestampWithTimeZone micros none =
      some ⟨resolve (hybridSecond (zone.localSecond (micros / 1000000))),
        (storedInstant micros).nano⟩ := by
  simp only [getTimestamp, getLocalDateTimeFromTimestamp,
    localDateTimeFromTimestampWithTimezone, createInstant_micros, Option.getD_none,
    Option.map_some, LocalDateTime.ofInstant]
  rfl

end

/-- Both accessors return the stored instant. -/
def KeepsInstant (zone : Zone) (resolve : ℤ → ℤ) (micros : ℤ) : Prop :=
  (getOffsetDateTime zone .timestampWithTimeZone micros).map OffsetDateTime.toInstant =
      some (storedInstant micros) ∧
    getTimestamp zone resolve .timestampWithTimeZone micros none = some (storedInstant micros)

/-- What the zone must satisfy around the second `s`. -/
structure InstantSurvives (zone : Zone) (o : Overlap) (s : ℤ) : Prop where
  /-- no transition between the instant and its local time read as UTC changes the offset -/
  offset : zone.offset (zone.localSecond s) = zone.offset s
  /-- the local date is the same day in the hybrid calendar -/
  calendar : SameInHybrid (zone.localSecond s / secondsPerDay)
  /-- no other instant is preferred for the local time -/
  overlap : ∀ t, zone.localSecond t = zone.localSecond s → ¬ o.Prefers t s

/-- **The instant of TIMESTAMP WITH TIME ZONE.**  In every zone and for every stored value, both
    accessors return the stored instant if the offset at the instant is also in force at the
    local time read as UTC, the local date is no date of the Julian calendar, and the local time
    stands for this instant; and only then, unless the Julian date falls into a gap of the
    zone. -/
theorem timestamptz_keeps_instant_iff {zone : Zone} {o : Overlap} {resolve : ℤ → ℤ}
    (h : Resolves zone o resolve) (micros : ℤ) :
    (InstantSurvives zone o (micros / 1000000) → KeepsInstant zone resolve micros) ∧
      (KeepsInstant zone resolve micros →
        (∃ t, zone.localSecond t = hybridSecond (zone.localSecond (micros / 1000000))) →
        InstantSurvives zone o (micros / 1000000)) := by
  set s := micros / 1000000 with hs
  have hoffset : (getOffsetDateTime zone .timestampWithTimeZone micros).map
        OffsetDateTime.toInstant = some (storedInstant micros) ↔
      zone.offset (zone.localSecond s) = zone.offset s := by
    rw [getOffsetDateTime_toInstant, ← hs, storedInstant, ← hs, Option.some.injEq,
      Instant.mk.injEq, and_iff_left rfl]
    have hlocal : zone.localSecond s = s + zone.offset s := rfl
    omega
  have htimestamp : getTimestamp zone resolve .timestampWithTimeZone micros none =
        some (storedInstant micros) ↔ resolve (hybridSecond (zone.localSecond s)) = s := by
    rw [getTimestamp_eq, ← hs, storedInstant, ← hs, Option.some.injEq, Instant.mk.injEq,
      and_iff_left rfl]
  constructor
  · rintro ⟨hoff, hcal, hover⟩
    refine ⟨hoffset.2 hoff, htimestamp.2 ?_⟩
    rw [(hybridSecond_eq_iff _).2 hcal]
    exact (h.localSecond_eq_iff s).2 hover
  · rintro ⟨hodt, hts⟩ ⟨t, ht⟩
    have hres := htimestamp.1 hts
    -- read as another local time, the result would be an instant with that local time
    have hsame : zone.localSecond t = zone.localSecond s := by
      by_contra hne
      rw [← ht] at hres
      exact h.ne_of_localSecond_ne hne hres
    have hcal : hybridSecond (zone.localSecond s) = zone.localSecond s := ht.symm.trans hsame
    rw [hcal] at hres
    exact ⟨hoffset.1 hodt, (hybridSecond_eq_iff _).1 hcal, (h.localSecond_eq_iff s).1 hres⟩

theorem timestamptz_keeps_instant_fixed :
    Resolves ⟨fun _ => 3600⟩ .first (fun l => l - 3600) ∧
      KeepsInstant ⟨fun _ => 3600⟩ (fun l => l - 3600) 1700000000000000 := by
  refine ⟨.fixed _ _, (timestamptz_keeps_instant_iff (.fixed .first 3600) _).1 ⟨rfl, ?_, ?_⟩⟩
  · exact .inl (by decide)
  · intro t ht hp
    have ht : t + 3600 = 1700000000000000 / 1000000 + 3600 := ht
    obtain rfl : t = 1700000000000000 / 1000000 := by omega
    exact hp.asymm hp

/-- A zone that goes from UTC+1 to UTC+2 at the second 1000000. -/
def springForward : Zone := ⟨fun s => if s < 1000000 then 3600 else 7200⟩

/-- How its local times are resolved. -/
def springForwardResolve (l : ℤ) : ℤ := if l < 1007200 then l - 3600 else l - 7200

theorem springForward_resolves (o : Overlap) : Resolves springForward o springForwardResolve := by
  have hround : ∀ s, springForwardResolve (springForward.localSecond s) = s := by
    intro s
    simp only [springForwardResolve, springForward, Zone.localSecond]
    split <;> split <;> omega
  exact ⟨fun s => by rw [hround], fun s => .inl (hround s).symm⟩

/-- Half an hour before the transition, `getOffsetDateTime` already takes the offset after it. -/
theorem timestamptz_instant_lost :
    Resolves springForward .first springForwardResolve ∧
      ¬ KeepsInstant springForward springForwardResolve 998200000000 := by
  refine ⟨springForward_resolves _, fun h => ?_⟩
  have hodt := h.1
  rw [getOffsetDateTime_toInstant] at hodt
  revert hodt
  decide

end DuckDBJava
