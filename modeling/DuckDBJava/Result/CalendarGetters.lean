/-
  `getTimestamp(i, cal)` on the timestamp types without a time zone.

  The stored number counts from 1970-01-01T00:00 on a wall clock.  The driver shifts it by the
  difference of the offsets of the default zone and of the calendar's zone, both looked up at the
  number read as UTC, and hands the result to `Timestamp.valueOf`.
-/
import DuckDBJava.Result.Timestamps

namespace DuckDBJava

open Calendar

/-! ## The stored wall clock -/

/-- The unit of a timestamp type without a time zone. -/
def zonelessUnit : DuckDBColumnType → Option ChronoUnit
  | .timestamp => some .micros
  | .timestampS => some .seconds
  | .timestampMs => some .millis
  | .timestampNs => some .nanos
  | _ => none

/-- How many of the unit make a second. -/
def ChronoUnit.perSecond : ChronoUnit → ℤ
  | .seconds => 1
  | .millis => 1000
  | .micros => 1000000
  | .nanos => 1000000000

/-- The second of the wall clock a stored number stands for. -/
def wallSecond (value : ℤ) (unit : ChronoUnit) : ℤ := value / unit.perSecond

/-- The nanoseconds past that second. -/
def wallNano (value : ℤ) (unit : ChronoUnit) : ℤ :=
  value % unit.perSecond * (nanosPerSecond / unit.perSecond)

/-- Java's quotient and remainder, put together by `Instant.ofEpochSecond`, are the floored
    ones. -/
theorem ofEpochSecond_tdiv_tmod (value k m : ℤ) (hk : 0 < k) (hm : 0 < m)
    (hkm : k * m = nanosPerSecond) :
    Instant.ofEpochSecond (value.tdiv k) (value.tmod k * m) = ⟨value / k, value % k * m⟩ := by
  -- the sign of the remainder decides whether the quotient has to be lowered
  have hsum : value.tdiv k + value.tmod k / k = value / k := by
    conv_rhs => rw [← Int.tmod_add_tdiv_mul value k]
    rw [Int.add_mul_ediv_right _ _ hk.ne', Int.add_comm]
  have hrem : value.tmod k % k = value % k := by
    conv_rhs => rw [← Int.tmod_add_tdiv_mul value k]
    rw [Int.add_mul_emod_self_right]
  unfold Instant.ofEpochSecond
  rw [← hkm, Int.mul_comm _ m, Int.mul_comm k m, Int.mul_ediv_mul_of_pos _ _ hm,
    Int.mul_emod_mul_of_pos _ _ hm, hsum, hrem, Int.mul_comm m]

theorem createInstant_eq (value : ℤ) (unit : ChronoUnit) :
    createInstant value unit = ⟨wallSecond value unit, wallNano value unit⟩ := by
  cases unit with
  | seconds =>
    simp [createInstant, Instant.ofEpochSecond, wallSecond, wallNano, ChronoUnit.perSecond]
  | millis => rfl
  | micros => exact ofEpochSecond_tdiv_tmod value 1000000 1000 (by decide) (by decide) rfl
  | nanos =>
    have h := ofEpochSecond_tdiv_tmod value 1000000000 1 (by decide) (by decide) rfl
    rw [Int.mul_one, Int.mul_one] at h
    simpa [createInstant, wallSecond, wallNano, ChronoUnit.perSecond, nanosPerSecond] using h

/-! ## The adjustment -/

/-- The local time `getTimestamp(i, cal)` hands to the default zone: the wall clock moved by the
    difference of the offsets in force when it is read as UTC, its date read in the hybrid
    calendar. -/
def adjustedSecond (systemDefault zone : Zone) (w : ℤ) : ℤ :=
  hybridSecond (w + (systemDefault.offset w - zone.offset w))

section
variable {systemDefault zone : Zone} {o : Overlap} {resolve offsetBefore : ℤ → ℤ}
  {duckdbType : DuckDBColumnType} {unit : ChronoUnit}

theorem getTimestamp_calendar (hunit : zonelessUnit duckdbType = some unit) (value : ℤ) :
    getTimestamp systemDefault resolve duckdbType value (some zone) =
      some ⟨resolve (adjustedSecond systemDefault zone (wallSecond value unit)),
        wallNano value unit⟩ := by
  have hldt : getLocalDateTimeFromTimestamp systemDefault duckdbType value (some zone) =
      some (.ofEpochSecond (wallSecond value unit) (wallNano value unit)
        (systemDefault.offset (wallSecond value unit) - zone.offset (wallSecond value unit))) := by
    have hadjust : localDateTimeFromTimestamp systemDefault value unit (some zone) =
        .ofEpochSecond (wallSecond value unit) (wallNano value unit)
          (systemDefault.offset (wallSecond value unit) -
            zone.offset (wallSecond value unit)) := by
      simp only [localDateTimeFromTimestamp, createInstant_eq, LocalDateTime.ofInstant,
        toInstant_ofEpochSecond, utc]
      congr 1
      · omega
      · omega
    cases duckdbType <;> cases hunit <;> exact congrArg some hadjust
  rw [getTimestamp, hldt, Option.map_some]
  rfl

/-- When the shift at `w` read as UTC is the shift at the instant `t`, where a local time in a gap
    of the default zone counts with the offset before the gap. -/
def ShiftAgrees (systemDefault : Zone) (offsetBefore : ℤ → ℤ) (zone : Zone) (w t : ℤ) : Prop :=
  adjustedSecond systemDefault zone w = w + (systemDefault.offset t - zone.offset t) ∨
    (systemDefault.InGap (adjustedSecond systemDefault zone w) ∧
      adjustedSecond systemDefault zone w =
        w + (offsetBefore (adjustedSecond systemDefault zone w) - zone.offset t))

/-- Outside of the Julian calendar, equal differences of the offsets are enough. -/
theorem shiftAgrees_of_offsets {w t : ℤ}
    (hoffset : systemDefault.offset w - zone.offset w = systemDefault.offset t - zone.offset t)
    (hday : SameInHybrid ((w + (systemDefault.offset t - zone.offset t)) / secondsPerDay)) :
    ShiftAgrees systemDefault offsetBefore zone w t := by
  refine .inl ?_
  rw [adjustedSecond, hoffset]
  exact (hybridSecond_eq_iff _).2 hday

/-- **`getTimestamp` with a calendar.**  For every stored number, default zone and calendar zone,
    let `t` be the only instant at which a clock in the calendar's zone shows the wall clock, and
    the only one with its local time in the default zone.  Then the `Timestamp` of `t` is returned
    if and only if the wall clock is shifted, when read as UTC, by the difference of the offsets
    in force at `t`, or into a gap of the default zone and by that difference with the offset
    before the gap. -/
theorem calendar_timestamp_iff (h : Resolves systemDefault o resolve)
    (hgaps : ReadsGaps systemDefault offsetBefore resolve)
    (hunit : zonelessUnit duckdbType = some unit) {value t : ℤ}
    (hzone : zone.ShowsOnlyAt (wallSecond value unit) t)
    (hdefault : systemDefault.ShowsOnlyAt (systemDefault.localSecond t) t) :
    getTimestamp systemDefault resolve duckdbType value (some zone) =
        some ⟨t, wallNano value unit⟩ ↔
      ShiftAgrees systemDefault offsetBefore zone (wallSecond value unit) t := by
  have hwall : t + zone.offset t = wallSecond value unit := hzone.localSecond
  have hlocal : systemDefault.localSecond t =
      wallSecond value unit + (systemDefault.offset t - zone.offset t) := by
    unfold Zone.localSecond
    omega
  have hbefore : ∀ l, l = t + offsetBefore l ↔
      l = wallSecond value unit + (offsetBefore l - zone.offset t) := fun l => by omega
  rw [getTimestamp_calendar hunit, Option.some.injEq, Instant.mk.injEq, and_iff_left rfl,
    h.eq_iff hgaps hdefault, hlocal, hbefore]
  rfl

end

/-- Seen from UTC, a clock one hour ahead showed 2023-11-14T22:13:20 an hour before UTC did. -/
theorem calendar_timestamp_fixed :
    getTimestamp utc (fun l => l - 0) .timestampMs 1700000000000 (some ⟨fun _ => 3600⟩) =
      some ⟨1699996400, 0⟩ := by
  have hzone : Zone.ShowsOnlyAt ⟨fun _ => 3600⟩ (wallSecond 1700000000000 .millis) 1699996400 :=
    Zone.showsOnlyAt_fixed 3600 1699996400
  have hdefault : utc.ShowsOnlyAt (utc.localSecond 1699996400) 1699996400 :=
    Zone.showsOnlyAt_fixed 0 1699996400
  exact (calendar_timestamp_iff (.fixed .first 0) (.fixed 0) rfl hzone hdefault).2
    (shiftAgrees_of_offsets rfl (.inl (by decide)))

/-- In a zone without overlaps every local time that is shown is shown once. -/
theorem springForward_showsOnlyAt (t : ℤ) :
    springForward.ShowsOnlyAt (springForward.localSecond t) t := by
  refine ⟨rfl, fun u hu => ?_⟩
  revert hu
  simp only [springForward, Zone.localSecond]
  split <;> split <;> omega

/-- Seen from a zone an hour behind UTC, the wall clock 999000 read as UTC is before the clock goes
    forward, the instant is after.  The shift leads into the gap, where the offset before counts. -/
example : ShiftAgrees springForward (fun _ => 3600) ⟨fun _ => -3600⟩ 999000 1002600 := by
  refine .inr ⟨fun u => ?_, by decide⟩
  have hadjusted : adjustedSecond springForward ⟨fun _ => -3600⟩ 999000 = 1006200 := by decide
  rw [hadjusted]
  simp only [springForward, Zone.localSecond]
  split <;> omega

/-- The clock that goes forward at the second 1000000 shows 1002600 at the second 999000.  Read as
    UTC that is after the transition. -/
theorem calendar_timestamp_misses :
    Resolves utc .first (fun l => l - 0) ∧ ReadsGaps utc (fun _ => 0) (fun l => l - 0) ∧
      springForward.ShowsOnlyAt (wallSecond 1002600 .seconds) 999000 ∧
      utc.ShowsOnlyAt (utc.localSecond 999000) 999000 ∧
      getTimestamp utc (fun l => l - 0) .timestampS 1002600 (some springForward) ≠
        some ⟨999000, wallNano 1002600 .seconds⟩ :=
  ⟨.fixed _ _, .fixed _, springForward_showsOnlyAt 999000, Zone.showsOnlyAt_fixed 0 999000,
    by decide⟩

end DuckDBJava
