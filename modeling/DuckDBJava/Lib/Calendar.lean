/-
  Calendars and time zones.

  A date is the year that begins on March 1 and the day in it.  The leap day is the last day of
  such a year, so the month and the day of the month depend on the day in the year alone, and the
  proleptic Gregorian and the Julian calendar differ only in when a year begins.

  A zone is the offset in force at each instant, in seconds, with instants in seconds since the
  epoch; nothing is assumed about its transitions.  `Resolves z o r` says that `r` takes a local
  time of the zone back to an instant, and of several the first or the last; `ReadsGaps` says how
  it reads a local time that never occurs.
-/
import Mathlib.Algebra.Order.Ring.Int
import Mathlib.Order.Monotone.Basic
import Mathlib.Data.Int.Order.Basic
import Mathlib.Tactic.Common

namespace Calendar

/-! ## Dates -/

/-- A year that begins on March 1 and the day in it, from 0. -/
structure MarchDate where
  year : ℤ
  day : ℤ
  deriving DecidableEq

/-- The year that begins in January: January 1 is the day 306. -/
def MarchDate.civilYear (d : MarchDate) : ℤ := if d.day < 306 then d.year else d.year + 1

/-- Days from March 1 of year 0 to March 1 of year `y`, in the Gregorian calendar. -/
def gregorianYears (y : ℤ) : ℤ := 365 * y + y / 4 - y / 100 + y / 400

/-- Days from March 1 of year 0 to March 1 of year `y`, in the Julian calendar. -/
def julianYears (y : ℤ) : ℤ := 365 * y + y / 4

/-- Days since 1970-01-01 of a date of the Gregorian calendar. -/
def MarchDate.gregorianDay (d : MarchDate) : ℤ := gregorianYears d.year + d.day - 719468

/-- Days since 1970-01-01 of a date of the Julian calendar. -/
def MarchDate.julianDay (d : MarchDate) : ℤ := julianYears d.year + d.day - 719470

/-- The Gregorian year of the `n`-th day after March 1 of year 0: an estimate, at most one too
    large. -/
def gregorianYear (n : ℤ) : ℤ :=
  let est := (400 * n + 591) / 146097
  if n < gregorianYears est then est - 1 else est

/-- The date of a day number, in the Gregorian calendar. -/
def MarchDate.ofEpochDay (n : ℤ) : MarchDate :=
  let y := gregorianYear (n + 719468)
  ⟨y, n + 719468 - gregorianYears y⟩

theorem MarchDate.gregorianDay_ofEpochDay (n : ℤ) : (ofEpochDay n).gregorianDay = n := by
  simp only [ofEpochDay, gregorianDay]
  omega

/-- A year has 365.2425 days, up to the leap days gone and to come. -/
theorem gregorianYears_bounds (y : ℤ) :
    146097 * y - 591 ≤ 400 * gregorianYears y ∧ 400 * gregorianYears y ≤ 146097 * y + 288 := by
  obtain ⟨q, c, t, u, hy, hc, ht, hu⟩ : ∃ q c t u : ℤ, y = 400 * q + 100 * c + 4 * t + u ∧
      (0 ≤ c ∧ c < 4) ∧ (0 ≤ t ∧ t < 25) ∧ (0 ≤ u ∧ u < 4) :=
    ⟨y / 400, y % 400 / 100, y % 100 / 4, y % 4, by omega, by omega, by omega, by omega⟩
  have h4 : y / 4 = 100 * q + 25 * c + t := by omega
  have h100 : y / 100 = 4 * q + c := by omega
  have h400 : y / 400 = q := by omega
  unfold gregorianYears
  rw [h4, h100, h400]
  omega

theorem gregorianYears_le {y z : ℤ} (hyz : y ≤ z) : gregorianYears y ≤ gregorianYears z := by
  rcases hyz.lt_or_eq with hyz | rfl
  · have hy := (gregorianYears_bounds y).2
    have hz := (gregorianYears_bounds z).1
    omega
  · exact le_rfl

theorem lt_of_gregorianYears_lt {y z : ℤ} (h : gregorianYears y < gregorianYears z) : y < z := by
  by_contra hyz
  exact absurd h (gregorianYears_le (not_lt.1 hyz)).not_gt

theorem gregorianYear_spec (n : ℤ) :
    gregorianYears (gregorianYear n) ≤ n ∧ n < gregorianYears (gregorianYear n + 1) := by
  unfold gregorianYear
  generalize he : (400 * n + 591) / 146097 = est
  have hafter := (gregorianYears_bounds (est + 1)).1
  have hbefore := (gregorianYears_bounds (est - 1)).2
  simp only
  split
  · next h => rw [Int.sub_add_cancel]; omega
  · next h => omega

theorem le_gregorianYear_iff (n y : ℤ) : y ≤ gregorianYear n ↔ gregorianYears y ≤ n := by
  obtain ⟨hle, hlt⟩ := gregorianYear_spec n
  constructor
  · intro h
    exact (gregorianYears_le h).trans hle
  · intro h
    have := lt_of_gregorianYears_lt (h.trans_lt hlt)
    omega

/-- The Julian year of the `n`-th day after March 1 of year 0. -/
def julianYear (n : ℤ) : ℤ := (4 * n + 3) / 1461

/-- The date of a day number, in the Julian calendar. -/
def MarchDate.ofJulianDay (n : ℤ) : MarchDate :=
  let y := julianYear (n + 719470)
  ⟨y, n + 719470 - julianYears y⟩

theorem MarchDate.julianDay_ofJulianDay (n : ℤ) : (ofJulianDay n).julianDay = n := by
  simp only [ofJulianDay, julianDay]
  omega

/-- The day is one of the year, in the Gregorian calendar. -/
structure MarchDate.IsGregorian (d : MarchDate) : Prop where
  nonneg : 0 ≤ d.day
  lt : d.day < gregorianYears (d.year + 1) - gregorianYears d.year

/-- The day is one of the year, in the Julian calendar. -/
structure MarchDate.IsJulian (d : MarchDate) : Prop where
  nonneg : 0 ≤ d.day
  lt : d.day < julianYears (d.year + 1) - julianYears d.year

theorem MarchDate.isGregorian_ofEpochDay (n : ℤ) : (ofEpochDay n).IsGregorian := by
  obtain ⟨hle, hlt⟩ := gregorianYear_spec (n + 719468)
  constructor
  · exact Int.sub_nonneg_of_le hle
  · exact Int.sub_lt_sub_right hlt _

theorem MarchDate.isJulian_ofJulianDay (n : ℤ) : (ofJulianDay n).IsJulian := by
  unfold ofJulianDay julianYear
  constructor
  · simp only [julianYears]
    omega
  · simp only [julianYears]
    omega

/-- The leap years of the Gregorian calendar are leap years of the Julian. -/
theorem MarchDate.IsGregorian.isJulian {d : MarchDate} (h : d.IsGregorian) : d.IsJulian := by
  obtain ⟨hnonneg, hlt⟩ := h
  refine ⟨hnonneg, hlt.trans_le ?_⟩
  unfold gregorianYears julianYears
  omega

theorem MarchDate.ofJulianDay_julianDay {d : MarchDate} (h : d.IsJulian) :
    ofJulianDay d.julianDay = d := by
  obtain ⟨y, e⟩ := d
  obtain ⟨hnonneg, hlt⟩ := h
  simp only at hnonneg hlt
  have hyear : julianYear (julianYears y + e - 719470 + 719470) = y := by
    unfold julianYear julianYears at *
    omega
  simp only [ofJulianDay, julianDay, hyear, MarchDate.mk.injEq, true_and]
  omega

/-- A day number determines the date. -/
theorem MarchDate.IsGregorian.eq {d e : MarchDate} (hd : d.IsGregorian) (he : e.IsGregorian)
    (h : d.gregorianDay = e.gregorianDay) : d = e := by
  obtain ⟨y, a⟩ := d
  obtain ⟨z, b⟩ := e
  obtain ⟨ha, hay⟩ := hd
  obtain ⟨hb, hbz⟩ := he
  simp only [gregorianDay] at ha hay hb hbz h
  have hyz : y < z + 1 := lt_of_gregorianYears_lt (by omega)
  have hzy : z < y + 1 := lt_of_gregorianYears_lt (by omega)
  obtain rfl : y = z := by omega
  obtain rfl : a = b := by omega
  rfl

/-- The two calendars number the days of the year 200 alike, and of no other century. -/
theorem julianDay_eq_gregorianDay_iff (d : MarchDate) :
    d.julianDay = d.gregorianDay ↔ 200 ≤ d.year ∧ d.year < 300 := by
  unfold MarchDate.julianDay MarchDate.gregorianDay julianYears gregorianYears
  omega

/-! ## Local time -/

/-- A time zone: the offset from UTC in force at each instant. -/
structure Zone where
  offset : ℤ → ℤ

/-- The local time at an instant. -/
def Zone.localSecond (z : Zone) (s : ℤ) : ℤ := s + z.offset s

/-- `t` is the only instant at which a clock in the zone shows `l`. -/
structure Zone.ShowsOnlyAt (z : Zone) (l t : ℤ) : Prop where
  localSecond : z.localSecond t = l
  unique : ∀ u, z.localSecond u = l → u = t

/-- No clock in the zone ever shows `l`. -/
def Zone.InGap (z : Zone) (l : ℤ) : Prop := ∀ u, z.localSecond u ≠ l

/-- Which instant stands for a local time that occurs more than once. -/
inductive Overlap where
  | first
  | last
  deriving DecidableEq

/-- `a` is taken rather than `b`. -/
def Overlap.Prefers : Overlap → ℤ → ℤ → Prop
  | first, a, b => a < b
  | last, a, b => b < a

theorem Overlap.Prefers.asymm {o : Overlap} {a b : ℤ} (h : o.Prefers a b) : ¬ o.Prefers b a := by
  cases o <;> exact Int.not_lt.2 (Int.le_of_lt h)

/-- `r` takes every local time that occurs in the zone to an instant that has it, to the
    preferred one if there are several.  Of a local time in a gap nothing is said. -/
structure Resolves (z : Zone) (o : Overlap) (r : ℤ → ℤ) : Prop where
  localSecond : ∀ s, z.localSecond (r (z.localSecond s)) = z.localSecond s
  prefers : ∀ s, s = r (z.localSecond s) ∨ o.Prefers (r (z.localSecond s)) s

/-- `r` reads a local time in a gap with the offset in force before the transition: where the clock
    goes from 02:00 to 03:00, 02:30 is read as 03:30. -/
structure ReadsGaps (z : Zone) (offsetBefore : ℤ → ℤ) (r : ℤ → ℤ) : Prop where
  transition : ∀ l, z.InGap l → ∃ s, z.localSecond (s - 1) < l ∧ l < z.localSecond s ∧
    offsetBefore l = z.offset (s - 1)
  resolve : ∀ l, z.InGap l → r l = l - offsetBefore l

section
variable {z : Zone} {o : Overlap} {r : ℤ → ℤ}

/-- The round trip through local time returns to the preferred instants, and to them only. -/
theorem Resolves.localSecond_eq_iff (h : Resolves z o r) (s : ℤ) :
    r (z.localSecond s) = s ↔ ∀ t, z.localSecond t = z.localSecond s → ¬ o.Prefers t s := by
  constructor
  · intro hs t ht
    rcases h.prefers t with heq | hpref
    · rw [ht, hs] at heq
      subst heq
      exact fun hp => hp.asymm hp
    · rw [ht, hs] at hpref
      exact hpref.asymm
  · intro hnone
    rcases h.prefers s with heq | hpref
    · exact heq.symm
    · exact absurd hpref (hnone _ (h.localSecond s))

/-- A local time that occurs is not taken to an instant with another local time. -/
theorem Resolves.ne_of_localSecond_ne (h : Resolves z o r) {s t : ℤ}
    (hne : z.localSecond t ≠ z.localSecond s) : r (z.localSecond t) ≠ s := by
  intro hs
  have ht := h.localSecond t
  rw [hs] at ht
  exact hne ht.symm

/-- An instant with a local time of its own is found from that local time, and otherwise only from
    a local time in a gap that it has with the offset before the transition. -/
theorem Resolves.eq_iff (h : Resolves z o r) {offsetBefore : ℤ → ℤ}
    (hgaps : ReadsGaps z offsetBefore r) {l t : ℤ} (ht : z.ShowsOnlyAt (z.localSecond t) t) :
    r l = t ↔ l = z.localSecond t ∨ (z.InGap l ∧ l = t + offsetBefore l) := by
  constructor
  · intro hl
    by_cases hgap : z.InGap l
    · have hr := hgaps.resolve l hgap
      exact .inr ⟨hgap, by omega⟩
    · obtain ⟨u, rfl⟩ : ∃ u, z.localSecond u = l := by
        by_contra hnone
        exact hgap fun u hu => hnone ⟨u, hu⟩
      have hu := h.localSecond u
      rw [hl] at hu
      exact .inl hu.symm
  · rintro (rfl | ⟨hgap, hl⟩)
    · exact ht.unique _ (h.localSecond t)
    · have hr := hgaps.resolve l hgap
      omega

/-- In a zone with one offset, local times occur once. -/
theorem Zone.showsOnlyAt_fixed (k t : ℤ) : Zone.ShowsOnlyAt ⟨fun _ => k⟩ (t + k) t where
  localSecond := rfl
  unique u hu := by
    have hu : u + k = t + k := hu
    omega

/-- In a zone with one offset, local times are resolved by subtracting it. -/
theorem Resolves.fixed (o : Overlap) (k : ℤ) : Resolves ⟨fun _ => k⟩ o (fun l => l - k) where
  localSecond s := by simp [Zone.localSecond]
  prefers s := .inl (by simp [Zone.localSecond])

/-- A zone with one offset has no gap. -/
theorem ReadsGaps.fixed (k : ℤ) : ReadsGaps ⟨fun _ => k⟩ (fun _ => k) (fun l => l - k) where
  transition l hgap := absurd (show l - k + k = l by omega) (hgap (l - k))
  resolve _ _ := rfl

end

end Calendar
