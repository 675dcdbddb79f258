/-
  Reading an `InputStream` or a `Reader` to a limit (`org.duckdb.io`).

  The wrappers count what they hand on in a `long` and cut the length of a block to an `int`.
  `limited_holds`: a wrapped source holds the first items of its source, and its count says how
  many of them were taken.  **`bounded_reading`**: so the copy loop ends with exactly these.
-/
import DuckDBJava.Lib.Sources
import Mathlib.Algebra.Order.Ring.Int

namespace DuckDBJava.Input

open Exec Sources

variable {ε σ α : Type}

/-- `java.io.IOException`, with its message. -/
abbrev IOException := String

/-- An `SQLException` with its cause, if it has one. -/
structure SQLException where
  cause : Option IOException

/-- A UTF-16 code unit, `char`. -/
abbrev CodeUnit := UInt16

/-! ## The wrappers -/

/-- The two methods `read` of a wrapper: of its fields `source` is the first part of the state and
    the count the second. -/
def limited (source : Source ε σ α) (maxToRead : BitVec 64) : Source ε (σ × BitVec 64) α where
  readOne := do
    let (_, itemsRead) ← get
    if maxToRead.sle itemsRead then return none
    let result ← onFst source.readOne
    (if result.isSome then modify fun s => (s.1, s.2 + 1) else pure ())
    return result
  read len := do
    let (_, itemsRead) ← get
    if maxToRead.sle itemsRead then return none
    let itemsRemaining := maxToRead - itemsRead
    let itemsToRead := (min (len : ℤ) itemsRemaining.toInt).bmod (2 ^ 32)
    let result ← onFst (source.read itemsToRead.toNat)
    match result with
    | none => return none
    | some chunk => do
      modify fun s => (s.1, s.2 + BitVec.ofNat 64 chunk.length)
      return some chunk

/-- The source itself, beside a count that it does not have. -/
def unlimited (source : Source ε σ α) : Source ε (σ × BitVec 64) α where
  readOne := onFst source.readOne
  read len := onFst (source.read len)

/-- `LimitedInputStream` -/
def limitedInputStream (source : Source IOException σ UInt8) (maxBytesToRead : BitVec 64) :=
  limited source maxBytesToRead

/-- `LimitedReader` -/
def limitedReader (source : Source IOException σ CodeUnit) (maxCharsToRead : BitVec 64) :=
  limited source maxCharsToRead

/-- `wrapStreamWithMaxBytes` -/
def wrapStreamWithMaxBytes (is : Source IOException σ UInt8) (maxBytes : BitVec 64) :=
  if maxBytes.toInt < 0 then unlimited is else limitedInputStream is maxBytes

/-- `wrapReaderWithMaxChars` -/
def wrapReaderWithMaxChars (reader : Source IOException σ CodeUnit) (maxChars : BitVec 64) :=
  if maxChars.toInt < 0 then unlimited reader else limitedReader reader maxChars

/-! ## The copy loops -/

/-- `readAllBytes`, with a bound on the rounds of its loop. -/
def readAllBytes (x : Source IOException σ UInt8) (rounds : ℕ) :
    M SQLException σ (Option (List UInt8)) :=
  rethrow (fun e => ⟨some e⟩) (drain x 8192 rounds [])

/-- `readToString`, with a bound on the rounds of its loop; it drops the cause. -/
def readToString (reader : Source IOException σ CodeUnit) (rounds : ℕ) :
    M SQLException σ (Option (List CodeUnit)) :=
  rethrow (fun _ => ⟨none⟩) (drain reader 4096 rounds [])

/-! ## What a wrapped source holds -/

/-- The states of a wrapper over a source that held `all`: so many items as the count says are
    taken. -/
structure Counted (I : σ → Prop) (content : σ → List α) (max : BitVec 64) (all : List α)
    (s : σ × BitVec 64) : Prop where
  source : I s.1
  le : s.2.toNat ≤ max.toNat
  taken : ∃ taken, all = taken ++ content s.1 ∧ taken.length = s.2.toNat

/-- What a wrapper still gives. -/
def remaining (content : σ → List α) (max : BitVec 64) (s : σ × BitVec 64) : List α :=
  (content s.1).take (max.toNat - s.2.toNat)

section
variable {max itemsRead : BitVec 64}

theorem toNat_of_nonneg (hmax : 0 ≤ max.toInt) : max.toNat < 2 ^ 63 ∧ max.toInt = max.toNat := by
  have hlt := max.isLt
  rw [BitVec.toInt_eq_toNat_cond] at hmax ⊢
  split at hmax
  · next h => exact ⟨by omega, if_pos h⟩
  · omega

/-- The check at the start of a read. -/
theorem sle_iff (hmax : 0 ≤ max.toInt) (hle : itemsRead.toNat ≤ max.toNat) :
    max.sle itemsRead = true ↔ max.toNat ≤ itemsRead.toNat := by
  obtain ⟨hlt, hint⟩ := toNat_of_nonneg hmax
  have hread : itemsRead.toInt = itemsRead.toNat := by
    rw [BitVec.toInt_eq_toNat_cond, if_pos (by omega)]
  rw [BitVec.sle_iff_toInt_le, hint, hread]
  exact Int.ofNat_le

/-- The length of the block that is asked for: no cast wraps. -/
theorem itemsToRead_eq (hmax : 0 ≤ max.toInt) (hle : itemsRead.toNat ≤ max.toNat) {len : ℕ}
    (hlen : IsLength len) :
    ((min (len : ℤ) (max - itemsRead).toInt).bmod (2 ^ 32)).toNat =
      min len (max.toNat - itemsRead.toNat) := by
  obtain ⟨hlt, -⟩ := toNat_of_nonneg hmax
  have hsub : (max - itemsRead).toNat = max.toNat - itemsRead.toNat :=
    BitVec.toNat_sub_of_le (BitVec.le_def.2 hle)
  have hint : (max - itemsRead).toInt = (max.toNat - itemsRead.toNat : ℕ) := by
    rw [BitVec.toInt_eq_toNat_cond, hsub, if_pos (by omega)]
  have hlen := hlen.2
  rw [hint, Int.bmod_eq_of_le (by omega) (by omega)]
  omega

theorem count_add {n : ℕ} (hmax : 0 ≤ max.toInt) (hle : itemsRead.toNat + n ≤ max.toNat) :
    (itemsRead + BitVec.ofNat 64 n).toNat = itemsRead.toNat + n := by
  obtain ⟨hlt, -⟩ := toNat_of_nonneg hmax
  have hn : (BitVec.ofNat 64 n).toNat = n := by
    rw [BitVec.toNat_ofNat, Nat.mod_eq_of_lt (by omega)]
  rw [BitVec.toNat_add_of_lt (by rw [hn]; omega), hn]

end

section
variable {src : Source ε σ α} {I : σ → Prop} {content : σ → List α} {max : BitVec 64}
variable {all : List α} {s : σ × BitVec 64}

/-- Taking some of the first items. -/
theorem Counted.advance (hmax : 0 ≤ max.toInt) (h : Counted I content max all s) {chunk : List α}
    {t : σ} (ht : I t) (hcontent : content s.1 = chunk ++ content t)
    (hle : chunk.length ≤ max.toNat - s.2.toNat) :
    Counted I content max all (t, s.2 + BitVec.ofNat 64 chunk.length) ∧
      remaining content max s =
        chunk ++ remaining content max (t, s.2 + BitVec.ofNat 64 chunk.length) := by
  have hs := h.le
  have hcount : (s.2 + BitVec.ofNat 64 chunk.length).toNat = s.2.toNat + chunk.length :=
    count_add hmax (by omega)
  obtain ⟨taken, hall, htaken⟩ := h.taken
  refine ⟨⟨ht, ?_, taken ++ chunk, ?_, ?_⟩, ?_⟩
  · rw [hcount]
    omega
  · rw [hall, hcontent, List.append_assoc]
  · rw [List.length_append, htaken, hcount]
  · rw [remaining, remaining, hcontent, hcount, List.take_append, List.take_of_length_le hle]
    congr 2
    omega

/-- The limit is reached, or the source is at its end. -/
theorem remaining_eq_nil : remaining content max s = [] ↔
    max.toNat ≤ s.2.toNat ∨ content s.1 = [] := by
  rw [remaining, List.take_eq_nil_iff]
  exact or_congr (by omega) Iff.rfl

/-- **A wrapped source holds the first items of its source.** -/
theorem limited_holds (h : src.Holds I content) (hmax : 0 ≤ max.toInt) (all : List α) :
    (limited src max).Holds (Counted I content max all) (remaining content max) where
  atEnd := by
    rintro ⟨s, n⟩ len hs hend hlen
    have hcheck := sle_iff hmax hs.le
    simp only [limited, get_bind]
    by_cases hle : max.toNat ≤ n.toNat
    · rw [if_pos (hcheck.2 hle)]
      exact ⟨(s, n), rfl, hs, hend⟩
    · have hnil : content s = [] := (remaining_eq_nil.1 hend).resolve_left hle
      rw [if_neg (mt hcheck.1 hle), itemsToRead_eq hmax hs.le hlen]
      have hlen' : IsLength (min len (max.toNat - n.toNat)) :=
        ⟨by have := hlen.1; omega, by have := hlen.2; omega⟩
      obtain ⟨t, hread, ht, hcontent⟩ := h.atEnd hs.source hnil hlen'
      refine ⟨(t, n), ?_, ⟨ht, hs.le, ?_⟩, remaining_eq_nil.2 (.inr hcontent)⟩
      · rw [bind_ok (onFst_ok hread n)]
        rfl
      · obtain ⟨taken, hall, htaken⟩ := hs.taken
        exact ⟨taken, by rw [hall, hcontent, hnil], htaken⟩
  block := by
    rintro ⟨s, n⟩ len hs hsome hlen
    have hn : n.toNat ≤ max.toNat := hs.le
    obtain ⟨hlt, hne⟩ := not_or.1 (mt remaining_eq_nil.2 hsome)
    have hlt : ¬ max.toNat ≤ n.toNat := hlt
    have hlen' : IsLength (min len (max.toNat - n.toNat)) :=
      ⟨by have := hlen.1; omega, by have := hlen.2; omega⟩
    obtain ⟨chunk, t, hread, ht, hchunk, hle, hcontent⟩ := h.block hs.source hne hlen'
    obtain ⟨hcounted, hrest⟩ :=
      hs.advance hmax ht hcontent (Nat.le_trans hle (Nat.min_le_right _ _))
    refine ⟨chunk, (t, n + BitVec.ofNat 64 chunk.length), ?_, hcounted, hchunk, by omega, hrest⟩
    simp only [limited, get_bind]
    rw [if_neg (mt (sle_iff hmax hs.le).1 hlt), itemsToRead_eq hmax hs.le hlen,
      bind_ok (onFst_ok hread n)]
    rfl
  oneAtEnd := by
    rintro ⟨s, n⟩ hs hend
    have hcheck := sle_iff hmax hs.le
    simp only [limited, get_bind]
    by_cases hle : max.toNat ≤ n.toNat
    · rw [if_pos (hcheck.2 hle)]
      exact ⟨(s, n), rfl, hs, hend⟩
    · have hnil : content s = [] := (remaining_eq_nil.1 hend).resolve_left hle
      obtain ⟨t, hread, ht, hcontent⟩ := h.oneAtEnd hs.source hnil
      rw [if_neg (mt hcheck.1 hle)]
      refine ⟨(t, n), ?_, ⟨ht, hs.le, ?_⟩, remaining_eq_nil.2 (.inr hcontent)⟩
      · rw [bind_ok (onFst_ok hread n)]
        rfl
      · obtain ⟨taken, hall, htaken⟩ := hs.taken
        exact ⟨taken, by rw [hall, hcontent, hnil], htaken⟩
  one := by
    rintro ⟨s, n⟩ a l hs hcons
    have hn : n.toNat ≤ max.toNat := hs.le
    obtain ⟨hlt, hne⟩ :=
      not_or.1 (mt remaining_eq_nil.2 (by rw [hcons]; exact List.cons_ne_nil _ _))
    have hlt : ¬ max.toNat ≤ n.toNat := hlt
    obtain ⟨b, rest, hcontent⟩ := List.exists_cons_of_ne_nil hne
    obtain ⟨t, hread, ht, hrest⟩ := h.one hs.source hcontent
    have hchunk : content s = [b] ++ content t := by rw [hcontent, hrest]; rfl
    obtain ⟨hcounted, hremaining⟩ := hs.advance hmax ht hchunk
      (by rw [List.length_singleton]; omega)
    rw [hcons, List.singleton_append, List.cons.injEq] at hremaining
    obtain ⟨rfl, hl⟩ := hremaining
    refine ⟨(t, n + 1), ?_, hcounted, hl.symm⟩
    simp only [limited, get_bind]
    rw [if_neg (mt (sle_iff hmax hs.le).1 hlt),
      bind_ok (onFst_ok hread n)]
    rfl

/-- A source that is not wrapped. -/
theorem unlimited_holds (h : src.Holds I content) :
    (unlimited src).Holds (fun s => I s.1) (fun s => content s.1) where
  atEnd := by
    rintro ⟨s, n⟩ len hs hend hlen
    obtain ⟨t, hread, ht⟩ := h.atEnd hs hend hlen
    exact ⟨(t, n), onFst_ok hread n, ht⟩
  block := by
    rintro ⟨s, n⟩ len hs hsome hlen
    obtain ⟨chunk, t, hread, ht⟩ := h.block hs hsome hlen
    exact ⟨chunk, (t, n), onFst_ok hread n, ht⟩
  oneAtEnd := by
    rintro ⟨s, n⟩ hs hend
    obtain ⟨t, hread, ht⟩ := h.oneAtEnd hs hend
    exact ⟨(t, n), onFst_ok hread n, ht⟩
  one := by
    rintro ⟨s, n⟩ a l hs hcons
    obtain ⟨t, hread, ht⟩ := h.one hs hcons
    exact ⟨(t, n), onFst_ok hread n, ht⟩

end

/-! ## Reading to the limit -/

/-- The first items, as many as the limit says; all if it is negative. -/
def firstItems (limit : BitVec 64) (all : List α) : List α :=
  if limit.toInt < 0 then all else all.take limit.toNat

/-- A computation on a wrapper over a source in the state `s`, with a bound on the rounds of its
    loop: with enough rounds it returns the first items, which are then taken from the source, and
    with any number of rounds it has taken no more than the limit. -/
def ReadsFirst {ε : Type} (content : σ → List α) (limit : BitVec 64) (s : σ)
    (read : ℕ → M ε (σ × BitVec 64) (Option (List α))) : Prop :=
  (∃ enough, ∀ rounds, enough ≤ rounds → ∃ t n,
    read rounds (s, 0) = .ok (some (firstItems limit (content s))) (t, n) ∧
      content s = firstItems limit (content s) ++ content t) ∧
  ∀ rounds, ∃ taken, content s = taken ++ content (final (read rounds (s, 0))).1 ∧
    (0 ≤ limit.toInt → taken.length ≤ limit.toNat)

section
variable {src : Source ε σ α} {I : σ → Prop} {content : σ → List α} {ε' : Type} {len : ℕ} {s : σ}

/-- The copy loop over a wrapper with a limit. -/
theorem readsFirst_limited (h : src.Holds I content) (hs : I s) (f : ε → ε') (hlen : IsLength len)
    {limit : BitVec 64} (hlimit : 0 ≤ limit.toInt) :
    ReadsFirst content limit s fun rounds =>
      rethrow f (drain (limited src limit) len rounds []) := by
  have hholds := limited_holds h hlimit (content s)
  have hstart : Counted I content limit (content s) (s, 0) :=
    ⟨hs, Nat.zero_le _, [], rfl, rfl⟩
  have hfirst : firstItems limit (content s) = (content s).take limit.toNat :=
    if_neg (not_lt.2 hlimit)
  have hremaining : remaining content limit (s, 0) = (content s).take limit.toNat := rfl
  refine ⟨⟨(content s).length + 1, fun rounds hrounds => ?_⟩, fun rounds => ?_⟩
  · have hlt : (remaining content limit (s, 0)).length < rounds := by
      rw [hremaining, List.length_take]
      omega
    obtain ⟨⟨t, n⟩, hdrain, ht, hend⟩ := hholds.drain hlen rounds [] hstart hlt
    refine ⟨t, n, ?_, ?_⟩
    · refine (rethrow_ok hdrain).trans ?_
      rw [List.nil_append, hremaining, hfirst]
    · obtain ⟨taken, hall, htaken⟩ := ht.taken
      have hn : n.toNat ≤ limit.toNat := ht.le
      have hall : content s = taken ++ content t := hall
      -- the limit is reached, or the source is at its end
      have htake : (content s).take limit.toNat = taken := by
        rcases remaining_eq_nil.1 hend with hle | hnil
        · have hcount : taken.length = limit.toNat := le_antisymm (htaken.trans_le hn)
            (le_of_le_of_eq hle htaken.symm)
          rw [hall, ← hcount, List.take_left]
        · have hnil : content t = [] := hnil
          rw [hall, hnil, List.append_nil, List.take_of_length_le (Nat.le_trans htaken.le hn)]
      rw [hfirst, htake, hall]
  · have hfinal := hholds.drain_final hlen rounds [] hstart
    obtain ⟨taken, hall, htaken⟩ := hfinal.taken
    rw [final_rethrow]
    exact ⟨taken, hall, fun _ => Nat.le_trans htaken.le hfinal.le⟩

/-- The copy loop over the source itself. -/
theorem readsFirst_unlimited (h : src.Holds I content) (hs : I s) (f : ε → ε')
    (hlen : IsLength len) {limit : BitVec 64} (hlimit : limit.toInt < 0) :
    ReadsFirst content limit s fun rounds => rethrow f (drain (unlimited src) len rounds []) := by
  have hholds := unlimited_holds (h.suffix (content s))
  have hstart : I s ∧ content s <:+ content s := ⟨hs, List.suffix_refl _⟩
  have hfirst : firstItems limit (content s) = content s := if_pos hlimit
  refine ⟨⟨(content s).length + 1, fun rounds hrounds => ?_⟩, fun rounds => ?_⟩
  · obtain ⟨⟨t, n⟩, hdrain, -, hend⟩ := hholds.drain (s := (s, 0)) hlen rounds [] hstart hrounds
    have hend : content t = [] := hend
    refine ⟨t, n, ?_, ?_⟩
    · refine (rethrow_ok hdrain).trans ?_
      rw [List.nil_append, hfirst]
    · rw [hfirst, hend, List.append_nil]
  · obtain ⟨-, taken, hall⟩ := hholds.drain_final (s := (s, 0)) hlen rounds [] hstart
    rw [final_rethrow]
    exact ⟨taken, hall.symm, fun hnonneg => absurd hlimit (not_lt.2 hnonneg)⟩

end

/-- **Reading to a limit**: `readAllBytes` of a wrapped stream and `readToString` of a wrapped
    reader end, return the first items of the content and take no more of the source, however it
    splits its reads. -/
theorem bounded_reading {σ τ : Type} {is : Source IOException σ UInt8} {I : σ → Prop}
    {bytes : σ → List UInt8} (his : is.Holds I bytes) {reader : Source IOException τ CodeUnit}
    {J : τ → Prop} {chars : τ → List CodeUnit} (hreader : reader.Holds J chars)
    (limit : BitVec 64) {s : σ} (hs : I s) {t : τ} (ht : J t) :
    ReadsFirst bytes limit s (readAllBytes (wrapStreamWithMaxBytes is limit)) ∧
      ReadsFirst chars limit t (readToString (wrapReaderWithMaxChars reader limit)) := by
  unfold wrapStreamWithMaxBytes wrapReaderWithMaxChars
  by_cases hlimit : limit.toInt < 0
  · rw [if_pos hlimit, if_pos hlimit]
    exact ⟨readsFirst_unlimited his hs _ ⟨by decide, by decide⟩ hlimit,
      readsFirst_unlimited hreader ht _ ⟨by decide, by decide⟩ hlimit⟩
  · rw [if_neg hlimit, if_neg hlimit]
    exact ⟨readsFirst_limited his hs _ ⟨by decide, by decide⟩ (not_lt.1 hlimit),
      readsFirst_limited hreader ht _ ⟨by decide, by decide⟩ (not_lt.1 hlimit)⟩

theorem bounded_reading_threes :
    ReadsFirst id 4#64 [1, 2, 3, 4, 5]
        (readAllBytes (wrapStreamWithMaxBytes (ofList IOException UInt8 2) 4#64)) ∧
      ReadsFirst id 4#64 [65, 66]
        (readToString (wrapReaderWithMaxChars (ofList IOException CodeUnit 2) 4#64)) :=
  bounded_reading (ofList_holds _ _ 2) (ofList_holds _ _ 2) 4#64 trivial trivial

end DuckDBJava.Input
