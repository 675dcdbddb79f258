/-
  The width of DECIMAL columns.

  **`decimals_within`**: every number stored in a DECIMAL column, wherever it is, is below
  `10 ^ width` in every run in which the values of `appendDecimal` are.  `append(BigDecimal)` and
  the nested values are checked against the width, `appendDecimal` only against the storage type.
-/
import DuckDBJava.Appender.ChunkInvariant
import DuckDBJava.Numbers.Decimal

namespace DuckDBJava

open Exec PathTree

/-- The number in a cell of a DECIMAL column has at most as many digits as the column is wide. -/
def WithinWidth : TypeKind → Cell → Prop
  | .decimal t p s, .fixed bits => ∀ v, getBigDecimal t s bits = some v →
      v.unscaled.natAbs < 10 ^ p
  | _, _ => True

/-- `appendDecimal`: the storage type it is for and the unscaled value. -/
def Append.appendDecimal : Append → Option (CAPIType × ℤ)
  | .decimalShort v => some (.smallint, v.toInt)
  | .decimalInt v => some (.integer, v.toInt)
  | .decimalLong v => some (.bigint, v.toInt)
  | .decimalLongs lower upper => some (.hugeint, upper.toInt * 2 ^ 64 + lower.toNat)
  | _ => none

/-! ## The two ways into a cell -/

theorem one_le_precision (u : ℤ) : 1 ≤ precision u := Nat.le_add_left ..

theorem bind_eq_ok_of_check {t : CAPIType} {u : ℤ} {q : ℕ} {y : Except Exn Cell} {x : Cell}
    (h : (do checkDecimalPrecision u t q; y) = .ok x) : precision u ≤ q ∧ y = .ok x := by
  unfold checkDecimalPrecision at h
  by_cases hq : q < precision u
  · rw [if_pos hq] at h
    cases h
  · rw [if_neg hq] at h
    exact ⟨not_lt.1 hq, h⟩

theorem valueExact_eq_ok {n w : ℕ} {u : ℤ} {x : Cell} (hn : 2 ^ n = 256 ^ w)
    (hhalf : 2 * 2 ^ (n - 1) = 2 ^ n) (h : valueExact n u = .ok x) :
    ∃ bits, x = .fixed bits ∧ signed w bits = u := by
  unfold valueExact at h
  split at h
  · next hr =>
    cases h
    have hcast : ((2 ^ n : ℕ) : ℤ) = 2 * 2 ^ (n - 1) := by
      rw [← hhalf]
      push_cast
      rfl
    exact ⟨_, rfl, signed_ofInt hn (by omega) (by omega)⟩
  · cases h

/-- What a `BigDecimal` is stored as is read as its unscaled value. -/
theorem decimalCell_eq_ok {t : CAPIType} {p s : ℕ} {u sc : ℤ} {x : Cell}
    (h : decimalCell t p s u sc = .ok x) :
    precision u ≤ p ∧ ∃ bits, x = .fixed bits ∧ getBigDecimal t s bits = some ⟨u, s⟩ := by
  by_cases hc : precision u ≤ p ∧ (s : ℤ) = sc
  · obtain ⟨hp, rfl⟩ := hc
    refine ⟨hp, ?_⟩
    rw [decimalCell_checked t hp] at h
    cases t with
    | smallint =>
      obtain ⟨bits, hx, hbits⟩ :=
        valueExact_eq_ok (w := 2) (by decide) (by decide) (bind_eq_ok_of_check h).2
      refine ⟨bits, hx, ?_⟩
      simp only [getBigDecimal]
      rw [hbits, scaleByPowerOfTen_ofInt]
    | integer =>
      obtain ⟨bits, hx, hbits⟩ :=
        valueExact_eq_ok (w := 4) (by decide) (by decide) (bind_eq_ok_of_check h).2
      refine ⟨bits, hx, ?_⟩
      simp only [getBigDecimal]
      rw [hbits, scaleByPowerOfTen_ofInt]
    | bigint =>
      obtain ⟨bits, hx, hbits⟩ :=
        valueExact_eq_ok (w := 8) (by decide) (by decide) (bind_eq_ok_of_check h).2
      refine ⟨bits, hx, ?_⟩
      simp only [getBigDecimal]
      rw [hbits, scaleByPowerOfTen_ofInt]
    | hugeint =>
      obtain ⟨h38, hx⟩ := bind_eq_ok_of_check h
      cases hx
      have hu := (precision_le_iff (by decide)).1 h38
      obtain ⟨hlo, hhi⟩ := lt_of_natAbs_lt (n := 2 ^ 127) hu le_rfl (by decide)
      push_cast at hlo hhi
      exact ⟨hugeIntBits u, rfl, getBigDecimal_hugeInt (by omega) hhi s⟩
    | _ => cases h
  · obtain ⟨e, he⟩ := decimalCell_error t hc
    rw [he] at h
    cases h

/-- The numbers of the conversions are within the width. -/
theorem withinWidth_conversions : Conversions WithinWidth where
  other := by
    intro kind x hk
    cases kind with
    | decimal t p s => exact absurd rfl hk
    | _ => trivial
  decimal := by
    intro t p s u sc x h
    obtain ⟨hp, bits, rfl, hread⟩ := decimalCell_eq_ok h
    intro v hv
    rw [hread] at hv
    cases hv
    exact (precision_le_iff ((one_le_precision u).trans hp)).1 hp

/-- `getBigDecimal` returns what `appendDecimal` was given. -/
theorem appendDecimal_read {a : Append} {t colType : CAPIType} {x : Cell}
    (h : a.stored colType = .decimal t x) : ∃ u bits, a.appendDecimal = some (t, u) ∧
      x = .fixed bits ∧ ∀ s, getBigDecimal t s bits = some ⟨u, s⟩ := by
  have hpow : (256 : ℕ) ^ 8 = 2 ^ 64 := by norm_num
  cases a with
  | decimalShort v =>
    cases h
    refine ⟨v.toInt, v.toNat, rfl, rfl, fun s => ?_⟩
    have hv : signed 2 v.toNat = v.toInt := (BitVec.toInt_eq_toNat_bmod v).symm
    simp only [getBigDecimal]
    rw [hv, scaleByPowerOfTen_ofInt]
  | decimalInt v =>
    cases h
    refine ⟨v.toInt, v.toNat, rfl, rfl, fun s => ?_⟩
    have hv : signed 4 v.toNat = v.toInt := (BitVec.toInt_eq_toNat_bmod v).symm
    simp only [getBigDecimal]
    rw [hv, scaleByPowerOfTen_ofInt]
  | decimalLong v =>
    cases h
    refine ⟨v.toInt, v.toNat, rfl, rfl, fun s => ?_⟩
    have hv : signed 8 v.toNat = v.toInt := (BitVec.toInt_eq_toNat_bmod v).symm
    simp only [getBigDecimal]
    rw [hv, scaleByPowerOfTen_ofInt]
  | decimalLongs lower upper =>
    cases h
    refine ⟨_, lower.toNat + 2 ^ 64 * upper.toNat, rfl, rfl, fun s => ?_⟩
    have hlt := lower.isLt
    have hdiv : (lower.toNat + 2 ^ 64 * upper.toNat) / 256 ^ 8 = upper.toNat := by
      rw [hpow]
      omega
    have hupper : signed 8 upper.toNat = upper.toInt := (BitVec.toInt_eq_toNat_bmod upper).symm
    have hlower : signed 8 (lower.toNat + 2 ^ 64 * upper.toNat) % 2 ^ 64 = lower.toNat := by
      have hmod : ((lower.toNat + 2 ^ 64 * upper.toNat : ℕ) : ℤ).bmod (2 ^ 64) % 2 ^ 64 =
          (lower.toNat + 2 ^ 64 * upper.toNat : ℕ) % 2 ^ 64 := Int.bmod_emod ..
      rw [signed, hpow, hmod]
      omega
    simp only [getBigDecimal, hdiv, hupper, hlower, BigDecimal.multiply, ulongMultiplier,
      BigDecimal.ofInt]
    rw [BigDecimal.add_of_scale_eq (by rfl), BigDecimal.scaleByPowerOfTen]
    simp
  | boxed _ v | character v | bigInteger v | bigDecimal v | array _ v | array2D _ v | bytes v
  | chars v | string v | uuid v | localDate v | localTime v | offsetTime v | localDateTime v
  | date v | offsetDateTime v | collection v | iterable v | iterator v | map v =>
    cases v <;> cases h
  | _ => cases h

/-! ## All cells of the chunk -/

/-- The numbers in a vector are within the width of its column. -/
def NumbersWithin (col : Column) (c : ColState) : Prop :=
  ∀ k x, c.data k = some x → WithinWidth col.kind x

theorem numbersWithin_kept : KeptByWrites WithinWidth NumbersWithin where
  clear j h k x hx := h k x (by rwa [ColState.clearValid_data] at hx)
  position _ _ h := h
  cells := by
    intro col c base cells hcells h k x hx
    unfold ColState.write at hx
    split at hx
    · simp only at hx
      split at hx
      · exact hcells x (List.mem_of_getElem? hx)
      · exact h k x hx
    · exact h k x hx
  store j _ hx h k y hy := by
    simp only [ColState.store] at hy
    split at hy
    · cases hy
      exact hx
    · exact h k y hy
  size _ h := h
  fetched hdata _ _ h k x hx := h k x (hdata ▸ hx)

/-- The numbers that the engine writes as defaults are within the width of their columns. -/
def DefaultsWithin (cfg : Config) : Prop :=
  ∀ i row chunk chunk', cfg.eng.appendDefault i row chunk = some chunk' →
    ∀ col : Column, col.In cfg.columns → ∀ k x, (chunk'.sub col.path).root.data k = some x →
      (chunk.sub col.path).root.data k = some x ∨ WithinWidth col.kind x

theorem DefaultsWithin.kept {cfg : Config} (h : DefaultsWithin cfg) (col : Column) {s : Appender}
    (hs : ChunkAll NumbersWithin cfg s.chunk) :
    ChunkAll NumbersWithin cfg (defaultWritten cfg col s) := by
  rw [chunkAll_iff] at hs ⊢
  intro d hd k x hx
  unfold defaultWritten at hx
  cases hw : cfg.eng.appendDefault col.idx s.rowIdx s.chunk with
  | none =>
    rw [hw] at hx
    exact hs d hd k x hx
  | some chunk' =>
    rw [hw] at hx
    have hdata : ((nativeWrite s.chunk chunk').sub d.path).root.data =
        (chunk'.sub d.path).root.data := by
      simp only [root, sub_apply]
      rfl
    simp only [Option.map_some, Option.getD_some, hdata] at hx
    rcases h _ _ _ _ hw d hd k x hx with hold | hnew
    · exact hs d hd k x hold
    · exact hnew

/-- A call that fetches its buffers; the value of an `appendDecimal` that is accepted is within the
    width of the column. -/
structure Entry.DecimalFits (e : Entry) : Prop where
  value : ∀ a col t u p s, e.call = .append a → a.appendDecimal = some (t, u) →
    e.before.currentColumn = some col → col.kind = .decimal t p s → u.natAbs < 10 ^ p
  buffers : ∀ x t, e.result = .error x t → x.isReset = false

theorem Entry.DecimalFits.admitted {cfg : Config} (hdefault : DefaultsWithin cfg) {e : Entry}
    (h : e.DecimalFits) : Admitted WithinWidth NumbersWithin cfg e where
  decimals := by
    intro a col hcall hcol t x hx p s hk
    obtain ⟨u, bits, hu, rfl, hread⟩ := appendDecimal_read hx
    rw [hk]
    intro v hv
    rw [hread] at hv
    cases hv
    exact h.value a col t u p s hcall hu hcol hk
  default col _ _ hs := hdefault.kept col hs
  buffers := h.buffers

/-- **DECIMALs stay within their width** in every run in which every accepted `appendDecimal` is
    given a value within the width. -/
theorem decimals_within {cfg : Config} (hdefault : DefaultsWithin cfg) {s₀ : Appender}
    (h₀ : create cfg = .ok s₀) {calls : List (Call × Natives)}
    (hk : ∀ e ∈ history cfg s₀ calls, e.DecimalFits) (hopen : (exec cfg s₀ calls).closed = false)
    {col : Column} (hin : col.In cfg.columns) {t : CAPIType} {p s : ℕ}
    (hkind : col.kind = .decimal t p s) {k bits : ℕ} {v : BigDecimal}
    (hdata : ((exec cfg s₀ calls).chunk.sub col.path).root.data k = some (.fixed bits))
    (hread : getBigDecimal t s bits = some v) : v.unscaled.natAbs < 10 ^ p := by
  have hall := chunkAll_exec withinWidth_conversions numbersWithin_kept
    (fun _ _ _ hx => by cases hx) h₀ (fun e he => (hk e he).admitted hdefault) hopen
  have hx := chunkAll_iff.1 hall col hin k _ hdata
  rw [hkind] at hx
  exact hx v hread

/-- One row of a DECIMAL(4, 1), with `appendDecimal(short)`. -/
def decimalShortRow (v : BitVec 16) : List (Call × Natives) :=
  [.beginRow, .append (.decimalShort v), .endRow].map (·, .success)

theorem decimalShortRow_isOk (v : BitVec 16) (h : v = 9999#16 ∨ v = 10000#16) :
    ∀ e ∈ history decimalTable decimalTable.start (decimalShortRow v), isOk e.result = true := by
  intro e he
  simp only [decimalShortRow, history, List.map_cons, List.map_nil, List.mem_cons,
    List.not_mem_nil, or_false] at he
  rcases h with rfl | rfl
  · rcases he with rfl | rfl | rfl <;> decide +kernel
  · rcases he with rfl | rfl | rfl <;> decide +kernel

theorem decimalShortRow_fits :
    ∀ e ∈ history decimalTable decimalTable.start (decimalShortRow 9999#16), e.DecimalFits := by
  intro e he
  have hok := decimalShortRow_isOk _ (.inl rfl) e he
  refine ⟨?_, fun x t hx => by rw [hx] at hok; cases hok⟩
  simp only [decimalShortRow, history, List.map_cons, List.map_nil, List.mem_cons,
    List.not_mem_nil, or_false] at he
  intro a col t u p s hcall hu hcol hk
  rcases he with rfl | rfl | rfl
  · cases hcall
  · cases hcall
    cases hu
    obtain rfl : decimalColumn = col := Option.some.inj hcol
    cases hk
    decide
  · cases hcall

theorem decimals_within_short :
    ((exec decimalTable decimalTable.start (decimalShortRow 9999#16)).chunk.sub
      decimalColumn.path).root.data 0 = some (.fixed 9999) ∧ (9999 : ℤ).natAbs < 10 ^ 4 := by
  have hdata : ((exec decimalTable decimalTable.start (decimalShortRow 9999#16)).chunk.sub
      decimalColumn.path).root.data 0 = some (.fixed 9999) := by decide +kernel
  exact ⟨hdata, @decimals_within decimalTable nofun _ (create_eq_start (by decide)) _
    decimalShortRow_fits (by decide +kernel) decimalColumn rfl .smallint 4 1 rfl 0 9999 ⟨9999, 1⟩
    hdata (by decide)⟩

/-- **`appendDecimal(short)` stores 10000 in a DECIMAL(4, 1).** -/
theorem decimals_not_within : ¬ ∀ (cfg : Config) (s₀ : Appender), create cfg = .ok s₀ →
    ∀ calls : List (Call × Natives), (∀ e ∈ history cfg s₀ calls, isOk e.result = true) →
      ∀ (col : Column) (t : CAPIType) (p s : ℕ), col.In cfg.columns →
        col.kind = .decimal t p s → ∀ (k bits : ℕ) (v : BigDecimal),
          ((exec cfg s₀ calls).chunk.sub col.path).root.valid k = true →
          ((exec cfg s₀ calls).chunk.sub col.path).root.data k = some (.fixed bits) →
          getBigDecimal t s bits = some v → v.unscaled.natAbs < 10 ^ p := by
  intro h
  have := h decimalTable _ (create_eq_start (by decide)) (decimalShortRow 10000#16)
    (decimalShortRow_isOk _ (.inr rfl)) decimalColumn .smallint 4 1 rfl rfl 0 10000 ⟨10000, 1⟩
    (by decide +kernel) (by decide +kernel) (by decide)
  revert this
  decide

end DuckDBJava
