/-
  What `getObject` returns for an appended scalar.

  `Append.Promises` says it in the terms of the caller, without the bits: the number, text, date,
  time or moment that was appended, in the class of the column.  Nothing is promised of a negative
  number in an unsigned column, of a moment between two units of the column, of an offset beyond
  15:59:59, or of an instant near a change of the offset of the system zone.

  **`Append.Promises.leafObject`**: the stored bits are read as what is promised, for every overload
  and every type of column it accepts.
-/
import DuckDBJava.Result.Shown
import DuckDBJava.Numbers.DecimalWidth
import DuckDBJava.Numbers.TimeTz
import DuckDBJava.Numbers.Timestamps
import DuckDBJava.Numbers.Uuid

namespace DuckDBJava

open Exec Bytes Calendar

/-! ## What the caller gives -/

/-- The whole number of a primitive value. -/
def PrimKind.number : (k : PrimKind) → k.Val → Option ℤ
  | .byte, v => some (BitVec.toInt v)
  | .short, v => some (BitVec.toInt v)
  | .int, v => some (BitVec.toInt v)
  | .long, v => some (BitVec.toInt v)
  | .boolean, _ | .float, _ | .double, _ => none

namespace Append

/-- The argument is `null`. -/
def isNull : Append → Bool
  | boxed _ none | character none | string none | chars none | bigInteger none | bigDecimal none
  | bytes none | uuid none | localDate none | localTime none | offsetTime none | localDateTime none
  | date none | offsetDateTime none => true
  | _ => false

/-- The primitive value of a boxed one. -/
def unboxed : Append → Append
  | boxed k (some v) => prim k v
  | a => a

/-- The whole number. -/
def number : Append → Option ℤ
  | prim k v | boxed k (some v) => k.number v
  | hugeInt lower upper => some (upper.toInt * 2 ^ 64 + lower.toNat)
  | bigInteger v => v
  | _ => none

/-- The text. -/
def text : Append → Option String
  | char c | character (some c) => some (String.singleton c)
  | string s | chars s => s
  | _ => none

/-- The text, or bytes that are its UTF-8. -/
def IsText (a : Append) (s : String) : Prop :=
  a.text = some s ∨ ∃ bs, a = bytes (some bs) ∧ bytesOf bs = utf8 s

/-- The UUID. -/
def uuidHalves : Append → Option UUID
  | uuidBits mostSigBits leastSigBits | uuid (some (mostSigBits, leastSigBits)) =>
    some ⟨mostSigBits, leastSigBits⟩
  | _ => none

/-- The days from 1970-01-01. -/
def day : Append → Option ℤ
  | epochDays days => some days.toInt
  | localDate d => d
  | _ => none

/-- The nanoseconds from midnight. -/
def time : Append → Option ℤ
  | dayMicros micros | dayMicrosOffset micros _ => some (micros.toInt * 1000)
  | localTime (some n) | offsetTime (some (n, _)) => some n
  | _ => none

/-- The offset of a time, in seconds. -/
def offset : Append → Option ℤ
  | dayMicrosOffset _ seconds => some seconds.toInt
  | offsetTime (some (_, seconds)) => some seconds
  | _ => none

/-- The nanoseconds from 1970-01-01 00:00, in UTC where the moment is an instant. -/
def moment : Append → Option ℤ
  | epochSeconds n => some (n.toInt * 1000000000)
  | epochMillis n => some (n.toInt * 1000000)
  | epochMicros n => some (n.toInt * 1000)
  | epochNanos n => some n.toInt
  | localDateTime (some (s, nano)) | offsetDateTime (some (s, nano)) =>
    some (s * 1000000000 + nano)
  | date (some d) =>
    if (d.nanosOfMilli : ℕ) = 0 then some (d.getTime.toInt * 1000000) else none
  | _ => none

end Append

/-! ## What the caller is promised -/

/-- The whole numbers without a sign. -/
def CAPIType.isUnsigned : CAPIType → Bool
  | utinyint | usmallint | uinteger | ubigint | uhugeint => true
  | _ => false

/-- The class of the whole numbers of a type. -/
def CAPIType.numberClass : CAPIType → NumberClass
  | tinyint => .byte
  | smallint | utinyint => .short
  | integer | usmallint => .integer
  | bigint | uinteger => .long
  | _ => .bigInteger

/-- The scale of a `DECIMAL`. -/
def TypeKind.decimalScale : TypeKind → ℕ
  | .decimal _ _ scale => scale
  | _ => 0

/-- `NewStringUTF` reads modified UTF-8: of these texts it is the UTF-8. -/
def PlainText (s : String) : Prop := ∀ c ∈ s.toList, 0 < c.toNat ∧ c.toNat < 0x10000

/-- `Charset.decode` and `NewStringUTF` return the text. -/
structure Platform.KeepsTexts (env : Platform) : Prop where
  decodeCharbuffer : ∀ s, env.decodeCharbuffer (utf8 s) = s
  newStringUTF : ∀ s, PlainText s → env.newStringUTF s = s

/-- What the caller is promised of `getObject`, in a column of the kind. -/
inductive Append.Promises (env : Platform) (kind : TypeKind) (a : Append) : JObject → Prop
  | null : a.isNull = true → Promises env kind a .null
  | boolean {b : Bool} : a.unboxed = prim .boolean b → Promises env kind a (.boolean b)
  | number {n} : a.number = some n → (kind.colType.isUnsigned = true → 0 ≤ n) →
      Promises env kind a (.number kind.colType.numberClass n)
  /-- the two halves of a number without a sign -/
  | halves {lower upper} : a = hugeInt lower upper → kind.colType = .uhugeint →
      Promises env kind a (.number .bigInteger (upper.toNat * 2 ^ 64 + lower.toNat))
  | float {bits : BitVec 32} :
      a.unboxed = prim .float bits → Promises env kind a (.float bits.toNat)
  | double {bits : BitVec 64} : a.unboxed = prim .double bits →
      Promises env kind a (.double bits.toNat)
  | decimal {t u} : a.appendDecimal = some (t, u) →
      Promises env kind a (.bigDecimal u kind.decimalScale)
  | bigDecimal {u} {scale : ℕ} : a = bigDecimal (some (u, scale)) →
      Promises env kind a (.bigDecimal u scale)
  | string {s} : a.IsText s → kind.columnType = .varchar → Promises env kind a (.string s)
  | json {s} : a.IsText s → kind.columnType = .json → Promises env kind a (.jsonNode s)
  | enum {s} : a.text = some s → kind.columnType = .enum → PlainText s →
      Promises env kind a (.string s)
  | blob {bs} : a = bytes (some bs) → kind.colType = .blob →
      Promises env kind a (.blob (bytesOf bs))
  | uuid {u} : a.uuidHalves = some u →
      Promises env kind a (.uuid u.mostSigBits.toInt u.leastSigBits.toInt)
  | localDate {d} : a.day = some d → Promises env kind a (.localDate d)
  | localTime {n} : a.time = some n → a.offset = none → 0 ≤ n → n < 86400000000000 → 1000 ∣ n →
      Promises env kind a (.localTime n)
  | offsetTime {n seconds} : a.time = some n → a.offset = some seconds → 0 ≤ n →
      n < 86400000000000 → 1000 ∣ n → -57600 < seconds → seconds < 57600 →
      Promises env kind a (.offsetTime n seconds)
  /-- `Timestamp.valueOf` of the date-time -/
  | timestamp {v unit} : a.moment = some v.epochNanos → v.Valid →
      unitNanos kind.colType = some unit → unit ∣ v.epochNanos →
      Promises env kind a (.timestamp (timestampValueOf env.resolve v))
  /-- the instant in the system zone -/
  | offsetDateTime {i : Instant} : kind.colType = .timestampTz →
      a.moment = some (i.epochSecond * nanosPerSecond + i.nano) → 0 ≤ i.nano →
      i.nano < nanosPerSecond → 1000 ∣ i.nano →
      env.systemDefault.offset (env.systemDefault.localSecond i.epochSecond) =
        env.systemDefault.offset i.epochSecond →
      Promises env kind a (.offsetDateTime
        ⟨.ofInstant i env.systemDefault, env.systemDefault.offset i.epochSecond⟩)

/-- The physical type of an `ENUM` has a number for every member. -/
def TypeKind.NumbersMembers : TypeKind → Prop
  | .enum t dict => dict.length ≤ 256 ^ t.widthBytes
  | _ => True

/-! ## Bits -/

/-- A type with an id of its own. -/
theorem TypeKind.eq_scalar {kind : TypeKind} {t : CAPIType}
    (ht : (t.isScalar && t ≠ .varchar && t ≠ .invalid) = true) (h : kind.colType = t) :
    ∃ h, kind = .scalar t h := by
  cases kind with
  | scalar u hu =>
    obtain rfl : u = t := h
    exact ⟨hu, rfl⟩
  | unlisted u =>
    obtain rfl := h
    cases u <;> cases ht
  | _ =>
    obtain rfl := h
    cases ht

theorem signed_toNat_8 (v : BitVec 8) : signed 1 v.toNat = v.toInt :=
  (BitVec.toInt_eq_toNat_bmod v).symm

theorem signed_toNat_16 (v : BitVec 16) : signed 2 v.toNat = v.toInt :=
  (BitVec.toInt_eq_toNat_bmod v).symm

theorem signed_toNat_32 (v : BitVec 32) : signed 4 v.toNat = v.toInt :=
  (BitVec.toInt_eq_toNat_bmod v).symm

theorem signed_toNat_64 (v : BitVec 64) : signed 8 v.toNat = v.toInt :=
  (BitVec.toInt_eq_toNat_bmod v).symm

theorem unsigned_of_lt {w n : ℕ} (h : n < 256 ^ w) : unsigned w n = n :=
  congrArg Nat.cast (Nat.mod_eq_of_lt h)

/-- The bits of a number that is not negative. -/
theorem unsigned_toNat {w n : ℕ} {v : BitVec w} (h : 2 ^ w = 256 ^ n) (hv : 0 ≤ v.toInt) :
    unsigned n v.toNat = v.toInt := by
  have hlt := v.isLt
  rw [unsigned_of_lt (h ▸ hlt), BitVec.toInt_eq_toNat_cond]
  rw [BitVec.toInt_eq_toNat_cond] at hv
  split at hv
  · next hlow => rw [if_pos hlow]
  · omega

section
variable {env : Platform} {kind : TypeKind}

/-! ## Numbers -/

theorem PrimKind.number_readBack {k : PrimKind} {v : k.Val} {n : ℤ} (ht : kind.colType ∈ k.types)
    (hn : k.number v = some n) (hpos : kind.colType.isUnsigned = true → 0 ≤ n) :
    scalarObject env kind (k.cell v) = .ok (.number kind.colType.numberClass n) := by
  cases k with
  | boolean | float | double => cases hn
  | byte =>
    cases hn
    rcases List.mem_pair.1 ht with ht | ht <;> obtain ⟨_, rfl⟩ := TypeKind.eq_scalar rfl ht
    · exact congrArg (fun n => Except.ok (JObject.number .byte n)) (signed_toNat_8 v)
    · exact congrArg (fun n => Except.ok (JObject.number .short n))
        (unsigned_toNat (v := v) (by norm_num) (hpos rfl))
  | short =>
    cases hn
    rcases List.mem_pair.1 ht with ht | ht <;> obtain ⟨_, rfl⟩ := TypeKind.eq_scalar rfl ht
    · exact congrArg (fun n => Except.ok (JObject.number .short n)) (signed_toNat_16 v)
    · exact congrArg (fun n => Except.ok (JObject.number .integer n))
        (unsigned_toNat (v := v) (by norm_num) (hpos rfl))
  | int =>
    cases hn
    rcases List.mem_pair.1 ht with ht | ht <;> obtain ⟨_, rfl⟩ := TypeKind.eq_scalar rfl ht
    · exact congrArg (fun n => Except.ok (JObject.number .integer n)) (signed_toNat_32 v)
    · exact congrArg (fun n => Except.ok (JObject.number .long n))
        (unsigned_toNat (v := v) (by norm_num) (hpos rfl))
  | long =>
    cases hn
    rcases List.mem_pair.1 ht with ht | ht <;> obtain ⟨_, rfl⟩ := TypeKind.eq_scalar rfl ht
    · exact congrArg (fun n => Except.ok (JObject.number .long n)) (signed_toNat_64 v)
    · exact congrArg (fun n => Except.ok (JObject.number .bigInteger n))
        (unsigned_toNat (v := v) (by norm_num) (hpos rfl))

/-- The bits of a 128-bit number. -/
theorem int128_readBack (ht : kind.colType ∈ [CAPIType.hugeint, .uhugeint]) {bits : ℕ} {v : ℤ}
    (hlo : -2 ^ 127 ≤ v) (hhi : v < 2 ^ 127) (hpos : kind.colType.isUnsigned = true → 0 ≤ v)
    (hbits : (bits : ℤ) = v % 2 ^ 128) :
    scalarObject env kind (.fixed bits) = .ok (.number kind.colType.numberClass v) := by
  have hpow : (256 : ℕ) ^ 16 = 2 ^ 128 := by norm_num
  rcases List.mem_pair.1 ht with ht | ht <;> obtain ⟨_, rfl⟩ := TypeKind.eq_scalar rfl ht
  · refine congrArg (fun n => Except.ok (JObject.number .bigInteger n)) ?_
    rw [signed, hpow, hbits]
    exact bmod_emod_eq (by push_cast; omega) (by push_cast; omega)
  · have hpos : 0 ≤ v := hpos rfl
    refine congrArg (fun n => Except.ok (JObject.number .bigInteger n)) ?_
    rw [unsigned_of_lt (by rw [hpow]; omega), hbits]
    omega

theorem Append.number_readBack {a : Append} {n : ℤ} {x : Value} (hn : a.number = some n)
    (hpos : kind.colType.isUnsigned = true → 0 ≤ n) (ht : kind.colType ∈ a.types)
    (hx : (a.stored kind.colType).value kind = some x) :
    leafObject env kind x = .ok (.number kind.colType.numberClass n) := by
  cases a with
  | prim k v =>
    have hcell : leafObject env kind x = scalarObject env kind (k.cell v) := by
      cases k <;> cases hx <;> rfl
    exact hcell.trans (PrimKind.number_readBack ht hn hpos)
  | boxed k v =>
    cases v with
    | none => cases hn
    | some v =>
      have hcell : leafObject env kind x = scalarObject env kind (k.cell v) := by
        cases k <;> cases hx <;> rfl
      exact hcell.trans (PrimKind.number_readBack ht hn hpos)
  | hugeInt lower upper =>
    cases hx
    cases hn
    have hl := lower.isLt
    have hlo := upper.le_toInt
    have hhi := upper.toInt_lt
    have hlt := upper.isLt
    have hu : (upper.toNat : ℤ) = upper.toInt % 2 ^ 64 := by
      rw [BitVec.toInt_eq_toNat_cond]
      split <;> omega
    exact int128_readBack ht (by omega) (by omega) hpos (by push_cast; omega)
  | bigInteger v =>
    obtain rfl : v = some n := hn
    have hx : (Stored.fixed (bigIntegerCell n)).value kind = some x := hx
    rw [bigIntegerCell_eq] at hx
    split at hx
    · cases hx
    · next hrange =>
      cases hx
      exact int128_readBack ht (by omega) (by omega) hpos (hugeIntBits_eq n)
  | _ => cases hn

/-- The halves of a number without a sign. -/
theorem halves_readBack {lower upper : BitVec 64} {x : Value} (ht : kind.colType = .uhugeint)
    (hx : ((Append.hugeInt lower upper).stored kind.colType).value kind = some x) :
    leafObject env kind x =
      .ok (.number .bigInteger (upper.toNat * 2 ^ 64 + lower.toNat)) := by
  cases hx
  obtain ⟨_, rfl⟩ := TypeKind.eq_scalar rfl ht
  have hpow : (256 : ℕ) ^ 16 = 2 ^ 128 := by norm_num
  have hl := lower.isLt
  have hu := upper.isLt
  refine congrArg (fun n => Except.ok (JObject.number .bigInteger n)) ?_
  rw [unsigned_of_lt (by rw [hpow]; omega)]
  push_cast
  omega

/-- A boxed value is stored as the primitive one. -/
theorem Append.stored_unboxed (a : Append) (colType : CAPIType) :
    a.unboxed.types = a.types ∧ a.unboxed.stored colType = a.stored colType := by
  cases a with
  | boxed k v => cases v <;> exact ⟨rfl, rfl⟩
  | _ => exact ⟨rfl, rfl⟩

/-- A primitive value that is no whole number. -/
theorem prim_readBack {a : Append} {k : PrimKind} {v : k.Val} {x : Value} {o : JObject}
    (ha : a.unboxed = .prim k v) (ht : kind.colType ∈ a.types)
    (hx : (a.stored kind.colType).value kind = some x)
    (hread : kind.colType ∈ k.types → scalarObject env kind (k.cell v) = .ok o) :
    leafObject env kind x = .ok o := by
  obtain ⟨htypes, hstored⟩ := a.stored_unboxed kind.colType
  rw [← hstored, ha] at hx
  rw [← htypes, ha] at ht
  have hcell : leafObject env kind x = scalarObject env kind (k.cell v) := by
    cases k <;> cases hx <;> rfl
  exact hcell.trans (hread ht)

/-! ## Decimals, texts and bytes -/

/-- The decimal that `appendDecimal` was given. -/
theorem decimal_readBack {a : Append} {t colType : CAPIType} {u : ℤ} {x : Value}
    (ha : a.appendDecimal = some (t, u)) (hx : (a.stored colType).value kind = some x) :
    leafObject env kind x = .ok (.bigDecimal u kind.decimalScale) := by
  obtain ⟨c, hc⟩ : ∃ c, a.stored colType = .decimal t c := by
    cases a with
    | decimalShort | decimalInt | decimalLong | decimalLongs =>
      cases ha
      exact ⟨_, rfl⟩
    | _ => cases ha
  obtain ⟨u', bits, hu, rfl, hread⟩ := appendDecimal_read hc
  rw [ha] at hu
  cases hu
  rw [hc] at hx
  cases kind with
  | decimal t' p s =>
    rw [Stored.value] at hx
    split at hx
    · next heq =>
      subst heq
      cases hx
      show decimalObject t' s bits = _
      rw [decimalObject_eq, hread s]
      rfl
    · cases hx
  | _ => cases hx

/-- A `BigDecimal`. -/
theorem bigDecimal_readBack {unscaled scale : ℤ} {x : Value}
    (hx : (Stored.bigDecimal unscaled scale).value kind = some x) :
    leafObject env kind x = .ok (.bigDecimal unscaled scale.toNat) := by
  cases kind with
  | decimal t p s =>
    have hx : (decimalCell t p s unscaled scale).toOption.bind Cell.value = some x := hx
    cases hc : decimalCell t p s unscaled scale with
    | error e =>
      rw [hc] at hx
      cases hx
    | ok c =>
      have hscale : (s : ℤ) = scale := by
        by_contra hne
        obtain ⟨e, he⟩ := decimalCell_error t fun h => hne h.2
        rw [he] at hc
        cases hc
      obtain ⟨-, bits, rfl, hread⟩ := decimalCell_eq_ok hc
      rw [hc] at hx
      cases hx
      subst hscale
      show decimalObject t s bits = _
      rw [decimalObject_eq, hread]
      rfl
  | _ => cases hx

/-- The text of a member of an `ENUM`. -/
theorem enumDictGet_getElem? {dict : List String} {s : String} {num : ℕ}
    (h : enumDictGet dict s = some num) : dict[num]? = some s := by
  have := List.find?_some h
  simpa using this

theorem TypeKind.eq_varchar {kind : TypeKind} (h : kind.columnType = .varchar) :
    ∃ h, kind = .scalar .varchar h := by
  cases kind with
  | scalar t ht =>
    cases t with
    | varchar => exact ⟨ht, rfl⟩
    | _ => cases h
  | unlisted t => cases t <;> cases h
  | _ => cases h

theorem TypeKind.eq_json {kind : TypeKind} (h : kind.columnType = .json) :
    kind = .unlisted .json := by
  cases kind with
  | scalar t ht => cases t <;> cases h
  | unlisted t =>
    cases t with
    | json => rfl
    | _ => cases h
  | _ => cases h

theorem TypeKind.eq_enum {kind : TypeKind} (h : kind.columnType = .enum) :
    ∃ t dict, kind = .enum t dict := by
  cases kind with
  | enum t dict => exact ⟨t, dict, rfl⟩
  | scalar t ht => cases t <;> cases h
  | unlisted t => cases t <;> cases h
  | _ => cases h

theorem Append.stored_text {a : Append} {s : String} (ha : a.text = some s) (colType : CAPIType) :
    a.stored colType = .text s := by
  cases a with
  | char c =>
    cases ha
    rfl
  | character c =>
    cases c with
    | none => cases ha
    | some c =>
      cases ha
      rfl
  | string v | chars v =>
    obtain rfl : v = some s := ha
    rfl
  | _ => cases ha

/-- The bytes of a text. -/
theorem Append.IsText.stored_value {a : Append} {s : String} {x : Value} (ha : a.IsText s)
    (hc : kind.colType = .varchar) (hx : (a.stored kind.colType).value kind = some x) :
    x = .string (utf8 s) := by
  rcases ha with ha | ⟨bs, rfl, hbs⟩
  · have hvalue : (Stored.text s).value kind = some (.string (utf8 s)) := by
      cases kind with
      | enum => cases hc
      | _ => exact if_pos hc
    rw [stored_text ha, hvalue] at hx
    exact (Option.some.inj hx).symm
  · rw [← hbs]
    exact (Option.some.inj hx).symm

/-- The text of a member of an `ENUM`. -/
theorem enum_readBack {a : Append} {s : String} {x : Value} (hk : kind.NumbersMembers)
    (ha : a.text = some s) (hc : kind.columnType = .enum)
    (hx : (a.stored kind.colType).value kind = some x) :
    leafObject env kind x = .ok (.string (env.newStringUTF s)) := by
  obtain ⟨t, dict, rfl⟩ := TypeKind.eq_enum hc
  rw [Append.stored_text ha] at hx
  obtain ⟨num, hnum, rfl⟩ := Option.map_eq_some_iff.1 hx
  have hget := enumDictGet_getElem? hnum
  have hlt : num < 2 ^ (8 * t.widthBytes) := by
    have hlen := (List.getElem?_eq_some_iff.1 hget).1
    have hk : dict.length ≤ 256 ^ t.widthBytes := hk
    rw [Nat.pow_mul]
    exact hlen.trans_le hk
  show enumObject env (.enum t dict) (.fixed (num % 2 ^ (8 * t.widthBytes))) = _
  rw [Nat.mod_eq_of_lt hlt, enumObject, hget]

/-! ## Dates and times -/

theorem Append.stored_uuid {a : Append} {u : UUID} (ha : a.uuidHalves = some u)
    (colType : CAPIType) : a.types = [.uuid] ∧
      a.stored colType = .fixed (.ok (uuidCell u.mostSigBits u.leastSigBits)) := by
  cases a with
  | uuidBits m l =>
    cases ha
    exact ⟨rfl, rfl⟩
  | uuid v =>
    cases v with
    | none => cases ha
    | some v =>
      cases ha
      exact ⟨rfl, rfl⟩
  | _ => cases ha

theorem Append.day_readBack {a : Append} {d : ℤ} {x : Value} (ha : a.day = some d)
    (ht : kind.colType ∈ a.types) (hx : (a.stored kind.colType).value kind = some x) :
    leafObject env kind x = .ok (.localDate d) := by
  cases a with
  | epochDays days =>
    cases hx
    cases ha
    obtain ⟨_, rfl⟩ := TypeKind.eq_scalar rfl (List.mem_singleton.1 ht)
    exact congrArg (fun n => Except.ok (JObject.localDate n)) (signed_toNat_32 days)
  | localDate v =>
    obtain rfl : v = some d := ha
    have hx : (Stored.fixed (localDateCell d)).value kind = some x := hx
    unfold localDateCell at hx
    split at hx
    · cases hx
    · next hrange =>
      cases hx
      obtain ⟨_, rfl⟩ := TypeKind.eq_scalar rfl (List.mem_singleton.1 ht)
      refine congrArg (fun n => Except.ok (JObject.localDate n)) ?_
      exact signed_ofInt (by norm_num) (by push_cast; omega) (by push_cast; omega)
  | _ => cases ha

/-- The microseconds of a time, as a `long`. -/
theorem toNat_dayMicros {micros : BitVec 64} {n : ℤ} (hn : micros.toInt * 1000 = n) (h0 : 0 ≤ n) :
    micros.toNat = n.toNat / 1000 := by
  have hcond := BitVec.toInt_eq_toNat_cond micros
  have hlt := micros.isLt
  split at hcond <;> omega

theorem Append.time_stored {a : Append} {n : ℤ} {x : Value} (ha : a.time = some n)
    (hoff : a.offset = none) (h0 : 0 ≤ n) (hlt : n < 86400000000000)
    (ht : kind.colType ∈ a.types) (hx : (a.stored kind.colType).value kind = some x) :
    kind.colType = .time ∧ x = .fixed (n.toNat / 1000) := by
  cases a with
  | dayMicros micros =>
    cases hx
    rw [toNat_dayMicros (Option.some.inj ha) h0]
    exact ⟨List.mem_singleton.1 ht, rfl⟩
  | localTime v =>
    cases v with
    | none => cases ha
    | some v =>
      cases ha
      cases hx
      refine ⟨List.mem_singleton.1 ht, congrArg Value.fixed ?_⟩
      rw [BitVec.toNat_ofNat]
      omega
  | dayMicrosOffset => cases hoff
  | offsetTime v =>
    cases v with
    | none => cases ha
    | some v => cases hoff
  | _ => cases ha

theorem Append.time_readBack {a : Append} {n : ℤ} {x : Value} (ha : a.time = some n)
    (hoff : a.offset = none) (h0 : 0 ≤ n) (hlt : n < 86400000000000) (hdvd : 1000 ∣ n)
    (ht : kind.colType ∈ a.types) (hx : (a.stored kind.colType).value kind = some x) :
    leafObject env kind x = .ok (.localTime n) := by
  obtain ⟨htime, rfl⟩ := time_stored ha hoff h0 hlt ht hx
  obtain ⟨_, rfl⟩ := TypeKind.eq_scalar rfl htime
  have hsigned : signed 8 (n.toNat / 1000) = n / 1000 := by
    rw [signed, show (256 : ℕ) ^ 8 = 2 ^ 64 by norm_num]
    exact (Int.bmod_eq_of_le (by push_cast; omega) (by push_cast; omega)).trans (by omega)
  have hnanos : microsToNanos (signed 8 (n.toNat / 1000)) = n := by
    rw [hsigned]
    unfold microsToNanos
    omega
  show (do return .localTime (← localTimeOfNanoOfDay (microsToNanos _)) :
    Except JavaException JObject) = _
  rw [hnanos, localTimeOfNanoOfDay, if_pos ⟨h0, by omega⟩]
  rfl

theorem Append.offsetTime_stored {a : Append} {n seconds : ℤ} {x : Value} (ha : a.time = some n)
    (hoff : a.offset = some seconds) (h0 : 0 ≤ n) (hlt : n < 86400000000000)
    (ht : kind.colType ∈ a.types) (hx : (a.stored kind.colType).value kind = some x) :
    kind.colType = .timeTz ∧ x = .fixed (timeTzBits (n.toNat / 1000) seconds) := by
  cases a with
  | dayMicrosOffset micros offset =>
    cases hoff
    have hx : (Stored.fixed (.ok (timeTzCell micros offset.toInt))).value kind = some x := hx
    rw [timeTzCell_eq, toNat_dayMicros (Option.some.inj ha) h0] at hx
    exact ⟨List.mem_singleton.1 ht, (Option.some.inj hx).symm⟩
  | offsetTime v =>
    cases v with
    | none => cases ha
    | some v =>
      cases ha
      cases hoff
      have hx : (Stored.fixed (.ok (timeTzCell (BitVec.ofNat 64 (v.1 / 1000)) v.2))).value kind =
        some x := hx
      rw [timeTzCell_eq, BitVec.toNat_ofNat, Nat.mod_eq_of_lt (by omega)] at hx
      exact ⟨List.mem_singleton.1 ht, (Option.some.inj hx).symm⟩
  | _ => cases hoff

theorem Append.offsetTime_readBack {a : Append} {n seconds : ℤ} {x : Value} (ha : a.time = some n)
    (hoff : a.offset = some seconds) (h0 : 0 ≤ n) (hlt : n < 86400000000000) (hdvd : 1000 ∣ n)
    (hge : -57600 < seconds) (hle : seconds < 57600) (ht : kind.colType ∈ a.types)
    (hx : (a.stored kind.colType).value kind = some x) :
    leafObject env kind x = .ok (.offsetTime n seconds) := by
  obtain ⟨htz, rfl⟩ := offsetTime_stored ha hoff h0 hlt ht hx
  obtain ⟨_, rfl⟩ := TypeKind.eq_scalar rfl htz
  have hread := toOffsetTime_timeTzBits ⟨n.toNat, seconds, by omega, by omega, by omega⟩
  rw [if_pos ⟨hge, hle⟩] at hread
  refine hread.trans (congrArg (fun m => Except.ok (JObject.offsetTime m seconds)) ?_)
  unfold OffsetTime.microOfDay
  push_cast
  omega

/-! ## Moments -/

theorem untilCell_eq (unit epochSecond : ℤ) (nano : ℕ) : untilCell unit epochSecond nano =
    countCell ((epochSecond * 1000000000 + nano).tdiv unit) := by
  show (do let moment ← (if FitsLong _ then _ else _); _ : Except Exn Cell) = _
  unfold countCell
  split <;> rfl

/-- The bits of a count. -/
theorem countCell_read {n : ℤ} {x : Value} (hx : (Stored.fixed (countCell n)).value kind = some x) :
    ∃ bits, x = .fixed bits ∧ signed 8 bits = n := by
  unfold countCell at hx
  split at hx
  · next hfits =>
    cases hx
    exact ⟨_, rfl, signed_count hfits⟩
  · cases hx

/-- The nanoseconds of the unit of a timestamp type, with a zone or without. -/
def momentUnit (colType : CAPIType) : Option ℤ :=
  if colType = .timestampTz then some 1000 else unitNanos colType

theorem not_timestampTz {t : CAPIType} (h : t ∈ timestampLocalTypes) : t ≠ .timestampTz := by
  rintro rfl
  revert h
  decide

/-- The stored count of a moment. -/
theorem Append.moment_stored {a : Append} {nanos unit : ℤ} {x : Value}
    (ha : a.moment = some nanos) (hunit : momentUnit kind.colType = some unit)
    (hdvd : unit ∣ nanos) (ht : kind.colType ∈ a.types)
    (hx : (a.stored kind.colType).value kind = some x) :
    ∃ bits, x = .fixed bits ∧ signed 8 bits * unit = nanos := by
  have hlong : ∀ {n : BitVec 64}, (Stored.fixed (.ok (.fixed n.toNat))).value kind = some x →
      n.toInt * unit = nanos → ∃ bits, x = .fixed bits ∧ signed 8 bits * unit = nanos := by
    intro n hx hn
    cases hx
    exact ⟨_, rfl, by rw [signed_toNat_64, hn]⟩
  have hcount : (Stored.fixed (countCell (nanos.tdiv unit))).value kind = some x →
      ∃ bits, x = .fixed bits ∧ signed 8 bits * unit = nanos := by
    intro hx
    obtain ⟨bits, rfl, hbits⟩ := countCell_read hx
    exact ⟨bits, rfl, by rw [hbits, Int.tdiv_mul_cancel hdvd]⟩
  cases a with
  | epochSeconds n | epochMillis n | epochNanos n =>
    rw [List.mem_singleton.1 ht] at hunit
    cases hunit
    cases ha
    exact hlong hx (by omega)
  | epochMicros n =>
    rcases List.mem_pair.1 ht with ht | ht
    all_goals
      rw [ht] at hunit
      cases hunit
      cases ha
      exact hlong hx rfl
  | localDateTime v =>
    cases v with
    | none => cases ha
    | some v =>
      cases ha
      have ht : kind.colType ∈ timestampLocalTypes := ht
      have hzone : kind.colType ≠ .timestampTz := not_timestampTz ht
      rw [momentUnit, if_neg hzone] at hunit
      have hx : (Stored.fixed (localDateTimeCell kind.colType v.1 v.2)).value kind = some x := hx
      rw [localDateTimeCell, hunit] at hx
      exact hcount (untilCell_eq unit v.1 v.2 ▸ hx)
  | date v =>
    cases v with
    | none => cases ha
    | some d =>
      have hnanos : d.ofMillis.inUtc.epochNanos = nanos := by
        have ha : (if (d.nanosOfMilli : ℕ) = 0 then some (d.getTime.toInt * 1000000) else none) =
          some nanos := ha
        split at ha
        · rw [epochNanos_millisInUtc]
          exact Option.some.inj ha
        · cases ha
      have ht : kind.colType ∈ timestampLocalTypes := ht
      have hzone : kind.colType ≠ .timestampTz := not_timestampTz ht
      rw [momentUnit, if_neg hzone] at hunit
      have hx : (Stored.fixed (dateCell kind.colType d)).value kind = some x := hx
      rw [dateCell_eq hunit, LocalDateTime.count, hnanos] at hx
      exact hcount hx
  | offsetDateTime v =>
    cases v with
    | none => cases ha
    | some v =>
      cases ha
      rw [List.mem_singleton.1 ht] at hunit
      cases hunit
      have hx : (Stored.fixed (untilCell 1000 v.1 v.2)).value kind = some x := hx
      exact hcount (untilCell_eq 1000 v.1 v.2 ▸ hx)
  | _ => cases ha

/-- The count of a date-time is read as the date-time. -/
theorem timestampObject_eq {type : DuckDBColumnType} {u : ChronoUnit} {n : ℤ} {v : LocalDateTime}
    (htype : zonelessUnit type = some u) (hv : v.Valid) (hn : n * u.nanosOf = v.epochNanos) :
    timestampObject env type n = .ok (.timestamp (timestampValueOf env.resolve v)) := by
  have hpos : u.nanosOf ≠ 0 := by cases u <;> decide
  have hcount : v.count u.nanosOf = n := by
    rw [LocalDateTime.count, ← hn, Int.mul_tdiv_cancel _ hpos]
  have hvalid := valid_read env.systemDefault hv u
  rw [hcount] at hvalid
  have hread : localDateTimeFromTimestamp env.systemDefault n u none = v :=
    eq_of_epochNanos_eq hvalid hv ((epochNanos_read ..).trans hn)
  have hrange : ¬ (type = .timestampS ∧ ¬ inLocalDateRange (n / secondsPerDay)) := by
    rintro ⟨rfl, hout⟩
    cases htype
    have hday := hvalid.day
    rw [localDateTimeFromTimestamp_eq] at hday
    refine hout ?_
    simpa [LocalDateTime.ofEpochSecond, wallSecond, ChronoUnit.perSecond] using hday
  rw [timestampObject, if_neg hrange, getTimestamp, getLocalDateTime_of_unit htype, hread]
  rfl

theorem timestamp_readBack {bits : ℕ} {v : LocalDateTime} {unit : ℤ}
    (hunit : unitNanos kind.colType = some unit) (hv : v.Valid)
    (hbits : signed 8 bits * unit = v.epochNanos) :
    scalarObject env kind (.fixed bits) =
      .ok (.timestamp (timestampValueOf env.resolve v)) := by
  have hunit : unitNanos (Column.top 0 (.node kind [])).colType = some unit := hunit
  obtain ⟨u, htype, rfl, ht, -⟩ := kind_of_unitNanos hunit
  have hobject : scalarObject env kind (.fixed bits) =
      timestampObject env kind.columnType (signed 8 bits) := by
    simp only [timestampLocalTypes, List.mem_cons, List.not_mem_nil, or_false] at ht
    rcases ht with ht | ht | ht | ht <;> obtain ⟨_, rfl⟩ := TypeKind.eq_scalar rfl ht <;> rfl
  rw [hobject]
  exact timestampObject_eq htype hv hbits

/-- The count of an instant is read as the instant in the system zone, if that has the same offset
    at the local second. -/
theorem offsetDateTime_readBack {bits : ℕ} {i : Instant} (ht : kind.colType = .timestampTz)
    (hbits : signed 8 bits * 1000 = i.epochSecond * nanosPerSecond + i.nano) (h0 : 0 ≤ i.nano)
    (hlt : i.nano < nanosPerSecond)
    (hoffset : env.systemDefault.offset (env.systemDefault.localSecond i.epochSecond) =
      env.systemDefault.offset i.epochSecond) :
    scalarObject env kind (.fixed bits) = .ok (.offsetDateTime
      ⟨.ofInstant i env.systemDefault, env.systemDefault.offset i.epochSecond⟩) := by
  obtain ⟨_, rfl⟩ := TypeKind.eq_scalar rfl ht
  have hinstant : createInstant (signed 8 bits) .micros = i := by
    unfold nanosPerSecond at *
    rw [createInstant_micros, storedInstant]
    generalize signed 8 bits = n at *
    obtain ⟨s, nano⟩ := i
    rw [Instant.mk.injEq]
    simp only at *
    omega
  have hlocal : ((LocalDateTime.ofInstant i env.systemDefault).toInstant 0).epochSecond =
      env.systemDefault.localSecond i.epochSecond := by
    rw [LocalDateTime.ofInstant, toInstant_ofEpochSecond]
    exact Int.sub_zero _
  show offsetDateTimeObject env (signed 8 bits) = _
  rw [← hoffset, ← hlocal, offsetDateTimeObject, getOffsetDateTime, getLocalDateTimeFromTimestamp,
    localDateTimeFromTimestampWithTimezone, hinstant]
  rfl

/-! ## Reading back -/

/-- **Reading back**: `getObject` returns what the caller was promised. -/
theorem Append.Promises.leafObject {a : Append} {o : JObject} {x : Value}
    (h : a.Promises env kind o) (henv : env.KeepsTexts) (hk : kind.NumbersMembers)
    (ht : kind.colType ∈ a.types) (hx : (a.stored kind.colType).value kind = some x) :
    leafObject env kind x = .ok o := by
  cases h with
  | null hnull =>
    have hstored : a.stored kind.colType = .null := by
      cases a with
      | boxed _ v | character v | string v | chars v | bigInteger v | bigDecimal v | bytes v
      | uuid v | localDate v | localTime v | offsetTime v | localDateTime v | date v
      | offsetDateTime v =>
        cases v with
        | none => rfl
        | some => cases hnull
      | _ => cases hnull
    rw [hstored] at hx
    cases hx
    rfl
  | @boolean b ha =>
    refine prim_readBack ha ht hx fun ht => ?_
    obtain ⟨_, rfl⟩ := TypeKind.eq_scalar rfl (List.mem_singleton.1 ht)
    cases b <;> rfl
  | number hn hpos => exact number_readBack hn hpos ht hx
  | halves ha hc =>
    subst ha
    exact halves_readBack hc hx
  | @float bits ha =>
    refine prim_readBack ha ht hx fun ht => ?_
    obtain ⟨_, rfl⟩ := TypeKind.eq_scalar rfl (List.mem_singleton.1 ht)
    exact congrArg (fun n => Except.ok (JObject.float n)) (Nat.mod_eq_of_lt bits.isLt)
  | @double bits ha =>
    refine prim_readBack ha ht hx fun ht => ?_
    obtain ⟨_, rfl⟩ := TypeKind.eq_scalar rfl (List.mem_singleton.1 ht)
    exact congrArg (fun n => Except.ok (JObject.double n)) (Nat.mod_eq_of_lt bits.isLt)
  | decimal ha => exact decimal_readBack ha hx
  | bigDecimal ha =>
    subst ha
    exact bigDecimal_readBack hx
  | string ha hc =>
    obtain ⟨_, rfl⟩ := TypeKind.eq_varchar hc
    rw [ha.stored_value rfl hx]
    exact congrArg (fun s => Except.ok (JObject.string s)) (henv.decodeCharbuffer _)
  | json ha hc =>
    obtain rfl := TypeKind.eq_json hc
    rw [ha.stored_value rfl hx]
    exact congrArg (fun s => Except.ok (JObject.jsonNode s)) (henv.decodeCharbuffer _)
  | enum ha hc hplain =>
    rw [enum_readBack hk ha hc hx, henv.newStringUTF _ hplain]
  | blob ha hc =>
    subst ha
    cases hx
    obtain ⟨_, rfl⟩ := TypeKind.eq_scalar rfl hc
    rfl
  | uuid ha =>
    obtain ⟨htypes, hstored⟩ := stored_uuid ha kind.colType
    rw [htypes] at ht
    rw [hstored] at hx
    cases hx
    obtain ⟨hs, rfl⟩ := TypeKind.eq_scalar rfl (List.mem_singleton.1 ht)
    exact constObject_bits env hs _
  | localDate ha => exact day_readBack ha ht hx
  | localTime ha hoff h0 hlt hdvd => exact time_readBack ha hoff h0 hlt hdvd ht hx
  | offsetTime ha hoff h0 hlt hdvd hge hle =>
    exact offsetTime_readBack ha hoff h0 hlt hdvd hge hle ht hx
  | timestamp ha hv hunit hdvd =>
    have hne : kind.colType ≠ .timestampTz := fun hc => by
      rw [hc] at hunit
      cases hunit
    have hzone := (if_neg hne : momentUnit kind.colType = unitNanos kind.colType).trans hunit
    obtain ⟨bits, rfl, hbits⟩ := moment_stored ha hzone hdvd ht hx
    exact timestamp_readBack hunit hv hbits
  | offsetDateTime hc ha h0 hlt hdvd hoffset =>
    have hzone : momentUnit kind.colType = some 1000 := if_pos hc
    obtain ⟨bits, rfl, hbits⟩ := moment_stored ha hzone
      (by unfold nanosPerSecond; omega) ht hx
    exact offsetDateTime_readBack hc hbits h0 hlt hoffset

end

end DuckDBJava
