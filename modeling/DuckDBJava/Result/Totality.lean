/-
  Which stored values `getObject` returns, and on which it throws.

  A stored value of any type the driver decodes is a tree.  `objectOutcome` is the exception with
  which `getObject` ends, or the fetch that makes the arrays and structs it returns.  Of all that
  the engine can store, 24:00 and the timestamps beyond `java.time` are refused.
-/
import DuckDBJava.Result.CalendarGetters
import DuckDBJava.Result.Decoding

namespace DuckDBJava

open Exec PathTree

/-- A value of the engine. -/
inductive StoredValue where
  | null
  /-- a value of a type without children -/
  | scalar (kind : TypeKind) (c : Cell)
  /-- of a `LIST` or an `ARRAY` -/
  | list (elems : List StoredValue)
  | map (entries : List (StoredValue × StoredValue))
  | struct (fields : List StoredValue)
  /-- the members that are not selected are NULL -/
  | union (tag : ℕ) (members : List StoredValue)
  /-- a `VARIANT` that holds a null is a NULL -/
  | variant (value : StoredValue)

/-- Induction along the parts of a value. -/
@[elab_as_elim]
theorem StoredValue.ind {P : StoredValue → Prop} (null : P .null)
    (scalar : ∀ kind c, P (.scalar kind c))
    (list : ∀ elems, (∀ x ∈ elems, P x) → P (.list elems))
    (map : ∀ entries, (∀ e ∈ entries, P e.1 ∧ P e.2) → P (.map entries))
    (struct : ∀ fields, (∀ x ∈ fields, P x) → P (.struct fields))
    (union : ∀ tag members, (∀ x ∈ members, P x) → P (.union tag members))
    (variant : ∀ value, P value → P (.variant value)) : ∀ x, P x
  | .null => null
  | .scalar kind c => scalar kind c
  | .list elems => list elems (indList elems)
  | .map entries => map entries (indEntries entries)
  | .struct fields => struct fields (indList fields)
  | .union tag members => union tag members (indList members)
  | .variant value => variant value (ind null scalar list map struct union variant value)
where
  indList : ∀ xs : List StoredValue, ∀ x ∈ xs, P x
    | [], _, h => absurd h List.not_mem_nil
    | y :: ys, x, h => (List.mem_cons.1 h).elim
        (fun e => e ▸ ind null scalar list map struct union variant y)
        (indList ys x)
  indEntries : ∀ es : List (StoredValue × StoredValue), ∀ e ∈ es, P e.1 ∧ P e.2
    | [], _, h => absurd h List.not_mem_nil
    | (k, v) :: es, e, h => (List.mem_cons.1 h).elim
        (fun he => he ▸ ⟨ind null scalar list map struct union variant k,
          ind null scalar list map struct union variant v⟩)
        (indEntries es e)

/-- No subclass of `SQLException`. -/
def JavaException.isUnchecked : JavaException → Bool
  | engine | invalidMemory => false
  | _ => true

mutual

/-- How `getObject` ends on a value.  The elements of arrays and structs are decoded when these
    are made; an array of a vector of more than `2 ^ 31 - 1` rows cannot be. -/
def objectOutcome (env : Platform) : StoredValue → Except JavaException Unit
  | .null => .ok ()
  | .scalar kind c => failure (scalarObject env kind c)
  | .list elems => do
    requireE (elems.length < 2 ^ 31) .negativeArraySize
    elementOutcomes env elems
  | .map entries => do
    requireE (entries.length < 2 ^ 31) .negativeArraySize
    entryOutcomes env entries
  | .struct fields => elementOutcomes env fields
  | .union tag members => do
    elementOutcomes env members
    requireE (tag < members.length) .arrayIndexOutOfBounds
  | .variant value => objectOutcome env value

/-- The elements in order. -/
def elementOutcomes (env : Platform) : List StoredValue → Except JavaException Unit
  | [] => .ok ()
  | x :: xs => do
    objectOutcome env x
    elementOutcomes env xs

/-- The keys and values in order. -/
def entryOutcomes (env : Platform) : List (StoredValue × StoredValue) → Except JavaException Unit
  | [] => .ok ()
  | (key, value) :: entries => do
    objectOutcome env key
    objectOutcome env value
    entryOutcomes env entries

end

/-! ## What the engine stores -/

/-- The bits of a constant-width slot: a time of day is at most 24:00. -/
def StorableBits : TypeKind → ℕ → Prop
  | .scalar .time _, bits => 0 ≤ signed 8 bits ∧ signed 8 bits ≤ 86400000000
  | .scalar .timeTz _, bits => 0 ≤ signed 8 bits / 2 ^ 24 ∧ signed 8 bits / 2 ^ 24 ≤ 86400000000
  | .unlisted .timeNs, bits => 0 ≤ signed 8 bits ∧ signed 8 bits ≤ 86400000000000
  | .decimal internalType _ _, _ => internalType ∈ [CAPIType.smallint, .integer, .bigint, .hugeint]
  | _, _ => True

/-- A slot of a type without children; its cast to VARCHAR, where the driver needs it, succeeds. -/
def StorableCell (env : Platform) (kind : TypeKind) (c : Cell) : Prop :=
  match kind.fetchCase with
  | .constlen => ∃ bits, c = .fixed bits ∧ StorableBits kind bits
  | .enum => ∃ internalType dict bits, kind = .enum internalType dict ∧ c = .fixed bits ∧
      bits < dict.length
  | .blob | .varchar => ∃ bytes, c = .string bytes
  | .default => ∃ text, env.castToString kind c = .ok text
  | _ => False

/-- What the engine can store. -/
inductive Storable (env : Platform) : StoredValue → Prop
  | null : Storable env .null
  | scalar {kind c} : StorableCell env kind c → Storable env (.scalar kind c)
  | list {elems} : (∀ x ∈ elems, Storable env x) → Storable env (.list elems)
  | map {entries} : (∀ e ∈ entries, Storable env e.1) → (∀ e ∈ entries, Storable env e.2) →
      Storable env (.map entries)
  | struct {fields} : (∀ x ∈ fields, Storable env x) → Storable env (.struct fields)
  | union {tag members} : tag < members.length → (∀ x ∈ members, Storable env x) →
      Storable env (.union tag members)
  | variant {value} : Storable env value → Storable env (.variant value)

/-! ## What Java takes -/

/-- 24:00, and the timestamps that are no `LocalDateTime`. -/
def BeyondJava : TypeKind → Cell → Prop
  | .scalar .time _, .fixed bits => signed 8 bits = 86400000000
  | .scalar .timeTz _, .fixed bits => signed 8 bits / 2 ^ 24 = 86400000000
  | .scalar .timestampS _, .fixed bits => ¬ inLocalDateRange (signed 8 bits / secondsPerDay)
  | .unlisted .timeNs, .fixed bits => signed 8 bits = 86400000000000
  | _, _ => False

/-- The values `getObject` returns. -/
inductive Readable : StoredValue → Prop
  | null : Readable .null
  | scalar {kind c} : ¬ BeyondJava kind c → Readable (.scalar kind c)
  | list {elems} : elems.length < 2 ^ 31 → (∀ x ∈ elems, Readable x) → Readable (.list elems)
  | map {entries} : entries.length < 2 ^ 31 → (∀ e ∈ entries, Readable e.1) →
      (∀ e ∈ entries, Readable e.2) → Readable (.map entries)
  | struct {fields} : (∀ x ∈ fields, Readable x) → Readable (.struct fields)
  | union {tag members} : (∀ x ∈ members, Readable x) → Readable (.union tag members)
  | variant {value} : Readable value → Readable (.variant value)

/-! ## Slots without children -/

variable {env : Platform}

theorem localTimeOfNanoOfDay_of_le {nanos : ℤ} (h0 : 0 ≤ nanos) (h : nanos ≤ 86400000000000) :
    failure (localTimeOfNanoOfDay nanos) =
      if nanos = 86400000000000 then .error .dateTime else .ok () := by
  unfold localTimeOfNanoOfDay
  split_ifs <;> first | rfl | omega

theorem failure_bind_ok {α β : Type} (x : Except JavaException α) (f : α → β) :
    failure (do return f (← x)) = failure x := by
  cases x <;> rfl

theorem toOffsetTime_failure (timeBits : ℤ) :
    failure (toOffsetTime timeBits) =
      failure (localTimeOfNanoOfDay (timeBits / 2 ^ 24 * 1000)) := by
  unfold toOffsetTime
  simp only
  generalize localTimeOfNanoOfDay (timeBits / 2 ^ 24 * 1000) = time
  cases time with
  | error e => rfl
  | ok time =>
    simp only [bind, Except.bind]
    split <;> rfl

theorem timestampObject_failure {type : DuckDBColumnType} {unit : ChronoUnit} {value : ℤ}
    (hunit : zonelessUnit type = some unit)
    (hrange : type = .timestampS → inLocalDateRange (value / secondsPerDay)) :
    failure (timestampObject env type value) = .ok () := by
  rw [timestampObject, if_neg fun h => h.2 (hrange h.1), getTimestamp]
  cases type <;> cases hunit <;> rfl

/-- The accessor of a constant-width type fails beyond Java only. -/
theorem bitsObject_failure {kind : TypeKind} {bits : ℕ} (hk : kind.fetchCase = .constlen)
    (h : StorableBits kind bits) :
    (BeyondJava kind (.fixed bits) → failure (bitsObject env kind bits) = .error .dateTime) ∧
      (¬ BeyondJava kind (.fixed bits) → failure (bitsObject env kind bits) = .ok ()) := by
  cases kind with
  | decimal internalType p s =>
    refine ⟨False.elim, fun _ => ?_⟩
    have h : internalType ∈ [CAPIType.smallint, .integer, .bigint, .hugeint] := h
    simp only [List.mem_cons, List.not_mem_nil, or_false] at h
    rcases h with rfl | rfl | rfl | rfl <;> rfl
  | scalar t ht =>
    cases t with
    | time =>
      obtain ⟨h0, h1⟩ := h
      have hnanos : microsToNanos (signed 8 bits) = signed 8 bits * 1000 := by
        unfold microsToNanos
        omega
      have hfail : failure (bitsObject env (.scalar .time ht) bits) =
          failure (localTimeOfNanoOfDay (signed 8 bits * 1000)) := by
        rw [← hnanos]
        exact failure_bind_ok _ _
      rw [hfail, localTimeOfNanoOfDay_of_le (by omega) (by omega)]
      unfold BeyondJava
      constructor
      · intro hmax
        rw [if_pos (by omega)]
      · intro hlt
        rw [if_neg (by omega)]
    | timeTz =>
      obtain ⟨h0, h1⟩ := h
      have hfail : failure (bitsObject env (.scalar .timeTz ht) bits) =
          failure (localTimeOfNanoOfDay (signed 8 bits / 2 ^ 24 * 1000)) := by
        show failure (toOffsetTime (signed 8 bits)) = _
        exact toOffsetTime_failure _
      rw [hfail, localTimeOfNanoOfDay_of_le (by omega) (by omega)]
      unfold BeyondJava
      constructor
      · intro hmax
        rw [if_pos (by omega)]
      · intro hlt
        rw [if_neg (by omega)]
    | timestampS =>
      unfold BeyondJava
      simp only [bitsObject]
      constructor
      · intro hrange
        rw [timestampObject, if_pos ⟨rfl, hrange⟩]
        rfl
      · intro hrange
        exact timestampObject_failure rfl fun _ => not_not.1 hrange
    | timestamp | timestampMs | timestampNs =>
      exact ⟨False.elim, fun _ => timestampObject_failure rfl nofun⟩
    | timestampTz =>
      refine ⟨False.elim, fun _ => ?_⟩
      simp only [bitsObject, offsetDateTimeObject, getOffsetDateTime,
        getLocalDateTimeFromTimestamp, Option.map_some, failure_ok]
    | _ => first | exact ⟨False.elim, fun _ => rfl⟩ | cases hk
  | unlisted t =>
    cases t with
    | timeNs =>
      obtain ⟨h0, h1⟩ := h
      have hfail : failure (bitsObject env (.unlisted .timeNs) bits) =
          failure (localTimeOfNanoOfDay (signed 8 bits)) := failure_bind_ok _ _
      rw [hfail, localTimeOfNanoOfDay_of_le h0 h1]
      unfold BeyondJava
      constructor
      · intro hmax
        rw [if_pos hmax]
      · intro hlt
        rw [if_neg hlt]
    | _ => cases hk
  | _ => cases hk

/-- A slot without children is refused beyond Java only. -/
theorem scalarObject_failure {kind : TypeKind} {c : Cell} (h : StorableCell env kind c) :
    (BeyondJava kind c → failure (scalarObject env kind c) = .error .dateTime) ∧
      (¬ BeyondJava kind c → failure (scalarObject env kind c) = .ok ()) := by
  unfold StorableCell at h
  have hother : kind.fetchCase ≠ .constlen → ¬ BeyondJava kind c := by
    intro hk hbeyond
    unfold BeyondJava at hbeyond
    split at hbeyond <;> first | exact hk rfl | exact hbeyond
  unfold scalarObject
  cases hk : kind.fetchCase with
  | constlen =>
    rw [hk] at h
    obtain ⟨bits, rfl, hbits⟩ := h
    exact bitsObject_failure hk hbits
  | enum =>
    rw [hk] at h
    obtain ⟨internalType, dict, bits, rfl, rfl, hlt⟩ := h
    refine ⟨False.elim, fun _ => ?_⟩
    rw [enumObject, List.getElem?_eq_getElem hlt]
    rfl
  | blob =>
    rw [hk] at h
    obtain ⟨bytes, rfl⟩ := h
    exact ⟨fun hb => absurd hb (hother (by rw [hk]; decide)), fun _ => rfl⟩
  | varchar =>
    rw [hk] at h
    obtain ⟨bytes, rfl⟩ := h
    refine ⟨fun hb => absurd hb (hother (by rw [hk]; decide)), fun _ => ?_⟩
    dsimp only
    split_ifs <;> rfl
  | default =>
    rw [hk] at h
    obtain ⟨text, htext⟩ := h
    refine ⟨fun hb => absurd hb (hother (by rw [hk]; decide)), fun _ => ?_⟩
    rw [htext]
    rfl
  | struct | array | list | variant =>
    rw [hk] at h
    exact h.elim

/-! ## All values -/

theorem requireE_eq_ok {c : Prop} [Decidable c] {e : JavaException} :
    requireE c e = .ok () ↔ c := by
  unfold requireE
  split <;> simp_all

theorem elementOutcomes_eq_ok {xs : List StoredValue} :
    elementOutcomes env xs = .ok () ↔ ∀ x ∈ xs, objectOutcome env x = .ok () := by
  induction xs with
  | nil => simp [elementOutcomes]
  | cons x xs ih => rw [elementOutcomes, bind_unit_eq_ok, ih, List.forall_mem_cons]

theorem entryOutcomes_eq_ok {es : List (StoredValue × StoredValue)} :
    entryOutcomes env es = .ok () ↔
      ∀ e ∈ es, objectOutcome env e.1 = .ok () ∧ objectOutcome env e.2 = .ok () := by
  induction es with
  | nil => simp [entryOutcomes]
  | cons e es ih =>
    obtain ⟨k, v⟩ := e
    rw [entryOutcomes, bind_unit_eq_ok, bind_unit_eq_ok, ih, List.forall_mem_cons, and_assoc]

/-- `getObject` returns exactly the readable values. -/
theorem objectOutcome_eq_ok_iff {x : StoredValue} (h : Storable env x) :
    objectOutcome env x = .ok () ↔ Readable x := by
  induction x using StoredValue.ind with
  | null => exact iff_of_true rfl .null
  | scalar kind c =>
    cases h with
    | scalar hc =>
      obtain ⟨hbeyond, hok⟩ := scalarObject_failure hc
      rw [objectOutcome]
      constructor
      · intro hx
        refine .scalar fun hb => ?_
        rw [hbeyond hb] at hx
        cases hx
      · intro hr
        cases hr with
        | scalar hb => exact hok hb
  | list elems ih =>
    cases h with
    | list hs =>
      rw [objectOutcome, bind_unit_eq_ok, requireE_eq_ok, elementOutcomes_eq_ok]
      constructor
      · rintro ⟨hlen, hall⟩
        exact .list hlen fun x hx => (ih x hx (hs x hx)).1 (hall x hx)
      · intro hr
        cases hr with
        | list hlen hall => exact ⟨hlen, fun x hx => (ih x hx (hs x hx)).2 (hall x hx)⟩
  | map entries ih =>
    cases h with
    | map hk hv =>
      rw [objectOutcome, bind_unit_eq_ok, requireE_eq_ok, entryOutcomes_eq_ok]
      constructor
      · rintro ⟨hlen, hall⟩
        exact .map hlen (fun e he => ((ih e he).1 (hk e he)).1 (hall e he).1)
          fun e he => ((ih e he).2 (hv e he)).1 (hall e he).2
      · intro hr
        cases hr with
        | map hlen hkr hvr =>
          exact ⟨hlen, fun e he => ⟨((ih e he).1 (hk e he)).2 (hkr e he),
            ((ih e he).2 (hv e he)).2 (hvr e he)⟩⟩
  | struct fields ih =>
    cases h with
    | struct hs =>
      rw [objectOutcome, elementOutcomes_eq_ok]
      constructor
      · intro hall
        exact .struct fun x hx => (ih x hx (hs x hx)).1 (hall x hx)
      · intro hr
        cases hr with
        | struct hall => exact fun x hx => (ih x hx (hs x hx)).2 (hall x hx)
  | union tag members ih =>
    cases h with
    | union htag hs =>
      rw [objectOutcome, bind_unit_eq_ok, requireE_eq_ok, and_iff_left htag, elementOutcomes_eq_ok]
      constructor
      · intro hall
        exact .union fun x hx => (ih x hx (hs x hx)).1 (hall x hx)
      · intro hr
        cases hr with
        | union hall => exact fun x hx => (ih x hx (hs x hx)).2 (hall x hx)
  | variant value ih =>
    cases h with
    | variant hs =>
      rw [objectOutcome, ih hs]
      constructor
      · exact .variant
      · intro hr
        cases hr with
        | variant hr => exact hr

theorem bind_unit_eq_error {x y : Except JavaException Unit} {e : JavaException} :
    (x >>= fun _ => y) = .error e → x = .error e ∨ y = .error e := by
  cases x with
  | ok _ => exact .inr
  | error e' => exact .inl

theorem requireE_eq_error {c : Prop} [Decidable c] {e e' : JavaException} :
    requireE c e = .error e' → e = e' := by
  unfold requireE
  split
  · exact nofun
  · exact fun h => Except.error.inj h

theorem elementOutcomes_eq_error {xs : List StoredValue} {e : JavaException}
    (h : elementOutcomes env xs = .error e) : ∃ x ∈ xs, objectOutcome env x = .error e := by
  induction xs with
  | nil => cases h
  | cons x xs ih =>
    rcases bind_unit_eq_error h with hx | hxs
    · exact ⟨x, List.mem_cons_self, hx⟩
    · obtain ⟨y, hy, hey⟩ := ih hxs
      exact ⟨y, List.mem_cons_of_mem x hy, hey⟩

theorem entryOutcomes_eq_error {es : List (StoredValue × StoredValue)} {e : JavaException}
    (h : entryOutcomes env es = .error e) :
    ∃ x ∈ es, objectOutcome env x.1 = .error e ∨ objectOutcome env x.2 = .error e := by
  induction es with
  | nil => cases h
  | cons x es ih =>
    rcases bind_unit_eq_error h with hk | h
    · exact ⟨x, List.mem_cons_self, .inl hk⟩
    rcases bind_unit_eq_error h with hv | hes
    · exact ⟨x, List.mem_cons_self, .inr hv⟩
    · obtain ⟨y, hy, hey⟩ := ih hes
      exact ⟨y, List.mem_cons_of_mem x hy, hey⟩

/-- What `getObject` throws on a stored value is no `SQLException`. -/
theorem objectOutcome_error {x : StoredValue} (h : Storable env x) {e : JavaException}
    (hx : objectOutcome env x = .error e) : e.isUnchecked = true := by
  induction x using StoredValue.ind with
  | null => cases hx
  | scalar kind c =>
    cases h with
    | scalar hc =>
      obtain ⟨hbeyond, hok⟩ := scalarObject_failure hc
      rw [objectOutcome] at hx
      by_cases hb : BeyondJava kind c
      · rw [hbeyond hb] at hx
        cases hx
        rfl
      · rw [hok hb] at hx
        cases hx
  | list elems ih =>
    cases h with
    | list hs =>
      rcases bind_unit_eq_error hx with hlen | hx
      · rw [← requireE_eq_error hlen]
        rfl
      · obtain ⟨y, hy, hey⟩ := elementOutcomes_eq_error hx
        exact ih y hy (hs y hy) hey
  | map entries ih =>
    cases h with
    | map hk hv =>
      rcases bind_unit_eq_error hx with hlen | hx
      · rw [← requireE_eq_error hlen]
        rfl
      · obtain ⟨y, hy, hey | hey⟩ := entryOutcomes_eq_error hx
        · exact (ih y hy).1 (hk y hy) hey
        · exact (ih y hy).2 (hv y hy) hey
  | struct fields ih =>
    cases h with
    | struct hs =>
      obtain ⟨y, hy, hey⟩ := elementOutcomes_eq_error hx
      exact ih y hy (hs y hy) hey
  | union tag members ih =>
    cases h with
    | union htag hs =>
      rcases bind_unit_eq_error hx with hx | htag'
      · obtain ⟨y, hy, hey⟩ := elementOutcomes_eq_error hx
        exact ih y hy (hs y hy) hey
      · rw [← requireE_eq_error htag']
        rfl
  | variant value ih =>
    cases h with
    | variant hs => exact ih hs (by rwa [objectOutcome] at hx)

/-- `getObject` returns a value or throws `SQLException`. -/
def NoUnchecked (env : Platform) (x : StoredValue) : Prop :=
  ∀ e, objectOutcome env x = .error e → e.isUnchecked = false

/-- A TIME. -/
def timeValue (micros : ℕ) : StoredValue := .scalar (.scalar .time (.refl true)) (.fixed micros)

theorem timeValue_storable {micros : ℕ} (h : micros ≤ 86400000000) :
    Storable env (timeValue micros) := by
  have hsigned : signed 8 micros = micros := by
    unfold signed
    exact Int.bmod_eq_of_le (by omega) (by omega)
  refine .scalar ⟨micros, rfl, ?_⟩
  show 0 ≤ signed 8 micros ∧ signed 8 micros ≤ 86400000000
  omega

/-- Slot `p` of a vector holds the value, by the layout.  The values of the `VARIANT`s are those
    that `convert` makes of their slots, at most `depth` deep in one another. -/
inductive Contains (env : Platform) (convert : Cell → Except JavaException (Option FlatVector)) :
    ℕ → LogicalType → FlatVector → ℕ → StoredValue → Prop
  | null {depth t v p} : v.root.valid p = false → Contains env convert depth t v p .null
  | scalar {depth kind v p c} : v.root.valid p = true → v.root.data p = c →
      Contains env convert depth (.node kind []) v p (.scalar kind c)
  | variantNull {depth v p} : v.root.valid p = false →
      Contains env convert depth (.node (.unlisted .variant) []) v p (.variant .null)
  | variant {depth v p w x} : v.root.valid p = true → convert (v.root.data p) = .ok (some w) →
      w.root.type.Wf →
      (∀ path, ChildSlotsDecode (env.withVariants convert depth) w.root.type path 1 w) →
      Contains env convert depth w.root.type w 0 x →
      Contains env convert (depth + 1) (.node (.unlisted .variant) []) v p (.variant x)
  | list {depth t v p} {offset length : ℕ} {xs : ℕ → StoredValue} : v.root.valid p = true →
      v.root.data p = .entry offset length → offset + length ≤ v.root.size →
      (∀ i < length, Contains env convert depth t (v.child 0) (offset + i) (xs i)) →
      Contains env convert depth (.node .list [t]) v p (.list ((List.range length).map xs))
  | array {depth t v p} {limit : ℕ} {xs : ℕ → StoredValue} : v.root.valid p = true →
      (∀ i < limit, Contains env convert depth t (v.child 0) (p * limit + i) (xs i)) →
      Contains env convert depth (.node (.array limit) [t]) v p (.list ((List.range limit).map xs))
  | map {depth names tk tv v p} {offset length : ℕ} {key value : ℕ → StoredValue} :
      v.root.valid p = true → v.root.data p = .entry offset length →
      offset + length ≤ v.root.size →
      (∀ i < length, (v.child 0).root.valid (offset + i) = true) →
      (∀ i < length, Contains env convert depth tk ((v.child 0).child 0) (offset + i) (key i)) →
      (∀ i < length, Contains env convert depth tv ((v.child 0).child 1) (offset + i) (value i)) →
      Contains env convert depth (.node .map [.node (.struct names) [tk, tv]]) v p
        (.map ((List.range length).map fun i => (key i, value i)))
  | struct {depth names children v p} {xs : ℕ → StoredValue} : v.root.valid p = true →
      (∀ i t, children[i]? = some t → Contains env convert depth t (v.child i) p (xs i)) →
      Contains env convert depth (.node (.struct names) children) v p
        (.struct ((List.range children.length).map xs))
  | union {depth names h members v p} {tag : ℕ} {xs : ℕ → StoredValue} : v.root.valid p = true →
      tag < members.length → tag < 256 → (v.child 0).root.valid p = true →
      (v.child 0).root.data p = .fixed tag →
      (∀ i t, members[i]? = some t → Contains env convert depth t (v.child (1 + i)) p (xs i)) →
      Contains env convert depth (.node (.union names) (.node (.scalar .utinyint h) [] :: members))
        v p (.union tag ((List.range members.length).map xs))

theorem exists_objects {P : ℕ → Prop} {Q : ℕ → JObject → Prop} (h : ∀ i, P i → ∃ y, Q i y) :
    ∃ ys : ℕ → JObject, ∀ i, P i → Q i (ys i) := by
  have hex : ∀ i, ∃ y, P i → Q i y := by
    intro i
    by_cases hi : P i
    · obtain ⟨y, hy⟩ := h i hi
      exact ⟨y, fun _ => hy⟩
    · exact ⟨.null, fun h => absurd h hi⟩
  choose ys hys using hex
  exact ⟨ys, hys⟩

theorem forall_mem_map_range {n : ℕ} {xs : ℕ → StoredValue} {P : StoredValue → Prop} :
    (∀ x ∈ (List.range n).map xs, P x) ↔ ∀ i < n, P (xs i) := by
  simp only [List.forall_mem_map, List.mem_range]

theorem tag_denotes {h : CAPIType.utinyint.isScalar = true} {path : List ℕ}
    {v : FlatVector} {p tag : ℕ} (hv : v.root.valid p = true) (hdata : v.root.data p = .fixed tag)
    (htag : tag < 256) :
    Denotes env (.node (.scalar .utinyint h) []) path v p (.number .short tag) := by
  refine .scalar hv ?_
  have hbyte : unsigned 1 tag = tag := by
    unfold unsigned
    omega
  rw [hdata, ← hbyte]
  rfl

/-- A scalar is decoded without its platform's `VARIANT`s. -/
theorem scalarObject_withVariants (convert : Cell → Except JavaException (Option FlatVector))
    (depth : ℕ) (kind : TypeKind) (c : Cell) :
    scalarObject (env.withVariants convert depth) kind c = scalarObject env kind c := by
  cases depth <;> rfl

/-- What `getObject` returns on a value, it returns on a slot that holds the value. -/
theorem Contains.denotes {convert : Cell → Except JavaException (Option FlatVector)} {depth : ℕ}
    {t : LogicalType} {v : FlatVector} {p : ℕ} {x : StoredValue}
    (h : Contains env convert depth t v p x) (hx : objectOutcome env x = .ok ()) (path : List ℕ) :
    ∃ y, Denotes (env.withVariants convert depth) t path v p y := by
  induction h generalizing path with
  | null hv | variantNull hv => exact ⟨_, .null hv⟩
  | scalar hv hc =>
    obtain ⟨y, hy⟩ := failure_eq_ok.1 hx
    rw [← hc, ← scalarObject_withVariants convert] at hy
    exact ⟨y, .scalar hv hy⟩
  | @variant depth v p w x hv hconvert ht hchildren _ ih =>
    rw [objectOutcome] at hx
    obtain ⟨y, hy⟩ := ih hx (p :: path)
    exact ⟨y, .variant_of_convert hv hconvert ht (hchildren _) hy⟩
  | list hv hdata hle _ ih =>
    rw [objectOutcome, bind_unit_eq_ok, elementOutcomes_eq_ok, forall_mem_map_range] at hx
    obtain ⟨ys, hys⟩ := exists_objects fun i hi => ih i hi (hx.2 i hi) (0 :: path)
    exact ⟨_, .list hv hdata hle hys⟩
  | array hv _ ih =>
    rw [objectOutcome, bind_unit_eq_ok, elementOutcomes_eq_ok, forall_mem_map_range] at hx
    obtain ⟨ys, hys⟩ := exists_objects fun i hi => ih i hi (hx.2 i hi) (0 :: path)
    exact ⟨_, .array hv hys⟩
  | @map depth names tk tv v p offset length key value hv hdata hle hvalid _ _ ihk ihv =>
    rw [objectOutcome, bind_unit_eq_ok, entryOutcomes_eq_ok] at hx
    simp only [List.forall_mem_map, List.mem_range] at hx
    obtain ⟨ks, hks⟩ :=
      exists_objects fun i hi => ihk i hi (hx.2 i hi).1 (0 :: 0 :: path)
    obtain ⟨vs, hvs⟩ :=
      exists_objects fun i hi => ihv i hi (hx.2 i hi).2 (1 :: 0 :: path)
    -- an entry is the struct of its key and its value
    have hentry : ∀ i < length, Denotes (env.withVariants convert depth)
        (.node (.struct names) [tk, tv]) (0 :: path) (v.child 0) (offset + i)
        (.struct ⟨0 :: path, offset + i⟩
          (names.map (env.withVariants convert depth).newStringUTF) [ks i, vs i]) := by
      intro i hi
      refine @Denotes.struct (env.withVariants convert depth) names [tk, tv] (0 :: path)
        (v.child 0) (offset + i) (fun j => if j = 0 then ks i else vs i) (hvalid i hi)
        fun j t hj => ?_
      match j with
      | 0 =>
        cases hj
        exact hks i hi
      | 1 =>
        cases hj
        exact hvs i hi
      | _ + 2 => cases hj
    exact ⟨_, .map hv hdata hle hentry⟩
  | @struct depth names children v p xs hv _ ih =>
    rw [objectOutcome, elementOutcomes_eq_ok, forall_mem_map_range] at hx
    obtain ⟨ys, hys⟩ : ∃ ys : ℕ → JObject, ∀ i t, children[i]? = some t →
        Denotes (env.withVariants convert depth) t (i :: path) (v.child i) p (ys i) := by
      obtain ⟨ys, hys⟩ := exists_objects (P := fun i => i < children.length)
        (Q := fun i y => ∀ t, children[i]? = some t →
          Denotes (env.withVariants convert depth) t (i :: path) (v.child i) p y)
        fun i hi => by
          obtain ⟨y, hy⟩ := ih i _ (List.getElem?_eq_getElem hi) (hx i hi) (i :: path)
          refine ⟨y, fun t ht => ?_⟩
          rw [List.getElem?_eq_getElem hi] at ht
          cases ht
          exact hy
      exact ⟨ys, fun i t ht => hys i (List.getElem?_eq_some_iff.1 ht).1 t ht⟩
    exact ⟨_, .struct hv hys⟩
  | union hv hlt hbyte htagv htag _ ih =>
    rw [objectOutcome, bind_unit_eq_ok, elementOutcomes_eq_ok, forall_mem_map_range] at hx
    have hmember := List.getElem?_eq_getElem hlt
    obtain ⟨y, hy⟩ := ih _ _ hmember (hx.1 _ hlt) ((1 + _) :: path)
    exact ⟨y, .union hv (tag_denotes htagv htag hbyte) hmember hy⟩

end DuckDBJava
