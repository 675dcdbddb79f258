/-
  `wasNull` after a getter.

  `DuckDBResultSet` sets the flag when it checks the cell; `DuckDBArrayResultSet` sets it by what
  the getter of the vector has returned.  **`was_null_iff`**: the flag is right after
  every getter of a sequence, but for `getLocalTime`, for the primitive getters on a NULL of an
  array and for `getObject` on a `UNION` of an array that holds a NULL.
-/
import DuckDBJava.Result.ArrayCursor
import DuckDBJava.Result.Cells

namespace DuckDBJava

open Calendar Calls Exec

/-! ## Getters that never return `null` -/

/-- `r` is not `null`, if it is a value. -/
def Yields {ε α : Type} (P : α → Prop) (r : Except ε α) : Prop := ∀ a, r = .ok a → P a

namespace Yields

variable {ε α β : Type} {P : α → Prop} {Q : β → Prop}

theorem ok {a : α} (h : P a) : Yields P (.ok a : Except ε α) := by
  rintro b hb
  cases hb
  exact h

theorem error {e : ε} : Yields P (.error e : Except ε α) := nofun

theorem bind {r : Except ε α} {f : α → Except ε β} (hr : Yields P r)
    (h : ∀ a, P a → Yields Q (f a)) : Yields Q (r >>= f) := by
  intro b hb
  obtain ⟨a, ha, hb⟩ := Except.bind_eq_ok.1 hb
  exact h a (hr a ha) b hb

theorem bind_all {r : Except ε α} {f : α → Except ε β} (h : ∀ a, Yields Q (f a)) :
    Yields Q (r >>= f) := bind (P := fun _ => True) (fun _ _ => trivial) fun a _ => h a

end Yields

theorem Yields.orJava {α : Type} {P : α → Prop} {r : Except JavaException α} (h : Yields P r) :
    Yields P (orJava r) := by
  cases r with
  | error e => exact Yields.error
  | ok a => exact Yields.ok (h a rfl)

section
variable (lib : JavaLibrary) (s : Slot)

theorem timeObject_yields (nanos : ℤ) : Yields (· ≠ .null)
    (do return .localTime (← localTimeOfNanoOfDay nanos) : Except JavaException JObject) :=
  Yields.bind_all fun _ => Yields.ok nofun

theorem toOffsetTime_yields (timeBits : ℤ) :
    Yields (fun o => ∃ nanoOfDay offset, o = .offsetTime nanoOfDay offset)
      (toOffsetTime timeBits) := by
  refine Yields.bind_all fun time => ?_
  split
  · exact Yields.ok ⟨_, _, rfl⟩
  · exact Yields.ok ⟨_, _, rfl⟩

theorem decimalObject_yields (internalType : CAPIType) (scale bits : ℕ) :
    Yields (· ≠ .null) (decimalObject internalType scale bits) := by
  unfold decimalObject
  split <;> first | exact Yields.ok nofun | exact Yields.error

theorem timestampObject_yields (env : Platform) (type : DuckDBColumnType) (value : ℤ) :
    Yields (· ≠ .null) (timestampObject env type value) := by
  unfold timestampObject
  split
  · exact Yields.error
  · split
    · exact Yields.ok nofun
    · exact Yields.error

/-- The accessors of constant-width types do not return `null`. -/
theorem bitsObject_yields (env : Platform) (kind : TypeKind) (bits : ℕ) :
    Yields (· ≠ .null) (bitsObject env kind bits) := by
  cases kind with
  | decimal => exact decimalObject_yields _ _ _
  | scalar t h =>
    cases t with
    | boolean | tinyint | smallint | integer | bigint | utinyint | usmallint | uinteger | ubigint
    | hugeint | uhugeint | float | double | date | uuid => exact Yields.ok nofun
    | time => exact timeObject_yields _
    | timeTz =>
      intro o ho
      obtain ⟨_, _, rfl⟩ := toOffsetTime_yields _ o ho
      nofun
    | timestamp | timestampS | timestampMs | timestampNs => exact timestampObject_yields _ _ _
    | timestampTz =>
      show Yields _ (offsetDateTimeObject _ _)
      unfold offsetDateTimeObject
      split
      · exact Yields.ok nofun
      · exact Yields.error
    | _ => exact Yields.error
  | unlisted t =>
    cases t with
    | timeNs => exact timeObject_yields _
    | _ => exact Yields.error
  | _ => exact Yields.error

/-! ## Getters on a slot that is not NULL -/

/-- A slot that is not NULL, for which `getObject` returns `null`: a `UNION` that holds a NULL.
    (The fetch fills in the lists and structs of all slots that are not NULL, and a `VARIANT` that
    holds a NULL is a NULL.) -/
def Slot.holdsNull (s : Slot) : Prop :=
  match s.type with
  | .list | .array | .struct => s.varlen = .null
  | .union => (structAttributes s.varlen >>= unionMember) = .ok .null
  | .variant => variantObject s.varlen = .ok .null
  | _ => False

theorem isNull_object {o : JObject} : (JavaValue.object o).isNull = true ↔ o = .null := by
  cases o <;> first | exact iff_of_true rfl rfl | exact iff_of_false nofun nofun

theorem orJava_eq_ok {α : Type} {r : Except JavaException α} {a : α} :
    orJava r = .ok a ↔ r = .ok a := by
  cases r with
  | error e => exact iff_of_false nofun nofun
  | ok b => exact ⟨fun h => by cases h; rfl, fun h => by cases h; rfl⟩

/-- The result is not `null`. -/
abbrev YieldsNonNull (r : Except GetterException JavaValue) : Prop := Yields (·.isNull = false) r

theorem yieldsNonNull_object {r : Except GetterException JObject} (h : Yields (· ≠ .null) r) :
    YieldsNonNull (do return .object (← r)) :=
  h.bind fun _ ho => Yields.ok (Bool.eq_false_iff.2 fun hnull => ho (isNull_object.1 hnull))

theorem yieldsNonNull_parse {r : Except GetterException NonNull} :
    YieldsNonNull (do return (← r).1) :=
  Yields.bind_all fun v => Yields.ok v.2

namespace Slot

/-- A constant-width slot holds a value. -/
theorem not_holdsNull_of_constlenKind {s : Slot} {kind : TypeKind}
    (h : s.type.constlenKind s.internalType s.scale = some kind) : ¬ s.holdsNull := by
  unfold holdsNull
  cases htype : s.type <;> rw [htype] at h <;> first | exact id | cases h

theorem not_of_yieldsNonNull {r : Except GetterException JavaValue} {v : JavaValue} {P : Prop}
    (hr : YieldsNonNull r) (hP : ¬ P) (h : r = .ok v) : v.isNull = true ↔ P :=
  iff_of_false (by rw [hr v h]; decide) hP

theorem blobObject_yields (o : JObject) : Yields (· ≠ .null) (blobObject o) := by
  cases o <;> first | exact Yields.error | exact Yields.ok nofun

/-- `getObject` returns `null` for the slots that hold a NULL. -/
theorem getObject_isNull {v : JavaValue} (h : s.getObject lib = .ok v) :
    v.isNull = true ↔ s.holdsNull := by
  cases hkind : s.type.constlenKind s.internalType s.scale with
  | some kind =>
    refine not_of_yieldsNonNull ?_ (not_holdsNull_of_constlenKind hkind) h
    rw [getObject, hkind]
    exact yieldsNonNull_object (bitsObject_yields _ _ _).orJava
  | none =>
    rw [getObject, hkind] at h
    unfold holdsNull
    cases htype : s.type with
    | list | array | struct =>
      rw [htype] at h
      cases h
      exact isNull_object
    | union | variant =>
      rw [htype] at h
      obtain ⟨o, ho, hv⟩ := Except.bind_eq_ok.1 h
      cases hv
      rw [orJava_eq_ok.1 ho, isNull_object, Except.ok.injEq]
    | json =>
      rw [htype] at h
      exact not_of_yieldsNonNull (Yields.bind_all fun _ => Yields.ok rfl) id h
    | blob | geometry =>
      rw [htype] at h
      exact not_of_yieldsNonNull (yieldsNonNull_object (blobObject_yields _).orJava) id h
    | map =>
      rw [htype] at h
      exact not_of_yieldsNonNull (yieldsNonNull_object
        (Yields.bind_all fun _ => Yields.bind_all fun _ => Yields.ok nofun).orJava) id h
    | varchar | enum | bit | interval | unknown =>
      rw [htype] at h
      exact not_of_yieldsNonNull (Yields.bind_all fun _ => Yields.ok rfl) id h
    | _ =>
      rw [htype] at hkind
      cases hkind

/-! ### Getters other than `getObject` -/

theorem convert_nonNull (g : VectorGetter) : YieldsNonNull (s.convert lib g) := by
  refine Yields.bind_all fun v => ?_
  split
  · exact Yields.error
  · split
    · exact Yields.ok (lib.number _ _).2
    · exact yieldsNonNull_parse
  · exact yieldsNonNull_parse

theorem reparse_nonNull (g : VectorGetter) : YieldsNonNull (s.reparse lib g) := by
  refine Yields.bind_all fun v => ?_
  split
  · exact Yields.error
  · exact yieldsNonNull_parse

theorem parseLazy_nonNull (g : VectorGetter) : YieldsNonNull (s.parseLazy lib g) :=
  Yields.bind_all fun _ => yieldsNonNull_parse

theorem numeric_nonNull (g : VectorGetter) (own : List DuckDBColumnType) {decode : ℕ → JObject}
    (h : ∀ bits, decode bits ≠ .null) : YieldsNonNull (s.numeric lib g own decode) := by
  unfold numeric
  split
  · exact Yields.ok (Bool.eq_false_iff.2 fun hnull => h _ (isNull_object.1 hnull))
  · exact convert_nonNull lib s g

theorem only_nonNull (own : List DuckDBColumnType) {value : Except JavaException JObject}
    (h : Yields (· ≠ .null) value) : YieldsNonNull (s.only own value) := by
  unfold only
  split
  · exact yieldsNonNull_object h.orJava
  · exact Yields.error

theorem asArray_yields : Yields (· ≠ .null) s.asArray := by
  intro o ho
  obtain ⟨xs, hxs, ho⟩ := Except.bind_eq_ok.1 ho
  cases ho
  intro hnull
  rw [hnull] at hxs
  cases hxs

theorem asStruct_yields : Yields (· ≠ .null) s.asStruct := by
  intro o ho
  obtain ⟨xs, hxs, ho⟩ := Except.bind_eq_ok.1 ho
  cases ho
  intro hnull
  rw [hnull] at hxs
  cases hxs

theorem asBytes_yields : Yields (· ≠ .null) s.asBytes := by
  intro o ho
  obtain ⟨b, hb, ho⟩ := Except.bind_eq_ok.1 ho
  cases ho
  intro hnull
  rw [hnull] at hb
  cases hb

theorem getLocalTime_nonNull : YieldsNonNull (s.getLocalTime lib) := by
  unfold getLocalTime
  split
  · exact Yields.bind_all fun _ => Yields.ok rfl
  · exact Yields.bind_all fun _ => Yields.ok rfl
  · split
    · exact Yields.bind_all fun _ => Yields.ok rfl
    · exact parseLazy_nonNull lib s _

theorem getOffsetTime_nonNull : YieldsNonNull (s.getOffsetTime lib) := by
  unfold getOffsetTime
  split
  · refine (getLocalTime_nonNull lib s).bind fun v hv => ?_
    split
    · exact Yields.ok rfl
    · exact Yields.ok hv
  · refine (getLocalTime_nonNull lib s).bind fun v hv => ?_
    split
    · exact Yields.ok rfl
    · exact Yields.ok hv
  · refine yieldsNonNull_object (Yields.orJava ?_)
    intro o ho
    obtain ⟨_, _, rfl⟩ := toOffsetTime_yields _ o ho
    nofun
  · split
    · exact Yields.bind_all fun _ => Yields.ok rfl
    · exact parseLazy_nonNull lib s _

theorem getTime_nonNull (cal : Option Zone) : YieldsNonNull (s.getTime lib cal) := by
  unfold getTime
  cases s.type with
  | time | timeNs =>
    refine (getLocalTime_nonNull lib s).bind fun v hv => ?_
    split
    · exact Yields.ok rfl
    · exact Yields.ok hv
  | timeWithTimeZone =>
    refine (toOffsetTime_yields _).orJava.bind ?_
    rintro o ⟨nanoOfDay, offset, rfl⟩
    exact Yields.ok rfl
  | timestamp | timestampMs | timestampNs | timestampS | timestampWithTimeZone =>
    exact Yields.bind_all fun _ => Yields.ok rfl
  | _ => exact parseLazy_nonNull lib s _

theorem getDate_nonNull : YieldsNonNull (s.getDate lib) := by
  unfold getDate
  split
  · exact Yields.ok rfl
  · split
    · exact Yields.bind_all fun _ => Yields.ok rfl
    · exact parseLazy_nonNull lib s _

theorem getLocalDateTime_nonNull : YieldsNonNull (s.getLocalDateTime lib) := by
  unfold getLocalDateTime
  split
  · exact Yields.ok rfl
  · split
    · exact Yields.bind_all fun _ => Yields.ok rfl
    · exact parseLazy_nonNull lib s _

theorem getOffsetDateTime_nonNull : YieldsNonNull (s.getOffsetDateTime lib) := by
  unfold getOffsetDateTime
  split
  · exact Yields.bind_all fun _ => Yields.ok rfl
  · exact parseLazy_nonNull lib s _

/-- A getter other than `getObject` returns a value for a slot that is not NULL. -/
theorem get_nonNull {g : VectorGetter} (hg : g ≠ .object) : YieldsNonNull (s.get lib g) := by
  cases g with
  | object => exact absurd rfl hg
  | lazyString => exact Yields.bind_all fun _ => Yields.ok rfl
  | struct => exact yieldsNonNull_object (asStruct_yields s).orJava
  | array => exact only_nonNull s _ (asArray_yields s)
  | blob => exact only_nonNull s _ (blobObject_yields _)
  | bytes => exact only_nonNull s _ (asBytes_yields s)
  | boolean | byte | short | int | long | float | double =>
    rw [get]
    exact numeric_nonNull lib s _ _ fun _ h => by cases h
  | uint8 | uint16 | uint32 | uint64 =>
    rw [get]
    exact only_nonNull s _ (Yields.ok fun h => by cases h)
  | hugeint | uhugeint =>
    rw [get]
    split
    · exact Yields.ok rfl
    · exact reparse_nonNull lib s _
  | bigDecimal =>
    rw [get]
    split
    · exact yieldsNonNull_object (decimalObject_yields _ _ _).orJava
    · exact reparse_nonNull lib s _
  | uuid =>
    rw [get]
    split
    · exact yieldsNonNull_object (bitsObject_yields _ _ _).orJava
    · exact reparse_nonNull lib s _
  | timestamp cal => exact Yields.bind_all fun _ => Yields.ok rfl
  | date => exact getDate_nonNull lib s
  | localTime => exact getLocalTime_nonNull lib s
  | offsetTime => exact getOffsetTime_nonNull lib s
  | localDateTime => exact getLocalDateTime_nonNull lib s
  | offsetDateTime => exact getOffsetDateTime_nonNull lib s
  | time cal => exact getTime_nonNull lib s cal

end Slot

end

/-! ## Getters of `DuckDBResultSet` -/

namespace DuckDBResultSet

variable (env : ResultSetEnv)

/-- The result set is on row `row` of its chunk. -/
structure OnRow (rs : DuckDBResultSet) (row : ℕ) : Prop where
  isOpen : rs.closed = false
  columns : rs.currentChunk.length = env.columnCount
  chunkIdx : rs.chunkIdx = row + 1
  row_lt : ∀ v ∈ rs.currentChunk, row < v.length

/-- The cell of a column is NULL. -/
def cellIsNull (rs : DuckDBResultSet) (columnIndex : ℤ) : Bool :=
  match rs.column columnIndex with
  | .ok v => v.nullmask (rs.chunkIdx - 1)
  | .error _ => false

/-- The state after a getter. -/
def getterStep (rs : DuckDBResultSet) (c : BitVec 32 × Getter) : DuckDBResultSet :=
  (rs.get env c.1.toInt c.2).2

/-- The getter returns a value. -/
def Succeeds (rs : DuckDBResultSet) (c : BitVec 32 × Getter) : Prop :=
  ∃ value, (rs.get env c.1.toInt c.2).1 = .ok value

/-- After the getter, `wasNull` says whether the cell is NULL. -/
def FlagRight (rs : DuckDBResultSet) (c : BitVec 32 × Getter) : Prop :=
  (rs.getterStep env c).getWasNull = .ok (rs.cellIsNull c.1.toInt)

/-- Before `getLocalTime`, the flag is that of its cell already. -/
def FlagKept (rs : DuckDBResultSet) (c : BitVec 32 × Getter) : Prop :=
  c.2 = .vector .localTime → rs.wasNull = rs.cellIsNull c.1.toInt

variable {env} {rs : DuckDBResultSet} {row : ℕ} {c : BitVec 32 × Getter}

theorem OnRow.withNull (h : OnRow env rs row) (b : Bool) : OnRow env (rs.withNull b) row :=
  ⟨h.isOpen, h.columns, h.chunkIdx, h.row_lt⟩

theorem column_eq_ok {columnIndex : ℤ} {v : ColumnVector} (h : rs.column columnIndex = .ok v) :
    1 ≤ columnIndex ∧ rs.currentChunk[(columnIndex - 1).toNat]? = some v := by
  rw [column] at h
  split at h
  · next hfirst =>
    split at h <;> cases h
    exact ⟨hfirst, ‹_›⟩
  · cases h

theorem column_eq_error {columnIndex : ℤ} {e : GetterException}
    (h : rs.column columnIndex = .error e) : e = .java .arrayIndexOutOfBounds := by
  rw [column] at h
  split at h
  · split at h <;> cases h
    rfl
  · cases h
    rfl

/-- Without a column no getter succeeds. -/
theorem not_succeeds {e : GetterException} (h : rs.column c.1.toInt = .error e) :
    ¬ Succeeds env rs c := by
  rintro ⟨value, hvalue⟩
  by_cases hg : c.2 = .vector .localTime
  · rw [hg] at hvalue
    change rs.read env c.1.toInt .localTime = .ok value at hvalue
    rw [read, h] at hvalue
    cases hvalue
  · have hoff : OffCells env rs c.1.toInt := .column (column_eq_error h ▸ h)
    obtain ⟨e, hget, -⟩ := hoff.get hg
    rw [hget] at hvalue
    cases hvalue

/-- A getter that succeeds is on a cell. -/
theorem OnRow.onCell (h : OnRow env rs row) (hc : Succeeds env rs c) :
    ∃ v, OnCell env rs c.1.toInt v row := by
  cases hcol : rs.column c.1.toInt with
  | error e => exact absurd hc (not_succeeds hcol)
  | ok v =>
    obtain ⟨hfirst, hv⟩ := column_eq_ok hcol
    have hlast := (List.getElem?_eq_some_iff.1 hv).1
    rw [h.columns] at hlast
    exact ⟨v, h.isOpen, hfirst, by omega, hcol, h.chunkIdx, h.row_lt v (List.mem_of_getElem? hv)⟩

/-- One getter. -/
theorem OnRow.getterStep (h : OnRow env rs row) (hc : Succeeds env rs c) :
    OnRow env (rs.getterStep env c) row ∧ (FlagRight env rs c ↔ FlagKept rs c) := by
  obtain ⟨v, hon⟩ := h.onCell hc
  obtain ⟨i, g⟩ := c
  obtain ⟨value, hvalue⟩ := hc
  have hnull : rs.cellIsNull i.toInt = v.nullmask row := by
    rw [cellIsNull, hon.column, hon.chunkIdx]
    rfl
  simp only [FlagRight, FlagKept, DuckDBResultSet.getterStep, hnull, hon.get] at hvalue ⊢
  by_cases hg : g = .vector .localTime
  · subst hg
    refine ⟨h, ?_⟩
    show rs.getWasNull = _ ↔ _
    rw [getWasNull, if_neg (by rw [h.isOpen]; decide), Except.ok.injEq]
    exact ⟨fun hflag _ => hflag, fun hflag => hflag rfl⟩
  · cases hchecks : g.checks with
    | false =>
      have hnone : g = .objectAs none := by
        cases g with
        | vector g => cases g <;> first | exact absurd rfl hg | cases hchecks
        | objectAs type => cases type <;> first | rfl | cases hchecks
        | _ => cases hchecks
      rw [hnone] at hvalue
      cases hvalue
    | true =>
      have hopen : (rs.withNull (v.nullmask row)).closed = false := h.isOpen
      rw [if_pos rfl]
      refine ⟨h.withNull _, iff_of_true ?_ fun h => absurd h hg⟩
      rw [getWasNull, if_neg (by rw [hopen]; decide)]
      rfl

end DuckDBResultSet

/-! ## Getters of `DuckDBArrayResultSet` -/

/-- The getters of Java's primitive types. -/
def ArrayGetter.isPrimitive : ArrayGetter → Bool
  | boolean | byte | short | int | long | float | double => true
  | _ => false

namespace DuckDBArrayResultSet

variable {lib : JavaLibrary} (a : DuckDBArray lib) (rs : DuckDBArrayResultSet)

/-- The row of the vector that column 2 reads. -/
def element : ℕ := a.offset + rs.currentValueIndex.toNat

/-- The cell of a column is NULL; those of column 1 are not. -/
def cellIsNull (columnIndex : ℤ) : Bool := columnIndex = 2 && a.vector.nullmask (element a rs)

/-- The state after a getter. -/
def getterStep (c : BitVec 32 × ArrayGetter) : DuckDBArrayResultSet :=
  (rs.get a c.2 c.1.toInt).2

/-- The getter returns a value. -/
def Succeeds (c : BitVec 32 × ArrayGetter) : Prop :=
  ∃ value, (rs.get a c.2 c.1.toInt).1 = .ok value

/-- After the getter, `wasNull` says whether the cell is NULL. -/
def FlagRight (c : BitVec 32 × ArrayGetter) : Prop :=
  (rs.getterStep a c).wasNull = rs.cellIsNull a c.1.toInt

/-- Of column 2, no primitive getter reads a NULL and no `getObject` a value that holds a NULL. -/
def ReadsPlain (c : BitVec 32 × ArrayGetter) : Prop :=
  c.1.toInt = 2 →
    if a.vector.nullmask (element a rs) then c.2.isPrimitive = false
    else ¬ (c.2 = .object ∧ (a.vector.slot (element a rs)).holdsNull)

variable {a rs} {c : BitVec 32 × ArrayGetter}

theorem isPrimitive_iff (g : ArrayGetter) :
    g.isPrimitive = false ↔ g.vectorGetter.nullValue.isNull = true := by
  cases g <;> decide

theorem vectorGetter_eq_object {g : ArrayGetter} : g.vectorGetter = .object ↔ g = .object := by
  cases g <;> first | exact iff_of_true rfl rfl | exact iff_of_false nofun nofun

/-- What a getter returns of column 2, `null` or not. -/
theorem isNull_get_iff {g : ArrayGetter} {row : ℕ} {v : ColumnVector} {value : JavaValue}
    (hrow : row < v.length) (h : v.get lib g.vectorGetter row = .ok value) :
    value.isNull = v.nullmask row ↔
      if v.nullmask row then g.isPrimitive = false
      else ¬ (g = .object ∧ (v.slot row).holdsNull) := by
  cases hnull : v.nullmask row with
  | true =>
    rw [ColumnVector.get_of_null lib _ hrow hnull] at h
    cases h
    rw [if_pos rfl, isPrimitive_iff]
  | false =>
    rw [ColumnVector.get_of_not_null lib _ hrow hnull] at h
    rw [if_neg (by decide), ← vectorGetter_eq_object]
    by_cases hg : g.vectorGetter = .object
    · rw [hg] at h
      rw [and_iff_right hg, ← Slot.getObject_isNull lib _ h, Bool.not_eq_true]
    · exact iff_of_true (Slot.get_nonNull lib _ hg value h) fun hobject => hg hobject.1

theorem wasNull_get {g : ArrayGetter} {value : JavaValue} (h : (rs.get a g 2).1 = .ok value) :
    (rs.get a g 2).2.wasNull = value.isNull := by
  rw [get_of_not_index fun h => absurd h (by decide), getValue, if_neg (by decide),
    if_neg (by decide)] at h ⊢
  split at h <;> cases h
  rfl

theorem element_eq (h : rs.OnRow a.length) :
    (a.offset : ℤ) + rs.currentValueIndex = (element a rs : ℕ) := by
  obtain ⟨hlo, hhi⟩ := h
  rw [element]
  omega

/-- One getter. -/
theorem OnRow.getterStep (h : rs.OnRow a.length) (hc : Succeeds a rs c) :
    (rs.getterStep a c).OnRow a.length ∧ (FlagRight a rs c ↔ ReadsPlain a rs c) := by
  obtain ⟨i, g⟩ := c
  obtain ⟨value, hvalue⟩ := hc
  dsimp only at hvalue
  have hrow : (rs.getterStep a (i, g)).OnRow a.length := by
    unfold DuckDBArrayResultSet.getterStep OnRow
    rw [get_currentValueIndex]
    exact h
  refine ⟨hrow, ?_⟩
  simp only [FlagRight, ReadsPlain, DuckDBArrayResultSet.getterStep]
  by_cases h2 : i.toInt = 2
  · rw [h2] at hvalue ⊢
    have hlt : element a rs < a.vector.length := by
      obtain ⟨hlo, hhi⟩ := h
      have hwithin := a.within
      rw [element]
      omega
    have hread := (get_value g).symm.trans hvalue
    rw [(OnRow.toInt_eq h).1, element_eq h] at hread
    have hcell : cellIsNull a rs 2 = a.vector.nullmask (element a rs) := rfl
    rw [wasNull_get hvalue, hcell, forall_prop_of_true rfl, isNull_get_iff hlt hread]
  · have hindex : i.toInt = 1 ∧ g.indexValue lib (toInt (rs.currentValueIndex + 1)) ≠ none := by
      by_contra hne
      obtain ⟨e, he, -⟩ := get_rejected (a := a) h2 fun h1 => not_not.1 fun h => hne ⟨h1, h⟩
      rw [he] at hvalue
      cases hvalue
    obtain ⟨h1, hsome⟩ := hindex
    obtain ⟨v, hv⟩ := Option.ne_none_iff_exists'.1 hsome
    rw [h1, get, getBy, if_pos rfl, hv, cellIsNull]
    exact iff_of_true rfl fun h => absurd h (by decide)

end DuckDBArrayResultSet

/-! ## Runs of getters -/

/-- Getters, one after the other, on a row of a result set or on one of the result set of an
    array. -/
inductive GetterRun where
  | resultSet (env : ResultSetEnv) (rs : DuckDBResultSet) (getters : List (BitVec 32 × Getter))
  | arrayResultSet (lib : JavaLibrary) (a : DuckDBArray lib) (rs : DuckDBArrayResultSet)
    (getters : List (BitVec 32 × ArrayGetter))

namespace GetterRun

/-- The run begins on a row. -/
def OnRow : GetterRun → Prop
  | resultSet env rs _ => ∃ row, rs.OnRow env row
  | arrayResultSet _ a rs _ => rs.OnRow a.length

/-- All getters return a value. -/
def Succeeds : GetterRun → Prop
  | resultSet env rs getters =>
    Every (DuckDBResultSet.getterStep env) (DuckDBResultSet.Succeeds env) rs getters
  | arrayResultSet _ a rs getters =>
    Every (DuckDBArrayResultSet.getterStep a) (DuckDBArrayResultSet.Succeeds a) rs getters

/-- After every getter, `wasNull` says whether the cell is NULL. -/
def FlagRight : GetterRun → Prop
  | resultSet env rs getters =>
    Every (DuckDBResultSet.getterStep env) (DuckDBResultSet.FlagRight env) rs getters
  | arrayResultSet _ a rs getters =>
    Every (DuckDBArrayResultSet.getterStep a) (DuckDBArrayResultSet.FlagRight a) rs getters

/-- No getter that leaves the flag wrong: `getLocalTime` on a cell of which the flag does not tell
    already; a primitive getter on a NULL of an array; `getObject` on a value of an array that holds
    a NULL. -/
def ReadsPlain : GetterRun → Prop
  | resultSet env rs getters =>
    Every (DuckDBResultSet.getterStep env) DuckDBResultSet.FlagKept rs getters
  | arrayResultSet _ a rs getters =>
    Every (DuckDBArrayResultSet.getterStep a) (DuckDBArrayResultSet.ReadsPlain a) rs getters

end GetterRun

/-- **The flag of `wasNull`.**  After every getter of a run whose getters all return a value,
    `wasNull` says whether the cell was NULL, if and only if before every `getLocalTime` of a result
    set the flag is that of its cell already, and on the result set of an array no primitive getter
    reads a NULL and no `getObject` a value that holds a NULL. -/
theorem was_null_iff (run : GetterRun) (hrow : run.OnRow) (hsucc : run.Succeeds) :
    run.FlagRight ↔ run.ReadsPlain := by
  cases run with
  | resultSet env rs getters =>
    obtain ⟨row, hrow⟩ := hrow
    exact every_iff_of_every (I := fun rs => rs.OnRow env row)
      (fun _ _ h hc => (DuckDBResultSet.OnRow.getterStep h hc).1)
      (fun _ _ h hc => (DuckDBResultSet.OnRow.getterStep h hc).2) hrow hsucc
  | arrayResultSet lib a rs getters =>
    exact every_iff_of_every (I := fun rs => rs.OnRow a.length)
      (fun _ _ h hc => (DuckDBArrayResultSet.OnRow.getterStep h hc).1)
      (fun _ _ h hc => (DuckDBArrayResultSet.OnRow.getterStep h hc).2) hrow hsucc

/-! ## An array with a NULL -/

/-- An INTEGER vector with a NULL. -/
def nullVector : ColumnVector where
  type := .integer
  internalType := .invalid
  scale := 0
  length := 1
  nullmask := fun _ => true
  bits := fun _ => 0
  varlen := fun _ => .null

theorem get_nullVector (lib : JavaLibrary) (g : VectorGetter) :
    nullVector.get lib g (0 : ℕ) = .ok g.nullValue :=
  ColumnVector.get_of_null lib g (by decide) rfl

/-- The INTEGER list `[NULL]`. -/
def nullElement (lib : JavaLibrary) : DuckDBArray lib where
  vector := nullVector
  offset := 0
  length := 1
  array := [.object .null]
  within := le_rfl
  vector_lt := by decide
  array_eq := congrArg (fun r => [r]) (get_nullVector lib .object)

theorem get_nullElement (lib : JavaLibrary) (g : ArrayGetter) :
    (DuckDBArrayResultSet.get (nullElement lib) ⟨0, false⟩ g 2).1 =
      .ok g.vectorGetter.nullValue := by
  have hslot : toInt ((0 : ℕ) + 0) = (0 : ℕ) := by decide
  rw [DuckDBArrayResultSet.get_value]
  show nullVector.get lib g.vectorGetter (toInt ((0 : ℕ) + 0)) = _
  rw [hslot]
  exact get_nullVector lib g.vectorGetter

theorem was_null_get_object :
    (GetterRun.arrayResultSet .plain (nullElement .plain) ⟨0, false⟩ [(2, .object)]).FlagRight :=
  (was_null_iff (.arrayResultSet .plain (nullElement .plain) ⟨0, false⟩ [(2, .object)])
    ⟨le_rfl, by decide⟩ ⟨⟨_, get_nullElement .plain .object⟩, trivial⟩).2
    ⟨fun _ => rfl, trivial⟩

/-- After `getInt(2)` on a NULL, `wasNull` is `false`. -/
theorem was_null_get_int : ¬ ∀ run : GetterRun, run.OnRow → run.Succeeds → run.FlagRight := by
  intro h
  have hflag := (h (.arrayResultSet .plain (nullElement .plain) ⟨0, false⟩ [(2, .int)])
    ⟨le_rfl, by decide⟩ ⟨⟨_, get_nullElement .plain .int⟩, trivial⟩).1
  have hget := DuckDBArrayResultSet.wasNull_get (get_nullElement .plain .int)
  exact absurd (hget.symm.trans hflag) (by decide)

end DuckDBJava
