/-
  The cell that a getter of `DuckDBResultSet` reads.

  On a cell a getter returns what it makes of the slot (`OnCell.get`); where there is none, all of
  them but `getLocalTime` throw an `SQLException` (`OffCells.get`).
-/
import DuckDBJava.Result.ResultSet

namespace DuckDBJava

/-! ## The value of a cell -/

section
variable (env : ResultSetEnv) (columnIndex : ℤ) (v : ColumnVector) (row : ℕ)

/-- The string of an object that is not `null`. -/
def stringOfValue (value : JavaValue) : Except GetterException JavaValue :=
  match env.columnTypes[(columnIndex - 1).toNat]? with
  | none => .error (.java .arrayIndexOutOfBounds)
  | some sqlType =>
    if sqlType.castsToString then do return .object (.string (← env.castToStrings v row))
    else .ok (.object (.string (env.toString value)))

/-- What `getString` makes of a cell. -/
def stringValue : Except GetterException JavaValue :=
  if v.nullmask row then .ok (.object .null)
  else match v.get env.toJavaLibrary .object row with
    | .error e => .error e
    | .ok value => if value.isNull then .ok (.object .null)
        else stringOfValue env columnIndex v row value

/-- What `getObject(columnIndex, type)` makes of a cell. -/
def valueAs (type : JavaClass) : Except GetterException JavaValue :=
  if v.nullmask row then .ok (.object .null)
  else match env.columnTypes[(columnIndex - 1).toNat]? with
    | none => .error (.java .arrayIndexOutOfBounds)
    | some sqlType =>
      if type = .string ∧ (sqlType = .varchar ∨ sqlType = .enum) then
        stringValue env columnIndex v row >>= env.cast type
      else match type.getter sqlType with
        | some g => v.get env.toJavaLibrary g row >>= env.cast type
        | none => .error .cannotConvert

/-- What a getter makes of a cell. -/
def Getter.value : Getter → Except GetterException JavaValue
  | .vector g => v.get env.toJavaLibrary g row
  | .string => stringValue env columnIndex v row
  | .json => (v.get env.toJavaLibrary .lazyString row).map DuckDBResultSet.toJsonNode
  | .objectAs none => .error .typeIsNull
  | .objectAs (some type) => valueAs env columnIndex v row type

/-- Whether a getter goes through `checkAndNull`. -/
def Getter.checks : Getter → Bool
  | .vector .localTime | .objectAs none => false
  | _ => true

end

namespace ColumnVector

variable {v : ColumnVector} {row : ℕ} (lib : JavaLibrary) (g : VectorGetter)

/-- A NULL is read as the default of the getter. -/
theorem get_of_null (hrow : row < v.length) (hnull : v.nullmask row = true) :
    v.get lib g row = .ok g.nullValue := by
  rw [get, checkAndNull, if_pos ⟨by omega, by omega⟩, Int.toNat_natCast, hnull]
  rfl

theorem get_of_not_null (hrow : row < v.length) (hnull : v.nullmask row = false) :
    v.get lib g row = (v.slot row).get lib g := by
  rw [get, checkAndNull, if_pos ⟨by omega, by omega⟩, Int.toNat_natCast, hnull]
  rfl

end ColumnVector

namespace DuckDBResultSet

/-! ## On a row and off the rows -/

/-- The flag that the check of a cell leaves behind. -/
def withNull (rs : DuckDBResultSet) (wasNull : Bool) : DuckDBResultSet :=
  { rs with wasNull := wasNull }

/-- The result set is on row `row` of its chunk, and column `columnIndex` of it is `v`. -/
structure OnCell (env : ResultSetEnv) (rs : DuckDBResultSet) (columnIndex : ℤ) (v : ColumnVector)
    (row : ℕ) : Prop where
  isOpen : rs.closed = false
  first : 1 ≤ columnIndex
  last : columnIndex ≤ env.columnCount
  column : rs.column columnIndex = .ok v
  chunkIdx : rs.chunkIdx = row + 1
  row_lt : row < v.length

/-- A getter finds no cell there. -/
inductive OffCells (env : ResultSetEnv) (rs : DuckDBResultSet) (columnIndex : ℤ) : Prop
  | closed : rs.closed = true → OffCells env rs columnIndex
  | index : columnIndex < 1 ∨ env.columnCount < columnIndex → OffCells env rs columnIndex
  | column : rs.column columnIndex = .error (.java .arrayIndexOutOfBounds) →
      OffCells env rs columnIndex

section
variable {env : ResultSetEnv} {rs : DuckDBResultSet} {columnIndex : ℤ} {v : ColumnVector} {row : ℕ}

theorem OnCell.withNull (h : OnCell env rs columnIndex v row) (b : Bool) :
    OnCell env (rs.withNull b) columnIndex v row :=
  ⟨h.isOpen, h.first, h.last, h.column, h.chunkIdx, h.row_lt⟩

theorem OnCell.idx (h : OnCell env rs columnIndex v row) : (rs.chunkIdx : ℤ) - 1 = row := by
  rw [h.chunkIdx]
  omega

theorem OnCell.vectorCheck (h : OnCell env rs columnIndex v row) :
    v.checkAndNull row = .ok (v.nullmask row) := by
  have hrow := h.row_lt
  rw [ColumnVector.checkAndNull, if_pos ⟨by omega, by omega⟩, Int.toNat_natCast]

theorem OnCell.checkAndNull (h : OnCell env rs columnIndex v row) :
    rs.checkAndNull env columnIndex = (.ok (v.nullmask row), rs.withNull (v.nullmask row)) := by
  have hfirst := h.first
  have hlast := h.last
  have hcheck : (rs.column columnIndex >>= fun v => v.checkAndNull ((rs.chunkIdx : ℤ) - 1)) =
      .ok (v.nullmask row) := by
    rw [h.column, h.idx]
    exact h.vectorCheck
  rw [DuckDBResultSet.checkAndNull, if_neg (by rw [h.isOpen]; decide), if_neg (by omega), hcheck]
  rfl

theorem OnCell.read (h : OnCell env rs columnIndex v row) (g : VectorGetter) :
    rs.read env columnIndex g = v.get env.toJavaLibrary g row := by
  rw [DuckDBResultSet.read, h.column, h.idx]
  rfl

theorem OnCell.checked (h : OnCell env rs columnIndex v row) (ifNull : JavaValue)
    (value : DuckDBResultSet → Except GetterException JavaValue × DuckDBResultSet) :
    rs.checked env columnIndex ifNull value =
      if v.nullmask row then (.ok ifNull, rs.withNull (v.nullmask row))
      else value (rs.withNull (v.nullmask row)) := by
  rw [DuckDBResultSet.checked, h.checkAndNull]
  cases v.nullmask row <;> rfl

/-- All getters of the vectors but `getLocalTime` set the flag. -/
theorem OnCell.getVector (h : OnCell env rs columnIndex v row) {g : VectorGetter}
    (hg : g ≠ .localTime) : rs.getVector env columnIndex g =
      (v.get env.toJavaLibrary g row, rs.withNull (v.nullmask row)) := by
  have hget : rs.getVector env columnIndex g =
      rs.checked env columnIndex g.nullValue fun rs => (rs.read env columnIndex g, rs) := by
    cases g <;> first | rfl | exact absurd rfl hg
  rw [hget, h.checked]
  cases hnull : v.nullmask row with
  | true => rw [if_pos rfl, ColumnVector.get_of_null _ _ h.row_lt hnull]
  | false => rw [if_neg (by decide), (h.withNull false).read]

theorem OnCell.getLocalTime (h : OnCell env rs columnIndex v row) :
    rs.getVector env columnIndex .localTime = (v.get env.toJavaLibrary .localTime row, rs) :=
  congrArg (·, rs) (h.read .localTime)

theorem OnCell.stringOf (h : OnCell env rs columnIndex v row) (value : JavaValue) :
    rs.stringOf env columnIndex value = stringOfValue env columnIndex v row value := by
  have hrow : rs.chunkIdx - 1 = row := by rw [h.chunkIdx, Nat.add_sub_cancel]
  rw [DuckDBResultSet.stringOf, stringOfValue, h.column, hrow]
  cases env.columnTypes[(columnIndex - 1).toNat]? <;> rfl

theorem OnCell.getString (h : OnCell env rs columnIndex v row) :
    rs.getString env columnIndex =
      (stringValue env columnIndex v row, rs.withNull (v.nullmask row)) := by
  rw [DuckDBResultSet.getString, h.checked, stringValue]
  cases hnull : v.nullmask row with
  | true => rfl
  | false =>
    have hnext := h.withNull false
    rw [if_neg (by decide), if_neg (by decide), hnext.getVector (fun h => by cases h), hnull]
    cases hvalue : v.get env.toJavaLibrary .object row with
    | error e => rfl
    | ok value =>
      dsimp only
      split
      · rfl
      · exact congrArg (·, rs.withNull false) (hnext.stringOf value)

theorem OnCell.getAs (h : OnCell env rs columnIndex v row) (type : JavaClass) :
    rs.get env columnIndex (.objectAs (some type)) =
      (valueAs env columnIndex v row type, rs.withNull (v.nullmask row)) := by
  rw [DuckDBResultSet.get, h.checked, valueAs]
  cases hnull : v.nullmask row with
  | true => rfl
  | false =>
    have hnext := h.withNull false
    rw [if_neg (by decide), if_neg (by decide), DuckDBResultSet.getAs]
    cases env.columnTypes[(columnIndex - 1).toNat]? with
    | none => rfl
    | some sqlType =>
      dsimp only
      split
      · rw [hnext.getString, hnull]
        rfl
      · cases type.getter sqlType with
        | none => rfl
        | some g =>
          dsimp only
          by_cases hg : g = .localTime
          · subst hg
            rw [hnext.getLocalTime]
          · rw [hnext.getVector hg, hnull]
            rfl

/-- A getter on a cell returns the value of the cell, and leaves the flag of the cell if it goes
    through `checkAndNull`. -/
theorem OnCell.get (h : OnCell env rs columnIndex v row) (g : Getter) :
    rs.get env columnIndex g = (g.value env columnIndex v row,
      if g.checks then rs.withNull (v.nullmask row) else rs) := by
  cases g with
  | vector g =>
    by_cases hg : g = .localTime
    · subst hg
      exact h.getLocalTime
    · have hchecks : (Getter.vector g).checks = true := by
        cases g <;> first | rfl | exact absurd rfl hg
      rw [hchecks]
      exact h.getVector hg
  | string => exact h.getString
  | json =>
    rw [DuckDBResultSet.get, getJsonObject, h.getVector (fun h => by cases h)]
    rfl
  | objectAs type =>
    cases type with
    | none =>
      rw [DuckDBResultSet.get, if_neg (by rw [h.isOpen]; decide)]
      rfl
    | some type => exact h.getAs type

theorem OffCells.checkAndNull (h : OffCells env rs columnIndex) :
    ∃ e, rs.checkAndNull env columnIndex = (.error e, rs) ∧ e.isSql = true := by
  rw [DuckDBResultSet.checkAndNull]
  by_cases hclosed : rs.closed = true
  · exact ⟨_, if_pos hclosed, rfl⟩
  rw [if_neg hclosed]
  by_cases hindex : columnIndex < 1 ∨ env.columnCount < columnIndex
  · exact ⟨_, if_pos hindex, rfl⟩
  rw [if_neg hindex]
  obtain h | h | h := h
  · exact absurd h hclosed
  · exact absurd h hindex
  · rw [h]
    exact ⟨_, rfl, rfl⟩

theorem OffCells.checked (h : OffCells env rs columnIndex) (ifNull : JavaValue)
    (value : DuckDBResultSet → Except GetterException JavaValue × DuckDBResultSet) :
    ∃ e, rs.checked env columnIndex ifNull value = (.error e, rs) ∧ e.isSql = true := by
  obtain ⟨e, hcheck, he⟩ := h.checkAndNull
  refine ⟨e, ?_, he⟩
  rw [DuckDBResultSet.checked, hcheck]

theorem OffCells.getVector (h : OffCells env rs columnIndex) {g : VectorGetter}
    (hg : g ≠ .localTime) :
    ∃ e, rs.getVector env columnIndex g = (.error e, rs) ∧ e.isSql = true := by
  obtain ⟨e, hget, he⟩ := h.checked g.nullValue fun rs => (rs.read env columnIndex g, rs)
  refine ⟨e, ?_, he⟩
  rw [← hget]
  cases g <;> first | rfl | exact absurd rfl hg

/-- Where there is no cell, all getters but `getLocalTime` throw an `SQLException`. -/
theorem OffCells.get (h : OffCells env rs columnIndex) {g : Getter} (hg : g ≠ .vector .localTime) :
    ∃ e, rs.get env columnIndex g = (.error e, rs) ∧ e.isSql = true := by
  cases g with
  | vector g => exact h.getVector fun h => hg (congrArg Getter.vector h)
  | string => exact h.checked _ _
  | json =>
    obtain ⟨e, hget, he⟩ := h.getVector (g := .lazyString) (fun h => by cases h)
    refine ⟨e, ?_, he⟩
    rw [DuckDBResultSet.get, getJsonObject, hget]
    rfl
  | objectAs type =>
    cases type with
    | none =>
      rw [DuckDBResultSet.get]
      split
      · exact ⟨_, rfl, rfl⟩
      · exact ⟨_, rfl, rfl⟩
    | some type => exact h.checked _ _

end

end DuckDBResultSet

end DuckDBJava
