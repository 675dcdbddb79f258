/-
  `DuckDBArrayResultSet`: a cursor over the slots of one array.

  `next` looks at the position it moves to; `absolute`, `relative` and `previous` return what
  `checkBounds` returns, which takes the position before the first row and the one after the last
  for rows.  The getters of the value column do not look at the position.
-/
import DuckDBJava.Lib.Calls
import DuckDBJava.Result.Getters

namespace DuckDBJava

open Calls

/-! ## The array and its cursor -/

/-- `DuckDBArray`: `getArray()` returns the elements that its constructor has read. -/
structure DuckDBArray (lib : JavaLibrary) where
  vector : ColumnVector
  offset : ℕ
  length : ℕ
  array : List JavaValue
  within : offset + length ≤ vector.length
  vector_lt : vector.length < 2 ^ 31
  array_eq : (List.range length).map (fun i : ℕ => vector.get lib .object (offset + i : ℕ)) =
    array.map .ok

/-- The fields of a `DuckDBArrayResultSet` that change. -/
structure DuckDBArrayResultSet where
  currentValueIndex : ℤ
  wasNull : Bool
  deriving DecidableEq

/-- The moves, with their `int` arguments. -/
inductive ArrayMove where
  | next | previous | first | last
  | absolute (row : BitVec 32)
  | relative (rows : BitVec 32)
  | beforeFirst | afterLast

/-- The getters. -/
inductive ArrayGetter where
  | string | boolean | byte | short | int | long | float | double | bigDecimalScale | bigDecimal
  | date | time | timestamp | object | array
  deriving DecidableEq

namespace DuckDBArrayResultSet

/-- `getResultSet()` -/
def start : DuckDBArrayResultSet := ⟨-1, false⟩

/-- `checkBounds()`, with the length of the array. -/
def checkBounds (length : ℕ) (rs : DuckDBArrayResultSet) : Bool × DuckDBArrayResultSet :=
  if rs.currentValueIndex < -1 then (false, { rs with currentValueIndex := -1 })
  else if length < rs.currentValueIndex then (false, { rs with currentValueIndex := length })
  else (true, rs)

/-- The moves; `none` is the result of a `void` method. -/
def move (length : ℕ) (rs : DuckDBArrayResultSet) : ArrayMove → Option Bool × DuckDBArrayResultSet
  | .next =>
    let cursor := toInt (rs.currentValueIndex + 1)
    let hasNext := decide (0 ≤ cursor ∧ cursor < length)
    (some hasNext, (checkBounds length { rs with currentValueIndex := cursor }).2)
  | .previous =>
    let (r, rs) := checkBounds length { rs with
      currentValueIndex := toInt (rs.currentValueIndex - 1) }
    (some r, rs)
  | .first =>
    if 0 < length then (some true, { rs with currentValueIndex := 0 }) else (some false, rs)
  | .last =>
    if 0 < length then (some true, { rs with currentValueIndex := length - 1 })
    else (some false, rs)
  | .absolute row =>
    let (r, rs) := checkBounds length { rs with
      currentValueIndex := if 0 ≤ row.toInt then row.toInt - 1 else length + row.toInt }
    (some r, rs)
  | .relative rows =>
    let (r, rs) := checkBounds length { rs with
      currentValueIndex := toInt (rs.currentValueIndex + rows.toInt) }
    (some r, rs)
  | .beforeFirst => (none, { rs with currentValueIndex := -1 })
  | .afterLast => (none, { rs with currentValueIndex := length })

end DuckDBArrayResultSet

namespace ArrayGetter

/-- The getter of the vector. -/
def vectorGetter : ArrayGetter → VectorGetter
  | string => .lazyString
  | boolean => .boolean
  | byte => .byte
  | short => .short
  | int => .int
  | long => .long
  | float => .float
  | double => .double
  | bigDecimalScale | bigDecimal => .bigDecimal
  | date => .date
  | time => .time none
  | timestamp => .timestamp none
  | object => .object
  | array => .array

/-- The getters that take column 1, with what they make of the index. -/
def indexValue (lib : JavaLibrary) (index : ℤ) : ArrayGetter → Option JavaValue
  | byte => some (.object (.number .byte (index.bmod (2 ^ 8))))
  | short => some (.object (.number .short (index.bmod (2 ^ 16))))
  | int => some (.object (.number .integer index))
  | long => some (.object (.number .long index))
  | float => some (lib.number .float (.number .integer index)).1
  | double => some (lib.number .double (.number .integer index)).1
  | bigDecimalScale => some (.object (.bigDecimal index 0))
  | _ => none

end ArrayGetter

namespace DuckDBArrayResultSet

variable {lib : JavaLibrary} (a : DuckDBArray lib) (rs : DuckDBArrayResultSet)

/-- `getValue`; `getter` reads a slot of the vector. -/
def getValue (offset : ℕ) (columnIndex : ℤ) (getter : ℤ → Except GetterException JavaValue) :
    Except GetterException JavaValue × DuckDBArrayResultSet :=
  if columnIndex = 1 then (.error .indexColumn, rs)
  else if columnIndex ≠ 2 then (.error .twoColumns, rs)
  else match getter (toInt (offset + rs.currentValueIndex)) with
    | .ok value => (.ok value, { rs with wasNull := value.isNull })
    | .error e => (.error e, rs)

/-- A getter, by column index, of an array whose vector is read by `getter`. -/
def getBy (lib : JavaLibrary) (offset : ℕ) (g : ArrayGetter) (columnIndex : ℤ)
    (getter : ℤ → Except GetterException JavaValue) :
    Except GetterException JavaValue × DuckDBArrayResultSet :=
  match if columnIndex = 1 then g.indexValue lib (toInt (rs.currentValueIndex + 1)) else none with
  | some value => (.ok value, { rs with wasNull := false })
  | none => rs.getValue offset columnIndex getter

/-- A getter, by column index. -/
def get (g : ArrayGetter) (columnIndex : ℤ) :
    Except GetterException JavaValue × DuckDBArrayResultSet :=
  rs.getBy lib a.offset g columnIndex (a.vector.get lib g.vectorGetter)

/-- `while (rs.next()) visit(rs.getObject(2))`, for at most so many rows. -/
def visit : ℕ → DuckDBArrayResultSet → List (Except GetterException JavaValue)
  | 0, _ => []
  | fuel + 1, rs => match rs.move a.length .next with
    | (some true, rs) => (rs.get a .object 2).1 :: visit fuel (rs.get a .object 2).2
    | _ => []

end DuckDBArrayResultSet

/-! ## One call -/

/-- A call on the result set. -/
inductive ArrayCall where
  | move (m : ArrayMove)
  | get (g : ArrayGetter) (columnIndex : BitVec 32)

namespace DuckDBArrayResultSet

/-- The cursor is between before-first and after-last. -/
def InRange (length : ℕ) (rs : DuckDBArrayResultSet) : Prop :=
  -1 ≤ rs.currentValueIndex ∧ rs.currentValueIndex ≤ length

/-- The cursor is on a row. -/
def OnRow (length : ℕ) (rs : DuckDBArrayResultSet) : Prop :=
  0 ≤ rs.currentValueIndex ∧ rs.currentValueIndex < length

/-- The position a move aims at, before `checkBounds`. -/
def target (length : ℕ) (rs : DuckDBArrayResultSet) : ArrayMove → Option ℤ
  | .previous => some (toInt (rs.currentValueIndex - 1))
  | .absolute row => some (if 0 ≤ row.toInt then row.toInt - 1 else length + row.toInt)
  | .relative rows => some (toInt (rs.currentValueIndex + rows.toInt))
  | _ => none

section
variable {length : ℕ} {rs : DuckDBArrayResultSet}

theorem checkBounds_inRange (length : ℕ) (rs : DuckDBArrayResultSet) :
    (rs.checkBounds length).2.InRange length := by
  unfold checkBounds InRange
  split
  · exact ⟨le_rfl, by simp only; omega⟩
  · split
    · exact ⟨by simp only; omega, le_rfl⟩
    · exact ⟨by simp only; omega, by simp only; omega⟩

/-- `checkBounds` tells a row from the other positions, but for the two just beside the rows. -/
theorem checkBounds_iff (length : ℕ) (rs : DuckDBArrayResultSet) :
    ((rs.checkBounds length).1 = true ↔ (rs.checkBounds length).2.OnRow length) ↔
      rs.currentValueIndex ≠ -1 ∧ rs.currentValueIndex ≠ length := by
  unfold checkBounds OnRow
  split
  · simp only [Bool.false_eq_true, false_iff]
    omega
  · split
    · simp only [Bool.false_eq_true, false_iff]
      omega
    · simp only [true_iff]
      omega

theorem move_inRange (h : rs.InRange length) (m : ArrayMove) :
    (rs.move length m).2.InRange length := by
  obtain ⟨hlo, hhi⟩ := h
  cases m with
  | next | previous | absolute row | relative rows => exact checkBounds_inRange ..
  | first =>
    rw [move]
    split
    · exact ⟨by simp only; omega, by simp only; omega⟩
    · exact ⟨hlo, hhi⟩
  | last =>
    rw [move]
    split
    · exact ⟨by simp only; omega, by simp only; omega⟩
    · exact ⟨hlo, hhi⟩
  | beforeFirst => exact ⟨le_rfl, by simp only [move]; omega⟩
  | afterLast => exact ⟨by simp only [move]; omega, le_rfl⟩

/-- `next` returns whether it ends on a row. -/
theorem next_iff : (decide (0 ≤ toInt (rs.currentValueIndex + 1) ∧
      toInt (rs.currentValueIndex + 1) < length) = true) ↔
    (rs.move length .next).2.OnRow length := by
  rw [decide_eq_true_eq, move]
  generalize toInt (rs.currentValueIndex + 1) = cursor
  unfold checkBounds OnRow
  simp only
  split
  · simp only
    omega
  · split
    · simp only
      omega
    · exact Iff.rfl

theorem move_of_target {m : ArrayMove} {t : ℤ} (h : rs.target length m = some t) :
    rs.move length m = (some (checkBounds length { rs with currentValueIndex := t }).1,
      (checkBounds length { rs with currentValueIndex := t }).2) := by
  cases m <;> cases h <;> rfl

theorem move_iff_of_target {m : ArrayMove} {t : ℤ} (h : rs.target length m = some t) :
    (∀ r, (rs.move length m).1 = some r → (r = true ↔ (rs.move length m).2.OnRow length)) ↔
      ∀ t, rs.target length m = some t → t ≠ -1 ∧ t ≠ length := by
  have hbounds := checkBounds_iff length { rs with currentValueIndex := t }
  rw [move_of_target h, h]
  constructor
  · intro hr u hu
    cases hu
    exact hbounds.1 (hr _ rfl)
  · intro ht r hr
    cases hr
    exact hbounds.2 (ht t rfl)

/-- The result of a move says whether it ends on a row, exactly when the move does not aim at one
    of the two positions beside the rows. -/
theorem move_iff (h : rs.InRange length) (m : ArrayMove) :
    (∀ r, (rs.move length m).1 = some r → (r = true ↔ (rs.move length m).2.OnRow length)) ↔
      ∀ t, rs.target length m = some t → t ≠ -1 ∧ t ≠ length := by
  obtain ⟨hlo, hhi⟩ := h
  cases m with
  | next =>
    refine iff_of_true (fun r hr => ?_) (fun t ht => by cases ht)
    cases hr
    exact next_iff
  | previous => exact move_iff_of_target rfl
  | absolute row => exact move_iff_of_target rfl
  | relative rows => exact move_iff_of_target rfl
  | first =>
    refine iff_of_true (fun r hr => ?_) (fun t ht => by cases ht)
    rw [move] at hr ⊢
    unfold OnRow
    split at hr <;> cases hr
    · rw [if_pos ‹_›]
      simp only [true_iff]
      omega
    · rw [if_neg ‹_›]
      simp only [Bool.false_eq_true, false_iff]
      omega
  | last =>
    refine iff_of_true (fun r hr => ?_) (fun t ht => by cases ht)
    rw [move] at hr ⊢
    unfold OnRow
    split at hr <;> cases hr
    · rw [if_pos ‹_›]
      simp only [true_iff]
      omega
    · rw [if_neg ‹_›]
      simp only [Bool.false_eq_true, false_iff]
      omega
  | beforeFirst | afterLast =>
    exact iff_of_true (fun r hr => by cases hr) (fun t ht => by cases ht)

end

/-! ## All sequences of calls -/

section
variable {lib : JavaLibrary} (a : DuckDBArray lib) (rs : DuckDBArrayResultSet)

/-- The state after a call. -/
def step : ArrayCall → DuckDBArrayResultSet
  | .move m => (rs.move a.length m).2
  | .get g columnIndex => (rs.get a g columnIndex.toInt).2

/-- The getter reads slot `i`: what it does depends on what is there. -/
def Reads (g : ArrayGetter) (columnIndex i : ℤ) : Prop :=
  ∃ getter getter' : ℤ → Except GetterException JavaValue, (∀ j ≠ i, getter j = getter' j) ∧
    rs.getBy lib a.offset g columnIndex getter ≠ rs.getBy lib a.offset g columnIndex getter'

/-- A getter reads the slot of the row the cursor is on and no other, or returns the index of that
    row for column 1, or throws `SQLException`. -/
def GetAsClaimed (g : ArrayGetter) (columnIndex : ℤ) : Prop :=
  (∀ i, rs.Reads a g columnIndex i → rs.OnRow a.length ∧ i = a.offset + rs.currentValueIndex) ∧
  ((rs.OnRow a.length ∧ columnIndex = 2 ∧ (rs.get a g columnIndex).1 =
        a.vector.get lib g.vectorGetter (a.offset + rs.currentValueIndex)) ∨
    (rs.OnRow a.length ∧ columnIndex = 1 ∧ some (rs.get a g columnIndex).1 =
        (g.indexValue lib (rs.currentValueIndex + 1)).map .ok) ∨
    ∃ e, (rs.get a g columnIndex).1 = .error e ∧ e.isSql = true)

/-- So does a getter, and a move stays in range and returns whether it ends on a row. -/
def AsClaimed : ArrayCall → Prop
  | .move m => (rs.move a.length m).2.InRange a.length ∧
      ∀ r, (rs.move a.length m).1 = some r → (r = true ↔ (rs.move a.length m).2.OnRow a.length)
  | .get g columnIndex => rs.GetAsClaimed a g columnIndex.toInt

/-- A move does not aim at one of the positions beside the rows; a getter that is not rejected for
    its column index is called on a row. -/
def Meets : ArrayCall → Prop
  | .move m => ∀ t, rs.target a.length m = some t → t ≠ -1 ∧ t ≠ a.length
  | .get g columnIndex => rs.OnRow a.length ∨ (columnIndex.toInt ≠ 2 ∧
      (columnIndex.toInt = 1 → g.indexValue lib (toInt (rs.currentValueIndex + 1)) = none))

variable {a rs}

theorem get_currentValueIndex (g : ArrayGetter) (columnIndex : ℤ) :
    (rs.get a g columnIndex).2.currentValueIndex = rs.currentValueIndex := by
  unfold get getBy getValue
  split
  · rfl
  · split_ifs <;> try rfl
    split <;> rfl

theorem step_inRange (c : ArrayCall) (h : rs.InRange a.length) :
    (step a rs c).InRange a.length := by
  cases c with
  | move m => exact move_inRange h m
  | get g columnIndex =>
    unfold step InRange
    rw [get_currentValueIndex]
    exact h

/-- Column 1, of a getter that takes it. -/
theorem get_index {g : ArrayGetter} {value : JavaValue}
    (h : g.indexValue lib (toInt (rs.currentValueIndex + 1)) = some value) :
    (rs.get a g 1).1 = .ok value := by
  rw [get, getBy, if_pos rfl, h]

/-- The other calls. -/
theorem getBy_of_not_index {offset : ℕ} {g : ArrayGetter} {columnIndex : ℤ}
    (h : columnIndex = 1 → g.indexValue lib (toInt (rs.currentValueIndex + 1)) = none)
    (getter : ℤ → Except GetterException JavaValue) :
    rs.getBy lib offset g columnIndex getter = rs.getValue offset columnIndex getter := by
  unfold getBy
  split_ifs with h1
  · rw [h h1]
  · rfl

theorem get_of_not_index {g : ArrayGetter} {columnIndex : ℤ}
    (h : columnIndex = 1 → g.indexValue lib (toInt (rs.currentValueIndex + 1)) = none) :
    rs.get a g columnIndex =
      rs.getValue a.offset columnIndex (a.vector.get lib g.vectorGetter) :=
  getBy_of_not_index h _

/-- A getter of column 2 reads the slot of the cursor, on a row or not; no other getter reads. -/
theorem reads_iff {g : ArrayGetter} {columnIndex i : ℤ} :
    rs.Reads a g columnIndex i ↔
      columnIndex = 2 ∧ i = toInt (a.offset + rs.currentValueIndex) := by
  constructor
  · rintro ⟨getter, getter', hagree, hne⟩
    by_cases h2 : columnIndex = 2
    · refine ⟨h2, ?_⟩
      by_contra hi
      refine hne ?_
      have hindex : columnIndex = 1 → g.indexValue lib (toInt (rs.currentValueIndex + 1)) = none :=
        fun h1 => absurd (h2.symm.trans h1) (by decide)
      rw [getBy_of_not_index hindex, getBy_of_not_index hindex, getValue, getValue,
        hagree _ fun h => hi h.symm]
    · refine absurd ?_ hne
      unfold getBy getValue
      simp only [h2, ne_eq, not_false_eq_true, if_true]
  · rintro ⟨rfl, rfl⟩
    refine ⟨fun _ => .error .engine, fun j =>
      if j = toInt (a.offset + rs.currentValueIndex) then .error .parse else .error .engine,
      fun j hj => (if_neg hj).symm, fun h => ?_⟩
    rw [getBy_of_not_index fun h => absurd h (by decide),
      getBy_of_not_index fun h => absurd h (by decide), getValue, getValue] at h
    simp at h

/-- Column 2. -/
theorem get_value (g : ArrayGetter) : (rs.get a g 2).1 =
    a.vector.get lib g.vectorGetter (toInt (a.offset + rs.currentValueIndex)) := by
  rw [get_of_not_index fun h => absurd h (by decide), getValue, if_neg (by decide),
    if_neg (by decide)]
  split <;> rename_i h <;> rw [h]

/-- The calls that are rejected for their column index. -/
theorem get_rejected {g : ArrayGetter} {columnIndex : ℤ} (h2 : columnIndex ≠ 2)
    (h1 : columnIndex = 1 → g.indexValue lib (toInt (rs.currentValueIndex + 1)) = none) :
    ∃ e, (rs.get a g columnIndex).1 = .error e ∧ e.isSql = true := by
  rw [get_of_not_index h1, getValue]
  by_cases hc : columnIndex = 1
  · rw [if_pos hc]
    exact ⟨_, rfl, rfl⟩
  · rw [if_neg hc, if_pos h2]
    exact ⟨_, rfl, rfl⟩

/-- The slot of a row, and the index of it, are computed without overflow. -/
theorem OnRow.toInt_eq (h : rs.OnRow a.length) :
    toInt (a.offset + rs.currentValueIndex) = a.offset + rs.currentValueIndex ∧
      toInt (rs.currentValueIndex + 1) = rs.currentValueIndex + 1 := by
  obtain ⟨hlo, hhi⟩ := h
  have hwithin := a.within
  have hlt := a.vector_lt
  exact ⟨toInt_of_lt (by omega) (by omega), toInt_of_lt (by omega) (by omega)⟩

theorem getAsClaimed_iff (g : ArrayGetter) (c : ℤ) :
    rs.GetAsClaimed a g c ↔ rs.OnRow a.length ∨
      (c ≠ 2 ∧ (c = 1 → g.indexValue lib (toInt (rs.currentValueIndex + 1)) = none)) := by
  by_cases hrow : rs.OnRow a.length
  · obtain ⟨hslot, hindex⟩ := OnRow.toInt_eq hrow
    refine iff_of_true ⟨fun i hi => ⟨hrow, (reads_iff.1 hi).2.trans hslot⟩, ?_⟩ (.inl hrow)
    · by_cases h2 : c = 2
      · rw [h2]
        exact .inl ⟨hrow, rfl, by rw [get_value, hslot]⟩
      · by_cases h1 : c = 1 ∧ g.indexValue lib (toInt (rs.currentValueIndex + 1)) ≠ none
        · obtain ⟨rfl, hsome⟩ := h1
          obtain ⟨value, hvalue⟩ := Option.ne_none_iff_exists'.1 hsome
          refine .inr (.inl ⟨hrow, rfl, ?_⟩)
          rw [get_index hvalue, ← hindex, hvalue]
          rfl
        · refine .inr (.inr (get_rejected h2 fun hc => ?_))
          exact not_not.1 fun hne => h1 ⟨hc, hne⟩
  · rw [or_iff_right hrow]
    constructor
    · rintro ⟨hread, hresult⟩
      refine ⟨fun hc => hrow (hread _ (reads_iff.2 ⟨hc, rfl⟩)).1, fun hc => ?_⟩
      rcases hresult with ⟨hon, -⟩ | ⟨hon, -⟩ | ⟨e, he, -⟩
      · exact absurd hon hrow
      · exact absurd hon hrow
      · by_contra hne
        obtain ⟨value, hvalue⟩ := Option.ne_none_iff_exists'.1 hne
        rw [hc, get_index hvalue] at he
        cases he
    · rintro ⟨h2, h1⟩
      exact ⟨fun i hi => absurd (reads_iff.1 hi).1 h2, .inr (.inr (get_rejected h2 h1))⟩

theorem asClaimed_iff (c : ArrayCall) (h : rs.InRange a.length) :
    AsClaimed a rs c ↔ Meets a rs c := by
  cases c with
  | move m => exact (and_iff_right (move_inRange h m)).trans (move_iff h m)
  | get g columnIndex => exact getAsClaimed_iff g columnIndex.toInt

/-- The loop goes on from the `i`-th element. -/
theorem visit_from {fuel i : ℕ} (hfuel : a.length < fuel + i) (hi : i ≤ a.length)
    (h : rs.currentValueIndex + 1 = i) :
    rs.visit a fuel = (List.range' i (a.length - i)).map
      fun k : ℕ => a.vector.get lib .object (a.offset + k : ℕ) := by
  have hwithin := a.within
  have hlt := a.vector_lt
  induction fuel generalizing i rs with
  | zero => omega
  | succ fuel ih =>
    have hcursor : toInt (rs.currentValueIndex + 1) = i := by
      rw [h]
      exact toInt_natCast (by omega)
    by_cases hend : i = a.length
    · have hnext : rs.move a.length .next = (some false,
          (checkBounds a.length
            { rs with currentValueIndex := toInt (rs.currentValueIndex + 1) }).2) := by
        rw [move, hcursor]
        simp [hend]
      rw [visit, hnext, hend, Nat.sub_self]
      rfl
    · have hbounds : checkBounds a.length ⟨(i : ℤ), rs.wasNull⟩ = (true, ⟨i, rs.wasNull⟩) := by
        rw [checkBounds, if_neg (by simp only; omega), if_neg (by simp only; omega)]
      have hnext : rs.move a.length .next = (some true, ⟨i, rs.wasNull⟩) := by
        rw [move, hcursor, hbounds]
        simp
        omega
      have hget : (get a ⟨i, rs.wasNull⟩ .object 2).1 =
          a.vector.get lib .object (a.offset + i : ℕ) := by
        rw [get_value]
        show a.vector.get lib .object (toInt (a.offset + (i : ℤ))) = _
        rw [toInt_of_lt (by omega) (by omega)]
        rfl
      have hrest : a.length - i = (a.length - (i + 1)) + 1 := by omega
      rw [visit, hnext, hrest, List.range'_succ, List.map_cons]
      show (get a ⟨i, rs.wasNull⟩ .object 2).1 :: visit a fuel _ = _
      rw [hget, ih (i := i + 1) (by omega) (by omega) (by rw [get_currentValueIndex]; rfl)]

/-- The loop visits the elements of `getArray()`. -/
theorem visit_start {fuel : ℕ} (hfuel : a.length < fuel) :
    start.visit a fuel = a.array.map .ok := by
  rw [visit_from (i := 0) hfuel (Nat.zero_le _) rfl, ← a.array_eq, Nat.sub_zero,
    List.range_eq_range']

end

/-- **Array result-set cursor.**  Over every sequence of moves and getters on every array: the
    cursor stays in range, the moves tell whether they end on a row and the getters read the row of
    the cursor, if and only if no `absolute`, `relative` or `previous` aims at one of the two
    positions beside the rows, and no getter of an accepted column is called off the rows.  The
    plain loop always visits the elements of the array. -/
theorem array_cursor_iff {lib : JavaLibrary} (a : DuckDBArray lib) (calls : List ArrayCall) :
    (Every (step a) (AsClaimed a) start calls ∧
        ∀ fuel, a.length < fuel → start.visit a fuel = a.array.map .ok) ↔
      Every (step a) (Meets a) start calls := by
  have hstart : start.InRange a.length := ⟨le_rfl, by show (-1 : ℤ) ≤ _; omega⟩
  have hloop : ∀ fuel, a.length < fuel → start.visit a fuel = a.array.map .ok :=
    fun fuel hfuel => visit_start hfuel
  rw [and_iff_left hloop]
  exact every_iff_of_inv (fun rs c h => step_inRange c h) (fun rs c h => asClaimed_iff c h) hstart

/-! ## Two lists in one child vector -/

/-- An INTEGER vector with the elements 7 and 8. -/
def sevenEight : ColumnVector where
  type := .integer
  internalType := .invalid
  scale := 0
  length := 2
  nullmask := fun _ => false
  bits := fun row => 7 + row
  varlen := fun _ => .null

theorem get_sevenEight (lib : JavaLibrary) {i : ℕ} (h : i < 2) :
    sevenEight.get lib .object i = .ok (.object (.number .integer (7 + i))) ∧
      sevenEight.get lib .int i = .ok (.object (.number .integer (7 + i))) := by
  obtain rfl | rfl : i = 0 ∨ i = 1 := by omega
  · have hbits : signed 4 (7 + 0) = 7 + (0 : ℕ) := by decide
    rw [← hbits]
    exact ⟨rfl, rfl⟩
  · have hbits : signed 4 (7 + 1) = 7 + (1 : ℕ) := by decide
    rw [← hbits]
    exact ⟨rfl, rfl⟩

/-- The list with the element 7. -/
def seven (lib : JavaLibrary) : DuckDBArray lib where
  vector := sevenEight
  offset := 0
  length := 1
  array := [.object (.number .integer 7)]
  within := by decide
  vector_lt := by decide
  array_eq := congrArg (fun r => [r]) (get_sevenEight lib (by decide)).1

/-- `absolute(0)` leaves the cursor before the first row and returns `true`. -/
theorem array_cursor_absolute_zero : ¬ ∀ (lib : JavaLibrary) (a : DuckDBArray lib)
    (calls : List ArrayCall), Every (step a) (AsClaimed a) start calls ∧
      ∀ fuel, a.length < fuel → start.visit a fuel = a.array.map .ok := by
  intro h
  have hmove := ((h .plain (seven .plain) [.move (.absolute 0)]).1.1).2 true rfl
  exact absurd (hmove.1 rfl) (by unfold OnRow; decide)

/-- After the last row, `getInt(2)` returns the element of the next list. -/
example : (DuckDBArrayResultSet.get (seven .plain) ⟨1, false⟩ .int 2).1 =
    .ok (.object (.number .integer 8)) := by
  have hslot : toInt ((0 : ℕ) + 1) = (1 : ℕ) := by decide
  rw [get_value]
  show sevenEight.get .plain .int (toInt ((0 : ℕ) + 1)) = _
  rw [hslot, (get_sevenEight .plain (by decide)).2]
  rfl

end DuckDBArrayResultSet

end DuckDBJava
