/-
  The methods of `DuckDBAppender.Column` on the memory of its vector: the element count of the
  buffers, `reset` and `setNull`.

  They recurse along the type; `arraySize` and `parentArraySize` are those of the column the
  method is called on.
-/
import DuckDBJava.Appender.Memory

namespace DuckDBJava

open Exec PathTree

/-- `Column.maxElementsCount()`, where `maxEntries` is the `listSize` of the nearest column at or
    above this one whose parent is a `LIST` or a `MAP`, or the vector size where there is none. -/
def maxElementsCount (maxEntries arraySize parentArraySize : ℕ) : ℕ :=
  maxEntries * arraySize * parentArraySize

/-- The bytes of a validity buffer for `n` elements (`duckdb_vector_get_validity`). -/
def validityBytes (n : ℕ) : ℕ := (n + 63) / 64 * 8

/-- Fetch the buffers of one column for `n` elements. -/
def fetchBuffers (eng : Engine) (kind : TypeKind) (n : ℕ) : PutM Unit := do
  require (kind.widthBytes = 0 ∨ eng.directBuffer (n * kind.widthBytes)) (.sql .resetData)
  require (eng.directBuffer (validityBytes n)) (.sql .resetValidity)
  modifyRoot fun c => c.fetch n

mutual

/-- `Column.reset()`. -/
def resetAt (eng : Engine) (maxEntries arraySize parentArraySize : ℕ) : LogicalType → PutM Unit
  | .node kind cs => do
    fetchBuffers eng kind (maxElementsCount maxEntries arraySize parentArraySize)
    resetChildren eng maxEntries arraySize kind 0 cs

def resetChildren (eng : Engine) (maxEntries arraySize : ℕ) (kind : TypeKind) (i : ℕ) :
    List LogicalType → PutM Unit
  | [] => pure ()
  | t :: ts => do
    onChild i (do
      let c ← getRoot
      resetAt eng (if kind.isListOrMap then c.listSize else maxEntries) kind.childArraySize
        arraySize t)
    resetChildren eng maxEntries arraySize kind (i + 1) ts

end

/-- `Column.reset(listSize)` of the child of a `LIST` or `MAP`. -/
def Column.resetList (eng : Engine) (col : Column) (listSize : ℕ) : PutM Unit := do
  modifyRoot fun c => c.setListSize listSize
  resetAt eng listSize col.arraySize col.parentArraySize col.type

/-- `Column.setNullOnVectorIdx`. -/
def setNullOnVectorIdx (vectorIdx : ℤ) : PutM Unit := do
  let c ← getRoot
  let validityPos := toInt (vectorIdx.tdiv 64)
  let limit := (c.buf.cap + 63) / 64
  require (0 ≤ validityPos ∧ validityPos ≤ limit) .illegalArgument
  require (validityPos < limit) .bufferUnderflow
  -- a shift of a `long` takes its distance modulo 64
  let idxInEntry := vectorIdx.tmod 64 % 64
  modifyRoot fun c => c.clearValid (validityPos.toNat * 64 + idxInEntry.toNat)

/-- `Column.setNullOnArrayIdx`. -/
def setNullOnArrayIdx (arraySize parentArraySize rowIdx : ℕ) (arrayIdx : ℤ) : PutM Unit :=
  setNullOnVectorIdx (rowIdx * arraySize * parentArraySize + arrayIdx)

/-- The loop of `Column.setNull` over the children of an `ARRAY` of `n` elements. -/
def setNullOnElements (arraySize n vectorIdx : ℕ) (i : ℕ) : List LogicalType → PutM Unit
  | [] => pure ()
  | _ :: ts => do
    onChild i (forRange 0 n fun j => setNullOnArrayIdx n arraySize vectorIdx j)
    setNullOnElements arraySize n vectorIdx (i + 1) ts

mutual

/-- `Column.setNull`. -/
def setNullAt (arraySize parentArraySize : ℕ) : LogicalType → ℕ → PutM Unit
  | .node kind cs, vectorIdx =>
    match kind with
    | .array n => do
      setNullOnArrayIdx arraySize parentArraySize vectorIdx 0
      setNullOnElements arraySize n vectorIdx 0 cs
    | .list | .map => setNullOnVectorIdx vectorIdx
    | _ => do
      setNullOnVectorIdx vectorIdx
      setNullChildren arraySize vectorIdx 0 cs

def setNullChildren (arraySize vectorIdx : ℕ) (i : ℕ) : List LogicalType → PutM Unit
  | [] => pure ()
  | t :: ts => do
    onChild i (setNullAt 1 arraySize t vectorIdx)
    setNullChildren arraySize vectorIdx (i + 1) ts

end

theorem setNullAt_array (a b n k : ℕ) (cs : List LogicalType) :
    setNullAt a b (.node (.array n) cs) k = (do
      setNullOnArrayIdx a b k 0
      setNullOnElements a n k 0 cs) := rfl

theorem setNullAt_listOrMap {kind : TypeKind} (h : kind.isListOrMap = true) (a b k : ℕ)
    (cs : List LogicalType) : setNullAt a b (.node kind cs) k = setNullOnVectorIdx k :=
  match kind, h with
  | .list, _ | .map, _ => rfl

theorem setNullAt_sharesSlots {kind : TypeKind} (h : kind.sharesSlots = true) (a b k : ℕ)
    (cs : List LogicalType) :
    setNullAt a b (.node kind cs) k = (do
      setNullOnVectorIdx k
      setNullChildren a k 0 cs) :=
  match kind, h with
  | .scalar .., _ | .decimal .., _ | .enum .., _ | .struct _, _ | .union _, _ | .unlisted _, _ =>
    rfl

namespace Column

/-- `Column.setNull`. -/
def setNull (col : Column) (vectorIdx : ℕ) : PutM Unit :=
  setNullAt col.arraySize col.parentArraySize col.type vectorIdx

/-- `Column.setNullOnArrayIdx`. -/
def setNullOnArrayIdx (col : Column) (rowIdx : ℕ) (arrayIdx : ℤ) : PutM Unit :=
  DuckDBJava.setNullOnArrayIdx col.arraySize col.parentArraySize rowIdx arrayIdx

end Column

end DuckDBJava
