/-
  The memory of a data chunk, as the appender sees it.

  A vector is a tree: a node holds the slots of one vector (validity bits, data cells, and the
  size of the child vector of a `LIST` or `MAP`) together with the mutable fields of the
  `Column` over it (`listSize` and the direct buffers `data` and `validity`).  Child `i` of a
  node is the `i`-th child vector.  The chunk itself is the root; its children are the
  top-level columns.

  A direct buffer is created over the memory a vector has at that moment.  When the engine
  moves a vector, `alloc` changes, and a buffer created before points to released memory: what
  is written through it is lost.
-/
import DuckDBJava.Lib.PathTree
import DuckDBJava.Appender.Types

namespace DuckDBJava

open Exec PathTree

/-- The bytes of one slot of a vector. -/
inductive Cell where
  /-- a fixed-width value, as an unsigned little-endian number -/
  | fixed (bits : ℕ)
  /-- `string_t` -/
  | string (bytes : List UInt8)
  /-- `list_entry_t` -/
  | entry (offset length : ℤ)
  deriving DecidableEq

/-- `Column.data` and `Column.validity`: created over the allocation `alloc` for `cap` elements;
    `pos` is the position of `data`, in bytes. -/
structure Buffer where
  alloc : ℕ
  cap : ℕ
  pos : ℕ
  deriving DecidableEq

/-- One vector and the mutable fields of the `Column` over it. -/
structure ColState where
  valid : ℕ → Bool
  /-- `none`: not written since the memory was allocated -/
  data : ℕ → Option Cell
  /-- `duckdb_list_vector_get_size` -/
  size : ℕ
  alloc : ℕ
  listSize : ℕ
  buf : Buffer

/-- A vector with its child vectors. -/
abbrev Vec := PathTree ColState

/-- The messages of the `SQLException`s of the appender, with what they report. -/
inductive SqlError where
  | unknownTypeId
  | closed
  | rowNotEnded
  | noColumns
  | rowIncomplete (expected actual : ℕ)
  | rowUnpaired
  | rowNotBegun (call : String)
  | emptyStruct
  | structIncomplete (expected actual : ℕ)
  | structNotBegun
  | unionIncomplete
  | flushInRow
  | appenderError
  | columnNotFound (count : ℕ)
  | invalidColumnType (expected : List CAPIType) (actual : CAPIType)
  | invalidArrayColumnType (actual : CAPIType)
  | invalidInnerColumnType (expected : List CAPIType) (actual : CAPIType)
  | invalidArraySize (expected : ℕ) (actual : ℤ)
  | invalidNullMaskSize (expected actual : ℕ)
  | invalidListState (listSize count : ℕ)
  | bigIntegerOutOfRange
  | decimalInternalTypeMismatch (expected actual : CAPIType)
  | decimalPrecision (expected actual : ℕ)
  | decimalInternalPrecision (actual expected : ℕ) (internalType : CAPIType)
  | decimalScale (expected : ℕ) (actual : ℤ)
  | invalidDecimalInternalType (actual : CAPIType)
  | invalidType (actual : CAPIType)
  | daysOutOfRange (days : ℤ)
  | invalidTimestampColumn (actual : CAPIType)
  | iteratorCount (expected : ℤ) (actual : ℕ)
  | invalidTimestampObject
  | unsupportedComposite (actual : CAPIType)
  | unsupportedArray (actual : CAPIType)
  | unsupportedArray2D
  | structNotLinkedMap
  | structFieldsCount (expected actual : ℕ)
  | unionNotSimpleEntry
  | unionFieldNotFound (tag : String)
  | enumValue (value : String)
  | enumInternalType (actual : CAPIType)
  | invalidIndex
  | resetData
  | resetValidity
  deriving DecidableEq

/-- What a call of the appender throws. -/
inductive Exn where
  | sql (e : SqlError)
  | classCast
  | illegalArgument
  | bufferOverflow
  | bufferUnderflow
  | indexOutOfBounds
  | arithmetic
  deriving DecidableEq

/-- `SQLException` or a subclass. -/
def Exn.isSql : Exn → Bool
  | .sql _ => true
  | _ => false

/-- The engine behind the native calls.  Which vectors it moves is left open. -/
structure Engine where
  /-- `duckdb_vector_size` -/
  vectorSize : ℕ
  vectorSize_pos : 0 < vectorSize
  /-- a direct buffer of that many bytes can be created; its capacity is an `int` -/
  directBuffer : ℕ → Bool
  directBuffer_lt : ∀ n, directBuffer n = true → n < 2 ^ 31
  /-- `duckdb_list_vector_reserve`: which vectors below the child vector it moves -/
  reserveMoves : Vec → ℤ → List ℕ → Bool
  /-- `duckdb_data_chunk_reset`: which vectors of the chunk it moves -/
  resetMoves : Vec → List ℕ → Bool
  /-- `duckdb_append_default_to_chunk` for a column number and a row; `none` is an error state -/
  appendDefault : ℕ → ℕ → Vec → Option Vec

/-- Computations of the appender on a vector. -/
abbrev PutM (α : Type) := M Exn Vec α

/-- The cast `(int)` of a `long`. -/
def toInt (n : ℤ) : ℤ := n.bmod (2 ^ 32)

theorem toInt_of_lt {n : ℤ} (h0 : 0 ≤ n) (h : n < 2 ^ 31) : toInt n = n := by
  unfold toInt
  rw [Int.bmod_eq_of_le] <;> omega

theorem toInt_natCast {n : ℕ} (h : n < 2 ^ 31) : toInt n = n :=
  toInt_of_lt (Int.natCast_nonneg n) (by exact_mod_cast h)

namespace ColState

/-- Store cells from slot `base` on, through the direct buffer. -/
def write (c : ColState) (base : ℕ) (cells : List Cell) : ColState :=
  if c.buf.alloc = c.alloc then
    { c with data := fun j =>
        if base ≤ j ∧ j < base + cells.length then cells[j - base]? else c.data j }
  else c

/-- Clear a validity bit, through the direct buffer. -/
def clearValid (c : ColState) (j : ℕ) : ColState :=
  if c.buf.alloc = c.alloc then { c with valid := fun i => if i = j then false else c.valid i }
  else c

def setPos (c : ColState) (pos : ℕ) : ColState := { c with buf := { c.buf with pos := pos } }

def setSize (c : ColState) (n : ℕ) : ColState := { c with size := n }

def setListSize (c : ColState) (n : ℕ) : ColState := { c with listSize := n }

/-- Fetch `data` and `validity` anew, for `n` elements. -/
def fetch (c : ColState) (n : ℕ) : ColState := { c with buf := ⟨c.alloc, n, 0⟩ }

section
variable (c : ColState) (base j n : ℕ) (cells : List Cell)

@[simp] theorem write_buf : (c.write base cells).buf = c.buf := by unfold write; split <;> rfl
@[simp] theorem write_size : (c.write base cells).size = c.size := by unfold write; split <;> rfl
@[simp] theorem write_listSize : (c.write base cells).listSize = c.listSize := by
  unfold write; split <;> rfl
@[simp] theorem write_alloc : (c.write base cells).alloc = c.alloc := by
  unfold write; split <;> rfl
@[simp] theorem write_valid : (c.write base cells).valid = c.valid := by
  unfold write; split <;> rfl

@[simp] theorem clearValid_buf : (c.clearValid j).buf = c.buf := by unfold clearValid; split <;> rfl
@[simp] theorem clearValid_size : (c.clearValid j).size = c.size := by
  unfold clearValid; split <;> rfl
@[simp] theorem clearValid_listSize : (c.clearValid j).listSize = c.listSize := by
  unfold clearValid; split <;> rfl
@[simp] theorem clearValid_alloc : (c.clearValid j).alloc = c.alloc := by
  unfold clearValid; split <;> rfl
@[simp] theorem clearValid_data : (c.clearValid j).data = c.data := by
  unfold clearValid; split <;> rfl

end

end ColState

/-! ## Writes through the direct buffers of a column of `w` bytes per element -/

/-- `col.data.position(pos)`. -/
def setPosition (w : ℕ) (pos : ℤ) : PutM Unit := do
  let c ← getRoot
  require (0 ≤ pos ∧ pos ≤ c.buf.cap * w) .illegalArgument
  modifyRoot fun c => c.setPos pos.toNat

/-- Relative puts of `n` bytes in all, which fill the given cells. -/
def putHere (w : ℕ) (cells : List Cell) (n : ℕ) : PutM Unit := do
  let c ← getRoot
  require (c.buf.pos + n ≤ c.buf.cap * w) .bufferOverflow
  modifyRoot fun c => (c.write (c.buf.pos / w) cells).setPos (c.buf.pos + n)

/-- `col.data.position((int) (vectorIdx * widthBytes))` and the puts of one element. -/
def putCell (w vectorIdx : ℕ) (cell : Cell) : PutM Unit := do
  setPosition w (toInt (vectorIdx * w : ℕ))
  putHere w [cell] w

/-- A bulk put through a view such as `col.data.asIntBuffer()`: the view begins at the position
    of `data`. -/
def putView (w : ℕ) (pos : ℤ) (cells : List Cell) : PutM Unit := do
  let c ← getRoot
  let cap := (c.buf.cap * w - c.buf.pos) / w
  require (0 ≤ pos ∧ pos ≤ cap) .illegalArgument
  require (pos + cells.length ≤ cap) .bufferOverflow
  modifyRoot fun c => c.write (c.buf.pos / w + pos.toNat) cells

/-- A bulk put of bytes: `col.data.position(pos); col.data.put(bytes)`. -/
def putBytes (pos : ℤ) (cells : List Cell) : PutM Unit := do
  setPosition 1 pos
  putHere 1 cells cells.length

/-- The two puts of a list entry through `col.data.asLongBuffer()`. -/
def putEntry (vectorIdx : ℕ) (offset length : ℤ) : PutM Unit := do
  let c ← getRoot
  let pos := toInt (vectorIdx * CAPIType.list.widthBytes / 8 : ℕ)
  let cap := (c.buf.cap * CAPIType.list.widthBytes - c.buf.pos) / 8
  require (0 ≤ pos ∧ pos ≤ cap) .illegalArgument
  require (pos + 2 ≤ cap) .bufferOverflow
  modifyRoot fun c => c.write ((c.buf.pos / 8 + pos.toNat) / 2) [.entry offset length]

end DuckDBJava
