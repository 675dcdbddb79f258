/-
  One fixed-width value in the slot of the current column.

  `putCell_holds`: where the data buffer is over the present memory of the vector and holds the
  slot, the puts of one element store it there, and nowhere else.
-/
import DuckDBJava.Appender.Steps

namespace DuckDBJava

open Exec PathTree

namespace ColState

/-- The data buffer, of `w` bytes per element, is over the present memory and holds slot `k`. -/
structure Holds (c : ColState) (w k : ℕ) : Prop where
  alloc : c.buf.alloc = c.alloc
  lt : k < c.buf.cap
  /-- the capacity of a `ByteBuffer` is an `int` -/
  int : c.buf.cap * w < 2 ^ 31

/-- `cell` is in slot `k`, and the buffer is behind it. -/
def put (c : ColState) (w k : ℕ) (cell : Cell) : ColState :=
  { c with
    data := fun j => if j = k then some cell else c.data j
    buf := { c.buf with pos := k * w + w } }

theorem put_data_self (c : ColState) (w k : ℕ) (cell : Cell) :
    (c.put w k cell).data k = some cell :=
  if_pos rfl

theorem write_singleton {c : ColState} (h : c.buf.alloc = c.alloc) (k : ℕ) (cell : Cell) :
    c.write k [cell] = { c with data := fun j => if j = k then some cell else c.data j } := by
  rw [write, if_pos h]
  congr 1
  funext j
  by_cases hj : j = k
  · subst hj
    have hrange : j ≤ j ∧ j < j + [cell].length := ⟨le_rfl, by simp⟩
    rw [if_pos hrange, if_pos rfl, Nat.sub_self]
    rfl
  · have hrange : ¬ (k ≤ j ∧ j < k + [cell].length) := by
      rw [List.length_singleton]
      omega
    rw [if_neg hrange, if_neg hj]

theorem Holds.slot_le {c : ColState} {w k : ℕ} (h : c.Holds w k) : k * w + w ≤ c.buf.cap * w := by
  rw [← Nat.succ_mul]
  exact Nat.mul_le_mul_right w h.lt

end ColState

/-- The puts of one element. -/
theorem putCell_holds {w k : ℕ} {v : Vec} (hw : 0 < w) (h : v.root.Holds w k) (cell : Cell) :
    putCell w k cell v = .ok () (v.setRoot (v.root.put w k cell)) := by
  have hle := h.slot_le
  have hint : toInt (k * w : ℕ) = (k * w : ℕ) := toInt_natCast (by have := h.int; omega)
  have hpos : (0 : ℤ) ≤ (k * w : ℕ) ∧ ((k * w : ℕ) : ℤ) ≤ v.root.buf.cap * w := by
    refine ⟨Int.natCast_nonneg _, ?_⟩
    exact_mod_cast (Nat.le_add_right _ _).trans hle
  have hfits : (v.root.setPos (k * w)).buf.pos + w ≤ (v.root.setPos (k * w)).buf.cap * w := hle
  have hset : setPosition w (k * w : ℕ) v = .ok () (v.setRoot (v.root.setPos (k * w))) := by
    rw [setPosition, getRoot_bind, require_bind, if_pos hpos, modifyRoot_apply, Int.toNat_natCast]
  rw [putCell, hint, bind_ok hset]
  rw [putHere, getRoot_bind, require_bind, if_pos (by exact hfits), modifyRoot_apply]
  refine congrArg (EStateM.Result.ok ()) ?_
  have hslot : (v.root.setPos (k * w)).buf.pos / w = k := Nat.mul_div_cancel k hw
  simp only [root_setRoot, hslot]
  rw [ColState.write_singleton (by exact h.alloc)]
  exact PathTree.ext rfl fun _ => rfl

/-! ## The current column -/

/-- The appender is open, `col` is its current column, and the data buffer of `col` holds the
    current row. -/
structure Appender.CanPut (s : Appender) (col : Column) : Prop where
  isOpen : s.closed = false
  current : s.currentColumn = some col
  holds : (s.chunk.sub col.path).root.Holds col.kind.widthBytes s.rowIdx

/-- The cell in slot `k` of `col`. -/
def cellAt (chunk : Vec) (col : Column) (k : ℕ) : Option Cell := (chunk.sub col.path).root.data k

section
variable {cfg : Config} {s : Appender} {col : Column}

/-- The chunk with `cell` in the current slot of `col`. -/
def Appender.chunkWith (s : Appender) (col : Column) (cell : Cell) : Vec :=
  s.chunk.setSub col.path ((s.chunk.sub col.path).setRoot
    ((s.chunk.sub col.path).root.put col.kind.widthBytes s.rowIdx cell))

theorem cellAt_chunkWith (s : Appender) (col : Column) (cell : Cell) :
    cellAt (s.chunkWith col cell) col s.rowIdx = some cell := by
  rw [cellAt, Appender.chunkWith, sub_setSub_self, root_setRoot]
  exact ColState.put_data_self ..

variable (cfg) in
/-- How a call ends that puts one cell or throws. -/
def Appender.putResult (s : Appender) (col : Column) :
    Except Exn Cell → EStateM.Result Exn Appender Unit
  | .ok cell => .ok () (s.supplied cfg col (s.chunkWith col cell))
  | .error e => .error e s

theorem append_cell {a : Append} {r : Except Exn Cell} (h : s.CanPut col)
    (hw : 0 < col.kind.widthBytes) (ha : ∀ v, a.write (s.env cfg) col v =
      (do putCell col.kind.widthBytes s.rowIdx (← orThrow r) : PutM Unit) v) :
    append cfg a s = s.putResult cfg col r := by
  rw [append_apply cfg a h.isOpen h.current, ha]
  cases r with
  | ok cell =>
    have hput : (do putCell col.kind.widthBytes s.rowIdx (← orThrow (.ok cell)) : PutM Unit)
        (s.chunk.sub col.path) = .ok () ((s.chunk.sub col.path).setRoot
          ((s.chunk.sub col.path).root.put col.kind.widthBytes s.rowIdx cell)) :=
      (bind_ok rfl).trans (putCell_holds hw h.holds cell)
    rw [hput]
    rfl
  | error e =>
    have hthrow : (do putCell col.kind.widthBytes s.rowIdx (← orThrow (.error e)) : PutM Unit)
        (s.chunk.sub col.path) = .error e (s.chunk.sub col.path) := bind_error rfl
    rw [hthrow]
    show EStateM.Result.error e
      { s with chunk := s.chunk.setSub col.path (s.chunk.sub col.path) } = _
    rw [setSub_sub]
    rfl

/-- An overload without inner columns. -/
theorem write_apply {a : Append} (ht : col.colType ∈ a.types) (hi : a.innerTypes = []) (env : Env)
    (v : Vec) : a.write env col v = (a.stored col.colType).put env col env.rowIdx v := by
  rw [Append.write, checkColumnType, bind_ok (require_of ht _ _), hi]
  rfl

/-- An overload that stores one value of fixed width, or fails to convert it. -/
theorem append_fixed {a : Append} {r : Except Exn Cell} (h : s.CanPut col)
    (ht : col.colType ∈ a.types) (hi : a.innerTypes = []) (hst : a.stored col.colType = .fixed r)
    (hw : col.kind.widthBytes = col.colType.widthBytes) (hpos : 0 < col.colType.widthBytes) :
    append cfg a s = s.putResult cfg col r := by
  refine append_cell h (hw ▸ hpos) fun v => ?_
  rw [write_apply ht hi, hst, hw]
  rfl

end

end DuckDBJava
