/-
  What the slots of a vector mean: DuckDB's reading of a chunk.

  The slot of a field of a `STRUCT` or `UNION` is that of its parent, slot `k` of an `ARRAY` of
  `n` elements has the slots `k * n`, …, `k * n + n - 1` of its child, and the entry of a `LIST`
  or `MAP` names a range of its child.
-/
import DuckDBJava.Appender.Memory

namespace DuckDBJava

open PathTree

/-- A decoded value.  A `UNION` has the number of its member. -/
inductive Value where
  | null
  | fixed (bits : ℕ)
  | string (bytes : List UInt8)
  | list (elems : List Value)
  | array (elems : List Value)
  | struct (fields : List Value)
  | union (member : ℕ) (value : Value)

/-- `f` at the `n` slots from `o` on. -/
def collect {α : Type} (o : ℕ) : ℕ → (ℕ → Option α) → Option (List α)
  | 0, _ => some []
  | n + 1, f => do return (← f o) :: (← collect (o + 1) n f)

/-- The value of a cell without children. -/
def Cell.value : Cell → Option Value
  | .fixed bits => some (.fixed bits)
  | .string bytes => some (.string bytes)
  | .entry .. => none

mutual

/-- The value in slot `k`; `none` where the value depends on memory that was never written. -/
def decode : LogicalType → Vec → ℕ → Option Value
  | .node kind cs, v, k =>
    if v.root.valid k = false then some .null
    else
      match kind with
      | .list | .map =>
        match v.root.data k with
        | some (.entry offset length) =>
          if 0 ≤ offset ∧ 0 ≤ length then
            (collect offset.toNat length.toNat fun j => decodeChild cs 0 (v.child 0) j).map .list
          else none
        | _ => none
      | .array n => (collect (k * n) n fun j => decodeChild cs 0 (v.child 0) j).map .array
      | .struct _ => (decodeFields cs 0 v k).map .struct
      | .union _ =>
        match decodeChild cs 0 (v.child 0) k with
        | some (.fixed tag) => (decodeChild cs (tag + 1) (v.child (tag + 1)) k).map (.union tag)
        | _ => none
      | _ => (v.root.data k).bind Cell.value

/-- The value in slot `k` of the vector `v` of the `i`-th child. -/
def decodeChild : List LogicalType → ℕ → Vec → ℕ → Option Value
  | [], _, _, _ => none
  | t :: _, 0, v, k => decode t v k
  | _ :: ts, i + 1, v, k => decodeChild ts i v k

/-- The values in slot `k` of the children from the `i`-th on. -/
def decodeFields : List LogicalType → ℕ → Vec → ℕ → Option (List Value)
  | [], _, _, _ => some []
  | t :: ts, i, v, k => do return (← decode t (v.child i) k) :: (← decodeFields ts (i + 1) v k)

end

/-! ## Slots -/

/-- The slots of two vectors are the same. -/
def SameSlots (v v' : Vec) : Prop := ∀ p, (v' p).valid = (v p).valid ∧ (v' p).data = (v p).data

theorem SameSlots.child {v v' : Vec} (h : SameSlots v v') (i : ℕ) :
    SameSlots (v.child i) (v'.child i) := fun p => h (i :: p)

mutual

/-- The value depends on the slots only. -/
theorem decode_congr : ∀ (t : LogicalType) {v v' : Vec}, SameSlots v v' → ∀ k,
    decode t v' k = decode t v k
  | .node kind cs, v, v', h, k => by
    have hvalid : v'.root.valid k = v.root.valid k := congrFun (h []).1 k
    have hdata : v'.root.data k = v.root.data k := congrFun (h []).2 k
    have hchild := fun i j => decodeChild_congr cs i (h.child 0) j
    cases kind with
    | list | map => simp only [decode, hvalid, hdata, hchild]
    | array n => simp only [decode, hvalid, hchild]
    | struct ns => simp only [decode, hvalid, decodeFields_congr cs 0 h k]
    | union ns =>
      simp only [decode, hvalid, hchild]
      cases decodeChild cs 0 (v.child 0) k with
      | none => rfl
      | some x =>
        cases x with
        | fixed tag => simp only [decodeChild_congr cs (tag + 1) (h.child (tag + 1)) k]
        | _ => rfl
    | _ => simp only [decode, hvalid, hdata]

theorem decodeChild_congr : ∀ (ts : List LogicalType) (i : ℕ) {v v' : Vec}, SameSlots v v' → ∀ k,
    decodeChild ts i v' k = decodeChild ts i v k
  | [], _, _, _, _, _ => rfl
  | t :: _, 0, _, _, h, k => decode_congr t h k
  | _ :: ts, i + 1, _, _, h, k => decodeChild_congr ts i h k

theorem decodeFields_congr : ∀ (ts : List LogicalType) (i : ℕ) {v v' : Vec}, SameSlots v v' →
    ∀ k, decodeFields ts i v' k = decodeFields ts i v k
  | [], _, _, _, _, _ => rfl
  | t :: ts, i, v, v', h, k => by
    rw [decodeFields, decodeFields, decode_congr t (h.child i) k,
      decodeFields_congr ts (i + 1) h k]

end

end DuckDBJava
