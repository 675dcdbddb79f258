/-
  `appendDefault`.

  `duckdb_append_default_to_chunk` takes the number of a column of the table, and only those have
  defaults.  The appender passes the number of the current column below its parent and does not
  look at the state that is returned.
-/
import DuckDBJava.Appender.Rows

namespace DuckDBJava

open Exec PathTree

/-- Slot `k` of `col`, with everything below it, is all that differs. -/
structure OnlySlot (col : Column) (k : ℕ) (v v' : Vec) : Prop where
  beside : ∀ p, ¬ col.path.reverse <+: p → (v' p).valid = (v p).valid ∧ (v' p).data = (v p).data
  rows : ∀ j, j ≠ k → decode col.type (v'.sub col.path) j = decode col.type (v.sub col.path) j

theorem OnlySlot.refl (col : Column) (k : ℕ) (v : Vec) : OnlySlot col k v v :=
  ⟨fun _ _ => ⟨rfl, rfl⟩, fun _ _ => rfl⟩

/-- `duckdb_append_default_to_chunk` writes the default of the `i`-th column of the table at the
    row, and nothing else, where it succeeds. -/
structure Engine.WritesDefaults (eng : Engine) (columns : List LogicalType) (default : ℕ → Value) :
    Prop where
  value : ∀ {i t row v v'}, columns[i]? = some t → eng.appendDefault i row v = some v' →
    decode t (v'.child i) row = some (default i)
  only : ∀ {i t row v v'}, columns[i]? = some t → eng.appendDefault i row v = some v' →
    OnlySlot (.top i t) row v v'

/-- The default of a column.  Fields have none of their own. -/
def columnDefault (default : ℕ → Value) : Column → Option Value
  | .top i _ => some (default i)
  | .child .. => none

variable {cfg : Config}

/-- The default of `col`, the current column, has been stored in the current slot, and the cursor
    has moved on. -/
structure DefaultStored (cfg : Config) (default : ℕ → Value) (col : Column) (s s' : Appender) :
    Prop where
  value : ∃ d, columnDefault default col = some d ∧
    decode col.type (s'.chunk.sub col.path) s.rowIdx = some d
  only : OnlySlot col s.rowIdx s.chunk s'.chunk
  current : s'.currentColumn = nextColumn cfg.columns col
  prev : s'.prevColumn = some col

/-- `appendDefault` stores the default in the slot of the current column and moves on, or throws
    `SQLException` and leaves the chunk and the cursor as they are. -/
def DefaultOnlyHere (cfg : Config) (default : ℕ → Value) (s : Appender) : Prop :=
  (∃ col s', appendDefault cfg s = .ok () s' ∧ s.currentColumn = some col ∧
    DefaultStored cfg default col s s') ∨
  (∃ e s', appendDefault cfg s = .error e s' ∧ e.isSql ∧ s'.chunk = s.chunk ∧
    s'.currentColumn = s.currentColumn ∧ s'.prevColumn = s.prevColumn)

/-- No column is current, or it is a column of the table whose default the engine writes or whose
    slot already has it. -/
def DefaultFits (cfg : Config) (default : ℕ → Value) (s : Appender) : Prop :=
  s.closed = true ∨ s.currentColumn = none ∨
    ∃ i t, s.currentColumn = some (.top i t) ∧
      ((cfg.eng.appendDefault i s.rowIdx s.chunk).isSome = true ∨
        decode t (s.chunk.child i) s.rowIdx = some (default i))

theorem appendDefault_apply (cfg : Config) {s : Appender} {col : Column} (h : s.closed = false)
    (hc : s.currentColumn = some col) :
    appendDefault cfg s = .ok () (s.supplied cfg col (defaultWritten cfg col s)) := by
  rw [appendDefault, currentColumn_bind cfg h hc, modify_bind]
  exact moveToNextColumn_apply cfg h hc

/-- The fields of the `Column`s are no slots. -/
theorem sameSlots_nativeWrite (v v' : Vec) : SameSlots v' (nativeWrite v v') :=
  fun _ => ⟨rfl, rfl⟩

theorem OnlySlot.nativeWrite {col : Column} {k : ℕ} {v v' : Vec} (h : OnlySlot col k v v') :
    OnlySlot col k v (nativeWrite v v') := by
  refine ⟨h.beside, fun j hj => ?_⟩
  rw [← h.rows j hj]
  refine decode_congr col.type (fun p => ?_) j
  rw [sub_apply, sub_apply]
  exact sameSlots_nativeWrite v v' _

/-- Where the engine writes the default of the current column, only its slot differs. -/
theorem defaultStored_of_top {default : ℕ → Value} {s : Appender} {i : ℕ} {t : LogicalType}
    (heng : cfg.eng.WritesDefaults cfg.columns default) (hin : cfg.columns[i]? = some t)
    (hfits : (cfg.eng.appendDefault i s.rowIdx s.chunk).isSome = true ∨
      decode t (s.chunk.child i) s.rowIdx = some (default i)) :
    DefaultStored cfg default (.top i t) s
      (s.supplied cfg (.top i t) (defaultWritten cfg (.top i t) s)) := by
  show DefaultStored _ _ _ _ { s with
    chunk := ((cfg.eng.appendDefault i s.rowIdx s.chunk).map (nativeWrite s.chunk)).getD s.chunk
    prevColumn := _, currentColumn := _ }
  cases hx : cfg.eng.appendDefault i s.rowIdx s.chunk with
  | none =>
    rw [hx, or_iff_right (by decide)] at hfits
    exact ⟨⟨_, rfl, hfits⟩, .refl _ _ _, rfl, rfl⟩
  | some v =>
    refine ⟨⟨_, rfl, ?_⟩, (heng.only hin hx).nativeWrite, rfl, rfl⟩
    rw [← heng.value hin hx]
    exact decode_congr t ((sameSlots_nativeWrite s.chunk v).child i) _

/-- **`appendDefault` writes only its own slot.**  In every reachable state, if the engine writes
    the default of the column of the table it is asked for or nothing, `appendDefault` stores the
    default of the current column in its slot and moves on or throws and changes nothing, if and
    only if there is no current column, or it is a column of the table and the engine succeeds or
    the slot has the default already. -/
theorem appendDefault_only_here_iff {s₀ : Appender} (h₀ : create cfg = .ok s₀) {default : ℕ → Value}
    (heng : cfg.eng.WritesDefaults cfg.columns default) (calls : List (Call × Natives)) :
    DefaultOnlyHere cfg default (exec cfg s₀ calls) ↔
      DefaultFits cfg default (exec cfg s₀ calls) := by
  have hin := fun col hc => ((cursorInv_history h₀ calls).cur col hc).1
  generalize exec cfg s₀ calls = s at hin
  cases hclosed : s.closed with
  | true =>
    obtain ⟨e, he, hx⟩ := currentColumn_error cfg (.inl hclosed) _
    exact iff_of_true (.inr ⟨e, s, hx, he, rfl, rfl, rfl⟩) (.inl hclosed)
  | false =>
    cases hcur : s.currentColumn with
    | none =>
      obtain ⟨e, he, hx⟩ := currentColumn_error cfg (.inr hcur) _
      exact iff_of_true (.inr ⟨e, s, hx, he, rfl, rfl, rfl⟩) (.inr (.inl hcur))
    | some col =>
      have happly := appendDefault_apply cfg hclosed hcur
      constructor
      · rintro (⟨col', s', hx, hcur', hstored⟩ | ⟨e, s', hx, -⟩)
        · rw [happly] at hx
          cases hx
          rw [hcur] at hcur'
          cases hcur'
          obtain ⟨d, hd, hdecode⟩ := hstored.value
          cases col with
          | child p i t => cases hd
          | top i t =>
            cases hd
            refine .inr (.inr ⟨i, t, hcur, ?_⟩)
            cases hwritten : cfg.eng.appendDefault i s.rowIdx s.chunk with
            | some v => exact .inl rfl
            | none =>
              have hchunk : defaultWritten cfg (.top i t) s = s.chunk := by
                show ((cfg.eng.appendDefault i s.rowIdx s.chunk).map _).getD _ = _
                rw [hwritten]
                rfl
              rw [Appender.supplied, hchunk] at hdecode
              exact .inr hdecode
        · rw [happly] at hx
          cases hx
      · rintro (hcl | hnone | ⟨i, t, htop, hfits⟩)
        · rw [hclosed] at hcl
          cases hcl
        · rw [hcur] at hnone
          cases hnone
        · rw [hcur] at htop
          cases htop
          exact .inl ⟨_, _, happly, hcur,
            defaultStored_of_top heng (hin (.top i t) hcur) hfits⟩

/-! ## A table with a default -/

/-- The engine's default of the first column is 7. -/
def Engine.seven : Engine :=
  { Engine.still with
    appendDefault := fun i row v =>
      if i = 0 then
        some (v.setChild 0 ((v.child 0).setRoot
          { (v.child 0).root.store row (.fixed 7) with
            valid := fun j => j = row || (v.child 0).root.valid j }))
      else none }

/-- A table `(i INTEGER DEFAULT 7, s STRUCT(a INTEGER))`. -/
def defaultTable : TableType :=
  ⟨[.integer, .node (.struct ["a"]) [.integer]], List.cons_ne_nil _ _, by
    intro t ht
    rcases List.mem_cons.1 ht with rfl | ht
    · exact LogicalType.integer_wf
    · rw [List.mem_singleton.1 ht]
      exact structTable.wf _ (List.mem_singleton_self _)⟩

def defaultConfig : Config := ⟨.seven, defaultTable, true⟩

theorem seven_writesDefaults :
    defaultConfig.eng.WritesDefaults defaultConfig.columns (fun _ => .fixed 7) := by
  have hwritten : ∀ {i row v v'}, Engine.seven.appendDefault i row v = some v' → i = 0 ∧
      v' = v.setChild 0 ((v.child 0).setRoot { (v.child 0).root.store row (.fixed 7) with
        valid := fun j => j = row || (v.child 0).root.valid j }) := by
    intro i row v v' h
    simp only [Engine.seven] at h
    split at h
    · next hi => exact ⟨hi, (Option.some.inj h).symm⟩
    · cases h
  constructor
  · intro i t row v v' ht h
    obtain ⟨rfl, rfl⟩ := hwritten h
    cases ht
    simp [LogicalType.integer, decode, ColState.store, Cell.value]
  · intro i t row v v' ht h
    obtain ⟨rfl, rfl⟩ := hwritten h
    cases ht
    refine ⟨fun p hp => ?_, fun j hj => ?_⟩
    · cases p with
      | nil => exact ⟨rfl, rfl⟩
      | cons i p =>
        have hi : i ≠ 0 := by
          rintro rfl
          exact hp ⟨p, rfl⟩
        rw [setChild_cons, if_neg hi]
        exact ⟨rfl, rfl⟩
    · simp [Column.path, Column.type, PathTree.sub, LogicalType.integer, decode, ColState.store, hj]

theorem appendDefault_only_here_seven :
    DefaultOnlyHere defaultConfig (fun _ => .fixed 7)
      (exec defaultConfig defaultConfig.start [(.beginRow, .success)]) :=
  (appendDefault_only_here_iff (create_eq_start (by decide)) seven_writesDefaults _).2
    (.inr (.inr ⟨0, .integer, rfl, .inl rfl⟩))

/-- At the field of the second column, `appendDefault` overwrites the value of the first. -/
theorem appendDefault_at_field : ¬ ∀ (cfg : Config) (s₀ : Appender), create cfg = .ok s₀ →
    ∀ default : ℕ → Value, cfg.eng.WritesDefaults cfg.columns default →
      ∀ calls : List (Call × Natives), DefaultOnlyHere cfg default (exec cfg s₀ calls) := by
  intro h
  have := h defaultConfig _ (create_eq_start (by decide)) _ seven_writesDefaults
    [(.beginRow, .success), (.append (.int 1), .success), (.beginStruct, .success)]
  rcases this with ⟨col, s', hx, hcur, hstored⟩ | ⟨e, s', hx, -⟩
  · cases hx
    have hsame := (hstored.only.beside [0] (by cases hcur; decide)).2
    have hcell := congrFun hsame 0
    revert hcell
    decide
  · cases hx

end DuckDBJava
