/-
  The rows a `DuckDBResultSet` goes through.

  `At k rs` says where the result set is after `k` calls of `next`: before the first row, on the
  `k`-th row of all chunks, behind the end marker, or closed by a failed fetch.
  **`row_enumeration_iff`**: every call is answered accordingly, but for `getLocalTime` off the rows
  or with a bad column index, and a fetch that throws anything but an `SQLException`.
-/
import DuckDBJava.Result.Cells

namespace DuckDBJava

open Calls

/-! ## Chunks and rows -/

/-- A chunk that is not empty: `n` vectors of one length. -/
structure Chunk (n : ℕ) where
  columns : List ColumnVector
  length : ℕ
  columns_length : columns.length = n
  vector_length : ∀ v ∈ columns, v.length = length
  length_pos : 0 < length

/-- How the fetches of a result end: with the end marker, or with a failure and anything behind. -/
inductive Ending where
  | marker
  | failure (e : GetterException) (later : List Fetch)

namespace Ending

def fetches : Ending → List Fetch
  | marker => []
  | failure e later => .failure e :: later

/-- `fetchChunk` catches the exception, if there is one. -/
def caught : Ending → Bool
  | marker => true
  | failure e _ => e.isSql

end Ending

namespace Chunk

variable {n : ℕ}

/-- The rows of chunks behind each other. -/
def rows (chunks : List (Chunk n)) : List (Chunk n × ℕ) :=
  chunks.flatMap fun c => (List.range c.length).map (c, ·)

/-- What the fetches of a result return. -/
def fetched (chunks : List (Chunk n)) (ending : Ending) : List Fetch :=
  chunks.map (.chunk ·.columns) ++ ending.fetches

/-- The vector and the row in it of a column, for the `k`-th row. -/
def cell (chunks : List (Chunk n)) (k : ℕ) (columnIndex : ℤ) : Option (ColumnVector × ℕ) :=
  if k = 0 ∨ columnIndex < 1 then none
  else do
    let (c, row) ← (rows chunks)[k - 1]?
    let v ← c.columns[(columnIndex - 1).toNat]?
    return (v, row)

variable {chunks : List (Chunk n)} (done rest : List (Chunk n)) {c : Chunk n} {i : ℕ}

/-- A row of the chunk behind `done`. -/
theorem rows_get (hi : i < c.length) :
    (rows (done ++ c :: rest))[(rows done).length + i]? = some (c, i) := by
  have hrow : i < ((List.range c.length).map (c, ·)).length := by
    rwa [List.length_map, List.length_range]
  rw [rows, List.flatMap_append, List.flatMap_cons]
  show (rows done ++ _)[_]? = _
  rw [List.getElem?_append_right (Nat.le_add_right _ _), Nat.add_sub_cancel_left,
    List.getElem?_append_left hrow, List.getElem?_map, List.getElem?_range hi]
  rfl

theorem length_rows_append_singleton :
    (rows (done ++ [c])).length = (rows done).length + c.length := by
  rw [rows, List.flatMap_append, List.length_append, List.flatMap_cons, List.flatMap_nil,
    List.append_nil, List.length_map, List.length_range]
  rfl

theorem cell_eq (hi : i < c.length) (columnIndex : ℤ) :
    cell (done ++ c :: rest) ((rows done).length + i + 1) columnIndex =
      if columnIndex < 1 then none
      else (c.columns[(columnIndex - 1).toNat]?).map (·, i) := by
  rw [cell, Nat.add_sub_cancel, rows_get done rest hi]
  by_cases hcolumn : columnIndex < 1
  · rw [if_pos (.inr hcolumn), if_pos hcolumn]
  · have hk : ¬ ((rows done).length + i + 1 = 0 ∨ columnIndex < 1) :=
      not_or.2 ⟨Nat.succ_ne_zero _, hcolumn⟩
    rw [if_neg hk, if_neg hcolumn]
    exact Option.map_eq_bind.symm

theorem cell_none {k : ℕ} (hk : (rows chunks).length < k) (columnIndex : ℤ) :
    cell chunks k columnIndex = none := by
  rw [cell]
  split
  · rfl
  · rw [List.getElem?_eq_none (by omega)]
    rfl

end Chunk

/-! ## Calls -/

/-- The calls on a result set. -/
inductive ResultSetCall where
  | next
  | get (columnIndex : BitVec 32) (g : Getter)
  | wasNull

namespace DuckDBResultSet

open Chunk

variable (env : ResultSetEnv)

/-- A call, with the number of calls of `next` so far. -/
def step : ℕ × DuckDBResultSet → ResultSetCall → ℕ × DuckDBResultSet
  | (k, rs), .next => (k + 1, rs.next.2)
  | (k, rs), .get columnIndex g => (k, (rs.get env columnIndex.toInt g).2)
  | s, .wasNull => s

variable (chunks : List (Chunk env.columnCount)) (ending : Ending)

/-- What `next` is to do behind the last row, for the first time or later. -/
def EndsAsClaimed (rs : DuckDBResultSet) (first : Prop) : Ending → Prop
  | .marker => rs.next.1 = .ok false ∧ (¬ first → rs.next.2.fetches = rs.fetches)
  | .failure _ _ => (∃ e, rs.next.1 = .error e ∧ e.isSql = true) ∧ rs.next.2.closed = true

/-- What the calls are to return: after `k` calls of `next` the result set is on the `k`-th row, and
    behind the last one at the end or closed by the failed fetch. -/
def AsClaimed : ℕ × DuckDBResultSet → ResultSetCall → Prop
  | (k, rs), .next =>
    if k < (rows chunks).length then rs.next.1 = .ok true
    else EndsAsClaimed rs (k = (rows chunks).length) ending
  | (k, rs), .get columnIndex g =>
    match cell chunks k columnIndex.toInt with
    | some (v, row) => (rs.get env columnIndex.toInt g).1 = g.value env columnIndex.toInt v row
    | none => ∃ e, (rs.get env columnIndex.toInt g).1 = .error e ∧ e.isSql = true
  | (k, rs), .wasNull => ending ≠ .marker → (rows chunks).length < k →
    ∃ e, rs.getWasNull = .error e ∧ e.isSql = true

/-- `getLocalTime` is called on a row only, with the index of a column, and `next` does not go to a
    fetch whose exception is not caught. -/
def Meets : ℕ × DuckDBResultSet → ResultSetCall → Prop
  | (k, _), .next => k = (rows chunks).length → ending.caught = true
  | (k, _), .get columnIndex g =>
    g = .vector .localTime → (cell chunks k columnIndex.toInt).isSome = true
  | _, .wasNull => True

/-! ## Positions -/

/-- Where a result set is after `k` calls of `next`. -/
inductive At : ℕ → DuckDBResultSet → Prop
  | before {rs : DuckDBResultSet} : rs.closed = false → rs.finished = false →
      rs.currentChunk = [] → rs.pending = fetched chunks ending → At 0 rs
  | onRow {rs : DuckDBResultSet} (done rest : List (Chunk env.columnCount))
      (c : Chunk env.columnCount) (i : ℕ) : chunks = done ++ c :: rest → rs.closed = false →
      rs.finished = false → rs.currentChunk = c.columns → rs.chunkIdx = i + 1 → i < c.length →
      rs.pending = fetched rest ending → At ((rows done).length + i + 1) rs
  | ended {rs : DuckDBResultSet} {k : ℕ} : ending = .marker → rs.closed = false →
      rs.finished = true → rs.currentChunk = [] → (rows chunks).length < k → At k rs
  | failed {rs : DuckDBResultSet} {k : ℕ} : ending ≠ .marker → rs.closed = true →
      (∀ v ∈ rs.currentChunk, v.length < rs.chunkIdx) → (rows chunks).length < k → At k rs

variable {env chunks ending} {rs : DuckDBResultSet} {k : ℕ}

theorem At.new : At env chunks ending 0 (new (fetched chunks ending)) := .before rfl rfl rfl rfl

/-- The check of a cell does not move. -/
theorem At.withNull (h : At env chunks ending k rs) (b : Bool) :
    At env chunks ending k (rs.withNull b) := by
  cases h with
  | before hopen hfin hchunk hpend => exact .before hopen hfin hchunk hpend
  | onRow done rest c i heq hopen hfin hchunk hidx hi hpend =>
    exact .onRow done rest c i heq hopen hfin hchunk hidx hi hpend
  | ended hend hopen hfin hchunk hk => exact .ended hend hopen hfin hchunk hk
  | failed hend hclosed hchunk hk => exact .failed hend hclosed hchunk hk

/-- `next` where the chunk is used up. -/
theorem next_fetch (hopen : rs.closed = false) (hfin : rs.finished = false)
    (hused : ∀ v ∈ rs.currentChunk, v.length < rs.chunkIdx + 1) :
    rs.next = match fetchChunk { rs with chunkIdx := rs.chunkIdx + 1 } with
      | (.error e, rs) => (.error e, rs)
      | (.ok [], rs) => (.ok false, { rs with currentChunk := [], chunkIdx := 1, finished := true })
      | (.ok columns, rs) => (.ok true, { rs with currentChunk := columns, chunkIdx := 1 }) := by
  have hneeds : needsFetch { rs with chunkIdx := rs.chunkIdx + 1 } = true := by
    rw [needsFetch]
    split
    · rfl
    · next v rest hchunk =>
      exact decide_eq_true (hused v (hchunk ▸ List.mem_cons_self))
  rw [next, if_neg (by rw [hopen]; decide), if_neg (by rw [hfin]; decide)]
  exact if_pos hneeds

/-- Behind the chunks `done`, `next` goes to the first row of the next chunk. -/
theorem next_chunk (hn : 0 < env.columnCount) (done rest : List (Chunk env.columnCount))
    (heq : chunks = done ++ rest) (hopen : rs.closed = false) (hfin : rs.finished = false)
    (hused : ∀ v ∈ rs.currentChunk, v.length < rs.chunkIdx + 1)
    (hpend : rs.pending = fetched rest ending) :
    (AsClaimed env chunks ending ((rows done).length, rs) .next ↔
        Meets env chunks ending ((rows done).length, rs) .next) ∧
      (Meets env chunks ending ((rows done).length, rs) .next →
        At env chunks ending ((rows done).length + 1) rs.next.2) := by
  have hnext := next_fetch hopen hfin hused
  cases rest with
  | nil =>
    rw [List.append_nil] at heq
    subst heq
    rw [AsClaimed, if_neg (lt_irrefl _), Meets]
    cases ending with
    | marker =>
      rw [fetchChunk, hpend] at hnext
      rw [EndsAsClaimed, hnext]
      exact ⟨iff_of_true ⟨rfl, fun h => absurd rfl h⟩ fun _ => rfl,
        fun _ => .ended rfl hopen rfl rfl (Nat.lt_succ_self _)⟩
    | failure e later =>
      rw [fetchChunk, hpend] at hnext
      rw [EndsAsClaimed, hnext]
      -- the result set is closed where the exception is caught
      refine ⟨⟨fun h _ => h.2, fun h => ⟨⟨e, rfl, h rfl⟩, h rfl⟩⟩, fun h => ?_⟩
      exact .failed nofun (h rfl) hused (Nat.lt_succ_self _)
  | cons c rest =>
    obtain ⟨v, columns, hcolumns⟩ : ∃ v columns, c.columns = v :: columns :=
      List.exists_cons_of_length_pos (by rw [c.columns_length]; exact hn)
    have hk : (rows done).length < (rows chunks).length := by
      have hget := rows_get done rest c.length_pos
      rw [heq]
      exact (List.getElem?_eq_some_iff.1 hget).1
    rw [fetchChunk, hpend, fetched, List.map_cons, List.cons_append, hcolumns] at hnext
    rw [AsClaimed, if_pos hk, hnext, Meets]
    refine ⟨iff_of_true rfl fun h => absurd h hk.ne, fun _ => ?_⟩
    exact .onRow done rest c 0 heq hopen hfin hcolumns.symm rfl c.length_pos rfl

theorem At.next (hn : 0 < env.columnCount) (h : At env chunks ending k rs) :
    (AsClaimed env chunks ending (k, rs) .next ↔ Meets env chunks ending (k, rs) .next) ∧
      (Meets env chunks ending (k, rs) .next → At env chunks ending (k + 1) rs.next.2) := by
  cases h with
  | before hopen hfin hchunk hpend =>
    refine next_chunk hn [] chunks rfl hopen hfin ?_ hpend
    rw [hchunk]
    exact fun v hv => absurd hv List.not_mem_nil
  | onRow done rest c i heq hopen hfin hchunk hidx hi hpend =>
    by_cases hlast : i + 1 < c.length
    · obtain ⟨v, columns, hcolumns⟩ : ∃ v columns, c.columns = v :: columns :=
        List.exists_cons_of_length_pos (by rw [c.columns_length]; exact hn)
      have hlength := c.vector_length v (hcolumns ▸ List.mem_cons_self)
      have hneeds : needsFetch { rs with chunkIdx := rs.chunkIdx + 1 } = false := by
        rw [needsFetch, hchunk, hcolumns]
        exact decide_eq_false (show ¬ v.length < rs.chunkIdx + 1 by omega)
      have hnext : rs.next = (.ok true, { rs with chunkIdx := rs.chunkIdx + 1 }) := by
        rw [DuckDBResultSet.next, if_neg (by rw [hopen]; decide), if_neg (by rw [hfin]; decide)]
        exact if_neg (by rw [hneeds]; decide)
      have hget := rows_get done rest hlast
      rw [← heq, ← Nat.add_assoc] at hget
      have hk := (List.getElem?_eq_some_iff.1 hget).1
      rw [AsClaimed, if_pos hk, hnext, Meets]
      refine ⟨iff_of_true rfl fun h => absurd h hk.ne, fun _ => ?_⟩
      exact .onRow done rest c (i + 1) heq hopen hfin hchunk (by rw [hidx]) hlast hpend
    · have hi' : i + 1 = c.length := by omega
      have hdone : (rows done).length + i + 1 = (rows (done ++ [c])).length := by
        rw [length_rows_append_singleton]
        omega
      rw [hdone]
      refine next_chunk hn (done ++ [c]) rest (by rw [heq, List.append_assoc]; rfl) hopen hfin ?_
        hpend
      intro v hv
      rw [c.vector_length v (hchunk ▸ hv)]
      omega
  | ended hend hopen hfin hchunk hk =>
    have hnext : rs.next = (.ok false, rs) := by
      rw [DuckDBResultSet.next, if_neg (by rw [hopen]; decide), if_pos hfin]
    subst hend
    rw [AsClaimed, if_neg (by omega), EndsAsClaimed, hnext, Meets]
    exact ⟨iff_of_true ⟨rfl, fun _ => rfl⟩ fun _ => rfl,
      fun _ => .ended rfl hopen hfin hchunk (by omega)⟩
  | failed hend hclosed hchunk hk =>
    have hnext : rs.next = (.error .resultSetClosed, rs) := if_pos hclosed
    cases ending with
    | marker => exact absurd rfl hend
    | failure e later =>
      rw [AsClaimed, if_neg (by omega), EndsAsClaimed, hnext, Meets]
      exact ⟨iff_of_true ⟨⟨_, rfl, rfl⟩, hclosed⟩ fun h => absurd h hk.ne',
        fun _ => .failed hend hclosed hchunk (by omega)⟩

/-- Off the rows of the chunk, a getter that does not check the position throws an
    `ArrayIndexOutOfBoundsException`. -/
theorem read_of_used {columnIndex : ℤ} (hused : ∀ v ∈ rs.currentChunk, v.length < rs.chunkIdx)
    (g : VectorGetter) : rs.read env columnIndex g = .error (.java .arrayIndexOutOfBounds) := by
  rw [read, column]
  split
  · cases hv : rs.currentChunk[(columnIndex - 1).toNat]? with
    | none => rfl
    | some v =>
      have hlength := hused v (List.mem_of_getElem? hv)
      show v.get env.toJavaLibrary g ((rs.chunkIdx : ℤ) - 1) = _
      rw [ColumnVector.get, ColumnVector.checkAndNull, if_neg (by omega)]
      rfl
  · rfl

/-- A getter finds the cell of the row, or none. -/
theorem At.onCell_or_offCells (h : At env chunks ending k rs) (columnIndex : ℤ) :
    (∃ v row, cell chunks k columnIndex = some (v, row) ∧ OnCell env rs columnIndex v row) ∨
      cell chunks k columnIndex = none ∧ OffCells env rs columnIndex ∧
        rs.read env columnIndex .localTime = .error (.java .arrayIndexOutOfBounds) := by
  have hcolumn : rs.column columnIndex = .error (.java .arrayIndexOutOfBounds) →
      OffCells env rs columnIndex ∧
        rs.read env columnIndex .localTime = .error (.java .arrayIndexOutOfBounds) :=
    fun h => ⟨.column h, by rw [read, h]; rfl⟩
  have hempty (hchunk : rs.currentChunk = []) :
      rs.column columnIndex = .error (.java .arrayIndexOutOfBounds) := by
    rw [column, hchunk]
    split <;> rfl
  cases h with
  | before hopen hfin hchunk hpend =>
    exact .inr ⟨if_pos (.inl rfl), hcolumn (hempty hchunk)⟩
  | ended hend hopen hfin hchunk hk =>
    exact .inr ⟨cell_none hk columnIndex, hcolumn (hempty hchunk)⟩
  | failed hend hclosed hused hk =>
    exact .inr ⟨cell_none hk columnIndex, .closed hclosed, read_of_used hused .localTime⟩
  | onRow done rest c i heq hopen hfin hchunk hidx hi hpend =>
    rw [heq, cell_eq done rest hi]
    by_cases hfirst : columnIndex < 1
    · rw [if_pos hfirst]
      exact .inr ⟨rfl, hcolumn (if_neg (by omega))⟩
    · rw [if_neg hfirst]
      cases hv : c.columns[(columnIndex - 1).toNat]? with
      | none =>
        refine .inr ⟨rfl, hcolumn ?_⟩
        rw [column, if_pos (by omega), hchunk, hv]
      | some v =>
        have hcol : rs.column columnIndex = .ok v := by
          rw [column, if_pos (by omega), hchunk, hv]
        have hlast : (columnIndex - 1).toNat < c.columns.length :=
          (List.getElem?_eq_some_iff.1 hv).1
        have hlength := c.vector_length v (List.mem_of_getElem? hv)
        rw [c.columns_length] at hlast
        exact .inl ⟨v, i, rfl, hopen, by omega, by omega, hcol, hidx, by omega⟩

theorem At.get (h : At env chunks ending k rs) (columnIndex : BitVec 32) (g : Getter) :
    (AsClaimed env chunks ending (k, rs) (.get columnIndex g) ↔
        Meets env chunks ending (k, rs) (.get columnIndex g)) ∧
      At env chunks ending k (rs.get env columnIndex.toInt g).2 := by
  rw [AsClaimed]
  obtain ⟨v, row, hcell, hon⟩ | ⟨hcell, hoff, hread⟩ := h.onCell_or_offCells columnIndex.toInt
  · rw [hcell, hon.get]
    refine ⟨iff_of_true rfl fun _ => by rw [hcell]; rfl, ?_⟩
    split
    · exact h.withNull _
    · exact h
  · rw [hcell]
    by_cases hg : g = .vector .localTime
    · subst hg
      rw [Meets, hcell, DuckDBResultSet.get, getVector, hread]
      refine ⟨iff_of_false ?_ fun h => absurd (h rfl) (by decide), h⟩
      rintro ⟨e, he, hsql⟩
      cases he
      exact absurd hsql (by decide)
    · obtain ⟨e, hget, he⟩ := hoff.get hg
      rw [hget]
      exact ⟨iff_of_true ⟨e, rfl, he⟩ fun h => absurd h hg, h⟩

theorem At.getWasNull (h : At env chunks ending k rs) :
    AsClaimed env chunks ending (k, rs) .wasNull := by
  intro hend hk
  cases h with
  | before => exact absurd hk (Nat.not_lt_zero _)
  | onRow done rest c i heq hopen hfin hchunk hidx hi hpend =>
    have hrow := (List.getElem?_eq_some_iff.1 (rows_get done rest hi)).1
    rw [heq] at hk
    omega
  | ended hmarker => exact absurd hmarker hend
  | failed _ hclosed => exact ⟨_, if_pos hclosed, rfl⟩

theorem At.step (hn : 0 < env.columnCount) (h : At env chunks ending k rs) (c : ResultSetCall) :
    (AsClaimed env chunks ending (k, rs) c ↔ Meets env chunks ending (k, rs) c) ∧
      (Meets env chunks ending (k, rs) c →
        At env chunks ending (step env (k, rs) c).1 (step env (k, rs) c).2) := by
  cases c with
  | next => exact h.next hn
  | get columnIndex g =>
    obtain ⟨hclaimed, hget⟩ := h.get columnIndex g
    exact ⟨hclaimed, fun _ => hget⟩
  | wasNull => exact ⟨iff_of_true h.getWasNull trivial, fun _ => h⟩

/-- **Row enumeration.**  Over every sequence of calls on every result with at least one column: the
    `k`-th `next` goes to the `k`-th row of all chunks and then to the end, or closes the result set
    where a fetch fails; getters read the row, and throw an `SQLException` where there is none, if
    and only if `getLocalTime` is called on rows only, with the index of a column, and no `next`
    goes to a fetch that throws anything but an `SQLException`. -/
theorem row_enumeration_iff (env : ResultSetEnv) (hn : 0 < env.columnCount)
    (chunks : List (Chunk env.columnCount)) (ending : Ending) (calls : List ResultSetCall) :
    Every (step env) (AsClaimed env chunks ending) (0, new (fetched chunks ending)) calls ↔
      Every (step env) (Meets env chunks ending) (0, new (fetched chunks ending)) calls :=
  every_iff_of_kept (I := fun s => At env chunks ending s.1 s.2)
    (fun _ c h => (At.step hn h c).2) (fun _ c h => (At.step hn h c).1) At.new

/-! ## A TIME column with one row -/

/-- A result set with one TIME column. -/
def timeEnv : ResultSetEnv where
  toJavaLibrary := .plain
  columnTypes := [.time]
  castToStrings := fun _ _ => .error .engine
  cast := fun _ value => .ok value

/-- A chunk with the row 00:00. -/
def midnight : Chunk timeEnv.columnCount where
  columns := [⟨.time, .invalid, 0, 1, fun _ => false, fun _ => 0, fun _ => .null⟩]
  length := 1
  columns_length := rfl
  vector_length := fun v hv => by rw [List.mem_singleton.1 hv]
  length_pos := by decide

theorem row_enumeration_midnight :
    Every (step timeEnv) (AsClaimed timeEnv [midnight] .marker)
      (0, new (fetched [midnight] .marker)) [.next, .get 1 (.vector .localTime), .next, .next] :=
  (row_enumeration_iff timeEnv (by decide) [midnight] .marker
    [.next, .get 1 (.vector .localTime), .next, .next]).2
    ⟨fun _ => rfl, fun _ => rfl, fun _ => rfl, fun _ => rfl, trivial⟩

/-- Before the first `next`, `getLocalTime` throws an `ArrayIndexOutOfBoundsException`. -/
theorem row_enumeration_before_first : ¬ ∀ (env : ResultSetEnv), 0 < env.columnCount →
    ∀ (chunks : List (Chunk env.columnCount)) (ending : Ending) (calls : List ResultSetCall),
      Every (step env) (AsClaimed env chunks ending) (0, new (fetched chunks ending)) calls := by
  intro h
  obtain ⟨e, he, hsql⟩ :=
    (h timeEnv (by decide) [midnight] .marker [.get 1 (.vector .localTime)]).1
  cases he
  exact absurd hsql (by decide)

end DuckDBResultSet

end DuckDBJava
