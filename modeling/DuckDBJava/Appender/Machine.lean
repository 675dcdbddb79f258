/-
  `DuckDBAppender` as a state machine: the cursor over the columns, the rows of the chunk and
  their way to the table.

  A call takes the state to the next one and returns normally or throws; the outcomes of the
  native calls are inputs.  Rows are named by how often the chunk was flushed before them
  (`generation`) and their slot in the chunk.
-/
import DuckDBJava.Appender.Layout
import DuckDBJava.Appender.Overloads

namespace DuckDBJava

open Exec PathTree

/-- What is fixed for the life of an appender. -/
structure Config where
  eng : Engine
  tableType : TableType
  writeInlinedStrings : Bool

/-- `DuckDBAppender.columns`, by their types. -/
abbrev Config.columns (cfg : Config) : List LogicalType := cfg.tableType.columns

/-- A row handed to the engine, with the value of each column: `none` where it depends on memory
    that was never written. -/
structure Row where
  generation : ℕ
  slot : ℕ
  values : List (Option Value)

/-- The name of a row. -/
def Row.id (r : Row) : ℕ × ℕ := (r.generation, r.slot)

/-- The state of an appender and of the native appender behind it. -/
structure Appender where
  closed : Bool
  rowIdx : ℕ
  currentColumn : Option Column
  prevColumn : Option Column
  chunk : Vec
  /-- how often `rowIdx` was set back to `0` -/
  generation : ℕ
  /-- the rows of the chunks appended to the native appender and not flushed -/
  nativeBuffer : List Row
  table : List Row

/-- The outcomes of the native calls made by one call of the appender. -/
structure Natives where
  appendDataChunk : Bool
  appenderFlush : Bool
  appenderClose : Bool
  appenderDestroy : Bool

/-- All of them succeed. -/
def Natives.success : Natives := ⟨true, true, true, true⟩

/-- Computations of the appender. -/
abbrev AppM (α : Type) := M Exn Appender α

/-! ## The chunk -/

/-- `col.reset()` of the top-level columns from the `i`-th on. -/
def resetColumns (eng : Engine) (i : ℕ) : List LogicalType → PutM Unit
  | [] => pure ()
  | t :: ts => do
    onChild i (resetAt eng eng.vectorSize 1 1 t)
    resetColumns eng (i + 1) ts

/-- The memory of a new chunk. -/
def newChunk : Vec := fun _ =>
  { valid := fun _ => true, data := fun _ => none, size := 0, alloc := 0, listSize := 0,
    buf := ⟨0, 0, 0⟩ }

/-- An appender before its first call. -/
def Appender.new (chunk : Vec) : Appender :=
  { closed := false, rowIdx := 0, currentColumn := none, prevColumn := none, chunk := chunk,
    generation := 0, nativeBuffer := [], table := [] }

/-- The constructor of `DuckDBAppender`.  A new `Column` looks up its type id and fetches its
    buffers like `reset`. -/
def create (cfg : Config) : Except Exn Appender :=
  if LogicalType.allHaveTypeIds cfg.columns then
    match resetColumns cfg.eng 0 cfg.columns newChunk with
    | .error e _ => .error e
    | .ok _ chunk => .ok (.new chunk)
  else .error (.sql .unknownTypeId)

theorem create_eq_ok {cfg : Config} {s₀ : Appender} : create cfg = .ok s₀ ↔
    LogicalType.allHaveTypeIds cfg.columns = true ∧
      ∃ chunk, resetColumns cfg.eng 0 cfg.columns newChunk = .ok () chunk ∧ s₀ = .new chunk := by
  unfold create
  by_cases hids : LogicalType.allHaveTypeIds cfg.columns = true
  · rw [if_pos hids, and_iff_right hids]
    cases hx : resetColumns cfg.eng 0 cfg.columns newChunk with
    | ok u chunk => exact ⟨fun h => ⟨chunk, rfl, (Except.ok.inj h).symm⟩,
        fun ⟨_, hok, hs⟩ => by cases hok; rw [hs]⟩
    | error e chunk => exact iff_of_false (fun h => by cases h) fun ⟨_, hok, _⟩ => by cases hok
  · rw [if_neg hids]
    exact iff_of_false (fun h => by cases h) fun h => hids h.1

/-- `duckdb_data_chunk_reset`: the data stay as they are. -/
def dataChunkReset (eng : Engine) (v : Vec) : Vec := fun p =>
  { v p with
    valid := fun _ => true
    size := 0
    alloc := if eng.resetMoves v p then (v p).alloc + 1 else (v p).alloc }

/-- What native code makes of the chunk; the fields of the `Column`s stay. -/
def nativeWrite (v v' : Vec) : Vec := fun p =>
  { v' p with listSize := (v p).listSize, buf := (v p).buf }

/-- The first `rowIdx` rows of the chunk. -/
def chunkRows (cfg : Config) (s : Appender) : List Row :=
  (List.range s.rowIdx).map fun k =>
    ⟨s.generation, k, cfg.columns.mapIdx fun i t => decode t (s.chunk.child i) k⟩

/-- Run `x` on the chunk. -/
def onChunk {α : Type} (x : PutM α) : AppM α := fun s =>
  match x s.chunk with
  | .ok a chunk => .ok a { s with chunk := chunk }
  | .error e chunk => .error e { s with chunk := chunk }

/-- Run `x` on the vector of `col`. -/
def onColumn {α : Type} (col : Column) (x : PutM α) : AppM α := onChunk (onPath col.path x)

/-! ## The cursor -/

/-- The top-level column at or above a column. -/
def Column.topLevel : Column → Column
  | top i t => top i t
  | child p _ _ => p.topLevel

/-- `currentTopLevelColumn`. -/
def Appender.currentTopLevelColumn (s : Appender) : Option Column :=
  s.currentColumn.map Column.topLevel

/-- `nextColumn`. -/
def nextColumn (columns : List LogicalType) : Column → Option Column
  | .top i _ => columns[i + 1]?.map (.top (i + 1))
  | .child p i _ =>
    if p.colType = .union then nextColumn columns p
    else
      match p.get? (i + 1) with
      | some next => some next
      | none => nextColumn columns p

namespace Appender

/-- `rowBegunInvariant`. -/
def rowBegunInvariant (s : Appender) : Bool := s.currentColumn.isSome

/-- `rowCompletedInvariant`. -/
def rowCompletedInvariant (cfg : Config) (s : Appender) : Bool :=
  match s.currentColumn, s.prevColumn with
  | none, some p => p.idx + 1 = cfg.columns.length
  | _, _ => false

/-- `structBegunInvariant`. -/
def structBegunInvariant (s : Appender) : Bool :=
  match s.currentColumn with
  | some (.child p _ _) => p.colType = .struct
  | _ => false

/-- `structCompletedInvariant`. -/
def structCompletedInvariant (s : Appender) : Bool :=
  match s.prevColumn with
  | some (.child p i _) => p.colType = .struct ∧ i + 1 = p.childCount
  | _ => false

/-- `unionCompletedInvariant`. -/
def unionCompletedInvariant (s : Appender) : Bool :=
  match s.prevColumn with
  | some (.child p _ _) => p.colType = .union
  | _ => false

/-- `readyForANewRowInvariant`. -/
def readyForANewRowInvariant (s : Appender) : Bool :=
  s.currentColumn.isNone && s.prevColumn.isNone

end Appender

variable (cfg : Config)

/-- `checkOpen`. -/
def checkOpen : AppM Unit := do
  let s ← get
  require (s.closed = false) (.sql .closed)

/-- `currentColumn()`. -/
def currentColumn : AppM Column := do
  checkOpen
  match (← get).currentColumn with
  | some col => pure col
  | none => throw (.sql (.columnNotFound cfg.columns.length))

/-- `moveToNextColumn`. -/
def moveToNextColumn : AppM Unit := do
  let col ← currentColumn cfg
  modify fun s =>
    { s with prevColumn := s.currentColumn, currentColumn := nextColumn cfg.columns col }

/-- What the `put` functions read of the appender. -/
def Appender.env (s : Appender) : Env := ⟨cfg.eng, s.rowIdx, cfg.writeInlinedStrings⟩

/-! ## The calls -/

def beginRow : AppM Unit := do
  checkOpen
  let s ← get
  require s.readyForANewRowInvariant (.sql .rowNotEnded)
  match cfg.columns with
  | [] => throw (.sql .noColumns)
  | t :: _ => modify fun s => { s with currentColumn := some (.top 0 t) }

def beginStruct : AppM Unit := do
  checkOpen
  match (← get).currentColumn with
  | none => throw (.sql (.rowNotBegun "beginStruct"))
  | some col =>
    require (col.colType = .struct) (.sql (.invalidColumnType [.struct] col.colType))
    match col.get? 0 with
    | none => throw (.sql .emptyStruct)
    | some field => modify fun s => { s with currentColumn := some field }

def endStruct : AppM Unit := do
  checkOpen
  let s ← get
  if s.structCompletedInvariant then
    modify fun s => { s with prevColumn := s.prevColumn.bind Column.parent }
  else
    match s.currentColumn with
    | some (.child p i _) =>
      if p.colType = .struct then throw (.sql (.structIncomplete p.childCount (i + 1)))
      else throw (.sql .structNotBegun)
    | _ => throw (.sql .structNotBegun)

def beginUnion (tag : String) : AppM Unit := do
  checkOpen
  match (← get).currentColumn with
  | none => throw (.sql (.rowNotBegun "beginUnion"))
  | some col =>
    require (col.colType = .union) (.sql (.invalidColumnType [.union] col.colType))
    let fieldWithTag ← onColumn col (putUnionTag col (← get).rowIdx tag)
    modify fun s => { s with currentColumn := col.get? fieldWithTag }

def endUnion : AppM Unit := do
  checkOpen
  let s ← get
  require s.unionCompletedInvariant (.sql .unionIncomplete)
  modify fun s => { s with prevColumn := s.prevColumn.bind Column.parent }

def flush (n : Natives) : AppM ℕ := do
  checkOpen
  let s ← get
  require s.readyForANewRowInvariant (.sql .flushInRow)
  if s.rowIdx = 0 then return 0
  -- `duckdb_append_data_chunk`
  require n.appendDataChunk (.sql .appenderError)
  modify fun s => { s with nativeBuffer := s.nativeBuffer ++ chunkRows cfg s }
  -- `duckdb_appender_flush`
  require n.appenderFlush (.sql .appenderError)
  modify fun s => { s with table := s.table ++ s.nativeBuffer, nativeBuffer := [] }
  modify fun s => { s with chunk := dataChunkReset cfg.eng s.chunk }
  onChunk (resetColumns cfg.eng 0 cfg.columns)
  modify fun s => { s with rowIdx := 0, generation := s.generation + 1 }
  return s.rowIdx

def endRow (n : Natives) : AppM Unit := do
  checkOpen
  let s ← get
  if s.rowCompletedInvariant cfg then
    modify fun s => { s with rowIdx := s.rowIdx + 1, prevColumn := none }
    if cfg.eng.vectorSize ≤ s.rowIdx + 1 then
      catchWith (discard (flush cfg n)) fun e => do
        if e.isSql then
          modify fun t => { t with prevColumn := s.prevColumn, rowIdx := t.rowIdx - 1 }
        throw e
  else
    match s.currentTopLevelColumn with
    | some topCol => throw (.sql (.rowIncomplete cfg.columns.length (topCol.idx + 1)))
    | none => throw (.sql .rowUnpaired)

/-- The native appender writes what is left in its buffer. -/
def nativeFlush (succeeds : Bool) : AppM Unit := modify fun s =>
  if succeeds then { s with table := s.table ++ s.nativeBuffer, nativeBuffer := [] } else s

def close (n : Natives) : AppM Unit := do
  let s ← get
  if s.closed then return
  if 0 < s.rowIdx then
    catchWith (discard (flush cfg n)) fun e => if e.isSql then pure () else throw e
  nativeFlush n.appenderClose
  nativeFlush n.appenderDestroy
  modify fun s => { s with closed := true }

def append (a : Append) : AppM Unit := do
  let col ← currentColumn cfg
  onColumn col (a.write ((← get).env cfg) col)
  moveToNextColumn cfg

def appendNull : AppM Unit := do
  let col ← currentColumn cfg
  onColumn col (col.setNull (← get).rowIdx)
  moveToNextColumn cfg

/-- The chunk after `duckdb_append_default_to_chunk`. -/
def defaultWritten (col : Column) (s : Appender) : Vec :=
  ((cfg.eng.appendDefault col.idx s.rowIdx s.chunk).map (nativeWrite s.chunk)).getD s.chunk

theorem defaultWritten_column (col : Column) (s : Appender) (p : List ℕ) :
    (defaultWritten cfg col s p).buf.cap = (s.chunk p).buf.cap ∧
      (defaultWritten cfg col s p).listSize = (s.chunk p).listSize := by
  unfold defaultWritten
  cases cfg.eng.appendDefault col.idx s.rowIdx s.chunk <;> exact ⟨rfl, rfl⟩

/-- The state `duckdb_append_default_to_chunk` returns is not looked at. -/
def appendDefault : AppM Unit := do
  let col ← currentColumn cfg
  modify fun s => { s with chunk := defaultWritten cfg col s }
  moveToNextColumn cfg

/-- A call of a method of the appender. -/
inductive Call where
  | beginRow
  | endRow
  | beginStruct
  | endStruct
  | beginUnion (tag : String)
  | endUnion
  | append (a : Append)
  | appendNull
  | appendDefault
  | flush
  | close

/-- One call. -/
def step (c : Call) (n : Natives) : AppM Unit :=
  match c with
  | .beginRow => beginRow cfg
  | .endRow => endRow cfg n
  | .beginStruct => beginStruct
  | .endStruct => endStruct
  | .beginUnion tag => beginUnion tag
  | .endUnion => endUnion
  | .append a => append cfg a
  | .appendNull => appendNull cfg
  | .appendDefault => appendDefault cfg
  | .flush => discard (flush cfg n)
  | .close => close cfg n

/-! ## Runs -/

/-- The state after a sequence of calls; an exception does not end the sequence. -/
def exec (s : Appender) : List (Call × Natives) → Appender
  | [] => s
  | (c, n) :: calls => exec (final (step cfg c n s)) calls

/-- One call of a run: the state before it, the call and how it ended. -/
structure Entry where
  before : Appender
  call : Call
  natives : Natives
  result : EStateM.Result Exn Appender Unit

/-- The calls of a run, in order. -/
def history (s : Appender) : List (Call × Natives) → List Entry
  | [] => []
  | (c, n) :: calls => ⟨s, c, n, step cfg c n s⟩ :: history (final (step cfg c n s)) calls

theorem exec_append (s : Appender) (l l' : List (Call × Natives)) :
    exec cfg s (l ++ l') = exec cfg (exec cfg s l) l' := by
  induction l generalizing s with
  | nil => rfl
  | cons c l ih => exact ih _

theorem exec_snoc (s : Appender) (l : List (Call × Natives)) (c : Call) (n : Natives) :
    exec cfg s (l ++ [(c, n)]) = final (step cfg c n (exec cfg s l)) := by
  rw [exec_append]; rfl

theorem history_append (s : Appender) (l l' : List (Call × Natives)) :
    history cfg s (l ++ l') = history cfg s l ++ history cfg (exec cfg s l) l' := by
  induction l generalizing s with
  | nil => rfl
  | cons c l ih => exact congrArg _ (ih _)

theorem history_snoc (s : Appender) (l : List (Call × Natives)) (c : Call) (n : Natives) :
    history cfg s (l ++ [(c, n)]) =
      history cfg s l ++ [⟨exec cfg s l, c, n, step cfg c n (exec cfg s l)⟩] := by
  rw [history_append]; rfl

/-! ## Small tables -/

/-- An engine that creates every buffer of an `int` capacity and moves nothing. -/
def Engine.still : Engine :=
  { vectorSize := 2048, vectorSize_pos := by decide
    directBuffer := fun n => n < 2 ^ 31, directBuffer_lt := by simp
    reserveMoves := fun _ _ _ => false, resetMoves := fun _ _ => false
    appendDefault := fun _ _ _ => none }

/-- A table with one column. -/
def TableType.single (t : LogicalType) (h : t.Wf) : TableType :=
  ⟨[t], List.cons_ne_nil _ _, fun _ hu => List.mem_singleton.1 hu ▸ h⟩

/-- A new appender of a table, over an engine that moves nothing. -/
def Config.plain (tableType : TableType) : Config := ⟨.still, tableType, true⟩

/-- The state in which an appender starts. -/
def Config.start (cfg : Config) : Appender :=
  .new (final (resetColumns cfg.eng 0 cfg.columns newChunk))

/-- `append(int)`. -/
def Append.int (value : ℕ) : Append := .prim .int (BitVec.ofNat 32 value)

end DuckDBJava
