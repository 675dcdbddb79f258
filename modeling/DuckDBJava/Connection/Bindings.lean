/-
  The parameters of a prepared statement and of its batch.

  `DuckDBPreparedStatement` keeps the current parameters in an `Object[]`, to which `setObject`
  assigns, and a batch as a list of such arrays.  The statement is written over an `ArrayMemory`:
  with `references` it is the one of the source, with `values` no two arrays are ever the same.

  How the native calls end is left to `Env`.  The `log` records what is handed to the engine.
-/
import DuckDBJava.Connection.Machine
import DuckDBJava.Lib.Arrays
import DuckDBJava.Numbers.HugeInt

namespace DuckDBJava.Bindings

open Exec
open Connection (StatementReturnType)

/-! ## Data -/

/-- An argument of `setObject`; the objects of other classes are stored as they are. -/
inductive Argument (V : Type) where
  | null
  | bigInteger (x : ℤ)
  | other (x : V)
  deriving DecidableEq

/-- What is stored. -/
inductive Param (V : Type) where
  | null
  | hugeInt (x : DuckDBHugeInt)
  | other (x : V)
  deriving DecidableEq

/-- What is thrown: the `SQLException`s by their messages, and the unchecked ones. -/
inductive JavaException where
  | statementClosed
  | prepareFirst
  | noQuery
  | batchOnly
  | batchPrepared
  | noResultSet
  | resultSet
  | indexOutOfBounds
  | hugeIntRange
  | parameterCountMismatch
  | nativeFailure
  /-- out of the conversion of a parameter -/
  | conversion
  | nullPointer
  | arrayIndexOutOfBounds
  deriving DecidableEq

/-- `catch (SQLException e)` -/
def JavaException.isSql : JavaException → Bool
  | conversion | nullPointer | arrayIndexOutOfBounds => false
  | _ => true

/-- The outside: the parameters of a text and what it returns, and how the native calls end, by
    their number. -/
structure Env where
  /-- `named_param_map.size()` -/
  parameterCount : ℕ → ℕ
  returns : ℕ → StatementReturnType
  succeeds : ℕ → Bool
  /-- `false` where `to_duckdb_value` runs into an unchecked exception -/
  converts : ℕ → Bool
  /-- the number of changed rows, if the chunk with it is not empty -/
  changedRows : ℕ → Option ℕ

/-- `selectResult`, when it is not null. -/
structure SelectResult where
  isOpen : Bool
  finished : Bool
  deriving DecidableEq

/-- What a statement keeps besides its parameters. -/
structure Fields (V : Type) where
  /-- `conn == null` -/
  closed : Bool
  closeOnCompletion : Bool
  isPreparedStatement : Bool
  query : Option ℕ
  stmtRef : Option ℕ
  /-- `meta.param_meta`: the number of parameters -/
  paramMeta : Option ℕ
  batchedStatements : List ℕ
  isBatch : Bool
  selectResult : Option SelectResult
  /-- `returnsResultSet`, `returnsChangedRows` and `returnsNothing`; `none` when all are false -/
  returns : Option StatementReturnType
  updateResult : ℤ
  /-- native calls so far -/
  calls : ℕ
  /-- the executions: a text with its parameters -/
  log : List (ℕ × List (Param V))

/-- `DuckDBPreparedStatement`. -/
structure Statement {V : Type} (A : ArrayMemory (Param V)) extends Fields V where
  heap : A.Heap
  params : A.Ref
  batchedParams : List A.Ref

variable {V : Type}

/-- Calls on a statement. -/
abbrev StmtM (A : ArrayMemory (Param V)) (α : Type) := M JavaException (Statement A) α

variable {A : ArrayMemory (Param V)}

/-- The constructors, before `prepare`. -/
def Statement.new (A : ArrayMemory (Param V)) (isPreparedStatement : Bool) : Statement A where
  closed := false
  closeOnCompletion := false
  isPreparedStatement := isPreparedStatement
  query := none
  stmtRef := none
  paramMeta := none
  batchedStatements := []
  isBatch := false
  selectResult := none
  returns := none
  updateResult := 0
  calls := 0
  log := []
  heap := (A.new [] A.empty).2
  params := (A.new [] A.empty).1
  batchedParams := []

/-! ## Fields and arrays -/

def getFields : StmtM A (Fields V) := fun σ => .ok σ.toFields σ

def modifyFields (f : Fields V → Fields V) : StmtM A Unit :=
  modify fun σ => { σ with toFields := f σ.toFields }

/-- The contents of `params`. -/
def getParams : StmtM A (List (Param V)) := fun σ => .ok (A.read σ.heap σ.params) σ

/-- `params = new Object[]`, filled with `l`. -/
def newParams (l : List (Param V)) : StmtM A Unit :=
  modify fun σ => { σ with heap := (A.new l σ.heap).2, params := (A.new l σ.heap).1 }

/-- `params[i] = x` -/
def storeParam (i : ℕ) (x : Param V) : StmtM A Unit := do
  let params ← getParams
  require (i < params.length) .arrayIndexOutOfBounds
  modify fun σ =>
    { σ with heap := (A.store σ.heap σ.params i x).2, params := (A.store σ.heap σ.params i x).1 }

/-- `batchedParams.add(params)` -/
def batchParams : StmtM A Unit :=
  modify fun σ => { σ with batchedParams := σ.batchedParams ++ [σ.params] }

/-- `params = batchedParams.get(i)` -/
def loadParams (i : ℕ) : StmtM A Unit := fun σ =>
  match σ.batchedParams[i]? with
  | some r => .ok () { σ with params := r }
  | none => .error .arrayIndexOutOfBounds σ

/-- `batchedParams.clear()` -/
def clearBatchedParams : StmtM A Unit := modify fun σ => { σ with batchedParams := [] }

/-- `batchedParams.size()` -/
def batchedParamsSize : StmtM A ℕ := fun σ => .ok σ.batchedParams.length σ

/-! ## Closing and checking -/

/-- `close`. -/
def closeStmt : StmtM A Unit :=
  modifyFields fun c =>
    if c.closed then c
    else { c with closed := true, stmtRef := none, selectResult := none }

/-- `checkOpen`. -/
def checkOpen : StmtM A Unit := do
  let c ← getFields
  require (c.closed = false) .statementClosed

/-- `checkPrepared`. -/
def checkPrepared : StmtM A Unit := do
  let c ← getFields
  if c.isPreparedStatement then require (c.stmtRef.isSome = true) .prepareFirst
  else require (c.query.isSome = true) .noQuery

/-- `requireNonBatch`. -/
def requireNonBatch : StmtM A Unit := do
  let c ← getFields
  require (c.isBatch = false) .batchOnly

/-- `DuckDBResultSet.close` of `selectResult`, which may close the statement. -/
def closeSelectResult : StmtM A Unit := do
  let c ← getFields
  match c.selectResult with
  | some ⟨true, finished⟩ => do
    modifyFields fun c => { c with selectResult := some ⟨false, finished⟩ }
    (if c.closeOnCompletion then closeStmt else pure ())
  | _ => pure ()

/-! ## Preparing and executing -/

section
variable (env : Env)

/-- A native call. -/
def native : StmtM A Unit := do
  let c ← getFields
  modifyFields fun c => { c with calls := c.calls + 1 }
  require (env.succeeds c.calls = true) .nativeFailure

/-- `if (!isConnAutoCommit()) startTransaction()`, or `startTransaction()`: at most one native
    call, and where there is none it counts as one that succeeds. -/
def ensureTransaction : StmtM A Unit := do
  checkOpen
  native env

/-- `prepare`. -/
def prepare (sql : ℕ) : StmtM A Unit := do
  checkOpen
  let c ← getFields
  if c.isPreparedStatement then
    catchWith
      (do
        modifyFields fun c => { c with stmtRef := none, paramMeta := none }
        newParams []
        closeSelectResult
        modifyFields fun c => { c with selectResult := none, updateResult := 0 }
        -- `conn.connRefLock`, and the result that was closed may have closed the statement
        let c ← getFields
        require (c.closed = false) .nullPointer
        ensureTransaction env
        native env
        modifyFields fun c => { c with stmtRef := some sql }
        native env
        modifyFields fun c => { c with paramMeta := some (env.parameterCount sql) })
      fun e => do
        (if e.isSql then closeStmt else pure ())
        throw e
  else modifyFields fun c => { c with query := some sql }

/-- `duckdb_jdbc_execute`, with the parameters. -/
def nativeExecute : StmtM A ℕ := do
  let c ← getFields
  match c.stmtRef with
  | none => throw .nativeFailure
  | some text => do
    let params ← getParams
    require (params.length = env.parameterCount text) .parameterCountMismatch
    require (env.converts c.calls = true) .conversion
    modifyFields fun c => { c with log := c.log ++ [(text, params)] }
    native env
    pure text

/-- `executeDirect`. -/
def executeDirect : StmtM A ℕ := do
  let c ← getFields
  match c.query with
  | none => throw .nullPointer
  | some text => do
    native env
    modifyFields fun c => { c with log := c.log ++ [(text, [])] }
    native env
    pure text

/-- The `try` block of `execute`. -/
def executeBody : StmtM A Unit := do
  closeSelectResult
  modifyFields fun c => { c with selectResult := none }
  ensureTransaction env
  let c ← getFields
  let text ← (if c.isPreparedStatement then nativeExecute env else executeDirect env)
  native env
  modifyFields fun c =>
    { c with selectResult := some ⟨true, false⟩, returns := some (env.returns text) }

/-- `selectResult.next()` and `selectResult.getLong(1)`. -/
def readChangedRows : StmtM A Unit := do
  let c ← getFields
  native env
  match env.changedRows c.calls with
  | some n => modifyFields fun c => { c with updateResult := n }
  | none => modifyFields fun c => { c with selectResult := some ⟨true, true⟩ }

/-- `execute`. -/
def execute : StmtM A Bool := do
  checkOpen
  checkPrepared
  catchWith
    (do
      executeBody env
      modifyFields fun c => { c with query := none })
    fun e => do
      modifyFields fun c => { c with query := none }
      (if e.isSql then do
        closeSelectResult
        closeStmt
      else pure ())
      throw e
  let c ← getFields
  (if c.returns = some .changedRows then do
    readChangedRows env
    closeSelectResult
  else pure ())
  pure (c.returns = some .queryResult)

/-- `getUpdateCountInternal`. -/
def getUpdateCountInternal : StmtM A ℤ := do
  checkOpen
  let c ← getFields
  match c.selectResult with
  | none => pure (-1)
  | some r =>
    if c.returns = some .queryResult ∨ c.returns = some .nothing ∨ r.finished then pure (-1)
    else pure c.updateResult

/-- `executeQuery`. -/
def executeQuery : StmtM A Unit := do
  requireNonBatch
  discard (execute env)
  let c ← getFields
  require (c.returns = some .queryResult) .noResultSet

/-- `executeLargeUpdate`. -/
def executeLargeUpdate : StmtM A ℤ := do
  requireNonBatch
  discard (execute env)
  let c ← getFields
  require (c.returns = some .changedRows ∨ c.returns = some .nothing) .resultSet
  getUpdateCountInternal

/-! ## Parameters and batches -/

/-- The conversion of a `BigInteger` in `setObject`. -/
def toParam : Argument V → StmtM A (Param V)
  | .null => pure .null
  | .bigInteger x =>
    match DuckDBHugeInt.new (some x) with
    | .ok h => pure (.hugeInt h)
    | .error _ => throw .hugeIntRange
  | .other x => pure (.other x)

/-- `setObject`. -/
def setObject (parameterIndex : ℤ) (x : Argument V) : StmtM A Unit := do
  checkOpen
  checkPrepared
  let c ← getFields
  match c.paramMeta with
  | none => throw .nullPointer
  | some paramsCount => do
    require (¬ (parameterIndex < 1 ∨ (paramsCount : ℤ) < parameterIndex)) .indexOutOfBounds
    let params ← getParams
    (if params.length = 0 then newParams (List.replicate paramsCount .null) else pure ())
    let x ← toParam x
    storeParam (parameterIndex - 1).toNat x

/-- `clearParameters`. -/
def clearParameters : StmtM A Unit := do
  checkOpen
  newParams []

/-- `addBatch()`. -/
def addBatch : StmtM A Unit := do
  checkOpen
  batchParams
  clearParameters
  modifyFields fun c => { c with isBatch := true }

/-- `addBatch(sql)`. -/
def addBatchSql (sql : ℕ) : StmtM A Unit := do
  checkOpen
  let c ← getFields
  require (c.isPreparedStatement = false) .batchPrepared
  modifyFields fun c =>
    { c with batchedStatements := c.batchedStatements ++ [sql], isBatch := true }

/-- `clearBatch`. -/
def clearBatch : StmtM A Unit := do
  checkOpen
  clearBatchedParams
  modifyFields fun c => { c with batchedStatements := [], isBatch := false }

/-- The loop of `executeBatchedPreparedStatement`: the rows from `i` on, `n` of them. -/
def executeRows (i : ℕ) : ℕ → StmtM A (List ℤ)
  | 0 => pure []
  | n + 1 => do
    loadParams i
    discard (execute env)
    let count ← getUpdateCountInternal
    let counts ← executeRows (i + 1) n
    pure (count :: counts)

/-- The loop of `executeBatchedStatements`. -/
def executeStatements : List ℕ → StmtM A (List ℤ)
  | [] => pure []
  | sql :: sqls => do
    prepare env sql
    discard (execute env)
    let count ← getUpdateCountInternal
    let counts ← executeStatements sqls
    pure (count :: counts)

/-- The `try` block of a batch. -/
def batchBody : StmtM A (List ℤ) := do
  checkOpen
  let c ← getFields
  let counts ← (if c.isPreparedStatement then do
      checkPrepared
      ensureTransaction env
      let n ← batchedParamsSize
      executeRows env 0 n
    else do
      ensureTransaction env
      executeStatements env c.batchedStatements)
  clearBatch
  -- `conn.commit()`
  native env
  pure counts

/-- `executeLargeBatch`. -/
def executeLargeBatch : StmtM A (List ℤ) := do
  checkOpen
  catchWith (batchBody env) fun e => do
    -- `conn.rollback()`
    (if e.isSql then native env else pure ())
    throw e

/-- `getResultSet`, which hands out `selectResult`. -/
def getResultSet : StmtM A Bool := do
  checkOpen
  let c ← getFields
  if c.returns = some .queryResult then do
    modifyFields fun c => { c with selectResult := none }
    pure c.selectResult.isSome
  else pure false

/-- `getLargeUpdateCount`. -/
def getLargeUpdateCount : StmtM A ℤ := do
  let count ← getUpdateCountInternal
  modifyFields fun c => { c with updateResult := -1 }
  pure count

/-! ## Runs -/

/-- The calls of an application; `closeResult` is `close` of a result set it has. -/
inductive Op (V : Type) where
  | setObject (parameterIndex : ℤ) (x : Argument V)
  | clearParameters
  | addBatch
  | addBatchSql (sql : ℕ)
  | clearBatch
  | execute
  | executeSql (sql : ℕ)
  | executeQuery
  | executeQuerySql (sql : ℕ)
  | executeLargeUpdate
  | executeLargeUpdateSql (sql : ℕ)
  | executeLargeBatch
  | getResultSet
  | getLargeUpdateCount
  | closeOnCompletion
  | closeResult
  | close
  deriving DecidableEq

/-- What a call returns. -/
inductive Returned where
  | nothing
  | flag (b : Bool)
  | counts (l : List ℤ)
  deriving DecidableEq

/-- One call. -/
def Op.call : Op V → StmtM A Returned
  | setObject i x => do
    Bindings.setObject i x
    pure .nothing
  | clearParameters => do
    Bindings.clearParameters
    pure .nothing
  | addBatch => do
    Bindings.addBatch
    pure .nothing
  | addBatchSql sql => do
    Bindings.addBatchSql sql
    pure .nothing
  | clearBatch => do
    Bindings.clearBatch
    pure .nothing
  | execute => do
    let b ← Bindings.execute env
    pure (.flag b)
  | executeSql sql => do
    requireNonBatch
    prepare env sql
    let b ← Bindings.execute env
    pure (.flag b)
  | executeQuery => do
    Bindings.executeQuery env
    pure .nothing
  | executeQuerySql sql => do
    prepare env sql
    Bindings.executeQuery env
    pure .nothing
  | executeLargeUpdate => do
    let n ← Bindings.executeLargeUpdate env
    pure (.counts [n])
  | executeLargeUpdateSql sql => do
    prepare env sql
    let n ← Bindings.executeLargeUpdate env
    pure (.counts [n])
  | executeLargeBatch => do
    let l ← Bindings.executeLargeBatch env
    pure (.counts l)
  | getResultSet => do
    let b ← Bindings.getResultSet
    pure (.flag b)
  | getLargeUpdateCount => do
    let n ← Bindings.getLargeUpdateCount
    pure (.counts [n])
  | closeOnCompletion => do
    checkOpen
    modifyFields fun c => { c with closeOnCompletion := true }
    pure .nothing
  | closeResult => do
    closeSelectResult
    pure .nothing
  | close => do
    closeStmt
    pure .nothing

/-- A statement as it is constructed, from a text to prepare or without. -/
def start (A : ArrayMemory (Param V)) : Option ℕ → Statement A
  | none => .new A false
  | some sql => final (prepare env sql (.new A true))

/-- A call of a run: how it ended, and the states around it. -/
structure Entry (A : ArrayMemory (Param V)) where
  before : Statement A
  op : Op V
  result : Except JavaException Returned
  after : Statement A

/-- One call of a run. -/
def entry (σ : Statement A) (op : Op V) : Entry A :=
  match op.call env σ with
  | .ok a τ => ⟨σ, op, .ok a, τ⟩
  | .error e τ => ⟨σ, op, .error e, τ⟩

/-- The calls of a run. -/
def trace (σ : Statement A) : List (Op V) → List (Entry A)
  | [] => []
  | op :: ops => entry env σ op :: trace (entry env σ op).after ops

/-- What is seen of a call: how it ends, and what the engine has been handed until then. -/
def Entry.observed (e : Entry A) : Except JavaException Returned × List (ℕ × List (Param V)) :=
  (e.result, e.after.log)

end

end DuckDBJava.Bindings
