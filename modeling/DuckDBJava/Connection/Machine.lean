/-
  A connection, its statements and the transactions of the engine behind it.

  The engine keeps one transaction per connection: while it is open, user statements add to
  `pending`, otherwise they are applied at once.  Which native calls fail is left to `Env`; the
  `log` records every execution.

  `DuckDBConnection` and its statements run BEGIN, COMMIT and ROLLBACK through statements of
  their own, which go through `execute` again.  `runStatement` is that call with an explicit
  depth.
-/
import DuckDBJava.Lib.Exec
import Mathlib.Data.Int.Order.Basic
import Mathlib.Logic.Function.Basic

namespace DuckDBJava.Connection

open Exec

/-- `StatementReturnType`. -/
inductive StatementReturnType where
  | queryResult | changedRows | nothing
  deriving DecidableEq

/-- A user statement: a text and the parameters bound to it, by number. -/
structure Query where
  text : ℕ
  params : ℕ
  deriving DecidableEq

/-- What a native call executes. -/
inductive Sql where
  | beginTransaction
  | commit
  | rollback
  | user (q : Query)
  deriving DecidableEq

/-- The engine side of a connection: whether a transaction is open, what was executed in it, and
    what was applied to the database. -/
structure Database where
  inTransaction : Bool
  pending : List Query
  applied : List Query
  deriving DecidableEq

/-- The messages of the `SQLException`s. -/
inductive SqlException where
  | statementClosed
  | prepareFirst
  | noQuery
  | batchOnly
  | batchPrepared
  | noResultSet
  | resultSet
  | nativeFailure
  | stackOverflow
  deriving DecidableEq

/-- The outside: what a text returns when executed, and how the native calls of the run end, by
    their number; a call that succeeds tells the number of changed rows. -/
structure Env where
  returns : ℕ → StatementReturnType
  outcome : ℕ → Option ℕ

/-- One execution in the engine. -/
structure Event where
  sql : Sql
  succeeded : Bool
  inTransaction : Bool
  autoCommit : Bool

/-- `DuckDBPreparedStatement`, without its native handles. -/
structure Statement where
  /-- `conn == null` -/
  closed : Bool
  isPreparedStatement : Bool
  query : Option ℕ
  stmtRef : Option ℕ
  params : ℕ
  batchedParams : List ℕ
  batchedStatements : List ℕ
  isBatch : Bool
  /-- `selectResult != null` -/
  hasResult : Bool
  /-- `returnsResultSet`, `returnsChangedRows` and `returnsNothing`; `none` when all are false -/
  returns : Option StatementReturnType
  updateResult : ℤ
  deriving DecidableEq

/-- `DuckDBConnection` with its statements, and the engine. -/
structure State where
  autoCommit : Bool
  transactionRunning : Bool
  db : Database
  /-- native calls so far -/
  calls : ℕ
  log : List Event
  stmts : ℕ → Statement
  count : ℕ

/-- Calls on the connection and its statements. -/
abbrev ConnM (α : Type) := M SqlException State α

/-! ## The engine -/

/-- Execute `sql`; `outcome` is what becomes of it where the engine accepts it.  BEGIN needs that
    no transaction is open, COMMIT and ROLLBACK that one is; COMMIT closes it in any case. -/
def Database.exec (db : Database) (outcome : Option ℕ) : Sql → Database × Option ℕ
  | .beginTransaction =>
    if db.inTransaction then (db, none)
    else match outcome with
      | some n => ({ db with inTransaction := true, pending := [] }, some n)
      | none => (db, none)
  | .commit =>
    if db.inTransaction then match outcome with
      | some n => (⟨false, [], db.applied ++ db.pending⟩, some n)
      | none => (⟨false, [], db.applied⟩, none)
    else (db, none)
  | .rollback =>
    if db.inTransaction then match outcome with
      | some n => (⟨false, [], db.applied⟩, some n)
      | none => (db, none)
    else (db, none)
  | .user q => match outcome with
    | some n =>
      if db.inTransaction then ({ db with pending := db.pending ++ [q] }, some n)
      else ({ db with applied := db.applied ++ [q] }, some n)
    | none => (db, none)

section
variable (env : Env)

/-- A native execution. -/
def State.execNative (σ : State) (sql : Sql) : State × Option ℕ :=
  let r := σ.db.exec (env.outcome σ.calls) sql
  ({ σ with
      db := r.1
      calls := σ.calls + 1
      log := σ.log ++ [⟨sql, r.2.isSome, σ.db.inTransaction, σ.autoCommit⟩] }, r.2)

/-- The number of changed rows, or an exception. -/
def native (sql : Sql) : ConnM ℕ := fun σ =>
  match σ.execNative env sql with
  | (σ', some n) => .ok n σ'
  | (σ', none) => .error .nativeFailure σ'

/-- A native call that executes nothing: `duckdb_jdbc_prepare` and the metadata. -/
def nativePrepare : ConnM Unit := do
  let σ ← get
  modify fun σ => { σ with calls := σ.calls + 1 }
  require ((env.outcome σ.calls).isSome = true) .nativeFailure

/-! ## Transactions -/

/-- `startTransaction`, with `run` for `execute` of a new statement. -/
def startTransactionWith (run : Sql → ConnM Unit) : ConnM Bool := do
  let σ ← get
  if σ.transactionRunning then pure false
  else do
    modify fun σ => { σ with transactionRunning := true }
    run .beginTransaction
    pure true

/-- `createStatement().execute(sql)`: calls nested at most `depth` deep. -/
def runStatement : ℕ → Sql → ConnM Unit
  | 0, _ => throw .stackOverflow
  | depth + 1, sql => do
    let σ ← get
    (if σ.autoCommit then pure () else discard (startTransactionWith (runStatement depth)))
    discard (native env sql)

/-- How deep the calls nest: a statement, and the BEGIN it may need. -/
def callDepth : ℕ := 2

/-- `startTransaction`. -/
def startTransaction : ConnM Bool := startTransactionWith (runStatement env callDepth)

/-- `DuckDBConnection.commit`. -/
def commit : ConnM Unit := do
  runStatement env callDepth .commit
  modify fun σ => { σ with transactionRunning := false }

/-- `DuckDBConnection.rollback`. -/
def rollback : ConnM Unit := do
  runStatement env callDepth .rollback
  modify fun σ => { σ with transactionRunning := false }

/-- `DuckDBConnection.setAutoCommit`. -/
def setAutoCommit (autoCommit : Bool) : ConnM Unit := do
  let σ ← get
  if σ.autoCommit = autoCommit then pure ()
  else do
    modify fun σ => { σ with autoCommit := autoCommit }
    (if σ.transactionRunning ∧ autoCommit then commit env else pure ())

end

/-! ## Statements -/

/-- `new DuckDBPreparedStatement(conn)` and `new DuckDBPreparedStatement(conn, sql)`, before
    `prepare`. -/
def Statement.new (isPreparedStatement : Bool) : Statement where
  closed := false
  isPreparedStatement := isPreparedStatement
  query := none
  stmtRef := none
  params := 0
  batchedParams := []
  batchedStatements := []
  isBatch := false
  hasResult := false
  returns := none
  updateResult := 0

/-- The statement numbered `s`. -/
def getStmt (s : ℕ) : ConnM Statement := fun σ => .ok (σ.stmts s) σ

def modifyStmt (s : ℕ) (f : Statement → Statement) : ConnM Unit :=
  modify fun σ => { σ with stmts := Function.update σ.stmts s (f (σ.stmts s)) }

/-- `close`. -/
def closeStmt (s : ℕ) : ConnM Unit :=
  modifyStmt s fun st => { st with closed := true, stmtRef := none, hasResult := false }

/-- `checkOpen`. -/
def checkOpen (s : ℕ) : ConnM Unit := do
  let st ← getStmt s
  require (st.closed = false) .statementClosed

/-- `checkPrepared`. -/
def checkPrepared (s : ℕ) : ConnM Unit := do
  let st ← getStmt s
  if st.isPreparedStatement then require (st.stmtRef.isSome = true) .prepareFirst
  else require (st.query.isSome = true) .noQuery

/-- `requireNonBatch`. -/
def requireNonBatch (s : ℕ) : ConnM Unit := do
  let st ← getStmt s
  require (st.isBatch = false) .batchOnly

section
variable (env : Env)

/-- `if (!isConnAutoCommit()) startTransaction()`. -/
def ensureTransaction : ConnM Unit := do
  let σ ← get
  (if σ.autoCommit then pure () else discard (startTransaction env))

/-- `prepare`. -/
def prepare (s text : ℕ) : ConnM Unit := do
  checkOpen s
  let st ← getStmt s
  if st.isPreparedStatement then
    catchWith
      (do
        modifyStmt s fun st =>
          { st with stmtRef := none, params := 0, hasResult := false, updateResult := 0 }
        ensureTransaction env
        nativePrepare env
        modifyStmt s fun st => { st with stmtRef := some text }
        nativePrepare env)
      fun e => do
        closeStmt s
        throw e
  else modifyStmt s fun st => { st with query := some text }

/-- What a statement executes: its prepared text with its parameters, or its query. -/
def Statement.toRun (st : Statement) : Query :=
  if st.isPreparedStatement then ⟨st.stmtRef.getD 0, st.params⟩ else ⟨st.query.getD 0, 0⟩

/-- The `try` block of `execute`: the number of changed rows. -/
def executeBody (s : ℕ) : ConnM ℕ := do
  modifyStmt s fun st => { st with hasResult := false }
  ensureTransaction env
  let st ← getStmt s
  let rows ← native env (.user st.toRun)
  modifyStmt s fun st' =>
    { st' with hasResult := true, returns := some (env.returns st.toRun.text), query := none }
  pure rows

/-- `execute`. -/
def execute (s : ℕ) : ConnM Unit := do
  checkOpen s
  checkPrepared s
  let rows ← catchWith (executeBody env s) fun e => do
    modifyStmt s fun st => { st with query := none }
    closeStmt s
    throw e
  modifyStmt s fun st =>
    if st.returns = some .changedRows then { st with updateResult := rows } else st

/-- `getUpdateCountInternal`. -/
def getUpdateCountInternal (s : ℕ) : ConnM ℤ := do
  checkOpen s
  let st ← getStmt s
  pure (if st.hasResult ∧ st.returns = some .changedRows then st.updateResult else -1)

/-- `executeQuery`. -/
def executeQuery (s : ℕ) : ConnM Unit := do
  requireNonBatch s
  execute env s
  let st ← getStmt s
  require (st.returns = some .queryResult) .noResultSet

/-- `executeLargeUpdate`. -/
def executeLargeUpdate (s : ℕ) : ConnM ℤ := do
  requireNonBatch s
  execute env s
  let st ← getStmt s
  require (st.returns ≠ some .queryResult) .resultSet
  getUpdateCountInternal s

/-- `addBatch(sql)`. -/
def addBatchSql (s text : ℕ) : ConnM Unit := do
  checkOpen s
  let st ← getStmt s
  require (st.isPreparedStatement = false) .batchPrepared
  modifyStmt s fun st =>
    { st with batchedStatements := st.batchedStatements ++ [text], isBatch := true }

/-- `addBatch()`. -/
def addBatch (s : ℕ) : ConnM Unit := do
  checkOpen s
  modifyStmt s fun st =>
    { st with batchedParams := st.batchedParams ++ [st.params], params := 0, isBatch := true }

/-- `clearBatch`. -/
def clearBatch (s : ℕ) : ConnM Unit := do
  checkOpen s
  modifyStmt s fun st => { st with batchedParams := [], batchedStatements := [], isBatch := false }

/-- The loop of a batch: `load` makes an item the next thing to execute. -/
def executeItems (s : ℕ) (load : ℕ → ConnM Unit) : List ℕ → ConnM (List ℤ)
  | [] => pure []
  | item :: items => do
    load item
    execute env s
    let n ← getUpdateCountInternal s
    let ns ← executeItems s load items
    pure (n :: ns)

/-- The rest of a batch once `startTransaction` has returned `tranStarted`. -/
def batchBody (s : ℕ) (tranStarted : Bool) (load : ℕ → ConnM Unit) (items : List ℕ) :
    ConnM (List ℤ) :=
  catchWith
    (do
      let updateCounts ← executeItems env s load items
      clearBatch s
      let σ ← get
      (if tranStarted ∧ σ.autoCommit then commit env else pure ())
      pure updateCounts)
    fun e => do
      let σ ← get
      (if tranStarted ∧ σ.autoCommit then rollback env else pure ())
      throw e

/-- `executeLargeBatch`: `executeBatchedPreparedStatement` or `executeBatchedStatements`. -/
def executeLargeBatch (s : ℕ) : ConnM (List ℤ) := do
  checkOpen s
  let st ← getStmt s
  if st.isPreparedStatement then do
    checkPrepared s
    let tranStarted ← startTransaction env
    batchBody env s tranStarted (fun params => modifyStmt s fun st => { st with params := params })
      st.batchedParams
  else do
    let tranStarted ← startTransaction env
    batchBody env s tranStarted (prepare env s) st.batchedStatements

/-! ## Runs -/

/-- The calls of an application. -/
inductive Op where
  | setAutoCommit (autoCommit : Bool)
  | commit
  | rollback
  | createStatement
  | prepareStatement (text : ℕ)
  | closeStmt (s : ℕ)
  | setParams (s params : ℕ)
  | execute (s : ℕ)
  | executeSql (s text : ℕ)
  | executeQuery (s : ℕ)
  | executeQuerySql (s text : ℕ)
  | executeUpdate (s : ℕ)
  | executeUpdateSql (s text : ℕ)
  | addBatchSql (s text : ℕ)
  | addBatch (s : ℕ)
  | clearBatch (s : ℕ)
  | executeBatch (s : ℕ)

/-- Number a new statement. -/
def newStmt (isPreparedStatement : Bool) : ConnM ℕ := fun σ =>
  .ok σ.count { σ with
    stmts := Function.update σ.stmts σ.count (.new isPreparedStatement)
    count := σ.count + 1 }

/-- One call. -/
def Op.call : Op → ConnM Unit
  | setAutoCommit b => Connection.setAutoCommit env b
  | commit => Connection.commit env
  | rollback => Connection.rollback env
  | createStatement => discard (newStmt false)
  | prepareStatement text => do
    let s ← newStmt true
    prepare env s text
  | closeStmt s => Connection.closeStmt s
  | setParams s params => do
    checkOpen s
    checkPrepared s
    modifyStmt s fun st => { st with params := params }
  | execute s => Connection.execute env s
  | executeSql s text => do
    requireNonBatch s
    prepare env s text
    Connection.execute env s
  | executeQuery s => Connection.executeQuery env s
  | executeQuerySql s text => do
    prepare env s text
    Connection.executeQuery env s
  | executeUpdate s => discard (executeLargeUpdate env s)
  | executeUpdateSql s text => do
    prepare env s text
    discard (executeLargeUpdate env s)
  | addBatchSql s text => Connection.addBatchSql s text
  | addBatch s => Connection.addBatch s
  | clearBatch s => Connection.clearBatch s
  | executeBatch s => discard (executeLargeBatch env s)

/-- The state after some calls; an exception leaves the state it was thrown in. -/
def run : List Op → State → State
  | [], σ => σ
  | op :: ops, σ => run ops (final (op.call env σ))

end

/-- A new connection. -/
def State.start (autoCommit : Bool) : State where
  autoCommit := autoCommit
  transactionRunning := false
  db := ⟨false, [], []⟩
  calls := 0
  log := []
  stmts := fun _ => { Statement.new false with closed := true }
  count := 0

/-- The native calls of these numbers fail, all others succeed and change one row. -/
def failsAt (calls : List ℕ) : Env where
  returns := fun _ => .changedRows
  outcome := fun k => if k ∈ calls then none else some 1

end DuckDBJava.Connection
