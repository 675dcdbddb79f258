/-
  The native handles behind one connection, its statements, pending queries and result sets.

  Java objects keep native objects in nullable references: `connRef`, `stmtRef`, `pendingRef`
  and `resultRef`.  Every native call is recorded with the handles it is passed; which of them
  fail, and what they answer, is left to `Env`.  A native call that fails does nothing.

  `DuckDBResultSet.close` and `DuckDBPreparedStatement.close` call each other; `closeResult` is
  given an explicit depth.  So is `execute`, which runs BEGIN TRANSACTION through another
  statement.
-/
import DuckDBJava.Connection.Machine

namespace DuckDBJava.Handles

open Exec Connection

/-- Native objects, by number. -/
abbrev Handle := ℕ

/-- A nullable reference to a native object, by the Java object that has it. -/
inductive Ref where
  | connRef
  | stmtRef (k : ℕ)
  | pendingRef (p : ℕ)
  | resultRef (r : ℕ)
  deriving DecidableEq

/-- A native call: the handles it is passed and the handle it releases. -/
structure NativeCall where
  args : List Handle
  releases : Option Handle
  deriving DecidableEq

/-- How the native calls of the run end, by their number: the type of the result in
    `duckdb_jdbc_query_result_meta`, and the rows of the chunk, if there is one, in
    `duckdb_jdbc_fetch`. -/
structure Env where
  fails : ℕ → Bool
  returns : ℕ → StatementReturnType
  rows : ℕ → Option ℕ

/-- What is thrown: a `SQLException` or a `NullPointerException`. -/
inductive Thrown where
  | statementClosed
  | connectionClosed
  | resultSetClosed
  | prepareFirst
  | noQuery
  | batchOnly
  | noResultSet
  | nullConn
  | nativeFailure
  | nullPointer
  | stackOverflow
  deriving DecidableEq

/-- `catch (SQLException e)` catches it. -/
def Thrown.isSql : Thrown → Bool
  | .nullPointer => false
  | .stackOverflow => false
  | _ => true

/-- `DuckDBPreparedStatement`. -/
structure Statement where
  /-- `conn != null` -/
  hasConn : Bool
  isPreparedStatement : Bool
  /-- `query != null` -/
  hasQuery : Bool
  closeOnCompletion : Bool
  isBatch : Bool
  selectResult : Option ℕ
  /-- `returnsResultSet`, `returnsChangedRows` and `returnsNothing`; `none` when all are false -/
  returns : Option StatementReturnType
  deriving DecidableEq

/-- `DuckDBResultSet`. -/
structure ResultSet where
  stmt : ℕ
  /-- the native result it was constructed with -/
  origin : Handle
  /-- the number of rows; `none` for the empty array -/
  currentChunk : Option ℕ
  chunkIdx : ℕ
  finished : Bool
  deriving DecidableEq

/-- `DuckDBConnection` with the objects made from it, and the native calls so far. -/
structure State where
  refs : Ref → Option Handle
  autoCommit : Bool
  transactionRunning : Bool
  closing : Bool
  pendingQueries : List ℕ
  preparedStatements : List ℕ
  stmts : ℕ → Statement
  stmtCount : ℕ
  results : ℕ → ResultSet
  resultCount : ℕ
  pendingCount : ℕ
  trace : List NativeCall
  /-- the next new handle -/
  next : Handle

/-- Calls on the connection and its objects. -/
abbrev HandleM (α : Type) := M Thrown State α

/-! ## Native calls -/

section
variable (env : Env)

/-- A native call with the handles `args`; its number. -/
def native (args : List Handle) (releases : Option Handle) : HandleM ℕ := fun σ =>
  let n := σ.trace.length
  if env.fails n then .error .nativeFailure { σ with trace := σ.trace ++ [⟨args, none⟩] }
  else .ok n { σ with trace := σ.trace ++ [⟨args, releases⟩] }

/-- A reference passed to a native call, which throws when it is null. -/
def ref (o : Ref) : HandleM Handle := fun σ =>
  match σ.refs o with
  | some h => .ok h σ
  | none => .error .nativeFailure σ

/-- A native call that returns a new native object. -/
def create (o : Ref) : HandleM Handle := do
  let h ← ref o
  discard (native env [h] none)
  let σ ← get
  modify fun σ => { σ with next := σ.next + 1 }
  pure σ.next

/-- `DuckDBNative.…(o); o = null`, for `duckdb_jdbc_release`, `duckdb_jdbc_release_pending`,
    `duckdb_jdbc_free_result` and `duckdb_jdbc_disconnect`. -/
def releaseRef (o : Ref) : HandleM Unit := do
  let h ← ref o
  discard (native env [h] (some h))
  modify fun σ => { σ with refs := Function.update σ.refs o none }

end

/-! ## The fields -/

/-- `DuckDBConnection.isClosed`. -/
def State.connClosed (σ : State) : Bool := (σ.refs .connRef).isNone

/-- `DuckDBPreparedStatement.isClosed`. -/
def State.stmtClosed (σ : State) (k : ℕ) : Bool := !(σ.stmts k).hasConn || σ.connClosed

/-- `DuckDBResultSet.isClosed`. -/
def State.resultClosed (σ : State) (r : ℕ) : Bool := (σ.refs (.resultRef r)).isNone

/-- `DuckDBConnection.checkOpen`. -/
def connCheckOpen : HandleM Unit := do
  let σ ← get
  require (σ.connClosed = false) .connectionClosed

/-- `DuckDBPreparedStatement.checkOpen`. -/
def checkOpen (k : ℕ) : HandleM Unit := do
  let σ ← get
  require (σ.stmtClosed k = false) .statementClosed

/-- `DuckDBResultSet.checkOpen`. -/
def resultCheckOpen (r : ℕ) : HandleM Unit := do
  let σ ← get
  require (σ.resultClosed r = false) .resultSetClosed

def modifyStmt (k : ℕ) (f : Statement → Statement) : HandleM Unit :=
  modify fun σ => { σ with stmts := Function.update σ.stmts k (f (σ.stmts k)) }

def modifyResult (r : ℕ) (f : ResultSet → ResultSet) : HandleM Unit :=
  modify fun σ => { σ with results := Function.update σ.results r (f (σ.results r)) }

/-- `LinkedHashSet.add`. -/
def addTo (l : List ℕ) (i : ℕ) : List ℕ := if i ∈ l then l else l ++ [i]

/-- `checkPrepared`. -/
def checkPrepared (k : ℕ) : HandleM Unit := do
  let σ ← get
  if (σ.stmts k).isPreparedStatement then
    require ((σ.refs (.stmtRef k)).isSome = true) .prepareFirst
  else require ((σ.stmts k).hasQuery = true) .noQuery

/-- The field `conn`, dereferenced. -/
def derefConn (k : ℕ) : HandleM Unit := do
  let σ ← get
  require ((σ.stmts k).hasConn = true) .nullPointer

/-- `requireNonBatch`. -/
def requireNonBatch (k : ℕ) : HandleM Unit := do
  let σ ← get
  require ((σ.stmts k).isBatch = false) .batchOnly

/-! ## Closing -/

section
variable (env : Env)

/-- `if (selectResult != null) selectResult.close(); selectResult = null`, with `closeResult`
    for `DuckDBResultSet.close`. -/
def dropSelectResultWith (closeResult : ℕ → HandleM Unit) (k : ℕ) : HandleM Unit := do
  let σ ← get
  match (σ.stmts k).selectResult with
  | none => pure ()
  | some r => do
    closeResult r
    modifyStmt k fun st => { st with selectResult := none }

/-- Untrack a closed statement, unless the connection is closing. -/
def untrackStmt (k : ℕ) : HandleM Unit :=
  modify fun σ =>
    if σ.closing then σ
    else { σ with preparedStatements := σ.preparedStatements.filter (· ≠ k) }

/-- `DuckDBPreparedStatement.close`. -/
def closeStmtWith (closeResult : ℕ → HandleM Unit) (k : ℕ) : HandleM Unit := do
  let σ ← get
  if σ.stmtClosed k then pure ()
  else do
    dropSelectResultWith closeResult k
    let σ ← get
    (if σ.refs (.stmtRef k) = none then pure () else releaseRef env (.stmtRef k))
    modifyStmt k fun st => { st with hasConn := false }
    untrackStmt k

/-- `DuckDBResultSet.close`: calls nested at most `depth` deep. -/
def closeResultAt (depth r : ℕ) : HandleM Unit := do
  let σ ← get
  if σ.resultClosed r then pure ()
  else match depth with
    | 0 => throw .stackOverflow
    | depth + 1 => do
      releaseRef env (.resultRef r)
      let σ ← get
      (if (σ.stmts (σ.results r).stmt).closeOnCompletion then
        closeStmtWith env (closeResultAt depth) (σ.results r).stmt
      else pure ())

/-- How deep the calls nest: a result set, the current one of its statement, and that again. -/
def closeDepth : ℕ := 2

/-- `DuckDBResultSet.close`. -/
def closeResult (r : ℕ) : HandleM Unit := closeResultAt env closeDepth r

/-- `DuckDBPreparedStatement.close`. -/
def closeStmt (k : ℕ) : HandleM Unit := closeStmtWith env (closeResult env) k

def dropSelectResult (k : ℕ) : HandleM Unit := dropSelectResultWith (closeResult env) k

/-- `DuckDBPendingQuery.close`. -/
def closePending (p : ℕ) : HandleM Unit := do
  let σ ← get
  if σ.refs (.pendingRef p) = none then pure ()
  else do
    releaseRef env (.pendingRef p)
    modify fun σ =>
      if σ.closing then σ else { σ with pendingQueries := σ.pendingQueries.filter (· ≠ p) }

/-- `DuckDBConnection.close`. -/
def closeConn : HandleM Unit := do
  let σ ← get
  if σ.connClosed then pure ()
  else do
    modify fun σ => { σ with closing := true }
    catchWith (do discard (do native env [← ref .connRef] none)) fun _ => pure ()
    let σ ← get
    forEach σ.pendingQueries.reverse (closePending env)
    modify fun σ => { σ with pendingQueries := [] }
    let σ ← get
    forEach σ.preparedStatements.reverse (closeStmt env)
    modify fun σ => { σ with preparedStatements := [] }
    releaseRef env .connRef

end

/-! ## Executing -/

/-- `new DuckDBPreparedStatement(conn)`, or `new DuckDBPreparedStatement(conn, sql)` before
    `prepare`. -/
def Statement.new (isPreparedStatement : Bool) : Statement where
  hasConn := true
  isPreparedStatement := isPreparedStatement
  hasQuery := false
  closeOnCompletion := false
  isBatch := false
  selectResult := none
  returns := none

/-- A new statement; its number. -/
def newStmt (isPreparedStatement : Bool) : HandleM ℕ := do
  let σ ← get
  modify fun σ =>
    { σ with
      stmts := Function.update σ.stmts σ.stmtCount (.new isPreparedStatement)
      stmtCount := σ.stmtCount + 1 }
  pure σ.stmtCount

/-- `DuckDBConnection.createStatement`. -/
def createStatement : HandleM ℕ := do
  connCheckOpen
  newStmt false

/-- `new DuckDBPendingQuery(conn, pendingRef)`, and track statement `k` too. -/
def newPending (h : Handle) (k : ℕ) : HandleM ℕ := do
  let σ ← get
  modify fun σ =>
    { σ with
      refs := Function.update σ.refs (.pendingRef σ.pendingCount) (some h)
      pendingCount := σ.pendingCount + 1
      pendingQueries := addTo σ.pendingQueries σ.pendingCount
      preparedStatements := addTo σ.preparedStatements k }
  pure σ.pendingCount

/-- `selectResult = new DuckDBResultSet(conn, this, resultMeta, resultRef)`, which needs `conn`,
    and the three flags of the return type. -/
def newResult (k : ℕ) (h : Handle) (type : StatementReturnType) : HandleM Unit := do
  let σ ← get
  require ((σ.stmts k).hasConn = true) .nullConn
  modify fun σ =>
    { σ with
      refs := Function.update σ.refs (.resultRef σ.resultCount) (some h)
      results := Function.update σ.results σ.resultCount ⟨k, h, none, 0, false⟩
      resultCount := σ.resultCount + 1
      stmts := Function.update σ.stmts k
        { σ.stmts k with selectResult := some σ.resultCount, returns := some type } }

/-- `stmtRef = duckdb_jdbc_prepare(…); conn.preparedStatements.add(this)`. -/
def setStmtRef (k : ℕ) (h : Handle) : HandleM Unit :=
  modify fun σ =>
    { σ with
      refs := Function.update σ.refs (.stmtRef k) (some h)
      preparedStatements := addTo σ.preparedStatements k }

section
variable (env : Env)

/-- `if (!isConnAutoCommit()) startTransaction()`, with `begin` for the statement that executes
    BEGIN TRANSACTION. -/
def ensureTransactionWith (begin : HandleM Unit) (k : ℕ) : HandleM Unit := do
  checkOpen k
  let σ ← get
  if σ.autoCommit then pure ()
  else if σ.transactionRunning then pure ()
  else do
    modify fun σ => { σ with transactionRunning := true }
    begin

/-- The `try` block of `prepare`. -/
def prepareBody (begin : HandleM Unit) (k : ℕ) : HandleM Unit := do
  let σ ← get
  (if σ.refs (.stmtRef k) = none then pure () else releaseRef env (.stmtRef k))
  dropSelectResult env k
  derefConn k
  connCheckOpen
  ensureTransactionWith begin k
  derefConn k
  let h ← create env .connRef
  setStmtRef k h
  discard (do native env [← ref (.stmtRef k)] none)

/-- `prepare`. -/
def prepareWith (begin : HandleM Unit) (k : ℕ) : HandleM Unit := do
  checkOpen k
  let σ ← get
  if (σ.stmts k).isPreparedStatement then
    catchWith (prepareBody env begin k) fun e => do
      (if e.isSql then closeStmt env k else pure ())
      throw e
  else modifyStmt k fun st => { st with hasQuery := true }

/-- `executeDirect`: the native result and the pending query. -/
def executeDirect (k : ℕ) : HandleM (Handle × Option ℕ) := do
  derefConn k
  connCheckOpen
  let h ← create env .connRef
  let p ← newPending h k
  let r ← create env (.pendingRef p)
  pure (r, some p)

/-- The `try` block of `execute` up to the native result. -/
def executeBody (begin : HandleM Unit) (k : ℕ) : HandleM (Handle × Option ℕ) := do
  checkOpen k
  checkPrepared k
  dropSelectResult env k
  ensureTransactionWith begin k
  let σ ← get
  if (σ.stmts k).isPreparedStatement then do
    let r ← create env (.stmtRef k)
    pure (r, none)
  else executeDirect env k

/-- The `finally` block of `execute`. -/
def executeFinally (k : ℕ) (resultRef : Option Handle) (pendingQuery : Option ℕ)
    (queryFailed : Bool) : HandleM Unit := do
  modifyStmt k fun st => { st with hasQuery := false }
  (match pendingQuery with
    | some p => closePending env p
    | none => pure ())
  if queryFailed then do
    let σ ← get
    (match (σ.stmts k).selectResult, resultRef with
      | some r, _ => closeResult env r
      | none, some h => discard (native env [h] (some h))
      | none, none => pure ())
    closeStmt env k
  else pure ()

/-- `fetchChunk`. -/
def fetchChunk (r : ℕ) : HandleM (Option ℕ) :=
  catchWith
    (do
      connCheckOpen
      resultCheckOpen r
      let n ← native env [← ref (.resultRef r), ← ref .connRef] none
      pure (env.rows n))
    fun e => do
      (if e.isSql then closeResult env r else pure ())
      throw e

/-- `DuckDBResultSet.next`. -/
def next (r : ℕ) : HandleM Bool := do
  resultCheckOpen r
  let σ ← get
  if (σ.results r).finished then pure false
  else do
    modifyResult r fun rs => { rs with chunkIdx := rs.chunkIdx + 1 }
    let σ ← get
    (if (σ.results r).currentChunk.all ((σ.results r).chunkIdx > ·) then do
      let chunk ← fetchChunk env r
      modifyResult r fun rs => { rs with currentChunk := chunk, chunkIdx := 1 }
    else pure ())
    let σ ← get
    if (σ.results r).currentChunk = none then do
      modifyResult r fun rs => { rs with finished := true }
      pure false
    else pure true

/-- The end of `execute`: read the number of changed rows. -/
def readChangedRows (k : ℕ) : HandleM Unit := do
  let σ ← get
  if (σ.stmts k).returns = some .changedRows then
    match (σ.stmts k).selectResult with
    | some r => do
      discard (next env r)
      closeResult env r
    | none => throw .nullPointer
  else pure ()

/-- `execute`: does it return a result set? -/
def executeWith (begin : HandleM Unit) (k : ℕ) : HandleM Bool := do
  checkOpen k
  checkPrepared k
  let (h, p) ← catchWith (executeBody env begin k) fun e => do
    executeFinally env k none none e.isSql
    throw e
  catchWith
    (do
      let n ← native env [h] none
      newResult k h (env.returns n))
    fun e => do
      executeFinally env k (some h) p e.isSql
      throw e
  executeFinally env k (some h) p false
  readChangedRows env k
  let σ ← get
  pure ((σ.stmts k).returns = some .queryResult)

/-- `try (Statement s = conn.createStatement()) { s.execute("BEGIN TRANSACTION"); }`: statements
    nested at most `depth` deep. -/
def beginAt : ℕ → HandleM Unit
  | 0 => throw .stackOverflow
  | depth + 1 => do
    let s ← createStatement
    catchWith
      (do
        requireNonBatch s
        prepareWith env (beginAt depth) s
        discard (executeWith env (beginAt depth) s))
      fun e => do
        catchWith (closeStmt env s) fun _ => pure ()
        throw e
    closeStmt env s

/-- How deep the statements nest: BEGIN TRANSACTION runs with `transactionRunning` set. -/
def beginDepth : ℕ := 1

/-- The body of `startTransaction`. -/
def beginTransaction : HandleM Unit := beginAt env beginDepth

/-- `prepare`. -/
def prepare (k : ℕ) : HandleM Unit := prepareWith env (beginTransaction env) k

/-- `execute`. -/
def execute (k : ℕ) : HandleM Bool := executeWith env (beginTransaction env) k

/-- `DuckDBConnection.prepareStatement`. -/
def prepareStatement : HandleM Unit := do
  connCheckOpen
  let k ← newStmt true
  prepare env k

/-- `execute(sql)`. -/
def executeSql (k : ℕ) : HandleM Unit := do
  requireNonBatch k
  prepare env k
  discard (execute env k)

/-- `executeQuery`: the current result set, which stays the current one. -/
def executeQuery (k : ℕ) : HandleM (Option ℕ) := do
  requireNonBatch k
  let returnsResultSet ← execute env k
  require (returnsResultSet = true) .noResultSet
  let σ ← get
  pure (σ.stmts k).selectResult

/-- `executeQuery(sql)`. -/
def executeQuerySql (k : ℕ) : HandleM (Option ℕ) := do
  prepare env k
  executeQuery env k

end

/-- `getResultSet`: the current result set, which is the current one no longer. -/
def getResultSet (k : ℕ) : HandleM (Option ℕ) := do
  checkOpen k
  let σ ← get
  if (σ.stmts k).returns = some .queryResult then do
    modifyStmt k fun st => { st with selectResult := none }
    pure (σ.stmts k).selectResult
  else pure none

/-- `closeOnCompletion`. -/
def closeOnCompletion (k : ℕ) : HandleM Unit := do
  checkOpen k
  modifyStmt k fun st => { st with closeOnCompletion := true }

/-! ## Runs -/

/-- A call on the connection, on its statement `k` or on its result set `r`. -/
inductive Op where
  | createStatement
  | prepareStatement
  | execute (k : ℕ)
  | executeSql (k : ℕ)
  | executeQuery (k : ℕ)
  | executeQuerySql (k : ℕ)
  | getResultSet (k : ℕ)
  | closeOnCompletion (k : ℕ)
  | next (r : ℕ)
  | closeResult (r : ℕ)
  | closeStatement (k : ℕ)
  | closeConnection
  deriving DecidableEq

/-- A call on a statement or on a result set that exists. -/
def Op.exists : Op → State → Bool
  | .execute k, σ | .executeSql k, σ | .executeQuery k, σ | .executeQuerySql k, σ
  | .getResultSet k, σ | .closeOnCompletion k, σ | .closeStatement k, σ => k < σ.stmtCount
  | .next r, σ | .closeResult r, σ => r < σ.resultCount
  | _, _ => true

section
variable (env : Env)

/-- One call. -/
def call : Op → HandleM Unit
  | .createStatement => discard createStatement
  | .prepareStatement => prepareStatement env
  | .execute k => discard (execute env k)
  | .executeSql k => executeSql env k
  | .executeQuery k => discard (executeQuery env k)
  | .executeQuerySql k => discard (executeQuerySql env k)
  | .getResultSet k => discard (getResultSet k)
  | .closeOnCompletion k => closeOnCompletion k
  | .next r => discard (next env r)
  | .closeResult r => closeResult env r
  | .closeStatement k => closeStmt env k
  | .closeConnection => closeConn env

/-- One call, if its object exists. -/
def step (op : Op) : HandleM Unit := do
  let σ ← get
  require (op.exists σ = true) .nullPointer
  call env op

/-- The state after the calls. -/
def run (ops : List Op) (σ : State) : State := ops.foldl (fun σ op => final (step env op σ)) σ

end

/-- A new connection, with native object `0`. -/
def State.init (autoCommit : Bool) : State where
  refs := fun
    | .connRef => some 0
    | _ => none
  autoCommit := autoCommit
  transactionRunning := false
  closing := false
  pendingQueries := []
  preparedStatements := []
  stmts := fun _ => .new false
  stmtCount := 0
  results := fun _ => ⟨0, 0, none, 0, true⟩
  resultCount := 0
  pendingCount := 0
  trace := []
  next := 1

end DuckDBJava.Handles
