/-
  A connection, its statements, result sets and appenders, used by several threads.

  Every method is cut at its `lock()` and `unlock()` calls and at the calls that do so; what
  stands between them is one action.  Local variables that outlive an action are in `Locals`.
  The engine runs one query of the connection at a time.  How a native call ends is an `Answer`.

  A statement that `startTransaction` makes belongs to the thread that makes it.
-/
import DuckDBJava.Lib.Threads
import DuckDBJava.Connection.Machine

namespace DuckDBJava.Concurrency

open Threads Connection

/-- A statement of the user, or the one of thread `t` that executes BEGIN TRANSACTION. -/
inductive StmtId where
  | user (n : ℕ)
  | inner (t : Tid) (n : ℕ)
  deriving DecidableEq

/-- A result set, by its statement. -/
structure ResultId where
  stmt : StmtId
  n : ℕ
  deriving DecidableEq

/-- The locks of one connection. -/
inductive Lock where
  | connRef
  | stmtRef (k : StmtId)
  | appenderRef (a : ℕ)
  | resultRef (r : ResultId)
  | pendingRef (p : ℕ)
  deriving DecidableEq

/-- The references that execute queries. -/
inductive Handle where
  | pending (p : ℕ)
  | stmt (k : StmtId)
  deriving DecidableEq

/-- The lock of a reference. -/
def Handle.lock : Handle → Lock
  | .pending p => .pendingRef p
  | .stmt k => .stmtRef k

/-- `SQLException` and `NullPointerException`. -/
inductive Thrown where
  | sql
  | nullPointer
  deriving DecidableEq

/-- `catch (SQLException e)`. -/
def Thrown.isSql : Thrown → Bool
  | .sql => true
  | .nullPointer => false

/-- How a native call ends; the type of the result, the rows of the chunk that is fetched, and
    whether the column is a nested one. -/
structure Answer where
  fails : Bool
  returns : StatementReturnType
  rows : Option ℕ
  nested : Bool

/-- On whose behalf the connection is interrupted: a `cancel()`, or the timeout task of an
    execution. -/
inductive Canceller where
  | cancel (k : StmtId)
  | task (k : StmtId) (f : ℕ)
  deriving DecidableEq

/-- The methods, cut where they lock. -/
inductive Action where
  | nothing
  | prepare (k : StmtId)
  | prepareTry (k : StmtId)
  | prepareBody (k : StmtId)
  | prepareConn (k : StmtId)
  | prepareLocked (k : StmtId)
  | prepareNative (k : StmtId)
  | prepareMeta (k : StmtId)
  | ensureTransaction (k : StmtId)
  | executeSql (k : StmtId)
  | closeQuietly (k : StmtId)
  | execute (k : StmtId)
  | executeStart (k : StmtId)
  | executeTry (k : StmtId) (f : ℕ)
  | executeBody (k : StmtId) (f : ℕ)
  | executeDispatch (k : StmtId) (f : ℕ)
  | scheduleCancelTask (k : StmtId) (f : ℕ)
  | executeNative (k : StmtId) (f : ℕ)
  | executeDirect (k : StmtId) (f : ℕ)
  | addPending (p : ℕ)
  | trackStmt (k : StmtId)
  | executePending (k : StmtId) (f : ℕ)
  | executePendingBody (k : StmtId) (f p : ℕ)
  | enterEngine (k : StmtId) (f : ℕ) (x : Handle)
  | leaveEngine (k : StmtId) (f : ℕ) (x : Handle)
  | setPendingQuery (f p : ℕ)
  | finishExecute (k : StmtId) (f : ℕ)
  | setQueryFailed (f : ℕ)
  | executeFinally (k : StmtId) (f : ℕ)
  | executeFailed (k : StmtId) (f : ℕ)
  | readChangedRows (k : StmtId)
  | closeChangedRows (k : StmtId)
  | closeSelectResult (k : StmtId)
  | closeStmt (k : StmtId)
  | closeStmtBody (k : StmtId) (f : ℕ)
  | closeStmtRest (k : StmtId) (f : ℕ)
  | untrackStmt (k : StmtId) (f : ℕ)
  | removeStmt (k : StmtId)
  | setQueryTimeout (k : StmtId) (b : Bool)
  | setCloseOnCompletion (k : StmtId)
  | closePending (p : ℕ)
  | closePendingBody (p f : ℕ)
  | untrackPending (p f : ℕ)
  | removePending (p : ℕ)
  | closeResult (r : ResultId)
  | closeResultBody (r : ResultId) (f : ℕ)
  | closeCompleted (r : ResultId) (f : ℕ)
  | next (r : ResultId)
  | nextRest (r : ResultId)
  | fetchChunk (r : ResultId)
  | fetchConn (r : ResultId)
  | fetchNative (r : ResultId)
  | getString (r : ResultId)
  | castConn (r : ResultId)
  | castNative (r : ResultId)
  | flush (a : ℕ)
  | flushBody (a : ℕ)
  | closeAppender (a : ℕ)
  | closeAppenderBody (a : ℕ)
  | closeAppenderRest (a : ℕ)
  | removeAppender (a : ℕ)
  | clearAppender (a : ℕ)
  | closeConn
  | closeConnBody
  | closeConnInterrupt
  | closePendings
  | clearPendings
  | closeStmts
  | clearStmts
  | closeAppenders
  | clearAppenders
  | disconnect
  | cancel (k : StmtId) (who : Canceller)
  | cancelLocked (k : StmtId) (who : Canceller)
  | interrupt (k : StmtId) (who : Canceller)
  | runCancelTask (k : StmtId) (f : ℕ)
  deriving DecidableEq

/-- `DuckDBPreparedStatement`. -/
structure Statement where
  /-- `conn != null` -/
  hasConn : Bool
  isPreparedStatement : Bool
  /-- `stmtRef != null` -/
  hasStmtRef : Bool
  /-- `query != null` -/
  hasQuery : Bool
  closeOnCompletion : Bool
  selectResult : Option ℕ
  returns : Option StatementReturnType
  /-- `queryTimeoutSeconds > 0` -/
  queryTimeout : Bool
  /-- the execution whose timeout task it is -/
  cancelQueryFuture : Option ℕ

/-- `DuckDBResultSet`. -/
structure ResultSet where
  /-- `resultRef != null` -/
  isOpen : Bool
  finished : Bool
  currentChunk : Option ℕ
  chunkIdx : ℕ

/-- `DuckDBAppender`. -/
structure Appender where
  /-- `appenderRef != null` -/
  isOpen : Bool
  rowBegun : Bool
  rowIdx : ℕ

/-- The local variables of one call of `execute` or `close`. -/
structure Locals where
  pending : Option ℕ
  pendingQuery : Option ℕ
  hasResultRef : Bool
  queryFailed : Bool
  /-- the method did not return early -/
  completed : Bool

/-- The fields of the objects, and the engine. -/
structure Shared where
  /-- `connRef != null` -/
  connOpen : Bool
  autoCommit : Bool
  transactionRunning : Bool
  closing : Bool
  pendingQueries : List ℕ
  preparedStatements : List StmtId
  appenders : List ℕ
  stmts : StmtId → Statement
  results : ResultId → ResultSet
  /-- `pendingRef != null` -/
  pendings : ℕ → Bool
  apps : ℕ → Appender
  locals : ℕ → Locals
  /-- the number of the next new object or execution -/
  fresh : ℕ
  /-- the query that runs in the engine, by its execution -/
  running : Option (StmtId × ℕ)
  /-- timeout tasks that have not started -/
  scheduled : List (StmtId × ℕ)
  /-- interrupts by cancellers, with the query that ran -/
  interrupts : List (Canceller × Option (StmtId × ℕ))

/-- Code of a thread. -/
abbrev Code := List (Item Lock Action Thrown)

/-- What an action leaves. -/
abbrev Out := Shared × Except Thrown Code

/-! ## The fields -/

namespace Shared

variable (σ : Shared)

/-- `DuckDBPreparedStatement.isClosed`. -/
def stmtClosed (k : StmtId) : Bool := !(σ.stmts k).hasConn || !σ.connOpen

def ok (code : Code) : Out := (σ, .ok code)

def sql : Out := (σ, .error .sql)

def npe : Out := (σ, .error .nullPointer)

def setStmt (k : StmtId) (f : Statement → Statement) : Shared :=
  { σ with stmts := Function.update σ.stmts k (f (σ.stmts k)) }

def setResult (r : ResultId) (f : ResultSet → ResultSet) : Shared :=
  { σ with results := Function.update σ.results r (f (σ.results r)) }

def setApp (a : ℕ) (f : Appender → Appender) : Shared :=
  { σ with apps := Function.update σ.apps a (f (σ.apps a)) }

def setLocals (f : ℕ) (g : Locals → Locals) : Shared :=
  { σ with locals := Function.update σ.locals f (g (σ.locals f)) }

/-- New local variables, numbered `fresh`. -/
def newLocals : Shared :=
  { σ with
    locals := Function.update σ.locals σ.fresh ⟨none, none, false, false, false⟩
    fresh := σ.fresh + 1 }

end Shared

/-- `LinkedHashSet.add`. -/
def addTo {α : Type} [DecidableEq α] (l : List α) (a : α) : List α :=
  if a ∈ l then l else l ++ [a]

/-- `ReentrantLock.isLocked`. -/
def isLocked (owner : Owners Lock) (l : Lock) : Bool := (owner l).isSome

section
variable (σ : Shared) (ans : Answer)

/-! ## `DuckDBPendingQuery` -/

def closePending (p : ℕ) : Out :=
  if σ.pendings p then
    σ.newLocals.ok [.lock (.pendingRef p) (.closePendingBody p σ.fresh),
      .act (.untrackPending p σ.fresh)]
  else σ.ok []

def closePendingBody (p f : ℕ) : Out :=
  if σ.pendings p then
    if ans.fails then σ.sql
    else ({ σ with pendings := Function.update σ.pendings p false }.setLocals f fun v =>
      { v with completed := true }).ok []
  else σ.ok []

def untrackPending (p f : ℕ) : Out :=
  if (σ.locals f).completed && !σ.closing then σ.ok [.lock .connRef (.removePending p)]
  else σ.ok []

/-! ## `DuckDBResultSet` -/

def closeResult (r : ResultId) : Out :=
  if (σ.results r).isOpen then
    σ.newLocals.ok [.lock (.resultRef r) (.closeResultBody r σ.fresh),
      .act (.closeCompleted r σ.fresh)]
  else σ.ok []

def closeResultBody (r : ResultId) (f : ℕ) : Out :=
  if (σ.results r).isOpen then
    if ans.fails then σ.sql
    else ((σ.setResult r fun rs => { rs with isOpen := false }).setLocals f fun v =>
      { v with completed := true }).ok []
  else σ.ok []

/-- `if (stmt.closeOnCompletion) stmt.close()` -/
def closeCompleted (r : ResultId) (f : ℕ) : Out :=
  if (σ.locals f).completed && (σ.stmts r.stmt).closeOnCompletion then
    σ.ok [.act (.closeStmt r.stmt)]
  else σ.ok []

def next (r : ResultId) : Out :=
  let rs := σ.results r
  if !rs.isOpen then σ.sql
  else if rs.finished then σ.ok []
  else
    let σ' := σ.setResult r fun rs => { rs with chunkIdx := rs.chunkIdx + 1 }
    if rs.currentChunk.all (rs.chunkIdx + 1 > ·) then
      σ'.ok [.lock .connRef (.fetchChunk r), .act (.nextRest r)]
    else σ'.ok []

def nextRest (r : ResultId) : Out :=
  if (σ.results r).currentChunk = none then
    (σ.setResult r fun rs => { rs with finished := true }).ok []
  else σ.ok []

/-- `fetchChunk` with `connRefLock`. -/
def fetchChunk (r : ResultId) : Out :=
  σ.ok [.act (.fetchConn r), .catching Thrown.isSql (.closeResult r)]

def fetchConn (r : ResultId) : Out :=
  if σ.connOpen then σ.ok [.lock (.resultRef r) (.fetchNative r)] else σ.sql

def fetchNative (r : ResultId) : Out :=
  if (σ.results r).isOpen && !ans.fails then
    (σ.setResult r fun rs => { rs with currentChunk := ans.rows, chunkIdx := 1 }).ok []
  else σ.sql

def getString (r : ResultId) : Out :=
  if (σ.results r).isOpen then
    if ans.nested then σ.ok [.lock .connRef (.castConn r)] else σ.ok []
  else σ.sql

def castConn (r : ResultId) : Out :=
  if σ.connOpen then σ.ok [.lock (.resultRef r) (.castNative r)] else σ.sql

def castNative (r : ResultId) : Out :=
  if (σ.results r).isOpen && !ans.fails then σ.ok [] else σ.sql

/-! ## `DuckDBAppender` -/

def flush (a : ℕ) : Out :=
  let app := σ.apps a
  if !app.isOpen || app.rowBegun then σ.sql
  else if app.rowIdx = 0 then σ.ok []
  else σ.ok [.lock (.appenderRef a) (.flushBody a)]

def flushBody (a : ℕ) : Out :=
  if (σ.apps a).isOpen && !ans.fails then (σ.setApp a fun app => { app with rowIdx := 0 }).ok []
  else σ.sql

def closeAppender (a : ℕ) : Out :=
  if (σ.apps a).isOpen then σ.ok [.lock (.appenderRef a) (.closeAppenderBody a)] else σ.ok []

def closeAppenderBody (a : ℕ) : Out :=
  if (σ.apps a).isOpen then
    if (σ.apps a).rowIdx > 0 then
      σ.ok [.act (.flush a), .swallow Thrown.isSql, .act (.closeAppenderRest a)]
    else σ.ok [.act (.closeAppenderRest a)]
  else σ.ok []

def closeAppenderRest (a : ℕ) : Out :=
  if σ.closing then σ.ok [.act (.clearAppender a)]
  else σ.ok [.lock .connRef (.removeAppender a), .act (.clearAppender a)]

/-! ## `DuckDBPreparedStatement` -/

/-- `cleanupCancelQueryTask`: a task that has started is not stopped. -/
def cleanupCancelQueryTask (k : StmtId) : Shared :=
  match (σ.stmts k).cancelQueryFuture with
  | some f => { σ.setStmt k fun st => { st with cancelQueryFuture := none } with
      scheduled := σ.scheduled.filter (· ≠ (k, f)) }
  | none => σ

def scheduleCancelTask (k : StmtId) (f : ℕ) : Out :=
  if (σ.stmts k).queryTimeout then
    let σ' := cleanupCancelQueryTask σ k
    ({ σ' with scheduled := σ'.scheduled ++ [(k, f)] }.setStmt k fun st =>
      { st with cancelQueryFuture := some f }).ok []
  else σ.ok []

def closeSelectResult (k : StmtId) : Out :=
  match (σ.stmts k).selectResult with
  | some n => σ.ok [.act (.closeResult ⟨k, n⟩)]
  | none => σ.ok []

def closeStmt (k : StmtId) : Out :=
  if σ.stmtClosed k then σ.ok []
  else σ.newLocals.ok [.lock (.stmtRef k) (.closeStmtBody k σ.fresh),
    .act (.untrackStmt k σ.fresh)]

def closeStmtBody (k : StmtId) (f : ℕ) : Out :=
  if σ.stmtClosed k then σ.ok []
  else (cleanupCancelQueryTask σ k).ok [.act (.closeSelectResult k), .act (.closeStmtRest k f)]

def closeStmtRest (k : StmtId) (f : ℕ) : Out :=
  let σ' := σ.setStmt k fun st => { st with selectResult := none }
  if (σ.stmts k).hasStmtRef && ans.fails then σ'.sql
  else ((σ'.setStmt k fun st => { st with hasStmtRef := false, hasConn := false }).setLocals f
    fun v => { v with completed := true }).ok []

def untrackStmt (k : StmtId) (f : ℕ) : Out :=
  if (σ.locals f).completed && !σ.closing then σ.ok [.lock .connRef (.removeStmt k)]
  else σ.ok []

def prepare (k : StmtId) : Out :=
  if σ.stmtClosed k then σ.sql
  else if (σ.stmts k).isPreparedStatement then σ.ok [.lock (.stmtRef k) (.prepareTry k)]
  else (σ.setStmt k fun st => { st with hasQuery := true }).ok []

/-- The `try` and `catch` of `prepare`. -/
def prepareTry (k : StmtId) : Out :=
  σ.ok [.act (.prepareBody k), .catching Thrown.isSql (.closeStmt k)]

def prepareBody (k : StmtId) : Out :=
  if σ.stmtClosed k then σ.sql
  else if (σ.stmts k).hasStmtRef && ans.fails then σ.sql
  else (σ.setStmt k fun st => { st with hasStmtRef := false }).ok
    [.act (.closeSelectResult k), .act (.prepareConn k)]

def prepareConn (k : StmtId) : Out :=
  let σ' := σ.setStmt k fun st => { st with selectResult := none }
  if (σ.stmts k).hasConn then
    σ'.ok [.lock .connRef (.prepareLocked k), .act (.prepareMeta k)]
  else σ'.npe

def prepareLocked (k : StmtId) : Out :=
  if σ.connOpen then σ.ok [.act (.ensureTransaction k), .act (.prepareNative k)] else σ.sql

def prepareNative (k : StmtId) : Out :=
  if !(σ.stmts k).hasConn then σ.npe
  else if !σ.connOpen || ans.fails then σ.sql
  else ({ σ with preparedStatements := addTo σ.preparedStatements k }.setStmt k fun st =>
    { st with hasStmtRef := true }).ok []

def prepareMeta (k : StmtId) : Out :=
  if (σ.stmts k).hasStmtRef && !ans.fails then σ.ok [] else σ.sql

/-- `new DuckDBPreparedStatement(conn)`. -/
def Statement.new : Statement := ⟨true, false, false, false, false, none, none, false, none⟩

/-- `if (!isConnAutoCommit()) startTransaction()`: BEGIN TRANSACTION in a new statement of thread
    `t`, which is closed in any case. -/
def ensureTransaction (t : Tid) (k : StmtId) : Out :=
  if σ.stmtClosed k then σ.sql
  else if σ.autoCommit || σ.transactionRunning then σ.ok []
  else
    let s := StmtId.inner t σ.fresh
    ({ σ with transactionRunning := true, fresh := σ.fresh + 1 }.setStmt s fun _ => .new).ok
      [.act (.executeSql s), .catching (fun _ => true) (.closeQuietly s), .act (.closeStmt s)]

/-- `execute(sql)`. -/
def executeSql (k : StmtId) : Out := σ.ok [.act (.prepare k), .act (.execute k)]

def closeQuietly (k : StmtId) : Out := σ.ok [.act (.closeStmt k), .swallow fun _ => true]

/-- `checkOpen` and `checkPrepared`. -/
def executable (k : StmtId) : Bool :=
  let st := σ.stmts k
  !σ.stmtClosed k && if st.isPreparedStatement then st.hasStmtRef else st.hasQuery

/-- `execute` waits for a `cancel` that has the connection. -/
def execute (k : StmtId) : Out :=
  if executable σ k then σ.ok [.lock .connRef .nothing, .act (.executeStart k)] else σ.sql

def executeStart (k : StmtId) : Out :=
  let f := σ.fresh
  σ.newLocals.ok [.lock (.stmtRef k) (.executeTry k f),
    .catching (fun _ => true) (.executeFinally k f), .act (.executeFinally k f),
    .act (.readChangedRows k)]

/-- The `try` and `catch` of `execute`. -/
def executeTry (k : StmtId) (f : ℕ) : Out :=
  σ.ok [.act (.executeBody k f), .catching Thrown.isSql (.setQueryFailed f)]

def executeBody (k : StmtId) (f : ℕ) : Out :=
  if executable σ k then σ.ok [.act (.closeSelectResult k), .act (.executeDispatch k f)] else σ.sql

def executeDispatch (k : StmtId) (f : ℕ) : Out :=
  (σ.setStmt k fun st => { st with selectResult := none }).ok
    [.act (.ensureTransaction k), .act (.scheduleCancelTask k f), .act (.executeNative k f),
      .act (.finishExecute k f)]

def executeNative (k : StmtId) (f : ℕ) : Out :=
  let st := σ.stmts k
  if st.isPreparedStatement then
    if st.hasStmtRef then
      σ.ok [.act (.enterEngine k f (.stmt k)), .act (.leaveEngine k f (.stmt k))]
    else σ.sql
  else if st.hasConn then σ.ok [.lock .connRef (.executeDirect k f), .act (.executePending k f)]
  else σ.npe

/-- `executeDirect` with `connRefLock`. -/
def executeDirect (k : StmtId) (f : ℕ) : Out :=
  if !(σ.stmts k).hasConn then σ.npe
  else if !σ.connOpen || ans.fails then σ.sql
  else
    let p := σ.fresh
    ({ σ with pendings := Function.update σ.pendings p true, fresh := p + 1 }.setLocals f fun v =>
      { v with pending := some p }).ok [.lock .connRef (.addPending p), .act (.trackStmt k)]

def trackStmt (k : StmtId) : Out :=
  if (σ.stmts k).hasConn then
    { σ with preparedStatements := addTo σ.preparedStatements k }.ok []
  else σ.npe

def executePending (k : StmtId) (f : ℕ) : Out :=
  match (σ.locals f).pending with
  | some p => σ.ok [.lock (.pendingRef p) (.executePendingBody k f p)]
  | none => σ.npe

def executePendingBody (k : StmtId) (f p : ℕ) : Out :=
  if σ.pendings p then
    σ.ok [.act (.enterEngine k f (.pending p)), .act (.leaveEngine k f (.pending p)),
      .act (.setPendingQuery f p)]
  else σ.sql

/-- A native execution waits for the query that runs. -/
def enterEngine (k : StmtId) (f : ℕ) (x : Handle) : Out :=
  if σ.running = none then { σ with running := some (k, f) }.ok []
  else σ.ok [.act (.enterEngine k f x)]

def leaveEngine (f : ℕ) : Out :=
  let σ' := { σ with running := none }
  if ans.fails then σ'.sql else (σ'.setLocals f fun v => { v with hasResultRef := true }).ok []

/-- `duckdb_jdbc_query_result_meta`, and the new result set. -/
def finishExecute (k : StmtId) : Out :=
  let σ' := cleanupCancelQueryTask σ k
  if ans.fails || !(σ.stmts k).hasConn then σ'.sql
  else
    let n := σ'.fresh
    (({ σ' with fresh := n + 1 }.setResult ⟨k, n⟩ fun _ => ⟨true, false, none, 0⟩).setStmt k
      fun st => { st with selectResult := some n, returns := some ans.returns }).ok []

/-- The `finally` block of `execute`, without the lock. -/
def executeFinally (k : StmtId) (f : ℕ) : Out :=
  let v := σ.locals f
  (σ.setStmt k fun st => { st with hasQuery := false }).ok
    ((match v.pendingQuery with
      | some p => [.act (.closePending p)]
      | none => []) ++ if v.queryFailed then [.act (.executeFailed k f)] else [])

def executeFailed (k : StmtId) (f : ℕ) : Out :=
  match (σ.stmts k).selectResult with
  | some n => σ.ok [.act (.closeResult ⟨k, n⟩), .act (.closeStmt k)]
  | none => if (σ.locals f).hasResultRef && ans.fails then σ.sql else σ.ok [.act (.closeStmt k)]

def readChangedRows (k : StmtId) : Out :=
  if (σ.stmts k).returns = some .changedRows then
    match (σ.stmts k).selectResult with
    | some n => σ.ok [.act (.next ⟨k, n⟩), .act (.closeChangedRows k)]
    | none => σ.npe
  else σ.ok []

def closeChangedRows (k : StmtId) : Out :=
  match (σ.stmts k).selectResult with
  | some n => σ.ok [.act (.closeResult ⟨k, n⟩)]
  | none => σ.npe

/-! ## `cancel` -/

def cancel (owner : Owners Lock) (k : StmtId) (who : Canceller) : Out :=
  if σ.stmtClosed k then σ.sql
  else if isLocked owner (.stmtRef k) then σ.ok [.lock .connRef (.cancelLocked k who)]
  else σ.ok []

def cancelLocked (owner : Owners Lock) (k : StmtId) (who : Canceller) : Out :=
  if isLocked owner (.stmtRef k) then
    if (σ.stmts k).hasConn then σ.ok [.act (.interrupt k who)] else σ.sql
  else σ.ok []

/-- `conn.interrupt()` -/
def interrupt (who : Canceller) : Out :=
  if σ.connOpen then
    let σ' := { σ with interrupts := σ.interrupts ++ [(who, σ.running)] }
    if ans.fails then σ'.sql else σ'.ok []
  else σ.sql

/-- `CancelQueryTask.run` -/
def runCancelTask (k : StmtId) (f : ℕ) : Out :=
  if (k, f) ∈ σ.scheduled then
    let σ' := { σ with scheduled := σ.scheduled.filter (· ≠ (k, f)) }
    if σ.stmtClosed k then σ'.ok []
    else σ'.ok [.act (.cancel k (.task k f)), .swallow Thrown.isSql]
  else σ.ok []

/-! ## `DuckDBConnection.close` -/

def closeConn : Out := if σ.connOpen then σ.ok [.lock .connRef .closeConnBody] else σ.ok []

def closeConnBody : Out :=
  if σ.connOpen then
    { σ with closing := true }.ok [.act .closeConnInterrupt, .swallow Thrown.isSql,
      .act .closePendings, .act .closeStmts, .act .closeAppenders, .act .disconnect]
  else σ.ok []

def closeConnInterrupt : Out := if ans.fails then σ.sql else σ.ok []

def closePendings : Out :=
  σ.ok ((σ.pendingQueries.reverse.map fun p => .act (.closePending p)) ++ [.act .clearPendings])

def closeStmts : Out :=
  σ.ok ((σ.preparedStatements.reverse.map fun k => .act (.closeStmt k)) ++ [.act .clearStmts])

def closeAppenders : Out :=
  σ.ok ((σ.appenders.reverse.map fun a => .act (.closeAppender a)) ++ [.act .clearAppenders])

def disconnect : Out := if ans.fails then σ.sql else { σ with connOpen := false }.ok []

end

/-- What the actions do. -/
def exec : Semantics Shared Lock Action Thrown Answer := fun t owner ans a σ =>
  match a with
  | .nothing => σ.ok []
  | .prepare k => prepare σ k
  | .prepareTry k => prepareTry σ k
  | .prepareBody k => prepareBody σ ans k
  | .prepareConn k => prepareConn σ k
  | .prepareLocked k => prepareLocked σ k
  | .prepareNative k => prepareNative σ ans k
  | .prepareMeta k => prepareMeta σ ans k
  | .ensureTransaction k => ensureTransaction σ t k
  | .executeSql k => executeSql σ k
  | .closeQuietly k => closeQuietly σ k
  | .execute k => execute σ k
  | .executeStart k => executeStart σ k
  | .executeTry k f => executeTry σ k f
  | .executeBody k f => executeBody σ k f
  | .executeDispatch k f => executeDispatch σ k f
  | .scheduleCancelTask k f => scheduleCancelTask σ k f
  | .executeNative k f => executeNative σ k f
  | .executeDirect k f => executeDirect σ ans k f
  | .addPending p => { σ with pendingQueries := addTo σ.pendingQueries p }.ok []
  | .trackStmt k => trackStmt σ k
  | .executePending k f => executePending σ k f
  | .executePendingBody k f p => executePendingBody σ k f p
  | .enterEngine k f x => enterEngine σ k f x
  | .leaveEngine _ f _ => leaveEngine σ ans f
  | .setPendingQuery f p => (σ.setLocals f fun v => { v with pendingQuery := some p }).ok []
  | .finishExecute k _ => finishExecute σ ans k
  | .setQueryFailed f => (σ.setLocals f fun v => { v with queryFailed := true }).ok []
  | .executeFinally k f => executeFinally σ k f
  | .executeFailed k f => executeFailed σ ans k f
  | .readChangedRows k => readChangedRows σ k
  | .closeChangedRows k => closeChangedRows σ k
  | .closeSelectResult k => closeSelectResult σ k
  | .closeStmt k => closeStmt σ k
  | .closeStmtBody k f => closeStmtBody σ k f
  | .closeStmtRest k f => closeStmtRest σ ans k f
  | .untrackStmt k f => untrackStmt σ k f
  | .removeStmt k => { σ with preparedStatements := σ.preparedStatements.filter (· ≠ k) }.ok []
  | .setQueryTimeout k b =>
    if σ.stmtClosed k then σ.sql else (σ.setStmt k fun st => { st with queryTimeout := b }).ok []
  | .setCloseOnCompletion k =>
    if σ.stmtClosed k then σ.sql
    else (σ.setStmt k fun st => { st with closeOnCompletion := true }).ok []
  | .closePending p => closePending σ p
  | .closePendingBody p f => closePendingBody σ ans p f
  | .untrackPending p f => untrackPending σ p f
  | .removePending p => { σ with pendingQueries := σ.pendingQueries.filter (· ≠ p) }.ok []
  | .closeResult r => closeResult σ r
  | .closeResultBody r f => closeResultBody σ ans r f
  | .closeCompleted r f => closeCompleted σ r f
  | .next r => next σ r
  | .nextRest r => nextRest σ r
  | .fetchChunk r => fetchChunk σ r
  | .fetchConn r => fetchConn σ r
  | .fetchNative r => fetchNative σ ans r
  | .getString r => getString σ ans r
  | .castConn r => castConn σ r
  | .castNative r => castNative σ ans r
  | .flush a => flush σ a
  | .flushBody a => flushBody σ ans a
  | .closeAppender a => closeAppender σ a
  | .closeAppenderBody a => closeAppenderBody σ a
  | .closeAppenderRest a => closeAppenderRest σ a
  | .removeAppender a => { σ with appenders := σ.appenders.filter (· ≠ a) }.ok []
  | .clearAppender a => (σ.setApp a fun app => { app with isOpen := false }).ok []
  | .closeConn => closeConn σ
  | .closeConnBody => closeConnBody σ
  | .closeConnInterrupt => closeConnInterrupt σ ans
  | .closePendings => closePendings σ
  | .clearPendings => { σ with pendingQueries := [] }.ok []
  | .closeStmts => closeStmts σ
  | .clearStmts => { σ with preparedStatements := [] }.ok []
  | .closeAppenders => closeAppenders σ
  | .clearAppenders => { σ with appenders := [] }.ok []
  | .disconnect => disconnect σ ans
  | .cancel k who => cancel σ owner k who
  | .cancelLocked k who => cancelLocked σ owner k who
  | .interrupt _ who => interrupt σ ans who
  | .runCancelTask k f => runCancelTask σ k f

/-! ## Runs -/

/-- A call of the user, or a timeout task that starts. -/
inductive Op where
  | prepare (n : ℕ)
  | execute (n : ℕ)
  | executeSql (n : ℕ)
  | cancel (n : ℕ)
  | closeStatement (n : ℕ)
  | setQueryTimeout (n : ℕ) (b : Bool)
  | closeOnCompletion (n : ℕ)
  | next (n r : ℕ)
  | getString (n r : ℕ)
  | closeResult (n r : ℕ)
  | flush (a : ℕ)
  | closeAppender (a : ℕ)
  | closeConnection
  | timeout (k : StmtId) (f : ℕ)

def Op.action : Op → Action
  | .prepare n => .prepare (.user n)
  | .execute n => .execute (.user n)
  | .executeSql n => .executeSql (.user n)
  | .cancel n => .cancel (.user n) (.cancel (.user n))
  | .closeStatement n => .closeStmt (.user n)
  | .setQueryTimeout n b => .setQueryTimeout (.user n) b
  | .closeOnCompletion n => .setCloseOnCompletion (.user n)
  | .next n r => .next ⟨.user n, r⟩
  | .getString n r => .getString ⟨.user n, r⟩
  | .closeResult n r => .closeResult ⟨.user n, r⟩
  | .flush a => .flush a
  | .closeAppender a => .closeAppender a
  | .closeConnection => .closeConn
  | .timeout k f => .runCancelTask k f

/-- Everything at one time. -/
abbrev Sys := System Shared Lock Action Thrown

/-- A call of a thread, or its next step. -/
abbrev Move := Pick Op Answer

/-- One step. -/
def move (s : Sys) : Move → Sys
  | .call t op => callThread t op.action s
  | .go t ans => stepThread exec t ans s

/-- The state after the steps. -/
def runMoves (moves : List Move) (s : Sys) : Sys := moves.foldl move s

/-- A connection with open statements, the prepared ones as `isPrepared` says, and the appenders
    `appenders`, with `rowIdx a` rows. -/
def Shared.init (autoCommit : Bool) (isPrepared : ℕ → Bool) (appenders : List ℕ) (rowIdx : ℕ → ℕ) :
    Shared where
  connOpen := true
  autoCommit := autoCommit
  transactionRunning := false
  closing := false
  pendingQueries := []
  preparedStatements := []
  appenders := appenders
  stmts := fun
    | .user n => { Statement.new with isPreparedStatement := isPrepared n }
    | .inner _ _ => .new
  results := fun _ => ⟨false, false, none, 0⟩
  pendings := fun _ => false
  apps := fun a => ⟨decide (a ∈ appenders), false, rowIdx a⟩
  locals := fun _ => ⟨none, none, false, false, false⟩
  fresh := 0
  running := none
  scheduled := []
  interrupts := []

/-- All locks free, all threads idle. -/
def init (autoCommit : Bool) (isPrepared : ℕ → Bool) (appenders : List ℕ) (rowIdx : ℕ → ℕ) :
    Sys where
  shared := .init autoCommit isPrepared appenders rowIdx
  owner := fun _ => none
  threads := fun _ => ⟨[], none, false⟩

end DuckDBJava.Concurrency
