/-
  `DuckDBDriver` with several threads: `connect`, `releaseDB`, the shutdown hook, and what users
  do with their connections.

  A thread is at one of the places of `Local`; a step takes it over a call of the engine or of the
  JVM, or over a `lock()`, and the statements up to the next one.  Whether a call succeeds is an
  input.  An instance of a database lives as long as an open connection or a reference is attached
  to it; a connection to a named database joins the instance that lives under this name.
-/
import DuckDBJava.Driver.Urls
import DuckDBJava.Lib.Parties

namespace DuckDBJava.Driver

open SessionInit Parties

/-! ## State -/

/-- A native connection: its instance, the thread on which `connect` has opened it, until it is the
    user's, and whether it is open. -/
structure Conn where
  inst : ℕ
  holder : Option Tid
  isOpen : Bool
  deriving DecidableEq

/-- A native database reference: its instance, and the url of the `connect` that has pinned it. -/
structure DbRef where
  inst : ℕ
  url : List Char
  deriving DecidableEq

/-- The parts of a session init file. -/
inductive Part where
  | db
  | conn
  deriving DecidableEq

/-- A part of a session init file that was executed on connection `conn` to instance `inst`. -/
structure Execution where
  part : Part
  conn : ℕ
  inst : ℕ
  sql : List Char
  succeeded : Bool
  deriving DecidableEq

/-- The static fields of the driver, the JVM and the engine. -/
structure Shared where
  pinnedDbRefs : List (List Char × ℕ)
  pinnedDbRefsLock : Option Tid
  pinnedDbRefsShutdownHookRegistered : Bool
  pinnedDbRefsShutdownHookRun : Bool
  sessionInitSQLFileDbNames : List (List Char)
  sessionInitSQLFileLock : Option Tid
  /-- the JVM is shutting down -/
  shuttingDown : Bool
  /-- the shutdown hooks, each with the thread that runs it -/
  hooks : List (Option Tid)
  /-- the instances, by number; the cache key of the database, or nothing for a private one -/
  instances : List (Option (List Char))
  conns : List Conn
  refs : List DbRef
  /-- the references that were destroyed, in order -/
  destroyed : List ℕ
  executions : List Execution
  /-- the connections that `connect` has returned, with the init file -/
  returned : List (ℕ × Option SessionInitSQLFile)

/-- `catch (SQLException e)` in `connect`, or another exception. -/
inductive Thrown where
  | sql
  | illegalState
  deriving DecidableEq

/-- Where a thread is; `c` is the connection that `connect` has opened. -/
inductive Local where
  | idle
  /-- `newConnection` -/
  | newConnection (p : Prepared)
  /-- the constructor of `DuckDBConnection` -/
  | setAutoCommit (p : Prepared) (c : ℕ)
  | pinDB (p : Prepared) (c : ℕ)
  /-- `pinDB` with the lock -/
  | pinLocked (p : Prepared) (c : ℕ)
  | registerHook (p : Prepared) (c : ℕ)
  /-- `finally` of `pinDB` -/
  | pinUnlock (p : Prepared) (c : ℕ) (thrown : Option Thrown)
  | runSessionInitSQLFile (p : Prepared) (c : ℕ)
  /-- `runSessionInitSQLFile` with the lock -/
  | initDb (p : Prepared) (c : ℕ) (sf : SessionInitSQLFile)
  /-- `close()` of the statement that has executed the database part -/
  | initDbClose (p : Prepared) (c : ℕ) (sf : SessionInitSQLFile)
  | initConn (p : Prepared) (c : ℕ) (sf : SessionInitSQLFile)
  /-- `close()` of the statement that has executed the connection part -/
  | initConnClose (p : Prepared) (c : ℕ)
  /-- `finally` of `runSessionInitSQLFile` -/
  | initUnlock (p : Prepared) (c : ℕ) (thrown : Bool)
  | returnConn (p : Prepared) (c : ℕ)
  | closeQuietly (c : ℕ)
  | releaseDB (url : List Char)
  /-- `releaseDB` with the lock -/
  | releaseLocked (url : List Char)
  /-- `finally` of `releaseDB`, with the result, or nothing for an exception -/
  | releaseUnlock (result : Option Bool)
  /-- `PinnedDbRefsShutdownHook.run` -/
  | hook
  /-- the hook with the lock -/
  | hookLocked
  /-- the loop of the hook, with the references left -/
  | hookDestroy (dbRefsList : List ℕ)
  /-- `finally` of the hook -/
  | hookUnlock

/-- A call of an idle thread. -/
inductive Op where
  | connect (r : Request)
  | releaseDB (url : List Char)
  /-- the user closes or duplicates a connection -/
  | close (c : ℕ)
  | duplicate (c : ℕ)
  /-- the JVM begins to shut down, or starts a hook -/
  | shutdown
  | startHook

/-- What a step takes from outside: a call, or whether the call of the engine succeeds. -/
inductive Input where
  | op (o : Op)
  | answer (succeeds : Bool)

/-! ## The engine -/

namespace Shared

variable (σ : Shared)

/-- A connection or a reference is attached to instance `i`. -/
def alive (i : ℕ) : Bool :=
  σ.conns.any (fun c => c.isOpen && c.inst == i) ||
    (List.range σ.refs.length).any fun r =>
      !σ.destroyed.contains r && (σ.refs[r]?.map DbRef.inst) == some i

/-- The instance of connection `c`. -/
def instOf (c : ℕ) : ℕ := (σ.conns[c]?.map Conn.inst).getD 0

/-- The instance that lives under a cache key. -/
def findInstance (key : List Char) : Option ℕ :=
  (List.range σ.instances.length).find? fun i => σ.instances[i]? == some (some key) && σ.alive i

/-- A new connection to instance `i`. -/
def attach (i : ℕ) (holder : Option Tid) : Shared :=
  { σ with conns := σ.conns ++ [⟨i, holder, true⟩] }

/-- A new instance. -/
def addInstance (key : Option (List Char)) : Shared :=
  { σ with instances := σ.instances ++ [key] }

/-- `duckdb_jdbc_startup`: an unnamed database is not cached. -/
def startup (env : Env) (t : Tid) (dbName : List Char) : Shared :=
  if dbName = memoryDb then (σ.addInstance none).attach σ.instances.length (some t)
  else match σ.findInstance (env.cacheKey dbName) with
    | some i => σ.attach i (some t)
    | none =>
      (σ.addInstance (some (env.cacheKey dbName))).attach σ.instances.length (some t)

def setConn (c : ℕ) (f : Conn → Conn) : Shared := { σ with conns := σ.conns.modify c f }

/-- `duckdb_jdbc_disconnect` -/
def disconnect (c : ℕ) : Shared := σ.setConn c fun x => { x with isOpen := false }

/-- `duckdb_jdbc_create_db_ref`, for the connection of a `connect` with a url. -/
def createDbRef (c : ℕ) (url : List Char) : Shared :=
  { σ with refs := σ.refs ++ [⟨σ.instOf c, url⟩] }

/-- `duckdb_jdbc_destroy_db_ref` -/
def destroyDbRef (r : ℕ) : Shared := { σ with destroyed := σ.destroyed ++ [r] }

/-- A part of the init file is executed on connection `c`. -/
def execute (part : Part) (c : ℕ) (sql : List Char) (succeeded : Bool) : Shared :=
  { σ with executions := σ.executions ++ [⟨part, c, σ.instOf c, sql, succeeded⟩] }

end Shared

/-! ## The driver -/

/-- `LinkedHashSet.add` -/
def addName (names : List (List Char)) (name : List Char) : List (List Char) :=
  if name ∈ names then names else names ++ [name]

section
variable (env : Env) (t : Tid) (ok : Bool) (σ : Shared)

/-- Calls of users and of the JVM. -/
def call : Op → Local × Shared
  | .connect r =>
    match prepare env r with
    | .ok (some p) => (.newConnection p, σ)
    | _ => (.idle, σ)
  | .releaseDB url => (.releaseDB url, σ)
  | .close c =>
    if σ.conns[c]?.map Conn.holder = some none then (.idle, σ.disconnect c) else (.idle, σ)
  | .duplicate c =>
    match σ.conns[c]? with
    | some ⟨i, none, true⟩ => (.idle, σ.attach i none)
    | _ => (.idle, σ)
  | .shutdown => (.idle, { σ with shuttingDown := true })
  | .startHook =>
    if σ.shuttingDown ∧ none ∈ σ.hooks then
      (.hook, { σ with hooks := σ.hooks.set (σ.hooks.idxOf none) (some t) })
    else (.idle, σ)

def newConnection (p : Prepared) : Local × Shared :=
  if ok then (.setAutoCommit p σ.conns.length, σ.startup env t p.dbName) else (.idle, σ)

/-- `duckdb_jdbc_set_auto_commit`: if it fails, nobody has the native connection. -/
def setAutoCommit (p : Prepared) (c : ℕ) : Local × Shared :=
  if ok then (.pinDB p c, σ) else (.idle, σ)

/-- `pinDB` up to `pinnedDbRefsLock.lock()`. -/
def pinDB (p : Prepared) (c : ℕ) : Local × Shared :=
  if !p.pinDBOpt || p.dbName = memoryDb then (.runSessionInitSQLFile p c, σ)
  else if σ.pinnedDbRefsLock = none then
    (.pinLocked p c, { σ with pinnedDbRefsLock := some t })
  else (.pinDB p c, σ)

def pinLocked (p : Prepared) (c : ℕ) : Local × Shared :=
  if σ.pinnedDbRefsShutdownHookRun || (σ.pinnedDbRefs.lookup p.dbName).isSome then
    (.pinUnlock p c none, σ)
  else if ok then
    let σ' := { σ.createDbRef c p.url with
      pinnedDbRefs := σ.pinnedDbRefs ++ [(p.dbName, σ.refs.length)] }
    if σ.pinnedDbRefsShutdownHookRegistered then (.pinUnlock p c none, σ')
    else (.registerHook p c, σ')
  else (.pinUnlock p c (some .sql), σ)

/-- `addShutdownHook` -/
def registerHook (p : Prepared) (c : ℕ) : Local × Shared :=
  if σ.shuttingDown then (.pinUnlock p c (some .illegalState), σ)
  else (.pinUnlock p c none,
    { σ with hooks := σ.hooks ++ [none], pinnedDbRefsShutdownHookRegistered := true })

/-- `unlock()`; `connect` catches an `SQLException` only. -/
def pinUnlock (p : Prepared) (c : ℕ) (thrown : Option Thrown) : Local × Shared :=
  (match thrown with
    | none => .runSessionInitSQLFile p c
    | some .sql => .closeQuietly c
    | some .illegalState => .idle,
    { σ with pinnedDbRefsLock := none })

/-- `runSessionInitSQLFile` up to `sessionInitSQLFileLock.lock()`. -/
def runSessionInitSQLFile (p : Prepared) (c : ℕ) : Local × Shared :=
  match p.sf with
  | none => (.returnConn p c, σ)
  | some sf =>
    if σ.sessionInitSQLFileLock = none then
      (.initDb p c sf, { σ with sessionInitSQLFileLock := some t })
    else (.runSessionInitSQLFile p c, σ)

def initDb (p : Prepared) (c : ℕ) (sf : SessionInitSQLFile) : Local × Shared :=
  if sf.dbInitSQL = [] then (.initConn p c sf, σ)
  else if p.dbName = memoryDb ∨ p.dbName ∉ σ.sessionInitSQLFileDbNames then
    (if ok then .initDbClose p c sf else .initUnlock p c true, σ.execute .db c sf.dbInitSQL ok)
  else (.initConn p c sf, σ)

def initDbClose (p : Prepared) (c : ℕ) (sf : SessionInitSQLFile) : Local × Shared :=
  if ok then
    (.initConn p c sf,
      { σ with sessionInitSQLFileDbNames := addName σ.sessionInitSQLFileDbNames p.dbName })
  else (.initUnlock p c true, σ)

def initConn (p : Prepared) (c : ℕ) (sf : SessionInitSQLFile) : Local × Shared :=
  if sf.connInitSQL = [] then (.initUnlock p c false, σ)
  else (if ok then .initConnClose p c else .initUnlock p c true,
    σ.execute .conn c sf.connInitSQL ok)

def initUnlock (p : Prepared) (c : ℕ) (thrown : Bool) : Local × Shared :=
  (if thrown then .closeQuietly c else .returnConn p c, { σ with sessionInitSQLFileLock := none })

/-- `return conn` -/
def returnConn (p : Prepared) (c : ℕ) : Local × Shared :=
  (.idle, { σ.setConn c fun x => { x with holder := none } with
    returned := σ.returned ++ [(c, p.sf)] })

def closeQuietly (c : ℕ) : Local × Shared := (.idle, if ok then σ.disconnect c else σ)

/-- `releaseDB` up to `pinnedDbRefsLock.lock()`. -/
def releaseDB (url : List Char) : Local × Shared :=
  if σ.pinnedDbRefsLock = none then
    (.releaseLocked url, { σ with pinnedDbRefsLock := some t })
  else (.releaseDB url, σ)

/-- The reference that `releaseDB(url)` takes out of the map. -/
def dbRefOf (url : List Char) : Option ℕ :=
  if σ.pinnedDbRefsShutdownHookRun then none
  else match dbNameFromUrl url with
    | .ok dbName => σ.pinnedDbRefs.lookup dbName
    | .error _ => none

def releaseLocked (url : List Char) : Local × Shared :=
  if σ.pinnedDbRefsShutdownHookRun then (.releaseUnlock (some false), σ)
  else match dbNameFromUrl url with
    | .error _ => (.releaseUnlock none, σ)
    | .ok dbName =>
      match σ.pinnedDbRefs.lookup dbName with
      | none => (.releaseUnlock (some false), σ)
      | some dbRef =>
        let σ' := { σ with pinnedDbRefs := σ.pinnedDbRefs.filter fun en => en.1 != dbName }
        if ok then (.releaseUnlock (some true), σ'.destroyDbRef dbRef)
        else (.releaseUnlock none, σ')

/-- `run()` up to `pinnedDbRefsLock.lock()`. -/
def hook : Local × Shared :=
  if σ.pinnedDbRefsLock = none then (.hookLocked, { σ with pinnedDbRefsLock := some t })
  else (.hook, σ)

def hookLocked : Local × Shared :=
  (.hookDestroy (σ.pinnedDbRefs.map Prod.snd).reverse, σ)

/-- The loop and the flag; an exception is printed. -/
def hookDestroy : List ℕ → Local × Shared
  | [] => (.hookUnlock, { σ with pinnedDbRefsShutdownHookRun := true })
  | dbRef :: rest =>
    if ok then (.hookDestroy rest, σ.destroyDbRef dbRef) else (.hookUnlock, σ)

end

/-- A step of thread `t`; an idle thread can make a call, every other one goes on. -/
def exec (env : Env) : Semantics Shared Local Input
  | t, .op o, .idle, σ => call env t σ o
  | t, .answer ok, l, σ =>
    match l with
    | .idle => (.idle, σ)
    | .newConnection p => newConnection env t ok σ p
    | .setAutoCommit p c => setAutoCommit ok σ p c
    | .pinDB p c => pinDB t σ p c
    | .pinLocked p c => pinLocked ok σ p c
    | .registerHook p c => registerHook σ p c
    | .pinUnlock p c thrown => pinUnlock σ p c thrown
    | .runSessionInitSQLFile p c => runSessionInitSQLFile t σ p c
    | .initDb p c sf => initDb ok σ p c sf
    | .initDbClose p c sf => initDbClose ok σ p c sf
    | .initConn p c sf => initConn ok σ p c sf
    | .initConnClose p c => (.initUnlock p c !ok, σ)
    | .initUnlock p c thrown => initUnlock σ p c thrown
    | .returnConn p c => returnConn σ p c
    | .closeQuietly c => closeQuietly ok σ c
    | .releaseDB url => releaseDB t σ url
    | .releaseLocked url => releaseLocked ok σ url
    | .releaseUnlock _ => (.idle, { σ with pinnedDbRefsLock := none })
    | .hook => hook t σ
    | .hookLocked => hookLocked σ
    | .hookDestroy dbRefsList => hookDestroy ok σ dbRefsList
    | .hookUnlock => (.idle, { σ with pinnedDbRefsLock := none })
  | _, .op _, l, σ => (l, σ)

/-- No connection yet, and every thread is idle. -/
def start : System Shared Local where
  shared := ⟨[], none, false, false, [], none, false, [], [], [], [], [], [], []⟩
  locals := fun _ => .idle

/-- Files of ASCII characters; the engine knows a database by its name, and every option. -/
def plainEnv : Env where
  init := ⟨fun bytes => bytes.map fun b => Char.ofNat b.toNat, fun _ => [], id, fun _ => true⟩
  equalsIgnoreCase := (· == ·)
  supportedOptions := fun _ => true
  cacheKey := id

/-- `connect(url, null)`, where every file has the given text. -/
def connectTo (url text : List Char) : Input :=
  .op (.connect ⟨url, fun _ => none, fun _ => some (text.map fun c => UInt8.ofNat c.toNat)⟩)

/-- Thread `t` makes as many steps, with these answers. -/
def goes (t : Tid) (answers : List Bool) : List (Tid × Input) :=
  answers.map fun succeeds => (t, .answer succeeds)

end DuckDBJava.Driver
