/-
  The session init files of the connections.

  `sessionInitSQLFileDbNames` says that the instance of a database that lives is initialized
  (`Inits`), as long as no instance is made for a database whose name is in it: names are never
  taken out of it, while instances end with their last connection or pin.  `KnowsConn` says what a
  thread knows of the connection that its `connect` has opened.  **`session_inits`**: where that
  does not happen, every connection that `connect` returns is initialized once, and so is its
  instance.
-/
import DuckDBJava.Driver.Machine
import Mathlib.Data.List.Infix

namespace DuckDBJava.Driver

open SessionInit Parties

/-! ## What `connect` promises -/

section
variable (σ : Shared)

/-- The database parts that were executed on instance `i`. -/
def dbInits (i : ℕ) : List (List Char) :=
  (σ.executions.filter fun e => e.part == .db && e.inst == i && e.succeeded).map Execution.sql

/-- The connection parts that were executed on connection `c`. -/
def connInits (c : ℕ) : List (List Char) :=
  (σ.executions.filter fun e => e.part == .conn && e.conn == c && e.succeeded).map Execution.sql

/-- The parts of the file were executed once. -/
structure InitOnce (c : ℕ) (sf : SessionInitSQLFile) : Prop where
  db : sf.dbInitSQL ≠ [] → (dbInits σ (σ.instOf c)).count sf.dbInitSQL = 1
  conn : sf.connInitSQL ≠ [] → (connInits σ c).count sf.connInitSQL = 1

/-- Every connection that `connect` has returned. -/
def SessionInits : Prop := ∀ c sf, (c, some sf) ∈ σ.returned → InitOnce σ c sf

end

section
variable (env : Env) (nameOf partOf : List Char → List Char)

/-- The cache key of the database, if it is not private. -/
def Prepared.key (p : Prepared) : Option (List Char) :=
  if p.dbName = memoryDb then none else some (env.cacheKey p.dbName)

/-- Who initializes a named database, writes its name in one way and has one file for it. -/
def Uniform (p : Prepared) : Prop :=
  ∀ key ∈ p.key env, ∀ sf ∈ p.sf, sf.dbInitSQL ≠ [] →
    p.dbName = nameOf key ∧ sf.dbInitSQL = partOf key

/-- The set has a name of the database. -/
def Marked (σ : Shared) (key : List Char) : Prop :=
  ∃ name ∈ σ.sessionInitSQLFileDbNames, name ≠ memoryDb ∧ env.cacheKey name = key

instance (σ : Shared) (key : List Char) : Decidable (Marked env σ key) :=
  inferInstanceAs (Decidable (∃ name ∈ σ.sessionInitSQLFileDbNames, _ ∧ _))

/-- No instance is made for a database that is marked, and the statement that has executed the
    database part is closed. -/
def NoNewInstance : Condition Shared Local Input
  | _, .answer ok, .newConnection p, σ => ok = true → Uniform env nameOf partOf p ∧
      ∀ key ∈ p.key env, σ.findInstance key = none → ¬ Marked env σ key
  | _, .answer ok, .initDbClose _ _ _, _ => ok = true
  | _, _, _, _ => True

end

instance (env : Env) (nameOf partOf : List Char → List Char) (p : Prepared) :
    Decidable (Uniform env nameOf partOf p) :=
  inferInstanceAs (Decidable (∀ key ∈ p.key env, ∀ sf ∈ p.sf, _ → _ ∧ _))

instance (env : Env) (nameOf partOf : List Char → List Char) (t : Tid) (n : Input) (l : Local)
    (σ : Shared) : Decidable (NoNewInstance env nameOf partOf t n l σ) := by
  unfold NoNewInstance
  split <;> infer_instance

/-! ## Instances -/

/-- A connection or a reference is attached to instance `i`. -/
def Alive (σ : Shared) (i : ℕ) : Prop :=
  (∃ x ∈ σ.conns, x.isOpen = true ∧ x.inst = i) ∨
    ∃ r x, σ.refs[r]? = some x ∧ r ∉ σ.destroyed ∧ x.inst = i

theorem alive_iff {σ : Shared} {i : ℕ} : σ.alive i = true ↔ Alive σ i := by
  unfold Shared.alive Alive
  rw [Bool.or_eq_true]
  refine or_congr ?_ ?_
  · simp
  · simp only [List.any_eq_true, List.mem_range, Bool.and_eq_true, Bool.not_eq_true',
      beq_iff_eq, Option.map_eq_some_iff, List.contains_eq_mem, decide_eq_false_iff_not]
    constructor
    · rintro ⟨r, -, hr, x, hx, rfl⟩
      exact ⟨r, x, hx, hr, rfl⟩
    · rintro ⟨r, x, hx, hr, rfl⟩
      exact ⟨r, (List.getElem?_eq_some_iff.1 hx).1, hr, x, hx, rfl⟩

theorem findInstance_eq_some {σ : Shared} {key : List Char} {i : ℕ}
    (h : σ.findInstance key = some i) : σ.instances[i]? = some (some key) ∧ Alive σ i := by
  have hfound := List.find?_some h
  simpa [alive_iff] using hfound

theorem findInstance_eq_none {σ : Shared} {key : List Char} (h : σ.findInstance key = none) {i : ℕ}
    (hi : σ.instances[i]? = some (some key)) : ¬ Alive σ i := by
  intro halive
  have hlt := (List.getElem?_eq_some_iff.1 hi).1
  have hnot := List.find?_eq_none.1 h i (List.mem_range.2 hlt)
  simp [hi, alive_iff.2 halive] at hnot

/-- What the engine keeps. -/
structure Sane (σ : Shared) : Prop where
  conns : ∀ x ∈ σ.conns, x.inst < σ.instances.length
  refs : ∀ x ∈ σ.refs, x.inst < σ.instances.length
  executions : ∀ e ∈ σ.executions, e.inst < σ.instances.length ∧ e.conn < σ.conns.length
  /-- one instance lives under a key -/
  unique : ∀ (i j : ℕ) (key : List Char), Alive σ i → Alive σ j →
    σ.instances[i]? = some (some key) → σ.instances[j]? = some (some key) → i = j
  /-- one connection that `connect` has not returned is attached to a private instance -/
  privates : ∀ (c c' : ℕ) (x x' : Conn), σ.conns[c]? = some x → σ.conns[c']? = some x' →
    x.inst = x'.inst → σ.instances[x.inst]? = some none → x.holder ≠ none → x'.holder ≠ none →
    c = c'

section
variable (env : Env) (nameOf partOf : List Char → List Char)

/-- The instances that live are initialized if they are marked; `pending` is initialized, too. -/
structure Inits (pending : Option ℕ) (σ : Shared) : Prop where
  done : ∀ (i : ℕ) (key : List Char), Alive σ i → σ.instances[i]? = some (some key) →
    Marked env σ key ∨ pending = some i → dbInits σ i = [partOf key]
  todo : ∀ (i : ℕ) (key : List Char), Alive σ i → σ.instances[i]? = some (some key) →
    ¬ Marked env σ key → pending ≠ some i → dbInits σ i = []

/-- A returned connection is initialized. -/
structure Done (c : ℕ) (sf : SessionInitSQLFile) (σ : Shared) : Prop where
  db : sf.dbInitSQL ≠ [] → dbInits σ (σ.instOf c) = [sf.dbInitSQL]
  conn : sf.connInitSQL ≠ [] → connInits σ c = [sf.connInitSQL]

/-- What holds at any time. -/
structure Sessions (σ : Shared) : Prop extends Sane σ where
  names : ∀ name ∈ σ.sessionInitSQLFileDbNames, name ≠ memoryDb → name = nameOf (env.cacheKey name)
  inits : σ.sessionInitSQLFileLock = none → Inits env partOf none σ
  returned : ∀ c sf, (c, some sf) ∈ σ.returned → Done c sf σ
  given : ∀ c sf, (c, sf) ∈ σ.returned → ∃ x, σ.conns[c]? = some x ∧ x.holder = none

/-- The connection of `connect`, before it is returned. -/
structure Opened (t : Tid) (p : Prepared) (c : ℕ) (σ : Shared) : Prop where
  conn : σ.conns[c]? = some ⟨σ.instOf c, some t, true⟩
  inst : σ.instances[σ.instOf c]? = some (p.key env)
  uniform : Uniform env nameOf partOf p

/-- Before `runSessionInitSQLFile`. -/
structure Before (t : Tid) (p : Prepared) (c : ℕ) (σ : Shared) : Prop
    extends Opened env nameOf partOf t p c σ where
  db : p.key env = none → dbInits σ (σ.instOf c) = []
  connTodo : connInits σ c = []

/-- Thread `t` holds `sessionInitSQLFileLock`. -/
structure InitLock (t : Tid) (pending : Option ℕ) (σ : Shared) : Prop
    extends Inits env partOf pending σ where
  lock : σ.sessionInitSQLFileLock = some t

/-- Thread `t` has opened connection `c`. -/
def Holder (t : Tid) (c : ℕ) (σ : Shared) : Prop := ∃ x, σ.conns[c]? = some x ∧ x.holder = some t

/-- What thread `t` knows. -/
def KnowsConn (t : Tid) : Local → Shared → Prop
  | .setAutoCommit p c, σ | .pinDB p c, σ | .pinLocked p c, σ | .registerHook p c, σ
  | .pinUnlock p c _, σ | .runSessionInitSQLFile p c, σ => Before env nameOf partOf t p c σ
  | .initDb p c sf, σ =>
    InitLock env partOf t none σ ∧ p.sf = some sf ∧ Before env nameOf partOf t p c σ
  | .initDbClose p c sf, σ =>
    InitLock env partOf t (some (σ.instOf c)) σ ∧ p.sf = some sf ∧ sf.dbInitSQL ≠ [] ∧
      Opened env nameOf partOf t p c σ ∧ dbInits σ (σ.instOf c) = [sf.dbInitSQL] ∧
      connInits σ c = []
  | .initConn p c sf, σ =>
    InitLock env partOf t none σ ∧ p.sf = some sf ∧ Opened env nameOf partOf t p c σ ∧
      (sf.dbInitSQL ≠ [] → dbInits σ (σ.instOf c) = [sf.dbInitSQL]) ∧ connInits σ c = []
  | .initConnClose p c, σ | .initUnlock p c false, σ =>
    InitLock env partOf t none σ ∧ Opened env nameOf partOf t p c σ ∧
      ∀ sf, p.sf = some sf → Done c sf σ
  | .initUnlock _ c true, σ => InitLock env partOf t none σ ∧ Holder t c σ
  | .returnConn p c, σ =>
    Opened env nameOf partOf t p c σ ∧ ∀ sf, p.sf = some sf → Done c sf σ
  | .closeQuietly c, σ => Holder t c σ
  | _, _ => True

end

/-! ## Steps of the engine -/

/-- A step that executes nothing: the connections that are held stay, but for those of `who`, and an
    instance that is new or comes to life is not marked. -/
structure EngineStep (env : Env) (who : Option Tid) (σ τ : Shared) : Prop where
  executions : τ.executions = σ.executions
  names : τ.sessionInitSQLFileDbNames = σ.sessionInitSQLFileDbNames
  lock : τ.sessionInitSQLFileLock = σ.sessionInitSQLFileLock
  returned : τ.returned = σ.returned
  instances : σ.instances <+: τ.instances
  alive : ∀ i, i < σ.instances.length → Alive τ i → Alive σ i
  fresh : ∀ (i : ℕ) (key : List Char), σ.instances.length ≤ i → τ.instances[i]? = some (some key) →
    i = σ.instances.length ∧ ¬ Marked env σ key ∧
      ∀ j, Alive σ j → σ.instances[j]? ≠ some (some key)
  conns : ∀ (c : ℕ) (x : Conn), σ.conns[c]? = some x →
    ∃ y, τ.conns[c]? = some y ∧ y.inst = x.inst ∧ y.holder = x.holder
  held : ∀ (c : ℕ) (x : Conn), σ.conns[c]? = some x → x.holder ≠ none → x.holder ≠ who →
    τ.conns[c]? = some x
  /-- the connections that are new -/
  opened : ∀ (c : ℕ) (y : Conn), σ.conns.length ≤ c → τ.conns[c]? = some y → c = σ.conns.length ∧
    y.inst < τ.instances.length ∧
      (y.holder ≠ none → τ.instances[y.inst]? = some none → y.inst = σ.instances.length)
  refs : ∀ x ∈ τ.refs, x.inst < τ.instances.length

namespace EngineStep

variable {env : Env} {nameOf partOf : List Char → List Char} {who : Option Tid} {σ τ : Shared}

theorem marked (h : EngineStep env who σ τ) {key : List Char} :
    Marked env τ key ↔ Marked env σ key := by
  rw [Marked, Marked, h.names]

theorem dbInits (h : EngineStep env who σ τ) (i : ℕ) : dbInits τ i = dbInits σ i := by
  rw [Driver.dbInits, Driver.dbInits, h.executions]

theorem connInits (h : EngineStep env who σ τ) (c : ℕ) : connInits τ c = connInits σ c := by
  rw [Driver.connInits, Driver.connInits, h.executions]

theorem instance_old (h : EngineStep env who σ τ) {i : ℕ} (hi : i < σ.instances.length) :
    τ.instances[i]? = σ.instances[i]? := by
  obtain ⟨more, hmore⟩ := h.instances
  rw [← hmore, List.getElem?_append_left hi]

theorem instOf (h : EngineStep env who σ τ) {c : ℕ} (hc : c < σ.conns.length) :
    τ.instOf c = σ.instOf c := by
  obtain ⟨y, hy, hinst, -⟩ := h.conns c _ (List.getElem?_eq_getElem hc)
  simp [Shared.instOf, hy, hinst, List.getElem?_eq_getElem hc]

/-- A connection is one of those before, or new. -/
theorem conn_cases (h : EngineStep env who σ τ) {c : ℕ} {y : Conn} (hy : τ.conns[c]? = some y) :
    (∃ x, σ.conns[c]? = some x ∧ y.inst = x.inst ∧ y.holder = x.holder) ∨ σ.conns.length ≤ c := by
  by_cases hc : c < σ.conns.length
  · obtain ⟨y', hy', hinst, hholder⟩ := h.conns c _ (List.getElem?_eq_getElem hc)
    rw [hy] at hy'
    cases hy'
    exact .inl ⟨_, List.getElem?_eq_getElem hc, hinst, hholder⟩
  · exact .inr (Nat.le_of_not_lt hc)

/-- An instance with a key is one of those before, or new. -/
theorem key_cases (h : EngineStep env who σ τ) {i : ℕ} {key : List Char}
    (hi : τ.instances[i]? = some (some key)) (halive : Alive τ i) :
    (Alive σ i ∧ σ.instances[i]? = some (some key)) ∨
      (i = σ.instances.length ∧ ¬ Marked env σ key ∧
        ∀ j, Alive σ j → σ.instances[j]? ≠ some (some key)) := by
  by_cases hlt : i < σ.instances.length
  · exact .inl ⟨h.alive i hlt halive, h.instance_old hlt ▸ hi⟩
  · exact .inr (h.fresh i key (Nat.le_of_not_lt hlt) hi)

theorem instances_length (h : EngineStep env who σ τ) :
    σ.instances.length ≤ τ.instances.length := h.instances.length_le

theorem sane (h : EngineStep env who σ τ) (hσ : Sane σ) : Sane τ where
  conns y hy := by
    obtain ⟨c, hc⟩ := List.getElem?_of_mem hy
    rcases h.conn_cases hc with ⟨x, hx, hinst, -⟩ | hnew
    · have hlt := hσ.conns x (List.mem_of_getElem? hx)
      rw [hinst]
      exact hlt.trans_le h.instances_length
    · exact (h.opened c y hnew hc).2.1
  refs := h.refs
  executions e he := by
    obtain ⟨hi, hc⟩ := hσ.executions e (h.executions ▸ he)
    obtain ⟨y, hy, -⟩ := h.conns e.conn _ (List.getElem?_eq_getElem hc)
    exact ⟨hi.trans_le h.instances_length, (List.getElem?_eq_some_iff.1 hy).1⟩
  unique i j key hi hj hki hkj := by
    rcases h.key_cases hki hi with ⟨hi, hki⟩ | ⟨rfl, -, hnone⟩
    · rcases h.key_cases hkj hj with ⟨hj, hkj⟩ | ⟨rfl, -, hnone⟩
      · exact hσ.unique i j key hi hj hki hkj
      · exact absurd hki (hnone i hi)
    · rcases h.key_cases hkj hj with ⟨hj, hkj⟩ | ⟨rfl, -⟩
      · exact absurd hkj (hnone j hj)
      · rfl
  privates c c' y y' hy hy' hsame hprivate hheld hheld' := by
    rcases h.conn_cases hy with ⟨x, hx, hinst, hholder⟩ | hnew
    · have hlt := hσ.conns x (List.mem_of_getElem? hx)
      rcases h.conn_cases hy' with ⟨x', hx', hinst', hholder'⟩ | hnew'
      · rw [hinst, h.instance_old hlt] at hprivate
        rw [hinst, hinst'] at hsame
        exact hσ.privates c c' x x' hx hx' hsame hprivate (hholder ▸ hheld) (hholder' ▸ hheld')
      · have hfresh := (h.opened c' y' hnew' hy').2.2 hheld' (hsame ▸ hprivate)
        rw [← hsame, hinst] at hfresh
        omega
    · have hfresh := (h.opened c y hnew hy).2.2 hheld hprivate
      rcases h.conn_cases hy' with ⟨x', hx', hinst', -⟩ | hnew'
      · have hlt := hσ.conns x' (List.mem_of_getElem? hx')
        rw [hsame, hinst'] at hfresh
        omega
      · rw [(h.opened c y hnew hy).1, (h.opened c' y' hnew' hy').1]

/-- On a new instance nothing was executed. -/
theorem dbInits_new (hσ : Sane σ) {i : ℕ} (hi : σ.instances.length ≤ i) :
    Driver.dbInits σ i = [] := by
  rw [Driver.dbInits, List.map_eq_nil_iff, List.filter_eq_nil_iff]
  intro e he hmem
  obtain ⟨⟨-, rfl⟩, -⟩ : (e.part = .db ∧ e.inst = i) ∧ e.succeeded = true := by simpa using hmem
  exact absurd (hσ.executions e he).1 (Nat.not_lt.2 hi)

/-- On a new connection nothing was executed. -/
theorem connInits_new (hσ : Sane σ) {c : ℕ} (hc : σ.conns.length ≤ c) :
    Driver.connInits σ c = [] := by
  rw [Driver.connInits, List.map_eq_nil_iff, List.filter_eq_nil_iff]
  intro e he hmem
  obtain ⟨⟨-, rfl⟩, -⟩ : (e.part = .conn ∧ e.conn = c) ∧ e.succeeded = true := by simpa using hmem
  exact absurd (hσ.executions e he).2 (Nat.not_lt.2 hc)

theorem inits (h : EngineStep env who σ τ) (hσ : Sane σ) {pending : Option ℕ}
    (hpending : ∀ i ∈ pending, i < σ.instances.length)
    (hinits : Inits env partOf pending σ) : Inits env partOf pending τ where
  done i key hi hki hdone := by
    rw [h.marked] at hdone
    rw [h.dbInits]
    rcases h.key_cases hki hi with ⟨hi, hki⟩ | ⟨rfl, hnot, -⟩
    · exact hinits.done i key hi hki hdone
    · rcases hdone with hmarked | hpend
      · exact absurd hmarked hnot
      · exact absurd (hpending _ hpend) (Nat.lt_irrefl _)
  todo i key hi hki hnot hpend := by
    rw [h.marked] at hnot
    rw [h.dbInits]
    rcases h.key_cases hki hi with ⟨hi, hki⟩ | ⟨rfl, -⟩
    · exact hinits.todo i key hi hki hnot hpend
    · exact dbInits_new hσ le_rfl

theorem done (h : EngineStep env who σ τ) {c : ℕ} (hc : c < σ.conns.length)
    {sf : SessionInitSQLFile} (hdone : Done c sf σ) : Done c sf τ := by
  refine ⟨fun hdb => ?_, fun hconn => ?_⟩
  · rw [h.instOf hc, h.dbInits]
    exact hdone.db hdb
  · rw [h.connInits]
    exact hdone.conn hconn

theorem sessions (h : EngineStep env who σ τ) (hσ : Sessions env nameOf partOf σ) :
    Sessions env nameOf partOf τ where
  toSane := h.sane hσ.toSane
  names name hname := hσ.names name (h.names ▸ hname)
  inits hfree := h.inits hσ.toSane nofun (hσ.inits (h.lock ▸ hfree))
  returned c sf hmem := by
    rw [h.returned] at hmem
    obtain ⟨x, hx, -⟩ := hσ.given c _ hmem
    exact h.done (List.getElem?_eq_some_iff.1 hx).1 (hσ.returned c sf hmem)
  given c sf hmem := by
    obtain ⟨x, hx, hholder⟩ := hσ.given c sf (h.returned ▸ hmem)
    obtain ⟨y, hy, -, hholder'⟩ := h.conns c x hx
    exact ⟨y, hy, hholder'.trans hholder⟩

end EngineStep

section
variable {env : Env} {nameOf partOf : List Char → List Char} {σ τ : Shared} {t : Tid}

theorem lt_conns {c : ℕ} {x : Conn} (h : σ.conns[c]? = some x) : c < σ.conns.length :=
  (List.getElem?_eq_some_iff.1 h).1

/-- A connection is attached to its instance. -/
theorem instOf_eq {c : ℕ} {x : Conn} (h : σ.conns[c]? = some x) : σ.instOf c = x.inst := by
  simp [Shared.instOf, h]

theorem alive_of_open {c : ℕ} {x : Conn} (h : σ.conns[c]? = some x) (hopen : x.isOpen = true) :
    Alive σ x.inst := .inl ⟨x, List.mem_of_getElem? h, hopen, rfl⟩

/-- No connection is opened and nothing is executed; references may be destroyed. -/
structure SameSessions (σ τ : Shared) : Prop where
  executions : τ.executions = σ.executions
  names : τ.sessionInitSQLFileDbNames = σ.sessionInitSQLFileDbNames
  lock : τ.sessionInitSQLFileLock = σ.sessionInitSQLFileLock
  returned : τ.returned = σ.returned
  instances : τ.instances = σ.instances
  conns : τ.conns = σ.conns
  refs : τ.refs = σ.refs
  destroyed : ∀ r ∈ σ.destroyed, r ∈ τ.destroyed

theorem SameSessions.engineStep (h : SameSessions σ τ) (hσ : Sane σ) :
    EngineStep env none σ τ where
  executions := h.executions
  names := h.names
  lock := h.lock
  returned := h.returned
  instances := by rw [h.instances]
  alive i _ halive := by
    rcases halive with ⟨x, hx, hopen⟩ | ⟨r, x, hx, hr, hi⟩
    · exact .inl ⟨x, h.conns ▸ hx, hopen⟩
    · exact .inr ⟨r, x, h.refs ▸ hx, fun hmem => hr (h.destroyed r hmem), hi⟩
  fresh i key hi hkey := by
    rw [h.instances] at hkey
    exact absurd (List.getElem?_eq_some_iff.1 hkey).1 (Nat.not_lt.2 hi)
  conns c x hx := ⟨x, h.conns ▸ hx, rfl, rfl⟩
  held c x hx _ _ := h.conns ▸ hx
  opened c y hc hy := absurd (lt_conns (h.conns ▸ hy)) (Nat.not_lt.2 hc)
  refs x hx := by
    rw [h.instances]
    exact hσ.refs x (h.refs ▸ hx)

/-- A connection joins instance `i`, which lives. -/
theorem engineStep_attach (hσ : Sane σ) {i : ℕ} {holder : Option Tid} (hi : Alive σ i)
    (hlt : i < σ.instances.length) (hkey : holder ≠ none → σ.instances[i]? ≠ some none) :
    EngineStep env none σ (σ.attach i holder) where
  executions := rfl
  names := rfl
  lock := rfl
  returned := rfl
  instances := List.prefix_rfl
  alive j _ halive := by
    rcases halive with ⟨x, hx, hopen, hj⟩ | href
    · rcases List.mem_append.1 hx with hx | hx
      · exact .inl ⟨x, hx, hopen, hj⟩
      · obtain rfl : x = ⟨i, holder, true⟩ := by simpa using hx
        exact hj ▸ hi
    · exact .inr href
  fresh j key hj hkey := absurd (List.getElem?_eq_some_iff.1 hkey).1 (Nat.not_lt.2 hj)
  conns c x hx := ⟨x, (List.getElem?_append_left (lt_conns hx)).trans hx, rfl, rfl⟩
  held c x hx _ _ := (List.getElem?_append_left (lt_conns hx)).trans hx
  opened c y hc hy := by
    have hlength := lt_conns hy
    simp only [Shared.attach, List.length_append, List.length_singleton] at hlength
    obtain rfl : c = σ.conns.length := by omega
    obtain rfl : y = ⟨i, holder, true⟩ := by simpa [Shared.attach] using hy.symm
    exact ⟨rfl, hlt, fun hheld hprivate => absurd hprivate (hkey hheld)⟩
  refs := hσ.refs

/-- A connection to a new instance, which is not marked. -/
theorem engineStep_create (hσ : Sane σ) {key : Option (List Char)} {holder : Option Tid}
    (hkey : ∀ k ∈ key, ¬ Marked env σ k ∧ ∀ j, Alive σ j → σ.instances[j]? ≠ some (some k)) :
    EngineStep env none σ ((σ.addInstance key).attach σ.instances.length holder) where
  executions := rfl
  names := rfl
  lock := rfl
  returned := rfl
  instances := List.prefix_append _ _
  alive j hj halive := by
    rcases halive with ⟨x, hx, hopen, hinst⟩ | href
    · rcases List.mem_append.1 hx with hx | hx
      · exact .inl ⟨x, hx, hopen, hinst⟩
      · obtain rfl : x = ⟨σ.instances.length, holder, true⟩ := by simpa using hx
        exact absurd hj (by rw [← hinst]; exact Nat.lt_irrefl _)
    · exact .inr href
  fresh j k hj hk := by
    have hlength := (List.getElem?_eq_some_iff.1 hk).1
    simp only [Shared.attach, Shared.addInstance, List.length_append,
      List.length_singleton] at hlength
    obtain rfl : j = σ.instances.length := by omega
    have hk : key = some k := by simpa [Shared.attach, Shared.addInstance] using hk
    exact ⟨rfl, hkey k hk⟩
  conns c x hx := ⟨x, (List.getElem?_append_left (lt_conns hx)).trans hx, rfl, rfl⟩
  held c x hx _ _ := (List.getElem?_append_left (lt_conns hx)).trans hx
  opened c y hc hy := by
    have hlength := lt_conns hy
    simp only [Shared.attach, Shared.addInstance, List.length_append,
      List.length_singleton] at hlength
    obtain rfl : c = σ.conns.length := by omega
    obtain rfl : y = ⟨σ.instances.length, holder, true⟩ := by
      simpa [Shared.attach, Shared.addInstance] using hy.symm
    exact ⟨rfl, by simp [Shared.attach, Shared.addInstance], fun _ _ => rfl⟩
  refs x hx := by
    have hlt := hσ.refs x hx
    simp only [Shared.attach, Shared.addInstance, List.length_append, List.length_singleton]
    omega

theorem setConn_getElem? (σ : Shared) (c c' : ℕ) (f : Conn → Conn) :
    (σ.setConn c f).conns[c']? = (σ.conns[c']?).map fun x => if c = c' then f x else x := by
  rw [Shared.setConn, List.getElem?_modify]
  split <;> rfl

/-- A connection is closed that nobody, or `who`, holds. -/
theorem engineStep_disconnect (hσ : Sane σ) {c : ℕ} {who : Option Tid}
    (hwho : ∀ x, σ.conns[c]? = some x → x.holder = none ∨ x.holder = who) :
    EngineStep env who σ (σ.disconnect c) where
  executions := rfl
  names := rfl
  lock := rfl
  returned := rfl
  instances := List.prefix_rfl
  alive i _ halive := by
    rcases halive with ⟨y, hy, hopen, hi⟩ | href
    · obtain ⟨c', hc'⟩ := List.getElem?_of_mem hy
      rw [Shared.disconnect, setConn_getElem?, Option.map_eq_some_iff] at hc'
      obtain ⟨x, hx, rfl⟩ := hc'
      split at hopen
      · cases hopen
      · next hne =>
        rw [if_neg hne] at hi
        exact .inl ⟨x, List.mem_of_getElem? hx, hopen, hi⟩
    · exact .inr href
  fresh j key hj hkey := absurd (List.getElem?_eq_some_iff.1 hkey).1 (Nat.not_lt.2 hj)
  conns c' x hx := by
    refine ⟨_, by rw [Shared.disconnect, setConn_getElem?, hx]; rfl, ?_, ?_⟩ <;> split <;> rfl
  held c' x hx hheld hother := by
    rw [Shared.disconnect, setConn_getElem?, hx, Option.map_some, if_neg]
    rintro rfl
    rcases hwho x hx with hnone | hw
    · exact hheld hnone
    · exact hother hw
  opened c' y hc' hy := by
    have hlength := lt_conns hy
    simp only [Shared.disconnect, Shared.setConn, List.length_modify] at hlength
    exact absurd hlength (Nat.not_lt.2 hc')
  refs := hσ.refs

/-- A reference to the instance of a connection that is open. -/
theorem engineStep_createDbRef (hσ : Sane σ) {c : ℕ} {x : Conn} (hc : σ.conns[c]? = some x)
    (hopen : x.isOpen = true) (url : List Char) (pinned : List (List Char × ℕ)) :
    EngineStep env none σ { σ.createDbRef c url with pinnedDbRefs := pinned } where
  executions := rfl
  names := rfl
  lock := rfl
  returned := rfl
  instances := List.prefix_rfl
  alive i _ halive := by
    rcases halive with hconn | ⟨r, y, hy, hr, hi⟩
    · exact .inl hconn
    · have hy : (σ.refs ++ [⟨σ.instOf c, url⟩])[r]? = some y := hy
      by_cases hlt : r < σ.refs.length
      · rw [List.getElem?_append_left hlt] at hy
        exact .inr ⟨r, y, hy, hr, hi⟩
      · rw [List.getElem?_append_right (Nat.le_of_not_lt hlt)] at hy
        obtain rfl : y = ⟨σ.instOf c, url⟩ := by
          simpa using List.mem_of_getElem? hy
        rw [← hi, instOf_eq hc]
        exact alive_of_open hc hopen
  fresh i key hi hkey := absurd (List.getElem?_eq_some_iff.1 hkey).1 (Nat.not_lt.2 hi)
  conns c x hx := ⟨x, hx, rfl, rfl⟩
  held c x hx _ _ := hx
  opened c y hc hy := absurd (lt_conns hy) (Nat.not_lt.2 hc)
  refs y hy := by
    rcases List.mem_append.1 hy with hy | hy
    · exact hσ.refs y hy
    · obtain rfl : y = ⟨σ.instOf c, url⟩ := by simpa using hy
      rw [instOf_eq hc]
      exact hσ.conns x (List.mem_of_getElem? hc)

end

/-! ## What stays known -/

section
variable {env : Env} {nameOf partOf : List Char → List Char} {σ τ : Shared} {t t' : Tid}
variable {p : Prepared} {c : ℕ} {sf : SessionInitSQLFile} {l l' : Local}

/-- What a step leaves of what thread `t` knows. -/
structure Stable (env : Env) (partOf : List Char → List Char) (t : Tid) (σ τ : Shared) : Prop where
  held : ∀ (c : ℕ) (x : Conn), σ.conns[c]? = some x → x.holder = some t → τ.conns[c]? = some x
  instances : ∀ i < σ.instances.length, τ.instances[i]? = σ.instances[i]?
  conn : ∀ (c : ℕ) (x : Conn), σ.conns[c]? = some x → x.holder = some t →
    connInits τ c = connInits σ c
  db : ∀ i, dbInits σ i ≠ [] → dbInits τ i = dbInits σ i
  privates : ∀ (c : ℕ) (x : Conn), σ.conns[c]? = some x → x.holder = some t →
    σ.instances[x.inst]? = some none → dbInits τ x.inst = dbInits σ x.inst
  lock : σ.sessionInitSQLFileLock = some t → τ.sessionInitSQLFileLock = some t ∧
    ∀ pending, (∀ i ∈ pending, i < σ.instances.length) → Inits env partOf pending σ →
      Inits env partOf pending τ

theorem EngineStep.stable {who : Option Tid} (h : EngineStep env who σ τ) (hσ : Sane σ)
    (hwho : who ≠ some t) : Stable env partOf t σ τ where
  held c x hx hheld :=
    h.held c x hx (by rw [hheld]; exact nofun) (by rw [hheld]; exact Ne.symm hwho)
  instances _ hi := h.instance_old hi
  conn c _ _ _ := h.connInits c
  db i _ := h.dbInits i
  privates _ x _ _ _ := h.dbInits x.inst
  lock hlock := ⟨h.lock.trans hlock, fun _ hpending => h.inits hσ hpending⟩

theorem Opened.lt_instances (h : Opened env nameOf partOf t p c σ) :
    σ.instOf c < σ.instances.length := (List.getElem?_eq_some_iff.1 h.inst).1

theorem Opened.alive (h : Opened env nameOf partOf t p c σ) : Alive σ (σ.instOf c) :=
  alive_of_open h.conn rfl

theorem Opened.holder (h : Opened env nameOf partOf t p c σ) : Holder t c σ := ⟨_, h.conn, rfl⟩

theorem Opened.instOf (h : Opened env nameOf partOf t p c σ) (hs : Stable env partOf t σ τ) :
    τ.instOf c = σ.instOf c := instOf_eq (hs.held c _ h.conn rfl)

theorem Opened.stable (h : Opened env nameOf partOf t p c σ) (hs : Stable env partOf t σ τ) :
    Opened env nameOf partOf t p c τ where
  conn := by
    rw [h.instOf hs]
    exact hs.held c _ h.conn rfl
  inst := by
    rw [h.instOf hs, hs.instances _ h.lt_instances]
    exact h.inst
  uniform := h.uniform

theorem Opened.db_stable (h : Opened env nameOf partOf t p c σ) (hs : Stable env partOf t σ τ)
    (hdb : dbInits σ (σ.instOf c) = [sf.dbInitSQL]) :
    dbInits τ (τ.instOf c) = [sf.dbInitSQL] := by
  rw [h.instOf hs, hs.db _ (by rw [hdb]; exact nofun), hdb]

theorem Opened.conn_stable (h : Opened env nameOf partOf t p c σ)
    (hs : Stable env partOf t σ τ) : connInits τ c = connInits σ c :=
  hs.conn c _ h.conn rfl

theorem Opened.done_stable (h : Opened env nameOf partOf t p c σ) (hs : Stable env partOf t σ τ)
    (hdone : Done c sf σ) : Done c sf τ where
  db hne := h.db_stable hs (hdone.db hne)
  conn hne := (h.conn_stable hs).trans (hdone.conn hne)

theorem Before.stable (h : Before env nameOf partOf t p c σ) (hs : Stable env partOf t σ τ) :
    Before env nameOf partOf t p c τ where
  toOpened := h.toOpened.stable hs
  db hprivate := by
    rw [h.toOpened.instOf hs, hs.privates c _ h.conn rfl (h.inst.trans (congrArg some hprivate))]
    exact h.db hprivate
  connTodo := (h.toOpened.conn_stable hs).trans h.connTodo

theorem InitLock.stable {pending : Option ℕ} (h : InitLock env partOf t pending σ)
    (hpending : ∀ i ∈ pending, i < σ.instances.length) (hs : Stable env partOf t σ τ) :
    InitLock env partOf t pending τ :=
  have hlock := hs.lock h.lock
  ⟨hlock.2 pending hpending h.toInits, hlock.1⟩

theorem Holder.stable (h : Holder t c σ) (hs : Stable env partOf t σ τ) : Holder t c τ := by
  obtain ⟨x, hx, hholder⟩ := h
  exact ⟨x, hs.held c x hx hholder, hholder⟩

theorem KnowsConn.stable (hs : Stable env partOf t σ τ)
    (hk : KnowsConn env nameOf partOf t l σ) : KnowsConn env nameOf partOf t l τ := by
  cases l with
  | setAutoCommit p c | pinDB p c | pinLocked p c | registerHook p c | pinUnlock p c thrown
  | runSessionInitSQLFile p c => exact Before.stable hk hs
  | initDb p c sf =>
    obtain ⟨hlock, hsf, hbefore⟩ := hk
    exact ⟨hlock.stable nofun hs, hsf, hbefore.stable hs⟩
  | initDbClose p c sf =>
    obtain ⟨hlock, hsf, hne, hopened, hdb, hconn⟩ := hk
    refine ⟨?_, hsf, hne, hopened.stable hs, hopened.db_stable hs hdb,
      (hopened.conn_stable hs).trans hconn⟩
    rw [hopened.instOf hs]
    refine hlock.stable ?_ hs
    rintro i ⟨rfl⟩
    exact hopened.lt_instances
  | initConn p c sf =>
    obtain ⟨hlock, hsf, hopened, hdb, hconn⟩ := hk
    exact ⟨hlock.stable nofun hs, hsf, hopened.stable hs,
      fun hne => hopened.db_stable hs (hdb hne), (hopened.conn_stable hs).trans hconn⟩
  | initConnClose p c =>
    obtain ⟨hlock, hopened, hdone⟩ := hk
    exact ⟨hlock.stable nofun hs, hopened.stable hs,
      fun sf hsf => hopened.done_stable hs (hdone sf hsf)⟩
  | initUnlock p c thrown =>
    cases thrown with
    | true =>
      obtain ⟨hlock, hholder⟩ := hk
      exact ⟨hlock.stable nofun hs, hholder.stable hs⟩
    | false =>
      obtain ⟨hlock, hopened, hdone⟩ := hk
      exact ⟨hlock.stable nofun hs, hopened.stable hs,
        fun sf hsf => hopened.done_stable hs (hdone sf hsf)⟩
  | returnConn p c =>
    obtain ⟨hopened, hdone⟩ := hk
    exact ⟨hopened.stable hs, fun sf hsf => hopened.done_stable hs (hdone sf hsf)⟩
  | closeQuietly c => exact Holder.stable hk hs
  | _ => trivial

/-- A step of thread `t` keeps what is known; `l'` is where `t` is then. -/
structure Kept (env : Env) (nameOf partOf : List Char → List Char) (t : Tid) (σ : Shared)
    (r : Local × Shared) : Prop where
  sessions : Sessions env nameOf partOf r.2
  own : KnowsConn env nameOf partOf t r.1 r.2
  others : ∀ t', t ≠ t' → Stable env partOf t' σ r.2

/-- The engine executes nothing, and `t` knows what it knows at the next place already. -/
theorem EngineStep.kept (h : EngineStep env none σ τ) (hσ : Sessions env nameOf partOf σ)
    (hk : KnowsConn env nameOf partOf t l' σ) : Kept env nameOf partOf t σ (l', τ) where
  sessions := h.sessions hσ
  own := hk.stable (h.stable hσ.toSane nofun)
  others _ _ := h.stable hσ.toSane nofun

/-! ## The steps of `connect` -/

theorem SameSessions.kept (h : SameSessions σ τ) (hσ : Sessions env nameOf partOf σ)
    (hk : KnowsConn env nameOf partOf t l' σ) : Kept env nameOf partOf t σ (l', τ) :=
  (h.engineStep hσ.toSane).kept hσ hk

theorem kept_same (hσ : Sessions env nameOf partOf σ) (hk : KnowsConn env nameOf partOf t l' σ) :
    Kept env nameOf partOf t σ (l', σ) :=
  SameSessions.kept ⟨rfl, rfl, rfl, rfl, rfl, rfl, rfl, fun _ hr => hr⟩ hσ hk

theorem startup_step (hσ : Sessions env nameOf partOf σ)
    (hnew : ∀ key ∈ p.key env, σ.findInstance key = none → ¬ Marked env σ key) :
    EngineStep env none σ (σ.startup env t p.dbName) ∧
      ∃ i, (σ.startup env t p.dbName).conns = σ.conns ++ [⟨i, some t, true⟩] ∧
        (σ.startup env t p.dbName).instances[i]? = some (p.key env) ∧
        (p.key env = none → i = σ.instances.length) := by
  unfold Shared.startup
  unfold Prepared.key at hnew ⊢
  split
  · refine ⟨engineStep_create hσ.toSane nofun, σ.instances.length, rfl, ?_, fun _ => rfl⟩
    simp [Shared.attach, Shared.addInstance]
  · next hnamed =>
    rw [if_neg hnamed] at hnew
    split
    · next i hfound =>
      obtain ⟨hi, halive⟩ := findInstance_eq_some hfound
      have hlt := (List.getElem?_eq_some_iff.1 hi).1
      refine ⟨engineStep_attach hσ.toSane halive hlt fun _ => ?_, i, rfl, hi, nofun⟩
      rw [hi]
      exact nofun
    · next hnone =>
      refine ⟨engineStep_create hσ.toSane ?_, σ.instances.length, rfl, ?_, nofun⟩
      · rintro key ⟨rfl⟩
        exact ⟨hnew _ rfl hnone, fun j hj hkey => findInstance_eq_none hnone hkey hj⟩
      · simp [Shared.attach, Shared.addInstance]

theorem newConnection_kept {ok : Bool} (hσ : Sessions env nameOf partOf σ)
    (hmeets : ok = true → Uniform env nameOf partOf p ∧
      ∀ key ∈ p.key env, σ.findInstance key = none → ¬ Marked env σ key) :
    Kept env nameOf partOf t σ (newConnection env t ok σ p) := by
  unfold newConnection
  split
  · next hok =>
    obtain ⟨huniform, hnew⟩ := hmeets hok
    obtain ⟨hstep, i, hconns, hinst, hprivate⟩ := startup_step (t := t) hσ hnew
    have hconn : (σ.startup env t p.dbName).conns[σ.conns.length]? = some ⟨i, some t, true⟩ := by
      simp [hconns]
    have hi : (σ.startup env t p.dbName).instOf σ.conns.length = i := instOf_eq hconn
    refine ⟨hstep.sessions hσ, ⟨⟨hi ▸ hconn, hi ▸ hinst, huniform⟩, fun hkey => ?_, ?_⟩,
      fun t' _ => hstep.stable hσ.toSane nofun⟩
    · rw [hstep.dbInits, hi, hprivate hkey]
      exact EngineStep.dbInits_new hσ.toSane le_rfl
    · rw [hstep.connInits]
      exact EngineStep.connInits_new hσ.toSane le_rfl
  · exact kept_same hσ trivial

theorem pinLocked_kept {ok : Bool} (hσ : Sessions env nameOf partOf σ)
    (hk : Before env nameOf partOf t p c σ) :
    Kept env nameOf partOf t σ (pinLocked ok σ p c) := by
  unfold pinLocked
  split
  · exact kept_same hσ hk
  · split
    · dsimp only
      split <;> exact (engineStep_createDbRef hσ.toSane hk.conn rfl _ _).kept hσ hk
    · exact kept_same hσ hk

/-- The lock is taken. -/
theorem lock_kept (hσ : Sessions env nameOf partOf σ) (hfree : σ.sessionInitSQLFileLock = none)
    (hsf : p.sf = some sf) (hk : Before env nameOf partOf t p c σ) :
    Kept env nameOf partOf t σ
      (.initDb p c sf, { σ with sessionInitSQLFileLock := some t }) where
  sessions := ⟨⟨hσ.conns, hσ.refs, hσ.executions, hσ.unique, hσ.privates⟩, hσ.names, nofun,
    fun c sf hmem => ⟨(hσ.returned c sf hmem).db, (hσ.returned c sf hmem).conn⟩, hσ.given⟩
  own := ⟨⟨⟨(hσ.inits hfree).done, (hσ.inits hfree).todo⟩, rfl⟩, hsf,
    ⟨hk.conn, hk.inst, hk.uniform⟩, hk.db, hk.connTodo⟩
  others _ _ := ⟨fun _ _ hx _ => hx, fun _ _ => rfl, fun _ _ _ _ => rfl, fun _ _ => rfl,
    fun _ _ _ _ _ => rfl, fun hlock => absurd (hfree.symm.trans hlock) nofun⟩

/-- `unlock()`. -/
theorem unlock_kept (hσ : Sessions env nameOf partOf σ) (hlock : InitLock env partOf t none σ)
    (hk : KnowsConn env nameOf partOf t l' { σ with sessionInitSQLFileLock := none }) :
    Kept env nameOf partOf t σ (l', { σ with sessionInitSQLFileLock := none }) where
  sessions := ⟨⟨hσ.conns, hσ.refs, hσ.executions, hσ.unique, hσ.privates⟩, hσ.names,
    fun _ => ⟨hlock.done, hlock.todo⟩,
    fun c sf hmem => ⟨(hσ.returned c sf hmem).db, (hσ.returned c sf hmem).conn⟩, hσ.given⟩
  own := hk
  others _ ht := ⟨fun _ _ hx _ => hx, fun _ _ => rfl, fun _ _ _ _ => rfl, fun _ _ => rfl,
    fun _ _ _ _ _ => rfl, fun h => absurd (Option.some.inj (hlock.lock.symm.trans h)) ht⟩

/-! ## Executing a part -/

theorem dbInits_execute (σ : Shared) (part : Part) (c : ℕ) (sql : List Char) (ok : Bool) (i : ℕ) :
    dbInits (σ.execute part c sql ok) i =
      if part = .db ∧ σ.instOf c = i ∧ ok = true then dbInits σ i ++ [sql] else dbInits σ i := by
  rw [dbInits, Shared.execute, List.filter_append, List.map_append, dbInits]
  by_cases h : part = .db ∧ σ.instOf c = i ∧ ok = true
  · simp [h]
  · rw [if_neg h, List.filter_cons_of_neg (by simpa [and_assoc] using h)]
    simp

theorem connInits_execute (σ : Shared) (part : Part) (c : ℕ) (sql : List Char) (ok : Bool)
    (c' : ℕ) : connInits (σ.execute part c sql ok) c' =
      if part = .conn ∧ c = c' ∧ ok = true then connInits σ c' ++ [sql] else connInits σ c' := by
  rw [connInits, Shared.execute, List.filter_append, List.map_append, connInits]
  by_cases h : part = .conn ∧ c = c' ∧ ok = true
  · simp [h]
  · rw [if_neg h, List.filter_cons_of_neg (by simpa [and_assoc] using h)]
    simp

/-- A part is executed on the connection of `connect`; a database part that succeeds is the first
    one of the instance. -/
theorem execute_sessions {part : Part} {sql : List Char} {ok : Bool} {pending : Option ℕ}
    (hσ : Sessions env nameOf partOf σ) (hlock : InitLock env partOf t pending σ)
    (hopened : Opened env nameOf partOf t p c σ)
    (hfirst : part = .db → ok = true → dbInits σ (σ.instOf c) = []) :
    Sessions env nameOf partOf (σ.execute part c sql ok) where
  conns := hσ.conns
  refs := hσ.refs
  executions e he := by
    rcases List.mem_append.1 he with he | he
    · exact hσ.executions e he
    · obtain rfl : e = ⟨part, c, σ.instOf c, sql, ok⟩ := by simpa using he
      exact ⟨hopened.lt_instances, lt_conns hopened.conn⟩
  unique := hσ.unique
  privates := hσ.privates
  names := hσ.names
  inits hfree := absurd (hlock.lock.symm.trans hfree) nofun
  returned c' sf' hmem := by
    obtain ⟨x, hx, hnone⟩ := hσ.given c' _ hmem
    have hdone := hσ.returned c' sf' hmem
    refine ⟨fun hne => ?_, fun hne => ?_⟩
    · show dbInits (σ.execute part c sql ok) (σ.instOf c') = _
      rw [dbInits_execute, if_neg, hdone.db hne]
      rintro ⟨hpart, hinst, hok⟩
      have hempty := hdone.db hne
      rw [← hinst, hfirst hpart hok] at hempty
      cases hempty
    · rw [connInits_execute, if_neg, hdone.conn hne]
      rintro ⟨-, rfl, -⟩
      rw [hopened.conn] at hx
      cases hx
      cases hnone
  given := hσ.given

theorem execute_stable {part : Part} {sql : List Char} {ok : Bool} {pending : Option ℕ}
    (hσ : Sane σ) (hlock : InitLock env partOf t pending σ)
    (hopened : Opened env nameOf partOf t p c σ)
    (hfirst : part = .db → ok = true → dbInits σ (σ.instOf c) = []) (ht : t ≠ t') :
    Stable env partOf t' σ (σ.execute part c sql ok) where
  held _ _ hx _ := hx
  instances _ _ := rfl
  conn c' x hx hholder := by
    rw [connInits_execute, if_neg]
    rintro ⟨-, rfl, -⟩
    rw [hopened.conn] at hx
    cases hx
    exact ht (Option.some.inj hholder)
  db i hi := by
    rw [dbInits_execute, if_neg]
    rintro ⟨hpart, rfl, hok⟩
    exact hi (hfirst hpart hok)
  privates c' x hx hholder hprivate := by
    rw [dbInits_execute, if_neg]
    rintro ⟨-, hinst, -⟩
    have hsame := hσ.privates c c' _ x hopened.conn hx hinst (by rw [hinst]; exact hprivate)
      nofun (by rw [hholder]; exact nofun)
    rw [← hsame, hopened.conn] at hx
    cases hx
    exact ht (Option.some.inj hholder)
  lock h := absurd (Option.some.inj (hlock.lock.symm.trans h)) ht

/-- Under the lock, the instance of a connection is initialized if and only if it is marked. -/
theorem Before.db_todo (hσ : Sessions env nameOf partOf σ) (hlock : InitLock env partOf t none σ)
    (hk : Before env nameOf partOf t p c σ) (hsf : p.sf = some sf) (hne : sf.dbInitSQL ≠ [])
    (hname : p.dbName = memoryDb ∨ p.dbName ∉ σ.sessionInitSQLFileDbNames) :
    dbInits σ (σ.instOf c) = [] := by
  cases hkey : p.key env with
  | none => exact hk.db hkey
  | some key =>
    refine hlock.todo _ key hk.alive (hk.inst.trans (congrArg some hkey)) ?_ nofun
    rintro ⟨name, hmem, hnamed, hcache⟩
    have hp := (hk.uniform key hkey sf hsf hne).1
    unfold Prepared.key at hkey
    split at hkey
    · cases hkey
    · next hnot =>
      refine (hname.resolve_left hnot) ?_
      have hsame : p.dbName = name := by
        rw [hp, ← hcache]
        exact (hσ.names name hmem hnamed).symm
      rwa [hsame]

theorem initDb_kept {ok : Bool} (hσ : Sessions env nameOf partOf σ)
    (hk : KnowsConn env nameOf partOf t (.initDb p c sf) σ) :
    Kept env nameOf partOf t σ (initDb ok σ p c sf) := by
  obtain ⟨hlock, hsf, hbefore⟩ := hk
  have hopened := hbefore.toOpened
  unfold initDb
  split
  · next hempty =>
    exact kept_same hσ ⟨hlock, hsf, hopened, fun hne => absurd hempty hne, hbefore.connTodo⟩
  · next hne =>
    split
    · next hname =>
      have htodo := hbefore.db_todo hσ hlock hsf hne hname
      refine ⟨execute_sessions hσ hlock hopened fun _ _ => htodo, ?_,
        fun t' ht => execute_stable hσ.toSane hlock hopened (fun _ _ => htodo) ht⟩
      have hdb : ∀ i, dbInits (σ.execute .db c sf.dbInitSQL ok) i =
          if σ.instOf c = i ∧ ok = true then dbInits σ i ++ [sf.dbInitSQL] else dbInits σ i := by
        intro i
        rw [dbInits_execute]
        simp
      cases ok with
      | false =>
        refine ⟨⟨⟨fun i key hi hkey hdone => ?_, fun i key hi hkey hnot hpend => ?_⟩, hlock.lock⟩,
          hopened.holder⟩
        · rw [hdb, if_neg (by simp)]
          exact hlock.done i key hi hkey hdone
        · rw [hdb, if_neg (by simp)]
          exact hlock.todo i key hi hkey hnot hpend
      | true =>
        refine ⟨⟨⟨fun i key hi hkey hdone => ?_, fun i key hi hkey hnot hpend => ?_⟩, hlock.lock⟩,
          hsf, hne, ⟨hopened.conn, hopened.inst, hopened.uniform⟩, ?_, ?_⟩
        · rw [hdb]
          by_cases hi' : σ.instOf c = i
          · subst hi'
            have hp : p.key env = some key := Option.some.inj (hopened.inst.symm.trans hkey)
            rw [if_pos ⟨rfl, rfl⟩, htodo, (hopened.uniform key hp sf hsf hne).2]
            rfl
          · rw [if_neg fun h => hi' h.1]
            refine hlock.done i key hi hkey (.inl (hdone.resolve_right fun hpend => ?_))
            exact hi' (Option.some.inj hpend)
        · rw [hdb, if_neg]
          · exact hlock.todo i key hi hkey hnot nofun
          · rintro ⟨rfl, -⟩
            exact hpend rfl
        · show dbInits (σ.execute .db c sf.dbInitSQL true) (σ.instOf c) = _
          rw [hdb, if_pos ⟨rfl, rfl⟩, htodo]
          rfl
        · show connInits (σ.execute .db c sf.dbInitSQL true) c = _
          rw [connInits_execute, if_neg nofun]
          exact hbefore.connTodo
    · next hname =>
      rw [not_or, not_not] at hname
      refine kept_same hσ ⟨hlock, hsf, hopened, fun _ => ?_, hbefore.connTodo⟩
      have hkey : p.key env = some (env.cacheKey p.dbName) := if_neg hname.1
      rw [hlock.done _ _ hopened.alive (hopened.inst.trans (congrArg some hkey))
        (.inl ⟨p.dbName, hname.2, hname.1, rfl⟩), (hopened.uniform _ hkey sf hsf hne).2]

theorem mem_addName {names : List (List Char)} {name m : List Char} :
    m ∈ addName names name ↔ m ∈ names ∨ m = name := by
  unfold addName
  split
  · next h =>
    refine ⟨.inl, fun hm => hm.elim id ?_⟩
    rintro rfl
    exact h
  · simp

theorem initDbClose_kept (hσ : Sessions env nameOf partOf σ)
    (hk : KnowsConn env nameOf partOf t (.initDbClose p c sf) σ) :
    Kept env nameOf partOf t σ (initDbClose true σ p c sf) := by
  obtain ⟨hlock, hsf, hne, hopened, hdb, hconn⟩ := hk
  rw [initDbClose, if_pos rfl]
  have hmarked : ∀ key, Marked env { σ with
      sessionInitSQLFileDbNames := addName σ.sessionInitSQLFileDbNames p.dbName } key ↔
      Marked env σ key ∨ p.key env = some key := by
    intro key
    unfold Marked Prepared.key
    constructor
    · rintro ⟨name, hmem, hnamed, hcache⟩
      rcases mem_addName.1 hmem with hmem | rfl
      · exact .inl ⟨name, hmem, hnamed, hcache⟩
      · rw [if_neg hnamed, hcache]
        exact .inr rfl
    · rintro (⟨name, hmem, hnamed, hcache⟩ | hkey)
      · exact ⟨name, mem_addName.2 (.inl hmem), hnamed, hcache⟩
      · split at hkey
        · cases hkey
        · next hnamed => exact ⟨p.dbName, mem_addName.2 (.inr rfl), hnamed, Option.some.inj hkey⟩
  refine ⟨⟨⟨hσ.conns, hσ.refs, hσ.executions, hσ.unique, hσ.privates⟩, fun name hmem hnamed => ?_,
    fun hfree => absurd (hlock.lock.symm.trans hfree) nofun,
    fun c sf hmem => ⟨(hσ.returned c sf hmem).db, (hσ.returned c sf hmem).conn⟩, hσ.given⟩,
    ⟨⟨⟨fun i key hi hkey hdone => ?_, fun i key hi hkey hnot _ => ?_⟩, hlock.lock⟩, hsf,
      ⟨hopened.conn, hopened.inst, hopened.uniform⟩, fun _ => hdb, hconn⟩,
    fun t' ht => ⟨fun _ _ hx _ => hx, fun _ _ => rfl, fun _ _ _ _ => rfl, fun _ _ => rfl,
      fun _ _ _ _ _ => rfl, fun h => absurd (Option.some.inj (hlock.lock.symm.trans h)) ht⟩⟩
  · rcases mem_addName.1 hmem with hmem | rfl
    · exact hσ.names name hmem hnamed
    · exact (hopened.uniform _ (if_neg hnamed) sf hsf hne).1
  · rw [hmarked] at hdone
    rcases hdone with (hold | hkey') | hpend
    · exact hlock.done i key hi hkey (.inl hold)
    · obtain rfl := hσ.unique _ _ key hi hopened.alive hkey
        (hopened.inst.trans (congrArg some hkey'))
      exact hlock.done _ key hi hkey (.inr rfl)
    · cases hpend
  · rw [hmarked, not_or] at hnot
    refine hlock.todo i key hi hkey hnot.1 ?_
    rintro ⟨rfl⟩
    exact hnot.2 (Option.some.inj (hopened.inst.symm.trans hkey))

theorem initConn_kept {ok : Bool} (hσ : Sessions env nameOf partOf σ)
    (hk : KnowsConn env nameOf partOf t (.initConn p c sf) σ) :
    Kept env nameOf partOf t σ (initConn ok σ p c sf) := by
  obtain ⟨hlock, hsf, hopened, hdb, hconn⟩ := hk
  unfold initConn
  split
  · next hempty =>
    refine kept_same hσ ⟨hlock, hopened, fun sf' hsf' => ?_⟩
    obtain rfl : sf = sf' := Option.some.inj (hsf.symm.trans hsf')
    exact ⟨hdb, fun hne => absurd hempty hne⟩
  · next hne =>
    have hsame : ∀ i, dbInits (σ.execute .conn c sf.connInitSQL ok) i = dbInits σ i := by
      intro i
      rw [dbInits_execute, if_neg nofun]
    have hinit : InitLock env partOf t none (σ.execute .conn c sf.connInitSQL ok) :=
      ⟨⟨fun i key hi hkey hdone => (hsame i).trans (hlock.done i key hi hkey hdone),
        fun i key hi hkey hnot hpend => (hsame i).trans (hlock.todo i key hi hkey hnot hpend)⟩,
        hlock.lock⟩
    refine ⟨execute_sessions hσ hlock hopened nofun, ?_,
      fun t' ht => execute_stable hσ.toSane hlock hopened nofun ht⟩
    cases ok with
    | false => exact ⟨hinit, hopened.holder⟩
    | true =>
      refine ⟨hinit, ⟨hopened.conn, hopened.inst, hopened.uniform⟩, fun sf' hsf' => ?_⟩
      obtain rfl : sf = sf' := Option.some.inj (hsf.symm.trans hsf')
      refine ⟨fun hne' => (hsame _).trans (hdb hne'), fun _ => ?_⟩
      show connInits (σ.execute .conn c sf.connInitSQL true) c = _
      rw [connInits_execute, if_pos ⟨rfl, rfl, rfl⟩, hconn]
      rfl

/-- The connection is the user's. -/
theorem returnConn_kept (hσ : Sessions env nameOf partOf σ)
    (hk : KnowsConn env nameOf partOf t (.returnConn p c) σ) :
    Kept env nameOf partOf t σ (returnConn σ p c) := by
  obtain ⟨hopened, hdone⟩ := hk
  have hget : ∀ c', (returnConn σ p c).2.conns[c']? =
      (σ.conns[c']?).map fun x => if c = c' then { x with holder := none } else x :=
    fun c' => setConn_getElem? σ c c' _
  have hold : ∀ (c' : ℕ) (y : Conn), (returnConn σ p c).2.conns[c']? = some y →
      ∃ x, σ.conns[c']? = some x ∧ y.inst = x.inst ∧ y.isOpen = x.isOpen ∧
        (y.holder ≠ none → x.holder ≠ none) := by
    intro c' y hy
    rw [hget, Option.map_eq_some_iff] at hy
    obtain ⟨x, hx, rfl⟩ := hy
    refine ⟨x, hx, ?_⟩
    split
    · exact ⟨rfl, rfl, fun h => absurd rfl h⟩
    · exact ⟨rfl, rfl, id⟩
  have halive : ∀ i, Alive (returnConn σ p c).2 i → Alive σ i := by
    rintro i (⟨y, hy, hopen, hi⟩ | href)
    · obtain ⟨c', hc'⟩ := List.getElem?_of_mem hy
      obtain ⟨x, hx, hinst, hopen', -⟩ := hold c' y hc'
      exact .inl ⟨x, List.mem_of_getElem? hx, hopen' ▸ hopen, hinst ▸ hi⟩
    · exact .inr href
  have hinstOf : ∀ c', (returnConn σ p c).2.instOf c' = σ.instOf c' := by
    intro c'
    unfold Shared.instOf
    rw [hget]
    cases σ.conns[c']? with
    | none => rfl
    | some x =>
      simp only [Option.map_some]
      split <;> rfl
  have hdone' : ∀ c' sf, Done c' sf σ → Done c' sf (returnConn σ p c).2 := fun c' sf h =>
    ⟨fun hne => by rw [hinstOf]; exact h.db hne, fun hne => h.conn hne⟩
  refine ⟨⟨⟨fun y hy => ?_, hσ.refs, fun e he => ?_, fun i j key hi hj => ?_,
    fun c₁ c₂ y₁ y₂ h₁ h₂ hsame hprivate hheld₁ hheld₂ => ?_⟩, hσ.names, fun hfree => ?_,
    fun c' sf hmem => ?_, fun c' sf hmem => ?_⟩, trivial, fun t' ht => ⟨fun c' x hx hholder => ?_,
      fun _ _ => rfl, fun _ _ _ _ => rfl, fun _ _ => rfl, fun _ _ _ _ _ => rfl,
      fun hlock => ⟨hlock, fun pending _ hinits => ?_⟩⟩⟩
  · obtain ⟨c', hc'⟩ := List.getElem?_of_mem hy
    obtain ⟨x, hx, hinst, -⟩ := hold c' y hc'
    rw [hinst]
    exact hσ.conns x (List.mem_of_getElem? hx)
  · refine ⟨(hσ.executions e he).1, ?_⟩
    simpa [returnConn, Shared.setConn] using (hσ.executions e he).2
  · exact hσ.unique i j key (halive i hi) (halive j hj)
  · obtain ⟨x₁, hx₁, hinst₁, -, hholder₁⟩ := hold c₁ y₁ h₁
    obtain ⟨x₂, hx₂, hinst₂, -, hholder₂⟩ := hold c₂ y₂ h₂
    rw [hinst₁] at hprivate
    exact hσ.privates c₁ c₂ x₁ x₂ hx₁ hx₂ (hinst₁ ▸ hinst₂ ▸ hsame) hprivate (hholder₁ hheld₁)
      (hholder₂ hheld₂)
  · have hinits := hσ.inits hfree
    exact ⟨fun i key hi => hinits.done i key (halive i hi),
      fun i key hi => hinits.todo i key (halive i hi)⟩
  · rcases List.mem_append.1 hmem with hmem | hmem
    · exact hdone' c' sf (hσ.returned c' sf hmem)
    · obtain ⟨rfl, hsf⟩ : c' = c ∧ p.sf = some sf := by simpa [eq_comm] using hmem
      exact hdone' c' sf (hdone sf hsf)
  · rcases List.mem_append.1 hmem with hmem | hmem
    · obtain ⟨x, hx, hnone⟩ := hσ.given c' sf hmem
      refine ⟨_, by rw [hget, hx]; rfl, ?_⟩
      split
      · rfl
      · exact hnone
    · obtain ⟨rfl, -⟩ : c' = c ∧ sf = p.sf := by simpa using hmem
      exact ⟨_, by rw [hget, hopened.conn, Option.map_some, if_pos rfl], rfl⟩
  · rw [hget, hx, Option.map_some, if_neg]
    rintro rfl
    rw [hopened.conn] at hx
    cases hx
    exact ht (Option.some.inj hholder)
  · exact ⟨fun i key hi => hinits.done i key (halive i hi),
      fun i key hi => hinits.todo i key (halive i hi)⟩

theorem closeQuietly_kept {ok : Bool} (hσ : Sessions env nameOf partOf σ) (hk : Holder t c σ) :
    Kept env nameOf partOf t σ (closeQuietly ok σ c) := by
  cases ok with
  | false => exact kept_same hσ trivial
  | true =>
    have hstep : EngineStep env (some t) σ (σ.disconnect c) := by
      refine engineStep_disconnect hσ.toSane fun x hx => .inr ?_
      obtain ⟨y, hy, hholder⟩ := hk
      rw [hx] at hy
      cases hy
      exact hholder
    exact ⟨hstep.sessions hσ, trivial, fun t' ht =>
      hstep.stable hσ.toSane fun h => ht (Option.some.inj h)⟩

/-! ## Every step -/

theorem call_kept (hσ : Sessions env nameOf partOf σ) (o : Op) :
    Kept env nameOf partOf t σ (call env t σ o) := by
  have hquiet : ∀ {τ l'}, SameSessions σ τ → KnowsConn env nameOf partOf t l' σ →
      Kept env nameOf partOf t σ (l', τ) := fun h hk => h.kept hσ hk
  cases o with
  | connect r =>
    simp only [call]
    split <;> exact kept_same hσ trivial
  | releaseDB url => exact kept_same hσ trivial
  | close c =>
    simp only [call]
    split
    · next hnone =>
      refine (engineStep_disconnect hσ.toSane fun x hx => .inl ?_).kept hσ trivial
      rw [hx] at hnone
      exact Option.some.inj hnone
    · exact kept_same hσ trivial
  | duplicate c =>
    simp only [call]
    split
    · next i hc =>
      have hlt := hσ.conns _ (List.mem_of_getElem? hc)
      exact (engineStep_attach hσ.toSane (alive_of_open hc rfl) hlt fun h => absurd rfl h).kept hσ
        trivial
    · exact kept_same hσ trivial
  | shutdown => exact hquiet ⟨rfl, rfl, rfl, rfl, rfl, rfl, rfl, fun _ hr => hr⟩ trivial
  | startHook =>
    simp only [call]
    split
    · exact hquiet ⟨rfl, rfl, rfl, rfl, rfl, rfl, rfl, fun _ hr => hr⟩ trivial
    · exact kept_same hσ trivial

/-- What one step keeps. -/
theorem exec_kept {n : Input} (hσ : Sessions env nameOf partOf σ)
    (hk : KnowsConn env nameOf partOf t l σ) (hmeets : NoNewInstance env nameOf partOf t n l σ) :
    Kept env nameOf partOf t σ (exec env t n l σ) := by
  have hquiet : ∀ {τ l'}, SameSessions σ τ → KnowsConn env nameOf partOf t l' σ →
      Kept env nameOf partOf t σ (l', τ) := fun h hk => h.kept hσ hk
  cases n with
  | op o =>
    cases l with
    | idle => exact call_kept hσ o
    | _ => exact kept_same hσ hk
  | answer ok =>
    cases l with
    | idle => exact kept_same hσ trivial
    | newConnection p => exact newConnection_kept hσ hmeets
    | setAutoCommit p c =>
      cases ok with
      | true => exact kept_same hσ hk
      | false => exact kept_same hσ trivial
    | pinDB p c =>
      simp only [exec, pinDB]
      split
      · exact kept_same hσ hk
      · split
        · exact hquiet ⟨rfl, rfl, rfl, rfl, rfl, rfl, rfl, fun _ hr => hr⟩ hk
        · exact kept_same hσ hk
    | pinLocked p c => exact pinLocked_kept hσ hk
    | registerHook p c =>
      simp only [exec, registerHook]
      split
      · exact kept_same hσ hk
      · exact hquiet ⟨rfl, rfl, rfl, rfl, rfl, rfl, rfl, fun _ hr => hr⟩ hk
    | pinUnlock p c thrown =>
      refine hquiet ⟨rfl, rfl, rfl, rfl, rfl, rfl, rfl, fun _ hr => hr⟩ ?_
      rcases thrown with _ | _ | _
      · exact hk
      · exact Opened.holder (Before.toOpened hk)
      · trivial
    | runSessionInitSQLFile p c =>
      simp only [exec, runSessionInitSQLFile]
      split
      · next hsf =>
        refine kept_same hσ ⟨Before.toOpened hk, fun sf hsf' => ?_⟩
        rw [hsf] at hsf'
        cases hsf'
      · next sf hsf =>
        split
        · next hfree => exact lock_kept hσ hfree hsf hk
        · exact kept_same hσ hk
    | initDb p c sf => exact initDb_kept hσ hk
    | initDbClose p c sf =>
      obtain rfl : ok = true := hmeets
      exact initDbClose_kept hσ hk
    | initConn p c sf => exact initConn_kept hσ hk
    | initConnClose p c =>
      cases ok with
      | true => exact kept_same hσ hk
      | false => exact kept_same hσ ⟨hk.1, hk.2.1.holder⟩
    | initUnlock p c thrown =>
      cases thrown with
      | true => exact unlock_kept hσ hk.1 hk.2
      | false =>
        have hopened := hk.2.1
        exact unlock_kept hσ hk.1 ⟨⟨hopened.conn, hopened.inst, hopened.uniform⟩,
          fun sf hsf => ⟨(hk.2.2 sf hsf).db, (hk.2.2 sf hsf).conn⟩⟩
    | returnConn p c => exact returnConn_kept hσ hk
    | closeQuietly c => exact closeQuietly_kept hσ hk
    | releaseDB url =>
      simp only [exec, releaseDB]
      split
      · exact hquiet ⟨rfl, rfl, rfl, rfl, rfl, rfl, rfl, fun _ hr => hr⟩ trivial
      · exact kept_same hσ trivial
    | releaseLocked url =>
      simp only [exec, releaseLocked]
      split
      · exact kept_same hσ trivial
      · split
        · exact kept_same hσ trivial
        · split
          · exact kept_same hσ trivial
          · split
            · exact hquiet ⟨rfl, rfl, rfl, rfl, rfl, rfl, rfl,
                fun _ hr => List.mem_append_left _ hr⟩ trivial
            · exact hquiet ⟨rfl, rfl, rfl, rfl, rfl, rfl, rfl, fun _ hr => hr⟩ trivial
    | releaseUnlock result | hookUnlock =>
      exact hquiet ⟨rfl, rfl, rfl, rfl, rfl, rfl, rfl, fun _ hr => hr⟩ trivial
    | hook =>
      simp only [exec, hook]
      split
      · exact hquiet ⟨rfl, rfl, rfl, rfl, rfl, rfl, rfl, fun _ hr => hr⟩ trivial
      · exact kept_same hσ trivial
    | hookLocked => exact kept_same hσ trivial
    | hookDestroy dbRefsList =>
      cases dbRefsList with
      | nil => exact hquiet ⟨rfl, rfl, rfl, rfl, rfl, rfl, rfl, fun _ hr => hr⟩ trivial
      | cons r rest =>
        cases ok with
        | true =>
          exact hquiet ⟨rfl, rfl, rfl, rfl, rfl, rfl, rfl, fun _ hr => List.mem_append_left _ hr⟩
            trivial
        | false => exact kept_same hσ trivial

/-- What the threads know of their connections. -/
theorem sessions_outline (env : Env) (nameOf partOf : List Char → List Char) :
    Outline (exec env) (NoNewInstance env nameOf partOf) (KnowsConn env nameOf partOf)
      (Sessions env nameOf partOf) where
  own hmeets hσ hk := ⟨(exec_kept hσ hk hmeets).sessions, (exec_kept hσ hk hmeets).own⟩
  others ht hmeets hσ hk hk' := hk'.stable ((exec_kept hσ hk hmeets).others _ ht)

end

/-! ## The result -/

theorem start_sessions (env : Env) (nameOf partOf : List Char → List Char) :
    Sessions env nameOf partOf start.shared where
  conns := nofun
  refs := nofun
  executions := nofun
  unique i j key hi := by simp [Alive, start] at hi
  privates := nofun
  names := nofun
  inits _ := ⟨fun i key hi => by simp [Alive, start] at hi,
    fun i key hi => by simp [Alive, start] at hi⟩
  returned := nofun
  given := nofun

/-- **While no instance is made for a database whose name is in `sessionInitSQLFileDbNames`, the
    parts of the init file are executed once for every connection that `connect` returns.** -/
theorem session_inits (env : Env) (nameOf partOf : List Char → List Char)
    (picks : List (Tid × Input))
    (halong : Along (exec env) (NoNewInstance env nameOf partOf) picks start) :
    SessionInits (run (exec env) picks start).shared := by
  have hknown := (sessions_outline env nameOf partOf).run picks halong
    ⟨start_sessions env nameOf partOf, fun _ => trivial⟩
  intro c sf hmem
  have hdone := hknown.holds.returned c sf hmem
  refine ⟨fun hne => ?_, fun hne => ?_⟩
  · rw [hdone.db hne]
    exact List.count_singleton_self
  · rw [hdone.conn hne]
    exact List.count_singleton_self

deriving instance DecidableEq for SessionInitSQLFile

/-- A connection to a named database in memory, with an init file. -/
def connectNamed (t : Tid) (dbName : List Char) : List (Tid × Input) :=
  (t, connectTo ("jdbc:duckdb:".toList ++ dbName ++ ";session_init_sql_file=f".toList)
    "A/*DUCKDB_CONNECTION_INIT_BELOW_MARKER*/B".toList) :: goes t (.replicate 10 true)

/-- Two connections to one instance. -/
theorem session_inits_two : SessionInits (run (exec plainEnv)
    (connectNamed 0 "memory:a".toList ++ connectNamed 1 ":memory:a".toList) start).shared :=
  session_inits plainEnv id (fun _ => ['A']) _ (by decide)

/-- The first connection is closed before the second one is opened: the name is in the set, but the
    instance is new. -/
theorem session_inits_reopened : ¬ SessionInits (run (exec plainEnv)
    (connectNamed 0 "memory:a".toList ++ [(0, .op (.close 0))] ++
      connectNamed 0 "memory:a".toList) start).shared := by
  intro h
  have hdb :=
    (h 1 ⟨"A/*DUCKDB_CONNECTION_INIT_BELOW_MARKER*/B".toList, ['A'], ['B']⟩ (by decide)).db
  exact absurd (hdb (by decide)) (by decide)

end DuckDBJava.Driver
