/-
  Batches with auto-commit on.

  `executeLargeBatch` opens a transaction only where the flag says that none is running, and ends
  only a transaction it has opened.  The items of a batch run one after the other
  (`executeItems_spec`): into the transaction of the batch, into one left open before, or, where
  the flag is set and none is open, each on its own.
-/
import DuckDBJava.Connection.Steps

namespace DuckDBJava.Connection

open Exec

/-! ## The flag covers the transaction -/

/-- The flag is set while a transaction is open. -/
def FlagCovers (σ : State) : Prop := σ.db.inTransaction = true → σ.transactionRunning = true

section
variable {env : Env}

theorem flagCovers_step {σ τ : State} (h : Step env σ τ) (hσ : FlagCovers σ) : FlagCovers τ := by
  cases h with
  | frame hlog hflag hdb => intro hτ; rw [hflag]; exact hσ (hdb ▸ hτ)
  | begins => exact fun _ => rfl
  | user q h =>
    intro hτ
    exact hσ ((exec_user_inTransaction _ _ q) ▸ hτ)
  | closes h hr => exact fun hτ => absurd hτ (by simp [(exec_close_some h (execNative_db hr)).2])
  | closeFails h hr =>
    intro hτ
    rw [show τ.transactionRunning = σ.transactionRunning from
      (congrArg (fun r => r.1.transactionRunning) hr).symm]
    by_contra hflag
    have hdb : σ.db.inTransaction = false := by
      by_contra hopen
      exact hflag (hσ (by simpa using hopen))
    have hexec := execNative_db hr
    rw [exec_close_of_not _ h hdb] at hexec
    rw [← (Prod.mk.inj hexec).1, hdb] at hτ
    exact absurd hτ (by decide)

theorem flagCovers_of_reaches {σ τ : State} (h : Reaches env σ τ) (hσ : FlagCovers σ) :
    FlagCovers τ := by
  induction h with
  | refl => exact hσ
  | tail _ hstep ih => exact flagCovers_step hstep ih

theorem flagCovers_run (autoCommit : Bool) (ops : List Op) :
    FlagCovers (run env ops (.start autoCommit)) :=
  flagCovers_of_reaches (reaches_run ops _) fun h => Bool.noConfusion h

end

/-! ## The items of a batch -/

/-- What the batch of a statement would execute, in order. -/
def Statement.items (st : Statement) : List Query :=
  if st.isPreparedStatement then st.batchedParams.map fun p => ⟨st.stmtRef.getD 0, p⟩
  else st.batchedStatements.map fun t => ⟨t, 0⟩

/-- Open, and prepared if it is a prepared statement. -/
def Statement.Usable (st : Statement) : Prop :=
  st.closed = false ∧ (st.isPreparedStatement = true → st.stmtRef.isSome = true)

/-- A successful user statement in the engine. -/
def Database.add (db : Database) (q : Query) : Database :=
  if db.inTransaction then { db with pending := db.pending ++ [q] }
  else { db with applied := db.applied ++ [q] }

/-- The native calls from number `k` on succeed, `n` of them. -/
def Succeed (env : Env) (k n : ℕ) : Prop := ∀ i < n, (env.outcome (k + i)).isSome = true

/-- The update counts of statements executed by the native calls from number `k` on. -/
def updateCounts (env : Env) : ℕ → List Query → List ℤ
  | _, [] => []
  | k, q :: qs =>
    (if env.returns q.text = .changedRows then ((env.outcome k).getD 0 : ℤ) else -1) ::
      updateCounts env (k + 1) qs

/-- Same flag and auto-commit mode, engine `db`, `n` more native calls. -/
structure Ran (σ τ : State) (db : Database) (n : ℕ) : Prop where
  autoCommit : τ.autoCommit = σ.autoCommit
  flag : τ.transactionRunning = σ.transactionRunning
  db_eq : τ.db = db
  calls : τ.calls = σ.calls + n

theorem Ran.trans {ρ σ τ : State} {d d' : Database} {m n : ℕ} (h1 : Ran ρ σ d m)
    (h2 : Ran σ τ d' n) : Ran ρ τ d' (m + n) :=
  ⟨h2.autoCommit.trans h1.autoCommit, h2.flag.trans h1.flag, h2.db_eq,
    by rw [h2.calls, h1.calls, Nat.add_assoc]⟩

/-- A usable statement of the given kind and prepared text. -/
structure Ready (isPrepared : Bool) (ref : Option ℕ) (st : Statement) : Prop where
  closed : st.closed = false
  kind : st.isPreparedStatement = isPrepared
  stmtRef : st.stmtRef = ref
  prepared : isPrepared = true → ref.isSome = true

section
variable {env : Env} {s : ℕ} {isPrepared : Bool} {ref : Option ℕ} {σ : State}

theorem modifyStmt_spec (σ : State) (s : ℕ) (f : Statement → Statement) :
    ∃ τ, modifyStmt s f σ = .ok () τ ∧ Ran σ τ σ.db 0 ∧ τ.stmts s = f (σ.stmts s) :=
  ⟨_, rfl, ⟨rfl, rfl, rfl, rfl⟩, Function.update_self _ _ _⟩

theorem checkOpen_of (h : (σ.stmts s).closed = false) : checkOpen s σ = .ok () σ :=
  require_of h _ _

theorem checkPrepared_of (hr : Ready isPrepared ref (σ.stmts s))
    (hq : isPrepared = false → (σ.stmts s).query.isSome = true) : checkPrepared s σ = .ok () σ := by
  unfold checkPrepared
  show (if (σ.stmts s).isPreparedStatement = true then _ else _ : ConnM Unit) σ = _
  rw [hr.kind, hr.stmtRef]
  cases isPrepared with
  | true => exact require_of (hr.prepared rfl) _ _
  | false => exact require_of (hq rfl) _ _

theorem ensureTransaction_of_autoCommit (h : σ.autoCommit = true) :
    ensureTransaction env σ = .ok () σ := by
  rw [ensureTransaction, get_bind, if_pos h]
  rfl

theorem exec_user (db : Database) (outcome : Option ℕ) (q : Query) :
    db.exec outcome (.user q) = (if outcome.isSome then db.add q else db, outcome) := by
  unfold Database.exec Database.add
  cases outcome with
  | none => rfl
  | some n => cases db.inTransaction <;> rfl

/-- A user statement in the engine. -/
theorem native_user_spec (env : Env) (σ : State) (q : Query) :
    match env.outcome σ.calls with
    | some n => ∃ τ, native env (.user q) σ = .ok n τ ∧ Ran σ τ (σ.db.add q) 1 ∧ τ.stmts = σ.stmts
    | none => ∃ τ, native env (.user q) σ = .error .nativeFailure τ ∧ Ran σ τ σ.db 1 := by
  have hexec := exec_user σ.db (env.outcome σ.calls) q
  cases ho : env.outcome σ.calls with
  | some n =>
    rw [ho] at hexec
    refine ⟨(σ.execNative env (.user q)).1, ?_, ⟨rfl, rfl, ?_, rfl⟩, rfl⟩
    · unfold native State.execNative
      rw [ho, hexec]
    · unfold State.execNative
      rw [ho, hexec]
      rfl
  | none =>
    rw [ho] at hexec
    refine ⟨(σ.execNative env (.user q)).1, ?_, ⟨rfl, rfl, ?_, rfl⟩⟩
    · unfold native State.execNative
      rw [ho, hexec]
    · unfold State.execNative
      rw [ho, hexec]
      rfl

/-- The `try` block of `execute`, with auto-commit on. -/
theorem executeBody_spec (env : Env) (hauto : σ.autoCommit = true)
    (hr : Ready isPrepared ref (σ.stmts s)) :
    match env.outcome σ.calls with
    | some n => ∃ τ, executeBody env s σ = .ok n τ ∧ Ran σ τ (σ.db.add (σ.stmts s).toRun) 1 ∧
        Ready isPrepared ref (τ.stmts s) ∧ (τ.stmts s).hasResult = true ∧
        (τ.stmts s).returns = some (env.returns (σ.stmts s).toRun.text)
    | none => ∃ e τ, executeBody env s σ = .error e τ ∧ Ran σ τ σ.db 1 := by
  obtain ⟨ρ, hρ, hran, hst⟩ := modifyStmt_spec σ s fun st => { st with hasResult := false }
  have hensure : ensureTransaction env ρ = .ok () ρ :=
    ensureTransaction_of_autoCommit (hran.autoCommit.trans hauto)
  have hrun : (ρ.stmts s).toRun = (σ.stmts s).toRun := by rw [hst]; rfl
  have hnative := native_user_spec env ρ (ρ.stmts s).toRun
  rw [hran.calls, Nat.add_zero, hran.db_eq, hrun] at hnative
  have hbody : executeBody env s σ = (do
      let rows ← native env (.user (ρ.stmts s).toRun)
      modifyStmt s fun st => { st with
        hasResult := true, returns := some (env.returns (ρ.stmts s).toRun.text), query := none }
      pure rows) ρ := by
    unfold executeBody
    rw [bind_ok hρ, bind_ok hensure]
    rfl
  rw [hbody, hrun]
  cases ho : env.outcome σ.calls with
  | some n =>
    rw [ho] at hnative
    obtain ⟨τ, hτ, hran', hstmts⟩ := hnative
    obtain ⟨υ, hυ, hran'', hst'⟩ := modifyStmt_spec τ s fun st => { st with
        hasResult := true, returns := some (env.returns (σ.stmts s).toRun.text), query := none }
    refine ⟨υ, by rw [bind_ok hτ, bind_ok hυ]; rfl, ?_, ?_, ?_, ?_⟩
    · have h := (hran.trans hran').trans hran''
      rwa [hran'.db_eq] at h
    · rw [hst', hstmts, hst]
      exact ⟨hr.closed, hr.kind, hr.stmtRef, hr.prepared⟩
    · rw [hst']
    · rw [hst']
  | none =>
    rw [ho] at hnative
    obtain ⟨τ, hτ, hran'⟩ := hnative
    exact ⟨_, τ, by rw [bind_error hτ], hran.trans hran'⟩

/-- `execute` and the update count behind it, with auto-commit on. -/
theorem execute_spec (env : Env) (hauto : σ.autoCommit = true)
    (hr : Ready isPrepared ref (σ.stmts s))
    (hq : isPrepared = false → (σ.stmts s).query.isSome = true) :
    match env.outcome σ.calls with
    | some n => ∃ τ, execute env s σ = .ok () τ ∧ Ran σ τ (σ.db.add (σ.stmts s).toRun) 1 ∧
        Ready isPrepared ref (τ.stmts s) ∧ getUpdateCountInternal s τ = .ok
          (if env.returns (σ.stmts s).toRun.text = .changedRows then (n : ℤ) else -1) τ
    | none => ∃ e τ, execute env s σ = .error e τ ∧ Ran σ τ σ.db 1 := by
  have hbody := executeBody_spec env hauto hr
  unfold execute
  rw [bind_ok (checkOpen_of hr.closed), bind_ok (checkPrepared_of hr hq)]
  cases ho : env.outcome σ.calls with
  | some n =>
    rw [ho] at hbody
    obtain ⟨τ, hτ, hran, hready, hresult, hreturns⟩ := hbody
    obtain ⟨υ, hυ, hran', hst⟩ := modifyStmt_spec τ s fun st =>
      if st.returns = some .changedRows then { st with updateResult := n } else st
    have hcatch : ∀ f, catchWith (executeBody env s) f σ = .ok n τ := fun f => by
      rw [catchWith_apply, hτ]
    refine ⟨υ, by rw [bind_ok (hcatch _)]; exact hυ, ?_, ?_, ?_⟩
    · have h := hran.trans hran'
      rwa [hran.db_eq] at h
    · rw [hst]
      split
      · exact ⟨hready.closed, hready.kind, hready.stmtRef, hready.prepared⟩
      · exact hready
    · have hopen : (υ.stmts s).closed = false := by
        rw [hst]
        split
        · exact hready.closed
        · exact hready.closed
      unfold getUpdateCountInternal
      rw [bind_ok (checkOpen_of hopen)]
      show EStateM.Result.ok (if (υ.stmts s).hasResult = true ∧
        (υ.stmts s).returns = some .changedRows then (υ.stmts s).updateResult else -1) υ = _
      rw [hst, hreturns]
      by_cases hc : env.returns (σ.stmts s).toRun.text = .changedRows
      · simp [hc, hresult]
      · simp [hc, hreturns]
  | none =>
    rw [ho] at hbody
    obtain ⟨e, τ, hτ, hran⟩ := hbody
    obtain ⟨υ, hυ, hran', -⟩ := modifyStmt_spec τ s fun st => { st with query := none }
    obtain ⟨φ, hφ, hran'', -⟩ := modifyStmt_spec υ s fun st =>
      { st with closed := true, stmtRef := none, hasResult := false }
    refine ⟨e, φ, ?_, ?_⟩
    · refine bind_error ?_
      rw [catchWith_apply, hτ]
      refine (bind_ok hυ).trans ?_
      unfold closeStmt
      rw [bind_ok hφ]
      rfl
    · have h := (hran.trans hran').trans hran''
      rwa [hran'.db_eq, hran.db_eq] at h

/-- `load item` makes `q item` the next thing to execute, and does nothing else. -/
def Loads (s : ℕ) (isPrepared : Bool) (ref : Option ℕ) (load : ℕ → ConnM Unit)
    (q : ℕ → Query) : Prop :=
  ∀ σ item, Ready isPrepared ref (σ.stmts s) → ∃ τ, load item σ = .ok () τ ∧ Ran σ τ σ.db 0 ∧
    Ready isPrepared ref (τ.stmts s) ∧
    (isPrepared = false → (τ.stmts s).query.isSome = true) ∧ (τ.stmts s).toRun = q item

theorem loads_params (s : ℕ) (ref : Option ℕ) :
    Loads s true ref (fun params => modifyStmt s fun st => { st with params := params })
      fun p => ⟨ref.getD 0, p⟩ := by
  intro σ item hr
  obtain ⟨τ, hτ, hran, hst⟩ := modifyStmt_spec σ s fun st => { st with params := item }
  refine ⟨τ, hτ, hran, ?_, fun h => absurd h (by decide), ?_⟩
  · rw [hst]
    exact ⟨hr.closed, hr.kind, hr.stmtRef, hr.prepared⟩
  · rw [hst, Statement.toRun, if_pos hr.kind]
    show (⟨(σ.stmts s).stmtRef.getD 0, item⟩ : Query) = _
    rw [hr.stmtRef]

theorem loads_prepare (s : ℕ) (ref : Option ℕ) :
    Loads s false ref (prepare env s) fun text => ⟨text, 0⟩ := by
  intro σ item hr
  obtain ⟨τ, hτ, hran, hst⟩ := modifyStmt_spec σ s fun st => { st with query := some item }
  refine ⟨τ, ?_, hran, ?_, fun _ => by rw [hst]; rfl, ?_⟩
  · unfold prepare
    rw [bind_ok (checkOpen_of hr.closed)]
    show (if (σ.stmts s).isPreparedStatement = true then _ else _ : ConnM Unit) σ = _
    rw [hr.kind]
    exact hτ
  · rw [hst]
    exact ⟨hr.closed, hr.kind, hr.stmtRef, hr.prepared⟩
  · rw [hst, Statement.toRun, if_neg]
    · rfl
    · show ¬ (σ.stmts s).isPreparedStatement = true
      rw [hr.kind]
      decide

/-- The loop of a batch, with auto-commit on: all items one after the other, or those before the
    first that fails. -/
theorem executeItems_spec (env : Env) {load : ℕ → ConnM Unit} {q : ℕ → Query}
    (hload : Loads s isPrepared ref load q) (items : List ℕ) {σ : State}
    (hauto : σ.autoCommit = true) (hr : Ready isPrepared ref (σ.stmts s)) :
    (Succeed env σ.calls items.length → ∃ τ,
      executeItems env s load items σ = .ok (updateCounts env σ.calls (items.map q)) τ ∧
      Ran σ τ ((items.map q).foldl .add σ.db) items.length ∧ Ready isPrepared ref (τ.stmts s)) ∧
    ∀ i < items.length, Succeed env σ.calls i → env.outcome (σ.calls + i) = none → ∃ e τ,
      executeItems env s load items σ = .error e τ ∧
      Ran σ τ (((items.map q).take i).foldl .add σ.db) (i + 1) := by
  induction items generalizing σ with
  | nil => exact ⟨fun _ => ⟨σ, rfl, ⟨rfl, rfl, rfl, rfl⟩, hr⟩, fun i hi => absurd hi (by simp)⟩
  | cons item items ih =>
    obtain ⟨ρ, hρ, hranρ, hreadyρ, hqρ, hrunρ⟩ := hload σ item hr
    have hexec := execute_spec env (hranρ.autoCommit.trans hauto) hreadyρ hqρ
    rw [hrunρ, hranρ.calls, Nat.add_zero, hranρ.db_eq] at hexec
    have hstart : executeItems env s load (item :: items) σ = (do
        execute env s
        let n ← getUpdateCountInternal s
        let ns ← executeItems env s load items
        pure (n :: ns)) ρ := bind_ok hρ
    rw [hstart]
    cases ho : env.outcome σ.calls with
    | none =>
      rw [ho] at hexec
      obtain ⟨e, τ, hτ, hranτ⟩ := hexec
      refine ⟨fun hok => ?_, fun i _ hok _ => ?_⟩
      · have h0 := hok 0 (by simp)
        rw [Nat.add_zero, ho] at h0
        cases h0
      · cases i with
        | zero =>
          refine ⟨e, τ, bind_error hτ, ?_⟩
          have h := hranρ.trans hranτ
          exact h
        | succ i =>
          have h0 := hok 0 (Nat.succ_pos i)
          rw [Nat.add_zero, ho] at h0
          cases h0
    | some n =>
      rw [ho] at hexec
      obtain ⟨τ, hτ, hranτ, hreadyτ, hcount⟩ := hexec
      have hran := hranρ.trans hranτ
      rw [Nat.zero_add] at hran
      obtain ⟨ihok, ihfail⟩ := ih (hran.autoCommit.trans hauto) hreadyτ
      rw [hran.calls, hran.db_eq] at ihok ihfail
      have hshift : ∀ m, Succeed env σ.calls (m + 1) → Succeed env (σ.calls + 1) m := by
        intro m hok i hi
        rw [Nat.add_assoc, Nat.add_comm 1]
        exact hok (i + 1) (Nat.succ_lt_succ hi)
      refine ⟨fun hok => ?_, fun i hi hok hnone => ?_⟩
      · obtain ⟨υ, hυ, hranυ, hreadyυ⟩ := ihok (hshift _ hok)
        refine ⟨υ, ?_, ?_, hreadyυ⟩
        · rw [bind_ok hτ, bind_ok hcount, bind_ok hυ, pure_apply, List.map_cons, updateCounts, ho]
          rfl
        · have h := hran.trans hranυ
          rwa [Nat.add_comm 1] at h
      · cases i with
        | zero =>
          rw [Nat.add_zero, ho] at hnone
          cases hnone
        | succ i =>
          have hnone : env.outcome (σ.calls + 1 + i) = none := by
            rw [Nat.add_assoc, Nat.add_comm 1]
            exact hnone
          obtain ⟨e, υ, hυ, hranυ⟩ := ihfail i (Nat.lt_of_succ_lt_succ hi) (hshift i hok) hnone
          refine ⟨e, υ, by rw [bind_ok hτ, bind_ok hcount, bind_error hυ], ?_⟩
          have h := hran.trans hranυ
          rwa [Nat.add_comm 1] at h

end

/-- The native calls from number `k` on: all succeed, or one is the first to fail. -/
theorem succeed_or (env : Env) (k n : ℕ) :
    Succeed env k n ∨ ∃ i < n, Succeed env k i ∧ env.outcome (k + i) = none := by
  induction n with
  | zero => exact .inl fun i hi => absurd hi (Nat.not_lt_zero i)
  | succ n ih =>
    rcases ih with hok | ⟨i, hi, hok, hnone⟩
    · cases ho : env.outcome (k + n) with
      | none => exact .inr ⟨n, Nat.lt_succ_self n, hok, ho⟩
      | some m =>
        refine .inl fun i hi => ?_
        rcases Nat.lt_succ_iff_lt_or_eq.1 hi with hlt | rfl
        · exact hok i hlt
        · rw [ho]; rfl
    · exact .inr ⟨i, Nat.lt_succ_of_lt hi, hok, hnone⟩

/-! ## The engine under a batch -/

theorem foldl_add_of_not {db : Database} (h : db.inTransaction = false) (qs : List Query) :
    qs.foldl .add db = { db with applied := db.applied ++ qs } := by
  induction qs generalizing db with
  | nil => simp
  | cons q qs ih =>
    have hadd : db.add q = { db with applied := db.applied ++ [q] } := by simp [Database.add, h]
    rw [List.foldl_cons, hadd, ih (by exact h)]
    simp

theorem foldl_add_of_open {db : Database} (h : db.inTransaction = true) (qs : List Query) :
    qs.foldl .add db = { db with pending := db.pending ++ qs } := by
  induction qs generalizing db with
  | nil => simp
  | cons q qs ih =>
    have hadd : db.add q = { db with pending := db.pending ++ [q] } := by simp [Database.add, h]
    rw [List.foldl_cons, hadd, ih (by exact h)]
    simp

section
variable {env : Env} {s : ℕ} {isPrepared : Bool} {ref : Option ℕ} {σ : State}

/-- `commit` and `rollback`, with auto-commit on. -/
theorem control_spec (env : Env) (sql : Sql) (hauto : σ.autoCommit = true) :
    match σ.db.exec (env.outcome σ.calls) sql with
    | (db, some _) => ∃ τ, (do
        runStatement env callDepth sql
        modify fun σ => { σ with transactionRunning := false } : ConnM Unit) σ = .ok () τ ∧
        τ.db = db
    | (db, none) => ∃ e τ, (do
        runStatement env callDepth sql
        modify fun σ => { σ with transactionRunning := false } : ConnM Unit) σ = .error e τ ∧
        Ran σ τ db 1 := by
  have hrun : runStatement env callDepth sql σ = _ := runStatement_of_running (.inl hauto) 1 sql
  rw [discard_native_apply] at hrun
  unfold State.execNative at hrun
  cases hexec : σ.db.exec (env.outcome σ.calls) sql with
  | mk db r =>
    rw [hexec] at hrun
    cases r with
    | some n => exact ⟨_, bind_ok hrun, rfl⟩
    | none => exact ⟨_, _, bind_error hrun, ⟨rfl, rfl, rfl, rfl⟩⟩

end

/-! ## Atomicity -/

/-- All statements are applied, in order and with one update count each, or none is; no
    transaction is left open.  `k` is the native call that executes the first. -/
def AllOrNothing (env : Env) (σ : State) (qs : List Query) (k : ℕ) :
    EStateM.Result SqlException State (List ℤ) → Prop
  | .ok counts τ => τ.db.applied = σ.db.applied ++ qs ∧ counts = updateCounts env k qs ∧
      τ.db.inTransaction = false
  | .error _ τ => τ.db.applied = σ.db.applied ∧ τ.db.inTransaction = false

theorem AllOrNothing.congr {env : Env} {σ τ : State} {qs : List Query} {k : ℕ}
    {r : EStateM.Result SqlException State (List ℤ)} (h : τ.db.applied = σ.db.applied) :
    AllOrNothing env τ qs k r ↔ AllOrNothing env σ qs k r := by
  cases r with
  | ok counts ρ => unfold AllOrNothing; rw [h]
  | error e ρ => unfold AllOrNothing; rw [h]

/-- The native call that executes the first statement of a batch: BEGIN comes before it unless
    the flag is set. -/
def firstItem (σ : State) : ℕ := if σ.transactionRunning then σ.calls else σ.calls + 1

/-- When a batch of `n` statements is all or nothing, without a transaction open before.  Where
    the flag is set, the batch runs without a transaction: all succeed or the first fails.
    Otherwise BEGIN fails, all succeed, or ROLLBACK succeeds behind the first that fails. -/
def BatchSafe (env : Env) (σ : State) (n : ℕ) : Prop :=
  if σ.transactionRunning then
    Succeed env σ.calls n ∨ (0 < n ∧ env.outcome σ.calls = none)
  else env.outcome σ.calls = none ∨ Succeed env (σ.calls + 1) n ∨
    ∃ i < n, Succeed env (σ.calls + 1) i ∧ env.outcome (σ.calls + 1 + i) = none ∧
      (env.outcome (σ.calls + 1 + i + 1)).isSome = true

section
variable {env : Env} {s : ℕ} {isPrepared : Bool} {ref : Option ℕ} {σ : State}
  {load : ℕ → ConnM Unit} {q : ℕ → Query}

/-- The batch behind its checks. -/
def batchCore (env : Env) (s : ℕ) (load : ℕ → ConnM Unit) (items : List ℕ) : ConnM (List ℤ) := do
  let tranStarted ← startTransaction env
  batchBody env s tranStarted load items

theorem startTransaction_spec (env : Env) (hflag : σ.transactionRunning = false)
    (hclosed : σ.db.inTransaction = false) :
    match env.outcome σ.calls with
    | some _ => ∃ τ, startTransaction env σ = .ok true τ ∧ τ.db = ⟨true, [], σ.db.applied⟩ ∧
        τ.calls = σ.calls + 1 ∧ τ.autoCommit = σ.autoCommit ∧ τ.stmts = σ.stmts
    | none => ∃ τ, startTransaction env σ = .error .nativeFailure τ ∧ τ.db = σ.db := by
  have hstart : startTransaction env σ = _ := startTransaction_eq σ
  rw [hflag, if_neg (by decide)] at hstart
  have hexec : σ.db.exec (env.outcome σ.calls) .beginTransaction =
      match env.outcome σ.calls with
      | some n => (⟨true, [], σ.db.applied⟩, some n)
      | none => (σ.db, none) := by
    unfold Database.exec
    rw [hclosed]
    rfl
  unfold State.execNative at hstart
  dsimp only at hstart
  rw [hexec] at hstart
  cases ho : env.outcome σ.calls with
  | some n => rw [ho] at hstart; exact ⟨_, hstart, rfl, rfl, rfl, rfl⟩
  | none => rw [ho] at hstart; exact ⟨_, hstart, rfl⟩

theorem clearBatch_spec (hr : Ready isPrepared ref (σ.stmts s)) :
    ∃ τ, clearBatch s σ = .ok () τ ∧ Ran σ τ σ.db 0 := by
  obtain ⟨τ, hτ, hran, -⟩ := modifyStmt_spec σ s fun st =>
    { st with batchedParams := [], batchedStatements := [], isBatch := false }
  exact ⟨τ, by unfold clearBatch; rw [bind_ok (checkOpen_of hr.closed)]; exact hτ, hran⟩

/-- With the flag set, the items run where they are, and nothing is committed or rolled back. -/
theorem batchCore_of_running (env : Env) (hload : Loads s isPrepared ref load q) (items : List ℕ)
    (hauto : σ.autoCommit = true) (hflag : σ.transactionRunning = true)
    (hr : Ready isPrepared ref (σ.stmts s)) :
    (Succeed env σ.calls items.length → ∃ τ, batchCore env s load items σ =
      .ok (updateCounts env σ.calls (items.map q)) τ ∧ τ.db = (items.map q).foldl .add σ.db) ∧
    ∀ i < items.length, Succeed env σ.calls i → env.outcome (σ.calls + i) = none → ∃ e τ,
      batchCore env s load items σ = .error e τ ∧
      τ.db = ((items.map q).take i).foldl .add σ.db := by
  have hstart : batchCore env s load items σ = batchBody env s false load items σ := by
    unfold batchCore
    rw [bind_apply, startTransaction_eq, if_pos hflag]
  obtain ⟨hok, hfail⟩ := executeItems_spec env hload items hauto hr
  rw [hstart]
  unfold batchBody
  rw [catchWith_apply]
  refine ⟨fun hs => ?_, fun i hi hs hnone => ?_⟩
  · obtain ⟨τ, hτ, hran, hready⟩ := hok hs
    obtain ⟨υ, hυ, hran'⟩ := clearBatch_spec hready
    refine ⟨υ, ?_, hran'.db_eq.trans hran.db_eq⟩
    rw [bind_ok hτ, bind_ok hυ]
    simp [bind_apply]
  · obtain ⟨e, τ, hτ, hran⟩ := hfail i hi hs hnone
    refine ⟨e, τ, ?_, hran.db_eq⟩
    rw [bind_error hτ]
    simp [bind_apply]

/-- Behind BEGIN, the items are committed together or rolled back. -/
theorem batchBody_started (env : Env) (hload : Loads s isPrepared ref load q) (items : List ℕ)
    (hauto : σ.autoCommit = true) (hopen : σ.db.inTransaction = true) (hnil : σ.db.pending = [])
    (hr : Ready isPrepared ref (σ.stmts s)) :
    AllOrNothing env σ (items.map q) σ.calls (batchBody env s true load items σ) ↔
      Succeed env σ.calls items.length ∨ ∃ i < items.length, Succeed env σ.calls i ∧
        env.outcome (σ.calls + i) = none ∧ (env.outcome (σ.calls + i + 1)).isSome = true := by
  obtain ⟨hok, hfail⟩ := executeItems_spec env hload items hauto hr
  unfold batchBody
  rw [catchWith_apply]
  rcases succeed_or env σ.calls items.length with hs | ⟨i, hi, hs, hnone⟩
  · refine iff_of_true ?_ (.inl hs)
    obtain ⟨τ, hτ, hran, hready⟩ := hok hs
    obtain ⟨υ, hυ, hran'⟩ := clearBatch_spec hready
    have hautoυ : υ.autoCommit = true := hran'.autoCommit.trans (hran.autoCommit.trans hauto)
    have hdb : υ.db = { σ.db with pending := items.map q } := by
      rw [hran'.db_eq, hran.db_eq, foldl_add_of_open hopen, hnil, List.nil_append]
    have hcommit := control_spec env .commit hautoυ
    rw [hdb] at hcommit
    rw [bind_ok hτ, bind_ok hυ, get_bind, if_pos ⟨rfl, hautoυ⟩]
    cases ho : env.outcome υ.calls with
    | some n =>
      rw [ho] at hcommit
      simp only [Database.exec, hopen, if_true] at hcommit
      obtain ⟨φ, hφ, hφdb⟩ := hcommit
      have hφ : commit env υ = .ok () φ := hφ
      rw [bind_ok hφ]
      exact ⟨by rw [hφdb], rfl, by rw [hφdb]⟩
    | none =>
      -- COMMIT fails and closes the transaction; ROLLBACK has nothing left to close
      rw [ho] at hcommit
      simp only [Database.exec, hopen, if_true] at hcommit
      obtain ⟨e, φ, hφ, hranφ⟩ := hcommit
      have hφ : commit env υ = .error e φ := hφ
      rw [bind_error hφ]
      have hautoφ : φ.autoCommit = true := hranφ.autoCommit.trans hautoυ
      have hrollback := control_spec env .rollback hautoφ
      rw [hranφ.db_eq] at hrollback
      obtain ⟨e', ψ, hψ, hranψ⟩ := hrollback
      have hψ : rollback env φ = .error e' ψ := hψ
      dsimp only
      rw [get_bind, if_pos ⟨rfl, hautoφ⟩, bind_error hψ]
      exact ⟨by rw [hranψ.db_eq], by rw [hranψ.db_eq]⟩
  · obtain ⟨e, τ, hτ, hran⟩ := hfail i hi hs hnone
    have hautoτ : τ.autoCommit = true := hran.autoCommit.trans hauto
    have hdb : τ.db = { σ.db with pending := (items.map q).take i } := by
      rw [hran.db_eq, foldl_add_of_open hopen, hnil, List.nil_append]
    have hrollback := control_spec env .rollback hautoτ
    rw [hdb, hran.calls] at hrollback
    have hunique : ∀ j < items.length, Succeed env σ.calls j → env.outcome (σ.calls + j) = none →
        j = i := by
      intro j _ hj hjnone
      rcases Nat.lt_trichotomy j i with hlt | heq | hgt
      · have := hs j hlt; rw [hjnone] at this; cases this
      · exact heq
      · have := hj i hgt; rw [hnone] at this; cases this
    rw [bind_error hτ]
    dsimp only
    rw [get_bind, if_pos ⟨rfl, hautoτ⟩]
    cases ho : env.outcome (σ.calls + (i + 1)) with
    | some n =>
      refine iff_of_true ?_ (.inr ⟨i, hi, hs, hnone, by rw [Nat.add_assoc, ho]; rfl⟩)
      rw [ho] at hrollback
      simp only [Database.exec, hopen, if_true] at hrollback
      obtain ⟨φ, hφ, hφdb⟩ := hrollback
      have hφ : rollback env τ = .ok () φ := hφ
      rw [bind_ok hφ]
      exact ⟨by rw [hφdb], by rw [hφdb]⟩
    | none =>
      refine iff_of_false ?_ ?_
      · rw [ho] at hrollback
        simp only [Database.exec, hopen, if_true] at hrollback
        obtain ⟨e', φ, hφ, hranφ⟩ := hrollback
        have hφ : rollback env τ = .error e' φ := hφ
        rw [bind_error hφ]
        rintro ⟨-, hclosed⟩
        rw [hranφ.db_eq] at hclosed
        cases hclosed
      · rintro (hall | ⟨j, hj, hjs, hjnone, hjroll⟩)
        · have := hall i hi; rw [hnone] at this; cases this
        · obtain rfl := hunique j hj hjs hjnone
          rw [Nat.add_assoc, ho] at hjroll
          cases hjroll

/-- A batch of a usable statement with no transaction open. -/
theorem batchCore_allOrNothing_iff (env : Env) (hload : Loads s isPrepared ref load q)
    (items : List ℕ) (hauto : σ.autoCommit = true) (hclosed : σ.db.inTransaction = false)
    (hr : Ready isPrepared ref (σ.stmts s)) :
    AllOrNothing env σ (items.map q) (firstItem σ) (batchCore env s load items σ) ↔
      BatchSafe env σ items.length := by
  unfold BatchSafe firstItem
  by_cases hflag : σ.transactionRunning = true
  · rw [if_pos hflag, if_pos hflag]
    obtain ⟨hok, hfail⟩ := batchCore_of_running env hload items hauto hflag hr
    rcases succeed_or env σ.calls items.length with hs | ⟨i, hi, hs, hnone⟩
    · obtain ⟨τ, hτ, hdb⟩ := hok hs
      refine iff_of_true ?_ (.inl hs)
      rw [foldl_add_of_not hclosed] at hdb
      rw [hτ]
      exact ⟨by rw [hdb], rfl, by rw [hdb]; exact hclosed⟩
    · obtain ⟨e, τ, hτ, hdb⟩ := hfail i hi hs hnone
      rw [foldl_add_of_not hclosed] at hdb
      rw [hτ]
      constructor
      · rintro ⟨happlied, -⟩
        rw [hdb] at happlied
        -- nothing may be applied before the first failure
        have hlen := congrArg List.length happlied
        simp only [List.length_append, List.length_take, List.length_map] at hlen
        obtain rfl : i = 0 := by omega
        exact .inr ⟨hi, hnone⟩
      · rintro (hall | ⟨-, h0⟩)
        · have := hall i hi; rw [hnone] at this; cases this
        · cases i with
          | zero =>
            refine ⟨by rw [hdb]; simp, by rw [hdb]; exact hclosed⟩
          | succ i =>
            have := hs 0 (Nat.succ_pos i)
            rw [Nat.add_zero, h0] at this
            cases this
  · rw [if_neg hflag, if_neg hflag]
    have hstart := startTransaction_spec env (by simpa using hflag) hclosed
    unfold batchCore
    cases ho : env.outcome σ.calls with
    | none =>
      rw [ho] at hstart
      obtain ⟨τ, hτ, hdb⟩ := hstart
      refine iff_of_true ?_ (.inl rfl)
      rw [bind_error hτ]
      exact ⟨by rw [hdb], by rw [hdb]; exact hclosed⟩
    | some n =>
      rw [ho] at hstart
      obtain ⟨τ, hτ, hdb, hcalls, hautoτ, hstmts⟩ := hstart
      have hbody := batchBody_started env hload items (hautoτ.trans hauto)
        (by rw [hdb]) (by rw [hdb]) (by rw [hstmts]; exact hr)
      rw [hcalls] at hbody
      have happlied : τ.db.applied = σ.db.applied := by rw [hdb]
      rw [bind_ok hτ, ← AllOrNothing.congr happlied, hbody]
      simp

end

section
variable {env : Env} {s : ℕ} {σ : State}

/-- A batch of a usable statement is `batchCore` on its items. -/
theorem executeLargeBatch_of_usable (env : Env) (h : (σ.stmts s).Usable) :
    ∃ isPrepared ref load items q, Loads s isPrepared ref load q ∧
      Ready isPrepared ref (σ.stmts s) ∧ items.map q = (σ.stmts s).items ∧
      executeLargeBatch env s σ = batchCore env s load items σ := by
  obtain ⟨hopen, hprepared⟩ := h
  have hstart : executeLargeBatch env s σ = (if (σ.stmts s).isPreparedStatement = true then do
        checkPrepared s
        let tranStarted ← startTransaction env
        batchBody env s tranStarted
          (fun params => modifyStmt s fun st => { st with params := params })
          (σ.stmts s).batchedParams
      else do
        let tranStarted ← startTransaction env
        batchBody env s tranStarted (prepare env s) (σ.stmts s).batchedStatements : ConnM _) σ := by
    unfold executeLargeBatch
    rw [bind_ok (checkOpen_of hopen)]
    rfl
  rw [hstart]
  by_cases hp : (σ.stmts s).isPreparedStatement = true
  · have hready : Ready true (σ.stmts s).stmtRef (σ.stmts s) :=
      ⟨hopen, hp, rfl, fun _ => hprepared hp⟩
    refine ⟨true, _, _, (σ.stmts s).batchedParams, _, loads_params s _, hready, ?_, ?_⟩
    · rw [Statement.items, if_pos hp]
    · rw [if_pos hp, bind_ok (checkPrepared_of hready (fun h => absurd h (by decide)))]
      rfl
  · have hready : Ready false (σ.stmts s).stmtRef (σ.stmts s) :=
      ⟨hopen, by simpa using hp, rfl, fun h => absurd h (by decide)⟩
    refine ⟨false, _, prepare env s, (σ.stmts s).batchedStatements, _, loads_prepare s _, hready,
      ?_, ?_⟩
    · rw [Statement.items, if_neg hp]
    · rw [if_neg hp]
      rfl

/-- A batch of any other statement throws and does nothing. -/
theorem executeLargeBatch_of_not_usable (env : Env) (h : ¬ (σ.stmts s).Usable) :
    ∃ e, executeLargeBatch env s σ = .error e σ := by
  unfold executeLargeBatch
  by_cases hopen : (σ.stmts s).closed = false
  · have hp : (σ.stmts s).isPreparedStatement = true ∧ ¬ (σ.stmts s).stmtRef.isSome = true := by
      by_contra hno
      exact h ⟨hopen, fun hp => by by_contra hr; exact hno ⟨hp, hr⟩⟩
    have hprep : checkPrepared s σ = .error .prepareFirst σ := by
      unfold checkPrepared
      show (if (σ.stmts s).isPreparedStatement = true then _ else _ : ConnM Unit) σ = _
      rw [if_pos hp.1]
      exact require_of_not hp.2 _ _
    refine ⟨.prepareFirst, ?_⟩
    rw [bind_ok (checkOpen_of hopen)]
    show (if (σ.stmts s).isPreparedStatement = true then _ else _ : ConnM _) σ = _
    rw [if_pos hp.1, bind_error hprep]
  · exact ⟨.statementClosed, bind_error (require_of_not hopen _ _)⟩

/-- Where a transaction is open before the batch, one is open behind it. -/
theorem inTransaction_of_open (env : Env) (s : ℕ) (hauto : σ.autoCommit = true)
    (hopen : σ.db.inTransaction = true) (hflag : σ.transactionRunning = true) :
    (final (executeLargeBatch env s σ)).db.inTransaction = true := by
  by_cases hu : (σ.stmts s).Usable
  · obtain ⟨isPrepared, ref, load, items, q, hload, hready, -, heq⟩ :=
      executeLargeBatch_of_usable env hu
    obtain ⟨hok, hfail⟩ := batchCore_of_running env hload items hauto hflag hready
    rw [heq]
    rcases succeed_or env σ.calls items.length with hs | ⟨i, hi, hs, hnone⟩
    · obtain ⟨τ, hτ, hdb⟩ := hok hs
      rw [hτ, final_ok, hdb, foldl_add_of_open hopen]
      exact hopen
    · obtain ⟨e, τ, hτ, hdb⟩ := hfail i hi hs hnone
      rw [hτ, final_error, hdb, foldl_add_of_open hopen]
      exact hopen
  · obtain ⟨e, he⟩ := executeLargeBatch_of_not_usable env hu
    rw [he]
    exact hopen

theorem AllOrNothing.closed {qs : List Query} {k : ℕ}
    {r : EStateM.Result SqlException State (List ℤ)} (h : AllOrNothing env σ qs k r) :
    (final r).db.inTransaction = false := by
  cases r with
  | ok counts τ => exact h.2.2
  | error e τ => exact h.2

end

/-- **Batch atomicity.**  In every state reached with auto-commit on, a batch is all or nothing
    and leaves no transaction open if and only if none was open before and, where the statement
    is usable, its native calls are those of a safe batch. -/
theorem batch_atomic_iff (env : Env) (autoCommit : Bool) (ops : List Op) (s : ℕ)
    (hauto : (run env ops (.start autoCommit)).autoCommit = true) :
    let σ := run env ops (.start autoCommit)
    AllOrNothing env σ (σ.stmts s).items (firstItem σ) (executeLargeBatch env s σ) ↔
      σ.db.inTransaction = false ∧
        ((σ.stmts s).Usable → BatchSafe env σ (σ.stmts s).items.length) := by
  intro σ
  have hcovers : FlagCovers σ := flagCovers_run autoCommit ops
  by_cases hopen : σ.db.inTransaction = true
  · refine iff_of_false (fun h => ?_) fun h => absurd (hopen.symm.trans h.1) (by decide)
    have hstill := inTransaction_of_open env s hauto hopen (hcovers hopen)
    exact absurd (hstill.symm.trans h.closed) (by decide)
  · have hclosed : σ.db.inTransaction = false := by simpa using hopen
    by_cases hu : (σ.stmts s).Usable
    · obtain ⟨isPrepared, ref, load, items, q, hload, hready, hitems, heq⟩ :=
        executeLargeBatch_of_usable env hu
      have hcore := batchCore_allOrNothing_iff env hload items hauto hclosed hready
      have hlen : (σ.stmts s).items.length = items.length := by rw [← hitems, List.length_map]
      rw [heq, ← hitems, hcore, List.length_map]
      exact ⟨fun h => ⟨hclosed, fun _ => h⟩, fun h => h.2 hu⟩
    · obtain ⟨e, he⟩ := executeLargeBatch_of_not_usable env hu
      rw [he]
      exact iff_of_true ⟨rfl, hclosed⟩ ⟨hclosed, fun h => absurd h hu⟩

/-- Two statements are added to a batch. -/
def twoItems : List Op := [.createStatement, .addBatchSql 0 7, .addBatchSql 0 8]

theorem batch_atomic_iff_twoItems :
    let σ := run (failsAt [2]) twoItems (.start true)
    σ.autoCommit = true ∧
      AllOrNothing (failsAt [2]) σ (σ.stmts 0).items (firstItem σ)
        (executeLargeBatch (failsAt [2]) 0 σ) :=
  ⟨by decide, (batch_atomic_iff (failsAt [2]) true twoItems 0 (by decide)).2
    ⟨by decide, fun _ => .inr (.inr ⟨1, by decide, by unfold Succeed; decide, by decide,
      by decide⟩)⟩⟩

/-- BEGIN fails and the batch is tried again: it runs without a transaction, and its first
    statement stays applied when the second fails. -/
theorem batch_half_applied :
    let σ := run (failsAt [0, 2]) (twoItems ++ [.executeBatch 0]) (.start true)
    σ.autoCommit = true ∧
      (final (executeLargeBatch (failsAt [0, 2]) 0 σ)).db.applied = [⟨7, 0⟩] ∧
      ¬ AllOrNothing (failsAt [0, 2]) σ (σ.stmts 0).items (firstItem σ)
        (executeLargeBatch (failsAt [0, 2]) 0 σ) := by
  refine ⟨by decide, by decide, fun h => ?_⟩
  exact absurd h.1 (by decide)

end DuckDBJava.Connection
