/-
  What the calls on a connection can do to its flag, its log and its engine.

  `Step` lists the five things that happen, and every call of an application is a sequence of
  them (`steps_call`), whatever fails on the way.  What each step keeps, a run keeps.
-/
import DuckDBJava.Connection.Machine
import Mathlib.Logic.Relation

namespace DuckDBJava.Connection

open Exec

section
variable {env : Env}

/-! ## Calls in calls -/

theorem discard_native_apply (sql : Sql) (σ : State) :
    (discard (native env sql) : ConnM Unit) σ = match σ.execNative env sql with
      | (τ, some _) => .ok () τ
      | (τ, none) => .error .nativeFailure τ := by
  rw [discard_apply]
  unfold native
  cases h : σ.execNative env sql with
  | mk τ r => cases r <;> rfl

/-- With auto-commit on or a transaction started, a statement runs its text and nothing else. -/
theorem runStatement_of_running {σ : State}
    (h : σ.autoCommit = true ∨ σ.transactionRunning = true) (depth : ℕ) (sql : Sql) :
    runStatement env (depth + 1) sql σ = (discard (native env sql) : ConnM Unit) σ := by
  rw [runStatement, get_bind]
  by_cases ha : σ.autoCommit = true
  · rw [if_pos ha]
    rfl
  · have hr := h.resolve_left ha
    rw [if_neg ha]
    have hskip : (discard (startTransactionWith (runStatement env depth)) : ConnM Unit) σ =
        .ok () σ := by
      rw [discard_apply, startTransactionWith, get_bind, if_pos hr]
      rfl
    exact bind_ok hskip

/-- `startTransaction` sets the flag and runs BEGIN, however deep it is called. -/
theorem startTransactionWith_eq (depth : ℕ) (σ : State) :
    startTransactionWith (runStatement env (depth + 1)) σ =
      if σ.transactionRunning = true then .ok false σ
      else match { σ with transactionRunning := true }.execNative env .beginTransaction with
        | (τ, some _) => .ok true τ
        | (τ, none) => .error .nativeFailure τ := by
  rw [startTransactionWith, get_bind]
  split
  · rfl
  · rw [modify_bind, bind_apply, runStatement_of_running (.inr rfl), discard_native_apply]
    cases h : { σ with transactionRunning := true }.execNative env .beginTransaction with
    | mk τ r => cases r <;> rfl

/-- Calls do not nest deeper than `callDepth`. -/
theorem runStatement_depth (depth : ℕ) (sql : Sql) :
    runStatement env (callDepth + depth) sql = runStatement env callDepth sql := by
  have hstart : startTransactionWith (runStatement env (1 + depth)) =
      startTransactionWith (runStatement env 1) := by
    funext σ
    rw [Nat.add_comm, startTransactionWith_eq, startTransactionWith_eq 0]
  have hdepth : callDepth + depth = 1 + depth + 1 := by unfold callDepth; omega
  rw [hdepth]
  show _ = runStatement env (1 + 1) sql
  simp only [runStatement] at hstart ⊢
  rw [hstart]

theorem startTransaction_eq (σ : State) :
    startTransaction env σ =
      if σ.transactionRunning = true then .ok false σ
      else match { σ with transactionRunning := true }.execNative env .beginTransaction with
        | (τ, some _) => .ok true τ
        | (τ, none) => .error .nativeFailure τ :=
  startTransactionWith_eq 1 σ

end

/-! ## Steps -/

/-- One change of the flag, the log or the engine. -/
inductive Step (env : Env) : State → State → Prop
  /-- anything but the three -/
  | frame {σ τ : State} (hlog : τ.log = σ.log)
      (hflag : τ.transactionRunning = σ.transactionRunning) (hdb : τ.db = σ.db) : Step env σ τ
  /-- BEGIN, with the flag set before -/
  | begins (σ : State) (h : σ.transactionRunning = false) :
      Step env σ ({ σ with transactionRunning := true }.execNative env .beginTransaction).1
  /-- a user statement, with auto-commit on or behind `startTransaction` -/
  | user (σ : State) (q : Query) (h : σ.autoCommit = true ∨ σ.transactionRunning = true) :
      Step env σ (σ.execNative env (.user q)).1
  /-- COMMIT or ROLLBACK succeeds and the flag is cleared -/
  | closes {σ τ : State} {sql : Sql} {n : ℕ} (h : sql = .commit ∨ sql = .rollback)
      (hr : σ.execNative env sql = (τ, some n)) :
      Step env σ { τ with transactionRunning := false }
  /-- COMMIT or ROLLBACK fails -/
  | closeFails {σ τ : State} {sql : Sql} (h : sql = .commit ∨ sql = .rollback)
      (hr : σ.execNative env sql = (τ, none)) : Step env σ τ

/-- Any number of steps. -/
abbrev Reaches (env : Env) : State → State → Prop := Relation.ReflTransGen (Step env)

/-- However the computation ends, it has taken steps. -/
abbrev Steps (env : Env) {α : Type} (x : ConnM α) : Prop := Keeps (fun _ => True) (Reaches env) x

section
variable {env : Env}

theorem Reaches.frame {σ τ : State} (hlog : τ.log = σ.log)
    (hflag : τ.transactionRunning = σ.transactionRunning) (hdb : τ.db = σ.db) :
    Reaches env σ τ := .single (.frame hlog hflag hdb)

theorem steps_modifyStmt (s : ℕ) (f : Statement → Statement) : Steps env (modifyStmt s f) :=
  fun _ => .frame rfl rfl rfl

theorem steps_getStmt (s : ℕ) : Steps env (getStmt s) := fun _ => .frame rfl rfl rfl

theorem steps_checkOpen (s : ℕ) : Steps env (checkOpen s) :=
  (steps_getStmt s).bind fun _ => .require _ _

theorem steps_checkPrepared (s : ℕ) : Steps env (checkPrepared s) :=
  (steps_getStmt s).bind fun _ => .ite (.require _ _) (.require _ _)

theorem steps_requireNonBatch (s : ℕ) : Steps env (requireNonBatch s) :=
  (steps_getStmt s).bind fun _ => .require _ _

theorem steps_nativePrepare : Steps env (nativePrepare env) :=
  Keeps.get.bind fun _ => Keeps.bind (fun _ => Reaches.frame rfl rfl rfl) fun _ => .require _ _

/-! ## The engine -/

theorem exec_user_inTransaction (db : Database) (outcome : Option ℕ) (q : Query) :
    (db.exec outcome (.user q)).1.inTransaction = db.inTransaction := by
  unfold Database.exec
  cases outcome with
  | none => rfl
  | some n => simp only; split <;> rfl

theorem execNative_db {σ τ : State} {sql : Sql} {r : Option ℕ}
    (h : σ.execNative env sql = (τ, r)) : σ.db.exec (env.outcome σ.calls) sql = (τ.db, r) := by
  unfold State.execNative at h
  obtain ⟨rfl, rfl⟩ := Prod.mk.inj h
  rfl

/-- COMMIT and ROLLBACK succeed on an open transaction only, and close it. -/
theorem exec_close_some {db d : Database} {outcome : Option ℕ} {sql : Sql} {n : ℕ}
    (h : sql = .commit ∨ sql = .rollback) (hr : db.exec outcome sql = (d, some n)) :
    db.inTransaction = true ∧ d.inTransaction = false := by
  revert hr
  rcases h with rfl | rfl
  all_goals
    unfold Database.exec
    cases db.inTransaction <;> cases outcome
    all_goals
      intro hr
      simp only [Bool.false_eq_true, if_true, if_false, Prod.mk.injEq, Option.some.injEq,
        reduceCtorEq, and_false] at hr
    exact ⟨rfl, by rw [← hr.1]⟩

/-- Without a transaction they fail and change nothing. -/
theorem exec_close_of_not {db : Database} (outcome : Option ℕ) {sql : Sql}
    (h : sql = .commit ∨ sql = .rollback) (hdb : db.inTransaction = false) :
    db.exec outcome sql = (db, none) := by
  rcases h with rfl | rfl <;> simp [Database.exec, hdb]

/-! ## The calls -/

theorem steps_startTransaction : Steps env (startTransaction env) := by
  intro σ
  rw [startTransaction_eq]
  split
  · exact Relation.ReflTransGen.refl
  · next h =>
    have hbegin : Reaches env σ ({ σ with transactionRunning := true }.execNative env
        .beginTransaction).1 := .single (.begins σ (by simpa using h))
    cases hr : { σ with transactionRunning := true }.execNative env .beginTransaction with
    | mk τ r =>
      rw [hr] at hbegin
      cases r with
      | some n => exact hbegin
      | none => exact fun _ => hbegin

theorem steps_ensureTransaction : Steps env (ensureTransaction env) :=
  Keeps.get.bind fun _ => .ite (.pure _) steps_startTransaction.discard

/-- Before a statement runs, auto-commit is on or the flag is set. -/
theorem ensureTransaction_ok {σ τ : State} {u : Unit} (h : ensureTransaction env σ = .ok u τ) :
    τ.autoCommit = true ∨ τ.transactionRunning = true := by
  rw [ensureTransaction, get_bind] at h
  by_cases ha : σ.autoCommit = true
  · rw [if_pos ha] at h
    obtain rfl := (EStateM.Result.ok.inj h).2
    exact .inl ha
  · rw [if_neg ha, discard_apply, startTransaction_eq] at h
    right
    by_cases hr : σ.transactionRunning = true
    · rw [if_pos hr] at h
      obtain rfl := (EStateM.Result.ok.inj h).2
      exact hr
    · rw [if_neg hr] at h
      cases hn : { σ with transactionRunning := true }.execNative env .beginTransaction with
      | mk ρ r =>
        rw [hn] at h
        cases r with
        | none => cases h
        | some n =>
          obtain rfl := (EStateM.Result.ok.inj h).2
          have hρ : ρ = ({ σ with transactionRunning := true }.execNative env
            .beginTransaction).1 := by rw [hn]
          rw [hρ]
          rfl

theorem steps_close {sql : Sql} (h : sql = .commit ∨ sql = .rollback) :
    Steps env (do
      discard (native env sql)
      modify fun σ => { σ with transactionRunning := false }) := by
  intro σ
  rw [bind_apply, discard_native_apply]
  cases hr : σ.execNative env sql with
  | mk τ r =>
    cases r with
    | some n => exact Relation.ReflTransGen.single (.closes h hr)
    | none => exact fun _ => .single (.closeFails h hr)

theorem steps_runStatement {depth : ℕ} {sql : Sql} (h : sql = .commit ∨ sql = .rollback) :
    Steps env (do
      runStatement env (depth + 2) sql
      modify fun σ => { σ with transactionRunning := false }) := by
  have hstart : Steps env (startTransactionWith (runStatement env (depth + 1))) := by
    have heq : startTransactionWith (runStatement env (depth + 1)) = startTransaction env := by
      funext σ
      rw [startTransactionWith_eq, startTransaction_eq]
    rw [heq]
    exact steps_startTransaction
  rw [runStatement, bind_assoc]
  refine Keeps.get.bind fun σ => ?_
  rw [bind_assoc]
  exact Keeps.bind (.ite (.pure _) hstart.discard) fun _ => steps_close h

theorem steps_commit : Steps env (commit env) := steps_runStatement (.inl rfl)

theorem steps_rollback : Steps env (rollback env) := steps_runStatement (.inr rfl)

theorem steps_setAutoCommit (b : Bool) : Steps env (setAutoCommit env b) :=
  Keeps.get.bind fun _ => .ite (.pure _) <|
    Keeps.bind (fun _ => Reaches.frame rfl rfl rfl) fun _ => .ite steps_commit (.pure _)

theorem steps_closeStmt (s : ℕ) : Steps env (closeStmt s) := steps_modifyStmt _ _

theorem steps_prepare (s text : ℕ) : Steps env (prepare env s text) :=
  (steps_checkOpen s).bind fun _ => (steps_getStmt s).bind fun _ => .ite
    (.catchWith
      ((steps_modifyStmt _ _).bind fun _ => steps_ensureTransaction.bind fun _ =>
        steps_nativePrepare.bind fun _ => (steps_modifyStmt _ _).bind fun _ => steps_nativePrepare)
      fun _ => (steps_closeStmt s).bind fun _ => .throw _)
    (steps_modifyStmt _ _)

/-- A user statement is executed behind `ensureTransaction`. -/
theorem steps_executeBody (s : ℕ) : Steps env (executeBody env s) := by
  refine (steps_modifyStmt _ _).bind fun _ => steps_ensureTransaction.bind_of fun σ _ τ hστ => ?_
  have hτ := ensureTransaction_ok hστ
  show Ends _ (Reaches env τ) ((native env (.user (τ.stmts s).toRun) >>= _) τ)
  have huser : Reaches env τ (τ.execNative env (.user (τ.stmts s).toRun)).1 :=
    .single (.user τ (τ.stmts s).toRun hτ)
  rw [bind_apply]
  unfold native
  cases hr : τ.execNative env (.user (τ.stmts s).toRun) with
  | mk ρ r =>
    rw [hr] at huser
    cases r with
    | some n => exact huser.tail (.frame rfl rfl rfl)
    | none => exact fun _ => huser

theorem steps_execute (s : ℕ) : Steps env (execute env s) :=
  (steps_checkOpen s).bind fun _ => (steps_checkPrepared s).bind fun _ =>
    (Keeps.catchWith (steps_executeBody s) fun _ => (steps_modifyStmt _ _).bind fun _ =>
      (steps_closeStmt s).bind fun _ => .throw _).bind fun _ => steps_modifyStmt _ _

theorem steps_getUpdateCountInternal (s : ℕ) : Steps env (getUpdateCountInternal s) :=
  (steps_checkOpen s).bind fun _ => (steps_getStmt s).bind fun _ => .pure _

theorem steps_executeQuery (s : ℕ) : Steps env (executeQuery env s) :=
  (steps_requireNonBatch s).bind fun _ => (steps_execute s).bind fun _ =>
    (steps_getStmt s).bind fun _ => .require _ _

theorem steps_executeLargeUpdate (s : ℕ) : Steps env (executeLargeUpdate env s) :=
  (steps_requireNonBatch s).bind fun _ => (steps_execute s).bind fun _ =>
    (steps_getStmt s).bind fun _ => (Keeps.require _ _).bind fun _ =>
      steps_getUpdateCountInternal s

theorem steps_executeItems {s : ℕ} {load : ℕ → ConnM Unit} (hload : ∀ n, Steps env (load n))
    (items : List ℕ) : Steps env (executeItems env s load items) := by
  induction items with
  | nil => exact .pure _
  | cons item items ih =>
    exact (hload item).bind fun _ => (steps_execute s).bind fun _ =>
      (steps_getUpdateCountInternal s).bind fun _ => ih.bind fun _ => .pure _

theorem steps_clearBatch (s : ℕ) : Steps env (clearBatch s) :=
  (steps_checkOpen s).bind fun _ => steps_modifyStmt _ _

theorem steps_batchBody {s : ℕ} {load : ℕ → ConnM Unit} (hload : ∀ n, Steps env (load n))
    (tranStarted : Bool) (items : List ℕ) :
    Steps env (batchBody env s tranStarted load items) :=
  .catchWith
    ((steps_executeItems hload items).bind fun _ => (steps_clearBatch s).bind fun _ =>
      Keeps.get.bind fun _ => Keeps.bind (.ite steps_commit (.pure _)) fun _ => .pure _)
    fun _ => Keeps.get.bind fun _ => Keeps.bind (.ite steps_rollback (.pure _)) fun _ => .throw _

theorem steps_executeLargeBatch (s : ℕ) : Steps env (executeLargeBatch env s) :=
  (steps_checkOpen s).bind fun _ => (steps_getStmt s).bind fun _ => .ite
    ((steps_checkPrepared s).bind fun _ => steps_startTransaction.bind fun _ =>
      steps_batchBody (fun _ => steps_modifyStmt _ _) _ _)
    (steps_startTransaction.bind fun _ => steps_batchBody (steps_prepare s) _ _)

theorem steps_newStmt (b : Bool) : Steps env (newStmt b) := fun _ => .frame rfl rfl rfl

/-- What one call keeps. -/
theorem steps_call (op : Op) : Steps env (op.call env) := by
  cases op with
  | setAutoCommit b => exact steps_setAutoCommit b
  | commit => exact steps_commit
  | rollback => exact steps_rollback
  | createStatement => exact (steps_newStmt false).discard
  | prepareStatement text => exact (steps_newStmt true).bind fun s => steps_prepare s text
  | closeStmt s => exact steps_closeStmt s
  | setParams s params =>
    exact (steps_checkOpen s).bind fun _ => (steps_checkPrepared s).bind fun _ =>
      steps_modifyStmt _ _
  | execute s => exact steps_execute s
  | executeSql s text =>
    exact (steps_requireNonBatch s).bind fun _ => (steps_prepare s text).bind fun _ =>
      steps_execute s
  | executeQuery s => exact steps_executeQuery s
  | executeQuerySql s text => exact (steps_prepare s text).bind fun _ => steps_executeQuery s
  | executeUpdate s => exact (steps_executeLargeUpdate s).discard
  | executeUpdateSql s text =>
    exact (steps_prepare s text).bind fun _ => (steps_executeLargeUpdate s).discard
  | addBatchSql s text =>
    exact (steps_checkOpen s).bind fun _ => (steps_getStmt s).bind fun _ =>
      (Keeps.require _ _).bind fun _ => steps_modifyStmt _ _
  | addBatch s => exact (steps_checkOpen s).bind fun _ => steps_modifyStmt _ _
  | clearBatch s => exact steps_clearBatch s
  | executeBatch s => exact (steps_executeLargeBatch s).discard

/-- Every run is a sequence of steps. -/
theorem reaches_run (ops : List Op) (σ : State) : Reaches env σ (run env ops σ) := by
  induction ops generalizing σ with
  | nil => exact .refl
  | cons op ops ih =>
    refine .trans ?_ (ih _)
    have hop : Ends _ (Reaches env σ) (op.call env σ) := steps_call op σ
    cases hr : op.call env σ with
    | ok a τ => rw [hr] at hop; exact hop
    | error e τ => rw [hr] at hop; exact hop trivial

end

end DuckDBJava.Connection
