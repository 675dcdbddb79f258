/-
  The transaction flag of a connection against the transaction of its engine.

  `transactionRunning` is set before BEGIN runs and cleared after COMMIT or ROLLBACK has
  succeeded.  `Agrees` is the invariant that the flag tells the truth and that, with auto-commit
  off, every user statement ran in a transaction; each call keeps it as long as BEGIN succeeds
  and COMMIT and ROLLBACK succeed where a transaction is open.
-/
import DuckDBJava.Connection.Steps

namespace DuckDBJava.Connection

open Exec

/-- BEGIN succeeds, and so does the end of an open transaction. -/
def Event.ControlSucceeds (e : Event) : Prop :=
  match e.sql with
  | .beginTransaction => e.succeeded = true
  | .commit | .rollback => e.inTransaction = true → e.succeeded = true
  | .user _ => True

instance : DecidablePred Event.ControlSucceeds
  | ⟨.beginTransaction, s, _, _⟩ => inferInstanceAs (Decidable (s = true))
  | ⟨.commit, s, t, _⟩ => inferInstanceAs (Decidable (t = true → s = true))
  | ⟨.rollback, s, t, _⟩ => inferInstanceAs (Decidable (t = true → s = true))
  | ⟨.user _, _, _, _⟩ => inferInstanceAs (Decidable True)

/-- A user statement with auto-commit off runs in an explicit transaction. -/
def Event.InTransaction (e : Event) : Prop :=
  match e.sql with
  | .user _ => e.autoCommit = false → e.inTransaction = true
  | _ => True

/-- The flag is the state of the engine, and what ran with auto-commit off ran in a
    transaction. -/
structure Agrees (σ : State) : Prop where
  flag : σ.transactionRunning = σ.db.inTransaction
  user : ∀ e ∈ σ.log, e.InTransaction

/-- From `σ` to `τ`, agreement is kept if all executions of the control statements succeed. -/
structure AgreesOn (σ τ : State) : Prop where
  log : σ.log <+: τ.log
  keeps : (∀ e ∈ τ.log, e.ControlSucceeds) → Agrees σ → Agrees τ

section
variable {env : Env}

theorem AgreesOn.refl (σ : State) : AgreesOn σ σ := ⟨List.prefix_rfl, fun _ h => h⟩

theorem AgreesOn.trans {ρ σ τ : State} (h1 : AgreesOn ρ σ) (h2 : AgreesOn σ τ) : AgreesOn ρ τ :=
  ⟨h1.log.trans h2.log, fun hok h =>
    h2.keeps hok (h1.keeps (fun e he => hok e (h2.log.subset he)) h)⟩

/-- An execution that leaves flag and engine in agreement, and runs in a transaction where it
    has to. -/
theorem AgreesOn.of_execNative (env : Env) (sql : Sql) {σ τ : State}
    (hlog : τ.log = (σ.execNative env sql).1.log)
    (hflag : ∀ e : Event, (σ.execNative env sql).1.log = σ.log ++ [e] → e.ControlSucceeds →
      Agrees σ → τ.transactionRunning = τ.db.inTransaction ∧ e.InTransaction) :
    AgreesOn σ τ where
  log := by rw [hlog]; exact List.prefix_append _ _
  keeps hok h := by
    obtain ⟨e, he⟩ : ∃ e, (σ.execNative env sql).1.log = σ.log ++ [e] := ⟨_, rfl⟩
    rw [hlog, he] at hok
    obtain ⟨hf, hu⟩ := hflag e he (hok e (by simp)) h
    refine ⟨hf, fun e' he' => ?_⟩
    rw [hlog, he, List.mem_append, List.mem_singleton] at he'
    rcases he' with hold | rfl
    · exact h.user e' hold
    · exact hu

/-- Each step keeps agreement. -/
theorem agreesOn_step {σ τ : State} (h : Step env σ τ) : AgreesOn σ τ := by
  cases h with
  | frame hlog hflag hdb =>
    refine ⟨hlog ▸ List.prefix_rfl, fun _ h => ⟨?_, ?_⟩⟩
    · rw [hflag, hdb]; exact h.flag
    · rw [hlog]; exact h.user
  | begins h =>
    refine .of_execNative env .beginTransaction rfl fun e he hok hσ => ?_
    obtain rfl := List.singleton_inj.1 (List.append_cancel_left he)
    have hdb : σ.db.inTransaction = false := hσ.flag ▸ h
    refine ⟨?_, trivial⟩
    revert hok
    simp only [Event.ControlSucceeds, State.execNative, Database.exec, hdb]
    cases env.outcome σ.calls with
    | none => intro hok; cases hok
    | some n => intro _; rfl
  | user q h =>
    refine .of_execNative env (.user q) rfl fun e he _ hσ => ⟨?_, ?_⟩
    · show σ.transactionRunning = _
      rw [hσ.flag]
      exact (exec_user_inTransaction _ _ _).symm
    · obtain rfl := List.singleton_inj.1 (List.append_cancel_left he)
      intro hauto
      exact hσ.flag ▸ h.resolve_left (by simpa using hauto)
  | closes h hr =>
    rename_i ρ sql n
    have hρ : ρ = (σ.execNative env sql).1 := by rw [hr]
    refine .of_execNative env sql (by rw [hr]) fun e he _ _ => ?_
    obtain rfl := List.singleton_inj.1 (List.append_cancel_left he)
    exact ⟨(exec_close_some h (execNative_db hr)).2.symm, by rcases h with rfl | rfl <;> trivial⟩
  | closeFails h hr =>
    rename_i sql
    have hexec := execNative_db hr
    have hflag : τ.transactionRunning = σ.transactionRunning :=
      (congrArg (fun r => r.1.transactionRunning) hr).symm
    refine .of_execNative env sql (by rw [hr]) fun e he hok hσ => ?_
    obtain rfl := List.singleton_inj.1 (List.append_cancel_left he)
    refine ⟨?_, by rcases h with rfl | rfl <;> trivial⟩
    cases hdb : σ.db.inTransaction with
    | false =>
      rw [exec_close_of_not _ h hdb] at hexec
      rw [hflag, hσ.flag, (Prod.mk.inj hexec).1]
    | true =>
      -- the execution failed with the transaction open
      exfalso
      revert hok
      rcases h with rfl | rfl <;> simp [Event.ControlSucceeds, hdb, hexec]

/-- So does a run. -/
theorem agreesOn_of_reaches {σ τ : State} (h : Reaches env σ τ) : AgreesOn σ τ := by
  induction h with
  | refl => exact .refl _
  | tail _ hstep ih => exact ih.trans (agreesOn_step hstep)

end

/-- **The transaction flag.**  In every state reached by calls whose BEGINs succeed, and whose
    COMMITs and ROLLBACKs succeed where a transaction is open, the flag is set if and only if
    the engine has a transaction open, and every user statement executed with auto-commit off
    ran in one. -/
theorem transaction_flag_agrees (env : Env) (autoCommit : Bool) (ops : List Op)
    (h : ∀ e ∈ (run env ops (.start autoCommit)).log, e.ControlSucceeds) :
    Agrees (run env ops (.start autoCommit)) :=
  (agreesOn_of_reaches (reaches_run ops _)).keeps h ⟨rfl, fun _ he => absurd he List.not_mem_nil⟩

/-- Auto-commit is switched off and one statement executed. -/
def oneStatement : List Op := [.setAutoCommit false, .createStatement, .executeSql 0 7]

theorem transaction_flag_agrees_oneStatement :
    (run (failsAt []) oneStatement (.start true)).transactionRunning = true ∧
      Agrees (run (failsAt []) oneStatement (.start true)) :=
  ⟨by decide, transaction_flag_agrees (failsAt []) true oneStatement (by decide)⟩

/-- BEGIN fails: the flag stays set although no transaction is open. -/
theorem transaction_flag_stuck :
    (run (failsAt [0]) oneStatement (.start true)).transactionRunning = true ∧
      (run (failsAt [0]) oneStatement (.start true)).db.inTransaction = false ∧
      ¬ Agrees (run (failsAt [0]) oneStatement (.start true)) :=
  ⟨by decide, by decide, fun h => absurd h.flag (by decide)⟩

end DuckDBJava.Connection
