/-
  Handles and result sets over whole runs.

  **`closure_propagates_iff`**: handles are released at most once and not used afterwards; and a
  run closes all result sets of the statements and of the connection it closes iff it closes them
  when every open result set is still the current one of its statement.  `getResultSet` hands out
  the current result set and forgets it.
-/
import DuckDBJava.Handles.Closure
import Mathlib.Data.List.Infix

namespace DuckDBJava.Handles

open Exec Connection

section
variable {env : Env} {s t u : State} {op : Op} {r : ℕ}

/-! ## Every call keeps the invariant -/

theorem prepareStatement_safe (env : Env) : Safe Fits Inv Later (prepareStatement env) :=
  connCheckOpen_safe.bind fun _ => (newStmt_safe true).bind fun k => prepare_safe env k

theorem executeSql_safe (env : Env) (k : ℕ) : Safe Fits Inv Later (executeSql env k) :=
  (requireNonBatch_safe k).bind fun _ => (prepare_safe env k).bind fun _ =>
    (execute_safe env k).discard

theorem call_safe (env : Env) (op : Op) : Safe Fits Inv Later (call env op) := by
  cases op with
  | createStatement => exact createStatement_safe.discard
  | prepareStatement => exact prepareStatement_safe env
  | execute k => exact (execute_safe env k).discard
  | executeSql k => exact executeSql_safe env k
  | executeQuery k => exact (executeQuery_safe env k).discard
  | executeQuerySql k =>
    exact ((prepare_safe env k).bind fun _ => executeQuery_safe env k).discard
  | getResultSet k => exact (getResultSet_safe k).discard
  | closeOnCompletion k => exact closeOnCompletion_safe k
  | next r => exact (next_safe env r).discard
  | closeResult r => exact closeResult_safe env r
  | closeStatement k => exact closeStmt_safe env k
  | closeConnection => exact closeConn_safe env

theorem step_safe (env : Env) (op : Op) : Safe Fits Inv Later (step env op) :=
  Safe.get.bind fun _ => (Safe.require _ (by simp [Fits])).bind fun _ => call_safe env op

theorem inv_init (autoCommit : Bool) : Inv (.init autoCommit) := by
  have hrefs : ∀ o h, (State.init autoCommit).refs o = some h → o = .connRef ∧ h = 0 := by
    intro o h ho
    cases o <;> simp_all [State.init]
  refine ⟨⟨List.Pairwise.nil, ?_, fun o h ho => ?_, fun o o' h ho ho' => ?_⟩,
    ⟨?_, fun k _ => ⟨rfl, rfl⟩, fun k _ => ⟨rfl, rfl⟩, fun h => ?_, ?_, fun r h hr => ?_⟩⟩
  · rintro h ⟨c, hc, -⟩
    cases hc
  · rw [(hrefs o h ho).2]
    exact ⟨Nat.one_pos, by rintro ⟨c, hc, -⟩; cases hc⟩
  · rw [(hrefs o h ho).1, (hrefs o' h ho').1]
  · intro k r hr
    cases hr
  · cases h
  · intro r hr
    cases hr
  · cases (hrefs _ h hr).1

/-- **Every run** keeps the invariant, and what it closed stays closed. -/
theorem run_safe (env : Env) (ops : List Op) (hI : Inv s) :
    Inv (run env ops s) ∧ Later s (run env ops s) := by
  induction ops generalizing s with
  | nil => exact ⟨hI, Std.Refl.refl s⟩
  | cons op ops ih =>
    obtain ⟨hIt, hl⟩ := (step_safe env op s hI).final
    obtain ⟨hIu, hl'⟩ := ih hIt
    exact ⟨hIu, IsTrans.trans _ _ _ hl hl'⟩

/-! ## What a close is to close -/

/-- The result set is closed and its native result released. -/
def Gone (σ : State) (r : ℕ) : Prop :=
  σ.refs (.resultRef r) = none ∧ Released σ (σ.results r).origin

/-- The result sets of a statement or of the connection that is closed. -/
def Op.closes : Op → State → ℕ → Prop
  | .closeStatement k, σ, r => r < σ.resultCount ∧ (σ.results r).stmt = k
  | .closeConnection, σ, r => r < σ.resultCount
  | _, _, _ => False

/-- Those that are open are the current ones of their statements: `getResultSet` has handed out
    none of them. -/
def NoneHandedOut (op : Op) (σ : State) : Prop :=
  ∀ r, op.closes σ r → σ.refs (.resultRef r) ≠ none →
    (σ.stmts (σ.results r).stmt).selectResult = some r

/-- Each statement, and the connection, is closed when none of its open result sets is handed
    out. -/
def ClosesCurrent (env : Env) (ops : List Op) (σ : State) : Prop :=
  ∀ pre op, pre ++ [op] <+: ops → isOk (step env op (run env pre σ)) = true →
    NoneHandedOut op (run env pre σ)

/-- Once a statement or the connection is closed, all its result sets are gone. -/
def Propagates (env : Env) (ops : List Op) (σ : State) : Prop :=
  ∀ pre op mid, pre ++ op :: mid <+: ops → isOk (step env op (run env pre σ)) = true →
    ∀ r, op.closes (run env (pre ++ op :: mid) σ) r → Gone (run env (pre ++ op :: mid) σ) r

theorem Inv.gone_iff (hI : Inv s) (hr : r < s.resultCount) :
    Gone s r ↔ s.refs (.resultRef r) = none := by
  refine ⟨And.left, fun h => ⟨h, ?_⟩⟩
  rcases hI.result r hr with he | ⟨-, hR⟩
  · rw [h] at he; cases he
  · exact hR

theorem Op.closes.lt (h : op.closes s r) : r < s.resultCount := by
  cases op with
  | closeStatement k => exact h.1
  | closeConnection => exact h
  | _ => cases h

theorem Later.closes_iff (h : Later s t) (hr : r < s.resultCount) :
    op.closes t r ↔ op.closes s r := by
  have hrt := hr.trans_le h.resultCount_le
  cases op with
  | closeStatement k => simp only [Op.closes, h.result r hr, hr, hrt]
  | closeConnection => simp only [Op.closes, hr, hrt]
  | _ => exact Iff.rfl

theorem step_eq_ok (h : step env op s = .ok () t) :
    op.exists s = true ∧ call env op s = .ok () t := by
  rw [step, get_bind, require_bind] at h
  split at h
  · next he => exact ⟨he, h⟩
  · cases h

/-- **One close**: what it leaves open is what was handed out. -/
theorem close_resultRef (hI : Inv s) (h : step env op s = .ok () t) (hr : op.closes s r) :
    t.refs (.resultRef r) = none ↔
      s.refs (.resultRef r) = none ∨ (s.stmts (s.results r).stmt).selectResult = some r := by
  obtain ⟨-, h⟩ := step_eq_ok h
  cases op with
  | closeStatement k =>
    rw [(closeStmt_ok hI h).1 r, hr.2]
    split
    · next hk => exact ⟨fun _ => .inr hk, fun _ => rfl⟩
    · next hk => exact ⟨.inl, fun h => h.resolve_right hk⟩
  | closeConnection =>
    rw [closeConn_ok hI h r, or_comm]
    refine or_congr_right ⟨fun ⟨k, hk⟩ => ?_, fun hk => ⟨_, hk⟩⟩
    rwa [(hI.current k r hk).2]
  | _ => cases hr

/-- A close makes no result sets. -/
theorem close_open (hI : Inv s) (h : step env op s = .ok () t) (hr : op.closes u r)
    (hopen : t.refs (.resultRef r) ≠ none) : r < s.resultCount := by
  obtain ⟨-, h⟩ := step_eq_ok h
  have hs : s.refs (.resultRef r) ≠ none := by
    cases op with
    | closeStatement k =>
      rw [(closeStmt_ok hI h).1 r] at hopen
      split at hopen
      · exact absurd rfl hopen
      · exact hopen
    | closeConnection => exact fun hn => hopen ((closeConn_ok hI h r).2 (.inr hn))
    | _ => cases hr
  obtain ⟨a, ha⟩ := Option.ne_none_iff_exists'.1 hs
  exact hI.result_lt r a ha

/-- A closed statement, or connection, gets no new result sets. -/
theorem close_no_new (hI : Inv s) (h : step env op s = .ok () t) (hl : Later s t)
    (hl' : Later t u) (hr : op.closes u r) : r < t.resultCount := by
  obtain ⟨he, h⟩ := step_eq_ok h
  by_contra hn
  obtain ⟨hc, hk⟩ := hl'.fresh r (Nat.not_lt.1 hn) hr.lt
  cases op with
  | closeStatement k =>
    have hks : k < s.stmtCount := by simpa [Op.exists] using he
    rw [hr.2] at hk
    rcases stmtClosed_eq_true.1 ((closeStmt_ok hI h).2.2.2 hks) with hg | hn
    · rw [hk (hks.trans_le hl.stmtCount_le)] at hg
      cases hg
    · exact hc hn
  | closeConnection => exact hc (closeConn_disconnects h)
  | _ => cases hr

theorem exists_of_isOk {x : EStateM.Result Thrown State Unit} (h : isOk x = true) :
    ∃ t, x = .ok () t := by
  cases x with
  | ok a t => exact ⟨t, rfl⟩
  | error e t => cases h

theorem run_append (env : Env) (ops ops' : List Op) (σ : State) :
    run env (ops ++ ops') σ = run env ops' (run env ops σ) := List.foldl_append

/-- **Closure propagation and handle linearity** -/
theorem closure_propagates_iff (env : Env) (autoCommit : Bool) (ops : List Op) :
    Linear (run env ops (.init autoCommit)).trace ∧
      (Propagates env ops (.init autoCommit) ↔ ClosesCurrent env ops (.init autoCommit)) := by
  have hrun : ∀ ops, Inv (run env ops (.init autoCommit)) := fun ops =>
    (run_safe env ops (inv_init autoCommit)).1
  refine ⟨(hrun ops).linear, fun hp pre op hpre hok r hr hopen => ?_,
    fun hc pre op mid hpre hok r hr => ?_⟩
  · obtain ⟨t, ht⟩ := exists_of_isOk hok
    have hl := ((step_safe env op _ (hrun pre)).of_ok ht).2
    have hfin : run env (pre ++ [op]) (.init autoCommit) = t := by
      rw [run_append]
      exact congrArg final ht
    have hgone := hp pre op [] hpre hok r (by rw [hfin]; exact (hl.closes_iff hr.lt).2 hr)
    rw [hfin] at hgone
    exact ((close_resultRef (hrun pre) ht hr).1 hgone.1).resolve_left hopen
  · obtain ⟨t, ht⟩ := exists_of_isOk hok
    obtain ⟨hIt, hl⟩ := (step_safe env op _ (hrun pre)).of_ok ht
    have hfin : run env (pre ++ op :: mid) (.init autoCommit) = run env mid t := by
      rw [run_append]
      exact congrArg (run env mid ∘ final) ht
    rw [hfin] at hr ⊢
    obtain ⟨hIu, hl'⟩ := run_safe env mid hIt
    have hrt := close_no_new (hrun pre) ht hl hl' hr
    refine (hIu.gone_iff hr.lt).2 (hl'.closed r hrt ?_)
    have hcond := hc pre op ((List.prefix_append (pre ++ [op]) mid).trans (by simpa using hpre)) hok
    by_contra hopen
    have hrs := (hl.closes_iff (close_open (hrun pre) ht hr hopen)).1 ((hl'.closes_iff hrt).1 hr)
    exact hopen ((close_resultRef (hrun pre) ht hrs).2 (or_iff_not_imp_left.2 (hcond r hrs)))

/-- A query, its result set taken by `getResultSet`, and the statement closed. -/
def handedOutRun : List Op := [.createStatement, .executeSql 0, .getResultSet 0, .closeStatement 0]

/-- Native calls that all succeed, for queries. -/
def allSucceed : Env := ⟨fun _ => false, fun _ => .queryResult, fun _ => none⟩

/-- A statement that is closed leaves the result set open that `getResultSet` handed out. -/
theorem getResultSet_leaks : ¬ ∀ (env : Env) (autoCommit : Bool) (ops : List Op),
    Linear (run env ops (.init autoCommit)).trace ∧ Propagates env ops (.init autoCommit) := by
  intro h
  have hp := (h allSucceed true handedOutRun).2 [.createStatement, .executeSql 0, .getResultSet 0]
    (.closeStatement 0) [] (List.prefix_refl _) (by decide) 0 ⟨by decide, by decide⟩
  exact absurd hp.1 (by decide)

end

end DuckDBJava.Handles
