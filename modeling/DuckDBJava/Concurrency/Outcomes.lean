/-
  What an action leaves, and what it changes.

  **`exec_leaves`**: the items that an action can leave on the stack (`leaves`).
  **`exec_same`**: the actions that open, close, track and untrack nothing (`Action.plain`) leave
  the references and their lists alone (`Same`).
-/
import DuckDBJava.Concurrency.Discipline

namespace DuckDBJava.Concurrency

open Threads Connection

/-! ## The items -/

/-- All that an action of thread `t` can leave. -/
def leaves (t : Tid) (σ : Shared) : Action → Code
  | .prepare k => [.lock (.stmtRef k) (.prepareTry k)]
  | .prepareTry k => [.act (.prepareBody k), .catching Thrown.isSql (.closeStmt k)]
  | .prepareBody k => [.act (.closeSelectResult k), .act (.prepareConn k)]
  | .prepareConn k => [.lock .connRef (.prepareLocked k), .act (.prepareMeta k)]
  | .prepareLocked k => [.act (.ensureTransaction k), .act (.prepareNative k)]
  | .ensureTransaction _ =>
    [.act (.executeSql (.inner t σ.fresh)),
      .catching (fun _ => true) (.closeQuietly (.inner t σ.fresh)),
      .act (.closeStmt (.inner t σ.fresh))]
  | .executeSql k => [.act (.prepare k), .act (.execute k)]
  | .closeQuietly k => [.act (.closeStmt k), .swallow fun _ => true]
  | .execute k => [.lock .connRef .nothing, .act (.executeStart k)]
  | .executeStart k =>
    [.lock (.stmtRef k) (.executeTry k σ.fresh),
      .catching (fun _ => true) (.executeFinally k σ.fresh), .act (.executeFinally k σ.fresh),
      .act (.readChangedRows k)]
  | .executeTry k f => [.act (.executeBody k f), .catching Thrown.isSql (.setQueryFailed f)]
  | .executeBody k f => [.act (.closeSelectResult k), .act (.executeDispatch k f)]
  | .executeDispatch k f =>
    [.act (.ensureTransaction k), .act (.scheduleCancelTask k f), .act (.executeNative k f),
      .act (.finishExecute k f)]
  | .executeNative k f =>
    [.act (.enterEngine k f (.stmt k)), .act (.leaveEngine k f (.stmt k)),
      .lock .connRef (.executeDirect k f), .act (.executePending k f)]
  | .executeDirect k _ => [.lock .connRef (.addPending σ.fresh), .act (.trackStmt k)]
  | .executePending k f =>
    (σ.locals f).pending.toList.map fun p => .lock (.pendingRef p) (.executePendingBody k f p)
  | .executePendingBody k f p =>
    [.act (.enterEngine k f (.pending p)), .act (.leaveEngine k f (.pending p)),
      .act (.setPendingQuery f p)]
  | .enterEngine k f x => [.act (.enterEngine k f x)]
  | .executeFinally k f =>
    ((σ.locals f).pendingQuery.toList.map fun p => .act (.closePending p)) ++
      [.act (.executeFailed k f)]
  | .executeFailed k _ =>
    ((σ.stmts k).selectResult.toList.map fun n => .act (.closeResult ⟨k, n⟩)) ++
      [.act (.closeStmt k)]
  | .readChangedRows k =>
    ((σ.stmts k).selectResult.toList.map fun n => .act (.next ⟨k, n⟩)) ++
      [.act (.closeChangedRows k)]
  | .closeChangedRows k | .closeSelectResult k =>
    (σ.stmts k).selectResult.toList.map fun n => .act (.closeResult ⟨k, n⟩)
  | .closeStmt k =>
    [.lock (.stmtRef k) (.closeStmtBody k σ.fresh), .act (.untrackStmt k σ.fresh)]
  | .closeStmtBody k f => [.act (.closeSelectResult k), .act (.closeStmtRest k f)]
  | .untrackStmt k _ => [.lock .connRef (.removeStmt k)]
  | .closePending p =>
    [.lock (.pendingRef p) (.closePendingBody p σ.fresh), .act (.untrackPending p σ.fresh)]
  | .untrackPending p _ => [.lock .connRef (.removePending p)]
  | .closeResult r =>
    [.lock (.resultRef r) (.closeResultBody r σ.fresh), .act (.closeCompleted r σ.fresh)]
  | .closeCompleted r _ => [.act (.closeStmt r.stmt)]
  | .next r => [.lock .connRef (.fetchChunk r), .act (.nextRest r)]
  | .fetchChunk r => [.act (.fetchConn r), .catching Thrown.isSql (.closeResult r)]
  | .fetchConn r => [.lock (.resultRef r) (.fetchNative r)]
  | .getString r => [.lock .connRef (.castConn r)]
  | .castConn r => [.lock (.resultRef r) (.castNative r)]
  | .flush a => [.lock (.appenderRef a) (.flushBody a)]
  | .closeAppender a => [.lock (.appenderRef a) (.closeAppenderBody a)]
  | .closeAppenderBody a =>
    [.act (.flush a), .swallow Thrown.isSql, .act (.closeAppenderRest a)]
  | .closeAppenderRest a => [.lock .connRef (.removeAppender a), .act (.clearAppender a)]
  | .closeConn => [.lock .connRef .closeConnBody]
  | .closeConnBody =>
    [.act .closeConnInterrupt, .swallow Thrown.isSql, .act .closePendings, .act .closeStmts,
      .act .closeAppenders, .act .disconnect]
  | .closePendings =>
    (σ.pendingQueries.reverse.map fun p => .act (.closePending p)) ++ [.act .clearPendings]
  | .closeStmts =>
    (σ.preparedStatements.reverse.map fun k => .act (.closeStmt k)) ++ [.act .clearStmts]
  | .closeAppenders =>
    (σ.appenders.reverse.map fun a => .act (.closeAppender a)) ++ [.act .clearAppenders]
  | .cancel k who => [.lock .connRef (.cancelLocked k who)]
  | .cancelLocked k who => [.act (.interrupt k who)]
  | .runCancelTask k f => [.act (.cancel k (.task k f)), .swallow Thrown.isSql]
  | .nothing | .prepareNative _ | .prepareMeta _ | .scheduleCancelTask _ _ | .addPending _
  | .trackStmt _ | .leaveEngine _ _ _ | .setPendingQuery _ _ | .finishExecute _ _
  | .setQueryFailed _
  | .closeStmtRest _ _ | .removeStmt _ | .setQueryTimeout _ _ | .setCloseOnCompletion _
  | .closePendingBody _ _ | .removePending _ | .closeResultBody _ _ | .nextRest _ | .fetchNative _
  | .castNative _ | .flushBody _ | .removeAppender _ | .clearAppender _ | .closeConnInterrupt
  | .clearPendings | .clearStmts | .clearAppenders | .disconnect | .interrupt _ _ => []

/-- What the outcome leaves is in `code`. -/
def Within (code : Code) (o : Out) : Prop := ∀ code', o.2 = .ok code' → code' ⊆ code

namespace Within

variable {code : Code} {σ : Shared}

theorem ok {code' : Code} (h : code' ⊆ code) : Within code (σ.ok code') := by
  intro c hc
  cases hc
  exact h

theorem nil : Within code (σ.ok []) := ok (List.nil_subset _)

theorem all : Within code (σ.ok code) := ok (List.Subset.refl _)

theorem error {e : Thrown} : Within code (σ, .error e) := fun _ h => by cases h

theorem ite {c : Prop} [Decidable c] {x y : Out} (hx : Within code x) (hy : Within code y) :
    Within code (if c then x else y) := by
  split
  · exact hx
  · exact hy

end Within

section
variable {t : Tid} (owner : Owners Lock) (ans : Answer) (σ : Shared)

/-- **What an action leaves.** -/
theorem exec_leaves (a : Action) : Within (leaves t σ a) (exec t owner ans a σ) := by
  cases a with
  | executeNative k f =>
    exact .ite (.ite (.ok (by simp [leaves])) .error) (.ite (.ok (by simp [leaves])) .error)
  | executePending k f =>
    show Within _ (executePending σ k f)
    unfold executePending
    split
    · next p hp => exact .ok (by simp [leaves, hp])
    · exact .error
  | executeFinally k f =>
    refine .ok (List.append_subset.2 ⟨?_, ?_⟩)
    · cases hp : (σ.locals f).pendingQuery <;> simp [leaves, hp]
    · split <;> simp [leaves]
  | executeFailed k f =>
    show Within _ (executeFailed σ ans k f)
    unfold executeFailed
    split
    · next n hn => exact .ok (by simp [leaves, hn])
    · exact .ite .error (.ok (by simp [leaves]))
  | readChangedRows k =>
    refine .ite ?_ .nil
    split
    · next n hn => exact .ok (by simp [leaves, hn])
    · exact .error
  | closeChangedRows k =>
    show Within _ (closeChangedRows σ k)
    unfold closeChangedRows
    split
    · next n hn => exact .ok (by simp [leaves, hn])
    · exact .error
  | closeSelectResult k =>
    show Within _ (closeSelectResult σ k)
    unfold closeSelectResult
    split
    · next n hn => exact .ok (by simp [leaves, hn])
    · exact .nil
  | closeAppenderBody a => exact .ite (.ite .all (.ok (by simp [leaves]))) .nil
  | closeAppenderRest a => exact .ite (.ok (by simp [leaves])) .all
  | executeDispatch | executeStart | executeSql | executeTry | prepareTry | closeQuietly
  | fetchChunk | closePendings | closeStmts | closeAppenders => exact .all
  | _ =>
    repeat' first
      | exact .all
      | exact .nil
      | exact .error
      | refine .ite ?_ ?_

end

/-! ## The references -/

/-- The action opens, closes, tracks and untracks nothing, and does not enter the engine. -/
def Action.plain : Action → Bool
  | .prepareBody _ | .prepareNative _ | .closeStmtRest _ _ | .closePendingBody _ _
  | .closeResultBody _ _ | .executeDirect _ _ | .addPending _ | .trackStmt _ | .removeStmt _
  | .removePending _ | .clearPendings | .clearStmts | .ensureTransaction _ | .enterEngine _ _ _
  | .leaveEngine _ _ _ | .closeConnBody | .disconnect => false
  | _ => true

/-- The fields of a statement that say whether it is open. -/
def Statement.refs (st : Statement) : Bool × Bool × Bool :=
  (st.isPreparedStatement, st.hasStmtRef, st.hasConn)

/-- The same references are open and tracked, and no other frame is completed. -/
structure Same (σ σ' : Shared) : Prop where
  pendings : σ'.pendings = σ.pendings
  refs : ∀ k, (σ'.stmts k).refs = (σ.stmts k).refs
  pendingQueries : σ'.pendingQueries = σ.pendingQueries
  preparedStatements : σ'.preparedStatements = σ.preparedStatements
  connOpen : σ'.connOpen = σ.connOpen
  closing : σ'.closing = σ.closing
  running : σ'.running = σ.running
  fresh : σ.fresh ≤ σ'.fresh
  completed : ∀ f, (σ'.locals f).completed = true → (σ.locals f).completed = true

namespace Same

variable {σ τ τ' : Shared}

theorem refl (σ : Shared) : Same σ σ :=
  ⟨rfl, fun _ => rfl, rfl, rfl, rfl, rfl, rfl, le_rfl, fun _ h => h⟩

/-- Other fields, and new numbers. -/
theorem other (h : Same σ τ) (hfresh : τ.fresh ≤ τ'.fresh)
    (hv : (τ'.pendings, τ'.stmts, τ'.pendingQueries, τ'.preparedStatements, τ'.connOpen, τ'.closing,
      τ'.running, τ'.locals) = (τ.pendings, τ.stmts, τ.pendingQueries, τ.preparedStatements,
      τ.connOpen, τ.closing, τ.running, τ.locals)) : Same σ τ' := by
  simp only [Prod.mk.injEq] at hv
  obtain ⟨hp, hs, hq, hl, ho, hc, hr, hloc⟩ := hv
  exact ⟨hp.trans h.pendings, fun k => by rw [hs, h.refs], hq.trans h.pendingQueries,
    hl.trans h.preparedStatements, ho.trans h.connOpen, hc.trans h.closing, hr.trans h.running,
    h.fresh.trans hfresh, fun f hf => h.completed f (by rwa [hloc] at hf)⟩

/-- Other fields of statement `k`. -/
theorem setStmt (h : Same σ τ) {k : StmtId} {f : Statement → Statement}
    (hf : ∀ st, (f st).refs = st.refs := by intro; rfl) : Same σ (τ.setStmt k f) := by
  refine { h with refs := fun j => ?_ }
  rw [← h.refs]
  show (Function.update τ.stmts k (f (τ.stmts k)) j).refs = _
  by_cases hj : j = k
  · rw [hj, Function.update_self]
    exact hf _
  · rw [Function.update_of_ne hj]

/-- Other local variables. -/
theorem setLocals (h : Same σ τ) {f : ℕ} {g : Locals → Locals}
    (hg : (g (τ.locals f)).completed = true → (τ.locals f).completed = true := by exact id) :
    Same σ (τ.setLocals f g) := by
  refine { h with completed := fun j hj => h.completed j ?_ }
  change (Function.update τ.locals f (g (τ.locals f)) j).completed = true at hj
  by_cases hne : j = f
  · rw [hne, Function.update_self] at hj
    exact hne ▸ hg hj
  · rwa [Function.update_of_ne hne] at hj

theorem newLocals (h : Same σ τ) : Same σ τ.newLocals :=
  (h.setLocals (f := τ.fresh) (g := fun _ => ⟨none, none, false, false, false⟩)
    fun hc => by cases hc).other (Nat.le_succ _) rfl

theorem ok (h : Same σ τ) {code : Code} : Same σ (τ.ok code).1 := h

theorem error (h : Same σ τ) {e : Thrown} : Same σ ((τ, .error e) : Out).1 := h

theorem ite {c : Prop} [Decidable c] {x y : Out} (hx : Same σ x.1) (hy : Same σ y.1) :
    Same σ (if c then x else y).1 := by
  split
  · exact hx
  · exact hy

end Same

theorem cleanupCancelQueryTask_same (σ : Shared) (k : StmtId) :
    Same σ (cleanupCancelQueryTask σ k) := by
  unfold cleanupCancelQueryTask
  split
  · exact (Same.setStmt (.refl σ) (f := fun st => { st with cancelQueryFuture := none })
      fun _ => rfl).other le_rfl rfl
  · exact .refl σ

section
variable {t : Tid} (owner : Owners Lock) (ans : Answer) (σ : Shared)

/-- **The plain actions.** -/
theorem exec_same {a : Action} (ha : a.plain = true) : Same σ (exec t owner ans a σ).1 := by
  have hclean := cleanupCancelQueryTask_same σ
  have hself := Same.refl σ
  cases a with
  | prepareBody | prepareNative | closeStmtRest | closePendingBody | closeResultBody
  | executeDirect | addPending | trackStmt | removeStmt | removePending | clearPendings
  | clearStmts | ensureTransaction | enterEngine | leaveEngine | closeConnBody | disconnect =>
    cases ha
  | scheduleCancelTask k f =>
    refine .ite (.ok (.setStmt ?_)) hself
    exact (hclean k).other le_rfl rfl
  | finishExecute k f =>
    refine .ite (.error (hclean k)) (.ok (.setStmt ?_))
    exact (hclean k).other (Nat.le_succ _) rfl
  | closeStmtBody k f => exact .ite hself (hclean k)
  | executePending k f =>
    show Same σ (executePending σ k f).1
    unfold executePending
    split
    · exact hself
    · exact hself
  | executeFailed k f =>
    show Same σ (executeFailed σ ans k f).1
    unfold executeFailed
    split
    · exact hself
    · exact .ite hself hself
  | readChangedRows k =>
    refine .ite ?_ hself
    split
    · exact hself
    · exact hself
  | closeChangedRows k =>
    show Same σ (closeChangedRows σ k).1
    unfold closeChangedRows
    split
    · exact hself
    · exact hself
  | closeSelectResult k =>
    show Same σ (closeSelectResult σ k).1
    unfold closeSelectResult
    split
    · exact hself
    · exact hself
  | setPendingQuery | setQueryFailed => exact .ok (.setLocals hself)
  | closeStmt => exact .ite (.ok hself) (.ok hself.newLocals)
  | closeResult | closePending => exact .ite (.ok hself.newLocals) (.ok hself)
  | executeStart => exact hself.newLocals
  | prepare => exact .ite hself (.ite hself (.ok (.setStmt hself)))
  | prepareConn k =>
    exact .ite (.ok (.setStmt hself)) (.error (.setStmt hself))
  | setQueryTimeout | setCloseOnCompletion => exact .ite hself (.ok (.setStmt hself))
  | executeDispatch | executeFinally => exact .ok (.setStmt hself)
  | _ =>
    repeat' first
      | exact hself
      | exact hself.other le_rfl rfl
      | refine .ite ?_ ?_

end

end DuckDBJava.Concurrency
