/-
  The native calls and the locks.

  A reference is named by its lock (`connRefLock` for `connRef`, and so on).

  **`native_calls_exclusive`**: whatever the interleaving, a thread that is about to make a native
  call on a reference, or to replace the reference, holds its lock; so no two threads are at the
  same reference, and none is released while it is used.
-/
import DuckDBJava.Concurrency.Deadlock
import DuckDBJava.Concurrency.Outcomes

namespace DuckDBJava.Concurrency

open Threads Connection

/-- The references that an action passes to native calls, releases or sets; for the execution of a
    query that of its statement, too.  The result of an execution is the executing thread's own
    until `finishExecute` has made the result set. -/
def Action.refs : Action → List Lock
  | .prepareBody k | .prepareMeta k | .closeStmtRest k _ => [.stmtRef k]
  | .executePendingBody k _ p => [.pendingRef p, .stmtRef k]
  | .enterEngine k _ x | .leaveEngine k _ x => [x.lock, .stmtRef k]
  | .prepareNative k => [.connRef, .stmtRef k]
  | .executeDirect _ _ | .interrupt _ _ | .closeConnInterrupt | .disconnect => [.connRef]
  | .closePendingBody p _ => [.pendingRef p]
  | .closeResultBody r _ => [.resultRef r]
  | .fetchNative r | .castNative r => [.connRef, .resultRef r]
  | .flushBody a | .closeAppenderRest a | .clearAppender a => [.appenderRef a]
  | _ => []

/-- The locks under which an action runs, whoever has called it. -/
def Action.guard : Action → List Lock
  | .prepareTry k | .prepareBody k | .prepareConn k | .prepareMeta k | .executeTry k _
  | .executeBody k _ | .executeDispatch k _ | .scheduleCancelTask k _ | .executeNative k _
  | .executePending k _ | .finishExecute k _ | .closeSelectResult k | .closeStmtBody k _
  | .closeStmtRest k _ => [.stmtRef k]
  | .prepareLocked k | .prepareNative k | .executeDirect k _ | .trackStmt k =>
    [.connRef, .stmtRef k]
  | .executePendingBody k _ p => [.pendingRef p, .stmtRef k]
  | .enterEngine k _ x | .leaveEngine k _ x => [x.lock, .stmtRef k]
  | .closePendingBody p _ => [.pendingRef p]
  | .closeResultBody r _ => [.resultRef r]
  | .fetchNative r | .castNative r => [.resultRef r, .connRef]
  | .flushBody a | .closeAppenderBody a | .closeAppenderRest a | .clearAppender a =>
    [.appenderRef a]
  | .removeAppender a => [.connRef, .appenderRef a]
  | .addPending _ | .removeStmt _ | .removePending _ | .fetchChunk _ | .fetchConn _ | .castConn _
  | .cancelLocked _ _ | .interrupt _ _ | .closeConnBody | .closeConnInterrupt | .closePendings
  | .clearPendings | .closeStmts | .clearStmts | .closeAppenders | .clearAppenders
  | .disconnect => [.connRef]
  | _ => []

theorem refs_subset_guard (a : Action) : a.refs ⊆ a.guard := by
  cases a with
  | fetchNative | castNative => exact (List.Perm.swap _ _ []).subset
  | executeDirect k => exact List.cons_subset_cons _ (List.nil_subset [Lock.stmtRef k])
  | _ => first
    | exact List.Subset.refl _
    | exact List.nil_subset _

/-- The locks `H` are those that the item needs below it. -/
def Guarded (H : List Lock) : Item Lock Action Thrown → Prop
  | .act a | .catching _ a => a.guard ⊆ H
  | .lock l a => a.guard ⊆ l :: H
  | .unlock _ | .swallow _ | .rethrow _ => True

/-- Every item of the code is guarded, and none is an `unlock`. -/
def AllGuarded (H : List Lock) (code : Code) : Prop := held code = [] ∧ ∀ i ∈ code, Guarded H i

namespace AllGuarded

variable {H : List Lock} {code : Code}

theorem nil : AllGuarded H [] := ⟨rfl, fun _ hi => by cases hi⟩

theorem cons {i : Item Lock Action Thrown} (hi : held [i] = []) (h : Guarded H i)
    (hcode : AllGuarded H code) : AllGuarded H (i :: code) := by
  refine ⟨?_, List.forall_mem_cons.2 ⟨h, hcode.2⟩⟩
  show held ([i] ++ code) = []
  rw [held_append, hi, hcode.1]
  rfl

theorem act {a : Action} (h : a.guard ⊆ H) (hcode : AllGuarded H code) :
    AllGuarded H (.act a :: code) := cons rfl h hcode

theorem lock {l : Lock} {a : Action} (h : a.guard ⊆ l :: H) (hcode : AllGuarded H code) :
    AllGuarded H (.lock l a :: code) := cons rfl h hcode

theorem catching {p : Thrown → Bool} {a : Action} (h : a.guard ⊆ H)
    (hcode : AllGuarded H code) : AllGuarded H (.catching p a :: code) := cons rfl h hcode

theorem swallow {p : Thrown → Bool} (hcode : AllGuarded H code) :
    AllGuarded H (.swallow p :: code) := cons rfl trivial hcode

theorem map {α : Type} {f : α → Action} (h : ∀ x, (f x).guard ⊆ H)
    (hcode : AllGuarded H code) (l : List α) :
    AllGuarded H ((l.map fun x => .act (f x)) ++ code) := by
  induction l with
  | nil => exact hcode
  | cons x l ih => exact act (h x) ih

theorem subset {code' : Code} (h : AllGuarded H code) (hsub : code' ⊆ code) :
    AllGuarded H code' := by
  refine ⟨List.filterMap_eq_nil_iff.2 fun i hi => ?_, fun i hi => h.2 i (hsub hi)⟩
  exact List.filterMap_eq_nil_iff.1 h.1 i (hsub hi)

end AllGuarded

/-- **What an action leaves** is guarded, given the locks of the action. -/
theorem leaves_guarded (t : Tid) (σ : Shared) {H : List Lock} {a : Action} (h : a.guard ⊆ H) :
    AllGuarded H (leaves t σ a) := by
  have free : ∀ H : List Lock, [] ⊆ H := List.nil_subset
  have own : ∀ l : Lock, [l] ⊆ l :: H := fun l => List.cons_subset_cons l (free H)
  cases a with
  | prepare => exact .lock (own _) .nil
  | prepareTry => exact .act h (.catching (free _) .nil)
  | prepareBody => exact .act h (.act h .nil)
  | prepareConn => exact .lock (List.cons_subset_cons _ h) (.act h .nil)
  | prepareLocked => exact .act (free _) (.act h .nil)
  | ensureTransaction => exact .act (free _) (.catching (free _) (.act (free _) .nil))
  | executeSql => exact .act (free _) (.act (free _) .nil)
  | closeQuietly => exact .act (free _) (.swallow .nil)
  | execute => exact .lock (free _) (.act (free _) .nil)
  | executeStart => exact .lock (own _) (.catching (free _) (.act (free _) (.act (free _) .nil)))
  | executeTry => exact .act h (.catching (free _) .nil)
  | executeBody => exact .act h (.act h .nil)
  | executeDispatch => exact .act (free _) (.act h (.act h (.act h .nil)))
  | executeNative =>
    -- the prepared statement's reference is that of the statement
    have hk := List.cons_subset.2 ⟨h List.mem_cons_self, h⟩
    exact .act hk (.act hk (.lock (List.cons_subset_cons _ h) (.act h .nil)))
  | executeDirect => exact .lock (own _) (.act h .nil)
  | executePending k f =>
    show AllGuarded H ((σ.locals f).pending.toList.map _)
    cases (σ.locals f).pending with
    | none => exact .nil
    | some p => exact .lock (List.cons_subset_cons _ h) .nil
  | executePendingBody => exact .act h (.act h (.act (free _) .nil))
  | enterEngine => exact .act h .nil
  | executeFinally => exact .map (fun _ => free _) (.act (free _) .nil) _
  | executeFailed => exact .map (fun _ => free _) (.act (free _) .nil) _
  | readChangedRows => exact .map (fun _ => free _) (.act (free _) .nil) _
  | closeChangedRows k | closeSelectResult k =>
    show AllGuarded H ((σ.stmts k).selectResult.toList.map _)
    cases (σ.stmts k).selectResult with
    | none => exact .nil
    | some n => exact .act (free _) .nil
  | closeStmt | closePending | closeResult => exact .lock (own _) (.act (free _) .nil)
  | closeStmtBody => exact .act h (.act h .nil)
  | untrackStmt | untrackPending => exact .lock (own _) .nil
  | closeCompleted => exact .act (free _) .nil
  | next => exact .lock (own _) (.act (free _) .nil)
  | fetchChunk => exact .act h (.catching (free _) .nil)
  | fetchConn | castConn => exact .lock (List.cons_subset_cons _ h) .nil
  | getString | flush | closeAppender | closeConn | cancel => exact .lock (own _) .nil
  | closeAppenderBody => exact .act (free _) (.swallow (.act h .nil))
  | closeAppenderRest => exact .lock (List.cons_subset_cons _ h) (.act h .nil)
  | closeConnBody =>
    exact .act h (.swallow (.act h (.act h (.act h (.act h .nil)))))
  | closePendings =>
    exact .map (f := .closePending) (fun _ => free _) (.act (a := .clearPendings) h .nil) _
  | closeStmts =>
    exact .map (f := .closeStmt) (fun _ => free _) (.act (a := .clearStmts) h .nil) _
  | closeAppenders =>
    exact .map (f := .closeAppender) (fun _ => free _) (.act (a := .clearAppenders) h .nil) _
  | cancelLocked => exact .act h .nil
  | runCancelTask => exact .act (free _) (.swallow .nil)
  | _ => exact .nil

/-- The items of a stack that are guarded by the locks below them. -/
theorem guarded : Discipline exec fun _ => Guarded where
  act h hx := by
    have hsub := exec_leaves _ _ _ _ _ (congrArg Prod.snd hx)
    exact (leaves_guarded _ _ h).subset hsub
  lock h := ⟨h, trivial⟩
  catching h := h
  rethrow := trivial

/-- What users call needs no lock. -/
theorem op_guarded (op : Op) : Guarded [] (.act op.action) := by
  cases op <;> exact List.nil_subset _

/-- **Every reachable state**: the items are guarded. -/
theorem orderly_guarded (moves : List Move) {s : Sys} (h : Orderly (fun _ => Guarded) s) :
    Orderly (fun _ => Guarded) (runMoves moves s) := by
  induction moves generalizing s with
  | nil => exact h
  | cons m moves ih =>
    refine ih ?_
    cases m with
    | call t op => exact h.callThread (op_guarded op)
    | go t ans => exact h.stepped guarded (stepThread_stepped exec t ans s)

theorem guarded_init (autoCommit : Bool) (isPrepared : ℕ → Bool) (appenders : List ℕ)
    (rowIdx : ℕ → ℕ) :
    Orderly (fun _ => Guarded) (init autoCommit isPrepared appenders rowIdx) :=
  ⟨fun _ _ => rfl, fun _ _ _ h => (by cases h), fun _ => trivial⟩

/-- A thread at an action holds the locks of its references. -/
theorem owner_of_refs {s : Sys} (h : Orderly (fun _ => Guarded) s) {t : Tid} {a : Action}
    {rest : Code} (hc : (s.threads t).code = .act a :: rest) {l : Lock} (hl : l ∈ a.refs) :
    ∃ n, s.owner l = some (t, n) := by
  have hfine := h.fine t
  rw [hc] at hfine
  have hheld : l ∈ held rest := hfine.1 (refs_subset_guard a hl)
  refine h.mem_held_iff.1 ?_
  rw [hc]
  exact hheld

/-- **Native calls**: in every reachable state a thread at an action holds the locks of the
    references that it uses, and no other thread is at an action on one of them. -/
theorem native_calls_exclusive (autoCommit : Bool) (isPrepared : ℕ → Bool) (appenders : List ℕ)
    (rowIdx : ℕ → ℕ) (moves : List Move) (t : Tid) (a : Action) (rest : Code) (l : Lock)
    (hc : ((runMoves moves (init autoCommit isPrepared appenders rowIdx)).threads t).code =
      .act a :: rest) (hl : l ∈ a.refs) :
    (∃ n, (runMoves moves (init autoCommit isPrepared appenders rowIdx)).owner l = some (t, n)) ∧
    ∀ t' a' rest',
      ((runMoves moves (init autoCommit isPrepared appenders rowIdx)).threads t').code =
        .act a' :: rest' →
      l ∈ a'.refs → t' = t := by
  have hs := orderly_guarded moves (guarded_init autoCommit isPrepared appenders rowIdx)
  obtain ⟨n, hn⟩ := owner_of_refs hs hc hl
  refine ⟨⟨n, hn⟩, ?_⟩
  intro t' a' rest' hc' hl'
  obtain ⟨n', hn'⟩ := owner_of_refs hs hc' hl'
  rw [hn] at hn'
  cases hn'
  rfl

/-- Thread 1 closes the connection: it is about to interrupt. -/
def closeFirst : List Move := .call 1 .closeConnection :: goes 1 3

theorem closeFirst_exclusive :
    (∃ n, (runMoves closeFirst (init true (fun _ => false) [0] fun _ => 0)).owner .connRef =
      some (1, n)) ∧
    ∀ t' a' rest',
      ((runMoves closeFirst (init true (fun _ => false) [0] fun _ => 0)).threads t').code =
        .act a' :: rest' → .connRef ∈ a'.refs → t' = 1 :=
  native_calls_exclusive true (fun _ => false) [0] (fun _ => 0) closeFirst 1 .closeConnInterrupt
    [.swallow Thrown.isSql, .act .closePendings, .act .closeStmts, .act .closeAppenders,
      .act .disconnect, .unlock .connRef] .connRef rfl (by decide)

end DuckDBJava.Concurrency
