/-
  The order in which the methods lock.

  * `resultRefLock` and `pendingRefLock` are leaves: under them nothing is locked.
  * Under a statement's or an appender's lock only `connRefLock`, leaves, that same lock and the
    locks of the thread's own BEGIN TRANSACTION statements are locked.
  * Under `connRefLock` alone `DuckDBConnection.close`, and a fetch that fails, lock statements
    and appenders too.
-/
import DuckDBJava.Concurrency.Machine

namespace DuckDBJava.Concurrency

open Threads Connection

/-- Locks of result sets and of pending queries. -/
def Lock.leaf : Lock → Bool
  | .resultRef _ | .pendingRef _ => true
  | _ => false

/-- Locks of statements and of appenders. -/
def Lock.child : Lock → Bool
  | .stmtRef _ | .appenderRef _ => true
  | _ => false

/-- A statement that thread `t` has made for BEGIN TRANSACTION. -/
def StmtId.mine (t : Tid) : StmtId → Prop
  | .user _ => False
  | .inner t' _ => t' = t

/-- Thread `t`, with the locks `H`, can meet statement `k`. -/
def Reaches (t : Tid) (H : List Lock) : StmtId → Prop
  | .user _ => True
  | .inner t' _ => t' = t ∨ .connRef ∈ H

def NoLeaf (H : List Lock) : Prop := ∀ l ∈ H, l.leaf = false

def NoChild (H : List Lock) : Prop := ∀ l ∈ H, l.child = false

/-- Thread `t`, with the locks `H`, may lock statement `k`. -/
def StmtOk (t : Tid) (H : List Lock) (k : StmtId) : Prop :=
  Reaches t H k ∧ (NoChild H ∨ .stmtRef k ∈ H ∨ k.mine t)

/-- With the locks `H`, appender `a` may be locked. -/
def AppOk (H : List Lock) (a : ℕ) : Prop := NoChild H ∨ .appenderRef a ∈ H

/-- What an action may lock. -/
inductive Need where
  /-- nothing -/
  | quiet
  /-- `connRefLock` and leaves -/
  | conn
  /-- a statement too -/
  | stmt (k : StmtId)
  /-- an appender too -/
  | app (a : ℕ)
  /-- the start of `DuckDBConnection.close` -/
  | close
  /-- the rest of it -/
  | closing

def Action.need : Action → Need
  | .prepare k | .prepareTry k | .prepareBody k | .prepareConn k | .prepareLocked k
  | .ensureTransaction k | .executeSql k | .closeQuietly k | .execute k | .executeStart k
  | .executeTry k _ | .executeBody k _ | .executeDispatch k _ | .executeFinally k _
  | .executeFailed k _ | .readChangedRows k | .closeChangedRows k | .closeSelectResult k
  | .closeStmt k | .closeStmtBody k _ => .stmt k
  | .closeResult r | .closeCompleted r _ | .next r | .fetchChunk r => .stmt r.stmt
  | .executeNative _ _ | .executeDirect _ _ | .executePending _ _ | .untrackStmt _ _
  | .closePending _ | .untrackPending _ _ | .fetchConn _ | .getString _ | .castConn _
  | .closeAppenderRest _ | .cancel _ _ | .runCancelTask _ _ => .conn
  | .flush a | .closeAppender a | .closeAppenderBody a => .app a
  | .closeConn => .close
  | .closeConnBody | .closePendings | .closeStmts | .closeAppenders => .closing
  | _ => .quiet

/-- Thread `t`, with the locks `H`, may lock that. -/
def Meets (t : Tid) (H : List Lock) : Need → Prop
  | .quiet => True
  | .conn => NoLeaf H
  | .stmt k => NoLeaf H ∧ StmtOk t H k
  | .app a => NoLeaf H ∧ AppOk H a
  | .close => NoLeaf H ∧ NoChild H
  | .closing => NoLeaf H ∧ NoChild H ∧ .connRef ∈ H

/-- Thread `t`, with the locks `H`, may lock `l`. -/
def LockOk (t : Tid) (H : List Lock) : Lock → Prop
  | .stmtRef k => StmtOk t H k
  | .appenderRef a => AppOk H a
  | _ => True

/-- Thread `t` may have the item above the locks `H`. -/
def Fine (t : Tid) (H : List Lock) : Item Lock Action Thrown → Prop
  | .act a => Meets t H a.need
  | .lock l a => NoLeaf H ∧ LockOk t H l ∧ Meets t (l :: H) a.need
  | .unlock (.stmtRef k) => Reaches t H k
  | .unlock _ => True
  | .catching _ a => Meets t H a.need
  | .swallow _ => True
  | .rethrow _ => True

/-! ## More locks -/

section
variable {t : Tid} {H : List Lock} {k : StmtId} {a : ℕ}

theorem Reaches.mono {H' : List Lock} (h : Reaches t H k) (hsub : ∀ l ∈ H, l ∈ H') :
    Reaches t H' k := by
  cases k with
  | user n => trivial
  | inner t' n => exact h.imp_right (hsub _)

theorem reaches_of_conn (h : Lock.connRef ∈ H) (k : StmtId) : Reaches t H k := by
  cases k with
  | user n => trivial
  | inner t' n => exact .inr h

theorem reaches_mine (n : ℕ) : Reaches t H (.inner t n) := .inl rfl

@[simp] theorem noLeaf_cons {l : Lock} : NoLeaf (l :: H) ↔ l.leaf = false ∧ NoLeaf H := by
  simp [NoLeaf]

@[simp] theorem noChild_cons {l : Lock} : NoChild (l :: H) ↔ l.child = false ∧ NoChild H := by
  simp [NoChild]

/-- Under its own lock. -/
theorem StmtOk.own (h : StmtOk t H k) : StmtOk t (.stmtRef k :: H) k :=
  ⟨h.1.mono fun _ hl => List.mem_cons_of_mem _ hl, .inr (.inl List.mem_cons_self)⟩

/-- Under the connection's lock. -/
theorem StmtOk.conn (h : StmtOk t H k) : StmtOk t (.connRef :: H) k := by
  refine ⟨h.1.mono fun _ hl => List.mem_cons_of_mem _ hl, ?_⟩
  rcases h.2 with hc | hm | hm
  · exact .inl (noChild_cons.2 ⟨rfl, hc⟩)
  · exact .inr (.inl (List.mem_cons_of_mem _ hm))
  · exact .inr (.inr hm)

theorem stmtOk_mine (n : ℕ) : StmtOk t H (.inner t n) := ⟨reaches_mine n, .inr (.inr rfl)⟩

theorem stmtOk_of_conn (hc : NoChild H) (h : Lock.connRef ∈ H) (k : StmtId) : StmtOk t H k :=
  ⟨reaches_of_conn h k, .inl hc⟩

theorem AppOk.own (a : ℕ) : AppOk (.appenderRef a :: H) a := .inr List.mem_cons_self

end

/-! ## What the actions leave -/

/-- The code that an action leaves is fine above the locks `H`. -/
def OutFine (t : Tid) (H : List Lock) (o : Out) : Prop :=
  ∀ code, o.2 = .ok code → held code = [] ∧ ∀ i ∈ code, Fine t H i

section
variable {t : Tid} {H : List Lock}

namespace OutFine

theorem sql (σ : Shared) : OutFine t H σ.sql := fun _ h => by cases h

theorem npe (σ : Shared) : OutFine t H σ.npe := fun _ h => by cases h

theorem nil (σ : Shared) : OutFine t H (σ.ok []) := by
  intro code h
  cases h
  exact ⟨rfl, fun _ hi => by cases hi⟩

theorem ite {c : Prop} [Decidable c] {x y : Out} (hx : OutFine t H x) (hy : OutFine t H y) :
    OutFine t H (if c then x else y) := by
  split
  · exact hx
  · exact hy

theorem cons {σ : Shared} {i : Item Lock Action Thrown} {code : Code} (hi : held [i] = [])
    (hfine : Fine t H i) (h : OutFine t H (σ.ok code)) : OutFine t H (σ.ok (i :: code)) := by
  intro code' hc
  cases hc
  obtain ⟨hcode, hall⟩ := h code rfl
  refine ⟨?_, List.forall_mem_cons.2 ⟨hfine, hall⟩⟩
  show held ([i] ++ code) = []
  rw [held_append, hi, hcode]
  rfl

theorem act {σ : Shared} {a : Action} {code : Code} (h : Meets t H a.need)
    (hcode : OutFine t H (σ.ok code)) : OutFine t H (σ.ok (.act a :: code)) := cons rfl h hcode

theorem lock {σ : Shared} {l : Lock} {a : Action} {code : Code} (hH : NoLeaf H)
    (hl : LockOk t H l) (h : Meets t (l :: H) a.need) (hcode : OutFine t H (σ.ok code)) :
    OutFine t H (σ.ok (.lock l a :: code)) := cons rfl ⟨hH, hl, h⟩ hcode

theorem catching {σ : Shared} {p : Thrown → Bool} {a : Action} {code : Code}
    (h : Meets t H a.need) (hcode : OutFine t H (σ.ok code)) :
    OutFine t H (σ.ok (.catching p a :: code)) := cons rfl h hcode

theorem swallow {σ : Shared} {p : Thrown → Bool} {code : Code}
    (hcode : OutFine t H (σ.ok code)) : OutFine t H (σ.ok (.swallow p :: code)) :=
  cons rfl trivial hcode

end OutFine

variable (owner : Owners Lock) (ans : Answer) (σ : Shared)

/-- An action that locks nothing leaves only such actions. -/
theorem exec_quiet {a : Action} (ha : a.need = .quiet) : OutFine t H (exec t owner ans a σ) := by
  cases a with
  | executePendingBody k f p =>
    exact .ite (.act trivial (.act trivial (.act trivial (.nil _)))) (.sql _)
  | enterEngine k f x => exact .ite (.nil _) (.act trivial (.nil _))
  | cancelLocked k who => exact .ite (.ite (.act trivial (.nil _)) (.sql _)) (.nil _)
  | closePendingBody | closeResultBody => exact .ite (.ite (.sql _) (.nil _)) (.nil _)
  | prepareNative => exact .ite (.npe _) (.ite (.sql _) (.nil _))
  | interrupt => exact .ite (.ite (.sql _) (.nil _)) (.sql _)
  | trackStmt => exact .ite (.nil _) (.npe _)
  | scheduleCancelTask | nextRest => exact .ite (.nil _) (.nil _)
  | prepareMeta | fetchNative | castNative | flushBody => exact .ite (.nil _) (.sql _)
  | leaveEngine | finishExecute | closeStmtRest | setQueryTimeout | setCloseOnCompletion
  | closeConnInterrupt | disconnect => exact .ite (.sql _) (.nil _)
  | nothing | addPending | setPendingQuery | setQueryFailed | removeStmt | removePending
  | removeAppender | clearAppender | clearPendings | clearStmts | clearAppenders => exact .nil _
  | _ => cases ha

/-- An action that locks the connection and leaves. -/
theorem exec_conn {a : Action} (ha : a.need = .conn) (h : NoLeaf H) :
    OutFine t H (exec t owner ans a σ) := by
  have hconn : NoLeaf (Lock.connRef :: H) := noLeaf_cons.2 ⟨rfl, h⟩
  cases a with
  | executeNative k f =>
    exact .ite (.ite (.act trivial (.act trivial (.nil _))) (.sql _))
      (.ite (.lock h trivial hconn (.act h (.nil _))) (.npe _))
  | executeDirect k f =>
    exact .ite (.npe _) (.ite (.sql _) (.lock h trivial trivial (.act trivial (.nil _))))
  | executePending k f =>
    show OutFine t H (executePending σ k f)
    unfold executePending
    split
    · exact .lock h trivial trivial (.nil _)
    · exact .npe _
  | closePending p => exact .ite (.lock h trivial trivial (.act h (.nil _))) (.nil _)
  | untrackStmt | untrackPending => exact .ite (.lock h trivial trivial (.nil _)) (.nil _)
  | fetchConn | castConn => exact .ite (.lock h trivial trivial (.nil _)) (.sql _)
  | getString r => exact .ite (.ite (.lock h trivial hconn (.nil _)) (.nil _)) (.sql _)
  | closeAppenderRest a =>
    exact .ite (.act trivial (.nil _)) (.lock h trivial trivial (.act trivial (.nil _)))
  | cancel k who => exact .ite (.sql _) (.ite (.lock h trivial trivial (.nil _)) (.nil _))
  | runCancelTask k f => exact .ite (.ite (.nil _) (.act h (.swallow (.nil _)))) (.nil _)
  | _ => cases ha

/-- An action on statement `k`. -/
theorem exec_stmt {a : Action} {k : StmtId} (ha : a.need = .stmt k) (h : NoLeaf H)
    (hk : StmtOk t H k) : OutFine t H (exec t owner ans a σ) := by
  have hs : NoLeaf H ∧ StmtOk t H k := ⟨h, hk⟩
  have hown : NoLeaf (Lock.stmtRef k :: H) ∧ StmtOk t (.stmtRef k :: H) k :=
    ⟨noLeaf_cons.2 ⟨rfl, h⟩, hk.own⟩
  have hconn : NoLeaf (Lock.connRef :: H) ∧ StmtOk t (.connRef :: H) k :=
    ⟨noLeaf_cons.2 ⟨rfl, h⟩, hk.conn⟩
  cases a with
  | prepare => cases ha; exact .ite (.sql _) (.ite (.lock h hk hown (.nil _)) (.nil _))
  | prepareTry => cases ha; exact .act hs (.catching hs (.nil _))
  | prepareBody =>
    cases ha
    exact .ite (.sql _) (.ite (.sql _) (.act hs (.act hs (.nil _))))
  | prepareConn => cases ha; exact .ite (.lock h trivial hconn (.act trivial (.nil _))) (.npe _)
  | prepareLocked => cases ha; exact .ite (.act hs (.act trivial (.nil _))) (.sql _)
  | ensureTransaction k =>
    have hm : NoLeaf H ∧ StmtOk t H (.inner t σ.fresh) := ⟨h, stmtOk_mine _⟩
    exact .ite (.sql _) (.ite (.nil _) (.act hm (.catching hm (.act hm (.nil _)))))
  | executeSql => cases ha; exact .act hs (.act hs (.nil _))
  | closeQuietly => cases ha; exact .act hs (.swallow (.nil _))
  | execute => cases ha; exact .ite (.lock h trivial trivial (.act hs (.nil _))) (.sql _)
  | executeStart =>
    cases ha
    exact .lock h hk hown (.catching hs (.act hs (.act hs (.nil _))))
  | executeTry => cases ha; exact .act hs (.catching trivial (.nil _))
  | executeBody => cases ha; exact .ite (.act hs (.act hs (.nil _))) (.sql _)
  | executeDispatch =>
    cases ha
    exact .act hs (.act trivial (.act h (.act trivial (.nil _))))
  | executeFinally k' f =>
    cases ha
    show OutFine t H (executeFinally σ k f)
    unfold executeFinally
    dsimp only
    split <;> split
    · exact .act h (.act hs (.nil _))
    · exact .act h (.nil _)
    · exact .act hs (.nil _)
    · exact .nil _
  | executeFailed k' f =>
    cases ha
    show OutFine t H (executeFailed σ ans k f)
    unfold executeFailed
    split
    · exact .act hs (.act hs (.nil _))
    · exact .ite (.sql _) (.act hs (.nil _))
  | readChangedRows k' =>
    cases ha
    refine .ite ?_ (.nil _)
    split
    · exact .act hs (.act hs (.nil _))
    · exact .npe _
  | closeChangedRows k' =>
    cases ha
    show OutFine t H (closeChangedRows σ k)
    unfold closeChangedRows
    split
    · exact .act hs (.nil _)
    · exact .npe _
  | closeSelectResult k' =>
    cases ha
    show OutFine t H (closeSelectResult σ k)
    unfold closeSelectResult
    split
    · exact .act hs (.nil _)
    · exact .nil _
  | closeStmt => cases ha; exact .ite (.nil _) (.lock h hk hown (.act h (.nil _)))
  | closeStmtBody => cases ha; exact .ite (.nil _) (.act hs (.act trivial (.nil _)))
  | closeResult => cases ha; exact .ite (.lock h trivial trivial (.act hs (.nil _))) (.nil _)
  | closeCompleted => cases ha; exact .ite (.act hs (.nil _)) (.nil _)
  | next =>
    cases ha
    exact .ite (.sql _) (.ite (.nil _)
      (.ite (.lock h trivial hconn (.act trivial (.nil _))) (.nil _)))
  | fetchChunk => cases ha; exact .act h (.catching hs (.nil _))
  | _ => cases ha

/-- An action on appender `a`. -/
theorem exec_app {b : Action} {a : ℕ} (hb : b.need = .app a) (h : NoLeaf H) (ha : AppOk H a) :
    OutFine t H (exec t owner ans b σ) := by
  have hown : NoLeaf (Lock.appenderRef a :: H) ∧ AppOk (.appenderRef a :: H) a :=
    ⟨noLeaf_cons.2 ⟨rfl, h⟩, .own a⟩
  cases b with
  | flush => cases hb; exact .ite (.sql _) (.ite (.nil _) (.lock h ha trivial (.nil _)))
  | closeAppender => cases hb; exact .ite (.lock h ha hown (.nil _)) (.nil _)
  | closeAppenderBody =>
    cases hb
    exact .ite (.ite (.act ⟨h, ha⟩ (.swallow (.act h (.nil _)))) (.act h (.nil _))) (.nil _)
  | _ => cases hb

theorem outFine_map {α : Type} {b : Action} (f : α → Action) (l : List α) (hb : b.need = .quiet)
    (h : ∀ x, Meets t H (f x).need) :
    OutFine t H (σ.ok ((l.map fun x => .act (f x)) ++ [.act b])) := by
  induction l with
  | nil =>
    refine .act ?_ (.nil _)
    rw [hb]
    trivial
  | cons x l ih => exact .act (h x) ih

/-- `DuckDBConnection.close` -/
theorem exec_closing {a : Action} (ha : a.need = .closing) (h : NoLeaf H) (hc : NoChild H)
    (hm : Lock.connRef ∈ H) : OutFine t H (exec t owner ans a σ) := by
  have hcl : NoLeaf H ∧ NoChild H ∧ Lock.connRef ∈ H := ⟨h, hc, hm⟩
  cases a with
  | closeConnBody =>
    exact .ite (.act trivial (.swallow (.act hcl (.act hcl (.act hcl (.act trivial (.nil _)))))))
      (.nil _)
  | closePendings => exact outFine_map σ .closePending _ rfl fun _ => h
  | closeStmts => exact outFine_map σ .closeStmt _ rfl fun k => ⟨h, stmtOk_of_conn hc hm k⟩
  | closeAppenders => exact outFine_map σ .closeAppender _ rfl fun _ => ⟨h, .inl hc⟩
  | _ => cases ha

/-- **Every action** leaves code that keeps the order. -/
theorem exec_fine (a : Action) (h : Meets t H a.need) : OutFine t H (exec t owner ans a σ) := by
  cases ha : a.need with
  | quiet => exact exec_quiet owner ans σ ha
  | conn =>
    rw [ha] at h
    exact exec_conn owner ans σ ha h
  | stmt k =>
    rw [ha] at h
    exact exec_stmt owner ans σ ha h.1 h.2
  | app b =>
    rw [ha] at h
    exact exec_app owner ans σ ha h.1 h.2
  | close =>
    rw [ha] at h
    cases a with
    | closeConn =>
      refine .ite (.lock h.1 trivial ?_ (.nil _)) (.nil _)
      exact ⟨noLeaf_cons.2 ⟨rfl, h.1⟩, noChild_cons.2 ⟨rfl, h.2⟩, List.mem_cons_self⟩
    | _ => cases ha
  | closing =>
    rw [ha] at h
    exact exec_closing owner ans σ ha h.1 h.2.1 h.2.2

end

/-- The methods keep the order. -/
theorem discipline : Discipline exec Fine where
  act h hx := exec_fine _ _ _ _ h _ (congrArg Prod.snd hx)
  lock {t H l a} h := by
    refine ⟨h.2.2, ?_⟩
    cases l with
    | stmtRef k => exact h.2.1.1
    | _ => trivial
  catching h := h
  rethrow := trivial

/-- What users call locks nothing else first. -/
theorem op_fine (t : Tid) (op : Op) : Fine t [] (.act op.action) := by
  have hl : NoLeaf [] := nofun
  have hc : NoChild [] := nofun
  have hs : ∀ n, NoLeaf [] ∧ StmtOk t [] (.user n) := fun n => ⟨hl, trivial, .inl hc⟩
  cases op with
  | setQueryTimeout | closeOnCompletion => trivial
  | cancel | getString | timeout => exact hl
  | flush a | closeAppender a => exact ⟨hl, .inl hc⟩
  | closeConnection => exact ⟨hl, hc⟩
  | prepare n | execute n | executeSql n | closeStatement n => exact hs n
  | next n r | closeResult n r => exact hs n

/-- **Every reachable state** is orderly. -/
theorem orderly_runMoves (moves : List Move) {s : Sys} (h : Orderly Fine s) :
    Orderly Fine (runMoves moves s) := by
  induction moves generalizing s with
  | nil => exact h
  | cons m moves ih =>
    refine ih ?_
    cases m with
    | call t op => exact h.callThread (op_fine t op)
    | go t ans => exact h.stepped discipline (stepThread_stepped exec t ans s)

theorem orderly_init (autoCommit : Bool) (isPrepared : ℕ → Bool) (appenders : List ℕ)
    (rowIdx : ℕ → ℕ) : Orderly Fine (init autoCommit isPrepared appenders rowIdx) :=
  ⟨fun _ _ => rfl, fun _ _ _ h => (by cases h), fun _ => trivial⟩

end DuckDBJava.Concurrency
