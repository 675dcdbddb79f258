/-
  The references of a connection, apart from everything else.

  `View` is what is open and what the connection tracks; `Effect` says how each action changes it.

  **`exec_effect`**: the methods change the view in these ways only.
-/
import DuckDBJava.Concurrency.References

namespace DuckDBJava.Concurrency

open Threads Connection

/-- The references, the lists of the connection, and the calls of `close` that have completed. -/
structure View where
  connOpen : Bool
  running : Option (StmtId × ℕ)
  pendings : ℕ → Bool
  hasStmtRef : StmtId → Bool
  hasConn : StmtId → Bool
  pendingQueries : List ℕ
  preparedStatements : List StmtId
  completed : ℕ → Bool
  fresh : ℕ

def Shared.view (σ : Shared) : View where
  connOpen := σ.connOpen
  running := σ.running
  pendings := σ.pendings
  hasStmtRef k := (σ.stmts k).hasStmtRef
  hasConn k := (σ.stmts k).hasConn
  pendingQueries := σ.pendingQueries
  preparedStatements := σ.preparedStatements
  completed f := (σ.locals f).completed
  fresh := σ.fresh

/-- How an action changes the view. -/
inductive Effect (v : View) : Action → View → Prop
  /-- nothing but new numbers and local variables -/
  | same {a fresh completed} : v.fresh ≤ fresh → (∀ f, completed f = true → v.completed f = true) →
    Effect v a { v with fresh := fresh, completed := completed }
  | openStmt {k} : v.hasConn k = true → v.connOpen = true → Effect v (.prepareNative k)
      { v with
        hasStmtRef := Function.update v.hasStmtRef k true
        preparedStatements := addTo v.preparedStatements k }
  | openPending {k f} : v.connOpen = true → Effect v (.executeDirect k f)
      { v with pendings := Function.update v.pendings v.fresh true, fresh := v.fresh + 1 }
  | newStmt {k} (t : Tid) : Effect v (.ensureTransaction k)
      { v with
        hasStmtRef := Function.update v.hasStmtRef (.inner t v.fresh) false
        hasConn := Function.update v.hasConn (.inner t v.fresh) true
        fresh := v.fresh + 1 }
  | releaseStmt {k} : Effect v (.prepareBody k)
      { v with hasStmtRef := Function.update v.hasStmtRef k false }
  | closeStmt {k f} : Effect v (.closeStmtRest k f)
      { v with
        hasStmtRef := Function.update v.hasStmtRef k false
        hasConn := Function.update v.hasConn k false
        completed := Function.update v.completed f true }
  | closePending {p f} : v.pendings p = true → Effect v (.closePendingBody p f)
      { v with
        pendings := Function.update v.pendings p false
        completed := Function.update v.completed f true }
  | closeResult {r f} : Effect v (.closeResultBody r f)
      { v with completed := Function.update v.completed f true }
  | addPending {p} : Effect v (.addPending p)
      { v with pendingQueries := addTo v.pendingQueries p }
  | trackStmt {k} : Effect v (.trackStmt k)
      { v with preparedStatements := addTo v.preparedStatements k }
  | removePending {p} : Effect v (.removePending p)
      { v with pendingQueries := v.pendingQueries.filter (· ≠ p) }
  | removeStmt {k} : Effect v (.removeStmt k)
      { v with preparedStatements := v.preparedStatements.filter (· ≠ k) }
  | clearPendings : Effect v .clearPendings { v with pendingQueries := [] }
  | clearStmts : Effect v .clearStmts { v with preparedStatements := [] }
  | enter {k f x} : v.running = none →
    Effect v (.enterEngine k f x) { v with running := some (k, f) }
  | leave {k f x} : Effect v (.leaveEngine k f x) { v with running := none }
  | disconnect : Effect v .disconnect { v with connOpen := false }

theorem Effect.refl (v : View) (a : Action) : Effect v a v := .same le_rfl fun _ h => h

/-- Plain actions. -/
theorem Same.effect {σ σ' : Shared} (h : Same σ σ') (a : Action) : Effect σ.view a σ'.view := by
  have hv : σ'.view =
      { σ.view with fresh := σ'.fresh, completed := fun f => (σ'.locals f).completed } := by
    have href : ∀ k, (σ'.stmts k).hasStmtRef = (σ.stmts k).hasStmtRef := fun k =>
      congrArg (fun x : Bool × Bool × Bool => x.2.1) (h.refs k)
    have hconn : ∀ k, (σ'.stmts k).hasConn = (σ.stmts k).hasConn := fun k =>
      congrArg (fun x : Bool × Bool × Bool => x.2.2) (h.refs k)
    simp only [Shared.view, h.connOpen, h.running, h.pendings, h.pendingQueries,
      h.preparedStatements, href, hconn]
  rw [hv]
  exact .same h.fresh h.completed

section
variable (σ : Shared)

/-! ## The view of a changed state -/

theorem view_setStmt (k : StmtId) (g : Statement → Statement) : (σ.setStmt k g).view =
    { σ.view with
      hasStmtRef := Function.update σ.view.hasStmtRef k (g (σ.stmts k)).hasStmtRef
      hasConn := Function.update σ.view.hasConn k (g (σ.stmts k)).hasConn } := by
  have hupd : ∀ φ : Statement → Bool, (fun j => φ (Function.update σ.stmts k (g (σ.stmts k)) j)) =
      Function.update (fun j => φ (σ.stmts j)) k (φ (g (σ.stmts k))) := fun φ =>
    Function.comp_update φ σ.stmts k _
  simp only [Shared.view, Shared.setStmt, hupd]

/-- Another reference, on the same connection. -/
theorem view_setStmtRef (k : StmtId) (b : Bool) :
    (σ.setStmt k fun st => { st with hasStmtRef := b }).view =
      { σ.view with hasStmtRef := Function.update σ.view.hasStmtRef k b } := by
  have hconn : Function.update σ.view.hasConn k (σ.stmts k).hasConn = σ.view.hasConn :=
    Function.update_eq_self k σ.view.hasConn
  rw [view_setStmt]
  simp only [hconn]

theorem view_setLocals (f : ℕ) (g : Locals → Locals) : (σ.setLocals f g).view =
    { σ.view with
      completed := Function.update σ.view.completed f (g (σ.locals f)).completed } := by
  have hupd : (fun j => (Function.update σ.locals f (g (σ.locals f)) j).completed) =
      Function.update (fun j => (σ.locals j).completed) f (g (σ.locals f)).completed :=
    Function.comp_update Locals.completed σ.locals f _
  simp only [Shared.view, Shared.setLocals, hupd]

/-- Other local variables. -/
theorem view_setLocals_same (f : ℕ) {g : Locals → Locals}
    (hg : ∀ x, (g x).completed = x.completed) : (σ.setLocals f g).view = σ.view := by
  have hsame : Function.update σ.view.completed f (g (σ.locals f)).completed =
      σ.view.completed := by
    rw [hg]
    exact Function.update_eq_self f σ.view.completed
  rw [view_setLocals, hsame]

end

/-- Either outcome has the effect. -/
theorem Effect.ite {v : View} {a : Action} {c : Prop} [Decidable c] {x y : Out}
    (hx : Effect v a x.1.view) (hy : Effect v a y.1.view) :
    Effect v a (if c then x else y).1.view := by
  split
  · exact hx
  · exact hy

section
variable (t : Tid) (owner : Owners Lock) (ans : Answer) (σ : Shared)

theorem prepareNative_effect (k : StmtId) :
    Effect σ.view (.prepareNative k) (prepareNative σ ans k).1.view := by
  unfold prepareNative
  split
  · exact .refl _ _
  · next hconn =>
    split
    · exact .refl _ _
    · next hopen =>
      have hc : (σ.stmts k).hasConn = true := by simpa using hconn
      have ho : σ.view.connOpen = true := by
        simp only [Bool.or_eq_true, Bool.not_eq_true', not_or, Bool.not_eq_false] at hopen
        exact hopen.1
      show Effect σ.view _ (Shared.setStmt _ k fun st => { st with hasStmtRef := true }).view
      rw [view_setStmtRef]
      exact .openStmt hc ho

theorem executeDirect_effect (k : StmtId) (f : ℕ) :
    Effect σ.view (.executeDirect k f) (executeDirect σ ans k f).1.view := by
  unfold executeDirect
  split
  · exact .refl _ _
  · split
    · exact .refl _ _
    · next hopen =>
      have ho : σ.view.connOpen = true := by
        simp only [Bool.or_eq_true, Bool.not_eq_true', not_or, Bool.not_eq_false] at hopen
        exact hopen.1
      show Effect σ.view _ (Shared.setLocals _ f _).view
      rw [view_setLocals_same]
      · exact .openPending ho
      · exact fun _ => rfl

theorem ensureTransaction_effect (k : StmtId) :
    Effect σ.view (.ensureTransaction k) (ensureTransaction σ t k).1.view := by
  refine .ite (.refl _ _) (.ite (.refl _ _) ?_)
  show Effect σ.view _ (Shared.setStmt _ (.inner t σ.fresh) fun _ => .new).view
  rw [view_setStmt]
  exact .newStmt t

theorem closeStmtRest_effect (k : StmtId) (f : ℕ) :
    Effect σ.view (.closeStmtRest k f) (closeStmtRest σ ans k f).1.view := by
  have hv : (σ.setStmt k fun st => { st with selectResult := none }).view = σ.view := by
    rw [view_setStmt]
    show { σ.view with
      hasStmtRef := Function.update σ.view.hasStmtRef k (σ.view.hasStmtRef k)
      hasConn := Function.update σ.view.hasConn k (σ.view.hasConn k) } = σ.view
    rw [Function.update_eq_self, Function.update_eq_self]
  refine .ite ?_ ?_
  · show Effect σ.view _ (σ.setStmt k _).view
    rw [hv]
    exact .refl _ _
  · show Effect σ.view _ (Shared.setLocals _ f _).view
    rw [view_setLocals, view_setStmt, hv]
    exact .closeStmt

/-- **The methods** have these effects. -/
theorem exec_effect (a : Action) : Effect σ.view a (exec t owner ans a σ).1.view := by
  cases hp : a.plain with
  | true => exact (exec_same owner ans σ hp).effect a
  | false =>
    cases a with
    | prepareBody k =>
      refine .ite (.refl _ _) (.ite (.refl _ _) ?_)
      show Effect σ.view _ (σ.setStmt k fun st => { st with hasStmtRef := false }).view
      rw [view_setStmtRef]
      exact .releaseStmt
    | prepareNative k => exact prepareNative_effect ans σ k
    | closeStmtRest k f => exact closeStmtRest_effect ans σ k f
    | closePendingBody p f =>
      show Effect σ.view _ (closePendingBody σ ans p f).1.view
      unfold closePendingBody
      split
      · next hpend =>
        refine .ite (.refl _ _) ?_
        show Effect σ.view _ (Shared.setLocals _ f _).view
        rw [view_setLocals]
        exact .closePending hpend
      · exact .refl _ _
    | closeResultBody r f =>
      refine .ite (.ite (.refl _ _) ?_) (.refl _ _)
      show Effect σ.view _ (Shared.setLocals _ f _).view
      rw [view_setLocals]
      exact .closeResult
    | executeDirect k f => exact executeDirect_effect ans σ k f
    | addPending p => exact .addPending
    | trackStmt k => exact .ite .trackStmt (.refl _ _)
    | removeStmt k => exact .removeStmt
    | removePending p => exact .removePending
    | clearPendings => exact .clearPendings
    | clearStmts => exact .clearStmts
    | ensureTransaction k => exact ensureTransaction_effect t σ k
    | enterEngine k f x =>
      show Effect σ.view _ (enterEngine σ k f x).1.view
      unfold enterEngine
      split
      · next hrun => exact .enter hrun
      · exact .refl _ _
    | leaveEngine k f x =>
      refine .ite .leave ?_
      show Effect σ.view _ (Shared.setLocals _ f _).view
      rw [view_setLocals_same]
      · exact .leave
      · exact fun _ => rfl
    | closeConnBody => exact .ite (.refl _ _) (.refl _ _)
    | disconnect => exact .ite (.refl _ _) .disconnect
    | _ => cases hp

end

end DuckDBJava.Concurrency
