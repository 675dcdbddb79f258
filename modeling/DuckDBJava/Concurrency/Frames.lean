/-
  What the code on the stacks knows about the references.

  A call of `close` remembers in a local variable that it has closed its reference; `ρ` says which
  reference each such call closes.  `Facts` is what an action relies on: the statement it names has
  been made, the call it belongs to is that of `ρ`, and what it untracks is closed for good.

  **`exec_facts`**: the actions leave such actions.
  **`Sound.exec`**: what is open is tracked, and a call that has completed has closed its reference.
-/
import Mathlib.Data.List.Basic
import DuckDBJava.Concurrency.Effects

namespace DuckDBJava.Concurrency

open Threads Connection

namespace View

/-- The reference is open. -/
def live (v : View) : Handle → Bool
  | .pending p => v.pendings p
  | .stmt k => v.hasStmtRef k

/-- The statement has been made. -/
def Known (v : View) : StmtId → Prop
  | .user _ => True
  | .inner _ n => n < v.fresh

/-- The reference is closed for good. -/
def Gone (v : View) : Handle → Prop
  | .pending p => p < v.fresh ∧ v.pendings p = false
  | .stmt k => v.Known k ∧ v.hasStmtRef k = false ∧ v.hasConn k = false

theorem Gone.not_live {v : View} {x : Handle} (h : v.Gone x) : v.live x = false := by
  cases x with
  | pending p => exact h.2
  | stmt k => exact h.2.1

end View

/-- Which reference each call of `close` closes. -/
abbrev Targets := ℕ → Option Handle

/-- The reference that the call closes. -/
def Action.target : Action → Option Handle
  | .closePending p => some (.pending p)
  | .closeStmt k => some (.stmt k)
  | _ => none

/-- With the call that the action may start. -/
def Targets.start (ρ : Targets) (v : View) (a : Action) : Targets :=
  Function.update ρ v.fresh a.target

/-- What an action relies on. -/
def Facts (ρ : Targets) (v : View) : Action → Prop
  | .closePendingBody p f | .untrackPending p f => f < v.fresh ∧ ρ f = some (.pending p)
  | .closeStmtBody k f | .closeStmtRest k f | .untrackStmt k f =>
    f < v.fresh ∧ ρ f = some (.stmt k) ∧ v.Known k
  | .closeResultBody r f => f < v.fresh ∧ ρ f = none ∧ v.Known r.stmt
  | .removePending p => v.Gone (.pending p)
  | .removeStmt k => v.Gone (.stmt k)
  | .prepare k | .prepareTry k | .prepareBody k | .prepareConn k | .prepareLocked k
  | .prepareNative k | .executeSql k | .closeQuietly k | .execute k | .executeStart k
  | .executeTry k _ | .executeBody k _ | .executeDispatch k _ | .executeNative k _
  | .executeDirect k _ | .trackStmt k | .executeFinally k _ | .executeFailed k _
  | .readChangedRows k | .closeChangedRows k | .closeSelectResult k | .closeStmt k => v.Known k
  | .closeResult r | .closeCompleted r _ | .next r | .fetchChunk r => v.Known r.stmt
  | _ => True

/-- What an item relies on. -/
def ItemFacts (ρ : Targets) (v : View) : Item Lock Action Thrown → Prop
  | .act a | .lock _ a | .catching _ a => Facts ρ v a
  | .unlock _ | .swallow _ | .rethrow _ => True

/-! ## Later -/

/-- Nothing that the code knows is lost. -/
structure Later (ρ : Targets) (v : View) (ρ' : Targets) (v' : View) : Prop where
  fresh : v.fresh ≤ v'.fresh
  targets : ∀ f < v.fresh, ρ' f = ρ f
  gone : ∀ x, v.Gone x → v'.Gone x

section
variable {ρ ρ' : Targets} {v v' : View} {a : Action}

theorem View.Known.mono (h : v.fresh ≤ v'.fresh) {k : StmtId} (hk : v.Known k) : v'.Known k := by
  cases k with
  | user n => trivial
  | inner t n => exact lt_of_lt_of_le hk h

theorem Facts.mono (h : Later ρ v ρ' v') (ha : Facts ρ v a) : Facts ρ' v' a := by
  have hf : ∀ {f x}, f < v.fresh ∧ ρ f = x → f < v'.fresh ∧ ρ' f = x := fun hf =>
    ⟨hf.1.trans_le h.fresh, (h.targets _ hf.1).trans hf.2⟩
  have hk : ∀ {k}, v.Known k → v'.Known k := .mono h.fresh
  cases a with
  | closePendingBody | untrackPending => exact hf ha
  | closeStmtBody | closeStmtRest | untrackStmt | closeResultBody =>
    obtain ⟨hlt, hρ, hkn⟩ := ha
    exact ⟨(hf ⟨hlt, hρ⟩).1, (hf ⟨hlt, hρ⟩).2, hk hkn⟩
  | removePending p => exact h.gone (.pending p) ha
  | removeStmt k => exact h.gone (.stmt k) ha
  | _ => first
    | exact hk ha
    | trivial

theorem ItemFacts.mono (h : Later ρ v ρ' v') {i : Item Lock Action Thrown}
    (hi : ItemFacts ρ v i) : ItemFacts ρ' v' i := by
  cases i with
  | act | lock | catching => exact Facts.mono h hi
  | _ => trivial

/-- New numbers, and references that stay closed. -/
theorem Later.start {ρ : Targets} (hfresh : v.fresh ≤ v'.fresh)
    (hp : ∀ p < v.fresh, v.pendings p = false → v'.pendings p = false)
    (hs : ∀ k, v.Known k → v.hasStmtRef k = false → v.hasConn k = false →
      v'.hasStmtRef k = false ∧ v'.hasConn k = false) : Later ρ v (ρ.start v a) v' := by
  refine ⟨hfresh, fun f hf => Function.update_of_ne hf.ne _ _, fun x hx => ?_⟩
  cases x with
  | pending p => exact ⟨hx.1.trans_le hfresh, hp p hx.1 hx.2⟩
  | stmt k => exact ⟨hx.1.mono hfresh, hs k hx.1 hx.2.1 hx.2.2⟩

theorem update_false {α : Type} [DecidableEq α] {g : α → Bool} {i j : α} (h : g j = false) :
    Function.update g i false j = false := by
  by_cases hj : j = i
  · rw [hj, Function.update_self]
  · rwa [Function.update_of_ne hj]

/-- **Every effect** is later. -/
theorem Effect.later (h : Effect v a v') (ρ : Targets) : Later ρ v (ρ.start v a) v' := by
  cases h with
  | same hfresh _ => exact .start hfresh (fun _ _ h => h) fun _ _ h hc => ⟨h, hc⟩
  | openStmt hconn _ =>
    refine .start le_rfl (fun _ _ h => h) fun j _ h hc => ⟨?_, hc⟩
    refine (Function.update_of_ne ?_ _ _).trans h
    rintro rfl
    rw [hc] at hconn
    cases hconn
  | openPending =>
    refine .start (Nat.le_succ _) (fun p hp h => ?_) fun _ _ h hc => ⟨h, hc⟩
    exact (Function.update_of_ne hp.ne _ _).trans h
  | newStmt t =>
    refine .start (Nat.le_succ _) (fun _ _ h => h) fun j hk h hc => ⟨update_false h, ?_⟩
    refine (Function.update_of_ne ?_ _ _).trans hc
    rintro rfl
    exact lt_irrefl _ hk
  | releaseStmt => exact .start le_rfl (fun _ _ h => h) fun _ _ h hc => ⟨update_false h, hc⟩
  | closeStmt =>
    exact .start le_rfl (fun _ _ h => h) fun _ _ h hc => ⟨update_false h, update_false hc⟩
  | closePending _ => exact .start le_rfl (fun _ _ h => update_false h) fun _ _ h hc => ⟨h, hc⟩
  | _ => exact .start le_rfl (fun _ _ h => h) fun _ _ h hc => ⟨h, hc⟩

end

/-! ## What is open -/

/-- What is open is tracked, and the calls that have completed have closed their references. -/
structure Sound (ρ : Targets) (v : View) : Prop where
  pending_lt : ∀ p, v.pendings p = true → p < v.fresh
  conn : ∀ k, v.hasStmtRef k = true → v.hasConn k = true
  known : ∀ k ∈ v.preparedStatements, v.Known k
  tracked : ∀ k, v.hasStmtRef k = true → k ∈ v.preparedStatements
  completed : ∀ f, v.completed f = true → f < v.fresh ∧ ∀ x, ρ f = some x → v.Gone x
  disconnected : v.connOpen = false → ∀ x, v.live x = false

/-- The action relies on the reference being closed. -/
def Action.barrier : Action → Handle → Prop
  | .clearPendings => fun x => ∃ p, x = .pending p
  | .clearStmts => fun x => ∃ k, x = .stmt k
  | .disconnect => fun _ => True
  | _ => fun _ => False

section
variable {ρ : Targets} {v v' : View} {a : Action}

theorem of_update_false {α : Type} [DecidableEq α] {g : α → Bool} {i j : α}
    (h : Function.update g i false j = true) : j ≠ i ∧ g j = true := by
  by_cases hj : j = i
  · rw [hj, Function.update_self] at h
    cases h
  · rw [Function.update_of_ne hj] at h
    exact ⟨hj, h⟩

theorem of_update_true {α : Type} [DecidableEq α] {g : α → Bool} {i j : α}
    (h : Function.update g i true j = true) : j = i ∨ g j = true := by
  by_cases hj : j = i
  · exact .inl hj
  · rw [Function.update_of_ne hj] at h
    exact .inr h

theorem update_true {α : Type} [DecidableEq α] {g : α → Bool} {i j : α} (h : g j = true) :
    Function.update g i true j = true := by
  by_cases hj : j = i
  · rw [hj, Function.update_self]
  · rwa [Function.update_of_ne hj]

theorem update_false_or {α : Type} [DecidableEq α] {g : α → Bool} {i j : α} (h : g j = true) :
    Function.update g i false j = true ∨ j = i := by
  by_cases hj : j = i
  · exact .inr hj
  · exact .inl ((Function.update_of_ne hj _ _).trans h)

theorem mem_addTo {α : Type} [DecidableEq α] {l : List α} {x y : α} :
    y ∈ addTo l x ↔ y = x ∨ y ∈ l := by
  unfold addTo
  split
  · next hx =>
    constructor
    · exact .inr
    · rintro (rfl | hy)
      · exact hx
      · exact hy
  · rw [List.mem_append, List.mem_singleton]
    exact Or.comm

/-- **Every effect** keeps the view sound. -/
theorem Sound.effect (h : Sound ρ v) (he : Effect v a v') (ha : Facts ρ v a)
    (hb : ∀ x, a.barrier x → v.live x = false) : Sound (ρ.start v a) v' := by
  have hlater := he.later ρ
  have hold : ∀ f, v.completed f = true →
      f < v'.fresh ∧ ∀ x, ρ.start v a f = some x → v'.Gone x := by
    intro f hf
    obtain ⟨hlt, hgone⟩ := h.completed f hf
    refine ⟨hlt.trans_le hlater.fresh, fun x hx => hlater.gone x (hgone x ?_)⟩
    rw [← hx, hlater.targets f hlt]
  cases he with
  | same hfresh hc =>
    exact ⟨fun p hp => (h.pending_lt p hp).trans_le hfresh, h.conn,
      fun k hk => (h.known k hk).mono hfresh, h.tracked, fun f hf => hold f (hc f hf),
      h.disconnected⟩
  | @openStmt k hconn hopen =>
    refine ⟨h.pending_lt, fun j hj => ?_, fun j hj => ?_, fun j hj => ?_, hold, fun hc => ?_⟩
    · rcases of_update_true hj with rfl | hj
      · exact hconn
      · exact h.conn j hj
    · rcases mem_addTo.1 hj with rfl | hj
      · exact ha
      · exact h.known j hj
    · rcases of_update_true hj with rfl | hj
      · exact mem_addTo.2 (.inl rfl)
      · exact mem_addTo.2 (.inr (h.tracked j hj))
    · rw [hopen] at hc
      cases hc
  | openPending hopen =>
    refine ⟨fun p hp => ?_, h.conn, fun k hk => (h.known k hk).mono (Nat.le_succ _), h.tracked,
      hold, fun hc => ?_⟩
    · rcases of_update_true hp with rfl | hp
      · exact Nat.lt_succ_self _
      · exact (h.pending_lt p hp).trans (Nat.lt_succ_self _)
    · rw [hopen] at hc
      cases hc
  | newStmt t =>
    refine ⟨fun p hp => (h.pending_lt p hp).trans (Nat.lt_succ_self _), fun j hj => ?_,
      fun k hk => (h.known k hk).mono (Nat.le_succ _),
      fun j hj => h.tracked j (of_update_false hj).2, hold, fun hc x => ?_⟩
    · obtain ⟨hne, hj⟩ := of_update_false hj
      exact (Function.update_of_ne hne _ _).trans (h.conn j hj)
    · cases x with
      | pending p => exact h.disconnected hc (.pending p)
      | stmt k => exact update_false (h.disconnected hc (.stmt k))
  | releaseStmt =>
    refine ⟨h.pending_lt, fun j hj => h.conn j (of_update_false hj).2, h.known,
      fun j hj => h.tracked j (of_update_false hj).2, hold, fun hc x => ?_⟩
    cases x with
    | pending p => exact h.disconnected hc (.pending p)
    | stmt k => exact update_false (h.disconnected hc (.stmt k))
  | @closeStmt k f =>
    refine ⟨h.pending_lt, fun j hj => ?_, h.known,
      fun j hj => h.tracked j (of_update_false hj).2, fun f' hf' => ?_, fun hc x => ?_⟩
    · obtain ⟨hne, hj⟩ := of_update_false hj
      exact (Function.update_of_ne hne _ _).trans (h.conn j hj)
    · rcases of_update_true hf' with rfl | hf'
      · obtain ⟨hlt, hρ, hk⟩ := ha
        refine ⟨hlt, fun x hx => ?_⟩
        rw [hlater.targets _ hlt, hρ] at hx
        cases hx
        exact ⟨hk, Function.update_self .., Function.update_self ..⟩
      · exact hold f' hf'
    · cases x with
      | pending p => exact h.disconnected hc (.pending p)
      | stmt k => exact update_false (h.disconnected hc (.stmt k))
  | @closePending p f hp =>
    refine ⟨fun q hq => h.pending_lt q (of_update_false hq).2, h.conn, h.known, h.tracked,
      fun f' hf' => ?_, fun hc x => ?_⟩
    · rcases of_update_true hf' with rfl | hf'
      · obtain ⟨hlt, hρ⟩ := ha
        refine ⟨hlt, fun x hx => ?_⟩
        rw [hlater.targets _ hlt, hρ] at hx
        cases hx
        exact ⟨h.pending_lt p hp, Function.update_self ..⟩
      · exact hold f' hf'
    · cases x with
      | pending q => exact update_false (h.disconnected hc (.pending q))
      | stmt k => exact h.disconnected hc (.stmt k)
  | @closeResult r f =>
    refine ⟨h.pending_lt, h.conn, h.known, h.tracked, fun f' hf' => ?_, h.disconnected⟩
    rcases of_update_true hf' with rfl | hf'
    · obtain ⟨hlt, hρ, -⟩ := ha
      refine ⟨hlt, fun x hx => ?_⟩
      rw [hlater.targets _ hlt, hρ] at hx
      cases hx
    · exact hold f' hf'
  | @trackStmt k =>
    refine ⟨h.pending_lt, h.conn, fun j hj => ?_,
      fun j hj => mem_addTo.2 (.inr (h.tracked j hj)), hold, h.disconnected⟩
    rcases mem_addTo.1 hj with rfl | hj
    · exact ha
    · exact h.known j hj
  | @removeStmt k =>
    refine ⟨h.pending_lt, h.conn, fun j hj => h.known j ((List.mem_filter.1 hj).1),
      fun j hj => ?_, hold, h.disconnected⟩
    refine List.mem_filter.2 ⟨h.tracked j hj, decide_eq_true ?_⟩
    rintro rfl
    have hgone : v.hasStmtRef j = false := View.Gone.not_live (x := .stmt j) ha
    rw [show v.hasStmtRef j = true from hj] at hgone
    cases hgone
  | clearStmts =>
    refine ⟨h.pending_lt, h.conn, fun j hj => (by cases hj), fun j hj => ?_, hold,
      h.disconnected⟩
    have hclosed : v.hasStmtRef j = false := hb (.stmt j) ⟨j, rfl⟩
    rw [show v.hasStmtRef j = true from hj] at hclosed
    cases hclosed
  | disconnect =>
    exact ⟨h.pending_lt, h.conn, h.known, h.tracked, hold, fun _ x => hb x trivial⟩
  | addPending | removePending | clearPendings | enter | leave =>
    exact ⟨h.pending_lt, h.conn, h.known, h.tracked, hold, h.disconnected⟩

end

/-! ## What the actions leave -/

section
variable {ρ : Targets} {t : Tid} {σ : Shared}

/-- Actions that start a call or end one. -/
def Action.calls : Action → Bool
  | .closePending _ | .closeStmt _ | .closeResult _ | .untrackPending _ _ | .untrackStmt _ _
  | .ensureTransaction _ | .closeStmts => true
  | _ => false

/-- All other actions leave what they rely on. -/
theorem leaves_facts {a : Action} (hcalls : a.calls = false) (h : Facts ρ σ.view a) :
    (leaves t σ a).Forall (ItemFacts ρ σ.view) := by
  cases a with
  | closePending | closeStmt | closeResult | untrackPending | untrackStmt | ensureTransaction
  | closeStmts => cases hcalls
  | prepare | closeCompleted => exact h
  | prepareTry | prepareBody | executeSql | executeBody => exact ⟨h, h⟩
  | prepareLocked => exact ⟨trivial, h⟩
  | prepareConn => exact ⟨h, trivial⟩
  | execute => exact ⟨trivial, h⟩
  | executeStart => exact ⟨h, h, h, h⟩
  | executeTry | closeQuietly => exact ⟨h, trivial⟩
  | executeDispatch => exact ⟨trivial, trivial, h, trivial⟩
  | executeNative => exact ⟨trivial, trivial, h, trivial⟩
  | executeDirect => exact ⟨trivial, h⟩
  | executePending k f =>
    show ((σ.locals f).pending.toList.map _).Forall _
    cases (σ.locals f).pending <;> trivial
  | executePendingBody => exact ⟨trivial, trivial, trivial⟩
  | executeFinally k f =>
    show (((σ.locals f).pendingQuery.toList.map _) ++ _).Forall _
    cases (σ.locals f).pendingQuery with
    | none => exact h
    | some p => exact ⟨trivial, h⟩
  | executeFailed k f =>
    show (((σ.stmts k).selectResult.toList.map _) ++ _).Forall _
    cases (σ.stmts k).selectResult with
    | none => exact h
    | some n => exact ⟨h, h⟩
  | readChangedRows k =>
    show (((σ.stmts k).selectResult.toList.map _) ++ _).Forall _
    cases (σ.stmts k).selectResult with
    | none => exact h
    | some n => exact ⟨h, h⟩
  | closeChangedRows k | closeSelectResult k =>
    show ((σ.stmts k).selectResult.toList.map _).Forall _
    cases (σ.stmts k).selectResult with
    | none => trivial
    | some n => exact h
  | closeStmtBody k f => exact ⟨h.2.2, h⟩
  | next => exact ⟨h, trivial⟩
  | fetchChunk => exact ⟨trivial, h⟩
  | closeAppenderBody => exact ⟨trivial, trivial, trivial⟩
  | closeAppenderRest | runCancelTask => exact ⟨trivial, trivial⟩
  | closeConnBody => exact ⟨trivial, trivial, trivial, trivial, trivial, trivial⟩
  | closePendings =>
    refine List.forall_append.2 ⟨List.forall_iff_forall_mem.2 fun i hi => ?_, trivial⟩
    obtain ⟨p, -, rfl⟩ := List.mem_map.1 hi
    trivial
  | closeAppenders =>
    refine List.forall_append.2 ⟨List.forall_iff_forall_mem.2 fun i hi => ?_, trivial⟩
    obtain ⟨p, -, rfl⟩ := List.mem_map.1 hi
    trivial
  | _ => trivial

/-- What the outcome leaves relies on what holds after it. -/
def OutFacts (ρ : Targets) (o : Out) : Prop :=
  ∀ code, o.2 = .ok code → ∀ i ∈ code, ItemFacts ρ o.1.view i

namespace OutFacts

theorem ok {code : Code} (h : code.Forall (ItemFacts ρ σ.view)) : OutFacts ρ (σ.ok code) := by
  intro code' hc
  cases hc
  exact List.forall_iff_forall_mem.1 h

theorem nil : OutFacts ρ (σ.ok []) := ok trivial

theorem error {e : Thrown} : OutFacts ρ (σ, .error e) := fun _ h => by cases h

theorem ite {c : Prop} [Decidable c] {x y : Out} (hx : c → OutFacts ρ x)
    (hy : ¬c → OutFacts ρ y) : OutFacts ρ (if c then x else y) := by
  split
  · next hc => exact hx hc
  · next hc => exact hy hc

end OutFacts

/-- **What an action leaves** relies on what holds then. -/
theorem exec_facts (owner : Owners Lock) (ans : Answer) {a : Action} (hs : Sound ρ σ.view)
    (h : Facts ρ σ.view a) : OutFacts (ρ.start σ.view a) (exec t owner ans a σ) := by
  have hlater := (exec_effect t owner ans σ a).later ρ
  have hnew : ρ.start σ.view a σ.fresh = a.target := Function.update_self ..
  cases hcalls : a.calls with
  | false =>
    intro code hx i hi
    have hleaves := List.forall_iff_forall_mem.1 (leaves_facts (t := t) hcalls h)
    exact (hleaves i (exec_leaves owner ans σ a code hx hi)).mono hlater
  | true =>
    cases a with
    | closePending p =>
      refine .ite (fun _ => .ok ⟨?_, ?_⟩) fun _ => .nil
      · exact ⟨Nat.lt_succ_self _, hnew⟩
      · exact ⟨Nat.lt_succ_self _, hnew⟩
    | closeStmt k =>
      have hk : σ.newLocals.view.Known k := View.Known.mono (Nat.le_succ _) h
      refine .ite (fun _ => .nil) fun _ => .ok ⟨?_, ?_⟩
      · exact ⟨Nat.lt_succ_self _, hnew, hk⟩
      · exact ⟨Nat.lt_succ_self _, hnew, hk⟩
    | closeResult r =>
      have hk : σ.newLocals.view.Known r.stmt := View.Known.mono (Nat.le_succ _) h
      exact .ite (fun _ => .ok ⟨⟨Nat.lt_succ_self _, hnew, hk⟩, hk⟩) fun _ => .nil
    | untrackPending p f =>
      refine .ite (fun hc => .ok ?_) fun _ => .nil
      have hcompleted := (Bool.and_eq_true_iff.1 hc).1
      exact (hs.completed f hcompleted).2 (.pending p) h.2
    | untrackStmt k f =>
      refine .ite (fun hc => .ok ?_) fun _ => .nil
      have hcompleted := (Bool.and_eq_true_iff.1 hc).1
      exact (hs.completed f hcompleted).2 (.stmt k) h.2.1
    | ensureTransaction k =>
      have hk : σ.fresh < σ.fresh + 1 := Nat.lt_succ_self _
      exact .ite (fun _ => .error) fun _ => .ite (fun _ => .nil) fun _ => .ok ⟨hk, hk, hk⟩
    | closeStmts =>
      refine .ok (List.forall_append.2 ⟨List.forall_iff_forall_mem.2 fun i hi => ?_, trivial⟩)
      obtain ⟨k, hk, rfl⟩ := List.mem_map.1 hi
      exact hs.known k (List.mem_reverse.1 hk)
    | _ => cases hcalls

end

end DuckDBJava.Concurrency
