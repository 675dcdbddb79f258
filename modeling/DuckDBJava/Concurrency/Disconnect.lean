/-
  `DuckDBConnection.close` closes what is open before it disconnects.

  While a thread is about to forget the references it tracks, or to disconnect, other code on its
  stack closes what is still open (`Safe`); other threads open nothing then, because the thread has
  `connRefLock`, and nor does the thread itself (`Tidy`).

  **`disconnected_closed`**: in every reachable state, once the connection is disconnected no
  prepared statement and no pending query is open.
-/
import DuckDBJava.Concurrency.Frames

namespace DuckDBJava.Concurrency

open Threads Connection

/-- The action forgets references, or disconnects. -/
def Action.forgets : Action → Bool
  | .clearPendings | .clearStmts | .disconnect => true
  | _ => false

theorem Action.not_barrier {a : Action} (h : a.forgets = false) (x : Handle) : ¬a.barrier x := by
  cases a with
  | clearPendings | clearStmts | disconnect => cases h
  | _ => exact id

/-- The action closes the reference, unless it is closed. -/
def Action.closes : Action → Handle → Prop
  | .closePending p | .closePendingBody p _ => fun x => x = .pending p
  | .closePendings => fun x => ∃ p, x = .pending p
  | .closeStmt k | .closeStmtBody k _ | .closeStmtRest k _ => fun x => x = .stmt k
  | .closeStmts => fun x => ∃ k, x = .stmt k
  | _ => fun _ => False

/-- Actions of `close` methods. -/
def Action.closing : Action → Bool
  | .closeSelectResult _ | .closeStmt _ | .closeStmtBody _ _ | .closeStmtRest _ _
  | .untrackStmt _ _ | .removeStmt _ | .closePending _ | .closePendingBody _ _
  | .untrackPending _ _ | .removePending _ | .closeResult _ | .closeResultBody _ _
  | .closeCompleted _ _ | .flush _ | .flushBody _ | .closeAppender _ | .closeAppenderBody _
  | .closeAppenderRest _ | .removeAppender _ | .clearAppender _ | .closeConn | .closeConnBody
  | .closeConnInterrupt | .closePendings | .clearPendings | .closeStmts | .clearStmts
  | .closeAppenders | .clearAppenders | .disconnect => true
  | _ => false

/-- The item forgets nothing. -/
def Keeps : Item Lock Action Thrown → Prop
  | .act a | .lock _ a | .catching _ a => a.forgets = false
  | .unlock _ | .swallow _ | .rethrow _ => True

/-- The item belongs to a `close` method. -/
def Closing : Item Lock Action Thrown → Prop
  | .act a => a.closing = true
  | .lock _ a | .catching _ a => a.closing = true ∧ a.forgets = false
  | .unlock _ | .swallow _ | .rethrow _ => True

/-- What forgets references is below code of `close` methods only. -/
def Tidy : Code → Prop
  | [] => True
  | i :: rest => (Closing i ∨ Keeps i ∧ ∀ j ∈ rest, Keeps j) ∧ Tidy rest

/-- If the code runs to its end, reference `x` is closed before it is forgotten. -/
def Safe (x : Handle) : Code → Prop
  | [] => True
  | .act a :: rest | .lock _ a :: rest => ¬a.barrier x ∧ (a.closes x ∨ Safe x rest)
  | .rethrow _ :: _ => True
  | _ :: rest => Safe x rest

/-- So too after an exception. -/
def Caught (x : Handle) : Code → Prop
  | [] => True
  | .swallow _ :: rest => Safe x rest ∧ Caught x rest
  | _ :: rest => Caught x rest

/-- The thread closes `x` before it forgets it. -/
def ThreadSafe (x : Handle) (th : Thread Lock Action Thrown) : Prop :=
  (th.thrown = none → Safe x th.code) ∧ Caught x th.code

section
variable {x : Handle} {code rest : Code}

theorem Safe.of_keeps (h : ∀ i ∈ code, Keeps i) : Safe x code := by
  induction code with
  | nil => trivial
  | cons i rest ih =>
    obtain ⟨hi, hrest⟩ := List.forall_mem_cons.1 h
    cases i with
    | act a => exact ⟨Action.not_barrier hi x, .inr (ih hrest)⟩
    | lock l a => exact ⟨Action.not_barrier hi x, .inr (ih hrest)⟩
    | rethrow => trivial
    | _ => exact ih hrest

theorem Caught.of_keeps (h : ∀ i ∈ code, Keeps i) : Caught x code := by
  induction code with
  | nil => trivial
  | cons i rest ih =>
    have hrest := (List.forall_mem_cons.1 h).2
    cases i with
    | swallow => exact ⟨.of_keeps hrest, ih hrest⟩
    | _ => exact ih hrest

theorem ThreadSafe.of_keeps {thrown : Option Thrown} {w : Bool} (h : ∀ i ∈ code, Keeps i) :
    ThreadSafe x ⟨code, thrown, w⟩ := ⟨fun _ => .of_keeps h, .of_keeps h⟩

theorem ThreadSafe.thrown {e : Thrown} {w : Bool} (h : Caught x code) :
    ThreadSafe x ⟨code, some e, w⟩ := ⟨fun hn => (by cases hn), h⟩

theorem Caught.tail {i : Item Lock Action Thrown} (h : Caught x (i :: rest)) : Caught x rest := by
  cases i with
  | swallow => exact h.2
  | _ => exact h

theorem Tidy.of_keeps (h : ∀ i ∈ code, Keeps i) : Tidy code := by
  induction code with
  | nil => trivial
  | cons i rest ih =>
    obtain ⟨hi, hrest⟩ := List.forall_mem_cons.1 h
    exact ⟨.inr ⟨hi, hrest⟩, ih hrest⟩

theorem Tidy.append (h : ∀ i ∈ code, Closing i) (hrest : Tidy rest) : Tidy (code ++ rest) := by
  induction code with
  | nil => exact hrest
  | cons i code ih =>
    obtain ⟨hi, hcode⟩ := List.forall_mem_cons.1 h
    exact ⟨.inl hi, ih hcode⟩

/-- The code forgets nothing, or it runs under `connRefLock`. -/
theorem keeps_or_held {t : Tid} (h : Tidy code) (hg : FineCode (fun _ => Guarded) t code) :
    (∀ i ∈ code, Keeps i) ∨ .connRef ∈ held code := by
  induction code with
  | nil => exact .inl fun i hi => by cases hi
  | cons i rest ih =>
    have hsub : Lock.connRef ∈ held rest → .connRef ∈ held (i :: rest) := by
      intro hr
      cases i <;> first | exact hr | exact List.mem_cons_of_mem _ hr
    rcases ih h.2 hg.2 with hrest | hrest
    · rcases h.1 with hi | ⟨hi, -⟩
      · cases i with
        | act a =>
          cases ha : a.forgets with
          | false => exact .inl (List.forall_mem_cons.2 ⟨ha, hrest⟩)
          | true =>
            have hguard : a.guard = [.connRef] := by
              cases a with
              | clearPendings | clearStmts | disconnect => rfl
              | _ => cases ha
            have hheld : a.guard ⊆ held rest := hg.1
            rw [hguard] at hheld
            exact .inr (hheld List.mem_cons_self)
        | lock | catching => exact .inl (List.forall_mem_cons.2 ⟨hi.2, hrest⟩)
        | _ => exact .inl (List.forall_mem_cons.2 ⟨trivial, hrest⟩)
      · exact .inl (List.forall_mem_cons.2 ⟨hi, hrest⟩)
    · exact .inr (hsub hrest)

/-! ## Steps without an action -/

theorem Tidy.turns {th th' : Thread Lock Action Thrown} (h : Tidy th.code) (ht : Turns th th') :
    Tidy th'.code := by
  cases ht with
  | idle => trivial
  | locks =>
    refine ⟨?_, .inl trivial, h.2⟩
    rcases h.1 with hi | ⟨hi, hrest⟩
    · exact .inl hi.1
    · exact .inr ⟨hi, List.forall_mem_cons.2 ⟨trivial, hrest⟩⟩
  | waits => exact h
  | catches =>
    refine ⟨?_, .inl trivial, h.2⟩
    rcases h.1 with hi | ⟨hi, hrest⟩
    · exact .inl hi.1
    · exact .inr ⟨hi, List.forall_mem_cons.2 ⟨trivial, hrest⟩⟩
  | _ => exact h.2

theorem ThreadSafe.turns {th th' : Thread Lock Action Thrown} (h : ThreadSafe x th)
    (htidy : Tidy th.code) (ht : Turns th th') : ThreadSafe x th' := by
  cases ht with
  | idle => exact ⟨fun _ => trivial, trivial⟩
  | locks => exact h
  | waits => exact h
  | unlocks => exact h
  | leaves => exact h
  | passes => exact ⟨fun _ => h.2.1, h.2.2⟩
  | rethrows => exact .thrown h.2
  | catches =>
    refine ⟨fun _ => ⟨Action.not_barrier ?_ x, .inr trivial⟩, h.2⟩
    rcases htidy.1 with hi | ⟨hi, -⟩
    · exact hi.2
    · exact hi
  | unwinds => exact .thrown h.2.tail

end

/-! ## Actions -/

section
variable {t : Tid} {σ : Shared}

theorem leaves_closing {a : Action} (ha : a.closing = true) :
    (leaves t σ a).Forall Closing := by
  cases a with
  | closeSelectResult k =>
    show ((σ.stmts k).selectResult.toList.map _).Forall _
    cases (σ.stmts k).selectResult with
    | none => trivial
    | some n => rfl
  | closeStmt | closePending | closeResult => exact ⟨⟨rfl, rfl⟩, rfl⟩
  | closeStmtBody => exact ⟨rfl, rfl⟩
  | untrackStmt | untrackPending | flush | closeAppender | closeConn => exact ⟨rfl, rfl⟩
  | closeCompleted => rfl
  | closeAppenderBody => exact ⟨rfl, trivial, rfl⟩
  | closeAppenderRest => exact ⟨⟨rfl, rfl⟩, rfl⟩
  | closeConnBody => exact ⟨rfl, trivial, rfl, rfl, rfl, rfl⟩
  | closePendings | closeStmts | closeAppenders =>
    refine List.forall_append.2 ⟨List.forall_iff_forall_mem.2 fun i hi => ?_, rfl⟩
    obtain ⟨p, -, rfl⟩ := List.mem_map.1 hi
    rfl
  | closeStmtRest | removeStmt | closePendingBody | removePending | closeResultBody | flushBody
  | removeAppender | clearAppender | closeConnInterrupt | clearPendings | clearStmts
  | clearAppenders | disconnect => trivial
  | _ => cases ha

/-- The action leaves code that forgets references. -/
def Action.sweeps : Action → Bool
  | .closeConnBody | .closePendings | .closeStmts => true
  | _ => false

theorem Action.sweeps_eq_false {a : Action} (ha : a.closing = false) : a.sweeps = false := by
  cases a with
  | closeConnBody | closePendings | closeStmts => cases ha
  | _ => rfl

theorem leaves_keeps {a : Action} (ha : a.sweeps = false) : (leaves t σ a).Forall Keeps := by
  cases a with
  | prepare | getString | fetchConn | castConn | cancel | cancelLocked | enterEngine | untrackStmt
  | untrackPending | closeCompleted | flush | closeAppender | closeConn => rfl
  | prepareTry | prepareBody | prepareConn | prepareLocked | executeSql | execute | executeTry
  | executeBody | executeDirect | next | fetchChunk | closeStmt | closeStmtBody | closePending
  | closeResult | closeAppenderRest => exact ⟨rfl, rfl⟩
  | closeQuietly | runCancelTask => exact ⟨rfl, trivial⟩
  | closeAppenderBody => exact ⟨rfl, trivial, rfl⟩
  | ensureTransaction | executePendingBody => exact ⟨rfl, rfl, rfl⟩
  | executeStart | executeDispatch | executeNative => exact ⟨rfl, rfl, rfl, rfl⟩
  | executePending k f =>
    show ((σ.locals f).pending.toList.map _).Forall _
    cases (σ.locals f).pending with
    | none => trivial
    | some p => rfl
  | executeFinally k f =>
    show (((σ.locals f).pendingQuery.toList.map _) ++ _).Forall _
    cases (σ.locals f).pendingQuery with
    | none => rfl
    | some p => exact ⟨rfl, rfl⟩
  | executeFailed k f | readChangedRows k =>
    show (((σ.stmts k).selectResult.toList.map _) ++ _).Forall _
    cases (σ.stmts k).selectResult with
    | none => rfl
    | some n => exact ⟨rfl, rfl⟩
  | closeChangedRows k | closeSelectResult k =>
    show ((σ.stmts k).selectResult.toList.map _).Forall _
    cases (σ.stmts k).selectResult with
    | none => trivial
    | some n => rfl
  | closeAppenders =>
    refine List.forall_append.2 ⟨List.forall_iff_forall_mem.2 fun i hi => ?_, rfl⟩
    obtain ⟨p, -, rfl⟩ := List.mem_map.1 hi
    rfl
  | closeConnBody | closePendings | closeStmts => cases ha
  | _ => trivial

/-- **What an action leaves** is tidy. -/
theorem Tidy.exec {owner : Owners Lock} {ans : Answer} {a : Action} {code rest : Code}
    (h : Tidy (.act a :: rest)) (hx : (exec t owner ans a σ).2 = .ok code) :
    Tidy (code ++ rest) := by
  have hsub := exec_leaves owner ans σ a code hx
  cases ha : a.closing with
  | true =>
    refine .append (fun i hi => ?_) h.2
    exact List.forall_iff_forall_mem.1 (leaves_closing ha) i (hsub hi)
  | false =>
    have hrest : ∀ j ∈ rest, Keeps j := by
      rcases h.1 with hcl | ⟨-, hrest⟩
      · rw [show a.closing = true from hcl] at ha
        cases ha
      · exact hrest
    refine .of_keeps fun i hi => ?_
    rcases List.mem_append.1 hi with hi | hi
    · exact List.forall_iff_forall_mem.1 (leaves_keeps (Action.sweeps_eq_false ha)) i (hsub hi)
    · exact hrest i hi

section
variable {x : Handle} {code rest : Code}

theorem Safe.append (h : ∀ i ∈ code, Keeps i) (hrest : Safe x rest) : Safe x (code ++ rest) := by
  induction code with
  | nil => exact hrest
  | cons i code ih =>
    obtain ⟨hi, hcode⟩ := List.forall_mem_cons.1 h
    cases i with
    | act a => exact ⟨Action.not_barrier hi x, .inr (ih hcode)⟩
    | lock l a => exact ⟨Action.not_barrier hi x, .inr (ih hcode)⟩
    | rethrow => trivial
    | _ => exact ih hcode

theorem Caught.append (h : ∀ i ∈ code, Keeps i) (hsafe : Safe x rest) (hrest : Caught x rest) :
    Caught x (code ++ rest) := by
  induction code with
  | nil => exact hrest
  | cons i code ih =>
    have hcode := (List.forall_mem_cons.1 h).2
    cases i with
    | swallow => exact ⟨.append hcode hsafe, ih hcode⟩
    | _ => exact ih hcode

variable {α : Type} {g : α → Action} {l : List α}

theorem Caught.map (hrest : Caught x rest) :
    Caught x ((l.map fun y => .act (g y)) ++ rest) := by
  induction l with
  | nil => exact hrest
  | cons y l ih => exact ih

/-- One of the actions closes `x`. -/
theorem Safe.map (hg : ∀ y, (g y).forgets = false) {y : α} (hy : y ∈ l) (hcl : (g y).closes x) :
    Safe x ((l.map fun y => .act (g y)) ++ rest) := by
  induction l with
  | nil => cases hy
  | cons z l ih =>
    refine ⟨Action.not_barrier (hg z) x, ?_⟩
    rcases List.mem_cons.1 hy with rfl | hy
    · exact .inl hcl
    · exact .inr (ih hy)

theorem Safe.map_append (hg : ∀ y, (g y).forgets = false) (hrest : Safe x rest) :
    Safe x ((l.map fun y => .act (g y)) ++ rest) := by
  refine .append (fun i hi => ?_) hrest
  obtain ⟨y, -, rfl⟩ := List.mem_map.1 hi
  exact hg y

end

/-- A closed statement has no reference. -/
theorem Sound.stmtClosed {ρ : Targets} (h : Sound ρ σ.view) {k : StmtId}
    (hk : σ.stmtClosed k = true) : (σ.stmts k).hasStmtRef = false := by
  cases href : (σ.stmts k).hasStmtRef with
  | false => rfl
  | true =>
    have hconn : (σ.stmts k).hasConn = true := h.conn k href
    rcases Bool.or_eq_true_iff.1 hk with hc | hc
    · rw [hconn] at hc
      cases hc
    · have hclosed : (σ.stmts k).hasStmtRef = false :=
        h.disconnected (Bool.not_eq_true' _ ▸ hc) (.stmt k)
      rw [href] at hclosed
      cases hclosed

/-- **An action that closes** `x` leaves code that closes it, or it is closed. -/
theorem exec_closes {ρ : Targets} {owner : Owners Lock} {ans : Answer} {a : Action}
    {code rest : Code} {x : Handle} (hs : Sound ρ σ.view)
    (htracked : a = .closePendings → ∀ p, σ.pendings p = true → p ∈ σ.pendingQueries)
    (ha : a.closes x) (hc : Caught x rest) (hx : (exec t owner ans a σ).2 = .ok code)
    (hlive : (exec t owner ans a σ).1.view.live x = true) :
    Safe x (code ++ rest) ∧ Caught x (code ++ rest) := by
  cases a with
  | closePending p =>
    obtain rfl := ha
    change (closePending σ p).2 = _ at hx
    change (closePending σ p).1.pendings p = true at hlive
    unfold closePending at hx hlive
    split at hx
    · cases hx
      exact ⟨⟨id, .inl rfl⟩, hc⟩
    · next hp => exact absurd (by rwa [if_neg hp] at hlive) hp
  | closePendingBody p f =>
    obtain rfl := ha
    change (closePendingBody σ ans p f).2 = _ at hx
    change (closePendingBody σ ans p f).1.pendings p = true at hlive
    unfold closePendingBody at hx hlive
    by_cases hp : σ.pendings p = true
    · rw [if_pos hp] at hx hlive
      split at hx
      · cases hx
      · next hf =>
        rw [if_neg hf] at hlive
        change Function.update σ.pendings p false p = true at hlive
        rw [Function.update_self] at hlive
        cases hlive
    · rw [if_neg hp] at hlive
      exact absurd hlive hp
  | closePendings =>
    obtain ⟨p, rfl⟩ := ha
    cases hx
    rw [List.append_assoc]
    refine ⟨.map (fun _ => rfl) (List.mem_reverse.2 (htracked rfl p hlive)) rfl, .map hc⟩
  | closeStmt k =>
    obtain rfl := ha
    change (closeStmt σ k).2 = _ at hx
    change ((closeStmt σ k).1.stmts k).hasStmtRef = true at hlive
    unfold closeStmt at hx hlive
    split at hx
    · next hcl =>
      rw [if_pos hcl] at hlive
      have href := hs.stmtClosed hcl
      rw [show (σ.stmts k).hasStmtRef = true from hlive] at href
      cases href
    · cases hx
      exact ⟨⟨id, .inl rfl⟩, hc⟩
  | closeStmtBody k f =>
    obtain rfl := ha
    change (closeStmtBody σ k f).2 = _ at hx
    change ((closeStmtBody σ k f).1.stmts k).hasStmtRef = true at hlive
    unfold closeStmtBody at hx hlive
    split at hx
    · next hcl =>
      rw [if_pos hcl] at hlive
      have href := hs.stmtClosed hcl
      rw [show (σ.stmts k).hasStmtRef = true from hlive] at href
      cases href
    · cases hx
      exact ⟨⟨id, .inr ⟨id, .inl rfl⟩⟩, hc⟩
  | closeStmtRest k f =>
    obtain rfl := ha
    change (closeStmtRest σ ans k f).2 = _ at hx
    change ((closeStmtRest σ ans k f).1.stmts k).hasStmtRef = true at hlive
    unfold closeStmtRest at hx hlive
    dsimp only at hx hlive
    split at hx
    · cases hx
    · next hf =>
      rw [if_neg hf] at hlive
      simp [Shared.ok, Shared.setLocals, Shared.setStmt] at hlive
  | closeStmts =>
    obtain ⟨k, rfl⟩ := ha
    cases hx
    rw [List.append_assoc]
    exact ⟨.map (fun _ => rfl) (List.mem_reverse.2 (hs.tracked k hlive)) rfl, .map hc⟩
  | _ => exact ha.elim

/-- **An action** keeps what is open safe. -/
theorem exec_safe {ρ : Targets} {owner : Owners Lock} {ans : Answer} {a : Action}
    {code rest : Code} {x : Handle} (hs : Sound ρ σ.view)
    (htracked : a = .closePendings → ∀ p, σ.pendings p = true → p ∈ σ.pendingQueries)
    (hsafe : Safe x (.act a :: rest)) (hc : Caught x rest)
    (hx : (exec t owner ans a σ).2 = .ok code)
    (hlive : (exec t owner ans a σ).1.view.live x = true) :
    Safe x (code ++ rest) ∧ Caught x (code ++ rest) := by
  obtain ⟨hb, hcl | hrest⟩ := hsafe
  · exact exec_closes hs htracked hcl hc hx hlive
  cases ha : a.sweeps with
  | false =>
    have hkeeps : ∀ i ∈ code, Keeps i := fun i hi =>
      List.forall_iff_forall_mem.1 (leaves_keeps ha) i (exec_leaves owner ans σ a code hx hi)
    exact ⟨.append hkeeps hrest, .append hkeeps hrest hc⟩
  | true =>
    cases a with
    | closePendings =>
      cases x with
      | pending p => exact exec_closes hs htracked ⟨p, rfl⟩ hc hx hlive
      | stmt k =>
        cases hx
        rw [List.append_assoc]
        refine ⟨.map_append (fun _ => rfl) ⟨?_, .inr hrest⟩, .map hc⟩
        rintro ⟨p, hp⟩
        cases hp
    | closeStmts =>
      cases x with
      | pending p =>
        cases hx
        rw [List.append_assoc]
        refine ⟨.map_append (fun _ => rfl) ⟨?_, .inr hrest⟩, .map hc⟩
        rintro ⟨k, hk⟩
        cases hk
      | stmt k => exact exec_closes hs htracked ⟨k, rfl⟩ hc hx hlive
    | closeConnBody =>
      change (closeConnBody σ).2 = _ at hx
      unfold closeConnBody at hx
      split at hx
      · cases hx
        have hcloses : Safe x (.act .closePendings :: .act .closeStmts :: .act .closeAppenders ::
            .act .disconnect :: rest) := by
          cases x with
          | pending p => exact ⟨id, .inl ⟨p, rfl⟩⟩
          | stmt k => exact ⟨id, .inr ⟨id, .inl ⟨k, rfl⟩⟩⟩
        exact ⟨⟨id, .inr hcloses⟩, hcloses, hc⟩
      · cases hx
        exact ⟨hrest, hc⟩
    | _ => cases ha

end

/-! ## The invariant -/

/-- The thread is about to track pending query `p`. -/
def Adding (p : ℕ) (th : Thread Lock Action Thrown) : Prop :=
  th.thrown = none ∧ ∃ k rest,
    th.code = .lock .connRef (.addPending p) :: .act (.trackStmt k) :: rest ∨
    th.code = .act (.addPending p) :: .unlock .connRef :: .act (.trackStmt k) :: rest

/-- What holds of the references and of the code on the stacks. -/
structure Inv (ρ : Targets) (s : Sys) : Prop where
  orderly : Orderly (fun _ => Guarded) s
  sound : Sound ρ s.shared.view
  facts : ∀ t, ∀ i ∈ (s.threads t).code, ItemFacts ρ s.shared.view i
  tidy : ∀ t, Tidy (s.threads t).code
  safe : ∀ t x, s.shared.view.live x = true → ThreadSafe x (s.threads t)
  tracked : ∀ p, s.shared.pendings p = true →
    p ∈ s.shared.pendingQueries ∨ ∃ t, Adding p (s.threads t)

theorem Adding.held {t : Tid} {p : ℕ} {th : Thread Lock Action Thrown} (h : Adding p th)
    (hg : FineCode (fun _ => Guarded) t th.code) : .connRef ∈ held th.code := by
  obtain ⟨-, k, rest, hc | hc⟩ := h
  · rw [hc] at hg ⊢
    have hguard : [.connRef, .stmtRef k] ⊆ Threads.held rest := hg.2.1
    exact hguard List.mem_cons_self
  · rw [hc]
    exact List.mem_cons_self

theorem Adding.turns {p : ℕ} {th th' : Thread Lock Action Thrown} (h : Adding p th)
    (ht : Turns th th') : Adding p th' := by
  obtain ⟨hthrown, k, rest, hc | hc⟩ := h
  · cases ht with
    | locks => cases hc; exact ⟨rfl, k, rest, .inr rfl⟩
    | waits => cases hc; exact ⟨rfl, k, rest, .inl rfl⟩
    | unwinds => cases hthrown
    | catches => cases hthrown
    | _ => cases hc
  · cases ht with
    | unwinds => cases hthrown
    | catches => cases hthrown
    | _ => cases hc

theorem ItemFacts.turns {ρ : Targets} {v : View} {th th' : Thread Lock Action Thrown}
    (h : ∀ i ∈ th.code, ItemFacts ρ v i) (ht : Turns th th') :
    ∀ i ∈ th'.code, ItemFacts ρ v i := by
  cases ht with
  | idle => exact fun i hi => by cases hi
  | locks =>
    obtain ⟨hi, hrest⟩ := List.forall_mem_cons.1 h
    exact List.forall_mem_cons.2 ⟨hi, List.forall_mem_cons.2 ⟨trivial, hrest⟩⟩
  | waits => exact h
  | catches =>
    obtain ⟨hi, hrest⟩ := List.forall_mem_cons.1 h
    exact List.forall_mem_cons.2 ⟨hi, List.forall_mem_cons.2 ⟨trivial, hrest⟩⟩
  | _ => exact (List.forall_mem_cons.1 h).2

/-- What an action opens, it opens under `connRefLock`, and it is not one of `close`. -/
theorem Effect.opens {v v' : View} {a : Action} (h : Effect v a v') {x : Handle}
    (hl : v'.live x = true) : v.live x = true ∨ a.closing = false ∧ .connRef ∈ a.guard := by
  cases h with
  | openStmt => exact .inr ⟨rfl, List.mem_cons_self⟩
  | openPending => exact .inr ⟨rfl, List.mem_cons_self⟩
  | newStmt | releaseStmt | closeStmt =>
    cases x with
    | pending p => exact .inl hl
    | stmt k => exact .inl (of_update_false hl).2
  | closePending =>
    cases x with
    | pending p => exact .inl (of_update_false hl).2
    | stmt k => exact .inl hl
  | _ =>
    cases x with
    | pending p => exact .inl hl
    | stmt k => exact .inl hl

/-- A pending query that is open stays tracked. -/
theorem Effect.tracked {ρ : Targets} {v v' : View} {a : Action} (h : Effect v a v')
    (ha : Facts ρ v a) (hb : ∀ x, a.barrier x → v.live x = false) {p : ℕ}
    (hl : v.pendings p = true) (hp : p ∈ v.pendingQueries) : p ∈ v'.pendingQueries := by
  cases h with
  | addPending => exact mem_addTo.2 (.inr hp)
  | removePending =>
    refine List.mem_filter.2 ⟨hp, decide_eq_true ?_⟩
    rintro rfl
    have hclosed : v.pendings p = false := ha.2
    rw [hl] at hclosed
    cases hclosed
  | clearPendings =>
    have hclosed : v.pendings p = false := hb (.pending p) ⟨p, rfl⟩
    rw [hl] at hclosed
    cases hclosed
  | _ => exact hp

/-- Pending queries are opened by executions. -/
theorem Effect.pending {v v' : View} {a : Action} (h : Effect v a v') {p : ℕ}
    (hp : v'.pendings p = true) : v.pendings p = true ∨ ∃ k f, a = .executeDirect k f := by
  cases h with
  | openPending => exact .inr ⟨_, _, rfl⟩
  | closePending => exact .inl (of_update_false hp).2
  | _ => exact .inl hp

/-- An execution that opens a pending query is about to track it. -/
theorem executeDirect_adding {t : Tid} {owner : Owners Lock} {ans : Answer} {σ : Shared}
    {k : StmtId} {f p : ℕ} (rest : Code)
    (hl : (exec t owner ans (.executeDirect k f) σ).1.pendings p = true) :
    σ.pendings p = true ∨ Adding p (after (exec t owner ans (.executeDirect k f) σ).2 rest) := by
  change (executeDirect σ ans k f).1.pendings p = true at hl
  show _ ∨ Adding p (after (executeDirect σ ans k f).2 rest)
  unfold executeDirect at hl ⊢
  split
  · next hc =>
    rw [if_pos hc] at hl
    exact .inl hl
  · next hc =>
    rw [if_neg hc] at hl
    split
    · next hf =>
      rw [if_pos hf] at hl
      exact .inl hl
    · next hf =>
      rw [if_neg hf] at hl
      rcases of_update_true (g := σ.pendings) hl with rfl | hl
      · exact .inr ⟨rfl, k, rest, .inl rfl⟩
      · exact .inl hl

section
variable {ρ : Targets} {s : Sys} {t : Tid}

/-- A thread that is about to track a pending query has `connRefLock`. -/
theorem Inv.adding_held (h : Inv ρ s) {p : ℕ} (ha : Adding p (s.threads t)) :
    .connRef ∈ held (s.threads t).code := ha.held (h.orderly.fine t)

/-- One thread at a time has a lock. -/
theorem Inv.held_unique (h : Inv ρ s) {t' : Tid} {l : Lock} (ht : l ∈ held (s.threads t).code)
    (ht' : l ∈ held (s.threads t').code) : t' = t := by
  obtain ⟨n, hn⟩ := h.orderly.mem_held_iff.1 ht
  obtain ⟨n', hn'⟩ := h.orderly.mem_held_iff.1 ht'
  rw [hn] at hn'
  cases hn'
  rfl

/-- **A step without an action.** -/
theorem Inv.turns (h : Inv ρ s) {owner : Owners Lock} {th : Thread Lock Action Thrown}
    (ht : Turns (s.threads t) th)
    (horderly : Orderly (fun _ => Guarded) ({ s with owner := owner }.setThread t th)) :
    Inv ρ ({ s with owner := owner }.setThread t th) := by
  refine ⟨horderly, h.sound, ?_, ?_, fun t' x hx => ?_, fun p hp => ?_⟩
  · exact setThread_forall (P := fun _ th => ∀ i ∈ th.code, ItemFacts ρ s.shared.view i)
      (ItemFacts.turns (h.facts t) ht) fun t' _ => h.facts t'
  · exact setThread_forall (P := fun _ th => Tidy th.code) ((h.tidy t).turns ht)
      fun t' _ => h.tidy t'
  · exact setThread_forall (P := fun _ => ThreadSafe x) ((h.safe t x hx).turns (h.tidy t) ht)
      (fun t' _ => h.safe t' x hx) t'
  · refine (h.tracked p hp).imp_right fun ⟨t', ha⟩ => ⟨t', ?_⟩
    by_cases ht' : t' = t
    · subst ht'
      rw [setThread_self]
      exact ha.turns ht
    · rwa [setThread_of_ne _ _ ht']

/-- What the invariant says of the action that a thread runs next. -/
theorem Inv.head (h : Inv ρ s) {a : Action} {rest : Code} (hthrown : (s.threads t).thrown = none)
    (hcode : (s.threads t).code = .act a :: rest) :
    Facts ρ s.shared.view a ∧ (∀ i ∈ rest, ItemFacts ρ s.shared.view i) ∧
      Tidy (.act a :: rest) ∧ a.guard ⊆ held rest ∧
      ∀ x, s.shared.view.live x = true → Safe x (.act a :: rest) ∧ Caught x rest := by
  have hfacts := h.facts t
  have htidy := h.tidy t
  have hfine := h.orderly.fine t
  have hsafe := h.safe t
  rw [hcode] at hfacts htidy hfine
  obtain ⟨ha, hrest⟩ := List.forall_mem_cons.1 hfacts
  refine ⟨ha, hrest, htidy, hfine.1, fun x hx => ?_⟩
  obtain ⟨hs, hc⟩ := hsafe x hx
  rw [hcode] at hs hc
  exact ⟨hs hthrown, hc⟩

/-- At the start of `closePendings` all open pending queries are tracked. -/
theorem Inv.closePendings_tracked (h : Inv ρ s) {rest : Code}
    (hcode : (s.threads t).code = .act .closePendings :: rest) (hguard : .connRef ∈ held rest)
    (p : ℕ) (hp : s.shared.pendings p = true) : p ∈ s.shared.pendingQueries := by
  rcases h.tracked p hp with hmem | ⟨t', ha⟩
  · exact hmem
  · have hheld : .connRef ∈ held (s.threads t).code := by rwa [hcode]
    obtain rfl := h.held_unique hheld (h.adding_held ha)
    obtain ⟨-, k, rest', hc | hc⟩ := ha
    · rw [hcode] at hc
      cases hc
    · rw [hcode] at hc
      cases hc

/-- What is open stays tracked. -/
theorem Inv.acts_tracked (h : Inv ρ s) {ans : Answer} {a : Action} {rest : Code} {o : Out}
    (ho : exec t s.owner ans a s.shared = o) (hthrown : (s.threads t).thrown = none)
    (hcode : (s.threads t).code = .act a :: rest) (p : ℕ) (hp : o.1.pendings p = true) :
    p ∈ o.1.pendingQueries ∨ Adding p (after o.2 rest) ∨
      ∃ t', t' ≠ t ∧ Adding p (s.threads t') := by
  obtain ⟨hfacts, -, -, -, hsafe⟩ := h.head hthrown hcode
  have heff : Effect s.shared.view a o.1.view := ho ▸ exec_effect t s.owner ans s.shared a
  have hold : s.shared.pendings p = true → p ∈ o.1.pendingQueries ∨
      Adding p (after o.2 rest) ∨ ∃ t', t' ≠ t ∧ Adding p (s.threads t') := by
    intro hl
    rcases h.tracked p hl with hmem | ⟨t', ha⟩
    · refine .inl (heff.tracked hfacts (fun x hx => ?_) hl hmem)
      cases hx' : s.shared.view.live x with
      | false => rfl
      | true => exact absurd hx (hsafe x hx').1.1
    · by_cases ht' : t' = t
      · subst ht'
        obtain ⟨-, k, rest', hc | hc⟩ := ha
        · rw [hcode] at hc
          cases hc
        · rw [hcode] at hc
          cases hc
          subst ho
          exact .inl (mem_addTo.2 (.inl rfl))
      · exact .inr (.inr ⟨t', ht', ha⟩)
  rcases heff.pending hp with hl | ⟨k, f, rfl⟩
  · exact hold hl
  · subst ho
    rcases executeDirect_adding rest hp with hl | ha
    · exact hold hl
    · exact .inr (.inl ha)

/-- **An action.** -/
theorem Inv.acts (h : Inv ρ s) {ans : Answer} {a : Action} {rest : Code} {o : Out}
    (ho : exec t s.owner ans a s.shared = o) (hthrown : (s.threads t).thrown = none)
    (hcode : (s.threads t).code = .act a :: rest)
    (horderly : Orderly (fun _ => Guarded)
      ({ s with shared := o.1 }.setThread t (after o.2 rest))) :
    Inv (ρ.start s.shared.view a) ({ s with shared := o.1 }.setThread t (after o.2 rest)) := by
  obtain ⟨hfacts, hrest, htidy, hguard, hsafe⟩ := h.head hthrown hcode
  have heff : Effect s.shared.view a o.1.view := ho ▸ exec_effect t s.owner ans s.shared a
  have hlater := heff.later ρ
  have hheld : ∀ l ∈ a.guard, l ∈ held (s.threads t).code := by
    rw [hcode]
    exact fun l hl => hguard hl
  refine ⟨horderly, h.sound.effect heff hfacts fun x hx => ?_, ?_, ?_, fun t' x hx => ?_,
    fun p hp => ?_⟩
  · cases hl : s.shared.view.live x with
    | false => rfl
    | true => exact absurd hx (hsafe x hl).1.1
  · refine setThread_forall
      (P := fun _ th => ∀ i ∈ th.code, ItemFacts (ρ.start s.shared.view a) o.1.view i) ?_
      fun t' _ i hi => (h.facts t' i hi).mono hlater
    have hrest' : ∀ i ∈ rest, ItemFacts (ρ.start s.shared.view a) o.1.view i := fun i hi =>
      (hrest i hi).mono hlater
    subst ho
    cases hx : (exec t s.owner ans a s.shared).2 with
    | error e => exact hrest'
    | ok code =>
      intro i hi
      rcases List.mem_append.1 hi with hi | hi
      · exact exec_facts s.owner ans h.sound hfacts code hx i hi
      · exact hrest' i hi
  · refine setThread_forall (P := fun _ th => Tidy th.code) ?_ fun t' _ => h.tidy t'
    subst ho
    cases hx : (exec t s.owner ans a s.shared).2 with
    | error e => exact htidy.2
    | ok code => exact htidy.exec hx
  · rcases heff.opens hx with hl | ⟨hcl, hconn⟩
    · refine setThread_forall (P := fun _ => ThreadSafe x) ?_ (fun t' _ => h.safe t' x hl) t'
      obtain ⟨hs, hc⟩ := hsafe x hl
      subst ho
      cases hx' : (exec t s.owner ans a s.shared).2 with
      | error e => exact .thrown hc
      | ok code =>
        have htracked : a = .closePendings →
            ∀ p, s.shared.pendings p = true → p ∈ s.shared.pendingQueries := by
          rintro rfl
          exact h.closePendings_tracked hcode (hguard List.mem_cons_self)
        obtain ⟨hs', hc'⟩ := exec_safe h.sound htracked hs hc hx' hx
        exact ⟨fun _ => hs', hc'⟩
    · refine setThread_forall (P := fun _ => ThreadSafe x) ?_ (fun t' ht' => ?_) t'
      · have hkeeps : ∀ i ∈ rest, Keeps i := by
          rcases htidy.1 with hi | ⟨-, hi⟩
          · rw [show a.closing = true from hi] at hcl
            cases hcl
          · exact hi
        subst ho
        cases hx' : (exec t s.owner ans a s.shared).2 with
        | error e => exact .of_keeps hkeeps
        | ok code =>
          refine .of_keeps fun i hi => ?_
          rcases List.mem_append.1 hi with hi | hi
          · have hleaves := leaves_keeps (t := t) (σ := s.shared) (Action.sweeps_eq_false hcl)
            exact List.forall_iff_forall_mem.1 hleaves i
              (exec_leaves s.owner ans s.shared a code hx' hi)
          · exact hkeeps i hi
      · rcases keeps_or_held (h.tidy t') (h.orderly.fine t') with hkeeps | hheld'
        · exact .of_keeps hkeeps
        · exact absurd (h.held_unique (hheld _ hconn) hheld') ht'
  · rcases h.acts_tracked ho hthrown hcode p hp with hmem | ha | ⟨t', ht', ha⟩
    · exact .inl hmem
    · refine .inr ⟨t, ?_⟩
      rwa [setThread_self]
    · refine .inr ⟨t', ?_⟩
      rwa [setThread_of_ne _ _ ht']

/-- **A step.** -/
theorem Inv.step (h : Inv ρ s) (t : Tid) (ans : Answer) :
    ∃ ρ', Inv ρ' (stepThread exec t ans s) := by
  have horderly := h.orderly.stepped guarded (stepThread_stepped exec t ans s)
  rcases stepThread_acts_or_turns exec t ans s with ⟨a, rest, hthrown, hcode, hu⟩ |
    ⟨owner, th, ht, hu⟩
  · rw [hu] at horderly ⊢
    exact ⟨_, h.acts rfl hthrown hcode horderly⟩
  · rw [hu] at horderly ⊢
    exact ⟨ρ, h.turns ht horderly⟩

theorem op_forgets (op : Op) : op.action.forgets = false := by
  cases op <;> rfl

/-- **A call.** -/
theorem Inv.call (h : Inv ρ s) (t : Tid) (op : Op) : Inv ρ (callThread t op.action s) := by
  have horderly := h.orderly.callThread (t := t) (op_guarded op)
  unfold callThread at horderly ⊢
  split
  · next _ _ hthrown hcode =>
    have hkeeps : ∀ i ∈ [Item.act op.action], Keeps i :=
      List.forall_mem_singleton.2 (op_forgets op)
    refine ⟨?_, h.sound, ?_, ?_, fun t' x hx => ?_, fun p hp => ?_⟩
    · rwa [hthrown, hcode] at horderly
    · refine setThread_forall (P := fun _ th => ∀ i ∈ th.code, ItemFacts ρ s.shared.view i) ?_
        fun t' _ => h.facts t'
      refine List.forall_mem_singleton.2 ?_
      cases op <;> trivial
    · exact setThread_forall (P := fun _ th => Tidy th.code) (.of_keeps hkeeps)
        fun t' _ => h.tidy t'
    · exact setThread_forall (P := fun _ => ThreadSafe x) (.of_keeps hkeeps)
        (fun t' _ => h.safe t' x hx) t'
    · refine (h.tracked p hp).imp_right fun ⟨t', ha⟩ => ⟨t', ?_⟩
      have ht' : t' ≠ t := by
        rintro rfl
        obtain ⟨-, k, rest, hc | hc⟩ := ha
        · rw [hcode] at hc
          cases hc
        · rw [hcode] at hc
          cases hc
      rwa [setThread_of_ne _ _ ht']
  · exact h

/-- **Every reachable state.** -/
theorem inv_runMoves (moves : List Move) (h : Inv ρ s) : ∃ ρ', Inv ρ' (runMoves moves s) := by
  induction moves generalizing ρ s with
  | nil => exact ⟨ρ, h⟩
  | cons m moves ih =>
    cases m with
    | call t op => exact ih (h.call t op)
    | go t ans =>
      obtain ⟨ρ', h'⟩ := h.step t ans
      exact ih h'

end

theorem inv_init (autoCommit : Bool) (isPrepared : ℕ → Bool) (appenders : List ℕ)
    (rowIdx : ℕ → ℕ) : Inv (fun _ => none) (init autoCommit isPrepared appenders rowIdx) := by
  have hlive : ∀ x, (init autoCommit isPrepared appenders rowIdx).shared.view.live x = false := by
    rintro (p | ⟨n⟩ | ⟨t, n⟩)
    · rfl
    · rfl
    · rfl
  have hdead : ∀ {x} {P : Prop},
      (init autoCommit isPrepared appenders rowIdx).shared.view.live x = true → P := by
    intro x P hx
    rw [hlive] at hx
    cases hx
  refine ⟨guarded_init .., ⟨fun p hp => hdead (x := .pending p) hp,
    fun k hk => hdead (x := .stmt k) hk, fun k hk => (by cases hk),
    fun k hk => hdead (x := .stmt k) hk, fun f hf => (by cases hf), fun _ => hlive⟩, ?_, ?_, ?_, ?_⟩
  · exact fun t i hi => (by cases hi)
  · exact fun _ => trivial
  · exact fun t x hx => hdead hx
  · exact fun p hp => hdead (x := .pending p) hp

/-- **Disconnecting**: whatever the interleaving, once `DuckDBConnection.close` has disconnected, no
    prepared statement and no pending query of the connection is open. -/
theorem disconnected_closed (autoCommit : Bool) (isPrepared : ℕ → Bool) (appenders : List ℕ)
    (rowIdx : ℕ → ℕ) (moves : List Move)
    (hclosed : (runMoves moves (init autoCommit isPrepared appenders rowIdx)).shared.connOpen =
      false) :
    (∀ k, ((runMoves moves (init autoCommit isPrepared appenders rowIdx)).shared.stmts
      k).hasStmtRef = false) ∧
    ∀ p, (runMoves moves (init autoCommit isPrepared appenders rowIdx)).shared.pendings p =
      false := by
  obtain ⟨ρ, h⟩ := inv_runMoves moves (inv_init autoCommit isPrepared appenders rowIdx)
  have hlive := h.sound.disconnected hclosed
  exact ⟨fun k => hlive (.stmt k), fun p => hlive (.pending p)⟩

/-- Thread 0 prepares statement 0, then thread 1 closes the connection. -/
def prepareThenClose : List Move :=
  .call 0 (.prepare 0) :: goes 0 14 ++ .call 1 .closeConnection :: goes 1 19

theorem prepareThenClose_closed :
    (∀ k, ((runMoves prepareThenClose (init true (fun n => n = 0) [] fun _ => 0)).shared.stmts
      k).hasStmtRef = false) ∧
    ∀ p, (runMoves prepareThenClose (init true (fun n => n = 0) [] fun _ => 0)).shared.pendings p =
      false :=
  disconnected_closed true (fun n => n = 0) [] (fun _ => 0) prepareThenClose (by decide +kernel)

end DuckDBJava.Concurrency
