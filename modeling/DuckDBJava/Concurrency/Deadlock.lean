/-
  When the locks of a connection deadlock.

  **`deadlock_iff_clash`**: the threads of a reachable state wait for each other in a cycle iff
  one of them holds `connRefLock` and waits for the lock of a statement or of an appender, whose
  owner waits for `connRefLock`.  `DuckDBConnection.close` locks its statements and appenders under
  `connRefLock`; `prepare`, `executeDirect` and `DuckDBAppender.close` lock `connRefLock` under
  theirs.
-/
import DuckDBJava.Concurrency.Discipline
import Mathlib.Data.List.Infix

namespace DuckDBJava.Concurrency

open Threads Connection

section
variable {s : Sys} {t t' : Tid} {l : Lock}

/-- Thread `t` holds the connection and waits for a statement or an appender of `t'`, which waits
    for the connection. -/
def Clash (s : Sys) (t t' : Tid) : Prop :=
  t' ≠ t ∧ (∃ n, s.owner .connRef = some (t, n)) ∧ WaitsFor s t' .connRef ∧
    ∃ l n, l.child = true ∧ WaitsFor s t l ∧ s.owner l = some (t', n)

/-! ## What a thread that waits holds -/

theorem waitsFor_fine (h : Orderly Fine s) (hw : WaitsFor s t l) :
    NoLeaf (held (s.threads t).code) ∧ LockOk t (held (s.threads t).code) l := by
  obtain ⟨-, a, rest, hc⟩ := hw
  have hf := h.fine t
  rw [hc] at hf ⊢
  exact ⟨hf.1.1, hf.1.2.1⟩

theorem waitsFor_unique {l' : Lock} (h : WaitsFor s t l) (h' : WaitsFor s t l') : l = l' := by
  obtain ⟨-, a, rest, hc⟩ := h
  obtain ⟨-, a', rest', hc'⟩ := h'
  rw [hc] at hc'
  cases hc'
  rfl

/-- Owners are unique. -/
theorem owner_unique (h : Orderly Fine s) (ht : l ∈ held (s.threads t).code)
    (ht' : l ∈ held (s.threads t').code) : t = t' := by
  obtain ⟨n, hn⟩ := h.mem_held_iff.1 ht
  obtain ⟨m, hm⟩ := h.mem_held_iff.1 ht'
  rw [hn] at hm
  cases hm
  rfl

/-- A thread that holds a leaf does not wait. -/
theorem leaf_not_waiting (h : Orderly Fine s) {l' : Lock} (hl : l.leaf = true)
    (hm : l ∈ held (s.threads t).code) : ¬ WaitsFor s t l' := by
  intro hw
  have := (waitsFor_fine h hw).1 l hm
  rw [hl] at this
  cases this

/-- The lock of a thread's own statement is held by that thread or by one that holds the
    connection. -/
theorem inner_owner (h : Orderly Fine s) {n : ℕ}
    (hm : Lock.stmtRef (.inner t n) ∈ held (s.threads t').code) :
    t = t' ∨ Lock.connRef ∈ held (s.threads t').code := by
  obtain ⟨H, hun, hsub⟩ := (h.fine t').mem_held hm
  exact hun.imp_right (hsub _)

/-- A thread that holds one child and waits for another of thread `t'`: then `t'` holds the
    connection. -/
theorem child_child (h : Orderly Fine s) {c : Lock} (hc : c.child = true)
    (hm : c ∈ held (s.threads t).code) (hl : l.child = true) (hw : WaitsFor s t l)
    (ho : l ∈ held (s.threads t').code) (hne : t' ≠ t) :
    Lock.connRef ∈ held (s.threads t').code := by
  have hchild : ¬ NoChild (held (s.threads t).code) := by
    intro hn
    rw [hn c hm] at hc
    cases hc
  have hown : l ∉ held (s.threads t).code := fun hin => hne (owner_unique h ho hin)
  have hok := (waitsFor_fine h hw).2
  cases l with
  | stmtRef k =>
    rcases hok.2 with hn | hin | hmine
    · exact absurd hn hchild
    · exact absurd hin hown
    · cases k with
      | user n => exact hmine.elim
      | inner t'' n =>
        obtain rfl : t'' = t := hmine
        exact (inner_owner h ho).resolve_left fun he => hne he.symm
  | appenderRef a =>
    rcases hok with hn | hin
    · exact absurd hn hchild
    · exact absurd hin hown
  | _ => cases hl

/-! ## Cycles -/

/-- The locks a thread of a cycle waits for, and how it is waited for. -/
theorem waits_cases (h : Orderly Fine s) (hw : Waits s t t')
    (hnext : Relation.TransGen (Waits s) t' t') :
    ∃ l, WaitsFor s t l ∧ l ∈ held (s.threads t').code ∧ t' ≠ t ∧
      (l = .connRef ∨ l.child = true) := by
  obtain ⟨l, n, hwl, ho, hne⟩ := hw
  have hm : l ∈ held (s.threads t').code := h.mem_held_iff.2 ⟨n, ho⟩
  obtain ⟨t'', ⟨l', _, hwl', _⟩, -⟩ := cycle_next hnext
  refine ⟨l, hwl, hm, hne, ?_⟩
  cases l with
  | connRef => exact .inl rfl
  | stmtRef | appenderRef => exact .inr rfl
  | resultRef | pendingRef => exact absurd hwl' (leaf_not_waiting h rfl hm)

/-- A thread of a cycle that holds the connection holds no child. -/
theorem conn_holder (h : Orderly Fine s) (hcycle : Relation.TransGen (Waits s) t t)
    (hconn : Lock.connRef ∈ held (s.threads t).code) {c : Lock} (hc : c.child = true) :
    c ∉ held (s.threads t).code := by
  intro hm
  obtain ⟨t', hw, hnext⟩ := cycle_next hcycle
  obtain ⟨l, hwl, ho, hne, rfl | hl⟩ := waits_cases h hw hnext
  · exact hne (owner_unique h ho hconn)
  · exact hne (owner_unique h (child_child h hc hm hl hwl ho hne) hconn)

/-- A thread of a cycle waits for the connection, or holds it. -/
theorem waits_conn (h : Orderly Fine s) (hcycle : Relation.TransGen (Waits s) t t) :
    WaitsFor s t .connRef ∨ Lock.connRef ∈ held (s.threads t).code := by
  obtain ⟨t', hw, hnext⟩ := cycle_next hcycle
  obtain ⟨l, hwl, ho, hne, rfl | hl⟩ := waits_cases h hw hnext
  · exact .inl hwl
  · obtain ⟨p, hp, hprev⟩ := cycle_prev hcycle
    obtain ⟨c, -, hm, -, rfl | hc⟩ := waits_cases h hp hcycle
    · exact .inr hm
    · exact absurd ho (conn_holder h hnext (child_child h hc hm hl hwl ho hne) hl)

/-- **Deadlocks**: every cycle is a thread that holds the connection and one that waits for it. -/
theorem deadlock_iff_clash (h : Orderly Fine s) : Deadlock s ↔ ∃ t t', Clash s t t' := by
  constructor
  · rintro ⟨t, hcycle⟩
    have hholder : ∃ u, Relation.TransGen (Waits s) u u ∧
        Lock.connRef ∈ held (s.threads u).code := by
      rcases waits_conn h hcycle with hw | hm
      · obtain ⟨t', hw', hnext⟩ := cycle_next hcycle
        obtain ⟨l, hwl, ho, -, -⟩ := waits_cases h hw' hnext
        obtain rfl := waitsFor_unique hw hwl
        exact ⟨t', hnext, ho⟩
      · exact ⟨t, hcycle, hm⟩
    obtain ⟨u, hu, hconn⟩ := hholder
    obtain ⟨u', hw, hnext⟩ := cycle_next hu
    obtain ⟨l, hwl, ho, hne, rfl | hl⟩ := waits_cases h hw hnext
    · exact absurd (owner_unique h ho hconn) hne
    · refine ⟨u, u', hne, h.mem_held_iff.1 hconn, ?_, l, ?_⟩
      · exact (waits_conn h hnext).resolve_right fun hm => hne (owner_unique h hm hconn)
      · obtain ⟨n, hn⟩ := h.mem_held_iff.1 ho
        exact ⟨n, hl, hwl, hn⟩
  · rintro ⟨t, t', hne, ⟨n, hn⟩, hw', l, m, -, hw, ho⟩
    have h₁ : Waits s t t' := ⟨l, m, hw, ho, hne⟩
    have h₂ : Waits s t' t := ⟨.connRef, n, hw', hn, hne.symm⟩
    exact ⟨t, .tail (.single h₁) h₂⟩

/-! ## Runs -/

/-- The step does not leave its thread waiting in one of the two ways: for a statement or an
    appender, while it holds the connection and the owner waits for that; for the connection,
    while the owner waits for a statement or an appender that the thread holds. -/
def InOrder (s : Sys) : Move → Prop
  | .call _ _ => True
  | .go t _ => ∀ l a rest t' n, (s.threads t).thrown = none →
      (s.threads t).code = .lock l a :: rest → s.owner l = some (t', n) → t' ≠ t →
      (l.child = true → (∃ m, s.owner .connRef = some (t, m)) → ¬ WaitsFor s t' .connRef) ∧
      (l = .connRef → ∀ c m, c.child = true → WaitsFor s t' c → s.owner c ≠ some (t, m))

theorem waitsFor_of_ne {exec' : Semantics Shared Lock Action Thrown Answer} {ans : Answer} {u : Sys}
    (h : Threads.Stepped exec' t ans s u) (hne : t' ≠ t) : WaitsFor u t' l ↔ WaitsFor s t' l := by
  rw [WaitsFor, WaitsFor, h.threads_of_ne hne]

/-- A step in order makes no deadlock. -/
theorem no_clash_step (hs : ∀ t t', ¬ Clash s t t') {m : Move} (hm : InOrder s m) (u u' : Tid) :
    ¬ Clash (move s m) u u' := by
  rintro ⟨hne, ⟨n, hn⟩, hw', l, k, hl, hw, ho⟩
  cases m with
  | call t op =>
    have hthread : ∀ v, WaitsFor (callThread t op.action s) v = WaitsFor s v ∨
        ∀ l, ¬ WaitsFor (callThread t op.action s) v l := by
      intro v
      unfold callThread
      split
      · by_cases hv : v = t
        · refine .inr fun l hwl => ?_
          have hwait := hwl.1
          rw [hv, setThread_self] at hwait
          cases hwait
        · refine .inl (funext fun l => ?_)
          rw [WaitsFor, WaitsFor, setThread_of_ne _ _ hv]
      · exact .inl rfl
    have howner : (callThread t op.action s).owner = s.owner := by
      unfold callThread
      split <;> rfl
    rcases hthread u with hu | hu
    · rcases hthread u' with hu' | hu'
      · refine hs u u' ⟨hne, ⟨n, ?_⟩, ?_, l, k, hl, ?_, ?_⟩
        · rw [← howner]; exact hn
        · rw [← hu']; exact hw'
        · rw [← hu]; exact hw
        · rw [← howner]; exact ho
      · exact hu' _ hw'
    · exact hu _ hw
  | go t ans =>
    have hst := stepThread_stepped exec t ans s
    change Threads.Stepped exec t ans s (move s (.go t ans)) at hst
    by_cases hu : u = t
    · subst hu
      obtain ⟨howner, hth, l', a, rest, hc, -, hc'⟩ := hst.waiting hw.1
      obtain ⟨-, a', rest', hcl⟩ := hw
      rw [hc'] at hcl
      cases hcl
      rw [howner] at hn ho
      exact (hm l a rest u' k hth hc ho hne).1 hl ⟨n, hn⟩ ((waitsFor_of_ne hst hne).1 hw')
    · by_cases hu' : u' = t
      · subst hu'
        obtain ⟨howner, hth, l', a, rest, hc, -, hc'⟩ := hst.waiting hw'.1
        obtain ⟨-, a', rest', hcl⟩ := hw'
        rw [hc'] at hcl
        cases hcl
        rw [howner] at hn ho
        exact (hm .connRef a rest u n hth hc hn hu).2 rfl l k hl
          ((waitsFor_of_ne hst hu).1 hw) ho
      · exact hs u u' ⟨hne, ⟨n, hst.owner_of_ne hu hn⟩, (waitsFor_of_ne hst hu').1 hw', l, k, hl,
          (waitsFor_of_ne hst hu).1 hw, hst.owner_of_ne hu' ho⟩

/-- A step out of order makes a deadlock. -/
theorem clash_step {m : Move} (hm : ¬ InOrder s m) : ∃ t t', Clash (move s m) t t' := by
  cases m with
  | call t op => exact absurd trivial hm
  | go t ans =>
    simp only [InOrder, not_forall] at hm
    obtain ⟨l, a, rest, t', n, hth, hc, ho, hne, hm⟩ := hm
    have hst := stepThread_stepped exec t ans s
    have hmove : move s (.go t ans) = s.setThread t ⟨.lock l a :: rest, none, true⟩ := by
      have ha : available s.owner l t = false := by
        simp [available, ho, hne]
      show stepThread exec t ans s = _
      unfold stepThread
      rw [hth, hc]
      simp [ha]
    have hw : WaitsFor (move s (.go t ans)) t l := by
      rw [hmove]
      exact ⟨by simp, a, rest, by simp⟩
    have howner : (move s (.go t ans)).owner = s.owner := by rw [hmove]; rfl
    have hother : ∀ {v l'}, v ≠ t → WaitsFor s v l' → WaitsFor (move s (.go t ans)) v l' :=
      fun hv h => (waitsFor_of_ne hst hv).2 h
    by_cases hfirst : l.child = true ∧ (∃ m, s.owner .connRef = some (t, m)) ∧
        WaitsFor s t' .connRef
    · obtain ⟨hl, hconn, hw'⟩ := hfirst
      exact ⟨t, t', hne, howner ▸ hconn, hother hne hw', l, n, hl, hw, howner ▸ ho⟩
    · have hsecond : l = .connRef ∧ ∃ c m, c.child = true ∧ WaitsFor s t' c ∧
          s.owner c = some (t, m) := by
        by_contra hno
        refine hm ⟨fun hl hconn hw' => hfirst ⟨hl, hconn, hw'⟩, fun hl c m hc hw' hoc => ?_⟩
        exact hno ⟨hl, c, m, hc, hw', hoc⟩
      obtain ⟨rfl, c, m, hc, hw', hoc⟩ := hsecond
      exact ⟨t', t, hne.symm, ⟨n, howner ▸ ho⟩, hw, c, m, hc, hother hne hw', howner ▸ hoc⟩

end

theorem runMoves_append (moves moves' : List Move) (s : Sys) :
    runMoves (moves ++ moves') s = runMoves moves' (runMoves moves s) := List.foldl_append

/-- **Deadlock freedom**: a run reaches no state in which threads wait for each other in a cycle
    iff all its steps are in order. -/
theorem no_deadlock_iff (autoCommit : Bool) (isPrepared : ℕ → Bool) (appenders : List ℕ)
    (rowIdx : ℕ → ℕ) (moves : List Move) :
    (∀ pre, pre <+: moves →
      ¬ Deadlock (runMoves pre (init autoCommit isPrepared appenders rowIdx))) ↔
    ∀ pre m, pre ++ [m] <+: moves →
      InOrder (runMoves pre (init autoCommit isPrepared appenders rowIdx)) m := by
  have hord : ∀ pre, Orderly Fine (runMoves pre (init autoCommit isPrepared appenders rowIdx)) :=
    fun pre => orderly_runMoves pre (orderly_init ..)
  constructor
  · intro h pre m hpre
    by_contra hm
    refine h (pre ++ [m]) hpre ((deadlock_iff_clash (hord _)).2 ?_)
    rw [runMoves_append]
    exact clash_step hm
  · intro h pre hpre
    rw [deadlock_iff_clash (hord pre), not_exists]
    simp only [not_exists]
    induction pre using List.reverseRecOn with
    | nil => exact fun t t' hc => by obtain ⟨n, hn⟩ := hc.2.1; cases hn
    | append_singleton pre m ih =>
      rw [runMoves_append]
      exact no_clash_step (ih ((List.prefix_append pre [m]).trans hpre)) (h pre m hpre)

/-! ## A run into a deadlock -/

/-- The native call succeeds. -/
def fine : Answer := ⟨false, .queryResult, none, false⟩

/-- Thread `t` makes `n` steps. -/
def goes (t : Tid) (n : ℕ) : List Move := List.replicate n (.go t fine)

/-- Thread 0 closes an appender and has its lock, thread 1 closes the connection. -/
def closeBoth : List Move :=
  .call 0 (.closeAppender 0) :: goes 0 4 ++ .call 1 .closeConnection :: goes 1 12 ++ goes 0 1

/-- The lock that comes next on a stack. -/
def nextLock : Code → Option Lock
  | .lock l _ :: _ => some l
  | _ => none

theorem waitsFor_of_nextLock {s : Sys} {t : Tid} {l : Lock} (hw : (s.threads t).waiting = true)
    (hl : nextLock (s.threads t).code = some l) : WaitsFor s t l := by
  refine ⟨hw, ?_⟩
  unfold nextLock at hl
  split at hl
  · next a rest hc =>
    cases hl
    exact ⟨a, rest, hc⟩
  · cases hl

/-- `DuckDBAppender.close` waits for `DuckDBConnection.close`, and the other way round. -/
theorem closeBoth_deadlocks : ¬ ∀ autoCommit isPrepared appenders rowIdx moves,
    ¬ Deadlock (runMoves moves (init autoCommit isPrepared appenders rowIdx)) := by
  intro h
  have h₀ : Waits (runMoves closeBoth (init true (fun _ => false) [0] fun _ => 0)) 0 1 :=
    ⟨.connRef, 1, waitsFor_of_nextLock (by decide +kernel) (by decide +kernel), by decide +kernel,
      by decide⟩
  have h₁ : Waits (runMoves closeBoth (init true (fun _ => false) [0] fun _ => 0)) 1 0 :=
    ⟨.appenderRef 0, 1, waitsFor_of_nextLock (by decide +kernel) (by decide +kernel),
      by decide +kernel, by decide⟩
  exact h true (fun _ => false) [0] (fun _ => 0) closeBoth ⟨0, .tail (.single h₀) h₁⟩

end DuckDBJava.Concurrency
