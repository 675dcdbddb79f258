/-
  Threads over a shared state that take reentrant locks in blocks.

  A thread is a stack of items.  `lock l a` is `l.lock(); try { a } finally { l.unlock(); }`: once
  the thread has `l`, it becomes `a` with `unlock l` below it, so that the locks a thread holds are
  the `unlock`s on its stack.  An exception takes items off the stack; it runs the `unlock`s and
  stops at a `catch`.

  `Discipline`: what every item on a stack satisfies, given the locks below it, because every
  action that runs leaves only such items.
-/
import Mathlib.Algebra.Order.Ring.Int
import Mathlib.Data.List.Count
import Mathlib.Logic.Function.Basic
import Mathlib.Logic.Relation

namespace Threads

/-- Threads, by number. -/
abbrev Tid := ℕ

/-- One item of a thread's stack: an action of `A`, locks of `L`, exceptions of `E`. -/
inductive Item (L A E : Type) where
  | act (a : A)
  /-- `l.lock(); try { a } finally { l.unlock(); }` -/
  | lock (l : L) (a : A)
  | unlock (l : L)
  /-- `catch (e) { a; throw e; }` for the exceptions `p` -/
  | catching (p : E → Bool) (a : A)
  /-- `catch (e) { }` for the exceptions `p` -/
  | swallow (p : E → Bool)
  | rethrow (e : E)

/-- A thread: its stack, the exception it is unwinding for, and whether it waits for a lock. -/
structure Thread (L A E : Type) where
  code : List (Item L A E)
  thrown : Option E
  waiting : Bool

/-- The owners of the locks, with how often they have locked them. -/
abbrev Owners (L : Type) := L → Option (Tid × ℕ)

/-- Shared state, locks and threads. -/
structure System (σ L A E : Type) where
  shared : σ
  owner : Owners L
  threads : Tid → Thread L A E

/-- What an action does: thread, owners, what the outside answers, action and shared state; the
    code that runs next, or an exception. -/
abbrev Semantics (σ L A E N : Type) :=
  Tid → Owners L → N → A → σ → σ × Except E (List (Item L A E))

section
variable {σ L A E N : Type} [DecidableEq L]

/-- The locks a stack holds. -/
def held (code : List (Item L A E)) : List L :=
  code.filterMap fun
    | .unlock l => some l
    | _ => none

/-- How often `t` has locked `l`. -/
def holds (owner : Owners L) (l : L) (t : Tid) : ℕ :=
  match owner l with
  | some (t', n) => if t' = t then n else 0
  | none => 0

/-- `t` can lock `l`. -/
def available (owner : Owners L) (l : L) (t : Tid) : Bool :=
  match owner l with
  | some (t', _) => t' = t
  | none => true

def acquire (owner : Owners L) (l : L) (t : Tid) : Owners L :=
  Function.update owner l (some (t, holds owner l t + 1))

def release (owner : Owners L) (l : L) (t : Tid) : Owners L :=
  Function.update owner l
    (if holds owner l t ≤ 1 then none else some (t, holds owner l t - 1))

def System.setThread (s : System σ L A E) (t : Tid) (th : Thread L A E) : System σ L A E :=
  { s with threads := Function.update s.threads t th }

/-- One step of thread `t`. -/
def stepThread (exec : Semantics σ L A E N) (t : Tid) (n : N) (s : System σ L A E) :
    System σ L A E :=
  match (s.threads t).thrown, (s.threads t).code with
  | _, [] => s.setThread t ⟨[], none, false⟩
  | none, .act a :: rest =>
    match exec t s.owner n a s.shared with
    | (x, .ok code) => { s with shared := x }.setThread t ⟨code ++ rest, none, false⟩
    | (x, .error e) => { s with shared := x }.setThread t ⟨rest, some e, false⟩
  | none, .lock l a :: rest =>
    if available s.owner l t then
      { s with owner := acquire s.owner l t }.setThread t ⟨.act a :: .unlock l :: rest, none, false⟩
    else s.setThread t ⟨.lock l a :: rest, none, true⟩
  | none, .catching _ _ :: rest => s.setThread t ⟨rest, none, false⟩
  | none, .swallow _ :: rest => s.setThread t ⟨rest, none, false⟩
  | none, .rethrow e :: rest => s.setThread t ⟨rest, some e, false⟩
  | thrown, .unlock l :: rest =>
    { s with owner := release s.owner l t }.setThread t ⟨rest, thrown, false⟩
  | some e, .catching p a :: rest =>
    if p e then s.setThread t ⟨.act a :: .rethrow e :: rest, none, false⟩
    else s.setThread t ⟨rest, some e, false⟩
  | some e, .swallow p :: rest => s.setThread t ⟨rest, if p e then none else some e, false⟩
  | some e, _ :: rest => s.setThread t ⟨rest, some e, false⟩

/-- Thread `t` makes a call, if it is in none. -/
def callThread (t : Tid) (a : A) (s : System σ L A E) : System σ L A E :=
  match (s.threads t).thrown, (s.threads t).code with
  | none, [] => s.setThread t ⟨[.act a], none, false⟩
  | _, _ => s

/-- What the scheduler picks: a call of a thread, or its next step with an answer. -/
inductive Pick (A N : Type) where
  | call (t : Tid) (a : A)
  | go (t : Tid) (n : N)

def step (exec : Semantics σ L A E N) (s : System σ L A E) : Pick A N → System σ L A E
  | .call t a => callThread t a s
  | .go t n => stepThread exec t n s

def run (exec : Semantics σ L A E N) (picks : List (Pick A N)) (s : System σ L A E) :
    System σ L A E := picks.foldl (step exec) s

/-! ## Waiting -/

/-- Thread `t` waits for lock `l`. -/
def WaitsFor (s : System σ L A E) (t : Tid) (l : L) : Prop :=
  (s.threads t).waiting = true ∧ ∃ a rest, (s.threads t).code = .lock l a :: rest

/-- Thread `t` waits for a lock of thread `t'`. -/
def Waits (s : System σ L A E) (t t' : Tid) : Prop :=
  ∃ l n, WaitsFor s t l ∧ s.owner l = some (t', n) ∧ t' ≠ t

/-- Threads wait for each other's locks in a cycle. -/
def Deadlock (s : System σ L A E) : Prop := ∃ t, Relation.TransGen (Waits s) t t

omit [DecidableEq L] in
/-- In a cycle every thread waits for the next. -/
theorem cycle_next {s : System σ L A E} {t : Tid} (h : Relation.TransGen (Waits s) t t) :
    ∃ t', Waits s t t' ∧ Relation.TransGen (Waits s) t' t' := by
  obtain ⟨t', ht, hr⟩ := Relation.TransGen.head'_iff.1 h
  exact ⟨t', ht, Relation.TransGen.tail' hr ht⟩

omit [DecidableEq L] in
/-- In a cycle every thread is waited for. -/
theorem cycle_prev {s : System σ L A E} {t : Tid} (h : Relation.TransGen (Waits s) t t) :
    ∃ t', Waits s t' t ∧ Relation.TransGen (Waits s) t' t' := by
  obtain ⟨t', hr, ht⟩ := Relation.TransGen.tail'_iff.1 h
  exact ⟨t', ht, Relation.TransGen.head' ht hr⟩

/-! ## Owners -/

omit [DecidableEq L] in
theorem owner_of_holds {owner : Owners L} {l : L} {t : Tid} (h : 0 < holds owner l t) :
    ∃ n, owner l = some (t, n) ∧ holds owner l t = n := by
  unfold holds at h ⊢
  split at h
  · next t' n ho =>
    split at h
    · next ht => exact ⟨n, ht ▸ ho, if_pos ht⟩
    · exact absurd h (Nat.lt_irrefl 0)
  · exact absurd h (Nat.lt_irrefl 0)

theorem holds_acquire (owner : Owners L) (l l' : L) {t : Tid} (t' : Tid)
    (h : available owner l t = true) :
    holds (acquire owner l t) l' t' =
      holds owner l' t' + (if l' = l ∧ t' = t then 1 else 0) := by
  by_cases hl : l' = l
  · subst hl
    simp only [holds, acquire, Function.update_self, available] at h ⊢
    cases ho : owner l' with
    | none => simp [eq_comm]
    | some x =>
      obtain ⟨t'', n⟩ := x
      rw [ho] at h
      have ht : t'' = t := by simpa using h
      by_cases htt : t' = t
      · simp [htt, ht]
      · simp [htt, ht, Ne.symm htt]
  · simp [holds, acquire, hl]

theorem holds_release (owner : Owners L) (l l' : L) {t : Tid} (t' : Tid)
    (h : 0 < holds owner l t) :
    holds (release owner l t) l' t' =
      holds owner l' t' - (if l' = l ∧ t' = t then 1 else 0) := by
  by_cases hl : l' = l
  · subst hl
    obtain ⟨n, hn, hold⟩ := owner_of_holds h
    simp only [release, hold]
    by_cases ht : t = t'
    · subst ht
      by_cases h1 : n ≤ 1
      · simp [h1, holds, hn]
      · simp [h1, holds, hn]
    · by_cases h1 : n ≤ 1
      · simp [h1, holds, hn, ht, Ne.symm ht]
      · simp [h1, ht, Ne.symm ht, holds, hn]
  · simp [holds, release, hl]

theorem acquire_eq {owner : Owners L} {l l' : L} {t t' : Tid} {m : ℕ}
    (h : acquire owner l t l' = some (t', m)) : t' = t ∧ 0 < m ∨ owner l' = some (t', m) := by
  by_cases hl : l' = l
  · subst hl
    rw [acquire, Function.update_self] at h
    cases h
    exact .inl ⟨rfl, Nat.succ_pos _⟩
  · rw [acquire, Function.update_of_ne hl] at h
    exact .inr h

theorem release_eq {owner : Owners L} {l l' : L} {t t' : Tid} {m : ℕ}
    (h : release owner l t l' = some (t', m)) : t' = t ∧ 0 < m ∨ owner l' = some (t', m) := by
  by_cases hl : l' = l
  · subst hl
    rw [release, Function.update_self] at h
    split at h
    · cases h
    · cases h
      exact .inl ⟨rfl, by omega⟩
  · rw [release, Function.update_of_ne hl] at h
    exact .inr h

/-! ## Steps -/

/-- The ways thread `t` makes a step. -/
inductive Stepped (exec : Semantics σ L A E N) (t : Tid) (n : N) (s : System σ L A E) :
    System σ L A E → Prop
  | idle : (s.threads t).code = [] → Stepped exec t n s (s.setThread t ⟨[], none, false⟩)
  | acts {a rest x code} : (s.threads t).thrown = none → (s.threads t).code = .act a :: rest →
      exec t s.owner n a s.shared = (x, .ok code) →
      Stepped exec t n s ({ s with shared := x }.setThread t ⟨code ++ rest, none, false⟩)
  | throws {a rest x e} : (s.threads t).thrown = none → (s.threads t).code = .act a :: rest →
      exec t s.owner n a s.shared = (x, .error e) →
      Stepped exec t n s ({ s with shared := x }.setThread t ⟨rest, some e, false⟩)
  | locks {l a rest} : (s.threads t).thrown = none → (s.threads t).code = .lock l a :: rest →
      available s.owner l t = true → Stepped exec t n s
        ({ s with owner := acquire s.owner l t }.setThread t
          ⟨.act a :: .unlock l :: rest, none, false⟩)
  | waits {l a rest} : (s.threads t).thrown = none → (s.threads t).code = .lock l a :: rest →
      available s.owner l t = false →
      Stepped exec t n s (s.setThread t ⟨.lock l a :: rest, none, true⟩)
  | unlocks {l rest} : (s.threads t).code = .unlock l :: rest → Stepped exec t n s
      ({ s with owner := release s.owner l t }.setThread t ⟨rest, (s.threads t).thrown, false⟩)
  | catches {e p a rest} : (s.threads t).thrown = some e →
      (s.threads t).code = .catching p a :: rest →
      Stepped exec t n s (s.setThread t ⟨.act a :: .rethrow e :: rest, none, false⟩)
  | drops {i rest} (thrown : Option E) : (s.threads t).code = i :: rest →
      (∀ l, i ≠ .unlock l) → Stepped exec t n s (s.setThread t ⟨rest, thrown, false⟩)

theorem stepThread_stepped (exec : Semantics σ L A E N) (t : Tid) (n : N) (s : System σ L A E) :
    Stepped exec t n s (stepThread exec t n s) := by
  unfold stepThread
  cases ht : (s.threads t).thrown with
  | none =>
    cases hc : (s.threads t).code with
    | nil => exact .idle hc
    | cons i rest =>
      cases i with
      | act a =>
        dsimp only
        rcases hx : exec t s.owner n a s.shared with ⟨x, e | code⟩
        · exact .throws ht hc hx
        · exact .acts ht hc hx
      | lock l a =>
        dsimp only
        cases ha : available s.owner l t with
        | true => exact .locks ht hc ha
        | false => exact .waits ht hc ha
      | unlock l =>
        have h : Stepped exec t n s _ := .unlocks hc
        rwa [ht] at h
      | catching p a => exact .drops none hc nofun
      | swallow p => exact .drops none hc nofun
      | rethrow e => exact .drops (some e) hc nofun
  | some e =>
    cases hc : (s.threads t).code with
    | nil => exact .idle hc
    | cons i rest =>
      cases i with
      | act a => exact .drops (some e) hc nofun
      | lock l a => exact .drops (some e) hc nofun
      | unlock l =>
        have h : Stepped exec t n s _ := .unlocks hc
        rwa [ht] at h
      | catching p a =>
        dsimp only
        split
        · exact .catches ht hc
        · exact .drops (some e) hc nofun
      | swallow p => exact .drops _ hc nofun
      | rethrow e => exact .drops _ hc nofun

/-- What remains of a thread after its action. -/
def after : Except E (List (Item L A E)) → List (Item L A E) → Thread L A E
  | .ok code, rest => ⟨code ++ rest, none, false⟩
  | .error e, rest => ⟨rest, some e, false⟩

/-- The ways a thread makes a step without an action. -/
inductive Turns : Thread L A E → Thread L A E → Prop
  | idle {thrown w} : Turns ⟨[], thrown, w⟩ ⟨[], none, false⟩
  | locks {l a rest w} :
    Turns ⟨.lock l a :: rest, none, w⟩ ⟨.act a :: .unlock l :: rest, none, false⟩
  | waits {l a rest w} : Turns ⟨.lock l a :: rest, none, w⟩ ⟨.lock l a :: rest, none, true⟩
  | unlocks {l rest w} : Turns ⟨.unlock l :: rest, none, w⟩ ⟨rest, none, false⟩
  | leaves {p a rest w} : Turns ⟨.catching p a :: rest, none, w⟩ ⟨rest, none, false⟩
  | passes {p rest thrown w} : Turns ⟨.swallow p :: rest, thrown, w⟩ ⟨rest, none, false⟩
  | rethrows {e rest w} : Turns ⟨.rethrow e :: rest, none, w⟩ ⟨rest, some e, false⟩
  | catches {p a e rest w} :
    Turns ⟨.catching p a :: rest, some e, w⟩ ⟨.act a :: .rethrow e :: rest, none, false⟩
  | unwinds {i e rest w} : Turns ⟨i :: rest, some e, w⟩ ⟨rest, some e, false⟩

omit [DecidableEq L] in
/-- A thread at an action does not pass it by. -/
theorem Turns.not_act {th th' : Thread L A E} {a : A} {rest : List (Item L A E)}
    (h : Turns th th') (hthrown : th.thrown = none) : th.code ≠ .act a :: rest := by
  intro hcode
  cases h with
  | catches => cases hthrown
  | unwinds => cases hthrown
  | _ => cases hcode

/-- A thread runs an action, or makes a step without one. -/
theorem stepThread_acts_or_turns (exec : Semantics σ L A E N) (t : Tid) (n : N)
    (s : System σ L A E) :
    (∃ a rest, (s.threads t).thrown = none ∧ (s.threads t).code = .act a :: rest ∧
      stepThread exec t n s = { s with shared := (exec t s.owner n a s.shared).1 }.setThread t
        (after (exec t s.owner n a s.shared).2 rest)) ∨
    ∃ owner th, Turns (s.threads t) th ∧
      stepThread exec t n s = { s with owner := owner }.setThread t th := by
  unfold stepThread
  obtain ⟨code, thrown, w⟩ := s.threads t
  cases code with
  | nil => exact .inr ⟨_, _, .idle, by cases thrown <;> rfl⟩
  | cons i rest =>
    cases thrown with
    | none =>
      cases i with
      | act a =>
        refine .inl ⟨a, rest, rfl, rfl, ?_⟩
        dsimp only
        rcases exec t s.owner n a s.shared with ⟨x, e | code⟩
        · rfl
        · rfl
      | lock l a =>
        dsimp only
        split
        · exact .inr ⟨_, _, .locks, rfl⟩
        · exact .inr ⟨_, _, .waits, rfl⟩
      | unlock l => exact .inr ⟨_, _, .unlocks, rfl⟩
      | catching p a => exact .inr ⟨_, _, .leaves, rfl⟩
      | swallow p => exact .inr ⟨_, _, .passes, rfl⟩
      | rethrow e => exact .inr ⟨_, _, .rethrows, rfl⟩
    | some e =>
      cases i with
      | catching p a =>
        dsimp only
        split
        · exact .inr ⟨_, _, .catches, rfl⟩
        · exact .inr ⟨_, _, .unwinds, rfl⟩
      | swallow p =>
        dsimp only
        cases p e with
        | true => exact .inr ⟨_, _, .passes, rfl⟩
        | false => exact .inr ⟨_, _, .unwinds, rfl⟩
      | _ => exact .inr ⟨_, _, .unwinds, rfl⟩

section
variable {exec : Semantics σ L A E N} {t : Tid} {n : N} {s u : System σ L A E}

omit [DecidableEq L] in
@[simp] theorem setThread_self (s : System σ L A E) (t : Tid) (th : Thread L A E) :
    (s.setThread t th).threads t = th := by
  simp [System.setThread]

omit [DecidableEq L] in
theorem setThread_of_ne (s : System σ L A E) {t t' : Tid} (th : Thread L A E) (h : t' ≠ t) :
    (s.setThread t th).threads t' = s.threads t' := by
  simp [System.setThread, h]

omit [DecidableEq L] in
/-- What holds of the new stack of `t`, and of the other threads. -/
theorem setThread_forall {s : System σ L A E} {t : Tid} {th : Thread L A E}
    {P : Tid → Thread L A E → Prop} (ht : P t th) (hother : ∀ t', t' ≠ t → P t' (s.threads t'))
    (t' : Tid) : P t' ((s.setThread t th).threads t') := by
  by_cases h : t' = t
  · subst h
    rwa [setThread_self]
  · rw [setThread_of_ne _ _ h]
    exact hother t' h

/-- A step of `t` leaves the other threads alone. -/
theorem Stepped.threads_of_ne (h : Stepped exec t n s u) {t' : Tid} (ht : t' ≠ t) :
    u.threads t' = s.threads t' := by
  cases h <;> exact setThread_of_ne _ _ ht

/-- A step of `t` gives no lock to another thread. -/
theorem Stepped.owner_of_ne (h : Stepped exec t n s u) {l : L} {t' : Tid} {m : ℕ} (ht : t' ≠ t)
    (hl : u.owner l = some (t', m)) : s.owner l = some (t', m) := by
  cases h with
  | locks => exact (acquire_eq hl).resolve_left fun h => ht h.1
  | unlocks => exact (release_eq hl).resolve_left fun h => ht h.1
  | _ => exact hl

/-- A step of `t` leaves `t` waiting only for a lock it has tried to take. -/
theorem Stepped.waiting (h : Stepped exec t n s u) (hw : (u.threads t).waiting = true) :
    u.owner = s.owner ∧ (s.threads t).thrown = none ∧
      ∃ l a rest, (s.threads t).code = .lock l a :: rest ∧ available s.owner l t = false ∧
        (u.threads t).code = .lock l a :: rest := by
  cases h with
  | waits ht hc ha => exact ⟨rfl, ht, _, _, _, hc, ha, by simp⟩
  | _ => simp at hw

end

/-! ## Disciplines -/

/-- `Fine t H i`: thread `t` may have item `i` above the locks `H`. -/
structure Discipline (exec : Semantics σ L A E N) (Fine : Tid → List L → Item L A E → Prop) :
    Prop where
  act : ∀ {t owner n a x y code H}, Fine t H (.act a) → exec t owner n a x = (y, .ok code) →
    held code = [] ∧ ∀ i ∈ code, Fine t H i
  lock : ∀ {t H l a}, Fine t H (.lock l a) → Fine t (l :: H) (.act a) ∧ Fine t H (.unlock l)
  catching : ∀ {t H p a}, Fine t H (.catching p a) → Fine t H (.act a)
  rethrow : ∀ {t H e}, Fine t H (.rethrow e)

/-- Every item of the stack is fine above the locks below it. -/
def FineCode (Fine : Tid → List L → Item L A E → Prop) (t : Tid) : List (Item L A E) → Prop
  | [] => True
  | i :: rest => Fine t (held rest) i ∧ FineCode Fine t rest

/-- The owners are the threads with the `unlock`s, and every stack is fine. -/
structure Orderly (Fine : Tid → List L → Item L A E → Prop) (s : System σ L A E) : Prop where
  ledger : ∀ l t, (held (s.threads t).code).count l = holds s.owner l t
  pos : ∀ l t n, s.owner l = some (t, n) → 0 < n
  fine : ∀ t, FineCode Fine t (s.threads t).code

section
variable {Fine : Tid → List L → Item L A E → Prop}

omit [DecidableEq L] in
theorem held_append (code rest : List (Item L A E)) :
    held (code ++ rest) = held code ++ held rest := List.filterMap_append

omit [DecidableEq L] in
theorem FineCode.append {t : Tid} {code rest : List (Item L A E)} (hcode : held code = [])
    (hfine : ∀ i ∈ code, Fine t (held rest) i) (hrest : FineCode Fine t rest) :
    FineCode Fine t (code ++ rest) := by
  induction code with
  | nil => exact hrest
  | cons i code ih =>
    have htail : held code = [] := by
      cases i <;> first | exact hcode | cases hcode
    refine ⟨?_, ih htail fun j hj => hfine j (List.mem_cons_of_mem i hj)⟩
    show Fine t (held (code ++ rest)) i
    rw [held_append, htail]
    exact hfine i List.mem_cons_self

omit [DecidableEq L] in
/-- An item on the stack, with the locks below it. -/
theorem FineCode.mem_held {t : Tid} {code : List (Item L A E)} (h : FineCode Fine t code) {l : L}
    (hl : l ∈ held code) : ∃ H, Fine t H (.unlock l) ∧ ∀ l' ∈ H, l' ∈ held code := by
  induction code with
  | nil => cases hl
  | cons i rest ih =>
    have hsub : ∀ l' ∈ held rest, l' ∈ held (i :: rest) := by
      intro l' hl'
      cases i <;> first | exact hl' | exact List.mem_cons_of_mem _ hl'
    have htail : l ∈ held rest → ∃ H, Fine t H (.unlock l) ∧ ∀ l' ∈ H, l' ∈ held (i :: rest) := by
      intro hr
      obtain ⟨H, hH, hHr⟩ := ih h.2 hr
      exact ⟨H, hH, fun l' hl' => hsub l' (hHr l' hl')⟩
    cases i with
    | unlock l' =>
      rcases List.mem_cons.1 hl with rfl | hr
      · exact ⟨held rest, h.1, hsub⟩
      · exact htail hr
    | _ => exact htail hl

/-- The owner of a lock is the thread that holds it. -/
theorem Orderly.mem_held_iff {s : System σ L A E} (h : Orderly Fine s) {l : L} {t : Tid} :
    l ∈ held (s.threads t).code ↔ ∃ n, s.owner l = some (t, n) := by
  constructor
  · intro hl
    have hpos : 0 < holds s.owner l t := by
      rw [← h.ledger]
      exact List.count_pos_iff.2 hl
    obtain ⟨n, hn, -⟩ := owner_of_holds hpos
    exact ⟨n, hn⟩
  · rintro ⟨n, hn⟩
    refine List.count_pos_iff.1 ?_
    rw [h.ledger, holds, hn]
    simpa using h.pos l t n hn

/-- Another stack for `t`, with the locks of `t` changed to match. -/
theorem Orderly.setThread {s u : System σ L A E} (h : Orderly Fine s) {t : Tid}
    {th : Thread L A E} (hthreads : u.threads = s.threads)
    (hpos : ∀ l t n, u.owner l = some (t, n) → 0 < n)
    (hledger : ∀ l t',
      holds u.owner l t' + (if t' = t then (held (s.threads t).code).count l else 0) =
      holds s.owner l t' + (if t' = t then (held th.code).count l else 0))
    (hfine : FineCode Fine t th.code) : Orderly Fine (u.setThread t th) := by
  have howner : (u.setThread t th).owner = u.owner := rfl
  refine ⟨fun l t' => ?_, hpos, fun t' => ?_⟩
  · have hl := hledger l t'
    by_cases ht : t' = t
    · subst ht
      rw [setThread_self, howner]
      rw [if_pos rfl, if_pos rfl, h.ledger] at hl
      omega
    · rw [setThread_of_ne _ _ ht, howner, hthreads, h.ledger]
      rw [if_neg ht, if_neg ht] at hl
      omega
  · by_cases ht : t' = t
    · subst ht
      rw [setThread_self]
      exact hfine
    · rw [setThread_of_ne _ _ ht, hthreads]
      exact h.fine t'

/-- **A step** keeps the discipline. -/
theorem Orderly.stepped {exec : Semantics σ L A E N} (hd : Discipline exec Fine) {t : Tid} {n : N}
    {s u : System σ L A E} (h : Orderly Fine s) (hu : Stepped exec t n s u) : Orderly Fine u := by
  have hfine := h.fine t
  have hledger := h.ledger
  cases hu with
  | idle hc =>
    exact h.setThread rfl h.pos (fun l t' => by simp [hc, held]) trivial
  | acts ht hc hx =>
    rw [hc] at hfine
    obtain ⟨hcode, hitems⟩ := hd.act hfine.1 hx
    refine h.setThread rfl h.pos (fun l t' => ?_) (.append hcode hitems hfine.2)
    rw [hc, held_append, hcode]
    rfl
  | throws ht hc hx =>
    rw [hc] at hfine
    exact h.setThread rfl h.pos (fun l t' => by rw [hc]; rfl) hfine.2
  | @locks l a rest ht hc ha =>
    rw [hc] at hfine
    obtain ⟨hact, hun⟩ := hd.lock hfine.1
    refine h.setThread rfl (fun l' t' m hm => ?_) (fun l' t' => ?_) ⟨hact, hun, hfine.2⟩
    · exact (acquire_eq hm).elim And.right (h.pos l' t' m)
    show holds (acquire s.owner l t) l' t' + _ = _ + if t' = t then (l :: held rest).count l' else 0
    rw [holds_acquire _ _ _ _ ha, List.count_cons, hc]
    by_cases ht' : t' = t
    · by_cases hl : l' = l
      · simp only [ht', hl, if_true, and_self, beq_self_eq_true]
        show _ + (held rest).count l = _
        omega
      · have hl' : ¬ l = l' := fun he => hl he.symm
        simp only [ht', hl, hl', if_true, if_false, false_and, beq_iff_eq]
        rfl
    · simp only [ht', if_false, and_false]
  | waits ht hc ha =>
    rw [hc] at hfine
    exact h.setThread rfl h.pos (fun l t' => by rw [hc]) hfine
  | @unlocks l rest hc =>
    rw [hc] at hfine
    have hheld : held (s.threads t).code = l :: held rest := by rw [hc]; rfl
    have hpos : 0 < holds s.owner l t := by
      rw [← hledger, hheld, List.count_cons_self]
      exact Nat.succ_pos _
    refine h.setThread rfl (fun l' t' m hm => ?_) (fun l' t' => ?_) hfine.2
    · exact (release_eq hm).elim And.right (h.pos l' t' m)
    show holds (release s.owner l t) l' t' + _ = _
    rw [holds_release _ _ _ _ hpos, hheld, List.count_cons]
    by_cases ht' : t' = t
    · by_cases hl : l' = l
      · simp only [ht', hl, if_true, and_self, beq_self_eq_true]
        omega
      · have hl' : ¬ l = l' := fun he => hl he.symm
        simp only [ht', hl, hl', if_true, if_false, false_and, beq_iff_eq]
        rfl
    · simp only [ht', if_false, and_false]
      rfl
  | catches ht hc =>
    rw [hc] at hfine
    exact h.setThread rfl h.pos (fun l t' => by rw [hc]; rfl)
      ⟨hd.catching hfine.1, hd.rethrow, hfine.2⟩
  | @drops i rest thrown hc hi =>
    rw [hc] at hfine
    refine h.setThread rfl h.pos (fun l t' => ?_) hfine.2
    rw [hc]
    cases i with
    | unlock l => exact absurd rfl (hi l)
    | _ => rfl

/-- **A call** keeps the discipline. -/
theorem Orderly.callThread {t : Tid} {a : A} {s : System σ L A E} (h : Orderly Fine s)
    (ha : Fine t [] (.act a)) : Orderly Fine (callThread t a s) := by
  unfold Threads.callThread
  split
  · next _ _ _ hc =>
    exact h.setThread rfl h.pos (fun l t' => by simp [hc, held]) ⟨ha, trivial⟩
  · exact h

end

end

end Threads
