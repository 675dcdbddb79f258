/-
  The query that runs.

  A thread enters the engine with a reference that is open and whose lock it has, and it leaves the
  engine before it runs anything else; so others can neither close the reference in between nor,
  because what is open is closed first, disconnect.

  **`running_open`**: in every reachable state the query that runs has an open reference on an
  open connection.
-/
import DuckDBJava.Concurrency.Disconnect

namespace DuckDBJava.Concurrency

open Threads Connection

/-- The action starts a query or ends it. -/
def Action.inEngine : Action → Bool
  | .enterEngine _ _ _ | .leaveEngine _ _ _ => true
  | _ => false

/-- The item neither starts a query nor ends one. -/
def Calm : Item Lock Action Thrown → Prop
  | .act a | .lock _ a | .catching _ a => a.inEngine = false
  | .unlock _ | .swallow _ | .rethrow _ => True

/-- Reference `x` is that of a query of statement `k`, with `rest` below the query. -/
def Reference (k : StmtId) (rest : Code) : Handle → Prop
  | .stmt k' => k' = k
  | .pending p => ∃ f rest', rest = .act (.setPendingQuery f p) :: rest'

/-- A query of statement `k` above `rest` has its reference `x` open, and its lock. -/
structure HasReference (v : View) (k : StmtId) (x : Handle) (rest : Code) : Prop where
  reference : Reference k rest x
  live : v.live x = true
  lock : x.lock ∈ held rest

/-- A query is started by the first item of the stack only, and then left. -/
inductive Enters (v : View) : Option Thrown → Code → Prop
  | calm {thrown code} : (∀ i ∈ code, Calm i) → Enters v thrown code
  | enters {k f x rest} : (∀ i ∈ rest, Calm i) → HasReference v k x rest →
    Enters v none (.act (.enterEngine k f x) :: .act (.leaveEngine k f x) :: rest)
  | inside {k f x rest} : (∀ i ∈ rest, Calm i) → HasReference v k x rest →
    v.running = some (k, f) → Enters v none (.act (.leaveEngine k f x) :: rest)

/-- The query that runs, and those that start. -/
structure Engine (s : Sys) : Prop where
  running : ∀ k f, s.shared.running = some (k, f) → ∃ t x rest, (s.threads t).thrown = none ∧
    (s.threads t).code = .act (.leaveEngine k f x) :: rest
  entering : ∀ t, Enters s.shared.view (s.threads t).thrown (s.threads t).code

section
variable {v : View} {thrown : Option Thrown} {rest : Code}

theorem Enters.tail {a : Action} (h : Enters v thrown (.act a :: rest))
    (ha : ∀ k f x, a ≠ .enterEngine k f x) : ∀ i ∈ rest, Calm i := by
  cases h with
  | calm h => exact (List.forall_mem_cons.1 h).2
  | enters => exact absurd rfl (ha _ _ _)
  | inside h => exact h

/-- A thread in the engine runs the query. -/
theorem Enters.running {k : StmtId} {f : ℕ} {x : Handle}
    (h : Enters v thrown (.act (.leaveEngine k f x) :: rest)) :
    v.running = some (k, f) ∧ HasReference v k x rest := by
  cases h with
  | calm h => cases (List.forall_mem_cons.1 h).1
  | inside _ href hrun => exact ⟨hrun, href⟩

/-- A thread that starts or ends a query does that next. -/
theorem Enters.turns {th th' : Thread Lock Action Thrown} (h : Enters v th.thrown th.code)
    (ht : Turns th th') : Enters v th'.thrown th'.code := by
  have hcalm : ∀ i ∈ th.code, Calm i := by
    generalize hthrown : th.thrown = thrown at h
    generalize hcode : th.code = code at h
    cases h with
    | calm h => exact h
    | enters => exact absurd hcode (ht.not_act hthrown)
    | inside => exact absurd hcode (ht.not_act hthrown)
  refine .calm ?_
  cases ht with
  | idle | waits => exact hcalm
  | locks | catches =>
    obtain ⟨hi, hrest⟩ := List.forall_mem_cons.1 hcalm
    exact List.forall_mem_cons.2 ⟨hi, List.forall_mem_cons.2 ⟨trivial, hrest⟩⟩
  | _ => exact (List.forall_mem_cons.1 hcalm).2

end

/-! ## Other threads -/

/-- What an action closes, it closes under the lock. -/
theorem Effect.closes_guard {ρ : Targets} {v v' : View} {a : Action} (h : Effect v a v')
    (hs : Sound ρ v) {x : Handle} (hl : v.live x = true) :
    v'.live x = true ∨ x.lock ∈ a.guard := by
  cases x with
  | pending p =>
    have hp : v.pendings p = true := hl
    cases h with
    | openPending => exact .inl (update_true hp)
    | @closePending q f _ =>
      rcases update_false_or (i := q) hp with hp | rfl
      · exact .inl hp
      · exact .inr List.mem_cons_self
    | _ => exact .inl hp
  | stmt k =>
    have hk : v.hasStmtRef k = true := hl
    cases h with
    | openStmt => exact .inl (update_true hk)
    | newStmt t =>
      rcases update_false_or (i := .inner t v.fresh) hk with hk | rfl
      · exact .inl hk
      · exact absurd (hs.known _ (hs.tracked _ hk)) (lt_irrefl _)
    | @releaseStmt j =>
      rcases update_false_or (i := j) hk with hk | rfl
      · exact .inl hk
      · exact .inr List.mem_cons_self
    | @closeStmt j f =>
      rcases update_false_or (i := j) hk with hk | rfl
      · exact .inl hk
      · exact .inr List.mem_cons_self
    | _ => exact .inl hk

/-- The query that runs changes when a query starts or ends. -/
theorem Effect.running {v v' : View} {a : Action} (h : Effect v a v') :
    v'.running = v.running ∨ (v'.running = none ∧ ∃ k f x, a = .leaveEngine k f x) ∨
      v.running = none ∧ ∃ k f x, a = .enterEngine k f x ∧ v'.running = some (k, f) := by
  cases h with
  | enter hrun => exact .inr (.inr ⟨hrun, _, _, _, rfl, rfl⟩)
  | leave => exact .inr (.inl ⟨rfl, _, _, _, rfl⟩)
  | _ => exact .inl rfl

section
variable {s : Sys} {t : Tid} {ρ : Targets}

/-- A thread in the engine has the lock of its statement, and the query runs. -/
theorem Engine.inside (he : Engine s) (h : Inv ρ s) {k : StmtId} {f : ℕ} {x : Handle} {rest : Code}
    (hcode : (s.threads t).code = .act (.leaveEngine k f x) :: rest) :
    s.shared.running = some (k, f) ∧ .stmtRef k ∈ held (s.threads t).code := by
  have hent := he.entering t
  rw [hcode] at hent
  refine ⟨hent.running.1, h.orderly.mem_held_iff.2 ?_⟩
  exact owner_of_refs h.orderly hcode (List.mem_cons_of_mem _ List.mem_cons_self)

/-- Another thread's action leaves the reference of a query alone. -/
theorem Inv.hasReference (h : Inv ρ s) {t' : Tid} (ht' : t' ≠ t) {a : Action} {v' : View}
    (heff : Effect s.shared.view a v') (hheld : ∀ l ∈ a.guard, l ∈ held (s.threads t).code)
    {k : StmtId} {x : Handle} {rest : Code} (hsub : ∀ l ∈ held rest, l ∈ held (s.threads t').code)
    (href : HasReference s.shared.view k x rest) : HasReference v' k x rest := by
  refine ⟨href.reference, ?_, href.lock⟩
  rcases heff.closes_guard h.sound href.live with hl | hguard
  · exact hl
  · exact absurd (h.held_unique (hheld _ hguard) (hsub _ href.lock)) ht'

/-- Another thread ends no query but its own. -/
theorem Engine.keeps_running (he : Engine s) (h : Inv ρ s) {t' : Tid} (ht' : t' ≠ t) {a : Action}
    {rest : Code} (hcode : (s.threads t).code = .act a :: rest) {v' : View}
    (heff : Effect s.shared.view a v') {k : StmtId} {f : ℕ} {x : Handle} {rest' : Code}
    (hcode' : (s.threads t').code = .act (.leaveEngine k f x) :: rest') :
    v'.running = some (k, f) := by
  obtain ⟨hrun, hlock⟩ := he.inside h hcode'
  rcases heff.running with heq | ⟨-, k₁, f₁, x₁, rfl⟩ | ⟨hnone, -⟩
  · exact heq.trans hrun
  · obtain ⟨hrun₁, hlock₁⟩ := he.inside h hcode
    obtain ⟨rfl, rfl⟩ : k₁ = k ∧ f₁ = f := by simpa using hrun₁.symm.trans hrun
    exact absurd (h.held_unique hlock₁ hlock) ht'
  · cases hnone.symm.trans hrun

end

/-! ## Actions -/

/-- The action may leave code that starts a query. -/
def Action.queries : Action → Bool
  | .executeNative _ _ | .executePendingBody _ _ _ | .enterEngine _ _ _ => true
  | _ => false

theorem leaves_calm {t : Tid} {σ : Shared} {a : Action} (ha : a.queries = false) :
    (leaves t σ a).Forall Calm := by
  cases a with
  | prepare | getString | fetchConn | castConn | cancel | cancelLocked | untrackStmt
  | untrackPending | closeCompleted | flush | closeAppender | closeConn => rfl
  | prepareTry | prepareBody | prepareConn | prepareLocked | executeSql | execute | executeTry
  | executeBody | executeDirect | next | fetchChunk | closeStmt | closeStmtBody | closePending
  | closeResult | closeAppenderRest => exact ⟨rfl, rfl⟩
  | closeQuietly | runCancelTask => exact ⟨rfl, trivial⟩
  | closeAppenderBody => exact ⟨rfl, trivial, rfl⟩
  | ensureTransaction => exact ⟨rfl, rfl, rfl⟩
  | executeStart | executeDispatch => exact ⟨rfl, rfl, rfl, rfl⟩
  | closeConnBody => exact ⟨rfl, trivial, rfl, rfl, rfl, rfl⟩
  | executePending k f =>
    show ((σ.locals f).pending.toList.map _).Forall _
    cases (σ.locals f).pending with
    | none => trivial
    | some p => rfl
  | executeFinally k f =>
    show (((σ.locals f).pendingQuery.toList.map _) ++ _).Forall _
    cases (σ.locals f).pendingQuery with
    | none => rfl
    | some p => exact ⟨rfl, rfl⟩
  | executeFailed k f | readChangedRows k =>
    show (((σ.stmts k).selectResult.toList.map _) ++ _).Forall _
    cases (σ.stmts k).selectResult with
    | none => rfl
    | some n => exact ⟨rfl, rfl⟩
  | closeChangedRows k | closeSelectResult k =>
    show ((σ.stmts k).selectResult.toList.map _).Forall _
    cases (σ.stmts k).selectResult with
    | none => trivial
    | some n => rfl
  | closePendings | closeStmts | closeAppenders =>
    refine List.forall_append.2 ⟨List.forall_iff_forall_mem.2 fun i hi => ?_, rfl⟩
    obtain ⟨p, -, rfl⟩ := List.mem_map.1 hi
    rfl
  | executeNative | executePendingBody | enterEngine => cases ha
  | _ => trivial

/-- **What an action leaves** starts a query with an open reference. -/
theorem Enters.acts {t : Tid} {owner : Owners Lock} {ans : Answer} {σ : Shared} {a : Action}
    {code rest : Code} (h : Enters σ.view none (.act a :: rest)) (hguard : a.guard ⊆ held rest)
    (hx : (exec t owner ans a σ).2 = .ok code) :
    Enters (exec t owner ans a σ).1.view none (code ++ rest) := by
  cases hq : a.queries with
  | false =>
    have hrest : ∀ i ∈ rest, Calm i := h.tail (by rintro k f x rfl; cases hq)
    refine .calm fun i hi => ?_
    rcases List.mem_append.1 hi with hi | hi
    · exact List.forall_iff_forall_mem.1 (leaves_calm hq) i (exec_leaves owner ans σ a code hx hi)
    · exact hrest i hi
  | true =>
    cases a with
    | executeNative k f =>
      have hrest := h.tail nofun
      change (executeNative σ k f).2 = _ at hx
      show Enters (executeNative σ k f).1.view _ _
      unfold executeNative at hx ⊢
      dsimp only at hx ⊢
      split at hx
      · next hprep =>
        rw [if_pos hprep]
        split at hx
        · next href =>
          rw [if_pos href]
          cases hx
          exact .enters hrest ⟨rfl, href, hguard List.mem_cons_self⟩
        · cases hx
      · next hprep =>
        rw [if_neg hprep]
        split at hx
        · next hconn =>
          rw [if_pos hconn]
          cases hx
          exact .calm (List.forall_mem_cons.2 ⟨rfl, List.forall_mem_cons.2 ⟨rfl, hrest⟩⟩)
        · cases hx
    | executePendingBody k f p =>
      have hrest := h.tail nofun
      change (executePendingBody σ k f p).2 = _ at hx
      show Enters (executePendingBody σ k f p).1.view _ _
      unfold executePendingBody at hx ⊢
      split at hx
      · next hp =>
        rw [if_pos hp]
        cases hx
        refine .enters (List.forall_mem_cons.2 ⟨rfl, hrest⟩) ⟨⟨f, rest, rfl⟩, hp, ?_⟩
        exact hguard List.mem_cons_self
      · cases hx
    | enterEngine k f x =>
      change (enterEngine σ k f x).2 = _ at hx
      show Enters (enterEngine σ k f x).1.view _ _
      unfold enterEngine at hx ⊢
      split at hx
      · next hrun =>
        rw [if_pos hrun]
        cases hx
        cases h with
        | calm h => cases (List.forall_mem_cons.1 h).1
        | enters hrest href => exact .inside hrest ⟨href.reference, href.live, href.lock⟩ rfl
      · next hrun =>
        rw [if_neg hrun]
        cases hx
        exact h
    | _ => cases hq

/-- The start of a query waits, but does not fail. -/
theorem enterEngine_ok {t : Tid} {owner : Owners Lock} {ans : Answer} {k : StmtId} {f : ℕ}
    {x : Handle} {σ : Shared} {e : Thrown} :
    (exec t owner ans (.enterEngine k f x) σ).2 ≠ .error e := by
  show (enterEngine σ k f x).2 ≠ _
  unfold enterEngine
  split
  · nofun
  · nofun

theorem leaveEngine_running {t : Tid} {owner : Owners Lock} {ans : Answer} {k : StmtId} {f : ℕ}
    {x : Handle} {σ : Shared} : (exec t owner ans (.leaveEngine k f x) σ).1.running = none := by
  show (leaveEngine σ ans f).1.running = none
  unfold leaveEngine
  dsimp only
  split
  · rfl
  · rfl

theorem exec_enterEngine {t : Tid} {owner : Owners Lock} {ans : Answer} {k : StmtId} {f : ℕ}
    {x : Handle} {σ : Shared} (hrun : σ.running = none) :
    exec t owner ans (.enterEngine k f x) σ = Shared.ok { σ with running := some (k, f) } [] :=
  if_pos hrun

section
variable {s : Sys} {t : Tid} {ρ : Targets}

/-- Another thread's stack. -/
theorem Engine.enters (he : Engine s) (h : Inv ρ s) {t' : Tid} (ht' : t' ≠ t) {a : Action}
    {rest : Code} (hcode : (s.threads t).code = .act a :: rest) {v' : View}
    (heff : Effect s.shared.view a v') (hheld : ∀ l ∈ a.guard, l ∈ held (s.threads t).code) :
    Enters v' (s.threads t').thrown (s.threads t').code := by
  have hent := he.entering t'
  have href : ∀ {k x rest'}, (∀ l ∈ held rest', l ∈ held (s.threads t').code) →
      HasReference s.shared.view k x rest' → HasReference v' k x rest' :=
    h.hasReference ht' heff hheld
  have hrun : ∀ {k f x rest'}, (s.threads t').code = .act (.leaveEngine k f x) :: rest' →
      v'.running = some (k, f) := he.keeps_running h ht' hcode heff
  generalize (s.threads t').thrown = thrown at hent ⊢
  generalize (s.threads t').code = code at hent href hrun ⊢
  cases hent with
  | calm hcalm => exact .calm hcalm
  | enters hrest hx => exact .enters hrest (href (fun _ hl => hl) hx)
  | inside hrest hx => exact .inside hrest (href (fun _ hl => hl) hx) (hrun rfl)

/-- **A step.** -/
theorem Engine.step (he : Engine s) (h : Inv ρ s) (t : Tid) (ans : Answer) :
    Engine (stepThread exec t ans s) := by
  rcases stepThread_acts_or_turns exec t ans s with ⟨a, rest, hthrown, hcode, hu⟩ |
    ⟨owner, th, ht, hu⟩
  · rw [hu]
    obtain ⟨-, -, -, hguard, -⟩ := h.head hthrown hcode
    have heff := exec_effect t s.owner ans s.shared a
    have hheld : ∀ l ∈ a.guard, l ∈ held (s.threads t).code := by
      rw [hcode]
      exact fun l hl => hguard hl
    have hent := he.entering t
    rw [hcode, hthrown] at hent
    refine ⟨fun k f hrun => ?_, ?_⟩
    · rcases heff.running with heq | ⟨hnone, -⟩ | ⟨hnone, k', f', x, rfl, heq⟩
      · obtain ⟨t', x, rest', hthrown', hcode'⟩ := he.running k f (heq.symm.trans hrun)
        have ht' : t' ≠ t := by
          rintro rfl
          rw [hcode] at hcode'
          cases hcode'
          cases leaveEngine_running.symm.trans hrun
        exact ⟨t', x, rest', by rwa [setThread_of_ne _ _ ht'], by rwa [setThread_of_ne _ _ ht']⟩
      · cases hnone.symm.trans hrun
      · obtain ⟨rfl, rfl⟩ : k' = k ∧ f' = f := by simpa using heq.symm.trans hrun
        rw [exec_enterEngine hnone]
        cases hent with
        | calm hcalm => cases (List.forall_mem_cons.1 hcalm).1
        | enters => exact ⟨t, x, _, by rw [setThread_self]; rfl, by rw [setThread_self]; rfl⟩
    · refine setThread_forall
        (P := fun _ th => Enters (exec t s.owner ans a s.shared).1.view th.thrown th.code) ?_
        fun t' ht' => he.enters h ht' hcode heff hheld
      cases hx : (exec t s.owner ans a s.shared).2 with
      | error e =>
        refine .calm (hent.tail ?_)
        rintro k f x rfl
        exact enterEngine_ok hx
      | ok code => exact hent.acts hguard hx
  · rw [hu]
    refine ⟨fun k f hrun => ?_, ?_⟩
    · obtain ⟨t', x, rest, hthrown, hcode⟩ := he.running k f hrun
      have ht' : t' ≠ t := by
        rintro rfl
        exact ht.not_act hthrown hcode
      exact ⟨t', x, rest, by rwa [setThread_of_ne _ _ ht'], by rwa [setThread_of_ne _ _ ht']⟩
    · exact setThread_forall (P := fun _ th => Enters s.shared.view th.thrown th.code)
        ((he.entering t).turns ht) fun t' _ => he.entering t'

/-- **A call.** -/
theorem Engine.call (he : Engine s) (t : Tid) (op : Op) : Engine (callThread t op.action s) := by
  unfold callThread
  split
  · next _ _ hthrown hcode =>
    refine ⟨fun k f hrun => ?_, ?_⟩
    · obtain ⟨t', x, rest, hthrown', hcode'⟩ := he.running k f hrun
      have ht' : t' ≠ t := by
        rintro rfl
        rw [hcode] at hcode'
        cases hcode'
      exact ⟨t', x, rest, by rwa [setThread_of_ne _ _ ht'], by rwa [setThread_of_ne _ _ ht']⟩
    · refine setThread_forall (P := fun _ th => Enters s.shared.view th.thrown th.code) ?_
        fun t' _ => he.entering t'
      refine .calm (List.forall_mem_singleton.2 ?_)
      cases op <;> rfl
  · exact he

/-- **Every reachable state.** -/
theorem engine_runMoves (moves : List Move) (he : Engine s) (h : Inv ρ s) :
    Engine (runMoves moves s) := by
  induction moves generalizing ρ s with
  | nil => exact he
  | cons m moves ih =>
    cases m with
    | call t op => exact ih (he.call t op) (h.call t op)
    | go t ans =>
      obtain ⟨ρ', h'⟩ := h.step t ans
      exact ih (he.step h t ans) h'

end

theorem engine_init (autoCommit : Bool) (isPrepared : ℕ → Bool) (appenders : List ℕ)
    (rowIdx : ℕ → ℕ) : Engine (init autoCommit isPrepared appenders rowIdx) :=
  ⟨fun _ _ h => (by cases h), fun _ => .calm nofun⟩

/-- **The query that runs**: whatever the interleaving, while a query runs in the engine its
    connection is open, and the thread that runs it has the locks of its statement and of an open
    reference: that of the prepared statement, or that of the pending query it executes. -/
theorem running_open (autoCommit : Bool) (isPrepared : ℕ → Bool) (appenders : List ℕ)
    (rowIdx : ℕ → ℕ) (moves : List Move) (k : StmtId) (f : ℕ)
    (hrun : (runMoves moves (init autoCommit isPrepared appenders rowIdx)).shared.running =
      some (k, f)) :
    (runMoves moves (init autoCommit isPrepared appenders rowIdx)).shared.connOpen = true ∧
    ∃ t rest x,
      ((runMoves moves (init autoCommit isPrepared appenders rowIdx)).threads t).code =
        .act (.leaveEngine k f x) :: rest ∧
      Reference k rest x ∧
      (runMoves moves (init autoCommit isPrepared appenders rowIdx)).shared.view.live x = true ∧
      (∃ n, (runMoves moves (init autoCommit isPrepared appenders rowIdx)).owner x.lock =
        some (t, n)) ∧
      ∃ n, (runMoves moves (init autoCommit isPrepared appenders rowIdx)).owner (.stmtRef k) =
        some (t, n) := by
  have hinit := inv_init autoCommit isPrepared appenders rowIdx
  have he := engine_runMoves moves (engine_init autoCommit isPrepared appenders rowIdx) hinit
  obtain ⟨ρ, h⟩ := inv_runMoves moves hinit
  obtain ⟨t, x, rest, -, hcode⟩ := he.running k f hrun
  have hent := he.entering t
  rw [hcode] at hent
  obtain ⟨-, href⟩ := hent.running
  have hheld : ∀ l ∈ held rest, ∃ n,
      (runMoves moves (init autoCommit isPrepared appenders rowIdx)).owner l = some (t, n) := by
    intro l hl
    refine h.orderly.mem_held_iff.1 ?_
    rw [hcode]
    exact hl
  refine ⟨?_, t, rest, x, hcode, href.reference, href.live, hheld _ href.lock,
    owner_of_refs h.orderly hcode (List.mem_cons_of_mem _ List.mem_cons_self)⟩
  cases hopen : (runMoves moves (init autoCommit isPrepared appenders rowIdx)).shared.connOpen with
  | true => rfl
  | false =>
    have hclosed := h.sound.disconnected hopen x
    rw [href.live] at hclosed
    cases hclosed

/-- Thread 0 prepares statement 0 and executes it. -/
def prepareThenExecute : List Move :=
  .call 0 (.prepare 0) :: goes 0 14 ++ .call 0 (.execute 0) :: goes 0 14

theorem prepareThenExecute_open :
    (runMoves prepareThenExecute (init true (fun n => n = 0) [] fun _ => 0)).shared.connOpen =
      true ∧
    ∃ t rest x,
      ((runMoves prepareThenExecute (init true (fun n => n = 0) [] fun _ => 0)).threads t).code =
        .act (.leaveEngine (.user 0) 0 x) :: rest ∧
      Reference (.user 0) rest x ∧
      (runMoves prepareThenExecute (init true (fun n => n = 0) [] fun _ => 0)).shared.view.live x =
        true ∧
      (∃ n, (runMoves prepareThenExecute (init true (fun n => n = 0) [] fun _ => 0)).owner x.lock =
        some (t, n)) ∧
      ∃ n, (runMoves prepareThenExecute (init true (fun n => n = 0) [] fun _ => 0)).owner
        (.stmtRef (.user 0)) = some (t, n) :=
  running_open true (fun n => n = 0) [] (fun _ => 0) prepareThenExecute (.user 0) 0
    (by decide +kernel)

end DuckDBJava.Concurrency
