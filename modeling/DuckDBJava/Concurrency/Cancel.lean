/-
  Which query a `cancel()` or a timeout task interrupts.

  `cancel` takes a locked `stmtRefLock` for a running query, and interrupts whatever the engine
  runs when it gets there.  But `prepare` and `close` have the lock as well, and `execute` has it
  before its query starts and after it has ended.

  **`interrupts_hit`**: where none of these is on at the check, and no query ends between the check
  and the interrupt, every interrupt meets the query it is for.
-/
import DuckDBJava.Concurrency.Engine

namespace DuckDBJava.Concurrency

open Threads Connection

/-- The statement of a canceller. -/
def Canceller.stmt : Canceller → StmtId
  | .cancel k | .task k _ => k

/-- The interrupt of `who` meets its own query: for a timeout task the execution that has scheduled
    it. -/
def Hits (running : Option (StmtId × ℕ)) : Canceller → Prop
  | .cancel k => ∃ f, running = some (k, f)
  | .task k f => running = some (k, f)

theorem Hits.running {running : Option (StmtId × ℕ)} {who : Canceller} (h : Hits running who) :
    running ≠ none := by
  rintro rfl
  cases who with
  | cancel k => exact h.elim nofun
  | task k f => cases h

theorem Hits.stmt {k : StmtId} {f : ℕ} {who : Canceller} (h : Hits (some (k, f)) who) :
    who.stmt = k := by
  cases who with
  | cancel k' =>
    obtain ⟨f', hf⟩ := h
    cases hf
    rfl
  | task k' f' =>
    cases h
    rfl

/-! ## The items of a stack -/

/-- Not `conn.interrupt()`, and no check on behalf of another statement. -/
def Action.mild : Action → Bool
  | .interrupt _ _ => false
  | .cancel k who | .cancelLocked k who => who.stmt = k
  | _ => true

/-- No interrupt, now or once a lock or an exception comes. -/
def mild : Item Lock Action Thrown → Bool
  | .act a | .lock _ a | .catching _ a => a.mild
  | .unlock _ | .swallow _ | .rethrow _ => true

/-- An interrupt on a stack meets its query. -/
inductive Aimed (running : Option (StmtId × ℕ)) : Item Lock Action Thrown → Prop
  | mild {i} : mild i = true → Aimed running i
  | interrupt {k who} : Hits running who → Aimed running (.act (.interrupt k who))

theorem mild_map {α : Type} (f : α → Action) (l : List α) {b : Action} (hf : ∀ x, (f x).mild = true)
    (hb : b.mild = true) :
    ∀ i ∈ (l.map fun x => (.act (f x) : Item Lock Action Thrown)) ++ [.act b], mild i = true := by
  intro i hi
  rcases List.mem_append.1 hi with hi | hi
  · obtain ⟨x, -, rfl⟩ := List.mem_map.1 hi
    exact hf x
  · obtain rfl := List.mem_singleton.1 hi
    exact hb

/-- The action leaves the engine and the interrupts alone, and no interrupt to come. -/
structure Still (σ : Shared) (o : Out) : Prop where
  running : o.1.running = σ.running
  interrupts : o.1.interrupts = σ.interrupts
  mild : ∀ code, o.2 = .ok code → ∀ i ∈ code, mild i = true

namespace Still

variable {σ σ' : Shared}

theorem ok {code : Code} (hr : σ'.running = σ.running) (hi : σ'.interrupts = σ.interrupts)
    (hcode : ∀ i ∈ code, Concurrency.mild i = true) : Still σ (σ'.ok code) := by
  refine ⟨hr, hi, fun code' h => ?_⟩
  cases h
  exact hcode

theorem lit {code : Code} (hr : σ'.running = σ.running) (hi : σ'.interrupts = σ.interrupts)
    (hcode : code.all Concurrency.mild = true) : Still σ (σ'.ok code) :=
  ok hr hi (List.all_eq_true.1 hcode)

theorem error {e : Thrown} (hr : σ'.running = σ.running) (hi : σ'.interrupts = σ.interrupts) :
    Still σ (σ', .error e) := ⟨hr, hi, fun _ h => by cases h⟩

theorem ite {c : Prop} [Decidable c] {x y : Out} (hx : Still σ x) (hy : Still σ y) :
    Still σ (if c then x else y) := by
  split
  · exact hx
  · exact hy

end Still

/-! ## What the actions leave -/

section
variable {t : Tid} (owner : Owners Lock) (ans : Answer) (σ : Shared)

@[simp] theorem cleanupCancelQueryTask_running (k : StmtId) :
    (cleanupCancelQueryTask σ k).running = σ.running := by
  unfold cleanupCancelQueryTask
  split <;> rfl

@[simp] theorem cleanupCancelQueryTask_interrupts (k : StmtId) :
    (cleanupCancelQueryTask σ k).interrupts = σ.interrupts := by
  unfold cleanupCancelQueryTask
  split <;> rfl

/-- The engine's part of the methods. -/
def Action.still : Action → Bool
  | .enterEngine _ _ _ | .leaveEngine _ _ _ | .cancel _ _ | .cancelLocked _ _
  | .interrupt _ _ => false
  | _ => true

theorem exec_still {a : Action} (ha : a.still = true) : Still σ (exec t owner ans a σ) := by
  have hok : ∀ {code : Code}, code.all mild = true → Still σ (σ.ok code) := .lit rfl rfl
  have hsql : Still σ σ.sql := .error rfl rfl
  have hnpe : Still σ σ.npe := .error rfl rfl
  have hclean : ∀ {k : StmtId}, (cleanupCancelQueryTask σ k).running = σ.running ∧
      (cleanupCancelQueryTask σ k).interrupts = σ.interrupts := by simp
  cases a with
  | enterEngine | leaveEngine | cancel | cancelLocked | interrupt => cases ha
  | scheduleCancelTask k f =>
    exact .ite (.lit hclean.1 hclean.2 rfl) (hok rfl)
  | finishExecute k f =>
    exact .ite (.error hclean.1 hclean.2) (.lit hclean.1 hclean.2 rfl)
  | closeStmtBody k f => exact .ite (hok rfl) (.lit hclean.1 hclean.2 rfl)
  | runCancelTask k f =>
    exact .ite (.ite (.lit rfl rfl rfl)
      (.lit rfl rfl (by simp [mild, Action.mild, Canceller.stmt])))
      (hok rfl)
  | executePending k f =>
    show Still σ (executePending σ k f)
    unfold executePending
    split
    · exact hok rfl
    · exact hnpe
  | executeFinally k f =>
    refine .ok rfl rfl ?_
    simp only [List.forall_mem_append]
    constructor
    · split <;> simp [mild, Action.mild]
    · split <;> simp [mild, Action.mild]
  | executeFailed k f =>
    show Still σ (executeFailed σ ans k f)
    unfold executeFailed
    split
    · exact hok rfl
    · exact .ite hsql (hok rfl)
  | readChangedRows k =>
    refine .ite ?_ (hok rfl)
    split
    · exact hok rfl
    · exact hnpe
  | closeChangedRows k =>
    show Still σ (closeChangedRows σ k)
    unfold closeChangedRows
    split
    · exact hok rfl
    · exact hnpe
  | closeSelectResult k =>
    show Still σ (closeSelectResult σ k)
    unfold closeSelectResult
    split
    · exact hok rfl
    · exact hok rfl
  | closePendings => exact .ok rfl rfl (mild_map .closePending _ (fun _ => rfl) rfl)
  | closeStmts => exact .ok rfl rfl (mild_map .closeStmt _ (fun _ => rfl) rfl)
  | closeAppenders => exact .ok rfl rfl (mild_map .closeAppender _ (fun _ => rfl) rfl)
  | _ =>
    repeat' first
      | exact hsql
      | exact hnpe
      | refine .ite ?_ ?_
      | exact .error rfl rfl
      | exact .lit rfl rfl rfl

end

/-! ## Runs -/

/-- Every interrupt to come, and every one so far, meets its query. -/
structure OnTarget (s : Sys) : Prop where
  aimed : ∀ t, ∀ i ∈ (s.threads t).code, Aimed s.shared.running i
  hit : ∀ x ∈ s.shared.interrupts, Hits x.2 x.1

/-- The thread is in the native call of execution `f` of `k`. -/
def InEngine (th : Thread Lock Action Thrown) (k : StmtId) (f : ℕ) : Prop :=
  ∃ x rest, th.code = .act (.leaveEngine k f x) :: rest

/-- A thread has `stmtRefLock` of `k` in `prepare`, in `close`, or in `execute` before its query
    starts or after it has ended. -/
def LockedOutside (s : Sys) (k : StmtId) : Prop :=
  ∃ t n, s.owner (.stmtRef k) = some (t, n) ∧ ∀ f, ¬ InEngine (s.threads t) k f

/-- What a step does not overlap.  At a check of a canceller under `connRefLock` nobody has
    `stmtRefLock` outside of the engine, and for a timeout task no other execution of the statement
    is in there.  No execution of a statement leaves the engine between such a check and its
    interrupt. -/
def InTime (s : Sys) : Move → Prop
  | .call _ _ => True
  | .go t _ => (s.threads t).thrown = none →
    (∀ k who rest, (s.threads t).code = .act (.cancelLocked k who) :: rest →
      (s.shared.stmts k).hasConn = true → ¬ LockedOutside s k ∧
        ∀ k' f, who = .task k' f → ∀ t' f', InEngine (s.threads t') k f' → f' = f) ∧
    (∀ k f x rest, (s.threads t).code = .act (.leaveEngine k f x) :: rest →
      ∀ t' k' who, .act (.interrupt k' who) ∈ (s.threads t').code → who.stmt ≠ k)

theorem Aimed.of_act {running : Option (StmtId × ℕ)} {k : StmtId} {who : Canceller}
    (h : Aimed running (.act (.interrupt k who))) : Hits running who := by
  cases h with
  | mild h => cases h
  | interrupt h => exact h

/-- Another query runs, or none, when no interrupt is to come. -/
theorem Aimed.change {running running' : Option (StmtId × ℕ)} {i : Item Lock Action Thrown}
    (h : Aimed running i) (hi : ∀ k who, i = .act (.interrupt k who) → ¬ Hits running who) :
    Aimed running' i := by
  cases h with
  | mild h => exact .mild h
  | interrupt h => exact absurd h (hi _ _ rfl)

section
variable {s : Sys} {t : Tid} {ρ : Targets}

/-- **The check** is right where nobody has the lock outside of the engine: who has it is in the
    engine then, and runs the query. -/
theorem hits_of_locked (hi : Inv ρ s) (he : Engine s) {k : StmtId} {who : Canceller}
    (hwho : who.stmt = k) (hlocked : isLocked s.owner (.stmtRef k) = true)
    (hout : ¬ LockedOutside s k)
    (htask : ∀ k' f, who = .task k' f → ∀ t' f', InEngine (s.threads t') k f' → f' = f) :
    Hits s.shared.running who := by
  obtain ⟨⟨t, n⟩, hn⟩ := Option.isSome_iff_exists.1 hlocked
  obtain ⟨f, hin⟩ : ∃ f, InEngine (s.threads t) k f := by
    by_contra hno
    exact hout ⟨t, n, hn, fun f hf => hno ⟨f, hf⟩⟩
  obtain ⟨x, rest, hcode⟩ := hin
  have hrun := (he.inside hi hcode).1
  cases who with
  | cancel k' =>
    obtain rfl : k' = k := hwho
    exact ⟨f, hrun⟩
  | task k' f' =>
    obtain rfl : k' = k := hwho
    obtain rfl : f = f' := htask _ _ rfl t f ⟨x, rest, hcode⟩
    exact hrun

/-- Behind an action the interrupts to come are on target, and so are those that it adds. -/
structure Aims (s : Sys) (o : Out) : Prop where
  aimed : ∀ t, ∀ i ∈ (s.threads t).code, Aimed o.1.running i
  hit : ∀ x ∈ o.1.interrupts, Hits x.2 x.1
  adds : ∀ code, o.2 = .ok code → ∀ i ∈ code, Aimed o.1.running i

theorem OnTarget.still (h : OnTarget s) {o : Out} (ho : Still s.shared o) : Aims s o where
  aimed := ho.running ▸ h.aimed
  hit := ho.interrupts ▸ h.hit
  adds code hcode i hi := .mild (ho.mild code hcode i hi)

/-- No interrupt is to come while no query runs, so a query may start. -/
theorem aims_enterEngine (h : OnTarget s) (k : StmtId) (f : ℕ) (x : Handle) :
    Aims s (enterEngine s.shared k f x) := by
  unfold enterEngine
  split
  · next hnone =>
    refine ⟨fun t i hi => (h.aimed t i hi).change fun k' who _ hw => ?_, h.hit, ?_⟩
    · exact hw.running hnone
    · rintro code ⟨⟩ i hi
      cases hi
  · exact h.still (.lit rfl rfl rfl)

/-- A query may end when no interrupt of its statement is to come. -/
theorem aims_leaveEngine (h : OnTarget s) {k : StmtId} {f : ℕ} (ans : Answer)
    (hrun : s.shared.running = some (k, f))
    (hquiet : ∀ t' k' who, .act (.interrupt k' who) ∈ (s.threads t').code → who.stmt ≠ k) :
    Aims s (leaveEngine s.shared ans f) := by
  have hold : ∀ t', ∀ i ∈ (s.threads t').code, Aimed none i := by
    refine fun t' i hi => (h.aimed t' i hi).change ?_
    rintro k' who rfl hw
    exact hquiet t' k' who hi (Hits.stmt (hrun ▸ hw))
  unfold leaveEngine
  dsimp only
  split
  · exact ⟨hold, h.hit, nofun⟩
  · refine ⟨hold, h.hit, ?_⟩
    rintro code ⟨⟩ i hi
    cases hi

theorem cancel_still (σ : Shared) (owner : Owners Lock) {k : StmtId} {who : Canceller}
    (hwho : who.stmt = k) : Still σ (cancel σ owner k who) := by
  refine .ite (.error rfl rfl) (.ite (.ok rfl rfl fun i hi => ?_) (.lit rfl rfl rfl))
  obtain rfl := List.mem_singleton.1 hi
  exact decide_eq_true hwho

/-- The check adds an interrupt only where it is right. -/
theorem aims_cancelLocked (h : OnTarget s) (hinv : Inv ρ s) (he : Engine s) {k : StmtId}
    {who : Canceller} (hwho : who.stmt = k)
    (hright : (s.shared.stmts k).hasConn = true → ¬ LockedOutside s k ∧
      ∀ k' f, who = .task k' f → ∀ t' f', InEngine (s.threads t') k f' → f' = f) :
    Aims s (cancelLocked s.shared s.owner k who) := by
  unfold cancelLocked
  split
  · next hlocked =>
    split
    · next hconn =>
      refine ⟨h.aimed, h.hit, ?_⟩
      rintro code ⟨⟩ i hi
      obtain rfl := List.mem_singleton.1 hi
      obtain ⟨hout, htask⟩ := hright hconn
      exact .interrupt (hits_of_locked hinv he hwho hlocked hout htask)
    · exact h.still (.error rfl rfl)
  · exact h.still (.lit rfl rfl rfl)

/-- An interrupt on target is recorded as such. -/
theorem aims_interrupt (h : OnTarget s) (ans : Answer) {who : Canceller}
    (hwho : Hits s.shared.running who) : Aims s (interrupt s.shared ans who) := by
  have hlog : ∀ x ∈ s.shared.interrupts ++ [(who, s.shared.running)], Hits x.2 x.1 := by
    intro x hx
    rcases List.mem_append.1 hx with hx | hx
    · exact h.hit x hx
    · obtain rfl := List.mem_singleton.1 hx
      exact hwho
  unfold interrupt
  split
  · dsimp only
    split
    · exact ⟨h.aimed, hlog, nofun⟩
    · refine ⟨h.aimed, hlog, ?_⟩
      rintro code ⟨⟩ i hi
      cases hi
  · exact h.still (.error rfl rfl)

/-- An action in time leaves the interrupts to come on target, and so are the ones it adds. -/
theorem exec_onTarget (h : OnTarget s) (hinv : Inv ρ s) (he : Engine s) {ans : Answer}
    {a : Action} {rest : Code} (hm : InTime s (.go t ans)) (ht : (s.threads t).thrown = none)
    (hc : (s.threads t).code = .act a :: rest) : Aims s (exec t s.owner ans a s.shared) := by
  have hhead := h.aimed t _ (hc ▸ List.mem_cons_self)
  cases hstill : a.still with
  | true => exact h.still (exec_still s.owner ans s.shared hstill)
  | false =>
    cases a with
    | enterEngine k f x => exact aims_enterEngine h k f x
    | leaveEngine k f x =>
      exact aims_leaveEngine h ans (he.inside hinv hc).1 ((hm ht).2 k f x rest hc)
    | cancel k who =>
      cases hhead with
      | mild hmild => exact h.still (cancel_still _ _ (of_decide_eq_true hmild))
    | cancelLocked k who =>
      cases hhead with
      | mild hmild =>
        exact aims_cancelLocked h hinv he (of_decide_eq_true hmild) ((hm ht).1 k who rest hc)
    | interrupt k who => exact aims_interrupt h ans hhead.of_act
    | _ => cases hstill

/-- Another stack for `t`. -/
theorem OnTarget.setThread (h : OnTarget s) {th : Thread Lock Action Thrown}
    (hth : ∀ i ∈ th.code, Aimed s.shared.running i) : OnTarget (s.setThread t th) := by
  refine ⟨fun t' i hi => ?_, h.hit⟩
  by_cases hne : t' = t
  · subst hne
    rw [setThread_self] at hi
    exact hth i hi
  · rw [setThread_of_ne _ _ hne] at hi
    exact h.aimed t' i hi

theorem op_mild (op : Op) : op.action.mild = true := by
  cases op with
  | cancel n => exact decide_eq_true rfl
  | _ => rfl

/-- **A step** in time. -/
theorem OnTarget.move (h : OnTarget s) (hinv : Inv ρ s) (he : Engine s) {m : Move}
    (hm : InTime s m) : OnTarget (Concurrency.move s m) := by
  cases m with
  | call t op =>
    show OnTarget (callThread t op.action s)
    unfold callThread
    split
    · refine h.setThread fun i hi => ?_
      obtain rfl := List.mem_singleton.1 hi
      exact .mild (op_mild op)
    · exact h
  | go t ans =>
    have hst := stepThread_stepped exec t ans s
    change OnTarget (stepThread exec t ans s)
    have hrest : ∀ {i rest}, (s.threads t).code = i :: rest →
        ∀ j ∈ rest, Aimed s.shared.running j :=
      fun hc j hj => h.aimed t j (hc ▸ List.mem_cons_of_mem _ hj)
    have hhead : ∀ {i rest}, (s.threads t).code = i :: rest → Aimed s.shared.running i :=
      fun hc => h.aimed t _ (hc ▸ List.mem_cons_self)
    generalize stepThread exec t ans s = u at hst
    cases hst with
    | idle hc => exact h.setThread fun i hi => by cases hi
    | acts ht hc hx =>
      obtain ⟨hold, hlog, hnew⟩ := hx ▸ exec_onTarget h hinv he hm ht hc
      refine OnTarget.setThread ⟨hold, hlog⟩ fun i hi => ?_
      rcases List.mem_append.1 hi with hi | hi
      · exact hnew _ rfl i hi
      · exact hold t i (hc ▸ List.mem_cons_of_mem _ hi)
    | throws ht hc hx =>
      obtain ⟨hold, hlog, -⟩ := hx ▸ exec_onTarget h hinv he hm ht hc
      exact OnTarget.setThread ⟨hold, hlog⟩ fun i hi => hold t i (hc ▸ List.mem_cons_of_mem _ hi)
    | @locks l a rest ht hc ha =>
      have howner : OnTarget { s with owner := acquire s.owner l t } := ⟨h.aimed, h.hit⟩
      refine howner.setThread ?_
      simp only [List.forall_mem_cons]
      refine ⟨?_, .mild rfl, hrest hc⟩
      cases hhead hc with
      | mild hmild => exact .mild hmild
    | waits ht hc ha => exact h.setThread (hc ▸ h.aimed t)
    | @unlocks l rest hc =>
      have howner : OnTarget { s with owner := release s.owner l t } := ⟨h.aimed, h.hit⟩
      exact howner.setThread (hrest hc)
    | catches ht hc =>
      refine h.setThread ?_
      simp only [List.forall_mem_cons]
      refine ⟨?_, .mild rfl, hrest hc⟩
      cases hhead hc with
      | mild hmild => exact .mild hmild
    | drops thrown hc hi => exact h.setThread (hrest hc)

end

/-- **Cancellation**: in a run without these overlaps every interrupt meets the query of its
    statement, and that of a timeout task the execution that has scheduled the task. -/
theorem interrupts_hit (autoCommit : Bool) (isPrepared : ℕ → Bool) (appenders : List ℕ)
    (rowIdx : ℕ → ℕ) (moves : List Move)
    (h : ∀ pre m, pre ++ [m] <+: moves →
      InTime (runMoves pre (init autoCommit isPrepared appenders rowIdx)) m) :
    ∀ pre, pre <+: moves → ∀ who running,
      (who, running) ∈
        (runMoves pre (init autoCommit isPrepared appenders rowIdx)).shared.interrupts →
      Hits running who := by
  intro pre hpre
  suffices hs : OnTarget (runMoves pre (init autoCommit isPrepared appenders rowIdx)) from
    fun who running hx => hs.hit (who, running) hx
  induction pre using List.reverseRecOn with
  | nil =>
    refine ⟨fun t i hi => ?_, fun x hx => ?_⟩
    · cases hi
    · cases hx
  | append_singleton pre m ih =>
    rw [runMoves_append]
    have hinit := inv_init autoCommit isPrepared appenders rowIdx
    have he := engine_runMoves pre (engine_init autoCommit isPrepared appenders rowIdx) hinit
    obtain ⟨ρ, hinv⟩ := inv_runMoves pre hinit
    exact (ih ((List.prefix_append pre [m]).trans hpre)).move hinv he (h pre m hpre)

/-! ## A run with a hit, and one without -/

instance (running : Option (StmtId × ℕ)) (who : Canceller) : Decidable (Hits running who) :=
  match who, running with
  | .cancel _, none => isFalse fun h => h.elim nofun
  | .cancel k, some (k', f) => decidable_of_iff (k' = k) (by simp [Hits])
  | .task k f, running => inferInstanceAs (Decidable (running = some (k, f)))

/-- The thread is in the native call of an execution of `k`. -/
def inEngine (th : Thread Lock Action Thrown) (k : StmtId) : Bool :=
  match th.code with
  | .act (.leaveEngine k' _ _) :: _ => k' = k
  | _ => false

/-- A step in time that ends no query, and no check of a timeout task. -/
def inTime (s : Sys) : Move → Bool
  | .call _ _ => true
  | .go t _ =>
    match (s.threads t).code with
    | .act (.cancelLocked k (.cancel _)) :: _ =>
      (s.owner (.stmtRef k)).all fun x => inEngine (s.threads x.1) k
    | .act (.cancelLocked _ (.task _ _)) :: _ | .act (.leaveEngine _ _ _) :: _ => false
    | _ => true

theorem inEngine_sound {th : Thread Lock Action Thrown} {k : StmtId} (h : inEngine th k = true) :
    ∃ f, InEngine th k f := by
  unfold inEngine at h
  split at h
  · next k' f x rest hc =>
    obtain rfl : k' = k := of_decide_eq_true h
    exact ⟨f, x, rest, hc⟩
  · cases h

theorem inTime_sound {s : Sys} {m : Move} (h : inTime s m = true) : InTime s m := by
  cases m with
  | call t op => trivial
  | go t ans =>
    refine fun _ => ⟨fun k who rest hc _ => ?_, fun k f x rest hc => ?_⟩
    · cases who with
      | cancel k' =>
        simp only [inTime, hc, Option.all_eq_true] at h
        refine ⟨?_, nofun⟩
        rintro ⟨t', n, hn, hout⟩
        obtain ⟨f, hin⟩ := inEngine_sound (h (t', n) hn)
        exact hout f hin
      | task k' f => simp [inTime, hc] at h
    · simp [inTime, hc] at h

/-- Steps in time, from `s`. -/
def allInTime (s : Sys) : List Move → Bool
  | [] => true
  | m :: moves => inTime s m && allInTime (move s m) moves

theorem allInTime_sound {moves : List Move} {s : Sys} (h : allInTime s moves = true) :
    ∀ pre m, pre ++ [m] <+: moves → InTime (runMoves pre s) m := by
  induction moves generalizing s with
  | nil => exact fun pre m hpre => absurd hpre.length_le (by simp)
  | cons m₀ moves ih =>
    obtain ⟨h₀, hrest⟩ := Bool.and_eq_true_iff.1 h
    intro pre m hpre
    cases pre with
    | nil =>
      obtain ⟨rfl, -⟩ := List.cons_prefix_cons.1 hpre
      exact inTime_sound h₀
    | cons m' pre =>
      obtain ⟨rfl, htail⟩ := List.cons_prefix_cons.1 hpre
      exact ih hrest pre m htail

/-- Thread 2 executes statement 1, thread 1 cancels it. -/
def cancelSelf : List Move :=
  .call 2 (.executeSql 1) :: goes 2 26 ++ .call 1 (.cancel 1) :: goes 1 4

theorem cancelSelf_hits : (Canceller.cancel (.user 1), some (StmtId.user 1, 0)) ∈
      (runMoves cancelSelf (init true (fun _ => false) [] fun _ => 0)).shared.interrupts ∧
    Hits (some (.user 1, 0)) (.cancel (.user 1)) := by
  have hin : (Canceller.cancel (.user 1), some (StmtId.user 1, 0)) ∈
      (runMoves cancelSelf (init true (fun _ => false) [] fun _ => 0)).shared.interrupts := by
    decide +kernel
  have htime : allInTime (init true (fun _ => false) [] fun _ => 0) cancelSelf = true := by
    decide +kernel
  refine ⟨hin, ?_⟩
  exact interrupts_hit true (fun _ => false) [] (fun _ => 0) cancelSelf
    (allInTime_sound htime) cancelSelf List.prefix_rfl (.cancel (.user 1)) (some (.user 1, 0)) hin

/-- Thread 2 executes statement 1 while thread 0 prepares statement 0 and thread 1 cancels that. -/
def cancelPrepare : List Move :=
  .call 2 (.executeSql 1) :: goes 2 26 ++ .call 0 (.prepare 0) :: goes 0 2 ++
    .call 1 (.cancel 0) :: goes 1 4

/-- The query of another statement is interrupted. -/
theorem cancelPrepare_misses : ¬ ∀ autoCommit isPrepared appenders rowIdx moves who running,
    (who, running) ∈ (runMoves moves
      (init autoCommit isPrepared appenders rowIdx)).shared.interrupts → Hits running who := by
  intro h
  have hin : (Canceller.cancel (.user 0), some (StmtId.user 1, 0)) ∈
      (runMoves cancelPrepare (init true (fun n => n = 0) [] fun _ => 0)).shared.interrupts := by
    decide +kernel
  exact absurd (h true (fun n => n = 0) [] (fun _ => 0) cancelPrepare (.cancel (.user 0))
    (some (.user 1, 0)) hin) (by decide)

end DuckDBJava.Concurrency
