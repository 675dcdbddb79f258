/-
  Preparing, executing and fetching keep the invariant.

  A native result is `Loose` between the call that returns it and the result set that takes it:
  no reference holds it, and nothing in between releases it.
-/
import DuckDBJava.Handles.Closing

namespace DuckDBJava.Handles

open Exec Connection

/-- A live handle that no reference holds. -/
def Loose (σ : State) (h : Handle) : Prop := Live σ h ∧ ∀ o, σ.refs o ≠ some h

/-! ## The invariant, field by field -/

/-- Changes the invariant does not speak of. -/
theorem Inv.congr {σ τ : State} (h : Inv σ) (hrefs : τ.refs = σ.refs) (htrace : τ.trace = σ.trace)
    (hnext : σ.next ≤ τ.next) (hstmts : τ.stmts = σ.stmts)
    (hps : τ.preparedStatements = σ.preparedStatements) (hres : τ.results = σ.results)
    (hrc : τ.resultCount = σ.resultCount) : Inv τ := by
  have hR : ∀ a, Released τ a ↔ Released σ a := fun a => by rw [Released, Released, htrace]
  refine ⟨⟨htrace ▸ h.linear, fun a ha => ?_, fun o a ho => ?_, ?_⟩,
    h.toLinked.of_refs hstmts hps hres hrc (fun o ho => hrefs ▸ ho) (fun hc => ?_)
      (fun a ha => (hR a).2 ha) fun r => .inl (by rw [hrefs])⟩
  · exact (h.released_lt a ((hR a).1 ha)).trans_le hnext
  · rw [hrefs] at ho
    exact ⟨(h.live o a ho).1.trans_le hnext, fun hr => (h.live o a ho).2 ((hR a).1 hr)⟩
  · rw [hrefs]
    exact h.distinct
  · exact h.disconnected (hrefs ▸ hc)

/-- A reference takes a loose handle. -/
theorem Owned.hold {σ τ : State} (h : Owned σ) {o : Ref} {a : Handle} (ha : Loose σ a)
    (hrefs : τ.refs = Function.update σ.refs o (some a)) (htrace : τ.trace = σ.trace)
    (hnext : τ.next = σ.next) : Owned τ := by
  have hR : ∀ b, Released τ b ↔ Released σ b := fun b => by rw [Released, Released, htrace]
  have hlive : ∀ b, Live σ b → Live τ b := fun b hb => ⟨hnext ▸ hb.1, fun hr => hb.2 ((hR b).1 hr)⟩
  have hself : τ.refs o = some a := by rw [hrefs, Function.update_self]
  have hother : ∀ o', o' ≠ o → τ.refs o' = σ.refs o' := fun o' ho => by
    rw [hrefs, Function.update_of_ne ho]
  refine ⟨htrace ▸ h.linear, fun b hb => hnext ▸ h.released_lt b ((hR b).1 hb), fun o' b hb => ?_,
    fun o' o'' b hb hb' => ?_⟩
  · by_cases ho : o' = o
    · rw [ho, hself] at hb
      cases hb
      exact hlive a ha.1
    · exact hlive b (h.live o' b (hother o' ho ▸ hb))
  · by_cases ho : o' = o
    · by_cases ho' : o'' = o
      · rw [ho, ho']
      · rw [ho, hself] at hb
        rw [hother o'' ho', ← hb] at hb'
        exact absurd hb' (ha.2 o'')
    · rw [hother o' ho] at hb
      by_cases ho' : o'' = o
      · rw [ho', hself] at hb'
        rw [← hb'] at hb
        exact absurd hb (ha.2 o')
      · exact h.distinct o' o'' b hb (hother o'' ho' ▸ hb')

/-- More statements are tracked; one that is, and is open, may get a prepared statement. -/
theorem Linked.track {σ τ : State} (h : Linked σ) (hconn : σ.refs .connRef ≠ none)
    (hstmts : τ.stmts = σ.stmts) (hres : τ.results = σ.results)
    (hrc : τ.resultCount = σ.resultCount) (htrace : τ.trace = σ.trace)
    (hps : ∀ k ∈ σ.preparedStatements, k ∈ τ.preparedStatements)
    (hcr : τ.refs .connRef = σ.refs .connRef)
    (hrr : ∀ r, τ.refs (.resultRef r) = σ.refs (.resultRef r))
    (hsr : ∀ k, τ.refs (.stmtRef k) = σ.refs (.stmtRef k) ∨
      k ∈ τ.preparedStatements ∧ (σ.stmts k).hasConn = true) : Linked τ := by
  refine ⟨by rw [hstmts, hrc, hres]; exact h.current, fun k hk => ?_, fun k hk => ?_,
    fun hn => absurd (hcr ▸ hn) hconn, fun r hr => ?_, fun r a ha => ?_⟩
  · rw [hstmts]
    have hk' := h.tracked k fun hm => hk (hps k hm)
    rcases hsr k with he | ⟨hm, -⟩
    · exact ⟨hk'.1, he ▸ hk'.2⟩
    · exact absurd hm hk
  · rw [hstmts] at hk ⊢
    have hk' := h.gone k hk
    rcases hsr k with he | ⟨-, hc⟩
    · exact ⟨hk'.1, he ▸ hk'.2⟩
    · rw [hk] at hc; cases hc
  · rw [hres, hrr, Released, htrace]
    exact h.result r (hrc ▸ hr)
  · rw [hrc]
    exact h.result_lt r a (hrr r ▸ ha)

theorem mem_addTo {l : List ℕ} {i j : ℕ} : j ∈ addTo l i ↔ j ∈ l ∨ j = i := by
  unfold addTo
  split
  · next h =>
    refine ⟨.inl, fun hj => hj.elim id ?_⟩
    rintro rfl
    exact h
  · simp

/-- A tracked statement belongs to an open connection. -/
theorem Inv.connected {σ : State} (h : Inv σ) {k : ℕ} (hk : k ∈ σ.preparedStatements) :
    σ.refs .connRef ≠ none := by
  intro hn
  rw [h.disconnected hn] at hk
  cases hk

/-! ## New objects -/

section
variable {env : Env} {k : ℕ} {s t : State} {h : Handle}

theorem create_ok {o : Ref} (hc : create env o s = .ok h t) :
    ∃ a, s.refs o = some a ∧ h = s.next ∧
      t = { s with trace := s.trace ++ [⟨[a], none⟩], next := s.next + 1 } := by
  rw [create, bind_eq_ok] at hc
  obtain ⟨a, s', hr, hc⟩ := hc
  obtain ⟨rfl, ho⟩ := ref_ok hr
  rcases native_cases env [a] none s' with ⟨n, hn⟩ | hn
  · rw [bind_ok (a := PUnit.unit) (by rw [discard_apply, hn])] at hc
    cases hc
    exact ⟨a, ho, rfl, rfl⟩
  · rw [bind_error (by rw [discard_apply, hn])] at hc
    cases hc

theorem create_safe (env : Env) (o : Ref) : Safe Fits Inv Later (create env o) := by
  intro s hI
  refine (ref_safe o s hI).bind fun a t ht hIt _ => ?_
  obtain ⟨rfl, ho⟩ := ref_ok ht
  have hnative : SafeEnd Fits Inv (Later t) (native env [a] none t) := by
    refine native_safe env hIt fun b hb => ?_
    rw [List.mem_singleton.1 hb]
    exact hIt.live o a ho
  exact hnative.discard.bind fun _ u _ hIu _ =>
    ⟨hIu.congr rfl rfl (Nat.le_succ _) rfl rfl rfl rfl,
      .of_eq rfl rfl (fun _ h => h) (fun _ => rfl) (fun _ h => h) id⟩

/-- What a native call returns is new. -/
theorem create_loose {o : Ref} (hI : Inv s) (hc : create env o s = .ok h t) : Loose t h := by
  obtain ⟨a, -, rfl, rfl⟩ := create_ok hc
  refine ⟨⟨Nat.lt_succ_self _, fun hr => ?_⟩, fun o' ho' => ?_⟩
  · obtain hr | hr := released_append.1 (show Released { s with trace := _ } _ from hr)
    · exact absurd (hI.released_lt _ hr) (Nat.lt_irrefl _)
    · cases hr
  · exact absurd (hI.live o' _ ho').1 (Nat.lt_irrefl _)

theorem setStmtRef_safe (hI : Inv s) (hl : Loose s h) (hk : (s.stmts k).hasConn = true)
    (hconn : s.refs .connRef ≠ none) : SafeEnd Fits Inv (Later s) (setStmtRef k h s) := by
  refine ⟨⟨hI.toOwned.hold hl rfl rfl rfl, hI.toLinked.track hconn rfl rfl rfl rfl
    (fun j hj => mem_addTo.2 (.inl hj)) ?_ (fun r => ?_) fun j => ?_⟩, ?_⟩
  · simp
  · simp
  · by_cases hj : j = k
    · exact .inr ⟨mem_addTo.2 (.inr hj), hj ▸ hk⟩
    · exact .inl (by simp [hj])
  · refine ⟨le_rfl, le_rfl, fun _ _ h => h, fun hn => absurd hn hconn, id, fun _ _ => rfl,
      fun r _ hr => by simpa using hr, fun _ h h' => absurd h' (Nat.not_lt.2 h)⟩

theorem newPending_safe (hI : Inv s) (hl : Loose s h) (hconn : s.refs .connRef ≠ none) :
    SafeEnd Fits Inv (Later s) (newPending h k s) := by
  refine ⟨⟨hI.toOwned.hold hl rfl rfl rfl, hI.toLinked.track hconn rfl rfl rfl rfl
    (fun j hj => mem_addTo.2 (.inl hj)) ?_ (fun r => ?_) fun j => .inl ?_⟩, ?_⟩
  · simp
  · simp
  · simp
  · refine ⟨le_rfl, le_rfl, fun _ _ h => h, fun hn => absurd hn hconn, id, fun _ _ => rfl,
      fun r _ hr => by simpa using hr, fun _ h h' => absurd h' (Nat.not_lt.2 h)⟩

/-- A result set for a tracked statement takes a loose result. -/
theorem newResult_safe (type : StatementReturnType) (hI : Inv s) (hl : Loose s h)
    (hk : k ∈ s.preparedStatements) : SafeEnd Fits Inv (Later s) (newResult k h type s) := by
  have hconn := hI.connected hk
  rw [newResult, get_bind]
  refine SafeEnd.bind (Safe.require _ (by simp [Fits]) s hI) fun _ t ht hIt _ => ?_
  obtain ⟨hc, rfl⟩ := require_eq_ok.1 ht
  refine ⟨⟨hIt.toOwned.hold hl rfl rfl rfl, ⟨fun j r hj => ?_, fun j hj => ?_, fun j hj => ?_,
    fun hn => ?_, fun r hr => ?_, fun r a ha => ?_⟩⟩, ⟨le_rfl, Nat.le_succ _, fun j _ hj => ?_,
    fun hn => absurd hn hconn, id, fun r hr => ?_, fun r hr hn => ?_,
    fun r hr hr' => ⟨hconn, fun _ => ?_⟩⟩⟩
  · by_cases hjk : j = k
    · simp only [hjk, Function.update_self, Option.some.injEq] at hj
      simp [← hj, hjk]
    · simp only [Function.update_of_ne hjk] at hj
      obtain ⟨hlt, he⟩ := hIt.current j r hj
      exact ⟨Nat.lt_succ_of_lt hlt, by simp [Function.update_of_ne hlt.ne, he]⟩
  · have hjk : j ≠ k := fun he => hj (he ▸ hk)
    simpa [Function.update_of_ne hjk] using hIt.tracked j hj
  · by_cases hjk : j = k
    · simp [hjk, hc] at hj
    · simp only [Function.update_of_ne hjk] at hj ⊢
      simpa using hIt.gone j hj
  · exact absurd (by simpa using hn) hconn
  · rcases Nat.lt_succ_iff_lt_or_eq.1 hr with hlt | rfl
    · have hne : Ref.resultRef r ≠ .resultRef s.resultCount := by simpa using hlt.ne
      simpa [hne, hlt.ne, Released] using hIt.result r hlt
    · exact .inl (by simp)
  · by_cases hrc : r = s.resultCount
    · exact hrc ▸ Nat.lt_succ_self _
    · have hne : Ref.resultRef r ≠ .resultRef s.resultCount := by simpa using hrc
      exact Nat.lt_succ_of_lt (hIt.result_lt r a (by simpa [hne] using ha))
  · by_cases hjk : j = k
    · rw [hjk, hc] at hj; cases hj
    · simpa [Function.update_of_ne hjk] using hj
  · simp [Function.update_of_ne hr.ne]
  · simpa [hr.ne] using hn
  · have hrc : r = s.resultCount := Nat.le_antisymm (Nat.le_of_lt_succ hr') hr
    simpa [hrc] using hc

theorem newStmt_safe (b : Bool) : Safe Fits Inv Later (newStmt b) := by
  intro s hI
  have hw : Inv (s.withStmt s.stmtCount (.new b)) := hI.withStmt (.inl rfl) fun hc => by cases hc
  refine ⟨hw.congr rfl rfl le_rfl rfl rfl rfl rfl,
    ⟨Nat.le_succ _, le_rfl, fun k hk hc => ?_, id, id,
    fun _ _ => rfl, fun _ _ hn => hn, fun _ h h' => absurd h' (Nat.not_lt.2 h)⟩⟩
  simpa [Function.update_of_ne hk.ne] using hc

theorem createStatement_safe : Safe Fits Inv Later createStatement := by
  refine Safe.bind ?_ fun _ => newStmt_safe false
  exact Safe.get.bind fun σ => Safe.require _ (by simp [Fits])

/-! ## Checks -/

theorem connCheckOpen_safe : Safe Fits Inv Later connCheckOpen :=
  Safe.get.bind fun _ => Safe.require _ (by simp [Fits])

theorem checkOpen_safe (k : ℕ) : Safe Fits Inv Later (checkOpen k) :=
  Safe.get.bind fun _ => Safe.require _ (by simp [Fits])

theorem resultCheckOpen_safe (r : ℕ) : Safe Fits Inv Later (resultCheckOpen r) :=
  Safe.get.bind fun _ => Safe.require _ (by simp [Fits])

theorem derefConn_safe (k : ℕ) : Safe Fits Inv Later (derefConn k) :=
  Safe.get.bind fun _ => Safe.require _ (by simp [Fits])

theorem requireNonBatch_safe (k : ℕ) : Safe Fits Inv Later (requireNonBatch k) :=
  Safe.get.bind fun _ => Safe.require _ (by simp [Fits])

theorem checkPrepared_safe (k : ℕ) : Safe Fits Inv Later (checkPrepared k) :=
  Safe.get.bind fun _ => Safe.ite (Safe.require _ (by simp [Fits]))
    (Safe.require _ (by simp [Fits]))

theorem checkOpen_ok (hc : checkOpen k s = .ok () t) : s.stmtClosed k = false ∧ t = s := by
  rw [checkOpen, get_bind] at hc
  exact (require_eq_ok.1 hc).imp id Eq.symm

theorem derefConn_ok (hc : derefConn k s = .ok () t) : (s.stmts k).hasConn = true ∧ t = s := by
  rw [derefConn, get_bind] at hc
  exact (require_eq_ok.1 hc).imp id Eq.symm

/-! ## Preparing -/

/-- What the statement that executes BEGIN TRANSACTION may be assumed of. -/
def BeginSafe (begin : HandleM Unit) (s : State) : Prop :=
  s.transactionRunning = false →
    ∀ t, Inv t → t.transactionRunning = true → SafeEnd Fits Inv (Later t) (begin t)

theorem BeginSafe.later {begin : HandleM Unit} (hb : BeginSafe begin s) (h : Later s t) :
    BeginSafe begin t := by
  intro hr
  refine hb ?_
  by_contra hs
  rw [h.running (by simpa using hs)] at hr
  cases hr

theorem ensureTransactionWith_safe {begin : HandleM Unit} (hI : Inv s) (hb : BeginSafe begin s) :
    SafeEnd Fits Inv (Later s) (ensureTransactionWith begin k s) := by
  refine (checkOpen_safe k s hI).bind fun _ t ht hIt _ => ?_
  obtain ⟨-, rfl⟩ := checkOpen_ok ht
  simp only [get_bind]
  split
  · exact ⟨hIt, Std.Refl.refl t⟩
  split
  · exact ⟨hIt, Std.Refl.refl t⟩
  · next hr =>
    have hmod : SafeEnd Fits Inv (Later t)
        ((modify fun σ => { σ with transactionRunning := true } : HandleM PUnit) t) :=
      ⟨hIt.congr rfl rfl le_rfl rfl rfl rfl rfl,
        .of_eq rfl rfl (fun _ h => h) (fun _ => rfl) (fun _ h => h) fun _ => rfl⟩
    refine hmod.bind fun _ u hu hIu _ => hb (by simpa using hr) u hIu ?_
    cases hu
    rfl

theorem prepareBody_safe {begin : HandleM Unit} (env : Env) (k : ℕ) (hI : Inv s)
    (hb : BeginSafe begin s) : SafeEnd Fits Inv (Later s) (prepareBody env begin k s) := by
  rw [prepareBody, get_bind]
  refine (releaseStmtRef_safe hI).bind fun _ s₁ _ h₁ l₁ => ?_
  refine (dropSelectResult_safe env k s₁ h₁).bind fun _ s₂ _ h₂ l₂ => ?_
  refine (derefConn_safe k s₂ h₂).bind fun _ s₃ _ h₃ l₃ => ?_
  refine (connCheckOpen_safe s₃ h₃).bind fun _ s₄ _ h₄ l₄ => ?_
  refine (ensureTransactionWith_safe h₄ (hb.later l₁ |>.later l₂ |>.later l₃ |>.later l₄)).bind
    fun _ s₅ _ h₅ _ => ?_
  refine (derefConn_safe k s₅ h₅).bind fun _ s₆ e₆ h₆ _ => ?_
  obtain ⟨hk, rfl⟩ := derefConn_ok e₆
  refine (create_safe env .connRef s₆ h₆).bind fun a s₇ e₇ h₇ _ => ?_
  have hset : SafeEnd Fits Inv (Later s₇) (setStmtRef k a s₇) := by
    obtain ⟨b, hb, -, rfl⟩ := create_ok e₇
    exact setStmtRef_safe h₇ (create_loose h₆ e₇) hk (by simp [hb])
  refine hset.bind fun _ s₈ _ h₈ _ => SafeEnd.discard ?_
  refine (ref_safe (.stmtRef k) s₈ h₈).bind fun a s₉ e₉ h₉ _ => native_safe env h₉ fun b hb => ?_
  obtain ⟨rfl, ha⟩ := ref_ok e₉
  rw [List.mem_singleton.1 hb]
  exact h₉.live _ a ha

theorem prepareWith_safe {begin : HandleM Unit} (env : Env) (k : ℕ) (hI : Inv s)
    (hb : BeginSafe begin s) : SafeEnd Fits Inv (Later s) (prepareWith env begin k s) := by
  refine (checkOpen_safe k s hI).bind fun _ t ht hIt _ => ?_
  obtain ⟨-, rfl⟩ := checkOpen_ok ht
  simp only [get_bind]
  split
  · refine (prepareBody_safe env k hIt hb).catchWith fun e u _ he hIu _ => ?_
    refine SafeEnd.bind ?_ fun _ v _ hIv _ => Safe.throw he v hIv
    split
    · exact closeStmt_safe env k u hIu
    · exact ⟨hIu, Std.Refl.refl u⟩
  · exact modifyStmt_safe k (by intro _; exact .inr rfl) (by intro _; rfl) t hIt

/-! ## Executing -/

/-- A native result that statement `k` may take. -/
def Taken (σ : State) (k : ℕ) (h : Handle) : Prop := Loose σ h ∧ k ∈ σ.preparedStatements

theorem create_preparedStatements {o : Ref} (hc : create env o s = .ok h t) :
    t.preparedStatements = s.preparedStatements := by
  obtain ⟨a, -, -, rfl⟩ := create_ok hc
  rfl

theorem create_connected (hc : create env .connRef s = .ok h t) : t.refs .connRef ≠ none := by
  obtain ⟨a, ha, -, rfl⟩ := create_ok hc
  simp [ha]

theorem executeDirect_safe (env : Env) (k : ℕ) : Safe Fits Inv Later (executeDirect env k) := by
  intro s hI
  refine (derefConn_safe k s hI).bind fun _ s₁ _ h₁ _ => ?_
  refine (connCheckOpen_safe s₁ h₁).bind fun _ s₂ _ h₂ _ => ?_
  refine (create_safe env .connRef s₂ h₂).bind fun a s₃ e₃ h₃ _ => ?_
  refine (newPending_safe h₃ (create_loose h₂ e₃) (create_connected e₃)).bind
    fun p s₄ _ h₄ _ => ?_
  exact (create_safe env (.pendingRef p) s₄ h₄).bind fun _ s₅ _ h₅ _ => Safe.pure _ s₅ h₅

theorem executeDirect_ok {x : Handle × Option ℕ} (hI : Inv s)
    (hx : executeDirect env k s = .ok x t) : Taken t k x.1 := by
  rw [executeDirect, bind_eq_ok] at hx
  obtain ⟨_, s₁, e₁, hx⟩ := hx
  obtain ⟨-, rfl⟩ := derefConn_ok e₁
  obtain ⟨_, s₂, e₂, hx⟩ := bind_eq_ok.1 hx
  have h₂ := (connCheckOpen_safe s₁ hI).of_ok e₂
  obtain ⟨a, s₃, e₃, hx⟩ := bind_eq_ok.1 hx
  have h₃ := (create_safe env .connRef s₂ h₂.1).of_ok e₃
  obtain ⟨p, s₄, e₄, hx⟩ := bind_eq_ok.1 hx
  have h₄ := (newPending_safe (k := k) h₃.1 (create_loose h₂.1 e₃) (create_connected e₃)).of_ok e₄
  obtain ⟨r, s₅, e₅, hx⟩ := bind_eq_ok.1 hx
  cases hx
  refine ⟨create_loose h₄.1 e₅, ?_⟩
  rw [create_preparedStatements e₅]
  cases e₄
  exact mem_addTo.2 (.inr rfl)

theorem executeBody_safe {begin : HandleM Unit} (env : Env) (k : ℕ) (hI : Inv s)
    (hb : BeginSafe begin s) :
    SafeEnd Fits Inv (Later s) (executeBody env begin k s) ∧
      ∀ x t, executeBody env begin k s = .ok x t → Taken t k x.1 := by
  have hrest : ∀ u, Inv u → SafeEnd Fits Inv (Later u) ((if (u.stmts k).isPreparedStatement then do
        let r ← create env (.stmtRef k)
        pure (r, none)
      else executeDirect env k : HandleM (Handle × Option ℕ)) u) := by
    intro u hIu
    split
    · exact (create_safe env _ u hIu).bind fun _ v _ hIv _ => Safe.pure _ v hIv
    · exact executeDirect_safe env k u hIu
  have h₁ := checkOpen_safe k s hI
  constructor
  · refine h₁.bind fun _ s₁ _ h₁ l₁ => ?_
    refine (checkPrepared_safe k s₁ h₁).bind fun _ s₂ _ h₂ l₂ => ?_
    refine (dropSelectResult_safe env k s₂ h₂).bind fun _ s₃ _ h₃ l₃ => ?_
    exact (ensureTransactionWith_safe h₃ (hb.later l₁ |>.later l₂ |>.later l₃)).bind
      fun _ s₄ _ h₄ _ => hrest s₄ h₄
  · intro x t hx
    rw [executeBody] at hx
    obtain ⟨_, s₁, e₁, hx⟩ := bind_eq_ok.1 hx
    obtain ⟨i₁, l₁⟩ := h₁.of_ok e₁
    obtain ⟨_, s₂, e₂, hx⟩ := bind_eq_ok.1 hx
    obtain ⟨i₂, l₂⟩ := (checkPrepared_safe k s₁ i₁).of_ok e₂
    obtain ⟨_, s₃, e₃, hx⟩ := bind_eq_ok.1 hx
    obtain ⟨i₃, l₃⟩ := (dropSelectResult_safe env k s₂ i₂).of_ok e₃
    obtain ⟨_, s₄, e₄, hx⟩ := bind_eq_ok.1 hx
    have i₄ := ((ensureTransactionWith_safe i₃ (hb.later l₁ |>.later l₂ |>.later l₃)).of_ok e₄).1
    rw [get_bind] at hx
    split at hx
    · obtain ⟨r, s₅, e₅, hx⟩ := bind_eq_ok.1 hx
      cases hx
      refine ⟨create_loose i₄ e₅, ?_⟩
      rw [create_preparedStatements e₅]
      obtain ⟨a, ha, -, -⟩ := create_ok e₅
      by_contra hk
      rw [(i₄.tracked k hk).2] at ha
      cases ha
    · exact executeDirect_ok i₄ hx

/-! ## The end of an execution -/

theorem closePending_safe (env : Env) (p : ℕ) : Safe Fits Inv Later (closePending env p) := by
  intro s hI
  rw [closePending, get_bind]
  split
  · exact ⟨hI, Std.Refl.refl s⟩
  · refine (releaseRef_safe env hI fun h => by cases h).bind fun _ t _ hIt _ => ?_
    rw [modify_apply]
    split
    · exact ⟨hIt, Std.Refl.refl t⟩
    · exact ⟨hIt.congr rfl rfl le_rfl rfl rfl rfl rfl,
        .of_eq rfl rfl (fun _ h => h) (fun _ => rfl) (fun _ h => h) id⟩

theorem Loose.congr (hl : Loose s h) (hrefs : t.refs = s.refs) (htrace : t.trace = s.trace)
    (hnext : t.next = s.next) : Loose t h :=
  ⟨⟨hnext ▸ hl.1.1, by rw [Released, htrace]; exact hl.1.2⟩, hrefs ▸ hl.2⟩

theorem closePending_loose {p : ℕ} (hl : Loose s h) (hp : closePending env p s = .ok () t) :
    Loose t h := by
  rw [closePending, get_bind] at hp
  split at hp
  · cases hp
    exact hl
  · obtain ⟨_, u, hr, hp⟩ := bind_eq_ok.1 hp
    obtain ⟨a, ha, rfl⟩ := releaseRef_ok env hr
    have hu : Loose { s with
        refs := Function.update s.refs (.pendingRef p) none
        trace := s.trace ++ [⟨[a], some a⟩] } h := by
      refine ⟨⟨hl.1.1, fun hr => ?_⟩, fun o ho => ?_⟩
      · rcases released_append.1 (show Released { s with trace := _ } h from hr) with hr | hr
        · exact hl.1.2 hr
        · cases hr
          exact hl.2 _ ha
      · by_cases hop : o = .pendingRef p
        · simp [hop] at ho
        · exact hl.2 o (by simpa [hop] using ho)
    rw [modify_apply] at hp
    cases hp
    split
    · exact hu
    · exact hu.congr rfl rfl rfl

/-- A native call that releases nothing, however it ends. -/
theorem native_loose (env : Env) (args : List Handle) (hl : Loose s h) :
    Loose (final (native env args none s)) h ∧
      (final (native env args none s)).preparedStatements = s.preparedStatements := by
  have hrec : Loose { s with trace := s.trace ++ [⟨args, none⟩] } h := by
    refine ⟨⟨hl.1.1, fun hr => ?_⟩, hl.2⟩
    rcases released_append.1 hr with hr | hr
    · exact hl.1.2 hr
    · cases hr
  rcases native_cases env args none s with ⟨n, hn⟩ | hn
  · rw [hn]
    exact ⟨hrec, rfl⟩
  · rw [hn]
    exact ⟨hrec, rfl⟩

theorem executeFinally_safe (env : Env) (k : ℕ) {resultRef : Option Handle} (p : Option ℕ)
    (failed : Bool) (hI : Inv s) (hl : failed = true → ∀ h, resultRef = some h → Loose s h) :
    SafeEnd Fits Inv (Later s) (executeFinally env k resultRef p failed s) := by
  have hmod : Safe Fits Inv Later (modifyStmt k fun st => { st with hasQuery := false }) :=
    modifyStmt_safe k (by intro _; exact .inr rfl) (by intro _; rfl)
  refine (hmod s hI).bind fun _ s₁ e₁ h₁ _ => ?_
  have hl₁ : failed = true → ∀ h, resultRef = some h → Loose s₁ h := by
    intro hf h hr
    cases e₁
    exact (hl hf h hr).congr rfl rfl rfl
  refine SafeEnd.bind ?_ fun _ s₂ e₂ h₂ _ => ?_
  · cases p with
    | none => exact ⟨h₁, Std.Refl.refl s₁⟩
    | some p => exact closePending_safe env p s₁ h₁
  have hl₂ : failed = true → ∀ h, resultRef = some h → Loose s₂ h := by
    intro hf h hr
    cases p with
    | none => cases e₂; exact hl₁ hf h hr
    | some p => exact closePending_loose (hl₁ hf h hr) e₂
  split
  · next hf =>
    rw [get_bind]
    refine SafeEnd.bind ?_ fun _ s₃ _ h₃ _ => closeStmt_safe env k s₃ h₃
    cases hsel : (s₂.stmts k).selectResult with
    | some r => exact closeResult_safe env r s₂ h₂
    | none =>
      cases resultRef with
      | none => exact ⟨h₂, Std.Refl.refl s₂⟩
      | some h =>
        have hh := hl₂ hf h rfl
        exact (native_release_safe env h₂ hh.1 hh.2).discard
  · exact ⟨h₂, Std.Refl.refl s₂⟩

/-! ## Fetching -/

theorem modifyResult_safe (r : ℕ) {f : ResultSet → ResultSet}
    (hf : ∀ rs, (f rs).stmt = rs.stmt ∧ (f rs).origin = rs.origin) :
    Safe Fits Inv Later (modifyResult r f) := by
  intro s hI
  have hcases : ∀ j, (Function.update s.results r (f (s.results r)) j).stmt = (s.results j).stmt ∧
      (Function.update s.results r (f (s.results r)) j).origin = (s.results j).origin := by
    intro j
    by_cases hj : j = r
    · rw [hj, Function.update_self]
      exact hf _
    · rw [Function.update_of_ne hj]
      exact ⟨rfl, rfl⟩
  refine ⟨⟨⟨hI.linear, hI.released_lt, hI.live, hI.distinct⟩, ⟨fun k j hj => ?_, hI.tracked,
    hI.gone, hI.disconnected, fun j hj => ?_, hI.result_lt⟩⟩,
    .of_eq rfl rfl (fun _ h => h) (fun j => (hcases j).1) (fun _ h => h) id⟩
  · exact (hI.current k j hj).imp_right fun he => (hcases j).1.trans he
  · show _ = some (Function.update s.results r (f (s.results r)) j).origin ∨
      _ ∧ Released s (Function.update s.results r (f (s.results r)) j).origin
    rw [(hcases j).2]
    exact hI.result j hj

theorem fetchChunk_safe (env : Env) (r : ℕ) : Safe Fits Inv Later (fetchChunk env r) := by
  intro s hI
  refine SafeEnd.catchWith ?_ fun e t _ he hIt _ => ?_
  · refine (connCheckOpen_safe s hI).bind fun _ s₁ _ h₁ _ => ?_
    refine (resultCheckOpen_safe r s₁ h₁).bind fun _ s₂ _ h₂ _ => ?_
    refine (ref_safe (.resultRef r) s₂ h₂).bind fun a s₃ e₃ h₃ _ => ?_
    refine (ref_safe .connRef s₃ h₃).bind fun b s₄ e₄ h₄ _ => ?_
    obtain ⟨rfl, ha⟩ := ref_ok e₃
    obtain ⟨rfl, hb⟩ := ref_ok e₄
    refine (native_safe env h₄ fun c hc => ?_).bind fun _ s₅ _ h₅ _ => Safe.pure _ s₅ h₅
    rcases List.mem_cons.1 hc with rfl | hc
    · exact h₄.live _ c ha
    · rw [List.mem_singleton.1 hc]
      exact h₄.live _ b hb
  · refine SafeEnd.bind ?_ fun _ u _ hIu _ => Safe.throw he u hIu
    split
    · exact closeResult_safe env r t hIt
    · exact ⟨hIt, Std.Refl.refl t⟩

/-- **`next`** keeps the invariant. -/
theorem next_safe (env : Env) (r : ℕ) : Safe Fits Inv Later (next env r) := by
  refine (resultCheckOpen_safe r).bind fun _ => Safe.get.bind fun σ => Safe.ite (.pure _) ?_
  refine (modifyResult_safe r (by intro _; exact ⟨rfl, rfl⟩)).bind fun _ =>
    Safe.get.bind fun τ => ?_
  refine Safe.bind ?_ fun _ => Safe.get.bind fun υ => Safe.ite ?_ (.pure _)
  · exact Safe.ite ((fetchChunk_safe env r).bind fun _ =>
      modifyResult_safe r (by intro _; exact ⟨rfl, rfl⟩)) (.pure _)
  · exact (modifyResult_safe r (by intro _; exact ⟨rfl, rfl⟩)).bind fun _ => .pure _

theorem readChangedRows_safe (env : Env) (k : ℕ) : Safe Fits Inv Later (readChangedRows env k) := by
  refine Safe.get.bind fun σ => Safe.ite ?_ (.pure _)
  cases (σ.stmts k).selectResult with
  | none => exact Safe.throw (by simp [Fits])
  | some r => exact (next_safe env r).discard.bind fun _ => closeResult_safe env r

/-- `query_result_meta` and the result set that takes the native result. -/
theorem takeResult_safe (env : Env) (type : ℕ → StatementReturnType) (hI : Inv s)
    (ht : Taken s k h) :
    SafeEnd Fits Inv (Later s) ((do
      let n ← native env [h] none
      newResult k h (type n) : HandleM Unit) s) := by
  refine (native_safe env hI fun a ha => ?_).bind fun n t hn hIt _ => ?_
  · rw [List.mem_singleton.1 ha]
    exact ht.1.1
  · obtain ⟨hl, hk⟩ := native_loose env [h] ht.1
    rw [hn] at hl hk
    exact newResult_safe _ hIt hl (hk ▸ ht.2)

/-- When that fails, nothing has taken it. -/
theorem takeResult_error (type : ℕ → StatementReturnType) {e : Thrown} (hl : Loose s h)
    (he : (do
      let n ← native env [h] none
      newResult k h (type n) : HandleM Unit) s = .error e t) : Loose t h := by
  have hn := (native_loose env [h] hl).1
  rcases bind_eq_error.1 he with he | ⟨n, u, hu, he⟩
  · rw [he] at hn
    exact hn
  · rw [hu] at hn
    rw [newResult, get_bind, require_bind] at he
    split at he
    · cases he
    · cases he
      exact hn

/-- **`execute`** keeps the invariant. -/
theorem executeWith_safe {begin : HandleM Unit} (env : Env) (k : ℕ) (hI : Inv s)
    (hb : BeginSafe begin s) : SafeEnd Fits Inv (Later s) (executeWith env begin k s) := by
  refine (checkOpen_safe k s hI).bind fun _ s₁ _ h₁ l₁ => ?_
  refine (checkPrepared_safe k s₁ h₁).bind fun _ s₂ _ h₂ l₂ => ?_
  obtain ⟨hbody, htaken⟩ := executeBody_safe env k h₂ (hb.later l₁ |>.later l₂)
  refine SafeEnd.bind (hbody.catchWith fun e t _ he hIt _ => ?_) fun x s₃ e₃ h₃ _ => ?_
  · exact (executeFinally_safe env k none e.isSql hIt fun _ _ hr => by cases hr).bind
      fun _ u _ hIu _ => Safe.throw he u hIu
  have ht : Taken s₃ k x.1 := by
    rw [catchWith_apply] at e₃
    cases hx : executeBody env begin k s₂ with
    | ok y t =>
      rw [hx] at e₃
      cases e₃
      exact htaken x s₃ hx
    | error e t =>
      rw [hx] at e₃
      obtain ⟨_, _, _, e₃⟩ := bind_eq_ok.1 e₃
      cases e₃
  obtain ⟨h, p⟩ := x
  refine ((takeResult_safe env env.returns h₃ ht).catchWith fun e t e₄ he hIt _ => ?_).bind
    fun _ s₄ _ h₄ _ => ?_
  · refine SafeEnd.bind (executeFinally_safe env k p e.isSql hIt fun _ _ hr => ?_)
      fun _ u _ hIu _ => Safe.throw he u hIu
    cases hr
    exact takeResult_error _ ht.1 e₄
  refine (executeFinally_safe env k p false h₄ fun hf => by cases hf).bind fun _ s₅ _ h₅ _ => ?_
  refine (readChangedRows_safe env k s₅ h₅).bind fun _ s₆ _ h₆ _ => ?_
  exact ⟨h₆, Std.Refl.refl s₆⟩

/-- The statement that executes BEGIN TRANSACTION needs no transaction of its own. -/
theorem beginAt_safe (env : Env) (depth : ℕ) (hI : Inv s) (hr : s.transactionRunning = true) :
    SafeEnd Fits Inv (Later s) (beginAt env (depth + 1) s) := by
  refine (createStatement_safe s hI).bind fun k t _ hIt l => ?_
  have hrun := l.running hr
  have hb : ∀ {u}, Later t u → BeginSafe (beginAt env depth) u := by
    intro u hu hf
    rw [hu.running hrun] at hf
    cases hf
  refine SafeEnd.bind (SafeEnd.catchWith ?_ fun e u _ he hIu _ => ?_)
    fun _ v _ hIv _ => closeStmt_safe env k v hIv
  · refine (requireNonBatch_safe k t hIt).bind fun _ s₁ _ h₁ l₁ => ?_
    refine (prepareWith_safe env k h₁ (hb l₁)).bind fun _ s₂ _ h₂ l₂ => ?_
    exact (executeWith_safe env k h₂ ((hb l₁).later l₂)).discard
  · refine SafeEnd.bind (SafeEnd.catchWith (closeStmt_safe env k u hIu) fun _ v _ _ hIv _ => ?_)
      fun _ v _ hIv _ => Safe.throw he v hIv
    exact ⟨hIv, Std.Refl.refl v⟩

theorem beginTransaction_safe (env : Env) (s : State) : BeginSafe (beginTransaction env) s :=
  fun _ _ hIt hr => beginAt_safe env 0 hIt hr

theorem prepare_safe (env : Env) (k : ℕ) : Safe Fits Inv Later (prepare env k) :=
  fun s hI => prepareWith_safe env k hI (beginTransaction_safe env s)

theorem execute_safe (env : Env) (k : ℕ) : Safe Fits Inv Later (execute env k) :=
  fun s hI => executeWith_safe env k hI (beginTransaction_safe env s)

theorem executeQuery_safe (env : Env) (k : ℕ) : Safe Fits Inv Later (executeQuery env k) :=
  (requireNonBatch_safe k).bind fun _ => (execute_safe env k).bind fun _ =>
    (Safe.require _ (by simp [Fits])).bind fun _ => Safe.get.bind fun _ => .pure _

theorem getResultSet_safe (k : ℕ) : Safe Fits Inv Later (getResultSet k) := by
  refine (checkOpen_safe k).bind fun _ => Safe.get.bind fun σ => Safe.ite ?_ (.pure _)
  exact (modifyStmt_safe k (by intro _; exact .inl rfl) (by intro _; rfl)).bind fun _ => .pure _

theorem closeOnCompletion_safe (k : ℕ) : Safe Fits Inv Later (closeOnCompletion k) :=
  (checkOpen_safe k).bind fun _ => modifyStmt_safe k (by intro _; exact .inr rfl) (by intro _; rfl)

end

end DuckDBJava.Handles
