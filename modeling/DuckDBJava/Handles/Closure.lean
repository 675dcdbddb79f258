/-
  Which result sets a statement and a connection close: the current result set of the statement,
  and the current result sets of all statements of the connection.
-/
import DuckDBJava.Handles.Executing

namespace DuckDBJava.Handles

open Exec Connection

/-- The current result set of statement `k` is one of its own. -/
def OwnCurrent (k : ℕ) (σ : State) : Prop :=
  ∀ r, (σ.stmts k).selectResult = some r → (σ.results r).stmt = k

/-- Closing statement `k` touches its current result set only. -/
structure Touches (k : ℕ) (s t : State) : Prop where
  results : t.results = s.results
  stmts : ∀ j, j ≠ k → t.stmts j = s.stmts j
  current : (t.stmts k).selectResult = (s.stmts k).selectResult ∨ (t.stmts k).selectResult = none
  resultRef : ∀ r, (s.stmts k).selectResult ≠ some r →
    t.refs (.resultRef r) = s.refs (.resultRef r)
  stmtRef : ∀ j, j ≠ k → t.refs (.stmtRef j) = s.refs (.stmtRef j)
  tracked : ∀ j ∈ t.preparedStatements, j ∈ s.preparedStatements

namespace Touches

variable {k : ℕ}

theorem current_ne {s t : State} (h : Touches k s t) {r : ℕ}
    (hr : (s.stmts k).selectResult ≠ some r) : (t.stmts k).selectResult ≠ some r := by
  rcases h.current with he | hn
  · rwa [he]
  · simp [hn]

instance : Std.Refl (Touches k) where
  refl _ := ⟨rfl, fun _ _ => rfl, .inl rfl, fun _ _ => rfl, fun _ _ => rfl, fun _ h => h⟩

instance : IsTrans State (Touches k) where
  trans s t u h h' := by
    refine ⟨h'.results.trans h.results, fun j hj => (h'.stmts j hj).trans (h.stmts j hj), ?_,
      fun r hr => (h'.resultRef r (h.current_ne hr)).trans (h.resultRef r hr),
      fun j hj => (h'.stmtRef j hj).trans (h.stmtRef j hj),
      fun j hj => h.tracked j (h'.tracked j hj)⟩
    rcases h'.current with he | hn
    · rw [he]
      exact h.current
    · exact .inr hn

theorem ownCurrent {s t : State} (h : Touches k s t) (hs : OwnCurrent k s) : OwnCurrent k t := by
  intro r hr
  rw [h.results]
  rcases h.current with he | hn
  · exact hs r (he ▸ hr)
  · rw [hn] at hr; cases hr

end Touches

section
variable {env : Env} {f : ℕ → HandleM Unit} {k r : ℕ} {s t : State}

/-- `x` touches the current result set of `k` only. -/
abbrev TouchesEnd (k : ℕ) (s : State) : EStateM.Result Thrown State Unit → Prop :=
  SafeEnd (fun _ => True) (OwnCurrent k) (Touches k s)

theorem touchesEnd_of {a : EStateM.Result Thrown State Unit} (hs : OwnCurrent k s)
    (h : Touches k s (final a)) : TouchesEnd k s a := by
  cases a with
  | ok _ _ => exact ⟨h.ownCurrent hs, h⟩
  | error _ _ => exact ⟨trivial, h.ownCurrent hs, h⟩

/-- A release of the prepared statement or of the current result set. -/
theorem releaseRef_touches {o : Ref} (hs : OwnCurrent k s)
    (ho : o = .stmtRef k ∨ ∃ r, (s.stmts k).selectResult = some r ∧ o = .resultRef r) :
    TouchesEnd k s (releaseRef env o s) := by
  refine touchesEnd_of hs ?_
  cases hr : releaseRef env o s with
  | ok a t =>
    obtain ⟨h, -, rfl⟩ := releaseRef_ok env hr
    refine ⟨rfl, fun _ _ => rfl, .inl rfl, fun r' hr' => ?_, fun j hj => ?_, fun _ h => h⟩
    · refine Function.update_of_ne ?_ _ _
      rcases ho with rfl | ⟨r, hcur, rfl⟩
      · simp
      · rintro ⟨⟩
        exact hr' hcur
    · refine Function.update_of_ne ?_ _ _
      rcases ho with rfl | ⟨r, -, rfl⟩
      · simpa using hj
      · simp
  | error e t =>
    rw [releaseRef, bind_eq_error] at hr
    have hrec : ∀ c, Touches k s { s with trace := s.trace ++ [c] } := fun _ =>
      ⟨rfl, fun _ _ => rfl, .inl rfl, fun _ _ => rfl, fun _ _ => rfl, fun _ h => h⟩
    rcases hr with hr | ⟨h, u, hu, hr⟩
    · unfold ref at hr
      cases ho' : s.refs o <;> rw [ho'] at hr <;> cases hr
      exact Std.Refl.refl s
    · obtain ⟨rfl, -⟩ := ref_ok hu
      rcases native_cases env [h] (some h) u with ⟨n, hn⟩ | hn
      · rw [bind_ok (a := PUnit.unit) (by rw [discard_apply, hn])] at hr
        cases hr
      · rw [bind_error (by rw [discard_apply, hn])] at hr
        cases hr
        exact hrec _

theorem modifyStmt_touches {g : Statement → Statement} (hs : OwnCurrent k s)
    (hg : ∀ st, (g st).selectResult = none ∨ (g st).selectResult = st.selectResult) :
    TouchesEnd k s (modifyStmt k g s) := by
  refine touchesEnd_of hs ⟨rfl, fun j hj => Function.update_of_ne hj _ _, ?_, fun _ _ => rfl,
    fun _ _ => rfl, fun _ h => h⟩
  show (Function.update s.stmts k (g (s.stmts k)) k).selectResult = _ ∨
    (Function.update s.stmts k (g (s.stmts k)) k).selectResult = _
  rw [Function.update_self]
  exact (hg _).symm

theorem closeStmtWith_touches (hs : OwnCurrent k s)
    (hf : ∀ r, (s.stmts k).selectResult = some r → TouchesEnd k s (f r s)) :
    TouchesEnd k s (closeStmtWith env f k s) := by
  cases hc : s.stmtClosed k with
  | true =>
    rw [closeStmtWith_closed hc]
    exact ⟨hs, Std.Refl.refl s⟩
  | false =>
    rw [closeStmtWith_open hc]
    have hdrop : TouchesEnd k s (dropSelectResultWith f k s) := by
      cases hsel : (s.stmts k).selectResult with
      | none =>
        rw [dropSelectResultWith_none hsel]
        exact ⟨hs, Std.Refl.refl s⟩
      | some r =>
        rw [dropSelectResultWith_some hsel]
        exact (hf r hsel).bind fun _ t _ ht _ => modifyStmt_touches ht (by intro _; exact .inl rfl)
    refine hdrop.bind fun _ t _ ht _ => ?_
    rw [get_bind]
    refine SafeEnd.bind ?_ fun _ u _ hu _ =>
      (modifyStmt_touches hu (by intro _; exact .inr rfl)).bind fun _ v _ hv _ => ?_
    · split
      · exact ⟨ht, Std.Refl.refl t⟩
      · exact releaseRef_touches ht (.inl rfl)
    · refine touchesEnd_of hv ?_
      show Touches k v (if v.closing then v else _)
      split
      · exact Std.Refl.refl v
      · exact ⟨rfl, fun _ _ => rfl, .inl rfl, fun _ _ => rfl, fun _ _ => rfl,
          fun _ h => (List.mem_filter.1 h).1⟩

theorem closeResultAt_touches : ∀ (depth : ℕ) {s : State} {r : ℕ}, OwnCurrent k s →
    (s.stmts k).selectResult = some r → TouchesEnd k s (closeResultAt env depth r s) := by
  intro depth
  induction depth with
  | zero =>
    intro s r hs _
    rw [closeResultAt, get_bind]
    split
    · exact ⟨hs, Std.Refl.refl s⟩
    · exact ⟨trivial, hs, Std.Refl.refl s⟩
  | succ depth ih =>
    intro s r hs hr
    by_cases hc : s.refs (.resultRef r) = none
    · rw [closeResultAt_closed _ hc]
      exact ⟨hs, Std.Refl.refl s⟩
    · rw [closeResultAt_open hc]
      refine (releaseRef_touches hs (.inr ⟨r, hr, rfl⟩)).bind fun _ t _ ht l => ?_
      rw [get_bind]
      split
      · rw [l.results, hs r hr]
        exact closeStmtWith_touches ht fun r' hr' => ih ht hr'
      · exact ⟨ht, Std.Refl.refl t⟩

theorem closeStmt_touches (hI : Inv s) : TouchesEnd k s (closeStmt env k s) :=
  have hs : OwnCurrent k s := fun r hr => (hI.current k r hr).2
  closeStmtWith_touches hs fun _ hr => closeResultAt_touches closeDepth hs hr

/-! ## What closing closes -/

theorem closeStmtWith_later (depth : ℕ) (hI : Inv s) :
    SafeEnd Fits Inv (Later s) (closeStmtWith env (closeResultAt env (depth + 1)) k s) :=
  closeStmtWith_safe hI fun _ hr => closeResultAt_current depth hI hr

/-- A result set that was closed is closed. -/
theorem closeResult_ok (hI : Inv s) (h : closeResult env r s = .ok () t) :
    t.refs (.resultRef r) = none := by
  by_cases hc : s.refs (.resultRef r) = none
  · rw [closeResult, closeResultAt_closed _ hc] at h
    cases h
    exact hc
  · obtain ⟨a, ha⟩ := Option.ne_none_iff_exists'.1 hc
    rw [closeResult, closeDepth, closeResultAt_open hc] at h
    obtain ⟨_, u, hu, h⟩ := bind_eq_ok.1 h
    have hIu := ((releaseRef_safe env (o := .resultRef r) hI fun h => by cases h).of_ok hu).1
    obtain ⟨b, -, rfl⟩ := releaseRef_ok env hu
    rw [get_bind] at h
    split at h
    · have hl := ((closeStmtWith_later 0 hIu).of_ok h).2
      exact hl.closed r (hI.result_lt r a ha) (by simp)
    · cases h
      simp

theorem dropSelectResult_ok (hI : Inv s) (h : dropSelectResult env k s = .ok () t)
    (hr : (s.stmts k).selectResult = some r) : t.refs (.resultRef r) = none := by
  rw [dropSelectResult, dropSelectResultWith_some hr] at h
  obtain ⟨_, u, hu, h⟩ := bind_eq_ok.1 h
  have hc := closeResult_ok hI hu
  cases h
  exact hc

/-- **Closing a statement** closes its current result set and no other. -/
theorem closeStmt_ok (hI : Inv s) (h : closeStmt env k s = .ok () t) :
    (∀ r, t.refs (.resultRef r) =
      if (s.stmts k).selectResult = some r then none else s.refs (.resultRef r)) ∧
    (t.stmts k).selectResult = none ∧ t.refs (.stmtRef k) = none ∧
    (k < s.stmtCount → t.stmtClosed k = true) := by
  have htouch := ((closeStmt_touches (k := k) hI).of_ok h).2
  cases hc : s.stmtClosed k with
  | true =>
    rw [closeStmt, closeStmtWith_closed hc] at h
    cases h
    have hnone : (s.stmts k).selectResult = none ∧ s.refs (.stmtRef k) = none := by
      rcases stmtClosed_eq_true.1 hc with hg | hn
      · exact hI.gone k hg
      · exact hI.tracked k (by simp [hI.disconnected hn])
    exact ⟨fun r => by simp [hnone.1], hnone.1, hnone.2, fun _ => hc⟩
  | false =>
    rw [closeStmt, closeStmtWith_open hc] at h
    obtain ⟨_, u, hu, h⟩ := bind_eq_ok.1 h
    obtain ⟨hIu, hlu⟩ := (dropSelectResult_safe env k s hI).of_ok hu
    rw [get_bind] at h
    obtain ⟨_, v, hv, h⟩ := bind_eq_ok.1 h
    obtain ⟨-, hlv⟩ := (releaseStmtRef_safe hIu).of_ok hv
    obtain ⟨hsr, hst⟩ := releaseStmtRef_ok hv
    rw [bind_ok (modifyStmt_apply k _ v)] at h
    have hv' : (v.stmts k).selectResult = none := by rw [hst, dropSelectResultWith_ok hu]
    have hfin : t.refs = v.refs ∧
        t.stmts = (v.withStmt k { v.stmts k with hasConn := false }).stmts := by
      rw [untrackStmt, modify_apply] at h
      split at h <;> cases h <;> exact ⟨rfl, rfl⟩
    refine ⟨fun r => ?_, by rw [hfin.2, withStmt_self]; exact hv', by rw [hfin.1]; exact hsr,
      fun _ => stmtClosed_eq_true.2 (.inl (by rw [hfin.2, withStmt_self]))⟩
    split
    · next hr =>
      rw [hfin.1]
      exact hlv.closed r ((hI.current k r hr).1.trans_le hlu.resultCount_le)
        (dropSelectResult_ok hI hu hr)
    · next hr => exact htouch.resultRef r hr

/-- **Closing statements** one after the other closes their current result sets and no others. -/
theorem closeStmts_ok : ∀ (l : List ℕ) {s t : State}, Inv s →
    forEach l (closeStmt env) s = .ok () t →
    (∀ r, t.refs (.resultRef r) =
      if ∃ k ∈ l, (s.stmts k).selectResult = some r then none else s.refs (.resultRef r)) ∧
    (∀ k ∈ l, (t.stmts k).selectResult = none ∧ t.refs (.stmtRef k) = none) ∧
    (∀ k ∉ l, t.stmts k = s.stmts k ∧ t.refs (.stmtRef k) = s.refs (.stmtRef k)) ∧
    (∀ k ∈ t.preparedStatements, k ∈ s.preparedStatements) ∧ t.results = s.results := by
  intro l
  induction l with
  | nil =>
    intro s t _ h
    cases h
    exact ⟨by simp, by simp, fun _ _ => ⟨rfl, rfl⟩, fun _ h => h, rfl⟩
  | cons k l ih =>
    intro s t hI h
    rw [forEach] at h
    obtain ⟨_, u, hu, h⟩ := bind_eq_ok.1 h
    have hIu := ((closeStmt_safe env k s hI).of_ok hu).1
    have htouch := ((closeStmt_touches (k := k) hI).of_ok hu).2
    obtain ⟨hres, hsel, hsr, -⟩ := closeStmt_ok hI hu
    obtain ⟨ihres, ihin, ihout, ihps, ihresults⟩ := ih hIu h
    have hother : ∀ j, j ≠ k → (u.stmts j).selectResult = (s.stmts j).selectResult :=
      fun j hj => by rw [htouch.stmts j hj]
    refine ⟨fun r => ?_, fun j hj => ?_, fun j hj => ?_, fun j hj => htouch.tracked j (ihps j hj),
      ihresults.trans htouch.results⟩
    · rw [ihres r, hres r]
      have hex : (∃ j ∈ k :: l, (s.stmts j).selectResult = some r) ↔
          (s.stmts k).selectResult = some r ∨ ∃ j ∈ l, (u.stmts j).selectResult = some r := by
        constructor
        · rintro ⟨j, hj, hjr⟩
          by_cases hjk : j = k
          · exact .inl (hjk ▸ hjr)
          · exact .inr ⟨j, by simpa [hjk] using hj, by rw [hother j hjk, hjr]⟩
        · rintro (hk | ⟨j, hj, hjr⟩)
          · exact ⟨k, List.mem_cons_self, hk⟩
          · have hjk : j ≠ k := fun he => by rw [he, hsel] at hjr; cases hjr
            exact ⟨j, List.mem_cons_of_mem k hj, by rw [← hother j hjk, hjr]⟩
      by_cases h₁ : (s.stmts k).selectResult = some r <;>
        by_cases h₂ : ∃ j ∈ l, (u.stmts j).selectResult = some r <;> simp only [hex, h₁, h₂] <;> rfl
    · by_cases hjl : j ∈ l
      · exact ihin j hjl
      · have hjk : j = k := by simpa [hjl] using hj
        rw [(ihout j hjl).1, (ihout j hjl).2, hjk]
        exact ⟨hsel, hsr⟩
    · obtain ⟨hjk, hjl⟩ := not_or.1 (List.mem_cons.not.1 hj)
      rw [(ihout j hjl).1, (ihout j hjl).2]
      exact ⟨htouch.stmts j hjk, htouch.stmtRef j hjk⟩

/-! ## Closing the connection -/

/-- The statements and the result sets are left as they are. -/
structure Quiet (s t : State) : Prop where
  stmts : t.stmts = s.stmts
  tracked : t.preparedStatements = s.preparedStatements
  stmtRef : ∀ k, t.refs (.stmtRef k) = s.refs (.stmtRef k)
  resultRef : ∀ r, t.refs (.resultRef r) = s.refs (.resultRef r)

instance : Std.Refl Quiet where
  refl _ := ⟨rfl, rfl, fun _ => rfl, fun _ => rfl⟩

instance : IsTrans State Quiet where
  trans _ _ _ h h' := ⟨h'.stmts.trans h.stmts, h'.tracked.trans h.tracked,
    fun k => (h'.stmtRef k).trans (h.stmtRef k), fun r => (h'.resultRef r).trans (h.resultRef r)⟩

/-- Whatever a call throws. -/
abbrev Any (_ : Thrown) : Prop := True

theorem ref_quiet (o : Ref) : Keeps Any Quiet (ref o) := by
  intro s
  unfold ref
  cases s.refs o with
  | none => exact fun _ => Std.Refl.refl s
  | some a => exact Std.Refl.refl s

theorem native_quiet (env : Env) (args : List Handle) (rel : Option Handle) :
    Keeps Any Quiet (native env args rel) := by
  intro s
  rcases native_cases env args rel s with ⟨n, hn⟩ | hn
  · rw [hn]
    exact ⟨rfl, rfl, fun _ => rfl, fun _ => rfl⟩
  · rw [hn]
    exact fun _ => ⟨rfl, rfl, fun _ => rfl, fun _ => rfl⟩

theorem closePending_quiet (env : Env) (p : ℕ) : Keeps Any Quiet (closePending env p) := by
  refine Keeps.get.bind fun σ => Keeps.ite (.pure _) ?_
  refine Keeps.bind ?_ fun _ s => ?_
  · refine (ref_quiet _).bind fun h => (native_quiet env [h] (some h)).discard.bind fun _ s => ?_
    exact ⟨rfl, rfl,
      fun k => Function.update_of_ne (show Ref.stmtRef k ≠ .pendingRef p by simp) none s.refs,
      fun r => Function.update_of_ne (show Ref.resultRef r ≠ .pendingRef p by simp) none s.refs⟩
  · show Quiet s (if s.closing then s else _)
    split
    · exact Std.Refl.refl s
    · exact ⟨rfl, rfl, fun _ => rfl, fun _ => rfl⟩

/-- `close` up to the statements. -/
def beginCloseConn (env : Env) : HandleM Unit := do
  modify fun σ => { σ with closing := true }
  catchWith (do discard (do native env [← ref .connRef] none)) fun _ => pure ()
  let σ ← get
  forEach σ.pendingQueries.reverse (closePending env)
  modify fun σ => { σ with pendingQueries := [] }

theorem closeConn_open (h : s.refs .connRef ≠ none) :
    closeConn env s = (do
      beginCloseConn env
      let σ ← get
      forEach σ.preparedStatements.reverse (closeStmt env)
      modify fun σ => { σ with preparedStatements := [] }
      releaseRef env .connRef : HandleM Unit) s := by
  rw [closeConn, get_bind, if_neg (by simpa using h)]
  simp only [beginCloseConn, bind_assoc]

theorem closeConn_closed (h : s.refs .connRef = none) : closeConn env s = .ok () s := by
  rw [closeConn, get_bind, if_pos (by simpa [State.connClosed] using h)]
  rfl

theorem beginCloseConn_quiet (env : Env) : Keeps Any Quiet (beginCloseConn env) := by
  refine Keeps.bind (fun s => ⟨rfl, rfl, fun _ => rfl, fun _ => rfl⟩) fun _ => ?_
  refine Keeps.bind (Keeps.catchWith ?_ fun _ => .pure _) fun _ => Keeps.get.bind fun σ => ?_
  · exact ((ref_quiet _).bind fun h => native_quiet env [h] none).discard
  · exact (Keeps.forEach (closePending_quiet env) _).bind fun _ s =>
      ⟨rfl, rfl, fun _ => rfl, fun _ => rfl⟩

theorem beginCloseConn_safe (env : Env) : Safe Fits Inv Later (beginCloseConn env) := by
  refine Safe.bind ?_ fun _ => Safe.bind (Safe.catchWith ?_ fun _ _ => .pure _)
    fun _ => Safe.get.bind fun σ => (Safe.forEach (closePending_safe env) _).bind fun _ => ?_
  · exact fun s hI => ⟨hI.congr rfl rfl le_rfl rfl rfl rfl rfl,
      .of_eq rfl rfl (fun _ h => h) (fun _ => rfl) (fun _ h => h) id⟩
  · refine Safe.discard fun s hI => (ref_safe .connRef s hI).bind fun h t ht hIt _ =>
      native_safe env hIt fun a ha => ?_
    obtain ⟨rfl, hc⟩ := ref_ok ht
    rw [List.mem_singleton.1 ha]
    exact hIt.live _ h hc
  · exact fun s hI => ⟨hI.congr rfl rfl le_rfl rfl rfl rfl rfl,
      .of_eq rfl rfl (fun _ h => h) (fun _ => rfl) (fun _ h => h) id⟩

/-- Once all tracked statements are closed, none needs to be tracked. -/
theorem untrackAll_safe {σ : State} (hI : Inv s) (hps : σ.preparedStatements = s.preparedStatements)
    (h : forEach σ.preparedStatements.reverse (closeStmt env) s = .ok () t) (hIt : Inv t) :
    Inv { t with preparedStatements := [] } ∧ Later t { t with preparedStatements := [] } := by
  obtain ⟨-, hin, -, htr, -⟩ := closeStmts_ok _ hI h
  refine ⟨⟨⟨hIt.linear, hIt.released_lt, hIt.live, hIt.distinct⟩, ⟨hIt.current, fun k _ => ?_,
    hIt.gone, fun _ => rfl, hIt.result, hIt.result_lt⟩⟩,
    .of_eq rfl rfl (fun _ h => h) (fun _ => rfl) (fun _ h => h) id⟩
  by_cases hk : k ∈ t.preparedStatements
  · exact hin k (List.mem_reverse.2 (hps ▸ htr k hk))
  · exact hIt.tracked k hk

theorem closeConn_safe (env : Env) : Safe Fits Inv Later (closeConn env) := by
  intro s hI
  by_cases hc : s.refs .connRef = none
  · rw [closeConn_closed hc]
    exact ⟨hI, Std.Refl.refl s⟩
  · rw [closeConn_open hc]
    refine (beginCloseConn_safe env s hI).bind fun _ t _ hIt _ => ?_
    rw [get_bind]
    refine (Safe.forEach (closeStmt_safe env) _ t hIt).bind fun _ u hu hIu _ => ?_
    have hun : SafeEnd Fits Inv (Later u)
        ((modify fun σ => { σ with preparedStatements := [] } : HandleM PUnit) u) :=
      untrackAll_safe hIt rfl hu hIu
    refine hun.bind fun _ v hv hIv _ => releaseRef_safe env hIv fun _ => ?_
    cases hv
    rfl

theorem closeConn_disconnects (h : closeConn env s = .ok () t) : t.refs .connRef = none := by
  by_cases hc : s.refs .connRef = none
  · rw [closeConn_closed hc] at h
    cases h
    exact hc
  · rw [closeConn_open hc] at h
    obtain ⟨_, u, -, h⟩ := bind_eq_ok.1 h
    rw [get_bind] at h
    obtain ⟨_, v, -, h⟩ := bind_eq_ok.1 h
    rw [modify_bind] at h
    obtain ⟨a, -, rfl⟩ := releaseRef_ok env h
    simp

/-- **Closing the connection** closes the current result sets of its statements and no others. -/
theorem closeConn_ok (hI : Inv s) (h : closeConn env s = .ok () t) (r : ℕ) :
    t.refs (.resultRef r) = none ↔
      (∃ k, (s.stmts k).selectResult = some r) ∨ s.refs (.resultRef r) = none := by
  by_cases hc : s.refs .connRef = none
  · rw [closeConn_closed hc] at h
    cases h
    have hnone : ∀ k, (s.stmts k).selectResult = none := fun k =>
      (hI.tracked k (by simp [hI.disconnected hc])).1
    simp [hnone]
  · rw [closeConn_open hc] at h
    obtain ⟨_, u, hu, h⟩ := bind_eq_ok.1 h
    have hIu := ((beginCloseConn_safe env s hI).of_ok hu).1
    have hq := (beginCloseConn_quiet env).of_ok hu
    rw [get_bind] at h
    obtain ⟨_, v, hv, h⟩ := bind_eq_ok.1 h
    obtain ⟨hres, -⟩ := closeStmts_ok _ hIu hv
    rw [modify_bind] at h
    obtain ⟨a, -, rfl⟩ := releaseRef_ok env h
    have hex : (∃ k ∈ u.preparedStatements.reverse, (u.stmts k).selectResult = some r) ↔
        ∃ k, (s.stmts k).selectResult = some r := by
      rw [hq.stmts]
      refine ⟨fun ⟨k, _, hk⟩ => ⟨k, hk⟩, fun ⟨k, hk⟩ => ⟨k, List.mem_reverse.2 ?_, hk⟩⟩
      by_contra hn
      rw [← hq.stmts, (hIu.tracked k hn).1] at hk
      cases hk
    have hr : (∃ k ∈ u.preparedStatements.reverse, (u.stmts k).selectResult = some r) ∨
        s.refs (.resultRef r) = none ↔ v.refs (.resultRef r) = none := by
      rw [hres r, hq.resultRef r]
      split
      · next hk => exact ⟨fun _ => rfl, fun _ => .inl hk⟩
      · next hk => exact ⟨fun h => h.resolve_left hk, .inr⟩
    rw [← hex, hr]
    show Function.update v.refs .connRef none (.resultRef r) = none ↔ _
    rw [Function.update_of_ne (by simp)]

end

end DuckDBJava.Handles
