/-
  Closing keeps the invariant.

  A result set that closes its statement finds it with a current result set that is closed or is
  closed in turn, so that the calls nest only three deep.
-/
import DuckDBJava.Handles.Ownership

namespace DuckDBJava.Handles

open Exec Connection

/-! ## The fields -/

/-- Another statement in the place of `k`. -/
def State.withStmt (σ : State) (k : ℕ) (st : Statement) : State :=
  { σ with stmts := Function.update σ.stmts k st }

@[simp] theorem withStmt_self (σ : State) (k : ℕ) (st : Statement) :
    (σ.withStmt k st).stmts k = st := by
  simp [State.withStmt]

theorem modifyStmt_apply (k : ℕ) (f : Statement → Statement) (s : State) :
    modifyStmt k f s = .ok () (s.withStmt k (f (s.stmts k))) := rfl

/-- A statement whose current result set, if any, is the one it had. -/
theorem Inv.withStmt {σ : State} (h : Inv σ) {k : ℕ} {st : Statement}
    (hsel : st.selectResult = none ∨ st.selectResult = (σ.stmts k).selectResult)
    (hgone : st.hasConn = false → st.selectResult = none ∧ σ.refs (.stmtRef k) = none) :
    Inv (σ.withStmt k st) := by
  have hcases : ∀ j, (σ.withStmt k st).stmts j = σ.stmts j ∧ j ≠ k ∨
      j = k ∧ (σ.withStmt k st).stmts j = st := by
    intro j
    by_cases hj : j = k
    · exact .inr ⟨hj, by rw [hj, withStmt_self]⟩
    · exact .inl ⟨by simp [State.withStmt, Function.update_of_ne hj], hj⟩
  have hnone : (σ.stmts k).selectResult = none → st.selectResult = none := by
    intro hn
    rcases hsel with hs | hs
    · exact hs
    · rw [hs, hn]
  refine ⟨⟨h.linear, h.released_lt, h.live, h.distinct⟩, ⟨fun j r hj => ?_, fun j hj => ?_,
    fun j hj => ?_, h.disconnected, h.result, h.result_lt⟩⟩
  · rcases hcases j with ⟨he, -⟩ | ⟨rfl, he⟩
    · rw [he] at hj
      exact h.current j r hj
    · rw [he] at hj
      rcases hsel with hs | hs
      · rw [hs] at hj; cases hj
      · exact h.current j r (hs ▸ hj)
  · rcases hcases j with ⟨he, -⟩ | ⟨rfl, he⟩
    · rw [he]
      exact h.tracked j hj
    · rw [he]
      exact ⟨hnone (h.tracked j hj).1, (h.tracked j hj).2⟩
  · rcases hcases j with ⟨he, -⟩ | ⟨rfl, he⟩
    · rw [he] at hj ⊢
      exact h.gone j hj
    · rw [he] at hj ⊢
      exact hgone hj

theorem later_withStmt (σ : State) (k : ℕ) {st : Statement}
    (hconn : (σ.stmts k).hasConn = false → st.hasConn = false) : Later σ (σ.withStmt k st) := by
  refine .of_eq rfl rfl (fun j hj => ?_) (fun _ => rfl) (fun _ h => h) id
  by_cases hjk : j = k
  · rw [hjk, withStmt_self]
    exact hconn (hjk ▸ hj)
  · simpa [State.withStmt, Function.update_of_ne hjk] using hj

/-- Fields other than `conn` and `selectResult`. -/
theorem modifyStmt_safe (k : ℕ) {f : Statement → Statement}
    (hsel : ∀ st, (f st).selectResult = none ∨ (f st).selectResult = st.selectResult)
    (hconn : ∀ st, (f st).hasConn = st.hasConn) : Safe Fits Inv Later (modifyStmt k f) := by
  intro s hI
  rw [modifyStmt_apply]
  refine ⟨hI.withStmt (hsel _) fun hc => ?_, later_withStmt s k fun hc => by rw [hconn, hc]⟩
  rw [hconn] at hc
  refine ⟨?_, (hI.gone k hc).2⟩
  rcases hsel (s.stmts k) with hs | hs
  · exact hs
  · rw [hs, (hI.gone k hc).1]

/-! ## Statements and result sets -/

section
variable {env : Env} {f : ℕ → HandleM Unit} {k r : ℕ} {s t : State}

theorem dropSelectResultWith_none (h : (s.stmts k).selectResult = none) :
    dropSelectResultWith f k s = .ok () s := by
  rw [dropSelectResultWith, get_bind, h]
  rfl

theorem dropSelectResultWith_some (h : (s.stmts k).selectResult = some r) :
    dropSelectResultWith f k s = (do
      f r
      modifyStmt k fun st => { st with selectResult := none } : HandleM Unit) s := by
  rw [dropSelectResultWith, get_bind, h]

theorem dropSelectResultWith_ok (h : dropSelectResultWith f k s = .ok () t) :
    (t.stmts k).selectResult = none := by
  cases hs : (s.stmts k).selectResult with
  | none =>
    rw [dropSelectResultWith_none hs] at h
    cases h
    exact hs
  | some r =>
    rw [dropSelectResultWith_some hs, bind_eq_ok] at h
    obtain ⟨_, u, -, h⟩ := h
    rw [modifyStmt_apply] at h
    cases h
    rw [withStmt_self]

theorem dropSelectResultWith_safe (hI : Inv s)
    (hf : ∀ r, (s.stmts k).selectResult = some r → SafeEnd Fits Inv (Later s) (f r s)) :
    SafeEnd Fits Inv (Later s) (dropSelectResultWith f k s) := by
  cases hs : (s.stmts k).selectResult with
  | none =>
    rw [dropSelectResultWith_none hs]
    exact ⟨hI, Std.Refl.refl s⟩
  | some r =>
    rw [dropSelectResultWith_some hs]
    exact (hf r hs).bind fun _ t _ hIt _ =>
      modifyStmt_safe k (by intro _; exact .inl rfl) (by intro _; rfl) t hIt

/-- `if (stmtRef != null) { release(stmtRef); stmtRef = null; }` -/
theorem releaseStmtRef_safe (hI : Inv s) :
    SafeEnd Fits Inv (Later s)
      ((if s.refs (.stmtRef k) = none then pure () else releaseRef env (.stmtRef k)) s) := by
  split
  · exact ⟨hI, Std.Refl.refl s⟩
  · exact releaseRef_safe env hI fun h => by cases h

theorem releaseStmtRef_ok
    (h : (if s.refs (.stmtRef k) = none then pure () else releaseRef env (.stmtRef k)) s =
      .ok () t) : t.refs (.stmtRef k) = none ∧ t.stmts = s.stmts := by
  split at h
  · next hn =>
    cases h
    exact ⟨hn, rfl⟩
  · obtain ⟨a, -, rfl⟩ := releaseRef_ok env h
    exact ⟨by simp, rfl⟩

theorem untrackStmt_safe (hI : Inv s)
    (hk : (s.stmts k).selectResult = none ∧ s.refs (.stmtRef k) = none) :
    SafeEnd Fits Inv (Later s) (untrackStmt k s) := by
  rw [untrackStmt, modify_apply]
  by_cases hc : s.closing = true
  · rw [if_pos hc]
    exact ⟨hI, Std.Refl.refl s⟩
  · rw [if_neg hc]
    refine ⟨⟨⟨hI.linear, hI.released_lt, hI.live, hI.distinct⟩, ⟨hI.current, fun j hj => ?_,
      hI.gone, fun hn => ?_, hI.result, hI.result_lt⟩⟩,
      .of_eq rfl rfl (fun _ h => h) (fun _ => rfl) (fun _ h => h) id⟩
    · by_cases hjk : j = k
      · rw [hjk]
        exact hk
      · exact hI.tracked j fun hm => hj (List.mem_filter.2 ⟨hm, by simpa using hjk⟩)
    · show s.preparedStatements.filter _ = []
      rw [hI.disconnected hn]
      rfl

theorem closeStmtWith_closed (h : s.stmtClosed k = true) :
    closeStmtWith env f k s = .ok () s := by
  rw [closeStmtWith, get_bind, if_pos h]
  rfl

/-- The part of `close` of a statement that is open. -/
theorem closeStmtWith_open (h : s.stmtClosed k = false) :
    closeStmtWith env f k s = (do
      dropSelectResultWith f k
      let σ ← get
      (if σ.refs (.stmtRef k) = none then pure () else releaseRef env (.stmtRef k))
      modifyStmt k fun st => { st with hasConn := false }
      untrackStmt k : HandleM Unit) s := by
  rw [closeStmtWith, get_bind, if_neg (by simp [h])]

theorem closeStmtWith_safe (hI : Inv s)
    (hf : ∀ r, (s.stmts k).selectResult = some r → SafeEnd Fits Inv (Later s) (f r s)) :
    SafeEnd Fits Inv (Later s) (closeStmtWith env f k s) := by
  cases hc : s.stmtClosed k with
  | true =>
    rw [closeStmtWith_closed hc]
    exact ⟨hI, Std.Refl.refl s⟩
  | false =>
    rw [closeStmtWith_open hc]
    refine (dropSelectResultWith_safe hI hf).bind fun _ t ht hIt _ => ?_
    have hsel := dropSelectResultWith_ok ht
    refine (releaseStmtRef_safe hIt).bind fun _ u hu hIu _ => ?_
    obtain ⟨hnone, hst⟩ := releaseStmtRef_ok hu
    have hu' : (u.stmts k).selectResult = none := by rw [hst, hsel]
    have hmod : SafeEnd Fits Inv (Later u)
        (modifyStmt k (fun st => { st with hasConn := false }) u) :=
      ⟨hIu.withStmt (.inr rfl) fun _ => ⟨hu', hnone⟩, later_withStmt u k fun _ => rfl⟩
    refine hmod.bind fun _ v hv hIv _ => untrackStmt_safe hIv ?_
    rw [modifyStmt_apply] at hv
    cases hv
    exact ⟨by simp [hu'], hnone⟩

theorem closeResultAt_closed (depth : ℕ) (h : s.refs (.resultRef r) = none) :
    closeResultAt env depth r s = .ok () s := by
  rw [closeResultAt.eq_def, get_bind, if_pos (resultClosed_eq_true.2 h)]
  rfl

theorem closeResultAt_open {depth : ℕ} (h : s.refs (.resultRef r) ≠ none) :
    closeResultAt env (depth + 1) r s = (do
      releaseRef env (.resultRef r)
      let σ ← get
      (if (σ.stmts (σ.results r).stmt).closeOnCompletion then
        closeStmtWith env (closeResultAt env depth) (σ.results r).stmt
      else pure ()) : HandleM Unit) s := by
  rw [closeResultAt.eq_def, get_bind, if_neg (by simpa using h)]

/-- Close a result set whose statement can be closed once it is released. -/
theorem closeResultAt_safe {depth : ℕ} (hI : Inv s)
    (h : ∀ t, Inv t → t.stmts = s.stmts → t.results = s.results → t.refs (.resultRef r) = none →
      SafeEnd Fits Inv (Later t)
        (closeStmtWith env (closeResultAt env depth) (t.results r).stmt t)) :
    SafeEnd Fits Inv (Later s) (closeResultAt env (depth + 1) r s) := by
  by_cases hc : s.refs (.resultRef r) = none
  · rw [closeResultAt_closed _ hc]
    exact ⟨hI, Std.Refl.refl s⟩
  · rw [closeResultAt_open hc]
    refine (releaseRef_safe env hI fun h => by cases h).bind fun _ t ht hIt _ => ?_
    simp only [get_bind]
    split
    · refine h t hIt ?_ ?_ ?_ <;> obtain ⟨a, -, rfl⟩ := releaseRef_ok env ht <;> simp
    · exact ⟨hIt, Std.Refl.refl t⟩

/-- The current result set of its statement. -/
theorem closeResultAt_current (depth : ℕ) (hI : Inv s) (hr : (s.stmts k).selectResult = some r) :
    SafeEnd Fits Inv (Later s) (closeResultAt env (depth + 1) r s) := by
  refine closeResultAt_safe hI fun t hIt hst hres hclosed => closeStmtWith_safe hIt fun r' hr' => ?_
  rw [hres, (hI.current k r hr).2, hst, hr] at hr'
  cases hr'
  rw [closeResultAt_closed _ hclosed]
  exact ⟨hIt, Std.Refl.refl t⟩

/-- **Closing a result set** keeps the invariant, and the stack suffices. -/
theorem closeResult_safe (env : Env) (r : ℕ) : Safe Fits Inv Later (closeResult env r) :=
  fun _ hI => closeResultAt_safe hI fun _ hIt _ _ _ => closeStmtWith_safe hIt fun _ hr =>
    closeResultAt_current 0 hIt hr

/-- **Closing a statement** keeps the invariant, and the stack suffices. -/
theorem closeStmt_safe (env : Env) (k : ℕ) : Safe Fits Inv Later (closeStmt env k) :=
  fun s hI => closeStmtWith_safe hI fun r _ => closeResult_safe env r s hI

theorem dropSelectResult_safe (env : Env) (k : ℕ) :
    Safe Fits Inv Later (dropSelectResult env k) :=
  fun s hI => dropSelectResultWith_safe hI fun r _ => closeResult_safe env r s hI

end

end DuckDBJava.Handles
