/-
  What holds of the handles between the native calls.

  `Owned`: references hold distinct handles that were not released, so that a handle is released
  at most once and not used afterwards.  `Linked`: a statement with a current result set or a
  prepared statement is tracked by its connection.
-/
import DuckDBJava.Handles.Machine
import Mathlib.Data.List.Pairwise
import Mathlib.Order.Nat

namespace DuckDBJava.Handles

open Exec Connection

/-- The handle was released. -/
def Released (σ : State) (h : Handle) : Prop := ∃ c ∈ σ.trace, c.releases = some h

/-- After its release a handle is neither passed to a native call nor released again. -/
def Linear (trace : List NativeCall) : Prop :=
  trace.Pairwise fun c d => ∀ h, c.releases = some h → h ∉ d.args ∧ d.releases ≠ some h

/-- A native object that exists and was not released. -/
def Live (σ : State) (h : Handle) : Prop := h < σ.next ∧ ¬ Released σ h

/-- References hold distinct live handles. -/
structure Owned (σ : State) : Prop where
  linear : Linear σ.trace
  released_lt : ∀ h, Released σ h → h < σ.next
  live : ∀ o h, σ.refs o = some h → Live σ h
  distinct : ∀ o o' h, σ.refs o = some h → σ.refs o' = some h → o = o'

/-- How the objects refer to each other. -/
structure Linked (σ : State) : Prop where
  current : ∀ k r, (σ.stmts k).selectResult = some r →
    r < σ.resultCount ∧ (σ.results r).stmt = k
  tracked : ∀ k, k ∉ σ.preparedStatements →
    (σ.stmts k).selectResult = none ∧ σ.refs (.stmtRef k) = none
  gone : ∀ k, (σ.stmts k).hasConn = false →
    (σ.stmts k).selectResult = none ∧ σ.refs (.stmtRef k) = none
  disconnected : σ.refs .connRef = none → σ.preparedStatements = []
  result : ∀ r, r < σ.resultCount → σ.refs (.resultRef r) = some (σ.results r).origin ∨
    σ.refs (.resultRef r) = none ∧ Released σ (σ.results r).origin
  result_lt : ∀ r h, σ.refs (.resultRef r) = some h → r < σ.resultCount

/-- The invariant of the connection. -/
structure Inv (σ : State) : Prop extends Owned σ, Linked σ

/-- What a call leaves of the objects: closed ones stay closed, and closed statements get no new
    result sets. -/
structure Later (s t : State) : Prop where
  stmtCount_le : s.stmtCount ≤ t.stmtCount
  resultCount_le : s.resultCount ≤ t.resultCount
  stmt : ∀ k, k < s.stmtCount → (s.stmts k).hasConn = false → (t.stmts k).hasConn = false
  conn : s.refs .connRef = none → t.refs .connRef = none
  running : s.transactionRunning = true → t.transactionRunning = true
  result : ∀ r, r < s.resultCount → (t.results r).stmt = (s.results r).stmt
  closed : ∀ r, r < s.resultCount → s.refs (.resultRef r) = none → t.refs (.resultRef r) = none
  fresh : ∀ r, s.resultCount ≤ r → r < t.resultCount → s.refs .connRef ≠ none ∧
    ((t.results r).stmt < s.stmtCount → (s.stmts (t.results r).stmt).hasConn = true)

/-- The stack suffices. -/
def Fits (e : Thrown) : Prop := e ≠ .stackOverflow

theorem stmtClosed_eq_true {σ : State} {k : ℕ} :
    σ.stmtClosed k = true ↔ (σ.stmts k).hasConn = false ∨ σ.refs .connRef = none := by
  rw [State.stmtClosed, State.connClosed]
  cases (σ.stmts k).hasConn <;> cases σ.refs .connRef <;> simp

@[simp] theorem connClosed_eq_false {σ : State} :
    σ.connClosed = false ↔ σ.refs .connRef ≠ none := by
  rw [State.connClosed]
  cases σ.refs .connRef <;> simp

@[simp] theorem resultClosed_eq_true {σ : State} {r : ℕ} :
    σ.resultClosed r = true ↔ σ.refs (.resultRef r) = none := by
  rw [State.resultClosed]
  cases σ.refs (.resultRef r) <;> simp

namespace Later

instance : Std.Refl Later where
  refl _ := ⟨le_rfl, le_rfl, fun _ _ h => h, id, id, fun _ _ => rfl, fun _ _ h => h,
    fun _ h h' => absurd h' (Nat.not_lt.2 h)⟩

instance : IsTrans State Later where
  trans s t u h h' := by
    refine ⟨h.stmtCount_le.trans h'.stmtCount_le, h.resultCount_le.trans h'.resultCount_le,
      fun k hk hs => ?_, fun hs => h'.conn (h.conn hs), fun hs => h'.running (h.running hs),
      fun r hr => ?_, fun r hr hs => ?_, fun r hr hr' => ?_⟩
    · exact h'.stmt k (hk.trans_le h.stmtCount_le) (h.stmt k hk hs)
    · rw [h'.result r (hr.trans_le h.resultCount_le), h.result r hr]
    · exact h'.closed r (hr.trans_le h.resultCount_le) (h.closed r hr hs)
    · rcases Nat.lt_or_ge r t.resultCount with hrt | hrt
      · rw [h'.result r hrt]
        exact h.fresh r hr hrt
      · obtain ⟨hc, hk⟩ := h'.fresh r hrt hr'
        refine ⟨fun hn => hc (h.conn hn), fun hlt => ?_⟩
        by_contra hs
        have ht := h.stmt _ hlt (by simpa using hs)
        rw [hk (hlt.trans_le h.stmtCount_le)] at ht
        cases ht

/-- A state that differs in nothing `Later` speaks of. -/
theorem of_eq {s t : State} (hsc : t.stmtCount = s.stmtCount)
    (hrc : t.resultCount = s.resultCount)
    (hst : ∀ k, (s.stmts k).hasConn = false → (t.stmts k).hasConn = false)
    (hres : ∀ r, (t.results r).stmt = (s.results r).stmt)
    (href : ∀ o, s.refs o = none → t.refs o = none)
    (hrun : s.transactionRunning = true → t.transactionRunning = true) : Later s t :=
  ⟨hsc.ge, hrc.ge, fun k _ => hst k, href _, hrun, fun r _ => hres r, fun _ _ => href _,
    fun _ h h' => absurd (hrc ▸ h') (Nat.not_lt.2 h)⟩

end Later

/-! ## Native calls -/

theorem released_append {σ : State} {c : NativeCall} {h : Handle} :
    Released { σ with trace := σ.trace ++ [c] } h ↔ Released σ h ∨ c.releases = some h := by
  simp only [Released, List.mem_append, List.mem_singleton, or_and_right, exists_or,
    exists_eq_left]

/-- A native call with live handles, of which it releases one that no reference holds any
    more. -/
theorem Owned.record {σ τ : State} (h : Owned σ) {c : NativeCall}
    (hargs : ∀ a ∈ c.args, Live σ a) (hrel : ∀ a, c.releases = some a → a ∈ c.args)
    (hfree : ∀ a o, c.releases = some a → τ.refs o ≠ some a)
    (hrefs : ∀ o a, τ.refs o = some a → σ.refs o = some a)
    (htrace : τ.trace = σ.trace ++ [c]) (hnext : τ.next = σ.next) : Owned τ := by
  have hR : ∀ a, Released τ a ↔ Released σ a ∨ c.releases = some a := by
    intro a
    rw [← released_append (σ := σ), Released, Released, htrace]
  refine ⟨?_, fun a ha => ?_, fun o a ha => ?_, fun o o' a ha ha' => ?_⟩
  · rw [htrace, Linear, List.pairwise_append]
    refine ⟨h.linear, List.pairwise_singleton _ _, fun d hd c' hc' a ha => ?_⟩
    rw [List.mem_singleton.1 hc']
    have hr : Released σ a := ⟨d, hd, ha⟩
    have hn : a ∉ c.args := fun hm => (hargs a hm).2 hr
    exact ⟨hn, fun hca => hn (hrel a hca)⟩
  · rw [hnext]
    rcases (hR a).1 ha with hr | hr
    · exact h.released_lt a hr
    · exact (hargs a (hrel a hr)).1
  · obtain ⟨hlt, hnr⟩ := h.live o a (hrefs o a ha)
    refine ⟨hnext ▸ hlt, fun hr => ?_⟩
    rcases (hR a).1 hr with hr | hr
    · exact hnr hr
    · exact hfree a o hr ha
  · exact h.distinct o o' a (hrefs o a ha) (hrefs o' a ha')

/-- A state with other references, which hold no more than before. -/
theorem Linked.of_refs {σ τ : State} (h : Linked σ) (hstmts : τ.stmts = σ.stmts)
    (hps : τ.preparedStatements = σ.preparedStatements) (hres : τ.results = σ.results)
    (hrc : τ.resultCount = σ.resultCount) (hrefs : ∀ o, σ.refs o = none → τ.refs o = none)
    (hconn : τ.refs .connRef = none → σ.preparedStatements = [])
    (hrel : ∀ a, Released σ a → Released τ a)
    (hresult : ∀ r, τ.refs (.resultRef r) = σ.refs (.resultRef r) ∨
      τ.refs (.resultRef r) = none ∧ ∀ a, σ.refs (.resultRef r) = some a → Released τ a) :
    Linked τ := by
  refine ⟨?_, ?_, ?_, ?_, fun r hr => ?_, fun r a ha => ?_⟩
  · rw [hstmts, hrc, hres]
    exact h.current
  · rw [hstmts, hps]
    exact fun k hk => ⟨(h.tracked k hk).1, hrefs _ (h.tracked k hk).2⟩
  · rw [hstmts]
    exact fun k hk => ⟨(h.gone k hk).1, hrefs _ (h.gone k hk).2⟩
  · rw [hps]
    exact hconn
  · rw [hres]
    rw [hrc] at hr
    rcases hresult r with he | ⟨hn, ha⟩
    · rw [he]
      exact (h.result r hr).imp_right (And.imp_right (hrel _))
    · rcases h.result r hr with hs | ⟨-, hR⟩
      · exact .inr ⟨hn, ha _ hs⟩
      · exact .inr ⟨hn, hrel _ hR⟩
  · rw [hrc]
    rcases hresult r with he | ⟨hn, -⟩
    · exact h.result_lt r a (he ▸ ha)
    · rw [hn] at ha; cases ha

section
variable (env : Env)

theorem native_cases (args : List Handle) (rel : Option Handle) (s : State) :
    (∃ n, native env args rel s = .ok n { s with trace := s.trace ++ [⟨args, rel⟩] }) ∨
      native env args rel s =
        .error .nativeFailure { s with trace := s.trace ++ [⟨args, none⟩] } := by
  unfold native
  by_cases hf : env.fails s.trace.length
  · exact .inr (by rw [if_pos hf])
  · exact .inl ⟨_, by rw [if_neg hf]⟩

theorem Inv.record {s : State} (h : Inv s) {args : List Handle}
    (hargs : ∀ a ∈ args, Live s a) :
    Inv { s with trace := s.trace ++ [⟨args, none⟩] } where
  toOwned := h.toOwned.record hargs (fun _ ha => by cases ha) (fun _ _ ha => by cases ha)
    (fun _ _ ha => ha) rfl rfl
  toLinked := h.toLinked.of_refs rfl rfl rfl rfl (fun _ ha => ha) h.disconnected
    (fun _ ha => released_append.2 (.inl ha)) fun _ => .inl rfl

theorem later_record (s : State) (c : NativeCall) :
    Later s { s with trace := s.trace ++ [c] } :=
  .of_eq rfl rfl (fun _ h => h) (fun _ => rfl) (fun _ h => h) id

theorem native_safe {args : List Handle} {s : State} (hI : Inv s)
    (hargs : ∀ a ∈ args, Live s a) : SafeEnd Fits Inv (Later s) (native env args none s) := by
  rcases native_cases env args none s with ⟨n, h⟩ | h
  · rw [h]
    exact ⟨hI.record hargs, later_record s _⟩
  · rw [h]
    exact ⟨by simp [Fits], hI.record hargs, later_record s _⟩

/-- Release a live handle that no reference holds. -/
theorem native_release_safe {h : Handle} {s : State} (hI : Inv s) (hlive : Live s h)
    (hfree : ∀ o, s.refs o ≠ some h) :
    SafeEnd Fits Inv (Later s) (native env [h] (some h) s) := by
  have hargs : ∀ a ∈ [h], Live s a := by
    intro a ha
    rw [List.mem_singleton.1 ha]
    exact hlive
  rcases native_cases env [h] (some h) s with ⟨n, hn⟩ | hn
  · rw [hn]
    refine ⟨⟨hI.toOwned.record hargs ?_ ?_ (fun _ _ ha => ha) rfl rfl, ?_⟩, later_record s _⟩
    · rintro a ⟨⟩
      exact List.mem_singleton.2 rfl
    · rintro a o ⟨⟩
      exact hfree o
    · exact hI.toLinked.of_refs rfl rfl rfl rfl (fun _ ha => ha) hI.disconnected
        (fun _ ha => released_append.2 (.inl ha)) fun _ => .inl rfl
  · rw [hn]
    exact ⟨by simp [Fits], hI.record hargs, later_record s _⟩

theorem ref_ok {o : Ref} {s t : State} {h : Handle} (hr : ref o s = .ok h t) :
    t = s ∧ s.refs o = some h := by
  unfold ref at hr
  cases ho : s.refs o with
  | none => rw [ho] at hr; cases hr
  | some a => rw [ho] at hr; cases hr; exact ⟨rfl, rfl⟩

theorem ref_safe (o : Ref) : Safe Fits Inv Later (ref o) := by
  intro s hI
  unfold ref
  cases s.refs o with
  | none => exact ⟨by simp [Fits], hI, Std.Refl.refl s⟩
  | some a => exact ⟨hI, Std.Refl.refl s⟩

/-- What `releaseRef` leaves. -/
theorem releaseRef_ok {o : Ref} {s t : State} (hr : releaseRef env o s = .ok () t) :
    ∃ h, s.refs o = some h ∧ t = { s with
      refs := Function.update s.refs o none
      trace := s.trace ++ [⟨[h], some h⟩] } := by
  rw [releaseRef, bind_eq_ok] at hr
  obtain ⟨h, s', href, hr⟩ := hr
  obtain ⟨rfl, ho⟩ := ref_ok href
  refine ⟨h, ho, ?_⟩
  rcases native_cases env [h] (some h) s' with ⟨n, hn⟩ | hn
  · rw [bind_ok (a := PUnit.unit) (by rw [discard_apply, hn])] at hr
    cases hr
    rfl
  · rw [bind_error (by rw [discard_apply, hn])] at hr
    cases hr

theorem releaseRef_safe {o : Ref} {s : State} (hI : Inv s)
    (ho : o = .connRef → s.preparedStatements = []) :
    SafeEnd Fits Inv (Later s) (releaseRef env o s) := by
  rw [releaseRef, bind_apply]
  cases href : ref o s with
  | error e t =>
    have h := ref_safe o s hI
    rw [href] at h
    exact h
  | ok h t =>
    obtain ⟨rfl, hoh⟩ := ref_ok href
    have hargs : ∀ a ∈ [h], Live t a := by
      intro a ha
      rw [List.mem_singleton.1 ha]
      exact hI.live o h hoh
    rcases native_cases env [h] (some h) t with ⟨n, hn⟩ | hn
    · have hd : (discard (native env [h] (some h)) : HandleM PUnit) t = .ok ⟨⟩
          { t with trace := t.trace ++ [⟨[h], some h⟩] } := by rw [discard_apply, hn]
      show SafeEnd Fits Inv (Later t) ((discard (native env [h] (some h)) >>= _) t)
      rw [bind_ok hd]
      have hnone : ∀ o', t.refs o' = none → Function.update t.refs o none o' = none := by
        intro o' ho'
        by_cases hoo : o' = o
        · rw [hoo, Function.update_self]
        · rw [Function.update_of_ne hoo, ho']
      have hsome : ∀ o' a, Function.update t.refs o none o' = some a →
          o' ≠ o ∧ t.refs o' = some a := by
        intro o' a ha
        by_cases hoo : o' = o
        · rw [hoo, Function.update_self] at ha; cases ha
        · rw [Function.update_of_ne hoo] at ha
          exact ⟨hoo, ha⟩
      refine ⟨⟨hI.toOwned.record hargs ?_ ?_ (fun o' a ha => (hsome o' a ha).2) rfl rfl, ?_⟩,
        .of_eq rfl rfl (fun _ h => h) (fun _ => rfl) hnone id⟩
      · rintro a ⟨⟩
        exact List.mem_singleton.2 rfl
      · rintro a o' ⟨⟩ ha
        exact (hsome o' h ha).1 (hI.distinct o' o h (hsome o' h ha).2 hoh)
      · refine hI.toLinked.of_refs rfl rfl rfl rfl hnone (fun hc => ?_)
          (fun _ ha => released_append.2 (.inl ha)) fun r => ?_
        · by_cases hoc : o = .connRef
          · exact ho hoc
          · exact hI.disconnected (by
              simpa [Function.update_of_ne (Ne.symm hoc)] using hc)
        · by_cases hro : Ref.resultRef r = o
          · refine .inr ⟨by simp [hro], fun a ha => released_append.2 (.inr ?_)⟩
            rw [hro, hoh] at ha
            exact ha
          · exact .inl (by simp [Function.update_of_ne hro])
    · have hd : (discard (native env [h] (some h)) : HandleM PUnit) t = .error .nativeFailure
          { t with trace := t.trace ++ [⟨[h], none⟩] } := by rw [discard_apply, hn]
      show SafeEnd Fits Inv (Later t) ((discard (native env [h] (some h)) >>= _) t)
      rw [bind_error hd]
      exact ⟨by simp [Fits], hI.record hargs, later_record t _⟩

end

end DuckDBJava.Handles
