/-
  As many parameters as the prepared text has.

  `setObject` allocates the array of a text on first use, `prepare` drops it, and a batch brings
  back arrays that may be of an earlier text.  **`parameters_fit`**: `setObject` never stores
  outside of the array, and the engine refuses the number of the parameters of `execute`,
  `executeQuery` and `executeLargeUpdate` only when none has been set.
-/
import DuckDBJava.Connection.ByValue

namespace DuckDBJava.Bindings

open Exec ArrayMemory

variable {V α : Type} {env : Env}

/-- `params.length` -/
def Statement.size (s : Shared V) : ℕ := ((references (Param V)).read s.heap s.params).length

theorem getFields_bind (f : Fields V → StmtM (references (Param V)) α) (s : Shared V) :
    (getFields >>= f) s = f s.toFields s := rfl

theorem getParams_bind (f : List (Param V) → StmtM (references (Param V)) α) (s : Shared V) :
    (getParams >>= f) s = f ((references (Param V)).read s.heap s.params) s := rfl

/-! ## What a call leaves alone -/

/-- The arrays stay, and so does the prepared text, unless the statement is closed. -/
structure Frame (s t : Shared V) : Prop where
  heap : t.heap = s.heap
  params : t.params = s.params
  batchedParams : t.batchedParams = s.batchedParams
  kind : t.isPreparedStatement = s.isPreparedStatement
  description : t.paramMeta = s.paramMeta
  text : t.stmtRef = s.stmtRef ∧ t.closed = s.closed ∨ t.closed = true ∧ t.stmtRef = none

instance : Std.Refl (Frame (V := V)) := ⟨fun _ => ⟨rfl, rfl, rfl, rfl, rfl, .inl ⟨rfl, rfl⟩⟩⟩

instance : IsTrans (Shared V) Frame where
  trans s t u h h' := by
    refine ⟨h'.heap.trans h.heap, h'.params.trans h.params,
      h'.batchedParams.trans h.batchedParams, h'.kind.trans h.kind,
      h'.description.trans h.description, ?_⟩
    rcases h'.text with ⟨htext, hclosed⟩ | hgone
    · rcases h.text with ⟨htext', hclosed'⟩ | ⟨hclosed', hgone⟩
      · exact .inl ⟨htext.trans htext', hclosed.trans hclosed'⟩
      · exact .inr ⟨hclosed.trans hclosed', htext.trans hgone⟩
    · exact .inr hgone

/-- The exceptions that say nothing about the parameters. -/
def JavaException.Quiet (e : JavaException) : Prop := e.isSql = true ∧ e ≠ .parameterCountMismatch

theorem JavaException.Quiet.inBounds {e : JavaException} (h : e.Quiet) :
    e ≠ .arrayIndexOutOfBounds := by
  intro he
  have hsql := h.1
  rw [he] at hsql
  cases hsql

/-- The call leaves alone what `Frame` says, and throws nothing about parameters. -/
abbrev Steady (x : StmtM (references (Param V)) α) : Prop :=
  Safe JavaException.Quiet (fun _ => True) Frame x

theorem steady_getFields {E : JavaException → Prop} :
    Safe E (fun _ => True) Frame (getFields : StmtM (references (Param V)) _) :=
  fun s _ => ⟨trivial, Std.Refl.refl s⟩

theorem steady_modifyFields {E : JavaException → Prop} {f : Fields V → Fields V}
    (h : ∀ c, (f c).isPreparedStatement = c.isPreparedStatement ∧
      (f c).paramMeta = c.paramMeta ∧ (f c).stmtRef = c.stmtRef ∧ (f c).closed = c.closed) :
    Safe E (fun _ => True) Frame (modifyFields f : StmtM (references (Param V)) _) :=
  fun _ _ => ⟨trivial, rfl, rfl, rfl, (h _).1, (h _).2.1, .inl (h _).2.2⟩

theorem steady_closeStmt {E : JavaException → Prop} :
    Safe E (fun _ => True) Frame (closeStmt : StmtM (references (Param V)) _) := by
  intro s _
  refine ⟨trivial, ?_⟩
  cases hs : s.closed with
  | true =>
    show Frame s { s with toFields := if s.closed = true then s.toFields else _ }
    rw [if_pos hs]
    exact Std.Refl.refl s
  | false =>
    show Frame s { s with toFields := if s.closed = true then s.toFields else _ }
    rw [if_neg (by rw [hs]; exact Bool.false_ne_true)]
    exact ⟨rfl, rfl, rfl, rfl, rfl, .inr ⟨rfl, rfl⟩⟩

theorem steady_checkOpen : Steady (V := V) checkOpen :=
  steady_getFields.bind fun _ => Safe.require _ ⟨rfl, JavaException.noConfusion⟩

theorem steady_checkPrepared : Steady (V := V) checkPrepared :=
  steady_getFields.bind fun _ => Safe.ite (Safe.require _ ⟨rfl, JavaException.noConfusion⟩)
    (Safe.require _ ⟨rfl, JavaException.noConfusion⟩)

theorem steady_requireNonBatch : Steady (V := V) requireNonBatch :=
  steady_getFields.bind fun _ => Safe.require _ ⟨rfl, JavaException.noConfusion⟩

theorem steady_closeSelectResult {E : JavaException → Prop} :
    Safe E (fun _ => True) Frame (closeSelectResult : StmtM (references (Param V)) _) := by
  refine steady_getFields.bind fun c => ?_
  match c.selectResult with
  | none => exact Safe.pure _
  | some ⟨false, _⟩ => exact Safe.pure _
  | some ⟨true, _⟩ =>
    refine (steady_modifyFields ?_).bind fun _ => Safe.ite steady_closeStmt (Safe.pure _)
    exact fun c => ⟨rfl, rfl, rfl, rfl⟩

theorem steady_native : Steady (V := V) (native env) := by
  refine steady_getFields.bind fun c => (steady_modifyFields ?_).bind fun _ => ?_
  · exact fun c => ⟨rfl, rfl, rfl, rfl⟩
  · exact Safe.require _ ⟨rfl, JavaException.noConfusion⟩

theorem steady_ensureTransaction : Steady (V := V) (ensureTransaction env) :=
  steady_checkOpen.bind fun _ => steady_native

theorem steady_readChangedRows : Steady (V := V) (readChangedRows env) := by
  refine steady_getFields.bind fun c => steady_native.bind fun _ => ?_
  match env.changedRows c.calls with
  | none => exact steady_modifyFields fun c => ⟨rfl, rfl, rfl, rfl⟩
  | some n => exact steady_modifyFields fun c => ⟨rfl, rfl, rfl, rfl⟩

theorem steady_getUpdateCountInternal : Steady (V := V) getUpdateCountInternal := by
  refine steady_checkOpen.bind fun _ => steady_getFields.bind fun c => ?_
  match c.selectResult with
  | none => exact Safe.pure _
  | some r => exact Safe.ite (Safe.pure _) (Safe.pure _)

/-! ## The invariant -/

/-- The prepared text is gone with the statement, and `meta` describes it. -/
structure Described (env : Env) (s : Shared V) : Prop where
  released : s.closed = true → s.stmtRef = none
  plain : s.isPreparedStatement = false → s.stmtRef = none ∧ s.paramMeta = none
  counted : ∀ text, s.stmtRef = some text → s.paramMeta = some (env.parameterCount text)

/-- The current array is one of the prepared text. -/
def Loaded (env : Env) (s : Shared V) : Prop :=
  ∀ text, s.stmtRef = some text → s.size = env.parameterCount text

/-- The current array is one of the prepared text, or empty. -/
structure Fits (env : Env) (s : Shared V) : Prop extends Described env s where
  fits : ∀ text, s.stmtRef = some text → s.size = 0 ∨ s.size = env.parameterCount text

theorem Described.frame {s t : Shared V} (h : Described env s) (hst : Frame s t) :
    Described env t := by
  rcases hst.text with ⟨htext, hclosed⟩ | ⟨hclosed, hgone⟩
  · refine ⟨fun hc => ?_, fun hk => ?_, fun text ht => ?_⟩
    · rw [htext, h.released (hclosed.symm.trans hc)]
    · rw [htext, hst.description]
      exact h.plain (hst.kind.symm.trans hk)
    · rw [hst.description, h.counted text (htext.symm.trans ht)]
  · refine ⟨fun _ => hgone, fun hk => ⟨hgone, ?_⟩, fun text ht => ?_⟩
    · rw [hst.description]
      exact (h.plain (hst.kind.symm.trans hk)).2
    · rw [hgone] at ht
      cases ht

theorem Frame.size {s t : Shared V} (h : Frame s t) : t.size = s.size := by
  rw [Statement.size, Statement.size, h.heap, h.params]

theorem Frame.of_text {s t : Shared V} (h : Frame s t) {text : ℕ} (ht : t.stmtRef = some text) :
    s.stmtRef = some text := by
  rcases h.text with ⟨htext, -⟩ | ⟨-, hgone⟩
  · rw [← htext, ht]
  · rw [hgone] at ht
    cases ht

theorem Loaded.frame {s t : Shared V} (h : Loaded env s) (hst : Frame s t) : Loaded env t :=
  fun text ht => hst.size.trans (h text (hst.of_text ht))

theorem Fits.frame {s t : Shared V} (h : Fits env s) (hst : Frame s t) : Fits env t :=
  ⟨h.toDescribed.frame hst, fun text ht => by rw [hst.size]; exact h.fits text (hst.of_text ht)⟩

theorem Described.fits_of_loaded {s : Shared V} (h : Described env s) (hl : Loaded env s) :
    Fits env s :=
  ⟨h, fun text ht => .inr (hl text ht)⟩

theorem loaded_of_released {s : Shared V} (h : s.stmtRef = none) : Loaded env s := by
  intro text ht
  rw [h] at ht
  cases ht

/-- The statement is closed, and its text is gone. -/
theorem closeStmt_released {s : Shared V} (h : Described env s) :
    Post (fun _ t => t.stmtRef = none) (fun _ _ => False) (closeStmt s) := by
  show (if s.closed = true then s.toFields else _).stmtRef = none
  split
  case isTrue hc => exact h.released hc
  case isFalse => rfl

/-! ## One execution -/

/-- What is known about an exception out of a call on `s`. -/
structure Thrown (env : Env) (s : Shared V) (e : JavaException) (t : Shared V) : Prop where
  frame : Frame s t
  /-- the statement is closed upon an `SQLException` -/
  loaded : e.isSql = false → Loaded env t
  mismatch : e = .parameterCountMismatch →
    ∃ text, s.stmtRef = some text ∧ s.size ≠ env.parameterCount text
  inBounds : e ≠ .arrayIndexOutOfBounds

theorem Thrown.of_quiet {s t : Shared V} {e : JavaException} (h : Frame s t) (he : e.Quiet) :
    Thrown env s e t := by
  refine ⟨h, fun hsql => ?_, fun hm => absurd hm he.2, he.inBounds⟩
  exact Bool.noConfusion (he.1.symm.trans hsql)

theorem Thrown.imp {s t u : Shared V} {e : JavaException} (h : Thrown env s e t)
    (htu : Frame t u) (hl : e.isSql = false → Loaded env u) : Thrown env s e u :=
  ⟨IsTrans.trans _ _ _ h.frame htu, hl, h.mismatch, h.inBounds⟩

theorem post_steady {x : StmtM (references (Param V)) α} (hx : Steady x) {s₀ s : Shared V}
    (h : Frame s₀ s) : Post (fun _ t => Frame s₀ t) (Thrown env s₀) (x s) := by
  have hs := hx s trivial
  generalize x s = r at hs ⊢
  cases r with
  | ok a t => exact IsTrans.trans _ _ _ h hs.2
  | error e t => exact .of_quiet (IsTrans.trans _ _ _ h hs.2.2) hs.1

theorem post_steady_loaded {x : StmtM (references (Param V)) α} (hx : Steady x) {s₀ s : Shared V}
    (h : Frame s₀ s ∧ Loaded env s) :
    Post (fun _ t => Frame s₀ t ∧ Loaded env t) (fun e t => Thrown env s₀ e t ∧ Loaded env t)
      (x s) := by
  have hs := hx s trivial
  generalize x s = r at hs ⊢
  cases r with
  | ok a t => exact ⟨IsTrans.trans _ _ _ h.1 hs.2, h.2.frame hs.2⟩
  | error e t => exact ⟨.of_quiet (IsTrans.trans _ _ _ h.1 hs.2.2) hs.1, h.2.frame hs.2.2⟩

theorem nativeExecute_post {s₀ s : Shared V} (h : Frame s₀ s) :
    Post (fun _ t => Frame s₀ t ∧ Loaded env t) (Thrown env s₀) (nativeExecute env s) := by
  rw [nativeExecute, getFields_bind]
  cases htext : s.stmtRef with
  | none => exact Thrown.of_quiet h ⟨rfl, JavaException.noConfusion⟩
  | some text =>
    show Post _ _ ((require (s.size = env.parameterCount text) _ >>= _) s)
    rw [require_bind]
    split
    case isFalse hsize =>
      exact ⟨h, Bool.noConfusion, fun _ => ⟨text, h.of_text htext, fun heq =>
        hsize (h.size.trans heq)⟩, JavaException.noConfusion⟩
    case isTrue hsize =>
      have hloaded : Loaded env s := by
        intro text' ht
        cases htext.symm.trans ht
        exact hsize
      rw [require_bind]
      split
      case isFalse =>
        exact ⟨h, fun _ => hloaded, JavaException.noConfusion, JavaException.noConfusion⟩
      case isTrue =>
        refine (post_steady_loaded (α := ℕ) ?_ ⟨h, hloaded⟩).imp (fun _ _ h => h) fun _ _ h => h.1
        refine (steady_modifyFields ?_).bind fun _ => steady_native.bind fun _ => Safe.pure _
        exact fun c => ⟨rfl, rfl, rfl, rfl⟩

theorem executeDirect_post {s₀ s : Shared V} (hs₀ : s₀.stmtRef = none) (h : Frame s₀ s) :
    Post (fun _ t => Frame s₀ t ∧ Loaded env t) (Thrown env s₀) (executeDirect env s) := by
  have hnone : ∀ t, Frame s₀ t → Loaded env t := by
    intro t ht text htext
    have hsome := ht.of_text htext
    rw [hs₀] at hsome
    cases hsome
  rw [executeDirect, getFields_bind]
  cases s.query with
  | none =>
    exact ⟨h, fun _ => hnone s h, JavaException.noConfusion, JavaException.noConfusion⟩
  | some text =>
    refine (post_steady (α := ℕ) ?_ h).imp (fun _ t ht => ⟨ht, hnone t ht⟩) fun _ _ h => h
    refine steady_native.bind fun _ => (steady_modifyFields ?_).bind fun _ => ?_
    · exact fun c => ⟨rfl, rfl, rfl, rfl⟩
    · exact steady_native.bind fun _ => Safe.pure _

theorem executeBody_post {s₀ s : Shared V} (hs₀ : Described env s₀) (h : Frame s₀ s) :
    Post (fun _ t => Frame s₀ t ∧ Loaded env t) (Thrown env s₀) (executeBody env s) := by
  refine (post_steady steady_closeSelectResult h).bind fun _ t ht => ?_
  refine Post.bind (P := fun _ t => Frame s₀ t) ?_ fun _ t ht => ?_
  · refine post_steady (steady_modifyFields ?_) ht
    exact fun c => ⟨rfl, rfl, rfl, rfl⟩
  refine (post_steady steady_ensureTransaction ht).bind fun _ t ht => ?_
  rw [getFields_bind]
  refine Post.bind (P := fun _ t => Frame s₀ t ∧ Loaded env t) ?_ fun text t ht => ?_
  · split
    case isTrue => exact nativeExecute_post ht
    case isFalse hk =>
      have hkind : s₀.isPreparedStatement = false :=
        ht.kind.symm.trans (Bool.eq_false_iff.2 hk)
      exact executeDirect_post (hs₀.plain hkind).1 ht
  · refine (post_steady_loaded (α := Unit) ?_ ht).imp (fun _ _ h => h) fun _ _ h => h.1
    exact steady_native.bind fun _ => steady_modifyFields fun c => ⟨rfl, rfl, rfl, rfl⟩

/-- A check of the statement that throws: there is no text that a parameter could be for. -/
structure Rejected (s : Shared V) (e : JavaException) (t : Shared V) : Prop where
  same : t = s
  quiet : e.Quiet
  released : s.stmtRef = none

theorem Rejected.thrown {s t : Shared V} {e : JavaException} (h : Rejected s e t) :
    Thrown env s e t ∧ Loaded env t := by
  obtain ⟨rfl, hquiet, hnone⟩ := h
  exact ⟨.of_quiet (Std.Refl.refl t) hquiet, loaded_of_released hnone⟩

theorem checkOpen_post {s : Shared V} (hs : Described env s) :
    Post (fun _ t => t = s) (Rejected s) (checkOpen s) := by
  cases hc : s.closed with
  | true =>
    rw [checkOpen_of_closed hc]
    exact ⟨rfl, ⟨rfl, JavaException.noConfusion⟩, hs.released hc⟩
  | false =>
    rw [checkOpen_of_open hc]
    exact rfl

theorem checkPrepared_post {s : Shared V} (hs : Described env s) :
    Post (fun _ t => t = s ∧ (s.isPreparedStatement = true → s.stmtRef.isSome = true)) (Rejected s)
      (checkPrepared s) := by
  rw [checkPrepared, getFields_bind]
  split
  case isTrue hk =>
    rw [require_apply]
    split
    case isTrue hsome => exact ⟨rfl, fun _ => hsome⟩
    case isFalse hnone =>
      exact ⟨rfl, ⟨rfl, JavaException.noConfusion⟩, Option.not_isSome_iff_eq_none.1 hnone⟩
  case isFalse hk =>
    rw [require_apply]
    split
    case isTrue => exact ⟨rfl, fun hk' => absurd hk' hk⟩
    case isFalse =>
      exact ⟨rfl, ⟨rfl, JavaException.noConfusion⟩, (hs.plain (Bool.eq_false_iff.2 hk)).1⟩

/-- A call that never throws. -/
theorem post_quiet {x : StmtM (references (Param V)) α}
    (hx : Safe (fun _ => False) (fun _ => True) Frame x) (s : Shared V) {Q} :
    Post (fun _ t => Frame s t) Q (x s) := by
  have hs := hx s trivial
  generalize x s = r at hs ⊢
  cases r with
  | ok a t => exact hs.2
  | error e t => exact hs.1.elim

/-- What `execute` and `prepare` do upon an exception. -/
theorem failed_post {s t : Shared V} {e : JavaException} (hs : Described env s)
    (ht : Thrown env s e t) (P : α → Shared V → Prop) :
    Post P (fun e t => Thrown env s e t ∧ Loaded env t)
      ((do
        modifyFields fun c => { c with query := none }
        (if e.isSql then do
          closeSelectResult
          closeStmt
        else pure ())
        throw e : StmtM (references (Param V)) α) t) := by
  refine Post.bind (P := fun _ => Frame t) ?_ fun _ u hu => ?_
  · refine post_quiet (steady_modifyFields ?_) t
    exact fun c => ⟨rfl, rfl, rfl, rfl⟩
  refine Post.bind (P := fun _ v => Frame t v ∧ Loaded env v) ?_ fun _ v hv => ?_
  · split
    case isTrue =>
      refine (post_quiet steady_closeSelectResult u).bind fun _ v hv => ?_
      have htv : Frame t v := IsTrans.trans _ _ _ hu hv
      have hd := hs.frame (IsTrans.trans _ _ _ ht.frame htv)
      have hclosed := closeStmt_released hd
      have hframe := post_quiet (steady_closeStmt (V := V)) v (Q := fun _ _ => False)
      generalize closeStmt v = r at hclosed hframe ⊢
      cases r with
      | ok _ w => exact ⟨IsTrans.trans _ _ _ htv hframe, loaded_of_released hclosed⟩
      | error _ _ => exact hframe.elim
    case isFalse hsql =>
      exact ⟨hu, (ht.loaded (Bool.eq_false_iff.2 hsql)).frame hu⟩
  · exact ⟨ht.imp hv.1 fun _ => hv.2, hv.2⟩

/-- **One execution**: afterwards the current array is one of the prepared text, whatever it has
    been before. -/
theorem execute_post {s : Shared V} (hs : Described env s) :
    Post (fun _ t => Frame s t ∧ Loaded env t) (fun e t => Thrown env s e t ∧ Loaded env t)
      (execute env s) := by
  refine ((checkOpen_post hs).imp (fun _ _ h => h) fun _ _ h => h.thrown).bind ?_
  rintro _ s rfl
  refine ((checkPrepared_post hs).imp (fun _ _ h => h.1) fun _ _ h => h.thrown).bind ?_
  rintro _ s rfl
  refine Post.bind (P := fun _ t => Frame s t ∧ Loaded env t) ?_ fun _ t ht => ?_
  · refine Post.catchWith (Q := Thrown env s) ?_ fun e t ht => ?_
    · refine (executeBody_post hs (Std.Refl.refl s)).bind fun _ t ht => ?_
      refine (post_steady_loaded (steady_modifyFields ?_) ht).imp (fun _ _ h => h)
        fun _ _ h => h.1
      exact fun c => ⟨rfl, rfl, rfl, rfl⟩
    · exact failed_post hs ht _
  · rw [getFields_bind]
    refine Post.bind (P := fun _ t => Frame s t ∧ Loaded env t) ?_ fun _ t ht => ht
    split
    · exact post_steady_loaded (steady_readChangedRows.bind fun _ => steady_closeSelectResult) ht
    · exact ht

/-! ## All calls -/

/-- No parameter has been set for the prepared text, which has some. -/
def Unset (env : Env) (s : Shared V) : Prop :=
  ∃ text, s.stmtRef = some text ∧ s.size = 0 ∧ env.parameterCount text ≠ 0

/-- What is known of a call that throws; `M` where it is about the number of parameters. -/
structure Fails (env : Env) (M : Prop) (e : JavaException) (t : Shared V) : Prop where
  fits : Fits env t
  inBounds : e ≠ .arrayIndexOutOfBounds
  mismatch : e = .parameterCountMismatch → M

variable {M : Prop}

theorem fails_of_quiet {t : Shared V} {e : JavaException} (he : e.Quiet) (ht : Fits env t) :
    Fails env M e t :=
  ⟨ht, he.inBounds, fun hm => absurd hm he.2⟩

theorem fits_steady {x : StmtM (references (Param V)) α} (hx : Steady x) {s : Shared V}
    (h : Fits env s) : Post (fun _ t => Fits env t) (Fails env M) (x s) := by
  have hs := hx s trivial
  generalize x s = r at hs ⊢
  cases r with
  | ok a t => exact h.frame hs.2
  | error e t => exact fails_of_quiet hs.1 (h.frame hs.2.2)

theorem fits_of_released {s : Shared V} (hk : s.isPreparedStatement = true)
    (h : s.stmtRef = none) : Fits env s := by
  refine ⟨⟨fun _ => h, fun hplain => Bool.noConfusion (hk.symm.trans hplain), ?_⟩, ?_⟩
  all_goals
    intro text ht
    rw [h] at ht
    cases ht

theorem fits_newParams_nil {s : Shared V} (h : Described env s) :
    Post (fun _ t => Fits env t) (Fails env M) (newParams [] s) :=
  ⟨⟨h.released, h.plain, h.counted⟩, fun _ _ => .inl (congrArg List.length read_new_self)⟩

theorem fits_checkOpen {s : Shared V} (h : Fits env s) :
    Post (fun _ t => Fits env t) (Fails env M) (checkOpen s) := fits_steady steady_checkOpen h

theorem fits_clearParameters {s : Shared V} (h : Fits env s) :
    Post (fun _ t => Fits env t) (Fails env M) (clearParameters s) :=
  (fits_checkOpen h).bind fun _ _ ht => fits_newParams_nil ht.toDescribed

theorem fits_addBatch {s : Shared V} (h : Fits env s) :
    Post (fun _ t => Fits env t) (Fails env M) (addBatch s) := by
  refine (fits_checkOpen h).bind fun _ t ht => ?_
  refine Post.bind (P := fun _ t => Fits env t) ?_ fun _ t ht => ?_
  · exact ⟨⟨ht.released, ht.plain, ht.counted⟩, ht.fits⟩
  refine (fits_clearParameters ht).bind fun _ t ht => fits_steady (steady_modifyFields ?_) ht
  exact fun c => ⟨rfl, rfl, rfl, rfl⟩

theorem fits_clearBatch {s : Shared V} (h : Fits env s) :
    Post (fun _ t => Fits env t) (Fails env M) (clearBatch s) := by
  refine (fits_checkOpen h).bind fun _ t ht => ?_
  refine Post.bind (P := fun _ t => Fits env t) ?_ fun _ t ht => ?_
  · exact ⟨⟨ht.released, ht.plain, ht.counted⟩, ht.fits⟩
  · refine fits_steady (steady_modifyFields ?_) ht
    exact fun c => ⟨rfl, rfl, rfl, rfl⟩

/-- The array has the element, and keeps its length. -/
theorem fits_storeParam {s : Shared V} (h : Fits env s) {i : ℕ} (hi : i < s.size) (x : Param V) :
    Post (fun _ t => Fits env t) (Fails env M) (storeParam i x s) := by
  have hlt : i < ((references (Param V)).read s.heap s.params).length := hi
  rw [storeParam, getParams_bind, require_bind, if_pos hlt]
  refine ⟨⟨h.released, h.plain, h.counted⟩, fun text ht => ?_⟩
  have hsize : Statement.size { s with
      heap := ((references _).store s.heap s.params i x).2
      params := ((references _).store s.heap s.params i x).1 } = s.size := by
    show List.length _ = List.length _
    rw [read_store_self (live_of_lt hi), List.length_set]
  exact hsize ▸ h.fits text ht

theorem fits_toParam {s : Shared V} (h : Fits env s) (x : Argument V) :
    Post (fun _ t => t = s) (Fails env M) (toParam x s) := by
  cases x with
  | null => exact rfl
  | bigInteger x =>
    dsimp only [toParam]
    cases DuckDBHugeInt.new (some x) with
    | ok h => exact rfl
    | error e => exact fails_of_quiet ⟨rfl, JavaException.noConfusion⟩ h
  | other x => exact rfl

/-- The array that is assigned to: of the length that `meta` says. -/
theorem fits_params {s : Shared V} (h : Fits env s) {text n : ℕ} (ht : s.stmtRef = some text)
    (hn : env.parameterCount text = n) :
    Post (fun _ t => Fits env t ∧ t.size = n) (Fails env M)
      ((if s.size = 0 then newParams (List.replicate n .null) else pure () :
        StmtM (references (Param V)) Unit) s) := by
  split
  case isTrue =>
    have hsize : ((references (Param V)).read ((references _).new (List.replicate n .null) s.heap).2
        ((references _).new (List.replicate n .null) s.heap).1).length = n := by
      rw [read_new_self, List.length_replicate]
    refine ⟨⟨⟨h.released, h.plain, h.counted⟩, fun text' ht' => .inr ?_⟩, hsize⟩
    cases ht.symm.trans ht'
    exact hsize.trans hn.symm
  case isFalse hne =>
    exact ⟨h, ((h.fits text ht).resolve_left hne).trans hn⟩

theorem fits_setObject {s : Shared V} (h : Fits env s) (i : ℤ) (x : Argument V) :
    Post (fun _ t => Fits env t) (Fails env M) (setObject i x s) := by
  refine (fits_checkOpen h).bind fun _ s h => ?_
  refine ((checkPrepared_post h.toDescribed).imp (fun _ _ h => h) fun _ _ hr =>
    fails_of_quiet hr.quiet (hr.same ▸ h)).bind ?_
  rintro _ s ⟨rfl, hprepared⟩
  rw [getFields_bind]
  cases hmeta : s.paramMeta with
  | none =>
    exact ⟨h, JavaException.noConfusion, JavaException.noConfusion⟩
  | some n =>
    -- only a prepared statement has `meta`
    have hkind : s.isPreparedStatement = true := by
      refine Bool.of_not_eq_false fun hk => ?_
      cases hmeta.symm.trans (h.plain hk).2
    obtain ⟨text, htext⟩ := Option.isSome_iff_exists.1 (hprepared hkind)
    have hcount : env.parameterCount text = n :=
      Option.some.inj ((h.counted text htext).symm.trans hmeta)
    show Post _ _ ((require (¬ (i < 1 ∨ (n : ℤ) < i)) _ >>= _) s)
    rw [require_bind]
    split
    case isFalse => exact fails_of_quiet ⟨rfl, JavaException.noConfusion⟩ h
    case isTrue hi =>
      rw [getParams_bind]
      refine (fits_params h htext hcount).bind fun _ t ht => ?_
      refine (fits_toParam ht.1 x).bind ?_
      rintro x _ rfl
      refine fits_storeParam ht.1 ?_ x
      rw [ht.2]
      omega

theorem native_apply (s : Shared V) : native env s =
    if env.succeeds s.calls = true then .ok () { s with calls := s.calls + 1 }
    else .error .nativeFailure { s with calls := s.calls + 1 } := by
  rw [native, getFields_bind, modifyFields, modify_bind, require_apply]

/-- A statement without a text, in the course of `prepare`. -/
structure Blank (s : Shared V) : Prop where
  isOpen : s.closed = false
  kind : s.isPreparedStatement = true
  empty : s.size = 0

/-- What `prepare` passes to its handler. -/
structure Failed (e : JavaException) (t : Shared V) : Prop where
  kind : t.isPreparedStatement = true
  released : t.closed = true ∨ e.isSql = false → t.stmtRef = none
  inBounds : e ≠ .arrayIndexOutOfBounds
  mismatch : e ≠ .parameterCountMismatch

theorem blank_native {s : Shared V} {text : Option ℕ} (h : Blank s) (ht : s.stmtRef = text) :
    Post (fun _ t => Blank t ∧ t.stmtRef = text) Failed (native env s) := by
  rw [native_apply]
  split
  · exact ⟨⟨h.isOpen, h.kind, h.empty⟩, ht⟩
  · refine ⟨h.kind, fun hcase => ?_, JavaException.noConfusion, JavaException.noConfusion⟩
    rcases hcase with hclosed | hsql
    · exact Bool.noConfusion (h.isOpen.symm.trans hclosed)
    · cases hsql

theorem closeStmt_failed {e : JavaException} {t : Shared V} (h : Failed e t) {Q} :
    Post (fun _ u => u.isPreparedStatement = true ∧ u.stmtRef = none) Q (closeStmt t) := by
  show (if t.closed = true then t.toFields else _).isPreparedStatement = true ∧
    (if t.closed = true then t.toFields else _).stmtRef = none
  split
  case isTrue hc => exact ⟨h.kind, h.released (.inl hc)⟩
  case isFalse => exact ⟨h.kind, rfl⟩

/-- The statement without its text. -/
theorem blank_frame {s t : Shared V}
    (h : s.isPreparedStatement = true ∧ s.stmtRef = none ∧ s.size = 0) (hst : Frame s t) :
    t.isPreparedStatement = true ∧ t.stmtRef = none ∧ t.size = 0 := by
  refine ⟨hst.kind.trans h.1, ?_, hst.size.trans h.2.2⟩
  refine Option.eq_none_iff_forall_ne_some.2 fun text ht => ?_
  have hsome := hst.of_text ht
  rw [h.2.1] at hsome
  cases hsome

/-- The native calls of `prepare`. -/
theorem blank_prepared {s : Shared V} (h : Blank s) (ht : s.stmtRef = none) (sql : ℕ) :
    Post (fun _ t => Fits env t) Failed
      ((do
        ensureTransaction env
        native env
        modifyFields fun c => { c with stmtRef := some sql }
        native env
        modifyFields fun c => { c with paramMeta := some (env.parameterCount sql) } :
          StmtM (references (Param V)) Unit) s) := by
  refine Post.bind (P := fun _ t => Blank t ∧ t.stmtRef = none) ?_ fun _ t ht => ?_
  · rw [ensureTransaction, bind_ok (checkOpen_of_open h.isOpen)]
    exact blank_native h ht
  refine (blank_native ht.1 ht.2).bind fun _ t ht => ?_
  refine Post.bind (P := fun _ t => Blank t ∧ t.stmtRef = some sql) ?_ fun _ t ht => ?_
  · exact ⟨⟨ht.1.isOpen, ht.1.kind, ht.1.empty⟩, rfl⟩
  refine (blank_native ht.1 ht.2).bind fun _ t ht => ?_
  obtain ⟨hblank, htext⟩ := ht
  refine ⟨⟨fun hclosed => ?_, fun hplain => ?_, fun text htext' => ?_⟩,
    fun _ _ => .inl hblank.empty⟩
  · exact Bool.noConfusion (hblank.isOpen.symm.trans hclosed)
  · exact Bool.noConfusion (hblank.kind.symm.trans hplain)
  · cases htext.symm.trans htext'
    rfl

theorem fits_prepare {s : Shared V} (h : Fits env s) (sql : ℕ) :
    Post (fun _ t => Fits env t) (Fails env M) (prepare env sql s) := by
  refine (fits_checkOpen h).bind fun _ s h => ?_
  rw [getFields_bind]
  split
  case isFalse =>
    refine fits_steady (steady_modifyFields ?_) h
    exact fun c => ⟨rfl, rfl, rfl, rfl⟩
  case isTrue hk =>
    refine Post.catchWith (Q := Failed) ?_ fun e t ht => ?_
    · refine Post.bind (P := fun _ t => t.isPreparedStatement = true ∧ t.stmtRef = none) ?_
        fun _ t ht => ?_
      · exact ⟨hk, rfl⟩
      refine Post.bind (P := fun _ t => t.isPreparedStatement = true ∧ t.stmtRef = none ∧
        t.size = 0) ?_ fun _ t ht => ?_
      · exact ⟨ht.1, ht.2, congrArg List.length read_new_self⟩
      refine (post_quiet steady_closeSelectResult t).bind fun _ u hu => ?_
      refine Post.bind (P := fun _ v => Frame u v) ?_ fun _ v hv => ?_
      · refine post_quiet (steady_modifyFields ?_) u
        exact fun c => ⟨rfl, rfl, rfl, rfl⟩
      have hblank := blank_frame ht (IsTrans.trans _ _ _ hu hv)
      rw [getFields_bind, require_bind]
      split
      case isTrue hopen => exact blank_prepared ⟨hopen, hblank.1, hblank.2.2⟩ hblank.2.1 sql
      case isFalse =>
        exact ⟨hblank.1, fun _ => hblank.2.1, JavaException.noConfusion, JavaException.noConfusion⟩
    · refine Post.bind (P := fun _ u => u.isPreparedStatement = true ∧ u.stmtRef = none) ?_
        fun _ u hu => ?_
      · split
        case isTrue hsql => exact closeStmt_failed ht
        case isFalse hsql => exact ⟨ht.kind, ht.released (.inr (Bool.eq_false_iff.2 hsql))⟩
      · exact ⟨fits_of_released hu.1 hu.2, ht.inBounds, fun hm => absurd hm ht.mismatch⟩

/-- An execution, whatever array is the current one. -/
theorem fits_execute {s : Shared V} (h : Described env s)
    (hM : ∀ text, s.stmtRef = some text → s.size ≠ env.parameterCount text → M) :
    Post (fun _ t => Frame s t ∧ Fits env t) (Fails env M) (execute env s) := by
  refine (execute_post h).imp (fun _ t ht => ⟨ht.1, ?_⟩) fun e t ht => ⟨?_, ht.1.inBounds, ?_⟩
  · exact (h.frame ht.1).fits_of_loaded ht.2
  · exact (h.frame ht.1.frame).fits_of_loaded ht.2
  · intro he
    obtain ⟨text, htext, hsize⟩ := ht.1.mismatch he
    exact hM text htext hsize

/-- The rows from `i` on are in the batch. -/
theorem fits_executeRows : ∀ {n i : ℕ} {s : Shared V}, Fits env s →
    i + n ≤ s.batchedParams.length →
    Post (fun _ t => Fits env t) (Fails env True) (executeRows env i n s)
  | 0, _, _, h, _ => h
  | n + 1, i, s, h, hn => by
    have hi : i < s.batchedParams.length := by omega
    have hload : loadParams i s = .ok () { s with params := s.batchedParams[i] } := by
      unfold loadParams
      rw [List.getElem?_eq_getElem hi]
    rw [executeRows, bind_ok hload]
    have hd : Described env { s with params := s.batchedParams[i] } :=
      ⟨h.released, h.plain, h.counted⟩
    refine Post.bind (P := fun _ t => Fits env t ∧ i + 1 + n ≤ t.batchedParams.length) ?_
      fun _ t ht => ?_
    · refine ((fits_execute hd fun _ _ _ => trivial).imp (fun _ t ht => ⟨ht.2, ?_⟩)
        fun _ _ h => h).discard
      rw [ht.1.batchedParams]
      exact (Nat.add_right_comm i 1 n).trans_le hn
    refine Post.bind (P := fun _ u => Fits env u ∧ i + 1 + n ≤ u.batchedParams.length) ?_
      fun _ u hu => ?_
    · have hsteady := steady_getUpdateCountInternal t trivial
      generalize getUpdateCountInternal t = r at hsteady ⊢
      cases r with
      | ok a u => exact ⟨ht.1.frame hsteady.2, by rw [hsteady.2.batchedParams]; exact ht.2⟩
      | error e u => exact fails_of_quiet hsteady.1 (ht.1.frame hsteady.2.2)
    exact (fits_executeRows hu.1 hu.2).bind fun _ _ hv => hv

theorem fits_executeStatements : ∀ {sqls : List ℕ} {s : Shared V}, Fits env s →
    Post (fun _ t => Fits env t) (Fails env True) (executeStatements env sqls s)
  | [], _, h => h
  | sql :: sqls, s, h => by
    refine (fits_prepare h sql).bind fun _ t ht => ?_
    refine Post.bind (P := fun _ t => Fits env t) ?_ fun _ t ht => ?_
    · exact ((fits_execute ht.toDescribed fun _ _ _ => trivial).imp (fun _ _ h => h.2)
        fun _ _ h => h).discard
    refine (fits_steady steady_getUpdateCountInternal ht).bind fun _ t ht => ?_
    exact (fits_executeStatements ht).bind fun _ _ hu => hu

theorem fits_executeLargeBatch {s : Shared V} (h : Fits env s) :
    Post (fun _ t => Fits env t) (Fails env True) (executeLargeBatch env s) := by
  refine (fits_checkOpen h).bind fun _ s h => ?_
  refine Post.catchWith (Q := Fails env True) ?_ fun e t ht => ?_
  · refine (fits_checkOpen h).bind fun _ s h => ?_
    rw [getFields_bind]
    refine Post.bind (P := fun _ t => Fits env t) ?_ fun _ t ht => ?_
    · split
      · refine (fits_steady steady_checkPrepared h).bind fun _ t ht => ?_
        refine (fits_steady steady_ensureTransaction ht).bind fun _ u hu => ?_
        exact fits_executeRows (i := 0) hu (Nat.zero_add _).le
      · exact (fits_steady steady_ensureTransaction h).bind fun _ t ht =>
          fits_executeStatements ht
    · refine (fits_clearBatch ht).bind fun _ t ht => ?_
      exact (fits_steady steady_native ht).bind fun _ _ hu => hu
  · refine Post.bind (P := fun _ u => Fits env u) ?_ fun _ u hu =>
      ⟨hu, ht.inBounds, ht.mismatch⟩
    split
    · exact fits_steady steady_native ht.fits
    · exact ht.fits

/-! ## Runs -/

/-- The calls that execute what `setObject` has set. -/
def Op.executesParams : Op V → Bool
  | .execute | .executeQuery | .executeLargeUpdate => true
  | _ => false

/-- The engine refuses the parameters of a text that has some only when none is set. -/
theorem fits_execute_unset {s : Shared V} (h : Fits env s) :
    Post (fun _ t => Fits env t) (Fails env (Unset env s)) (execute env s) := by
  refine (fits_execute h.toDescribed fun text htext hsize => ?_).imp (fun _ _ h => h.2)
    fun _ _ h => h
  have hzero := (h.fits text htext).resolve_right hsize
  exact ⟨text, htext, hzero, fun hcount => hsize (hzero.trans hcount.symm)⟩

theorem fits_executeQuery {s : Shared V} (h : Fits env s) :
    Post (fun _ t => Fits env t) (Fails env (Unset env s)) (executeQuery env s) := by
  rw [executeQuery, requireNonBatch, bind_assoc, getFields_bind, require_bind]
  split
  case isFalse => exact fails_of_quiet ⟨rfl, JavaException.noConfusion⟩ h
  case isTrue =>
    refine (fits_execute_unset h).discard.bind fun _ t ht => ?_
    exact fits_steady (steady_getFields.bind fun _ =>
      Safe.require _ ⟨rfl, JavaException.noConfusion⟩) ht

theorem fits_executeLargeUpdate {s : Shared V} (h : Fits env s) :
    Post (fun _ t => Fits env t) (Fails env (Unset env s)) (executeLargeUpdate env s) := by
  rw [executeLargeUpdate, requireNonBatch, bind_assoc, getFields_bind, require_bind]
  split
  case isFalse => exact fails_of_quiet ⟨rfl, JavaException.noConfusion⟩ h
  case isTrue =>
    refine (fits_execute_unset h).discard.bind fun _ t ht => ?_
    exact fits_steady (steady_getFields.bind fun _ =>
      (Safe.require _ ⟨rfl, JavaException.noConfusion⟩).bind fun _ =>
        steady_getUpdateCountInternal) ht

theorem Fails.mono {M' : Prop} {e : JavaException} {t : Shared V} (h : Fails env M e t)
    (hM : M → M') : Fails env M' e t :=
  ⟨h.fits, h.inBounds, fun he => hM (h.mismatch he)⟩

/-- A call that returns what it has computed. -/
theorem post_returned {x : StmtM (references (Param V)) α} {f : α → Returned} {s : Shared V}
    (h : Post (fun _ t => Fits env t) (Fails env M) (x s)) :
    Post (fun _ t => Fits env t) (Fails env M)
      ((do
        let a ← x
        pure (f a) : StmtM (references (Param V)) Returned) s) :=
  h.bind fun _ _ ht => ht

theorem fits_executeSql {s : Shared V} (h : Fits env s) (sql : ℕ) :
    Post (fun _ t => Fits env t) (Fails env True) (Op.call env (.executeSql sql) s) := by
  refine (fits_steady steady_requireNonBatch h).bind fun _ t ht => ?_
  refine (fits_prepare ht sql).bind fun _ t ht => post_returned ?_
  exact (fits_execute ht.toDescribed fun _ _ _ => trivial).imp (fun _ _ h => h.2) fun _ _ h => h

theorem fits_getResultSet {s : Shared V} (h : Fits env s) :
    Post (fun _ t => Fits env t) (Fails env M) (getResultSet s) := by
  refine fits_steady (steady_checkOpen.bind fun _ => steady_getFields.bind fun c => ?_) h
  refine Safe.ite ((steady_modifyFields ?_).bind fun _ => Safe.pure _) (Safe.pure _)
  exact fun c => ⟨rfl, rfl, rfl, rfl⟩

theorem fits_getLargeUpdateCount {s : Shared V} (h : Fits env s) :
    Post (fun _ t => Fits env t) (Fails env M) (getLargeUpdateCount s) := by
  refine fits_steady (steady_getUpdateCountInternal.bind fun _ => ?_) h
  refine (steady_modifyFields ?_).bind fun _ => Safe.pure _
  exact fun c => ⟨rfl, rfl, rfl, rfl⟩

/-- **One call.** -/
theorem fits_call {s : Shared V} (h : Fits env s) (op : Op V) :
    Post (fun _ t => Fits env t) (Fails env (op.executesParams = true → Unset env s))
      (op.call env s) := by
  cases op with
  | setObject i x => exact post_returned (fits_setObject h i x)
  | clearParameters => exact post_returned (fits_clearParameters h)
  | addBatch => exact post_returned (fits_addBatch h)
  | addBatchSql sql =>
    refine post_returned (fits_steady ?_ h)
    refine steady_checkOpen.bind fun _ => steady_getFields.bind fun c => ?_
    refine (Safe.require _ ⟨rfl, JavaException.noConfusion⟩).bind fun _ => steady_modifyFields ?_
    exact fun c => ⟨rfl, rfl, rfl, rfl⟩
  | clearBatch => exact post_returned (fits_clearBatch h)
  | execute =>
    refine (post_returned (fits_execute_unset h)).imp (fun _ _ h => h) fun _ _ h => ?_
    exact h.mono fun hunset _ => hunset
  | executeSql sql =>
    refine (fits_executeSql h sql).imp (fun _ _ h => h) fun _ _ h => ?_
    exact h.mono fun _ => Bool.noConfusion
  | executeQuery =>
    refine (post_returned (fits_executeQuery h)).imp (fun _ _ h => h) fun _ _ h => ?_
    exact h.mono fun hunset _ => hunset
  | executeQuerySql sql =>
    refine (fits_prepare h sql).bind fun _ t ht => ?_
    refine (post_returned (fits_executeQuery ht)).imp (fun _ _ h => h) fun _ _ h => ?_
    exact h.mono fun _ => Bool.noConfusion
  | executeLargeUpdate =>
    refine (post_returned (fits_executeLargeUpdate h)).imp (fun _ _ h => h) fun _ _ h => ?_
    exact h.mono fun hunset _ => hunset
  | executeLargeUpdateSql sql =>
    refine (fits_prepare h sql).bind fun _ t ht => ?_
    refine (post_returned (fits_executeLargeUpdate ht)).imp (fun _ _ h => h) fun _ _ h => ?_
    exact h.mono fun _ => Bool.noConfusion
  | executeLargeBatch =>
    refine (post_returned (fits_executeLargeBatch h)).imp (fun _ _ h => h) fun _ _ h => ?_
    exact h.mono fun _ => Bool.noConfusion
  | getResultSet => exact post_returned (fits_getResultSet h)
  | getLargeUpdateCount => exact post_returned (fits_getLargeUpdateCount h)
  | closeOnCompletion =>
    refine fits_steady (steady_checkOpen.bind fun _ => ?_) h
    refine (steady_modifyFields ?_).bind fun _ => Safe.pure _
    exact fun c => ⟨rfl, rfl, rfl, rfl⟩
  | closeResult => exact post_returned (fits_steady steady_closeSelectResult h)
  | close => exact post_returned (fits_steady steady_closeStmt h)

theorem fits_new (isPreparedStatement : Bool) :
    Fits (V := V) env (.new (references _) isPreparedStatement) :=
  ⟨⟨fun _ => rfl, fun _ => ⟨rfl, rfl⟩, fun _ h => by cases h⟩,
    fun _ _ => .inl (congrArg List.length read_new_self)⟩

theorem fits_start (sql : Option ℕ) : Fits (V := V) env (start env (references _) sql) := by
  cases sql with
  | none => exact fits_new false
  | some sql =>
    have hnew : Fits (V := V) env (.new (references _) true) := fits_new true
    have h := fits_prepare (M := True) hnew sql
    show Fits env (final _)
    generalize prepare env sql _ = r at h ⊢
    cases r with
    | ok a t => exact h
    | error e t => exact h.fits

/-- One call of a run. -/
theorem fits_entry {s : Shared V} (h : Fits env s) (op : Op V) :
    Fits env (entry env s op).after ∧
      (entry env s op).result ≠ .error .arrayIndexOutOfBounds ∧
      ((entry env s op).result = .error .parameterCountMismatch →
        op.executesParams = true → Unset env s) := by
  have hcall := fits_call h op
  unfold entry
  generalize op.call env s = r at hcall ⊢
  cases r with
  | ok a t =>
    refine ⟨hcall, fun hx => ?_, fun hx => ?_⟩
    · cases hx
    · cases hx
  | error x t =>
    refine ⟨hcall.fits, fun hx => ?_, fun hx => ?_⟩
    · exact hcall.inBounds (Except.error.inj hx)
    · exact hcall.mismatch (Except.error.inj hx)

theorem fits_trace : ∀ {ops : List (Op V)} {s : Shared V}, Fits env s →
    ∀ e ∈ trace env s ops, e.result ≠ .error .arrayIndexOutOfBounds ∧
      (e.op.executesParams = true → e.result = .error .parameterCountMismatch →
        Unset env e.before)
  | [], _, _, _, he => by cases he
  | op :: ops, s, h, e, he => by
    obtain ⟨hafter, hbounds, hmismatch⟩ := fits_entry h op
    rcases List.mem_cons.1 he with rfl | he
    · rw [entry_op, entry_before]
      exact ⟨hbounds, fun hop hx => hmismatch hx hop⟩
    · exact fits_trace hafter e he

/-- **As many parameters as the text has.**  No call stores outside of the array of the parameters,
    and `execute`, `executeQuery` and `executeLargeUpdate` are refused for the number of their
    parameters only when no parameter is set. -/
theorem parameters_fit (env : Env) (sql : Option ℕ) (ops : List (Op V)) :
    ∀ e ∈ trace env (start env (references _) sql) ops,
      e.result ≠ .error .arrayIndexOutOfBounds ∧
      (e.op.executesParams = true → e.result = .error .parameterCountMismatch →
        Unset env e.before) :=
  fits_trace (fits_start sql)

theorem parameters_fit_unset :
    Unset (oneParameter 0) (start (V := ℕ) (oneParameter 0) (references _) (some 0)) :=
  (parameters_fit (oneParameter 0) (some 0) [.execute] _ List.mem_cons_self).2 rfl rfl

end DuckDBJava.Bindings
