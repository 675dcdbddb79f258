/-
  The parameters of a batch are those of the moment of `addBatch`.

  `Object[]`s are shared by reference: a batch keeps the arrays themselves, and `executeLargeBatch`
  makes each of them the current one.  **`parameters_by_value`**: the calls return, throw and hand
  to the engine the same as if every array were a copy, unless a batch has left one of its rows as
  the current array.  It does so only by an exception out of a row after which the statement is
  still open, and then `setObject` changes the row (`aliasedRun`).
-/
import DuckDBJava.Connection.Bindings

namespace DuckDBJava.Bindings

open Exec ArrayMemory

variable {V α : Type} {env : Env}

/-- The statement of the source. -/
abbrev Shared (V : Type) := Statement (references (Param V))

/-- The statement without references. -/
abbrev Copied (V : Type) := Statement (values (Param V))

/-- The current array is not one of the batch; arrays of length 0 do not matter. -/
def Apart (s : Shared V) : Prop :=
  s.params ∈ s.batchedParams → (references (Param V)).read s.heap s.params = []

instance (s : Shared V) : Decidable (Apart s) :=
  inferInstanceAs (Decidable (s.params ∈ s.batchedParams →
    (List.getD s.heap s.params [] : List (Param V)) = []))

/-- What is known about the current array. -/
inductive Mode where
  | unknown | apart | closed

def Mode.Holds : Mode → Shared V → Prop
  | unknown, _ => True
  | apart, s => Apart s
  | closed, s => s.closed = true

/-- Two statements that differ in how they keep arrays. -/
structure Represents (m : Mode) (s : Shared V) (t : Copied V) : Prop where
  fields : s.toFields = t.toFields
  params : (references (Param V)).read s.heap s.params = t.params
  batched : s.batchedParams.map ((references (Param V)).read s.heap) = t.batchedParams
  live : Live s.heap s.params
  liveBatch : ∀ r ∈ s.batchedParams, Live s.heap r
  mode : m.Holds s

/-- The two programs do the same. -/
abbrev Same (m : Mode) (x : StmtM (references (Param V)) α) (y : StmtM (values (Param V)) α) :
    Prop :=
  Sim (Represents m) (· = ·) x y

variable {m : Mode}

/-! ## One access -/

theorem same_getFields : Same (V := V) m getFields getFields :=
  fun _ _ h => .ok h.fields h

theorem same_modifyFields {f : Fields V → Fields V}
    (hf : ∀ c, c.closed = true → (f c).closed = true) :
    Same m (modifyFields f) (modifyFields f) := by
  refine Sim.modify fun s t h => ⟨congrArg f h.fields, h.params, h.batched, h.live,
    h.liveBatch, ?_⟩
  have hm := h.mode
  cases m with
  | unknown => trivial
  | apart => exact hm
  | closed => exact hf _ hm

theorem same_modifyFields_bind {f : Fields V → Fields V} {α : Type}
    {x : Unit → StmtM (references (Param V)) α} {y : Unit → StmtM (values (Param V)) α}
    (hf : ∀ c, c.closed = true → (f c).closed = true) (h : Same m (x ()) (y ())) :
    Same m (modifyFields f >>= x) (modifyFields f >>= y) :=
  (same_modifyFields hf).bind fun _ _ _ => h

theorem same_getParams : Same (V := V) m getParams getParams :=
  fun _ _ h => .ok h.params h

theorem same_batchedParamsSize : Same (V := V) m batchedParamsSize batchedParamsSize := by
  intro s t h
  refine .ok ?_ h
  rw [← h.batched, List.length_map]

theorem same_newParams (l : List (Param V)) : Same m (newParams l) (newParams l) := by
  refine Sim.modify fun s t h => ⟨h.fields, read_new_self, ?_, live_new_self,
    fun r hr => (h.liveBatch r hr).new, ?_⟩
  · refine .trans ?_ h.batched
    exact List.map_congr_left fun r hr => read_new (h.liveBatch r hr)
  · have hm := h.mode
    cases m with
    | unknown => trivial
    | apart => exact fun hmem => absurd rfl ((h.liveBatch _ hmem).ne_new (l := l))
    | closed => exact hm

/-- A store into an array that the batch does not have. -/
theorem same_storeParam (i : ℕ) (x : Param V) : Same .apart (storeParam i x) (storeParam i x) := by
  intro s t h
  have hget := same_getParams s t h
  unfold storeParam
  show SimEnd _ _ ((require (i < ((references (Param V)).read s.heap s.params).length) _ >>= _) s)
    ((require (i < t.params.length) _ >>= _) t)
  rw [require_bind, require_bind, h.params]
  split
  case isFalse => exact .error h
  case isTrue hi =>
    -- the batch has an array of length 0 here at most, and nothing is stored into that
    have hnot : s.params ∉ s.batchedParams := by
      intro hmem
      rw [← h.params, h.mode hmem] at hi
      cases hi
    refine .ok rfl ⟨h.fields, ?_, ?_, h.live.store, fun r hr => (h.liveBatch r hr).store,
      fun hmem => absurd hmem hnot⟩
    · exact (read_store_self h.live).trans (congrArg (List.set · i x) h.params)
    · refine .trans ?_ h.batched
      exact List.map_congr_left fun r hr => read_store_of_ne fun heq => hnot (heq ▸ hr)

theorem same_clearBatchedParams : Same (V := V) m clearBatchedParams clearBatchedParams := by
  refine Sim.modify fun s t h => ⟨h.fields, h.params, rfl, h.live, nofun, ?_⟩
  have hm := h.mode
  cases m with
  | unknown => trivial
  | apart => exact nofun
  | closed => exact hm

theorem same_loadParams (i : ℕ) (hm : m ≠ .apart) :
    Same (V := V) m (loadParams i) (loadParams i) := by
  intro s t h
  have hget : t.batchedParams[i]? = s.batchedParams[i]?.map ((references _).read s.heap) := by
    rw [← h.batched, List.getElem?_map]
  unfold loadParams
  rw [hget]
  cases hr : s.batchedParams[i]? with
  | none => exact .error h
  | some r =>
    have hmem := List.mem_of_getElem? hr
    refine .ok rfl ⟨h.fields, rfl, h.batched, h.liveBatch r hmem, h.liveBatch, ?_⟩
    have hmode := h.mode
    cases m with
    | unknown => trivial
    | apart => exact absurd rfl hm
    | closed => exact hmode

/-! ## Closing and checking -/

theorem same_closeStmt : Same (V := V) m closeStmt closeStmt :=
  same_modifyFields fun c h => by rw [if_pos h, h]

theorem same_checkOpen : Same (V := V) m checkOpen checkOpen := by
  refine same_getFields.bind ?_
  rintro c _ rfl
  exact Sim.require _ _

theorem same_checkPrepared : Same (V := V) m checkPrepared checkPrepared := by
  refine same_getFields.bind ?_
  rintro c _ rfl
  exact Sim.ite (Sim.require _ _) (Sim.require _ _)

theorem same_requireNonBatch : Same (V := V) m requireNonBatch requireNonBatch := by
  refine same_getFields.bind ?_
  rintro c _ rfl
  exact Sim.require _ _

theorem same_closeSelectResult : Same (V := V) m closeSelectResult closeSelectResult := by
  refine same_getFields.bind ?_
  rintro c _ rfl
  match c.selectResult with
  | none => exact Sim.pure rfl
  | some ⟨false, _⟩ => exact Sim.pure rfl
  | some ⟨true, _⟩ =>
    refine same_modifyFields_bind (fun _ h => h) ?_
    exact Sim.ite same_closeStmt (Sim.pure rfl)

/-! ## Preparing and executing -/

theorem same_native : Same (V := V) m (native env) (native env) := by
  refine same_getFields.bind ?_
  rintro c _ rfl
  exact same_modifyFields_bind (fun _ h => h) (Sim.require _ _)

theorem same_ensureTransaction : Same (V := V) m (ensureTransaction env) (ensureTransaction env) :=
  same_checkOpen.bind fun _ _ _ => same_native

theorem same_prepare (sql : ℕ) : Same (V := V) m (prepare env sql) (prepare env sql) := by
  refine same_checkOpen.bind fun _ _ _ => same_getFields.bind ?_
  rintro c _ rfl
  refine Sim.ite ?_ (same_modifyFields fun _ h => h)
  refine Sim.catchWith ?_ fun e => ?_
  · refine same_modifyFields_bind (fun _ h => h) ?_
    refine (same_newParams []).bind fun _ _ _ => same_closeSelectResult.bind fun _ _ _ => ?_
    refine same_modifyFields_bind (fun _ h => h) (same_getFields.bind ?_)
    rintro c _ rfl
    refine (Sim.require _ _).bind fun _ _ _ => same_ensureTransaction.bind fun _ _ _ => ?_
    refine same_native.bind fun _ _ _ => same_modifyFields_bind (fun _ h => h) ?_
    exact same_native.bind fun _ _ _ => same_modifyFields fun _ h => h
  · exact (Sim.ite same_closeStmt (Sim.pure rfl)).bind fun _ _ _ => Sim.throw e

theorem same_nativeExecute : Same (V := V) m (nativeExecute env) (nativeExecute env) := by
  refine same_getFields.bind ?_
  rintro c _ rfl
  match c.stmtRef with
  | none => exact Sim.throw _
  | some text =>
    refine same_getParams.bind ?_
    rintro params _ rfl
    refine (Sim.require _ _).bind fun _ _ _ => (Sim.require _ _).bind fun _ _ _ => ?_
    refine same_modifyFields_bind (fun _ h => h) (same_native.bind fun _ _ _ => ?_)
    exact Sim.pure rfl

theorem same_executeDirect : Same (V := V) m (executeDirect env) (executeDirect env) := by
  refine same_getFields.bind ?_
  rintro c _ rfl
  match c.query with
  | none => exact Sim.throw _
  | some text =>
    refine same_native.bind fun _ _ _ => same_modifyFields_bind (fun _ h => h) ?_
    exact same_native.bind fun _ _ _ => Sim.pure rfl

theorem same_executeBody : Same (V := V) m (executeBody env) (executeBody env) := by
  refine same_closeSelectResult.bind fun _ _ _ => ?_
  refine same_modifyFields_bind (fun _ h => h) ?_
  refine same_ensureTransaction.bind fun _ _ _ => same_getFields.bind ?_
  rintro c _ rfl
  refine (Sim.ite same_nativeExecute same_executeDirect).bind ?_
  rintro text _ rfl
  exact same_native.bind fun _ _ _ => same_modifyFields fun _ h => h

theorem same_readChangedRows : Same (V := V) m (readChangedRows env) (readChangedRows env) := by
  refine same_getFields.bind ?_
  rintro c _ rfl
  refine same_native.bind fun _ _ _ => ?_
  match env.changedRows c.calls with
  | none => exact same_modifyFields fun _ h => h
  | some n => exact same_modifyFields fun _ h => h

theorem same_execute : Same (V := V) m (execute env) (execute env) := by
  refine same_checkOpen.bind fun _ _ _ => same_checkPrepared.bind fun _ _ _ => ?_
  refine Sim.bind (S := (· = ·)) (Sim.catchWith ?_ fun e => ?_) fun _ _ _ => ?_
  · exact same_executeBody.bind fun _ _ _ => same_modifyFields fun _ h => h
  · refine same_modifyFields_bind (fun _ h => h) ?_
    refine Sim.bind (S := (· = ·)) (Sim.ite ?_ (Sim.pure rfl)) fun _ _ _ => Sim.throw e
    exact same_closeSelectResult.bind fun _ _ _ => same_closeStmt
  · refine same_getFields.bind ?_
    rintro c _ rfl
    refine Sim.bind (S := (· = ·)) (Sim.ite ?_ (Sim.pure rfl)) fun _ _ _ => Sim.pure rfl
    exact same_readChangedRows.bind fun _ _ _ => same_closeSelectResult

theorem same_getUpdateCountInternal :
    Same (V := V) m getUpdateCountInternal getUpdateCountInternal := by
  refine same_checkOpen.bind fun _ _ _ => same_getFields.bind ?_
  rintro c _ rfl
  match c.selectResult with
  | none => exact Sim.pure rfl
  | some r => exact Sim.ite (Sim.pure rfl) (Sim.pure rfl)

theorem same_executeQuery : Same (V := V) m (executeQuery env) (executeQuery env) := by
  refine same_requireNonBatch.bind fun _ _ _ => same_execute.discard.bind fun _ _ _ => ?_
  refine same_getFields.bind ?_
  rintro c _ rfl
  exact Sim.require _ _

theorem same_executeLargeUpdate :
    Same (V := V) m (executeLargeUpdate env) (executeLargeUpdate env) := by
  refine same_requireNonBatch.bind fun _ _ _ => same_execute.discard.bind fun _ _ _ => ?_
  refine same_getFields.bind ?_
  rintro c _ rfl
  exact (Sim.require _ _).bind fun _ _ _ => same_getUpdateCountInternal

/-! ## Parameters and batches -/

theorem same_toParam (x : Argument V) : Same m (toParam x) (toParam x) := by
  cases x with
  | null => exact Sim.pure rfl
  | bigInteger x =>
    dsimp only [toParam]
    cases DuckDBHugeInt.new (some x) with
    | ok h => exact Sim.pure rfl
    | error e => exact Sim.throw _
  | other x => exact Sim.pure rfl

theorem same_setObject (i : ℤ) (x : Argument V) : Same .apart (setObject i x) (setObject i x) := by
  refine same_checkOpen.bind fun _ _ _ => same_checkPrepared.bind fun _ _ _ => ?_
  refine same_getFields.bind ?_
  rintro c _ rfl
  match c.paramMeta with
  | none => exact Sim.throw _
  | some paramsCount =>
    refine (Sim.require _ _).bind fun _ _ _ => same_getParams.bind ?_
    rintro params _ rfl
    refine Sim.bind (S := (· = ·)) (Sim.ite (same_newParams _) (Sim.pure rfl)) fun _ _ _ => ?_
    refine (same_toParam x).bind ?_
    rintro x _ rfl
    exact same_storeParam _ x

theorem same_clearParameters : Same (V := V) m clearParameters clearParameters :=
  same_checkOpen.bind fun _ _ _ => same_newParams []

theorem checkOpen_of_closed {A : ArrayMemory (Param V)} {s : Statement A}
    (h : s.closed = true) : checkOpen s = .error .statementClosed s :=
  require_of_not (fun hopen => Bool.noConfusion (h.symm.trans hopen)) _ _

theorem checkOpen_of_open {A : ArrayMemory (Param V)} {s : Statement A} (h : s.closed = false) :
    checkOpen s = .ok () s :=
  require_of h _ _

/-- A closed statement takes no parameters. -/
theorem same_setObject_closed (i : ℤ) (x : Argument V) :
    Same .closed (setObject i x) (setObject i x) := by
  intro s t h
  have hs : s.closed = true := h.mode
  have ht : t.closed = true := (congrArg Fields.closed h.fields).symm.trans hs
  rw [setObject, setObject, bind_error (checkOpen_of_closed hs),
    bind_error (checkOpen_of_closed ht)]
  exact .error h

theorem addBatch_of_open {A : ArrayMemory (Param V)} {s : Statement A} (h : s.closed = false) :
    addBatch s = .ok () { s with
      isBatch := true
      batchedParams := s.batchedParams ++ [s.params]
      heap := (A.new [] s.heap).2
      params := (A.new [] s.heap).1 } := by
  have hclear : clearParameters { s with batchedParams := s.batchedParams ++ [s.params] } =
      .ok () { s with
        batchedParams := s.batchedParams ++ [s.params]
        heap := (A.new [] s.heap).2
        params := (A.new [] s.heap).1 } := bind_ok (require_of h _ _)
  rw [addBatch, bind_ok (checkOpen_of_open h), batchParams, modify_bind, bind_ok hclear]
  rfl

theorem same_addBatch : Same (V := V) m addBatch addBatch := by
  intro s t h
  cases hs : s.closed with
  | true =>
    have ht : t.closed = true := (congrArg Fields.closed h.fields).symm.trans hs
    rw [addBatch, addBatch, bind_error (checkOpen_of_closed hs),
      bind_error (checkOpen_of_closed ht)]
    exact .error h
  | false =>
    have ht : t.closed = false := (congrArg Fields.closed h.fields).symm.trans hs
    rw [addBatch_of_open hs, addBatch_of_open ht]
    have hlive : ∀ r ∈ s.batchedParams ++ [s.params], Live s.heap r := by
      intro r hr
      rcases List.mem_append.1 hr with hr | hr
      · exact h.liveBatch r hr
      · rw [List.mem_singleton.1 hr]
        exact h.live
    refine .ok rfl ⟨?_, read_new_self, ?_, live_new_self, fun r hr => (hlive r hr).new, ?_⟩
    · exact congrArg (fun c : Fields V => { c with isBatch := true }) h.fields
    · refine (List.map_congr_left fun r hr => read_new (hlive r hr)).trans ?_
      rw [List.map_append, h.batched, List.map_singleton, h.params]
    · have hm := h.mode
      cases m with
      | unknown => trivial
      | apart => exact fun hmem => absurd rfl ((hlive _ hmem).ne_new (l := []))
      | closed => exact hm

theorem same_addBatchSql (sql : ℕ) : Same (V := V) m (addBatchSql sql) (addBatchSql sql) := by
  refine same_checkOpen.bind fun _ _ _ => same_getFields.bind ?_
  rintro c _ rfl
  exact (Sim.require _ _).bind fun _ _ _ => same_modifyFields fun _ h => h

theorem same_clearBatch : Same (V := V) m clearBatch clearBatch := by
  refine same_checkOpen.bind fun _ _ _ => same_clearBatchedParams.bind fun _ _ _ => ?_
  exact same_modifyFields fun _ h => h

theorem same_executeRows (hm : m ≠ .apart) :
    ∀ n i, Same (V := V) m (executeRows env i n) (executeRows env i n)
  | 0, _ => Sim.pure rfl
  | n + 1, i => by
    refine (same_loadParams i hm).bind fun _ _ _ => same_execute.discard.bind fun _ _ _ => ?_
    refine same_getUpdateCountInternal.bind ?_
    rintro count _ rfl
    refine (same_executeRows hm n (i + 1)).bind ?_
    rintro counts _ rfl
    exact Sim.pure rfl

theorem same_executeStatements :
    ∀ sqls, Same (V := V) m (executeStatements env sqls) (executeStatements env sqls)
  | [] => Sim.pure rfl
  | sql :: sqls => by
    refine (same_prepare sql).bind fun _ _ _ => same_execute.discard.bind fun _ _ _ => ?_
    refine same_getUpdateCountInternal.bind ?_
    rintro count _ rfl
    refine (same_executeStatements sqls).bind ?_
    rintro counts _ rfl
    exact Sim.pure rfl

theorem same_executeLargeBatch (hm : m ≠ .apart) :
    Same (V := V) m (executeLargeBatch env) (executeLargeBatch env) := by
  refine same_checkOpen.bind fun _ _ _ => Sim.catchWith ?_ fun e => ?_
  · refine same_checkOpen.bind fun _ _ _ => same_getFields.bind ?_
    rintro c _ rfl
    refine Sim.bind (S := (· = ·)) (Sim.ite ?_ ?_) ?_
    · refine same_checkPrepared.bind fun _ _ _ => same_ensureTransaction.bind fun _ _ _ => ?_
      refine same_batchedParamsSize.bind ?_
      rintro n _ rfl
      exact same_executeRows hm n 0
    · exact same_ensureTransaction.bind fun _ _ _ => same_executeStatements _
    · rintro counts _ rfl
      exact same_clearBatch.bind fun _ _ _ => same_native.bind fun _ _ _ => Sim.pure rfl
  · exact Sim.bind (S := (· = ·)) (Sim.ite same_native (Sim.pure rfl)) fun _ _ _ => Sim.throw e

theorem same_getResultSet : Same (V := V) m getResultSet getResultSet := by
  refine same_checkOpen.bind fun _ _ _ => same_getFields.bind ?_
  rintro c _ rfl
  exact Sim.ite (same_modifyFields_bind (fun _ h => h) (Sim.pure rfl)) (Sim.pure rfl)

theorem same_getLargeUpdateCount :
    Same (V := V) m getLargeUpdateCount getLargeUpdateCount := by
  refine same_getUpdateCountInternal.bind ?_
  rintro count _ rfl
  exact same_modifyFields_bind (fun _ h => h) (Sim.pure rfl)

/-! ## Runs -/

/-- A call that is not a batch. -/
theorem same_call (hm : m ≠ .unknown) {op : Op V} (hop : op ≠ .executeLargeBatch) :
    Same m (op.call env) (op.call env) := by
  cases op with
  | setObject i x =>
    refine Sim.bind (S := (· = ·)) ?_ fun _ _ _ => Sim.pure rfl
    cases m with
    | unknown => exact absurd rfl hm
    | apart => exact same_setObject i x
    | closed => exact same_setObject_closed i x
  | clearParameters => exact same_clearParameters.bind fun _ _ _ => Sim.pure rfl
  | addBatch => exact same_addBatch.bind fun _ _ _ => Sim.pure rfl
  | addBatchSql sql => exact (same_addBatchSql sql).bind fun _ _ _ => Sim.pure rfl
  | clearBatch => exact same_clearBatch.bind fun _ _ _ => Sim.pure rfl
  | execute => exact same_execute.bind fun _ _ h => Sim.pure (congrArg _ h)
  | executeSql sql =>
    refine same_requireNonBatch.bind fun _ _ _ => (same_prepare sql).bind fun _ _ _ => ?_
    exact same_execute.bind fun _ _ h => Sim.pure (congrArg _ h)
  | executeQuery => exact same_executeQuery.bind fun _ _ _ => Sim.pure rfl
  | executeQuerySql sql =>
    refine (same_prepare sql).bind fun _ _ _ => ?_
    exact same_executeQuery.bind fun _ _ _ => Sim.pure rfl
  | executeLargeUpdate =>
    exact same_executeLargeUpdate.bind fun _ _ h => Sim.pure (congrArg (Returned.counts [·]) h)
  | executeLargeUpdateSql sql =>
    refine (same_prepare sql).bind fun _ _ _ => ?_
    exact same_executeLargeUpdate.bind fun _ _ h => Sim.pure (congrArg (Returned.counts [·]) h)
  | executeLargeBatch => exact absurd rfl hop
  | getResultSet => exact same_getResultSet.bind fun _ _ h => Sim.pure (congrArg _ h)
  | getLargeUpdateCount =>
    exact same_getLargeUpdateCount.bind fun _ _ h => Sim.pure (congrArg (Returned.counts [·]) h)
  | closeOnCompletion =>
    refine same_checkOpen.bind fun _ _ _ => ?_
    exact same_modifyFields_bind (fun _ h => h) (Sim.pure rfl)
  | closeResult => exact same_closeSelectResult.bind fun _ _ _ => Sim.pure rfl
  | close => exact same_closeStmt.bind fun _ _ _ => Sim.pure rfl

theorem Represents.unknown {s : Shared V} {t : Copied V} (h : Represents m s t) :
    Represents .unknown s t :=
  ⟨h.fields, h.params, h.batched, h.live, h.liveBatch, trivial⟩

theorem Represents.mono {m' : Mode} {s : Shared V} {t : Copied V} (h : Represents m s t)
    (hm : m'.Holds s) : Represents m' s t :=
  ⟨h.fields, h.params, h.batched, h.live, h.liveBatch, hm⟩

/-- The two calls end alike. -/
theorem entry_observed {s : Shared V} {t : Copied V} {op : Op V}
    (h : SimEnd (Represents m) (· = ·) (op.call env s) (op.call env t)) :
    (entry env s op).observed = (entry env t op).observed ∧
      Represents m (entry env s op).after (entry env t op).after := by
  unfold entry Entry.observed
  generalize op.call env s = r at h ⊢
  generalize op.call env t = q at h ⊢
  cases h with
  | ok ha h =>
    subst ha
    exact ⟨congrArg (Prod.mk _) (congrArg Fields.log h.fields), h⟩
  | error h => exact ⟨congrArg (Prod.mk _) (congrArg Fields.log h.fields), h⟩

/-- No batch of the run leaves one of its rows as the current array of an open statement. -/
def LeavesNone (l : List (Entry (references (Param V)))) : Prop :=
  ∀ e ∈ l, e.op = .executeLargeBatch → e.after.closed = true ∨ Apart e.after

theorem entry_op (s : Shared V) (op : Op V) : (entry env s op).op = op := by
  unfold entry
  split <;> rfl

theorem entry_before (s : Shared V) (op : Op V) : (entry env s op).before = s := by
  unfold entry
  split <;> rfl

theorem same_call_executeLargeBatch :
    Same (V := V) .unknown (Op.call env .executeLargeBatch) (Op.call env .executeLargeBatch) :=
  (same_executeLargeBatch Mode.noConfusion).bind fun _ _ h => Sim.pure (congrArg _ h)

/-- One call of the run, a batch or another one. -/
theorem entry_represents {s : Shared V} {t : Copied V} (h : Represents m s t) (hm : m ≠ .unknown)
    (op : Op V)
    (hbatch : op = .executeLargeBatch →
      (entry env s op).after.closed = true ∨ Apart (entry env s op).after) :
    (entry env s op).observed = (entry env t op).observed ∧
      ∃ m' ≠ .unknown, Represents m' (entry env s op).after (entry env t op).after := by
  by_cases hop : op = .executeLargeBatch
  · have hend : SimEnd (Represents .unknown) (· = ·) (Op.call env .executeLargeBatch s)
        (Op.call env .executeLargeBatch t) := same_call_executeLargeBatch s t h.unknown
    rw [← hop] at hend
    obtain ⟨hobserved, hafter⟩ := entry_observed hend
    refine ⟨hobserved, ?_⟩
    rcases hbatch hop with hclosed | hapart
    · exact ⟨.closed, Mode.noConfusion, hafter.mono hclosed⟩
    · exact ⟨.apart, Mode.noConfusion, hafter.mono hapart⟩
  · obtain ⟨hobserved, hafter⟩ := entry_observed (same_call hm hop s t h)
    exact ⟨hobserved, m, hm, hafter⟩

theorem trace_observed : ∀ {ops : List (Op V)} {m : Mode} {s : Shared V} {t : Copied V},
    Represents m s t → m ≠ .unknown → LeavesNone (trace env s ops) →
    (trace env s ops).map Entry.observed = (trace env t ops).map Entry.observed
  | [], _, _, _, _, _, _ => rfl
  | op :: ops, m, s, t, h, hm, hbatch => by
    obtain ⟨hobserved, m', hm', hafter⟩ := entry_represents h hm op fun hop =>
      hbatch _ List.mem_cons_self ((entry_op s op).trans hop)
    rw [trace, trace, List.map_cons, List.map_cons, hobserved]
    refine congrArg (List.cons _) (trace_observed hafter hm' ?_)
    exact fun e he => hbatch e (List.mem_cons_of_mem _ he)

theorem new_represents (isPreparedStatement : Bool) :
    Represents (V := V) .apart (.new _ isPreparedStatement) (.new _ isPreparedStatement) :=
  ⟨rfl, rfl, rfl, live_new_self, nofun, nofun⟩

theorem start_represents (sql : Option ℕ) :
    Represents (V := V) .apart (start env _ sql) (start env _ sql) := by
  cases sql with
  | none => exact new_represents false
  | some sql => exact (same_prepare sql _ _ (new_represents true)).final

/-- **The rows of a batch are those of `addBatch`.**  Every call of the run returns or throws, and
    hands to the engine, what it would if all arrays were copies. -/
theorem parameters_by_value (env : Env) (sql : Option ℕ) (ops : List (Op V))
    (hbatch : LeavesNone (trace env (start env _ sql) ops)) :
    (trace env (start env (references _) sql) ops).map Entry.observed =
      (trace env (start env (values _) sql) ops).map Entry.observed :=
  trace_observed (start_represents sql) Mode.noConfusion hbatch

/-- A text with one parameter, of which the execution numbered `k` cannot convert it. -/
def oneParameter (k : ℕ) : Env where
  parameterCount _ := 1
  returns _ := .nothing
  succeeds _ := true
  converts n := n != k
  changedRows _ := none

/-- Two rows, and a third one that is executed by itself. -/
def twoRows : List (Op ℕ) :=
  [.setObject 1 (.other 5), .addBatch, .setObject 1 (.other 6), .addBatch, .executeLargeBatch,
    .setObject 1 (.bigInteger 7), .execute]

theorem parameters_by_value_twoRows :
    (trace (oneParameter 0) (start (oneParameter 0) (references _) (some 0)) twoRows).map
        Entry.observed =
      (trace (oneParameter 0) (start (oneParameter 0) (values _) (some 0)) twoRows).map
        Entry.observed :=
  parameters_by_value _ _ _ (by unfold LeavesNone; decide)

/-- A row that cannot be converted, after which it is set again. -/
def aliasedRun : List (Op ℕ) :=
  [.setObject 1 (.other 5), .addBatch, .executeLargeBatch, .setObject 1 (.other 6),
    .executeLargeBatch]

-- the second batch executes the row of the first one with what was set in between
example : ((trace (oneParameter 5) (start (oneParameter 5) (references _) (some 0)) aliasedRun).map
    fun e => e.after.log) = [[], [], [], [], [(0, [.other 6])]] := by decide

/-! ## What a batch leaves -/

theorem batchedParams_native {s t : Shared V} {r : Unit} (h : native env s = .ok r t) :
    t.batchedParams = s.batchedParams := by
  obtain ⟨c, _, hget, h⟩ := bind_eq_ok.1 h
  cases hget
  obtain ⟨_, _, hmodify, h⟩ := bind_eq_ok.1 h
  cases hmodify
  rw [← (require_eq_ok.1 h).2]

/-- A batch that returns has no rows left. -/
theorem batchedParams_executeLargeBatch {s t : Shared V} {l : List ℤ}
    (h : executeLargeBatch env s = .ok l t) : t.batchedParams = [] := by
  obtain ⟨_, s₁, -, h⟩ := bind_eq_ok.1 h
  rw [catchWith_apply] at h
  cases hbody : batchBody env s₁ with
  | error e u =>
    rw [hbody] at h
    obtain ⟨_, _, _, h⟩ := bind_eq_ok.1 h
    cases h
  | ok counts u =>
    rw [hbody] at h
    cases h
    obtain ⟨_, _, _, hbody⟩ := bind_eq_ok.1 hbody
    obtain ⟨_, _, _, hbody⟩ := bind_eq_ok.1 hbody
    obtain ⟨_, _, _, hbody⟩ := bind_eq_ok.1 hbody
    obtain ⟨_, s₂, hclear, hbody⟩ := bind_eq_ok.1 hbody
    obtain ⟨_, s₃, hnative, hbody⟩ := bind_eq_ok.1 hbody
    cases hbody
    rw [batchedParams_native hnative]
    obtain ⟨_, _, _, hclear⟩ := bind_eq_ok.1 hclear
    cases hclear
    rfl

theorem entry_of_mem : ∀ {ops : List (Op V)} {s : Shared V} {e : Entry (references (Param V))},
    e ∈ trace env s ops → e = entry env e.before e.op
  | [], _, _, he => by cases he
  | op :: ops, s, e, he => by
    rcases List.mem_cons.1 he with rfl | he
    · rw [entry_op, entry_before]
    · exact entry_of_mem he

/-- Batches that return, or close the statement, leave none of their rows. -/
theorem leavesNone_of_ok {ops : List (Op V)} {s : Shared V}
    (h : ∀ e ∈ trace env s ops, e.op = .executeLargeBatch →
      (∃ a, e.result = .ok a) ∨ e.after.closed = true) : LeavesNone (trace env s ops) := by
  intro e he hop
  rcases h e he hop with ⟨a, ha⟩ | hclosed
  · right
    have heq := entry_of_mem he
    rw [hop] at heq
    rw [heq] at ha ⊢
    unfold entry at ha ⊢
    cases hcall : Op.call env .executeLargeBatch e.before with
    | error _ _ =>
      rw [hcall] at ha
      cases ha
    | ok b t =>
      obtain ⟨l, u, hbatch, hret⟩ := bind_eq_ok.1 hcall
      cases hret
      intro hmem
      rw [batchedParams_executeLargeBatch hbatch] at hmem
      cases hmem
  · exact .inl hclosed

end DuckDBJava.Bindings
