/-
  What one call of the appender can do: every outcome of `flush` (`Flushed`) and of `step`
  (`Stepped`), with the conditions under which it occurs.
-/
import DuckDBJava.Appender.Machine

namespace DuckDBJava

open Exec PathTree

/-! ## What resets throw -/

/-- The buffers of a column could not be fetched. -/
def Exn.isReset (e : Exn) : Bool := e = .sql .resetData ∨ e = .sql .resetValidity

theorem Exn.isSql_of_isReset {e : Exn} (h : e.isReset = true) : e.isSql := by
  simp only [Exn.isReset, Bool.decide_or, Bool.or_eq_true, decide_eq_true_eq] at h
  rcases h with rfl | rfl <;> rfl

theorem fetchBuffers_isReset {eng : Engine} {kind : TypeKind} {n : ℕ} {v v' : Vec} {e : Exn}
    (h : fetchBuffers eng kind n v = .error e v') : e.isReset := by
  simp only [fetchBuffers] at h
  rcases bind_eq_error.1 h with h | ⟨_, _, _, h⟩
  · rw [require_apply] at h; split at h <;> cases h; rfl
  · rcases bind_eq_error.1 h with h | ⟨_, _, _, h⟩
    · rw [require_apply] at h; split at h <;> cases h; rfl
    · cases h

mutual

theorem resetAt_isReset {eng : Engine} {m a b : ℕ} {e : Exn} : ∀ (t : LogicalType) (v v' : Vec),
    resetAt eng m a b t v = .error e v' → e.isReset
  | .node kind cs, v, v', h => by
    rw [resetAt] at h
    rcases bind_eq_error.1 h with h | ⟨_, w, _, h⟩
    · exact fetchBuffers_isReset h
    · exact resetChildren_isReset cs _ w v' h

theorem resetChildren_isReset {eng : Engine} {m a : ℕ} {kind : TypeKind} {e : Exn} :
    ∀ (ts : List LogicalType) (i : ℕ) (v v' : Vec),
      resetChildren eng m a kind i ts v = .error e v' → e.isReset
  | [], _, v, v', h => by rw [resetChildren] at h; cases h
  | t :: ts, i, v, v', h => by
    rw [resetChildren] at h
    rcases bind_eq_error.1 h with h | ⟨_, w, _, h⟩
    · obtain ⟨c, hc, _⟩ := onChild_eq_error.1 h
      rcases bind_eq_error.1 hc with hc | ⟨_, _, _, hc⟩
      · cases hc
      · exact resetAt_isReset t _ c hc
    · exact resetChildren_isReset ts (i + 1) w v' h

end

/-- The top-level columns are reset like the fields of a `STRUCT`. -/
theorem resetColumns_eq (eng : Engine) : ∀ (ts : List LogicalType) (i : ℕ),
    resetColumns eng i ts = resetChildren eng eng.vectorSize 1 (.struct []) i ts
  | [], i => by rw [resetColumns, resetChildren]
  | t :: ts, i => by
    rw [resetColumns, resetChildren, resetColumns_eq eng ts (i + 1)]
    rfl

theorem resetColumns_isReset {eng : Engine} {e : Exn} {ts : List LogicalType} {i : ℕ} {v v' : Vec}
    (h : resetColumns eng i ts v = .error e v') : e.isReset := by
  rw [resetColumns_eq] at h
  exact resetChildren_isReset ts i v v' h

/-- After a reset of the chunk all buffers can be fetched anew. -/
def Resettable (cfg : Config) (chunk : Vec) : Prop :=
  isOk (resetColumns cfg.eng 0 cfg.columns (dataChunkReset cfg.eng chunk)) = true

instance (cfg : Config) (chunk : Vec) : Decidable (Resettable cfg chunk) :=
  inferInstanceAs (Decidable (_ = true))

theorem Resettable.ne_error {cfg : Config} {chunk chunk' : Vec} {e : Exn}
    (h : Resettable cfg chunk) :
    resetColumns cfg.eng 0 cfg.columns (dataChunkReset cfg.eng chunk) ≠ .error e chunk' := by
  intro hx
  rw [Resettable, hx] at h
  cases h

theorem create_eq_start {cfg : Config}
    (h : LogicalType.allHaveTypeIds cfg.columns = true ∧
      isOk (resetColumns cfg.eng 0 cfg.columns newChunk) = true) :
    create cfg = .ok cfg.start := by
  obtain ⟨hids, h⟩ := h
  rw [create, Config.start, if_pos hids]
  cases hx : resetColumns cfg.eng 0 cfg.columns newChunk with
  | ok _ chunk => rfl
  | error e chunk => rw [hx] at h; cases h

/-! ## `flush` -/

variable (cfg : Config)

/-- The rows of the chunk are appended to the native appender. -/
def Appender.handOver (s : Appender) : Appender :=
  { s with nativeBuffer := s.nativeBuffer ++ chunkRows cfg s }

/-- They are in the table, and the chunk is reset. -/
def Appender.flushed (s : Appender) (chunk : Vec) : Appender :=
  { s with
    table := s.table ++ (s.nativeBuffer ++ chunkRows cfg s)
    nativeBuffer := []
    chunk := chunk }

/-- The outcomes of `flush`. -/
inductive Flushed (n : Natives) (s : Appender) : EStateM.Result Exn Appender ℕ → Prop
  | closed : s.closed = true → Flushed n s (.error (.sql .closed) s)
  | inRow : s.closed = false → s.readyForANewRowInvariant = false →
      Flushed n s (.error (.sql .flushInRow) s)
  | empty : s.closed = false → s.readyForANewRowInvariant = true → s.rowIdx = 0 →
      Flushed n s (.ok 0 s)
  | appendFailed : s.closed = false → s.readyForANewRowInvariant = true → s.rowIdx ≠ 0 →
      n.appendDataChunk = false → Flushed n s (.error (.sql .appenderError) s)
  | flushFailed : s.closed = false → s.readyForANewRowInvariant = true → s.rowIdx ≠ 0 →
      n.appendDataChunk = true → n.appenderFlush = false →
      Flushed n s (.error (.sql .appenderError) (s.handOver cfg))
  | resetFailed {e chunk} : s.closed = false → s.readyForANewRowInvariant = true → s.rowIdx ≠ 0 →
      n.appendDataChunk = true → n.appenderFlush = true →
      resetColumns cfg.eng 0 cfg.columns (dataChunkReset cfg.eng s.chunk) = .error e chunk →
      Flushed n s (.error e (s.flushed cfg chunk))
  | done {chunk} : s.closed = false → s.readyForANewRowInvariant = true → s.rowIdx ≠ 0 →
      n.appendDataChunk = true → n.appenderFlush = true →
      resetColumns cfg.eng 0 cfg.columns (dataChunkReset cfg.eng s.chunk) = .ok () chunk →
      Flushed n s (.ok s.rowIdx
        { s.flushed cfg chunk with rowIdx := 0, generation := s.generation + 1 })

theorem checkOpen_apply (s : Appender) :
    checkOpen s = if s.closed = false then .ok () s else .error (.sql .closed) s := by
  show (require _ _ : AppM Unit) s = _
  rw [require_apply]

theorem checkOpen_of_open {s : Appender} (h : s.closed = false) : checkOpen s = .ok () s := by
  rw [checkOpen_apply, if_pos h]

theorem checkOpen_of_closed {s : Appender} (h : s.closed = true) :
    checkOpen s = .error (.sql .closed) s := by
  rw [checkOpen_apply, if_neg (by simp [h])]

/-- After `checkOpen`, on an open appender. -/
theorem checkOpen_bind {α : Type} {s : Appender} (h : s.closed = false) (f : Unit → AppM α) :
    (checkOpen >>= f) s = f () s := bind_ok (checkOpen_of_open h)

theorem onChunk_apply {α : Type} (x : PutM α) (s : Appender) :
    onChunk x s = match x s.chunk with
      | .ok a chunk => .ok a { s with chunk := chunk }
      | .error e chunk => .error e { s with chunk := chunk } := rfl

theorem onColumn_ok {α : Type} {col : Column} {x : PutM α} {s : Appender} {a : α} {v : Vec}
    (h : x (s.chunk.sub col.path) = .ok a v) :
    onColumn col x s = .ok a { s with chunk := s.chunk.setSub col.path v } := by
  rw [onColumn, onChunk_apply, onPath_apply, h]

theorem onColumn_error {α : Type} {col : Column} {x : PutM α} {s : Appender} {e : Exn} {v : Vec}
    (h : x (s.chunk.sub col.path) = .error e v) :
    onColumn col x s = .error e { s with chunk := s.chunk.setSub col.path v } := by
  rw [onColumn, onChunk_apply, onPath_apply, h]

theorem flush_spec (n : Natives) (s : Appender) : Flushed cfg n s (flush cfg n s) := by
  unfold flush
  cases hc : s.closed with
  | true => rw [bind_error (checkOpen_of_closed hc)]; exact .closed hc
  | false =>
    rw [checkOpen_bind hc, get_bind, require_bind]
    cases hr : s.readyForANewRowInvariant with
    | false => exact .inRow hc hr
    | true =>
      simp only [↓reduceIte]
      split
      · next h0 => exact .empty hc hr h0
      · next h0 =>
        simp only [require_bind, modify_bind]
        cases ha : n.appendDataChunk with
        | false => exact .appendFailed hc hr h0 ha
        | true =>
          cases hf : n.appenderFlush with
          | false => exact .flushFailed hc hr h0 ha hf
          | true =>
            simp only [↓reduceIte]
            rw [bind_apply, onChunk_apply]
            cases hx : resetColumns cfg.eng 0 cfg.columns (dataChunkReset cfg.eng s.chunk) with
            | ok _ chunk => exact .done hc hr h0 ha hf hx
            | error e chunk => exact .resetFailed hc hr h0 ha hf hx

variable {cfg}

theorem flushed_of_eq {n : Natives} {s : Appender} {r : EStateM.Result Exn Appender ℕ}
    (h : flush cfg n s = r) : Flushed cfg n s r := h ▸ flush_spec cfg n s

theorem Flushed.isSql {n : Natives} {s t : Appender} {e : Exn} (h : Flushed cfg n s (.error e t)) :
    e.isSql := by
  cases h with
  | resetFailed _ _ _ _ _ hx => exact Exn.isSql_of_isReset (resetColumns_isReset hx)
  | _ => rfl

variable (cfg)

/-! ## `step` -/

/-- The end of `close`. -/
def Appender.closing (n : Natives) (s : Appender) : Appender :=
  { final (nativeFlush n.appenderDestroy (final (nativeFlush n.appenderClose s))) with
    closed := true }

/-- `col` has been supplied and the cursor has moved on. -/
def Appender.supplied (s : Appender) (col : Column) (chunk : Vec) : Appender :=
  { s with chunk := chunk, prevColumn := some col, currentColumn := nextColumn cfg.columns col }

/-- The outcomes of a call. -/
inductive Stepped : Call → Natives → Appender → EStateM.Result Exn Appender Unit → Prop
  /-- a check failed before anything was changed -/
  | refused {c n s e} : c ≠ .close → e.isSql → Stepped c n s (.error e s)
  | beginRow {n s t ts} : s.closed = false → s.currentColumn = none → s.prevColumn = none →
      cfg.columns = t :: ts →
      Stepped .beginRow n s (.ok () { s with currentColumn := some (.top 0 t) })
  | beginStruct {n s col field} : s.closed = false → s.currentColumn = some col →
      col.colType = .struct → col.get? 0 = some field →
      Stepped .beginStruct n s (.ok () { s with currentColumn := some field })
  | endStruct {n s p i t} : s.closed = false → s.prevColumn = some (.child p i t) →
      p.colType = .struct → i + 1 = p.childCount →
      Stepped .endStruct n s (.ok () { s with prevColumn := some p })
  | beginUnion {n s tag col m v} : s.closed = false → s.currentColumn = some col →
      col.colType = .union → putUnionTag col s.rowIdx tag (s.chunk.sub col.path) = .ok m v →
      Stepped (.beginUnion tag) n s
        (.ok () { s with chunk := s.chunk.setSub col.path v, currentColumn := col.get? m })
  | beginUnionFailed {n s tag col e v} : s.closed = false → s.currentColumn = some col →
      col.colType = .union → putUnionTag col s.rowIdx tag (s.chunk.sub col.path) = .error e v →
      Stepped (.beginUnion tag) n s (.error e { s with chunk := s.chunk.setSub col.path v })
  | endUnion {n s p i t} : s.closed = false → s.prevColumn = some (.child p i t) →
      p.colType = .union → Stepped .endUnion n s (.ok () { s with prevColumn := some p })
  | append {n s a col v} : s.closed = false → s.currentColumn = some col →
      a.write (s.env cfg) col (s.chunk.sub col.path) = .ok () v →
      Stepped (.append a) n s (.ok () (s.supplied cfg col (s.chunk.setSub col.path v)))
  | appendFailed {n s a col e v} : s.closed = false → s.currentColumn = some col →
      a.write (s.env cfg) col (s.chunk.sub col.path) = .error e v →
      Stepped (.append a) n s (.error e { s with chunk := s.chunk.setSub col.path v })
  | appendNull {n s col v} : s.closed = false → s.currentColumn = some col →
      col.setNull s.rowIdx (s.chunk.sub col.path) = .ok () v →
      Stepped .appendNull n s (.ok () (s.supplied cfg col (s.chunk.setSub col.path v)))
  | appendNullFailed {n s col e v} : s.closed = false → s.currentColumn = some col →
      col.setNull s.rowIdx (s.chunk.sub col.path) = .error e v →
      Stepped .appendNull n s (.error e { s with chunk := s.chunk.setSub col.path v })
  | appendDefault {n s col} : s.closed = false → s.currentColumn = some col →
      Stepped .appendDefault n s
        (.ok () (s.supplied cfg col (defaultWritten cfg col s)))
  | endRow {n s} : s.closed = false → s.rowCompletedInvariant cfg = true →
      s.rowIdx + 1 < cfg.eng.vectorSize →
      Stepped .endRow n s (.ok () { s with rowIdx := s.rowIdx + 1, prevColumn := none })
  | endRowFlushed {n s k t} : s.closed = false → s.rowCompletedInvariant cfg = true →
      cfg.eng.vectorSize ≤ s.rowIdx + 1 →
      flush cfg n { s with rowIdx := s.rowIdx + 1, prevColumn := none } = .ok k t →
      Stepped .endRow n s (.ok () t)
  | endRowFailed {n s e t} : s.closed = false → s.rowCompletedInvariant cfg = true →
      cfg.eng.vectorSize ≤ s.rowIdx + 1 →
      flush cfg n { s with rowIdx := s.rowIdx + 1, prevColumn := none } = .error e t →
      Stepped .endRow n s (.error e { t with prevColumn := s.prevColumn, rowIdx := t.rowIdx - 1 })
  | flush {n s k t} : flush cfg n s = .ok k t → Stepped .flush n s (.ok () t)
  | flushFailed {n s e t} : flush cfg n s = .error e t → Stepped .flush n s (.error e t)
  | closeAgain {n s} : s.closed = true → Stepped .close n s (.ok () s)
  | closeEmpty {n s} : s.closed = false → s.rowIdx = 0 → Stepped .close n s (.ok () (s.closing n))
  | close {n s} : s.closed = false → s.rowIdx ≠ 0 →
      Stepped .close n s (.ok () ((final (flush cfg n s)).closing n))

/-- The call reaches `duckdb_append_data_chunk`. -/
def handsOver (cfg : Config) (c : Call) (s : Appender) : Bool :=
  match c with
  | .flush | .close => !s.closed && s.readyForANewRowInvariant && s.rowIdx != 0
  | .endRow =>
    !s.closed && s.rowCompletedInvariant cfg && decide (cfg.eng.vectorSize ≤ s.rowIdx + 1)
  | _ => false

/-- What `currentColumn` does. -/
theorem currentColumn_bind {α : Type} {s : Appender} {col : Column} (h : s.closed = false)
    (hc : s.currentColumn = some col) (f : Column → AppM α) :
    (currentColumn cfg >>= f) s = f col s := by
  refine bind_ok ?_
  unfold currentColumn
  rw [checkOpen_bind h, get_bind, hc]; rfl

theorem currentColumn_error {α : Type} {s : Appender}
    (h : s.closed = true ∨ s.currentColumn = none) (f : Column → AppM α) :
    ∃ e, e.isSql ∧ (currentColumn cfg >>= f) s = .error e s := by
  cases hcl : s.closed with
  | true =>
    refine ⟨.sql .closed, rfl, bind_error ?_⟩
    unfold currentColumn
    exact bind_error (checkOpen_of_closed hcl)
  | false =>
    have hc : s.currentColumn = none := by simpa [hcl] using h
    refine ⟨.sql (.columnNotFound cfg.columns.length), rfl, bind_error ?_⟩
    unfold currentColumn
    rw [checkOpen_bind hcl, get_bind, hc]; rfl

theorem moveToNextColumn_apply {s : Appender} {col : Column} (h : s.closed = false)
    (hc : s.currentColumn = some col) :
    moveToNextColumn cfg s = .ok () (s.supplied cfg col s.chunk) := by
  rw [moveToNextColumn, currentColumn_bind cfg h hc]
  simp only [modify_apply, Appender.supplied, hc]

/-- The calls that supply the current column with `x`. -/
theorem supply_apply {s : Appender} {col : Column} (x : Appender → PutM Unit)
    (h : s.closed = false) (hc : s.currentColumn = some col) :
    (do onColumn col (x (← get)); moveToNextColumn cfg : AppM Unit) s =
      match x s (s.chunk.sub col.path) with
      | .ok _ v => .ok () (s.supplied cfg col (s.chunk.setSub col.path v))
      | .error e v => .error e { s with chunk := s.chunk.setSub col.path v } := by
  rw [get_bind]
  cases hx : x s (s.chunk.sub col.path) with
  | ok _ v => rw [bind_ok (onColumn_ok hx)]; exact moveToNextColumn_apply cfg h hc
  | error e v => rw [bind_error (onColumn_error hx)]

theorem append_apply {s : Appender} {col : Column} (a : Append) (h : s.closed = false)
    (hc : s.currentColumn = some col) :
    append cfg a s = match a.write (s.env cfg) col (s.chunk.sub col.path) with
      | .ok _ v => .ok () (s.supplied cfg col (s.chunk.setSub col.path v))
      | .error e v => .error e { s with chunk := s.chunk.setSub col.path v } := by
  rw [append, currentColumn_bind cfg h hc]
  exact supply_apply cfg (fun s => a.write (s.env cfg) col) h hc

theorem appendNull_apply {s : Appender} {col : Column} (h : s.closed = false)
    (hc : s.currentColumn = some col) :
    appendNull cfg s = match col.setNull s.rowIdx (s.chunk.sub col.path) with
      | .ok _ v => .ok () (s.supplied cfg col (s.chunk.setSub col.path v))
      | .error e v => .error e { s with chunk := s.chunk.setSub col.path v } := by
  rw [appendNull, currentColumn_bind cfg h hc]
  exact supply_apply cfg (fun s => col.setNull s.rowIdx) h hc

theorem beginRow_apply {s : Appender} {t : LogicalType} {ts : List LogicalType}
    (h : s.closed = false) (hc : s.currentColumn = none) (hp : s.prevColumn = none)
    (hcols : cfg.columns = t :: ts) :
    beginRow cfg s = .ok () { s with currentColumn := some (.top 0 t) } := by
  rw [beginRow, checkOpen_bind h, get_bind, require_bind,
    if_pos (by simp [Appender.readyForANewRowInvariant, hc, hp]), hcols]
  rfl

theorem beginStruct_apply {s : Appender} {col field : Column} (h : s.closed = false)
    (hc : s.currentColumn = some col) (ht : col.colType = .struct) (hf : col.get? 0 = some field) :
    beginStruct s = .ok () { s with currentColumn := some field } := by
  rw [beginStruct, checkOpen_bind h, get_bind, hc]
  simp only [require_bind, if_pos ht, hf]
  rfl

theorem endStruct_apply {s : Appender} {p : Column} {i : ℕ} {t : LogicalType} (h : s.closed = false)
    (hp : s.prevColumn = some (.child p i t)) (ht : p.colType = .struct)
    (hi : i + 1 = p.childCount) : endStruct s = .ok () { s with prevColumn := some p } := by
  rw [endStruct, checkOpen_bind h, get_bind,
    if_pos (by simp [Appender.structCompletedInvariant, hp, ht, hi])]
  simp only [modify_apply, hp]
  rfl

theorem beginUnion_apply {s : Appender} {col : Column} (tag : String) (h : s.closed = false)
    (hc : s.currentColumn = some col) (ht : col.colType = .union) :
    beginUnion tag s = match putUnionTag col s.rowIdx tag (s.chunk.sub col.path) with
      | .ok m v =>
        .ok () { s with chunk := s.chunk.setSub col.path v, currentColumn := col.get? m }
      | .error e v => .error e { s with chunk := s.chunk.setSub col.path v } := by
  rw [beginUnion, checkOpen_bind h, get_bind, hc]
  simp only [require_bind, if_pos ht, get_bind]
  cases hx : putUnionTag col s.rowIdx tag (s.chunk.sub col.path) with
  | ok m v => rw [bind_ok (onColumn_ok hx)]; rfl
  | error e v => rw [bind_error (onColumn_error hx)]; simp only [hc]

theorem endUnion_apply {s : Appender} {p : Column} {i : ℕ} {t : LogicalType} (h : s.closed = false)
    (hp : s.prevColumn = some (.child p i t)) (ht : p.colType = .union) :
    endUnion s = .ok () { s with prevColumn := some p } := by
  rw [endUnion, checkOpen_bind h, get_bind, require_bind,
    if_pos (by simp [Appender.unionCompletedInvariant, hp, ht])]
  simp only [modify_apply, hp]
  rfl

theorem append_spec (a : Append) (n : Natives) (s : Appender) :
    Stepped cfg (.append a) n s (append cfg a s) := by
  by_cases h : s.closed = false
  · cases hc : s.currentColumn with
    | none =>
      obtain ⟨e, he, hs⟩ := currentColumn_error cfg (.inr hc) _
      rw [append, hs]; exact .refused nofun he
    | some col =>
      rw [append_apply cfg a h hc]
      split
      · next hx => exact .append h hc hx
      · next hx => exact .appendFailed h hc hx
  · obtain ⟨e, he, hs⟩ := currentColumn_error cfg (.inl (by simpa using h)) _
    rw [append, hs]; exact .refused nofun he

theorem appendNull_spec (n : Natives) (s : Appender) :
    Stepped cfg .appendNull n s (appendNull cfg s) := by
  by_cases h : s.closed = false
  · cases hc : s.currentColumn with
    | none =>
      obtain ⟨e, he, hs⟩ := currentColumn_error cfg (.inr hc) _
      rw [appendNull, hs]; exact .refused nofun he
    | some col =>
      rw [appendNull_apply cfg h hc]
      split
      · next hx => exact .appendNull h hc hx
      · next hx => exact .appendNullFailed h hc hx
  · obtain ⟨e, he, hs⟩ := currentColumn_error cfg (.inl (by simpa using h)) _
    rw [appendNull, hs]; exact .refused nofun he

theorem appendDefault_spec (n : Natives) (s : Appender) :
    Stepped cfg .appendDefault n s (appendDefault cfg s) := by
  unfold appendDefault
  by_cases h : s.closed = false
  · cases hc : s.currentColumn with
    | none =>
      obtain ⟨e, he, hs⟩ := currentColumn_error cfg (.inr hc) _
      rw [hs]; exact .refused nofun he
    | some col =>
      rw [currentColumn_bind cfg h hc, modify_bind]
      have := moveToNextColumn_apply cfg (s := { s with
        chunk := defaultWritten cfg col s }) h hc
      exact this ▸ .appendDefault h hc
  · obtain ⟨e, he, hs⟩ := currentColumn_error cfg (.inl (by simpa using h)) _
    rw [hs]; exact .refused nofun he

theorem beginRow_spec (n : Natives) (s : Appender) :
    Stepped cfg .beginRow n s (beginRow cfg s) := by
  unfold beginRow
  cases hc : s.closed with
  | true => rw [bind_error (checkOpen_of_closed hc)]; exact .refused nofun rfl
  | false =>
    rw [checkOpen_bind hc, get_bind, require_bind]
    split
    · next hr =>
      simp only [Appender.readyForANewRowInvariant, Bool.and_eq_true,
        Option.isNone_iff_eq_none] at hr
      cases h : cfg.columns with
      | nil => exact .refused nofun rfl
      | cons t ts => exact .beginRow hc hr.1 hr.2 h
    · exact .refused nofun rfl

theorem beginStruct_spec (n : Natives) (s : Appender) :
    Stepped cfg .beginStruct n s (beginStruct s) := by
  unfold beginStruct
  cases hc : s.closed with
  | true => rw [bind_error (checkOpen_of_closed hc)]; exact .refused nofun rfl
  | false =>
    rw [checkOpen_bind hc, get_bind]
    cases hcol : s.currentColumn with
    | none => exact .refused nofun rfl
    | some col =>
      simp only [require_bind]
      split
      · next ht =>
        cases hf : col.get? 0 with
        | none => exact .refused nofun rfl
        | some field => exact .beginStruct hc hcol ht hf
      · exact .refused nofun rfl

theorem endStruct_spec (n : Natives) (s : Appender) :
    Stepped cfg .endStruct n s (endStruct s) := by
  unfold endStruct
  cases hc : s.closed with
  | true => rw [bind_error (checkOpen_of_closed hc)]; exact .refused nofun rfl
  | false =>
    rw [checkOpen_bind hc, get_bind]
    split
    · next h =>
      simp only [Appender.structCompletedInvariant] at h
      split at h
      · next p i t hp =>
        have := of_decide_eq_true h
        simp only [modify_apply, hp]
        exact .endStruct hc hp this.1 this.2
      · cases h
    · rcases s.currentColumn with _ | ⟨_ | ⟨p, i, t⟩⟩
      · exact .refused nofun rfl
      · exact .refused nofun rfl
      · by_cases ht : p.colType = .struct
        · simp only [if_pos ht]; exact .refused nofun rfl
        · simp only [if_neg ht]; exact .refused nofun rfl

theorem endUnion_spec (n : Natives) (s : Appender) :
    Stepped cfg .endUnion n s (endUnion s) := by
  unfold endUnion
  cases hc : s.closed with
  | true => rw [bind_error (checkOpen_of_closed hc)]; exact .refused nofun rfl
  | false =>
    rw [checkOpen_bind hc, get_bind, require_bind]
    split
    · next h =>
      simp only [Appender.unionCompletedInvariant] at h
      split at h
      · next p i t hp =>
        simp only [modify_apply, hp]
        exact .endUnion hc hp (of_decide_eq_true h)
      · cases h
    · exact .refused nofun rfl

theorem beginUnion_spec (tag : String) (n : Natives) (s : Appender) :
    Stepped cfg (.beginUnion tag) n s (beginUnion tag s) := by
  cases hc : s.closed with
  | true => rw [beginUnion, bind_error (checkOpen_of_closed hc)]; exact .refused nofun rfl
  | false =>
    cases hcol : s.currentColumn with
    | none => rw [beginUnion, checkOpen_bind hc, get_bind, hcol]; exact .refused nofun rfl
    | some col =>
      by_cases ht : col.colType = .union
      · rw [beginUnion_apply tag hc hcol ht]
        split
        · next hx => exact .beginUnion hc hcol ht hx
        · next hx => exact .beginUnionFailed hc hcol ht hx
      · rw [beginUnion, checkOpen_bind hc, get_bind, hcol]
        simp only [require_bind, if_neg ht]
        exact .refused nofun rfl

theorem endRow_spec (n : Natives) (s : Appender) : Stepped cfg .endRow n s (endRow cfg n s) := by
  unfold endRow
  cases hc : s.closed with
  | true => rw [bind_error (checkOpen_of_closed hc)]; exact .refused nofun rfl
  | false =>
    rw [checkOpen_bind hc, get_bind]
    split
    · next hr =>
      rw [modify_bind]
      split
      · next hv =>
        rw [catchWith_apply, discard_apply]
        cases hx : flush cfg n { s with rowIdx := s.rowIdx + 1, prevColumn := none } with
        | ok k t => exact .endRowFlushed hc hr hv hx
        | error e t =>
          have he : e.isSql := (flushed_of_eq hx).isSql
          simp only [he, ↓reduceIte, modify_bind, throw_apply]
          exact .endRowFailed hc hr hv hx
      · next hv => exact .endRow hc hr (by omega)
    · cases s.currentTopLevelColumn <;> exact .refused nofun rfl

theorem close_spec (n : Natives) (s : Appender) : Stepped cfg .close n s (close cfg n s) := by
  unfold close
  rw [get_bind]
  cases hc : s.closed with
  | true => exact .closeAgain hc
  | false =>
    simp only [Bool.false_eq_true, ↓reduceIte]
    split
    · next h0 =>
      rw [bind_apply, catchWith_apply, discard_apply]
      cases hx : flush cfg n s with
      | ok k t =>
        have := @Stepped.close cfg n s hc (by omega)
        rw [hx] at this; exact this
      | error e t =>
        have he : e.isSql := (flushed_of_eq hx).isSql
        simp only [he, ↓reduceIte, pure_apply]
        have := @Stepped.close cfg n s hc (by omega)
        rw [hx] at this; exact this
    · next h0 => exact .closeEmpty hc (by omega)

/-- **Every call ends in one of the listed ways.** -/
theorem step_spec (c : Call) (n : Natives) (s : Appender) : Stepped cfg c n s (step cfg c n s) := by
  cases c with
  | beginRow => exact beginRow_spec cfg n s
  | endRow => exact endRow_spec cfg n s
  | beginStruct => exact beginStruct_spec cfg n s
  | endStruct => exact endStruct_spec cfg n s
  | beginUnion tag => exact beginUnion_spec cfg tag n s
  | endUnion => exact endUnion_spec cfg n s
  | append a => exact append_spec cfg a n s
  | appendNull => exact appendNull_spec cfg n s
  | appendDefault => exact appendDefault_spec cfg n s
  | flush =>
    simp only [step, discard_apply]
    cases hx : flush cfg n s with
    | ok k t => exact .flush hx
    | error e t => exact .flushFailed hx
  | close => exact close_spec cfg n s

theorem flush_of_closed {n : Natives} {s : Appender} (h : s.closed = true) :
    flush cfg n s = .error (.sql .closed) s := bind_error (checkOpen_of_closed h)

/-- A closed appender stays as it is. -/
theorem step_of_closed {c : Call} {n : Natives} {s : Appender} (h : s.closed = true) :
    final (step cfg c n s) = s := by
  have hs := step_spec cfg c n s
  generalize step cfg c n s = r at hs ⊢
  cases hs with
  | refused | closeAgain => rfl
  | flush hx => rw [flush_of_closed cfg h] at hx; cases hx
  | flushFailed hx => rw [flush_of_closed cfg h] at hx; cases hx; rfl
  | beginRow hc | beginStruct hc | endStruct hc | beginUnion hc | beginUnionFailed hc | endUnion hc
  | append hc | appendFailed hc | appendNull hc | appendNullFailed hc | appendDefault hc
  | endRow hc | endRowFlushed hc | endRowFailed hc | closeEmpty hc | close hc =>
    rw [h] at hc; cases hc

end DuckDBJava
