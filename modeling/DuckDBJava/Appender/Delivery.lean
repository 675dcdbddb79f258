/-
  The way of the rows to the table.

  `flush` appends the chunk to the native appender and then flushes that.  Where the second step
  fails, the rows are both in the native buffer and in the chunk: appending the chunk again
  duplicates them.  `close` gives up the rows of the chunk when a row is in progress.
-/
import DuckDBJava.Appender.Rows

namespace DuckDBJava

open Exec

variable {cfg : Config}

@[simp] theorem chunkRows_ids (s : Appender) :
    (chunkRows cfg s).map Row.id = (List.range s.rowIdx).map fun k => (s.generation, k) := by
  simp [chunkRows, Function.comp_def, Row.id]

/-! ## At most once -/

/-- The chunk is not appended to a native buffer that still holds rows. -/
def HandedOverOnce (cfg : Config) (e : Entry) : Prop :=
  handsOver cfg e.call e.before → e.natives.appendDataChunk → e.before.nativeBuffer = []

instance (cfg : Config) (e : Entry) : Decidable (HandedOverOnce cfg e) :=
  inferInstanceAs (Decidable (handsOver cfg e.call e.before → e.natives.appendDataChunk → _ = []))

/-- No row is twice in the table and the native buffer; the rows in the table of an open appender
    are from chunks before the present one. -/
structure Distinct (s : Appender) : Prop where
  nodup : ((s.table ++ s.nativeBuffer).map Row.id).Nodup
  old : s.closed = false → ∀ r ∈ s.table, r.generation < s.generation

theorem Distinct.congr {s t : Appender} (h : Distinct s) (ht : t.table = s.table)
    (hn : t.nativeBuffer = s.nativeBuffer) (hg : t.generation = s.generation)
    (hc : t.closed = s.closed) : Distinct t :=
  ⟨by rw [ht, hn]; exact h.nodup, by rw [ht, hg, hc]; exact h.old⟩

/-- The rows of the chunk join the table and the empty native buffer. -/
theorem Distinct.chunk_nodup {s : Appender} (h : Distinct s) (hc : s.closed = false)
    (hn : s.nativeBuffer = []) : ((s.table ++ chunkRows cfg s).map Row.id).Nodup := by
  have h1 := h.nodup
  rw [hn, List.append_nil] at h1
  rw [List.map_append, chunkRows_ids]
  refine List.Nodup.append h1 ?_ fun x hx hx' => ?_
  · exact List.Nodup.map (fun a b hab => (Prod.mk.inj hab).2) List.nodup_range
  · obtain ⟨r, hr, rfl⟩ := List.mem_map.1 hx
    obtain ⟨k, _, hk⟩ := List.mem_map.1 hx'
    have := h.old hc r hr
    have := congrArg Prod.fst hk
    simp only [Row.id] at this
    omega

theorem Distinct.flush {n : Natives} {s : Appender} {r : EStateM.Result Exn Appender ℕ}
    (h : Distinct s) (hbuf : Resettable cfg s.chunk) (hf : Flushed cfg n s r)
    (hn : s.readyForANewRowInvariant = true → s.rowIdx ≠ 0 → n.appendDataChunk = true →
      s.nativeBuffer = []) : Distinct (final r) := by
  cases hf with
  | closed | inRow | empty | appendFailed => exact h
  | flushFailed hc hr h0 ha =>
    have hn := hn hr h0 ha
    refine ⟨?_, fun _ => h.old hc⟩
    simp only [final_error, Appender.handOver, hn, List.nil_append]
    exact h.chunk_nodup hc hn
  | resetFailed _ _ _ _ _ hx => exact absurd hx hbuf.ne_error
  | done hc hr h0 ha =>
    have hn := hn hr h0 ha
    refine ⟨?_, fun _ r hr => ?_⟩
    · simp only [final_ok, Appender.flushed, hn, List.nil_append, List.append_nil]
      exact h.chunk_nodup hc hn
    · simp only [final_ok, Appender.flushed, hn, List.nil_append] at hr ⊢
      rcases List.mem_append.1 hr with hr | hr
      · have := h.old hc r hr; omega
      · obtain ⟨k, _, rfl⟩ := List.mem_map.1 hr
        exact Nat.lt_succ_self _

theorem Distinct.nativeFlush {b : Bool} {s : Appender}
    (h : ((s.table ++ s.nativeBuffer).map Row.id).Nodup) :
    (((final (nativeFlush b s)).table ++
      (final (nativeFlush b s)).nativeBuffer).map Row.id).Nodup := by
  cases b
  · exact h
  · simpa [DuckDBJava.nativeFlush] using h

theorem Distinct.closing {n : Natives} {s : Appender} (h : Distinct s) : Distinct (s.closing n) :=
  ⟨Distinct.nativeFlush (Distinct.nativeFlush h.nodup), fun hc => by cases hc⟩

theorem Distinct.step {s : Appender} (h : Distinct s) (hbuf : Resettable cfg s.chunk) {c : Call}
    {n : Natives} (hd : HandedOverOnce cfg ⟨s, c, n, step cfg c n s⟩) :
    Distinct (final (step cfg c n s)) := by
  cases hcl : s.closed with
  | true => rw [step_of_closed cfg hcl]; exact h
  | false =>
    have hs := step_spec cfg c n s
    generalize DuckDBJava.step cfg c n s = r at hs hd ⊢
    have h' : Distinct { s with rowIdx := s.rowIdx + 1, prevColumn := none } :=
      h.congr rfl rfl rfl rfl
    cases hs with
    | refused | closeAgain => exact h
    | beginRow | beginStruct | endStruct | beginUnion | beginUnionFailed | endUnion | append
    | appendFailed | appendNull | appendNullFailed | appendDefault | endRow =>
      exact h.congr rfl rfl rfl rfl
    | endRowFlushed _ hr hv hx =>
      exact h'.flush hbuf (flushed_of_eq hx) fun _ _ ha => hd (by simp [handsOver, hcl, hr, hv]) ha
    | endRowFailed _ hr hv hx =>
      have := h'.flush hbuf (flushed_of_eq hx) fun _ _ ha =>
        hd (by simp [handsOver, hcl, hr, hv]) ha
      exact this.congr rfl rfl rfl rfl
    | flush hx | flushFailed hx =>
      exact h.flush hbuf (flushed_of_eq hx) fun hr h0 ha =>
        hd (by simp [handsOver, hcl, hr, h0]) ha
    | closeEmpty => exact h.closing
    | close =>
      exact (h.flush hbuf (flush_spec cfg n s) fun hr h0 ha =>
        hd (by simp [handsOver, hcl, hr, h0]) ha).closing

theorem create_empty {s₀ : Appender} (h : create cfg = .ok s₀) :
    s₀.table = [] ∧ s₀.nativeBuffer = [] ∧ s₀.rowIdx = 0 ∧ s₀.closed = false := by
  obtain ⟨-, chunk, -, rfl⟩ := create_eq_ok.1 h
  exact ⟨rfl, rfl, rfl, rfl⟩

theorem distinct_exec {s : Appender} (h : Distinct s) : ∀ {calls : List (Call × Natives)},
    (∀ e ∈ history cfg s calls, Resettable cfg e.before.chunk ∧ HandedOverOnce cfg e) →
      Distinct (exec cfg s calls) := by
  intro calls
  induction calls generalizing s with
  | nil => exact fun _ => h
  | cons c calls ih =>
    intro hd
    obtain ⟨hbuf, hone⟩ := hd _ List.mem_cons_self
    exact ih (h.step hbuf hone) fun e he => hd e (List.mem_cons_of_mem _ he)

/-- **At most once**, in the runs that never append the chunk to a native buffer with rows and
    in which the chunk can be reset. -/
theorem delivered_at_most_once {s₀ : Appender} (h₀ : create cfg = .ok s₀)
    {calls : List (Call × Natives)}
    (hd : ∀ e ∈ history cfg s₀ calls, Resettable cfg e.before.chunk ∧ HandedOverOnce cfg e) :
    ((exec cfg s₀ calls).table.map Row.id).Nodup := by
  obtain ⟨ht, hn, _⟩ := create_empty h₀
  have h : Distinct s₀ := ⟨by simp [ht, hn], by simp [ht]⟩
  have := (distinct_exec h hd).nodup
  rw [List.map_append] at this
  exact this.of_append_left

/-- A table with one column `INTEGER`. -/
def integerTable : TableType := .single .integer LogicalType.integer_wf

/-- One row of it. -/
def integerRow : List (Call × Natives) :=
  [.beginRow, .append (.int 7), .endRow].map (·, .success)

theorem delivered_at_most_once_integerRow :
    ((exec (.plain integerTable) (Config.plain integerTable).start
      (integerRow ++ [(.flush, .success)])).table.map Row.id).Nodup :=
  delivered_at_most_once (create_eq_start (by decide)) (by decide)

/-- `duckdb_appender_flush` fails, and `flush` is called again: the row is in the table twice. -/
theorem flush_retried : ¬ ∀ (cfg : Config) (s₀ : Appender), create cfg = .ok s₀ →
    ∀ calls : List (Call × Natives), (∀ e ∈ history cfg s₀ calls, Resettable cfg e.before.chunk) →
      ((exec cfg s₀ calls).table.map Row.id).Nodup := by
  intro h
  have := h (.plain integerTable) _ (create_eq_start (by decide))
    (integerRow ++ [(.flush, ⟨true, false, true, true⟩), (.flush, .success)]) (by decide)
  revert this
  decide

/-! ## No loss on close -/

/-- The rows whose `endRow` returned normally, in order. -/
def endedRows (h : List Entry) : List (ℕ × ℕ) :=
  h.filterMap fun e =>
    match e.call, isOk e.result with
    | .endRow, true => some (e.before.generation, e.before.rowIdx)
    | _, _ => none

theorem endedRows_snoc (h : List Entry) (e : Entry) :
    endedRows (h ++ [e]) = endedRows h ++ endedRows [e] := by
  simp [endedRows]

/-- The ended rows are those of the table and then those of the chunk. -/
structure Kept (s : Appender) (ended : List (ℕ × ℕ)) : Prop where
  native : s.nativeBuffer = []
  rows : ended = s.table.map Row.id ++ (List.range s.rowIdx).map fun k => (s.generation, k)

theorem Kept.congr {s t : Appender} {ended : List (ℕ × ℕ)} (h : Kept s ended)
    (ht : t.table = s.table) (hn : t.nativeBuffer = s.nativeBuffer)
    (hg : t.generation = s.generation) (hr : t.rowIdx = s.rowIdx) : Kept t ended :=
  ⟨by rw [hn]; exact h.native, by rw [ht, hg, hr]; exact h.rows⟩

theorem Kept.flush {s : Appender} {ended : List (ℕ × ℕ)} {r : EStateM.Result Exn Appender ℕ}
    (h : Kept s ended) (hbuf : Resettable cfg s.chunk) (hf : Flushed cfg .success s r) :
    Kept (final r) ended := by
  cases hf with
  | closed | inRow | empty => exact h
  | appendFailed _ _ _ h' => cases h'
  | flushFailed _ _ _ _ h' => cases h'
  | resetFailed _ _ _ _ _ hx => exact absurd hx hbuf.ne_error
  | done =>
    refine ⟨rfl, ?_⟩
    simp only [final_ok, Appender.flushed, h.native, List.nil_append, List.map_append,
      chunkRows_ids, List.range_zero, List.map_nil, List.append_nil]
    exact h.rows

/-- The row that ends. -/
theorem Kept.snoc {s : Appender} {ended : List (ℕ × ℕ)} (h : Kept s ended) :
    Kept { s with rowIdx := s.rowIdx + 1, prevColumn := none }
      (ended ++ [(s.generation, s.rowIdx)]) :=
  ⟨h.native, by simp [h.rows, List.range_succ]⟩

/-- One call of an appender that stays open keeps all ended rows. -/
theorem Kept.step {s : Appender} {h : List Entry} (hbuf : Resettable cfg s.chunk)
    (hk : Kept s (endedRows h)) {c : Call}
    (hopen : (final (step cfg c .success s)).closed = false) :
    Kept (final (step cfg c .success s))
      (endedRows h ++ endedRows [⟨s, c, .success, step cfg c .success s⟩]) := by
  have hs := step_spec cfg c .success s
  generalize DuckDBJava.step cfg c .success s = r at hs hopen ⊢
  cases hs with
  | refused => simpa [endedRows] using hk
  | beginRow | beginStruct | endStruct | beginUnion | beginUnionFailed | endUnion | append
  | appendFailed | appendNull | appendNullFailed | appendDefault =>
    change Kept _ (endedRows h ++ [])
    rw [List.append_nil]
    exact hk.congr rfl rfl rfl rfl
  | endRow => exact hk.snoc
  | endRowFlushed _ _ _ hx => exact hk.snoc.flush hbuf (flushed_of_eq hx)
  | endRowFailed hc hr hv hx =>
    obtain ⟨hcur, _⟩ := rowCompletedInvariant_eq hr
    have hok : isOk (DuckDBJava.flush cfg .success { s with
        rowIdx := s.rowIdx + 1, prevColumn := none }) :=
      flush_isOk hbuf hc (by simp [Appender.readyForANewRowInvariant, hcur]) rfl rfl
    rw [hx] at hok; cases hok
  | flush hx | flushFailed hx => simpa [endedRows] using hk.flush hbuf (flushed_of_eq hx)
  | closeAgain => simpa [endedRows] using hk
  | closeEmpty | close => cases hopen

theorem kept_exec {s₀ : Appender} (h₀ : create cfg = .ok s₀) {calls : List Call}
    (hbuf : ∀ e ∈ history cfg s₀ (calls.map (·, .success)), Resettable cfg e.before.chunk)
    (hopen : (exec cfg s₀ (calls.map (·, .success))).closed = false) :
    Kept (exec cfg s₀ (calls.map (·, .success)))
      (endedRows (history cfg s₀ (calls.map (·, .success)))) := by
  induction calls using List.reverseRecOn with
  | nil =>
    obtain ⟨ht, hn, hr, _⟩ := create_empty h₀
    exact ⟨hn, by simp [exec, history, endedRows, ht, hr]⟩
  | append_singleton calls c ih =>
    rw [List.map_append, List.map_singleton, exec_snoc] at hopen ⊢
    rw [List.map_append, List.map_singleton, history_snoc] at hbuf
    rw [history_snoc, endedRows_snoc]
    have hlast := hbuf _ (List.mem_append_right _ (List.mem_singleton.2 rfl))
    refine Kept.step hlast (ih (fun e he => hbuf e (List.mem_append_left _ he)) ?_) hopen
    cases hcl : (exec cfg s₀ (calls.map (·, .success))).closed with
    | false => rfl
    | true => rw [step_of_closed cfg hcl, hcl] at hopen; exact hopen

theorem Kept.closing {s : Appender} {ended : List (ℕ × ℕ)} (h : Kept s ended) :
    (s.closing .success).table = s.table := by
  simp [Appender.closing, nativeFlush, Natives.success, h.native]

end DuckDBJava
