/-
  Well-bracketed rows: a plan gives, for each call, the column it is meant for.  A plan whose
  writes are accepted passes every check of the cursor.
-/
import DuckDBJava.Appender.Cursor
import Mathlib.Data.List.Nodup

namespace DuckDBJava

open Exec PathTree

/-- A call with the column it is meant for. -/
structure Planned where
  col : Column
  call : Call
  natives : Natives

mutual

/-- The plans that supply `col`: as a whole, or opened, supplied in parts and closed. -/
inductive Bracketed : Column → List Planned → Prop
  | append {col a n} : Bracketed col [⟨col, .append a, n⟩]
  | appendNull {col n} : Bracketed col [⟨col, .appendNull, n⟩]
  | struct {col n n' plan} : col.colType = .struct → BracketedFields col 0 plan →
      Bracketed col (⟨col, .beginStruct, n⟩ :: (plan ++ [⟨col, .endStruct, n'⟩]))
  | union {col n n' names tag m field plan} : col.kind = .union names →
      unionFieldWithTag names tag = some m → col.get? m = some field → Bracketed field plan →
      Bracketed col (⟨col, .beginUnion tag, n⟩ :: (plan ++ [⟨col, .endUnion, n'⟩]))

/-- The plans that supply the fields of `col` from the `i`-th on. -/
inductive BracketedFields : Column → ℕ → List Planned → Prop
  | last {col i field plan} : col.get? i = some field → i + 1 = col.childCount →
      Bracketed field plan → BracketedFields col i plan
  | cons {col i field plan plan'} : col.get? i = some field → i + 1 < col.childCount →
      Bracketed field plan → BracketedFields col (i + 1) plan' →
      BracketedFields col i (plan ++ plan')

end

/-- The plans that supply the columns of the table from the `i`-th on. -/
inductive BracketedColumns (columns : List LogicalType) : ℕ → List Planned → Prop
  | last {i t plan} : columns[i]? = some t → i + 1 = columns.length → Bracketed (.top i t) plan →
      BracketedColumns columns i plan
  | cons {i t plan plan'} : columns[i]? = some t → i + 1 < columns.length →
      Bracketed (.top i t) plan → BracketedColumns columns (i + 1) plan' →
      BracketedColumns columns i (plan ++ plan')

/-- The calls of a plan. -/
def planCalls (plan : List Planned) : List (Call × Natives) :=
  plan.map fun x => (x.call, x.natives)

/-- The column a call is meant for accepts the value. -/
def Planned.accepted (cfg : Config) (s : Appender) (x : Planned) : Prop :=
  match x.call with
  | .append a => isOk (a.write (s.env cfg) x.col (s.chunk.sub x.col.path))
  | .appendNull => isOk (x.col.setNull s.rowIdx (s.chunk.sub x.col.path))
  | .beginUnion tag => isOk (putUnionTag x.col s.rowIdx tag (s.chunk.sub x.col.path))
  | _ => True

/-- Every value of the plan is accepted when it comes. -/
def Accepted (cfg : Config) (s : Appender) : List Planned → Prop
  | [] => True
  | x :: xs => x.accepted cfg s ∧ Accepted cfg (final (step cfg x.call x.natives s)) xs

variable {cfg : Config}

theorem planCalls_append (l l' : List Planned) :
    planCalls (l ++ l') = planCalls l ++ planCalls l' := List.map_append

theorem Accepted.append {s : Appender} {l l' : List Planned} (h : Accepted cfg s (l ++ l')) :
    Accepted cfg s l ∧ Accepted cfg (exec cfg s (planCalls l)) l' := by
  induction l generalizing s with
  | nil => exact ⟨trivial, h⟩
  | cons x l ih =>
    obtain ⟨h1, h2⟩ := ih h.2
    exact ⟨⟨h.1, h1⟩, h2⟩

/-- The calls return normally and leave `col` behind. -/
structure Completes (cfg : Config) (s : Appender) (calls : List (Call × Natives)) (col : Column) :
    Prop where
  ok : ∀ e ∈ history cfg s calls, isOk e.result
  closed : (exec cfg s calls).closed = false
  prev : (exec cfg s calls).prevColumn = some col
  cur : (exec cfg s calls).currentColumn = nextColumn cfg.columns col

theorem isOk_iff {ε σ α : Type} {r : EStateM.Result ε σ α} :
    isOk r = true ↔ ∃ a s, r = .ok a s := by
  cases r <;> simp

theorem forall_history_append {s : Appender} {l l' : List (Call × Natives)}
    (h : ∀ e ∈ history cfg s l, isOk e.result)
    (h' : ∀ e ∈ history cfg (exec cfg s l) l', isOk e.result) :
    ∀ e ∈ history cfg s (l ++ l'), isOk e.result := by
  intro e he
  rw [history_append] at he
  exact (List.mem_append.1 he).elim (h e) (h' e)

/-- A single call that supplies `col`. -/
theorem completes_one {s : Appender} {c : Call} {n : Natives} {col : Column} {v : Vec}
    (h : s.closed = false) (hx : step cfg c n s = .ok () (s.supplied cfg col v)) :
    Completes cfg s [(c, n)] col := by
  refine ⟨fun e he => ?_, ?_, ?_, ?_⟩
  · simp only [history, List.mem_singleton] at he
    rw [he, hx]; rfl
  all_goals simp only [exec, hx, final_ok, Appender.supplied, h]

/-- Open a composite, supply its parts, and close it. -/
theorem completes_nested {s t u : Appender} {b e : Call} {n n' : Natives} {col inner : Column}
    {calls : List (Call × Natives)} (hb : step cfg b n s = .ok () t)
    (hin : Completes cfg t calls inner) (hu : u = exec cfg t calls)
    (he : step cfg e n' u = .ok () { u with prevColumn := some col })
    (hnext : nextColumn cfg.columns inner = nextColumn cfg.columns col) :
    Completes cfg s ((b, n) :: (calls ++ [(e, n')])) col := by
  subst hu
  have hexec : exec cfg s ((b, n) :: (calls ++ [(e, n')])) =
      { exec cfg t calls with prevColumn := some col } := by
    rw [exec, hb, final_ok, exec_snoc, he, final_ok]
  refine ⟨fun x hx => ?_, ?_, ?_, ?_⟩
  · simp only [history, List.mem_cons, hb, final_ok] at hx
    rcases hx with rfl | hx
    · rfl
    · rw [history_snoc] at hx
      rcases List.mem_append.1 hx with hx | hx
      · exact hin.ok x hx
      · rw [List.mem_singleton.1 hx, he]; rfl
  · rw [hexec]; exact hin.closed
  · rw [hexec]
  · rw [hexec]; exact hin.cur.trans hnext

/-- After the last field of a `STRUCT` comes what comes after the `STRUCT`. -/
theorem nextColumn_last {columns : List LogicalType} {p : Column} {i : ℕ} {t : LogicalType}
    (h : i + 1 = p.childCount) : nextColumn columns (.child p i t) = nextColumn columns p := by
  rw [nextColumn]
  split
  · rfl
  · rw [Column.get?_eq_none.2 (by omega)]

theorem nextColumn_field {columns : List LogicalType} {p field : Column} {i : ℕ} {t : LogicalType}
    (hp : p.colType = .struct) (h : p.get? (i + 1) = some field) :
    nextColumn columns (.child p i t) = some field := by
  rw [nextColumn, if_neg (by simp [hp]), h]

theorem nextColumn_member {columns : List LogicalType} {p : Column} {i : ℕ} {t : LogicalType}
    (hp : p.colType = .union) : nextColumn columns (.child p i t) = nextColumn columns p := by
  rw [nextColumn, if_pos hp]

mutual

theorem bracketed_completes {col : Column} {plan : List Planned} (hb : Bracketed col plan)
    {s : Appender} (h : s.closed = false) (hc : s.currentColumn = some col)
    (hacc : Accepted cfg s plan) : Completes cfg s (planCalls plan) col :=
  match hb with
  | @Bracketed.append _ a n => by
    obtain ⟨_, v, hv⟩ := isOk_iff.1 hacc.1
    have hx : step cfg (.append a) n s =
        .ok () (s.supplied cfg col (s.chunk.setSub col.path v)) := by
      rw [step, append_apply cfg a h hc]
      simp only at hv
      rw [hv]
    exact completes_one h hx
  | @Bracketed.appendNull _ n => by
    obtain ⟨_, v, hv⟩ := isOk_iff.1 hacc.1
    have hx : step cfg .appendNull n s =
        .ok () (s.supplied cfg col (s.chunk.setSub col.path v)) := by
      rw [step, appendNull_apply cfg h hc]
      simp only at hv
      rw [hv]
    exact completes_one h hx
  | @Bracketed.struct _ n n' plan ht hf => by
    have ih := @bracketedFields_completes _ _ _ hf ht
    obtain ⟨field, hfield⟩ : ∃ field, col.get? 0 = some field := by
      cases hf with
      | last hg _ _ | cons hg _ _ _ => exact ⟨_, hg⟩
    have hx : step cfg .beginStruct n s = .ok () { s with currentColumn := some field } :=
      beginStruct_apply h hc ht hfield
    have hacc' := hacc.2
    simp only [hx, final_ok] at hacc'
    obtain ⟨j, t, hj, hin⟩ := @ih { s with currentColumn := some field } h hfield.symm
      hacc'.append.1
    have he := endStruct_apply hin.closed hin.prev ht hj
    simp only [planCalls, List.map_cons, List.map_append, List.map_nil]
    exact completes_nested hx hin rfl he (nextColumn_last hj)
  | @Bracketed.union _ n n' names tag m field plan hk hm hg hp => by
    have ih := @bracketed_completes _ _ hp
    have ht : col.colType = .union := by
      rw [Column.colType, LogicalType.colType, show col.type.kind = _ from hk]; rfl
    obtain ⟨i, v, hv⟩ := isOk_iff.1 hacc.1
    simp only at hv
    obtain ⟨names', hk', hm'⟩ := putUnionTag_eq_ok hv
    rw [hk] at hk'; cases hk'
    rw [hm] at hm'; cases hm'
    obtain ⟨t, _, rfl⟩ := Column.get?_eq hg
    have hx : step cfg (.beginUnion tag) n s = .ok () { s with
        chunk := s.chunk.setSub col.path v, currentColumn := some (.child col m t) } := by
      rw [step, beginUnion_apply tag h hc ht, hv, ← hg]
    have hacc' := hacc.2
    simp only [hx, final_ok] at hacc'
    have hin := @ih { s with
      chunk := s.chunk.setSub col.path v, currentColumn := some (.child col m t) } h rfl
      hacc'.append.1
    have he := endUnion_apply hin.closed hin.prev ht
    simp only [planCalls, List.map_cons, List.map_append, List.map_nil]
    exact completes_nested hx hin rfl he (nextColumn_member ht)

theorem bracketedFields_completes {col : Column} {i : ℕ} {plan : List Planned}
    (hb : BracketedFields col i plan) (ht : col.colType = .struct) {s : Appender}
    (h : s.closed = false) (hc : s.currentColumn = col.get? i) (hacc : Accepted cfg s plan) :
    ∃ j t, j + 1 = col.childCount ∧ Completes cfg s (planCalls plan) (.child col j t) :=
  match hb with
  | .last hg hi hp => by
    have h1 := bracketed_completes hp h (hc.trans hg) hacc
    obtain ⟨t, _, rfl⟩ := Column.get?_eq hg
    exact ⟨i, t, hi, h1⟩
  | .cons hg hi hp hf => by
    have ih := @bracketedFields_completes _ _ _ hf ht
    have h1 := bracketed_completes hp h (hc.trans hg) hacc.append.1
    obtain ⟨t, _, rfl⟩ := Column.get?_eq hg
    obtain ⟨next, hnext⟩ := Option.isSome_iff_exists.1 (Column.get?_isSome.2 hi)
    have hcur := h1.cur.trans (nextColumn_field ht hnext)
    obtain ⟨j, u, hj, h2⟩ := ih h1.closed (hcur.trans hnext.symm) hacc.append.2
    refine ⟨j, u, hj, ?_⟩
    rw [planCalls_append]
    exact ⟨forall_history_append h1.ok h2.ok, by rw [exec_append]; exact h2.closed,
      by rw [exec_append]; exact h2.prev, by rw [exec_append]; exact h2.cur⟩

end

theorem bracketedColumns_completes {i : ℕ} {plan : List Planned}
    (hb : BracketedColumns cfg.columns i plan) {s : Appender} (h : s.closed = false)
    (hc : s.currentColumn = cfg.columns[i]?.map (.top i)) (hacc : Accepted cfg s plan) :
    ∃ j t, j + 1 = cfg.columns.length ∧ Completes cfg s (planCalls plan) (.top j t) := by
  induction hb generalizing s with
  | @last i t _ ht hi hp =>
    exact ⟨i, t, hi, bracketed_completes hp h (by rw [hc, ht]; rfl) hacc⟩
  | cons ht hi hp _ ih =>
    have h1 := bracketed_completes hp h (by rw [hc, ht]; rfl) hacc.append.1
    obtain ⟨j, u, hj, h2⟩ := ih h1.closed h1.cur hacc.append.2
    refine ⟨j, u, hj, ?_⟩
    rw [planCalls_append]
    exact ⟨forall_history_append h1.ok h2.ok, by rw [exec_append]; exact h2.closed,
      by rw [exec_append]; exact h2.prev, by rw [exec_append]; exact h2.cur⟩

/-- `flush` succeeds when the native calls do. -/
theorem flush_isOk {n : Natives} {s : Appender} (hbuf : Resettable cfg s.chunk)
    (h : s.closed = false) (hr : s.readyForANewRowInvariant = true)
    (ha : n.appendDataChunk = true) (hf : n.appenderFlush = true) :
    isOk (flush cfg n s) := by
  have hs := flush_spec cfg n s
  generalize flush cfg n s = r at hs ⊢
  cases hs with
  | empty | done => rfl
  | closed h' => simp [h] at h'
  | inRow _ h' => simp [hr] at h'
  | appendFailed _ _ _ h' => simp [ha] at h'
  | flushFailed _ _ _ _ h' => simp [hf] at h'
  | resetFailed _ _ _ _ _ h' => exact absurd h' hbuf.ne_error

/-- `endRow` succeeds on a complete row when no flush fails. -/
theorem endRow_isOk {n : Natives} {s : Appender} (h : s.closed = false)
    (hr : s.rowCompletedInvariant cfg = true)
    (hf : isOk (flush cfg n { s with rowIdx := s.rowIdx + 1, prevColumn := none })) :
    isOk (endRow cfg n s) := by
  rw [endRow, checkOpen_bind h, get_bind, if_pos hr, modify_bind]
  split
  · rw [catchWith_apply, discard_apply]
    obtain ⟨_, t, ht⟩ := isOk_iff.1 hf
    simp only [ht]; rfl
  · rfl

/-- **A well-bracketed row of accepted values passes every check, and its `endRow` succeeds when
    no flush fails.** -/
theorem bracketedRow_isOk {s : Appender} {plan : List Planned} {n n' : Natives}
    (h : s.closed = false) (hc : s.currentColumn = none) (hp : s.prevColumn = none)
    (hb : BracketedColumns cfg.columns 0 plan)
    (hacc : Accepted cfg (final (step cfg .beginRow n s)) plan)
    (hflush : let t := exec cfg (final (step cfg .beginRow n s)) (planCalls plan)
      isOk (flush cfg n' { t with rowIdx := t.rowIdx + 1, prevColumn := none })) :
    ∀ e ∈ history cfg s ((.beginRow, n) :: (planCalls plan ++ [(.endRow, n')])), isOk e.result := by
  obtain ⟨t, ts, hcols⟩ := List.exists_cons_of_ne_nil cfg.tableType.ne
  have hx : step cfg .beginRow n s = .ok () { s with currentColumn := some (.top 0 t) } :=
    beginRow_apply cfg h hc hp hcols
  rw [hx, final_ok] at hacc hflush
  have hcur : ({ s with currentColumn := some (.top 0 t) } : Appender).currentColumn =
      cfg.columns[0]?.map (.top 0) := by simp [hcols]
  obtain ⟨j, u, hj, hdone⟩ := @bracketedColumns_completes cfg 0 plan hb
    { s with currentColumn := some (.top 0 t) } h hcur hacc
  have hend : isOk (step cfg .endRow n'
      (exec cfg { s with currentColumn := some (.top 0 t) } (planCalls plan))) := by
    refine endRow_isOk hdone.closed ?_ hflush
    rw [Appender.rowCompletedInvariant, hdone.prev, hdone.cur, nextColumn,
      List.getElem?_eq_none (by omega)]
    simp [Column.idx, hj]
  intro e he
  simp only [history, List.mem_cons, hx, final_ok] at he
  rcases he with rfl | he
  · rfl
  · rw [history_snoc] at he
    rcases List.mem_append.1 he with he | he
    · exact hdone.ok e he
    · rw [List.mem_singleton.1 he]; exact hend

/-! ## A column is supplied at most once -/

/-- The column of an event. -/
def Event.col : Event → Column
  | whole col | beginStruct col | beginUnion col _ => col

/-- Different children of a column have nothing below them in common. -/
theorem child_eq_of_suffix {i j : ℕ} {p q : List ℕ} (hi : i :: p <:+ q) (hj : j :: p <:+ q) :
    i = j :=
  (List.cons.inj ((List.suffix_of_suffix_length_le hi hj (by simp)).eq_of_length (by simp))).1

theorem not_cons_suffix (i : ℕ) (p : List ℕ) : ¬ i :: p <:+ p := fun h => by
  have := h.length_le
  simp only [List.length_cons] at this
  omega

/-- The events of the child `i` after those of the children before it. -/
theorem nodup_below_succ {p : List ℕ} {i : ℕ} {log log' : List Event}
    (h : (∀ e ∈ log, ∃ j < i, j :: p <:+ e.col.path) ∧ (log.map Event.col).Nodup)
    (h' : (∀ e ∈ log', i :: p <:+ e.col.path) ∧ (log'.map Event.col).Nodup) :
    (∀ e ∈ log ++ log', ∃ j < i + 1, j :: p <:+ e.col.path) ∧
      ((log ++ log').map Event.col).Nodup := by
  refine ⟨fun e he => ?_, ?_⟩
  · rcases List.mem_append.1 he with he | he
    · obtain ⟨j, hj, hs⟩ := h.1 e he
      exact ⟨j, by omega, hs⟩
    · exact ⟨i, Nat.lt_succ_self _, h'.1 e he⟩
  · rw [List.map_append]
    refine List.Nodup.append h.2 h'.2 fun c hc hc' => ?_
    obtain ⟨e, he, rfl⟩ := List.mem_map.1 hc
    obtain ⟨e', he', heq⟩ := List.mem_map.1 hc'
    obtain ⟨j, hj, hs⟩ := h.1 e he
    have := child_eq_of_suffix hs (heq ▸ h'.1 e' he')
    omega

mutual

theorem Supplied.nodup {col : Column} {log : List Event} (h : Supplied col log) :
    (∀ e ∈ log, col.path <:+ e.col.path) ∧ (log.map Event.col).Nodup :=
  match h with
  | .whole => by simp [Event.col]
  | .struct _ hl => by
    obtain ⟨h1, h2⟩ := FieldsTo.nodup hl
    refine ⟨fun e he => ?_, ?_⟩
    · rcases List.mem_cons.1 he with rfl | he
      · exact List.suffix_refl _
      · obtain ⟨j, _, hj⟩ := h1 e he
        exact (List.suffix_cons j _).trans hj
    · refine List.nodup_cons.2 ⟨fun hm => ?_, h2⟩
      obtain ⟨e, he, hc⟩ := List.mem_map.1 hm
      obtain ⟨j, _, hj⟩ := h1 e he
      rw [hc] at hj
      exact not_cons_suffix _ _ hj
  | .union _ _ hg hl => by
    obtain ⟨h1, h2⟩ := Supplied.nodup hl
    obtain ⟨t, _, rfl⟩ := Column.get?_eq hg
    refine ⟨fun e he => ?_, ?_⟩
    · rcases List.mem_cons.1 he with rfl | he
      · exact List.suffix_refl _
      · exact (List.suffix_cons _ _).trans (h1 e he)
    · refine List.nodup_cons.2 ⟨fun hm => ?_, h2⟩
      obtain ⟨e, he, hc⟩ := List.mem_map.1 hm
      have := h1 e he
      rw [hc] at this
      exact not_cons_suffix _ _ this

theorem FieldsTo.nodup {col : Column} {i : ℕ} {log : List Event} (h : FieldsTo col i log) :
    (∀ e ∈ log, ∃ j < i, j :: col.path <:+ e.col.path) ∧ (log.map Event.col).Nodup :=
  match h with
  | .zero => by simp
  | .succ hl hg hs => by
    have h1 := FieldsTo.nodup hl
    have h2 := Supplied.nodup hs
    obtain ⟨t, _, rfl⟩ := Column.get?_eq hg
    exact nodup_below_succ h1 h2

end

theorem ColumnsTo.nodup {columns : List LogicalType} {i : ℕ} {log : List Event}
    (h : ColumnsTo columns i log) :
    (∀ e ∈ log, ∃ j < i, [j] <:+ e.col.path) ∧ (log.map Event.col).Nodup := by
  induction h with
  | zero => simp
  | succ _ _ hs ih => exact nodup_below_succ ih hs.nodup

/-! ## The theorem -/

/-- The cursor of a new appender. -/
theorem create_cursor {s₀ : Appender} (h : create cfg = .ok s₀) :
    s₀.currentColumn = none ∧ s₀.prevColumn = none := by
  obtain ⟨-, chunk, -, rfl⟩ := create_eq_ok.1 h
  exact ⟨rfl, rfl⟩

theorem cursorInv_history {s₀ : Appender} (h : create cfg = .ok s₀)
    (calls : List (Call × Natives)) :
    CursorInv cfg (exec cfg s₀ calls) (rowLog (history cfg s₀ calls)) := by
  induction calls using List.reverseRecOn with
  | nil =>
    obtain ⟨hc, hp⟩ := create_cursor h
    exact ⟨by simp [exec, hc], by simp [exec, hp], by simp [exec, hp]⟩
  | append_singleton calls c ih =>
    obtain ⟨c, n⟩ := c
    rw [exec_snoc, history_snoc, rowLog_snoc]
    exact ih.step c n

/-- **Row completeness.**  When `endRow` returns normally, the calls since `beginRow` have supplied
    every column, and every part of the composites that were opened, once and in order.  From any
    state between two rows, a well-bracketed row of accepted values passes every check and its
    `endRow` succeeds when no flush fails. -/
theorem row_completeness {s₀ : Appender} (h₀ : create cfg = .ok s₀)
    (calls : List (Call × Natives)) :
    let s := exec cfg s₀ calls
    (∀ n, isOk (step cfg .endRow n s) →
      RowSupplied cfg.columns (rowLog (history cfg s₀ calls)) ∧
        ((rowLog (history cfg s₀ calls)).map Event.col).Nodup) ∧
    (s.closed = false → s.currentColumn = none → s.prevColumn = none →
      ∀ plan n n', BracketedColumns cfg.columns 0 plan →
        let t := final (step cfg .beginRow n s)
        let u := exec cfg t (planCalls plan)
        Accepted cfg t plan →
        isOk (flush cfg n' { u with rowIdx := u.rowIdx + 1, prevColumn := none }) →
        ∀ e ∈ history cfg s ((.beginRow, n) :: (planCalls plan ++ [(.endRow, n')])),
          isOk e.result) := by
  refine ⟨fun n hok => ?_, fun hcl hc hp plan n n' hb hacc hflush =>
    bracketedRow_isOk hcl hc hp hb hacc hflush⟩
  have hinv := cursorInv_history h₀ calls
  obtain ⟨_, t, ht⟩ := isOk_iff.1 hok
  have hs := step_spec cfg .endRow n (exec cfg s₀ calls)
  rw [ht] at hs
  cases hs with
  | endRow _ hr _ | endRowFlushed _ hr _ _ =>
    obtain ⟨hc, p, hp, _⟩ := rowCompletedInvariant_eq hr
    have hrow := hinv.done hc (by simp [hp])
    exact ⟨hrow, hrow.nodup.2⟩

/-- A table with one column `STRUCT(a INTEGER)`. -/
def structTable : TableType :=
  .single (.node (.struct ["a"]) [.integer]) (.node ⟨by simp, rfl⟩ fun _ h =>
    List.mem_singleton.1 h ▸ LogicalType.integer_wf)

/-- A row of it, field by field. -/
def structRow : List (Call × Natives) :=
  [.beginRow, .beginStruct, .append (.int 1), .endStruct, .endRow].map (·, .success)

theorem row_completeness_structRow :
    let h := history (.plain structTable) (Config.plain structTable).start (structRow.take 4)
    RowSupplied structTable.columns (rowLog h) ∧ ((rowLog h).map Event.col).Nodup :=
  (@row_completeness (.plain structTable) _ (create_eq_start (by decide)) (structRow.take 4)).1
    .success (by decide)

end DuckDBJava
