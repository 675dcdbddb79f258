/-
  Row completeness: what has been supplied when `endRow` returns, and that every well-bracketed
  row passes the checks of the cursor.

  The events of a row are the successful calls since `beginRow` that supply a column or open a
  composite.  `Before columns col log`: the log supplies everything that comes before `col` in
  declaration order and has opened the composites around `col`.  A call that supplies the
  current column takes it to `nextColumn` with everything before that supplied (`before_next`),
  and to the end of the row when there is no next column.
-/
import DuckDBJava.Appender.Steps

namespace DuckDBJava

open Exec PathTree

/-- A successful call that supplies a column or opens it. -/
inductive Event where
  /-- `append`, `appendNull` or `appendDefault` -/
  | whole (col : Column)
  | beginStruct (col : Column)
  /-- `member` is the number of the selected child -/
  | beginUnion (col : Column) (member : ℕ)

mutual

/-- The events that supply `col`, in order. -/
inductive Supplied : Column → List Event → Prop
  | whole {col} : Supplied col [.whole col]
  | struct {col log} : col.colType = .struct → FieldsTo col col.childCount log →
      Supplied col (.beginStruct col :: log)
  | union {col m field log} : col.colType = .union → 0 < m → col.get? m = some field →
      Supplied field log → Supplied col (.beginUnion col m :: log)

/-- The events that supply the first `i` fields of `col`, in order. -/
inductive FieldsTo : Column → ℕ → List Event → Prop
  | zero {col} : FieldsTo col 0 []
  | succ {col i field log log'} : FieldsTo col i log → col.get? i = some field →
      Supplied field log' → FieldsTo col (i + 1) (log ++ log')

end

/-- The events that supply the first `i` columns of the table, in order. -/
inductive ColumnsTo (columns : List LogicalType) : ℕ → List Event → Prop
  | zero : ColumnsTo columns 0 []
  | succ {i t log log'} : ColumnsTo columns i log → columns[i]? = some t →
      Supplied (.top i t) log' → ColumnsTo columns (i + 1) (log ++ log')

/-- The events that supply all columns of the table, in order. -/
def RowSupplied (columns : List LogicalType) (log : List Event) : Prop :=
  ColumnsTo columns columns.length log

/-- The events of an unfinished composite before its child `i`. -/
inductive Opened (p : Column) (i : ℕ) : List Event → Prop
  | struct {log} : p.colType = .struct → FieldsTo p i log → Opened p i (.beginStruct p :: log)
  | union : p.colType = .union → 0 < i → Opened p i [.beginUnion p i]

/-- The events of a row before `col`. -/
def Before (columns : List LogicalType) : Column → List Event → Prop
  | .top i _, log => ColumnsTo columns i log
  | .child p i _, log => ∃ l l', log = l ++ l' ∧ Before columns p l ∧ Opened p i l'

/-! ## Columns of the table -/

theorem Column.get?_eq {c d : Column} {i : ℕ} (h : c.get? i = some d) :
    ∃ t, c.type.children[i]? = some t ∧ d = .child c i t := by
  simp only [get?, Option.map_eq_some_iff] at h
  obtain ⟨t, ht, rfl⟩ := h
  exact ⟨t, ht, rfl⟩

theorem Column.In.get? {columns : List LogicalType} {c d : Column} {i : ℕ} (hc : c.In columns)
    (h : c.get? i = some d) : d.In columns := by
  obtain ⟨t, ht, rfl⟩ := Column.get?_eq h
  exact ⟨hc, ht⟩

theorem Column.In.parent {columns : List LogicalType} {p : Column} {i : ℕ} {t : LogicalType}
    (h : (Column.child p i t).In columns) : p.In columns := h.1

/-- A child of the table is the child its parent has at that place. -/
theorem Column.In.get?_parent {columns : List LogicalType} {p : Column} {i : ℕ} {t : LogicalType}
    (h : (Column.child p i t).In columns) : p.get? i = some (.child p i t) := by
  simp only [Column.get?, h.2, Option.map_some]

theorem Column.In.type_wf {columns : List LogicalType} (hw : ∀ t ∈ columns, t.Wf) :
    ∀ {c : Column}, c.In columns → c.type.Wf
  | .top _ _, h => hw _ (List.mem_of_getElem? h)
  | .child _ _ _, h => (h.1.type_wf hw).child (List.mem_of_getElem? h.2)

theorem Column.get?_isSome {c : Column} {i : ℕ} : (c.get? i).isSome ↔ i < c.childCount := by
  simp [get?, childCount]

theorem Column.get?_eq_none {c : Column} {i : ℕ} : c.get? i = none ↔ c.childCount ≤ i := by
  simp [get?, childCount]

/-- The next column is a column of the table. -/
theorem nextColumn_in {columns : List LogicalType} : ∀ {c d : Column}, c.In columns →
    nextColumn columns c = some d → d.In columns
  | .top i t, d, _, h => by
    simp only [nextColumn, Option.map_eq_some_iff] at h
    obtain ⟨u, hu, rfl⟩ := h
    exact hu
  | .child p i t, d, hc, h => by
    rw [nextColumn] at h
    split at h
    · exact nextColumn_in hc.1 h
    · split at h
      · next hg => cases h; exact hc.1.get? hg
      · exact nextColumn_in hc.1 h

/-! ## Supplying the current column -/

/-- After a composite has been supplied in parts, it has been supplied. -/
theorem Opened.supplied {p : Column} {i : ℕ} {field : Column} {l l' : List Event}
    (h : Opened p i l) (hf : p.get? i = some field) (hs : Supplied field l')
    (hlast : p.colType = .struct → i + 1 = p.childCount) : Supplied p (l ++ l') := by
  cases h with
  | struct ht hl => exact .struct ht (hlast ht ▸ .succ hl hf hs)
  | union ht hi => exact .union ht hi hf hs

/-- A supplied column leads to the next one, or to the end of the row. -/
theorem before_next {columns : List LogicalType} : ∀ {c : Column} {l l' : List Event},
    c.In columns → Before columns c l → Supplied c l' →
    match nextColumn columns c with
    | some d => Before columns d (l ++ l')
    | none => RowSupplied columns (l ++ l')
  | .top i t, l, l', hc, hb, hs => by
    have h : ColumnsTo columns (i + 1) (l ++ l') := .succ hb hc hs
    rw [nextColumn]
    cases hu : columns[i + 1]? with
    | some u => exact h
    | none =>
      have hi : i < columns.length := (List.getElem?_eq_some_iff.1 hc).1
      have hle : columns.length ≤ i + 1 := List.getElem?_eq_none_iff.1 hu
      have : columns.length = i + 1 := by omega
      simp only [Option.map_none, RowSupplied, this]
      exact h
  | .child p i t, l, l', hc, hb, hs => by
    obtain ⟨lp, lo, rfl, hp, ho⟩ := hb
    by_cases hu : p.colType = .union
    · have := before_next hc.1 hp (ho.supplied hc.get?_parent hs (by simp [hu]))
      rw [nextColumn, if_pos hu]
      rwa [← List.append_assoc] at this
    · rw [nextColumn, if_neg hu]
      cases hg : p.get? (i + 1) with
      | some d =>
        obtain ⟨u, _, rfl⟩ := Column.get?_eq hg
        cases ho with
        | struct ht hl =>
          exact ⟨lp, _, by simp, hp, .struct ht (.succ hl hc.get?_parent hs)⟩
        | union ht => exact absurd ht hu
      | none =>
        have hlast : i + 1 = p.childCount := by
          have h1 := Column.get?_eq_none.1 hg
          have h2 := Column.get?_isSome.1 (Option.isSome_of_eq_some hc.get?_parent)
          omega
        have := before_next hc.1 hp (ho.supplied hc.get?_parent hs fun _ => hlast)
        rwa [← List.append_assoc] at this

/-! ## The events of a run -/

/-- The event of a call that returns normally. -/
def Entry.event (e : Entry) : Option Event :=
  match e.call, e.before.currentColumn with
  | .append _, some col | .appendNull, some col | .appendDefault, some col => some (.whole col)
  | .beginStruct, some col => some (.beginStruct col)
  | .beginUnion _, some col =>
    (final e.result).currentColumn.map fun field => .beginUnion col field.idx
  | _, _ => none

/-- The log of the row after a call: `beginRow` starts a new one. -/
def Entry.extend (e : Entry) (log : List Event) : List Event :=
  if isOk e.result then
    match e.call with
    | .beginRow => []
    | _ => log ++ e.event.toList
  else log

/-- The events since the last `beginRow` that returned normally. -/
def rowLog (h : List Entry) : List Event := h.foldl (fun log e => e.extend log) []

theorem rowLog_snoc (h : List Entry) (e : Entry) : rowLog (h ++ [e]) = e.extend (rowLog h) := by
  simp [rowLog]

/-- What holds of the cursor and the log of the row. -/
structure CursorInv (cfg : Config) (s : Appender) (log : List Event) : Prop where
  cur : ∀ c, s.currentColumn = some c → c.In cfg.columns ∧ Before cfg.columns c log
  prev : ∀ p, s.prevColumn = some p → p.In cfg.columns
  done : s.currentColumn = none → s.prevColumn ≠ none → RowSupplied cfg.columns log

variable {cfg : Config}

/-- The cursor is all the invariant looks at. -/
theorem CursorInv.congr {s t : Appender} {log : List Event} (h : CursorInv cfg s log)
    (hc : t.currentColumn = s.currentColumn) (hp : t.prevColumn = s.prevColumn) :
    CursorInv cfg t log :=
  ⟨by rw [hc]; exact h.cur, by rw [hp]; exact h.prev, by rw [hc, hp]; exact h.done⟩

theorem CursorInv.supplied {s : Appender} {log : List Event} {col : Column} (v : Vec)
    (h : CursorInv cfg s log) (hc : s.currentColumn = some col) :
    CursorInv cfg (s.supplied cfg col v) (log ++ [.whole col]) := by
  obtain ⟨hin, hb⟩ := h.cur col hc
  have hn := before_next hin hb .whole
  refine ⟨fun c h => ?_, fun p h => ?_, fun h _ => ?_⟩
  · simp only [Appender.supplied] at h
    rw [h] at hn
    exact ⟨nextColumn_in hin h, hn⟩
  · simp only [Appender.supplied, Option.some.injEq] at h; exact h ▸ hin
  · simp only [Appender.supplied] at h
    rwa [h] at hn

/-- The member `putUnionTag` selects. -/
theorem putUnionTag_eq_ok {col : Column} {k m : ℕ} {tag : String} {v v' : Vec}
    (h : putUnionTag col k tag v = .ok m v') :
    ∃ names, col.kind = .union names ∧ unionFieldWithTag names tag = some m := by
  cases hk : col.kind with
  | union names =>
    simp only [putUnionTag, hk] at h
    cases hi : unionFieldWithTag names tag with
    | none => rw [hi] at h; cases h
    | some i =>
      rw [hi] at h
      obtain ⟨_, _, _, h⟩ := bind_eq_ok.1 h
      obtain ⟨_, _, _, h⟩ := bind_eq_ok.1 h
      cases h
      exact ⟨names, rfl, hi⟩
  | _ => simp only [putUnionTag, hk] at h; cases h

theorem unionFieldWithTag_eq_some {names : List String} {tag : String} {m : ℕ}
    (h : unionFieldWithTag names tag = some m) : 0 < m ∧ names[m]? = some tag := by
  unfold unionFieldWithTag at h
  simpa using List.find?_some h

/-- The selected member is a child after the tag. -/
theorem putUnionTag_member {columns : List LogicalType} (hw : ∀ t ∈ columns, t.Wf) {col : Column}
    (hin : col.In columns) {k m : ℕ} {tag : String} {v v' : Vec}
    (h : putUnionTag col k tag v = .ok m v') : 0 < m ∧ ∃ t, col.get? m = some (.child col m t) := by
  obtain ⟨names, hk, hm⟩ := putUnionTag_eq_ok h
  obtain ⟨h0, hm⟩ := unionFieldWithTag_eq_some hm
  have hs := (hin.type_wf hw).shape
  rw [show col.type.kind = .union names from hk] at hs
  have hlt : m < col.childCount := by
    have := (List.getElem?_eq_some_iff.1 hm).1
    rwa [hs.2] at this
  obtain ⟨d, hd⟩ := Option.isSome_iff_exists.1 (Column.get?_isSome.2 hlt)
  obtain ⟨t, _, rfl⟩ := Column.get?_eq hd
  exact ⟨h0, t, hd⟩

/-- `flush` does not move the cursor. -/
theorem Flushed.cursor {n : Natives} {s : Appender} {r : EStateM.Result Exn Appender ℕ}
    (h : Flushed cfg n s r) :
    (final r).currentColumn = s.currentColumn ∧ (final r).prevColumn = s.prevColumn ∧
      (final r).closed = s.closed := by
  cases h <;> exact ⟨rfl, rfl, rfl⟩

theorem flush_cursor (cfg : Config) (n : Natives) (s : Appender) :
    (final (flush cfg n s)).currentColumn = s.currentColumn ∧
      (final (flush cfg n s)).prevColumn = s.prevColumn ∧
      (final (flush cfg n s)).closed = s.closed := (flush_spec cfg n s).cursor

theorem flush_cursor_ok {n : Natives} {s t : Appender} {k : ℕ} (h : flush cfg n s = .ok k t) :
    t.currentColumn = s.currentColumn ∧ t.prevColumn = s.prevColumn ∧ t.closed = s.closed := by
  have := flush_cursor cfg n s; rwa [h] at this

theorem flush_cursor_error {n : Natives} {s t : Appender} {e : Exn}
    (h : flush cfg n s = .error e t) :
    t.currentColumn = s.currentColumn ∧ t.prevColumn = s.prevColumn ∧ t.closed = s.closed := by
  have := flush_cursor cfg n s; rwa [h] at this

theorem nativeFlush_cursor (b : Bool) (s : Appender) :
    (final (nativeFlush b s)).currentColumn = s.currentColumn ∧
      (final (nativeFlush b s)).prevColumn = s.prevColumn := by
  cases b <;> exact ⟨rfl, rfl⟩

theorem closing_cursor (n : Natives) (s : Appender) :
    (s.closing n).currentColumn = s.currentColumn ∧ (s.closing n).prevColumn = s.prevColumn := by
  have h1 := nativeFlush_cursor n.appenderClose s
  have h2 := nativeFlush_cursor n.appenderDestroy (final (nativeFlush n.appenderClose s))
  exact ⟨h2.1.trans h1.1, h2.2.trans h1.2⟩

theorem rowCompletedInvariant_eq {s : Appender} (h : s.rowCompletedInvariant cfg = true) :
    s.currentColumn = none ∧ ∃ p, s.prevColumn = some p ∧ p.idx + 1 = cfg.columns.length := by
  unfold Appender.rowCompletedInvariant at h
  split at h
  · next p hc hp => exact ⟨hc, p, hp, of_decide_eq_true h⟩
  · cases h

/-- One call keeps the invariant. -/
theorem CursorInv.step {s : Appender} {log : List Event} (h : CursorInv cfg s log) (c : Call)
    (n : Natives) :
    CursorInv cfg (final (step cfg c n s)) (Entry.extend ⟨s, c, n, step cfg c n s⟩ log) := by
  have hw := cfg.tableType.wf
  have hs := step_spec cfg c n s
  generalize DuckDBJava.step cfg c n s = r at hs ⊢
  cases hs with
  | refused => exact h
  | beginRow _ hc hp hcols =>
    refine ⟨fun c hc' => ?_, fun p hp' => h.prev p hp', fun hc' => ?_⟩
    · cases hc'
      exact ⟨by simp [Column.In, hcols], .zero⟩
    · cases hc'
  | @beginStruct _ _ col field _ hc ht hf =>
    obtain ⟨hin, hb⟩ := h.cur col hc
    obtain ⟨t, _, rfl⟩ := Column.get?_eq hf
    simp only [Entry.extend, isOk_ok, ↓reduceIte, Entry.event, hc, Option.toList_some, final_ok]
    refine ⟨fun c hc' => ?_, fun p hp => h.prev p hp, fun hc' => ?_⟩
    · cases hc'
      exact ⟨hin.get? hf, log, _, rfl, hb, .struct ht .zero⟩
    · cases hc'
  | endStruct _ hp _ _ =>
    simp only [Entry.extend, isOk_ok, ↓reduceIte, Entry.event, Option.toList_none, List.append_nil,
      final_ok]
    refine ⟨h.cur, fun q hq => ?_, fun hc _ => h.done hc (by simp [hp])⟩
    cases hq; exact (h.prev _ hp).parent
  | @beginUnion _ _ _ col m v _ hc ht hx =>
    obtain ⟨hin, hb⟩ := h.cur col hc
    obtain ⟨hm, t, ht'⟩ := putUnionTag_member hw hin hx
    simp only [Entry.extend, isOk_ok, ↓reduceIte, Entry.event, hc, ht', Option.map_some,
      Option.toList_some, final_ok]
    refine ⟨fun c hc' => ?_, fun p hp => h.prev p hp, fun hc' => ?_⟩
    · cases hc'
      exact ⟨hin.get? ht', log, _, rfl, hb, .union ht hm⟩
    · cases hc'
  | beginUnionFailed => exact h.congr rfl rfl
  | endUnion _ hp _ =>
    simp only [Entry.extend, isOk_ok, ↓reduceIte, Entry.event, Option.toList_none, List.append_nil,
      final_ok]
    refine ⟨h.cur, fun q hq => ?_, fun hc _ => h.done hc (by simp [hp])⟩
    cases hq; exact (h.prev _ hp).parent
  | append _ hc _ | appendNull _ hc _ | appendDefault _ hc =>
    simp only [Entry.extend, isOk_ok, ↓reduceIte, Entry.event, hc, Option.toList_some, final_ok]
    exact h.supplied _ hc
  | appendFailed | appendNullFailed => exact h.congr rfl rfl
  | endRow _ hr _ =>
    simp only [Entry.extend, isOk_ok, ↓reduceIte, Entry.event, Option.toList_none, List.append_nil,
      final_ok]
    obtain ⟨hc, _⟩ := rowCompletedInvariant_eq hr
    exact ⟨by simp [hc], by simp, by simp⟩
  | endRowFlushed _ hr _ hx =>
    obtain ⟨hc, _⟩ := rowCompletedInvariant_eq hr
    obtain ⟨h1, h2, _⟩ := flush_cursor_ok hx
    simp only [Entry.extend, isOk_ok, ↓reduceIte, Entry.event, Option.toList_none, List.append_nil,
      final_ok]
    exact ⟨by simp [h1, hc], by simp [h2], by simp [h2]⟩
  | endRowFailed _ hr _ hx => exact h.congr (flush_cursor_error hx).1 rfl
  | flush hx =>
    simp only [Entry.extend, isOk_ok, ↓reduceIte, Entry.event, Option.toList_none, List.append_nil,
      final_ok]
    exact h.congr (flush_cursor_ok hx).1 (flush_cursor_ok hx).2.1
  | flushFailed hx => exact h.congr (flush_cursor_error hx).1 (flush_cursor_error hx).2.1
  | closeAgain =>
    simp only [Entry.extend, isOk_ok, ↓reduceIte, Entry.event, Option.toList_none, List.append_nil,
      final_ok]
    exact h
  | closeEmpty =>
    simp only [Entry.extend, isOk_ok, ↓reduceIte, Entry.event, Option.toList_none, List.append_nil,
      final_ok]
    exact h.congr (closing_cursor n s).1 (closing_cursor n s).2
  | close =>
    simp only [Entry.extend, isOk_ok, ↓reduceIte, Entry.event, Option.toList_none, List.append_nil,
      final_ok]
    have h1 := flush_cursor cfg n s
    have h2 := closing_cursor n (final (DuckDBJava.flush cfg n s))
    exact h.congr (h2.1.trans h1.1) (h2.2.trans h1.2.1)

end DuckDBJava
