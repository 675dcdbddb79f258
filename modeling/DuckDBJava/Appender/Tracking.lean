/-
  The chunk of the appender carries what the calls have supplied.

  `suppliesOf` reads off a run what it supplies for a column of a row.  `Tracks` is the invariant
  for a column without `ARRAY`, `LIST` and `MAP`: the slots before the current row carry what was
  supplied for them, the slot of the current row carries what has been supplied so far, and the
  slots behind are fresh.  Every call keeps it (`Tracks.step`), whichever native calls fail
  (`tracks_exec`).
-/
import DuckDBJava.Appender.Supplies
import DuckDBJava.Appender.Defaults
import DuckDBJava.Appender.Wrapping

namespace DuckDBJava

open Exec PathTree

/-! ## What a run supplies -/

/-- The name of the row in progress. -/
def Appender.rowId (s : Appender) : ℕ × ℕ := (s.generation, s.rowIdx)

/-- What a call supplies, if it returns normally. -/
def Entry.supply (default : ℕ → Value) (e : Entry) : Option Supply :=
  if isOk e.result then
    match e.call, e.before.currentColumn with
    | .append a, some col => ((a.stored col.colType).value col.kind).map .value
    | .appendNull, some _ => some (.value .null)
    | .appendDefault, some col => (columnDefault default col).map .value
    | .beginStruct, some _ => some .beginStruct
    | .beginUnion tag, some col => (col.kind.member tag).map .beginUnion
    | _, _ => none
  else none

/-- The call is made in the top-level column `i` of the row. -/
def Entry.isAt (e : Entry) (row : ℕ × ℕ) (i : ℕ) : Prop :=
  e.before.rowId = row ∧ e.before.currentTopLevelColumn.map Column.idx = some i

instance (e : Entry) (row : ℕ × ℕ) (i : ℕ) : Decidable (e.isAt row i) :=
  inferInstanceAs (Decidable (_ ∧ _))

/-- What a run supplies for the top-level column `i` of a row. -/
def suppliesOf (default : ℕ → Value) (h : List Entry) (row : ℕ × ℕ) (i : ℕ) : List Supply :=
  h.filterMap fun e => if e.isAt row i then e.supply default else none

/-- In a column without lists `duckdb_append_default_to_chunk` writes the slot of the row, in the
    memory as it is. -/
structure Engine.DefaultsInPlace (eng : Engine) (columns : List LogicalType) : Prop where
  memory : ∀ {j row v v'}, eng.appendDefault j row v = some v' → ∀ i t, columns[i]? = some t →
    t.Plain → ∀ p, (v' (i :: p)).alloc = (v (i :: p)).alloc
  slots : ∀ {j row v v'}, eng.appendDefault j row v = some v' → ∀ i t, columns[i]? = some t →
    t.Plain → ∀ k, k ≠ row → SameAt k (v.child i) (v'.child i)

/-! ## The cursor at top level -/

/-- The cursor has not reached the top-level column `i` in this row. -/
def Appender.Ahead (s : Appender) (i : ℕ) : Prop :=
  match s.currentColumn with
  | some col => col.topLevel.idx < i
  | none => s.prevColumn = none

/-- The cursor is behind the top-level column `i` in this row. -/
def Appender.Past (s : Appender) (i : ℕ) : Prop :=
  match s.currentColumn with
  | some col => i < col.topLevel.idx
  | none => s.prevColumn ≠ none

theorem Column.In.topLevel_eq {columns : List LogicalType} {i : ℕ} {t : LogicalType}
    (ht : columns[i]? = some t) : ∀ {col : Column}, col.In columns → col.topLevel.idx = i →
      col.topLevel = .top i t
  | .top j u, hin, h => by
    obtain rfl : j = i := h
    rw [Column.In, ht] at hin
    cases hin
    rfl
  | .child p _ _, hin, h => show p.topLevel = .top i t from Column.In.topLevel_eq ht hin.1 h

/-- The next column is in the same top-level column, or it is the next one. -/
theorem nextColumn_topLevel {columns : List LogicalType} : ∀ {col : Column}, col.In columns →
    (∃ d, nextColumn columns col = some d ∧ (d.topLevel = col.topLevel ∨
      ∃ u, d = .top (col.topLevel.idx + 1) u ∧ columns[col.topLevel.idx + 1]? = some u)) ∨
    (nextColumn columns col = none ∧ col.topLevel.idx + 1 = columns.length)
  | .top i t, hin => by
    rw [nextColumn]
    cases hu : columns[i + 1]? with
    | some u => exact .inl ⟨_, rfl, .inr ⟨u, rfl, hu⟩⟩
    | none =>
      have hlt := (List.getElem?_eq_some_iff.1 hin).1
      have hle := List.getElem?_eq_none_iff.1 hu
      refine .inr ⟨rfl, ?_⟩
      show i + 1 = columns.length
      omega
  | .child p i t, hin => by
    rw [nextColumn]
    split
    · exact nextColumn_topLevel hin.1
    · split
      · next d hd =>
        obtain ⟨u, _, rfl⟩ := Column.get?_eq hd
        exact .inl ⟨_, rfl, .inl rfl⟩
      · exact nextColumn_topLevel hin.1

/-- What the cursor gets to in a plain column. -/
structure Column.Plain (col : Column) : Prop where
  type : col.type.Plain
  arraySize : col.arraySize = 1
  parentArraySize : col.parentArraySize = 1

theorem Column.plain_of_topLevel {columns : List LogicalType} {i : ℕ} {t : LogicalType}
    (hp : t.Plain) : ∀ {col : Column}, col.In columns → col.topLevel = .top i t → col.Plain
  | .top _ _, _, h => by
    cases h
    exact ⟨hp, rfl, rfl⟩
  | .child p j u, hin, h => by
    have hparent := Column.plain_of_topLevel hp hin.1 h
    exact ⟨hparent.type.child hin.2, Column.arraySize_child hparent.type, hparent.arraySize⟩

theorem Ready.column {eng : Engine} {columns : List LogicalType} {chunk : Vec} {i : ℕ}
    {t : LogicalType} (h : Ready eng t (chunk.child i)) : ∀ {col : Column}, col.In columns →
      col.topLevel = .top i t → Ready eng col.type (chunk.sub col.path)
  | .top _ _, _, htop => by
    cases htop
    exact h
  | .child _ _ _, hin, htop => (Ready.column h hin.1 htop).child hin.2

/-- A write below a top-level column, seen from there. -/
theorem SlotOnly.setSub {k : ℕ} {chunk : Vec} : ∀ {c : Column} {v : Vec},
    SlotOnly k (chunk.sub c.path) v →
      SlotOnly k (chunk.child c.topLevel.idx) ((chunk.setSub c.path v).child c.topLevel.idx)
  | .top i _, v, h => by
    show SlotOnly k (chunk.child i) ((chunk.setChild i v).child i)
    rw [child_setChild_self]
    exact h
  | .child p _ _, _, h => SlotOnly.setSub (c := p) (SlotOnly.setChild h)

theorem child_setSub_of_ne {i : ℕ} {chunk : Vec} : ∀ {c : Column} {v : Vec},
    c.topLevel.idx ≠ i → (chunk.setSub c.path v).child i = chunk.child i
  | .top _ _, v, h => child_setChild_ne (Ne.symm h) v chunk
  | .child p _ _, _, h => child_setSub_of_ne (c := p) h

/-! ## One column -/

section
variable {cfg : Config} {i : ℕ} {t : LogicalType} {s s' : Appender}

/-- The slot of the current row carries what has been supplied of a top-level column. -/
inductive Progress (i : ℕ) (t : LogicalType) (s : Appender) (log : List Supply) : Prop
  | ahead : s.Ahead i → FreshAt s.rowIdx (s.chunk.child i) → log = [] → Progress i t s log
  | inside {col} : s.currentColumn = some col → col.topLevel = .top i t →
      CarriesBefore s.chunk s.rowIdx col log → FreshAt s.rowIdx (s.chunk.sub col.path) →
      Progress i t s log
  | past : s.Past i → Carries t (s.chunk.child i) s.rowIdx log → Progress i t s log

/-- The slots of a top-level column carry what has been supplied for the rows of the chunk. -/
structure Tracks (cfg : Config) (i : ℕ) (t : LogicalType) (s : Appender)
    (log : ℕ × ℕ → List Supply) : Prop where
  ready : Ready cfg.eng t (s.chunk.child i)
  done : ∀ k, k < s.rowIdx → Carries t (s.chunk.child i) k (log (s.generation, k))
  current : Progress i t s (log s.rowId)
  later : ∀ k, s.rowIdx < k → FreshAt k (s.chunk.child i) ∧ log (s.generation, k) = []
  future : ∀ g, s.generation < g → ∀ k, log (g, k) = []

/-- Only the chunk, the cursor and the name of the row matter. -/
theorem Tracks.congr {log : ℕ × ℕ → List Supply} (h : Tracks cfg i t s log)
    (hchunk : s'.chunk = s.chunk) (hrow : s'.rowIdx = s.rowIdx)
    (hgen : s'.generation = s.generation) (hc : s'.currentColumn = s.currentColumn)
    (hp : s'.prevColumn = s.prevColumn) : Tracks cfg i t s' log := by
  refine ⟨by rw [hchunk]; exact h.ready, by rw [hchunk, hrow, hgen]; exact h.done, ?_,
    by rw [hchunk, hrow, hgen]; exact h.later, by rw [hgen]; exact h.future⟩
  have hid : s'.rowId = s.rowId := by rw [Appender.rowId, Appender.rowId, hgen, hrow]
  rw [hid]
  cases h.current with
  | ahead hcur hf hlog =>
    refine .ahead ?_ (by rw [hchunk, hrow]; exact hf) hlog
    rw [Appender.Ahead, hc, hp]
    exact hcur
  | inside hcur htop hb hf =>
    exact .inside (hc.trans hcur) htop (by rw [hchunk, hrow]; exact hb)
      (by rw [hchunk, hrow]; exact hf)
  | past hcur hcar =>
    refine .past ?_ (by rw [hchunk, hrow]; exact hcar)
    rw [Appender.Past, hc, hp]
    exact hcur

/-- A call within a row. -/
theorem Tracks.within {log log' : ℕ × ℕ → List Supply} (h : Tracks cfg i t s log) (ht : t.Plain)
    (hslot : SlotOnly s.rowIdx (s.chunk.child i) (s'.chunk.child i))
    (hrow : s'.rowIdx = s.rowIdx) (hgen : s'.generation = s.generation)
    (hlog : ∀ row, row ≠ s.rowId → log' row = log row)
    (hp : Progress i t s' (log' s.rowId)) : Tracks cfg i t s' log' := by
  have hid : s'.rowId = s.rowId := by rw [Appender.rowId, Appender.rowId, hgen, hrow]
  refine ⟨h.ready.sameMemory hslot.memory, fun k hk => ?_, hid ▸ hp, fun k hk => ?_,
    fun g hg k => ?_⟩
  · rw [hrow] at hk
    have hne : k ≠ s.rowIdx := Nat.ne_of_lt hk
    rw [hgen, hlog _ fun heq => hne (congrArg Prod.snd heq)]
    exact (h.done k hk).sameAt ht (hslot.slots k hne)
  · rw [hrow] at hk
    have hne : k ≠ s.rowIdx := Nat.ne_of_gt hk
    rw [hgen, hlog _ fun heq => hne (congrArg Prod.snd heq)]
    exact ⟨(hslot.slots k hne).fresh (h.later k hk).1, (h.later k hk).2⟩
  · rw [hgen] at hg
    rw [hlog _ fun heq => Nat.ne_of_gt hg (congrArg Prod.fst heq)]
    exact h.future g hg k

/-- The cursor leaves a column somewhere else. -/
theorem Progress.elsewhere {col : Column} {log : List Supply} (h : Progress i t s log)
    (ht : cfg.columns[i]? = some t) (hplain : t.Plain) (hc : s.currentColumn = some col)
    (hin : col.In cfg.columns) (hne : col.topLevel.idx ≠ i)
    (hslot : SameAt s.rowIdx (s.chunk.child i) (s'.chunk.child i)) (hrow : s'.rowIdx = s.rowIdx)
    (hc' : s'.currentColumn = nextColumn cfg.columns col) (hp' : s'.prevColumn = some col) :
    Progress i t s' log := by
  have hlt := (List.getElem?_eq_some_iff.1 ht).1
  cases h with
  | ahead hcur hf hlog =>
    rw [Appender.Ahead, hc] at hcur
    have hf' : FreshAt s'.rowIdx (s'.chunk.child i) := hrow ▸ hslot.fresh hf
    have hcur : col.topLevel.idx < i := hcur
    rcases nextColumn_topLevel hin with ⟨d, hd, hsame | ⟨u, rfl, hu⟩⟩ | ⟨hnone, hlast⟩
    · refine .ahead ?_ hf' hlog
      rw [Appender.Ahead, hc', hd]
      show d.topLevel.idx < i
      rw [hsame]
      exact hcur
    · by_cases hi : col.topLevel.idx + 1 = i
      · subst hi
        obtain rfl : u = t := Option.some.inj (hu.symm.trans ht)
        exact .inside (hc'.trans hd) rfl hlog hf'
      · refine .ahead ?_ hf' hlog
        rw [Appender.Ahead, hc', hd]
        show col.topLevel.idx + 1 < i
        omega
    · omega
  | inside hcur htop _ _ =>
    rw [hc] at hcur
    cases hcur
    rw [htop] at hne
    exact absurd rfl hne
  | past hcur hcar =>
    rw [Appender.Past, hc] at hcur
    have hcur : i < col.topLevel.idx := hcur
    refine .past ?_ (hrow ▸ hcar.sameAt hplain hslot)
    rw [Appender.Past, hc']
    rcases nextColumn_topLevel hin with ⟨d, hd, hsame | ⟨u, rfl, -⟩⟩ | ⟨hnone, -⟩
    · rw [hd]
      show i < d.topLevel.idx
      rw [hsame]
      exact hcur
    · rw [hd]
      show i < col.topLevel.idx + 1
      omega
    · rw [hnone]
      show s'.prevColumn ≠ none
      rw [hp']
      exact Option.some_ne_none _

/-- The cursor stays in a top-level column somewhere else. -/
theorem Progress.stays {col field : Column} {log : List Supply} (h : Progress i t s log)
    (hplain : t.Plain) (hc : s.currentColumn = some col) (hne : col.topLevel.idx ≠ i)
    (hslot : SameAt s.rowIdx (s.chunk.child i) (s'.chunk.child i)) (hrow : s'.rowIdx = s.rowIdx)
    (hc' : s'.currentColumn = some field) (htop' : field.topLevel = col.topLevel) :
    Progress i t s' log := by
  cases h with
  | ahead hcur hf hlog =>
    rw [Appender.Ahead, hc] at hcur
    refine .ahead ?_ (hrow ▸ hslot.fresh hf) hlog
    rw [Appender.Ahead, hc']
    show field.topLevel.idx < i
    rw [htop']
    exact hcur
  | inside hcur htop _ _ =>
    rw [hc] at hcur
    cases hcur
    rw [htop] at hne
    exact absurd rfl hne
  | past hcur hcar =>
    rw [Appender.Past, hc] at hcur
    refine .past ?_ (hrow ▸ hcar.sameAt hplain hslot)
    rw [Appender.Past, hc']
    show i < field.topLevel.idx
    rw [htop']
    exact hcur

/-- In a column, its part is what the cursor is at. -/
theorem Progress.at_column {col : Column} {log : List Supply} (h : Progress i t s log)
    (hc : s.currentColumn = some col) (htop : col.topLevel = .top i t) :
    CarriesBefore s.chunk s.rowIdx col log ∧ FreshAt s.rowIdx (s.chunk.sub col.path) := by
  cases h with
  | ahead hcur _ _ =>
    rw [Appender.Ahead, hc] at hcur
    have hcur : col.topLevel.idx < i := hcur
    rw [htop] at hcur
    exact absurd hcur (Nat.lt_irrefl i)
  | inside hcur _ hb hf =>
    rw [hc] at hcur
    cases hcur
    exact ⟨hb, hf⟩
  | past hcur _ =>
    rw [Appender.Past, hc] at hcur
    have hcur : i < col.topLevel.idx := hcur
    rw [htop] at hcur
    exact absurd hcur (Nat.lt_irrefl i)

/-- A column has been supplied with a value, and the cursor moves on. -/
theorem Progress.supplied {col : Column} {log : List Supply} {v : Vec} {x : Value}
    (h : Progress i t s log) (hc : s.currentColumn = some col) (hin : col.In cfg.columns)
    (htop : col.topLevel = .top i t) (hx : decode col.type v s.rowIdx = some x) :
    Progress i t (s.supplied cfg col (s.chunk.setSub col.path v)) (log ++ [.value x]) := by
  obtain ⟨hb, -⟩ := h.at_column hc htop
  have hcar : Carries col.type ((s.chunk.setSub col.path v).sub col.path) s.rowIdx [.value x] := by
    rw [sub_setSub_self]
    exact .value hx
  rcases carries_next hin hb.setSub hcar with ⟨d, hd, hdtop, hdb, hdf⟩ | ⟨hnext, hcar⟩
  · exact .inside hd (hdtop.trans htop) hdb hdf
  · rw [htop] at hnext hcar
    refine .past ?_ hcar
    show (match nextColumn cfg.columns col with
      | some col => i < col.topLevel.idx
      | none => (some col : Option Column) ≠ none)
    rw [hnext, nextColumn]
    cases cfg.columns[i + 1]? with
    | some u => exact Nat.lt_succ_self i
    | none => exact Option.some_ne_none col

/-! ### The ends of rows -/

/-- The row that ends. -/
theorem Tracks.ended {log : ℕ × ℕ → List Supply} (h : Tracks cfg i t s log)
    (hc : s.currentColumn = none) (hp : s.prevColumn ≠ none) :
    Tracks cfg i t { s with rowIdx := s.rowIdx + 1, prevColumn := none } log := by
  have hcur : Carries t (s.chunk.child i) s.rowIdx (log s.rowId) := by
    cases h.current with
    | ahead hcur _ _ =>
      rw [Appender.Ahead, hc] at hcur
      exact absurd hcur hp
    | inside hcur _ _ _ =>
      rw [hc] at hcur
      cases hcur
    | past _ hcar => exact hcar
  obtain ⟨hfresh, hnil⟩ := h.later (s.rowIdx + 1) (Nat.lt_succ_self _)
  refine ⟨h.ready, fun k hk => ?_, .ahead ?_ hfresh hnil, fun k hk => h.later k ?_, h.future⟩
  · rcases Nat.lt_succ_iff_lt_or_eq.1 hk with hk | rfl
    · exact h.done k hk
    · exact hcur
  · show (match s.currentColumn with
      | some col => col.topLevel.idx < i
      | none => (none : Option Column) = none)
    rw [hc]
  · have hk : s.rowIdx + 1 < k := hk
    omega

/-- The buffers of a plain column of a chunk that has just been reset. -/
theorem ready_of_resetColumns {chunk chunk' : Vec} {u : Unit} (ht : cfg.columns[i]? = some t)
    (hplain : t.Plain) (hx : resetColumns cfg.eng 0 cfg.columns chunk = .ok u chunk') :
    Ready cfg.eng t (chunk'.child i) := by
  have hcap := chunkCapped_reset hx i t ht
  rw [resetColumns_eq] at hx
  have hf := (resetChildren_fetched cfg.columns hx).2 i t ht
  rw [Nat.zero_add] at hf
  exact ready_of_reset hplain hcap hf

theorem fresh_of_resetColumns {chunk chunk' : Vec} {u : Unit} {k : ℕ}
    (hx : resetColumns cfg.eng 0 cfg.columns chunk = .ok u chunk')
    (h : ∀ p, (chunk p).valid k = true) : FreshAt k (chunk'.child i) := by
  rw [resetColumns_eq] at hx
  intro p
  obtain ⟨buf, hb⟩ := (resetChildren_eq_ok cfg.columns hx).1 (i :: p)
  show (chunk' (i :: p)).valid k = true
  rw [hb]
  exact h _

theorem Tracks.flush {log : ℕ × ℕ → List Supply} (h : Tracks cfg i t s log)
    (ht : cfg.columns[i]? = some t) (hplain : t.Plain) (hbuf : Resettable cfg s.chunk)
    {n : Natives} {r : EStateM.Result Exn Appender ℕ} (hf : Flushed cfg n s r) :
    Tracks cfg i t (final r) log := by
  cases hf with
  | closed | inRow | empty | appendFailed => exact h
  | flushFailed => exact h.congr rfl rfl rfl rfl rfl
  | resetFailed _ _ _ _ _ hx => exact absurd hx hbuf.ne_error
  | done _ hr _ _ _ hx =>
    rw [Appender.readyForANewRowInvariant, Bool.and_eq_true, Option.isNone_iff_eq_none,
      Option.isNone_iff_eq_none] at hr
    obtain ⟨hc, hp⟩ := hr
    have hfresh : ∀ k, FreshAt k _ := fun k =>
      fresh_of_resetColumns (i := i) (k := k) hx fun _ => rfl
    refine ⟨ready_of_resetColumns ht hplain hx, fun k hk => absurd hk (Nat.not_lt_zero k), ?_,
      fun k _ => ⟨hfresh k, h.future _ (Nat.lt_succ_self _) k⟩, fun g hg k =>
      h.future g (Nat.lt_of_succ_lt hg) k⟩
    refine .ahead ?_ (hfresh 0) (h.future _ (Nat.lt_succ_self _) 0)
    show (match s.currentColumn with
      | some col => col.topLevel.idx < i
      | none => s.prevColumn = none)
    rw [hc]
    exact hp

theorem Tracks.closing {log : ℕ × ℕ → List Supply} {n : Natives} (h : Tracks cfg i t s log) :
    Tracks cfg i t (s.closing n) log := by
  have hsame : ∀ (b : Bool) (s : Appender), (final (nativeFlush b s)).chunk = s.chunk ∧
      (final (nativeFlush b s)).rowIdx = s.rowIdx ∧
      (final (nativeFlush b s)).generation = s.generation ∧
      (final (nativeFlush b s)).currentColumn = s.currentColumn ∧
      (final (nativeFlush b s)).prevColumn = s.prevColumn := by
    intro b s
    cases b <;> exact ⟨rfl, rfl, rfl, rfl, rfl⟩
  obtain ⟨hc₁, hr₁, hg₁, hcur₁, hp₁⟩ := hsame n.appenderClose s
  obtain ⟨hc₂, hr₂, hg₂, hcur₂, hp₂⟩ :=
    hsame n.appenderDestroy (final (nativeFlush n.appenderClose s))
  exact h.congr (hc₂.trans hc₁) (hr₂.trans hr₁) (hg₂.trans hg₁) (hcur₂.trans hcur₁) (hp₂.trans hp₁)

/-- A `flush` that fails before the reset leaves the chunk as it is. -/
theorem Flushed.same {n : Natives} {e : Exn} (h : Flushed cfg n s (.error e s'))
    (hbuf : Resettable cfg s.chunk) :
    s'.chunk = s.chunk ∧ s'.rowIdx = s.rowIdx ∧ s'.generation = s.generation := by
  cases h with
  | closed | inRow | appendFailed | flushFailed => exact ⟨rfl, rfl, rfl⟩
  | resetFailed _ _ _ _ _ hx => exact absurd hx hbuf.ne_error

/-! ### One call -/

section
variable {default : ℕ → Value} {h : List Entry} {e : Entry} {row : ℕ × ℕ}

theorem suppliesOf_snoc_of_none (he : e.supply default = none) :
    suppliesOf default (h ++ [e]) row i = suppliesOf default h row i := by
  simp [suppliesOf, he]

theorem suppliesOf_snoc_of_not (he : ¬ e.isAt row i) :
    suppliesOf default (h ++ [e]) row i = suppliesOf default h row i := by
  simp [suppliesOf, he]

theorem suppliesOf_snoc_of_isAt (he : e.isAt row i) {x : Supply}
    (hx : e.supply default = some x) :
    suppliesOf default (h ++ [e]) row i = suppliesOf default h row i ++ [x] := by
  simp [suppliesOf, he, hx]

end

theorem Entry.supply_append {default : ℕ → Value} {a : Append} {n : Natives} {col : Column}
    (hc : s.currentColumn = some col) : Entry.supply default ⟨s, .append a, n, .ok () s'⟩ =
      ((a.stored col.colType).value col.kind).map .value := by
  simp [Entry.supply, hc]

theorem Entry.supply_appendNull {default : ℕ → Value} {n : Natives} {col : Column}
    (hc : s.currentColumn = some col) : Entry.supply default ⟨s, .appendNull, n, .ok () s'⟩ =
      (some Value.null).map .value := by
  simp [Entry.supply, hc]

theorem TypeKind.eq_struct {kind : TypeKind} (h : kind.colType = .struct) :
    ∃ names, kind = .struct names := by
  cases kind with
  | struct names => exact ⟨names, rfl⟩
  | scalar c hc =>
    rw [TypeKind.colType] at h
    subst h
    cases hc
  | unlisted t => cases t <;> cases h
  | _ => cases h

/-- A call that neither supplies nor writes anything, and leaves the cursor where it is. -/
theorem Tracks.idle {default : ℕ → Value} {h : List Entry} {e : Entry}
    (htr : Tracks cfg i t s fun row => suppliesOf default h row i) (he : e.supply default = none)
    (hchunk : s'.chunk = s.chunk) (hrow : s'.rowIdx = s.rowIdx)
    (hgen : s'.generation = s.generation) (hc : s'.currentColumn = s.currentColumn)
    (hp : s'.prevColumn = s.prevColumn) :
    Tracks cfg i t s' fun row => suppliesOf default (h ++ [e]) row i := by
  simp only [suppliesOf_snoc_of_none he]
  exact htr.congr hchunk hrow hgen hc hp

/-- A call that supplies a value to the current column. -/
theorem Tracks.supplied {default : ℕ → Value} {h : List Entry} {e : Entry} {col : Column} {v : Vec}
    {value : Option Value} (htr : Tracks cfg i t s fun row => suppliesOf default h row i)
    (ht : cfg.columns[i]? = some t) (hplain : t.Plain) (hbefore : e.before = s)
    (hc : s.currentColumn = some col) (hin : col.In cfg.columns)
    (hsupply : e.supply default = value.map .value)
    (hput : col.topLevel = .top i t → ∃ x, value = some x ∧
      SlotOnly s.rowIdx (s.chunk.sub col.path) v ∧
      (FreshAt s.rowIdx (s.chunk.sub col.path) → decode col.type v s.rowIdx = some x)) :
    Tracks cfg i t (s.supplied cfg col (s.chunk.setSub col.path v))
      fun row => suppliesOf default (h ++ [e]) row i := by
  subst hbefore
  by_cases hi : col.topLevel.idx = i
  · have htop := hin.topLevel_eq ht hi
    obtain ⟨x, rfl, hslot, hdecode⟩ := hput htop
    have hat : e.isAt e.before.rowId i :=
      ⟨rfl, by rw [Appender.currentTopLevelColumn, hc]; exact congrArg some hi⟩
    have hslot' := hslot.setSub
    rw [hi] at hslot'
    refine htr.within hplain hslot' rfl rfl (fun row hrow => ?_) ?_
    · exact suppliesOf_snoc_of_not fun hx => hrow hx.1.symm
    · have hfresh := (htr.current.at_column hc htop).2
      rw [suppliesOf_snoc_of_isAt hat hsupply]
      exact htr.current.supplied hc hin htop (hdecode hfresh)
  · have hsame : (e.before.chunk.setSub col.path v).child i = e.before.chunk.child i :=
      child_setSub_of_ne hi
    have hnot : ∀ row, ¬ e.isAt row i := fun row hx => by
      have := hx.2
      rw [Appender.currentTopLevelColumn, hc] at this
      exact hi (Option.some.inj this)
    simp only [suppliesOf_snoc_of_not (hnot _)]
    refine htr.within hplain ?_ rfl rfl (fun _ _ => rfl) ?_
    · rw [show (e.before.supplied cfg col (e.before.chunk.setSub col.path v)).chunk.child i = _
        from hsame]
      exact .refl _ _
    · refine htr.current.elsewhere ht hplain hc hin hi ?_ rfl rfl rfl
      rw [show (e.before.supplied cfg col (e.before.chunk.setSub col.path v)).chunk.child i = _
        from hsame]
      exact .refl _ _

/-- A call that writes to the slot of a column and stays in it, or fails there. -/
theorem Tracks.written {log : ℕ × ℕ → List Supply} {col : Column} {v : Vec}
    (h : Tracks cfg i t s log) (ht : cfg.columns[i]? = some t) (hplain : t.Plain)
    (hc : s.currentColumn = some col) (hin : col.In cfg.columns)
    (hput : col.topLevel = .top i t →
      SlotOnly s.rowIdx (s.chunk.sub col.path) v ∧ SameAt s.rowIdx (s.chunk.sub col.path) v) :
    Tracks cfg i t { s with chunk := s.chunk.setSub col.path v } log := by
  by_cases hi : col.topLevel.idx = i
  · have htop := hin.topLevel_eq ht hi
    obtain ⟨hslot, hsame⟩ := hput htop
    obtain ⟨hb, hf⟩ := h.current.at_column hc htop
    have hslot' := hslot.setSub
    rw [hi] at hslot'
    refine h.within hplain hslot' rfl rfl (fun _ _ => rfl) (.inside hc htop hb.setSub ?_)
    show FreshAt s.rowIdx ((s.chunk.setSub col.path v).sub col.path)
    rw [sub_setSub_self]
    exact hsame.fresh hf
  · have hsame : (s.chunk.setSub col.path v).child i = s.chunk.child i := child_setSub_of_ne hi
    refine h.within hplain ?_ rfl rfl (fun _ _ => rfl) ?_
    · rw [show ({ s with chunk := s.chunk.setSub col.path v } : Appender).chunk.child i = _
        from hsame]
      exact .refl _ _
    · refine h.current.stays hplain hc hi ?_ rfl hc rfl
      rw [show ({ s with chunk := s.chunk.setSub col.path v } : Appender).chunk.child i = _
        from hsame]
      exact .refl _ _

/-- `beginStruct`. -/
theorem Tracks.beginStruct {default : ℕ → Value} {h : List Entry} {e : Entry} {col field : Column}
    (htr : Tracks cfg i t s fun row => suppliesOf default h row i) (ht : cfg.columns[i]? = some t)
    (hplain : t.Plain) (hbefore : e.before = s) (hsupply : e.supply default = some .beginStruct)
    (hc : s.currentColumn = some col) (hin : col.In cfg.columns) (hstruct : col.colType = .struct)
    (hfield : col.get? 0 = some field) :
    Tracks cfg i t { s with currentColumn := some field }
      fun row => suppliesOf default (h ++ [e]) row i := by
  subst hbefore
  obtain ⟨u, hu, rfl⟩ := Column.get?_eq hfield
  by_cases hi : col.topLevel.idx = i
  · have htop := hin.topLevel_eq ht hi
    have hat : e.isAt e.before.rowId i :=
      ⟨rfl, by rw [Appender.currentTopLevelColumn, hc]; exact congrArg some hi⟩
    obtain ⟨hb, hf⟩ := htr.current.at_column hc htop
    refine htr.within hplain (.refl _ _) rfl rfl (fun row hrow => ?_) ?_
    · exact suppliesOf_snoc_of_not fun hx => hrow hx.1.symm
    · rw [suppliesOf_snoc_of_isAt hat hsupply]
      refine .inside rfl htop ⟨hf [], _, _, rfl, hb, ?_⟩ (hf.child 0)
      obtain ⟨names, hkind⟩ := TypeKind.eq_struct hstruct
      cases htype : col.type with
      | node kind cs =>
        rw [htype] at hkind
        obtain rfl : kind = .struct names := hkind
        exact .struct .zero fun m _ _ => hf.child m
  · have hnot : ∀ row, ¬ e.isAt row i := fun row hx => by
      have := hx.2
      rw [Appender.currentTopLevelColumn, hc] at this
      exact hi (Option.some.inj this)
    simp only [suppliesOf_snoc_of_not (hnot _)]
    exact htr.within hplain (.refl _ _) rfl rfl (fun _ _ => rfl)
      (htr.current.stays hplain hc hi (.refl _ _) rfl rfl rfl)

/-- `beginUnion`. -/
theorem Tracks.beginUnion {default : ℕ → Value} {h : List Entry} {e : Entry} {col : Column} {m : ℕ}
    {v : Vec} (htr : Tracks cfg i t s fun row => suppliesOf default h row i)
    (ht : cfg.columns[i]? = some t) (hplain : t.Plain) (hbefore : e.before = s)
    (hc : s.currentColumn = some col) (hin : col.In cfg.columns)
    {names : List String} (hkind : col.kind = .union names) (hm : 0 < m) {u : LogicalType}
    (hmember : col.get? m = some (.child col m u))
    (hsupply : e.supply default = some (.beginUnion m))
    (hput : col.topLevel = .top i t → SlotOnly s.rowIdx (s.chunk.sub col.path) v ∧
      v.root = (s.chunk.sub col.path).root ∧ v.child m = (s.chunk.sub col.path).child m ∧
      (FreshAt s.rowIdx (s.chunk.sub col.path) →
        decodeChild col.type.children 0 (v.child 0) s.rowIdx = some (.fixed (m - 1)))) :
    Tracks cfg i t { s with chunk := s.chunk.setSub col.path v, currentColumn := col.get? m }
      fun row => suppliesOf default (h ++ [e]) row i := by
  subst hbefore
  by_cases hi : col.topLevel.idx = i
  · have htop := hin.topLevel_eq ht hi
    obtain ⟨hslot, hroot, hchild, htag⟩ := hput htop
    have hat : e.isAt e.before.rowId i :=
      ⟨rfl, by rw [Appender.currentTopLevelColumn, hc]; exact congrArg some hi⟩
    obtain ⟨hb, hf⟩ := htr.current.at_column hc htop
    have hslot' := hslot.setSub
    rw [hi] at hslot'
    refine htr.within hplain hslot' rfl rfl (fun row hrow => ?_) ?_
    · exact suppliesOf_snoc_of_not fun hx => hrow hx.1.symm
    · rw [suppliesOf_snoc_of_isAt hat hsupply]
      refine .inside hmember htop ⟨?_, _, _, rfl, hb.setSub, ?_⟩ ?_
      · show ((e.before.chunk.setSub col.path v).sub col.path).root.valid e.before.rowIdx = true
        rw [sub_setSub_self, hroot]
        exact hf []
      · show OpenAt ((e.before.chunk.setSub col.path v).sub col.path) _ _ _ _
        rw [sub_setSub_self]
        have htag := htag hf
        cases htype : col.type with
        | node kind cs =>
          rw [Column.kind, htype] at hkind
          obtain rfl : kind = .union names := hkind
          rw [htype] at htag
          exact .union hm htag
      · show FreshAt _ (((e.before.chunk.setSub col.path v).sub col.path).child m)
        rw [sub_setSub_self, hchild]
        exact hf.child m
  · have hsame : (e.before.chunk.setSub col.path v).child i = e.before.chunk.child i :=
      child_setSub_of_ne hi
    have hnot : ∀ row, ¬ e.isAt row i := fun row hx => by
      have := hx.2
      rw [Appender.currentTopLevelColumn, hc] at this
      exact hi (Option.some.inj this)
    simp only [suppliesOf_snoc_of_not (hnot _)]
    refine htr.within hplain ?_ rfl rfl (fun _ _ => rfl) ?_
    · show SlotOnly _ _ ((e.before.chunk.setSub col.path v).child i)
      rw [hsame]
      exact .refl _ _
    · refine htr.current.stays hplain hc hi ?_ rfl hmember rfl
      show SameAt _ _ ((e.before.chunk.setSub col.path v).child i)
      rw [hsame]
      exact .refl _ _

/-- `appendDefault`, where the engine writes the default or the slot has it. -/
theorem Tracks.appendDefault {default : ℕ → Value} {h : List Entry} {e : Entry} {col : Column}
    (htr : Tracks cfg i t s fun row => suppliesOf default h row i) (ht : cfg.columns[i]? = some t)
    (hplain : t.Plain) (heng : cfg.eng.WritesDefaults cfg.columns default)
    (hplace : cfg.eng.DefaultsInPlace cfg.columns) (hbefore : e.before = s)
    (hc : s.currentColumn = some col) (hin : col.In cfg.columns)
    (hsupply : e.supply default = (columnDefault default col).map .value)
    (hopen : s.closed = false) (hfits : DefaultFits cfg default s) :
    Tracks cfg i t (s.supplied cfg col (defaultWritten cfg col s))
      fun row => suppliesOf default (h ++ [e]) row i := by
  obtain ⟨j, u, htopcol, hfits⟩ : ∃ j u, col = .top j u ∧
      ((cfg.eng.appendDefault j s.rowIdx s.chunk).isSome = true ∨
        decode u (s.chunk.child j) s.rowIdx = some (default j)) := by
    rcases hfits with hcl | hnone | ⟨j, u, htop, hfits⟩
    · rw [hopen] at hcl
      cases hcl
    · rw [hc] at hnone
      cases hnone
    · rw [hc] at htop
      exact ⟨j, u, Option.some.inj htop, hfits⟩
  subst htopcol
  subst hbefore
  obtain ⟨⟨d, hd, hvalue⟩, honly, -, -⟩ := defaultStored_of_top (s := e.before) heng hin hfits
  cases hd
  have hslot : SlotOnly e.before.rowIdx (e.before.chunk.child i)
      ((defaultWritten cfg (.top j u) e.before).child i) := by
    unfold defaultWritten
    cases hx : cfg.eng.appendDefault (Column.top j u).idx e.before.rowIdx e.before.chunk with
    | none => exact .refl _ _
    | some v => exact ⟨fun p => ⟨hplace.memory hx i t ht hplain p, rfl, rfl⟩,
        fun k hk => hplace.slots hx i t ht hplain k hk⟩
  by_cases hi : j = i
  · subst hi
    have hcol := hin
    rw [Column.In, ht] at hcol
    cases hcol
    have hat : e.isAt e.before.rowId j :=
      ⟨rfl, by rw [Appender.currentTopLevelColumn, hc]; rfl⟩
    obtain ⟨hb, -⟩ := htr.current.at_column hc rfl
    have hnil : suppliesOf default h e.before.rowId j = [] := hb
    refine htr.within hplain hslot rfl rfl (fun row hrow => ?_) ?_
    · exact suppliesOf_snoc_of_not fun hx => hrow hx.1.symm
    · rw [suppliesOf_snoc_of_isAt hat hsupply, hnil]
      refine .past ?_ (.value hvalue)
      show (match nextColumn cfg.columns (.top j t) with
        | some col => j < col.topLevel.idx
        | none => (some (Column.top j t) : Option Column) ≠ none)
      rw [nextColumn]
      cases cfg.columns[j + 1]? with
      | some u => exact Nat.lt_succ_self j
      | none => exact Option.some_ne_none _
  · have hnot : ∀ row, ¬ e.isAt row i := fun row hx => by
      have := hx.2
      rw [Appender.currentTopLevelColumn, hc] at this
      exact hi (Option.some.inj this)
    simp only [suppliesOf_snoc_of_not (hnot _)]
    refine htr.within hplain hslot rfl rfl (fun _ _ => rfl) ?_
    refine htr.current.elsewhere ht hplain hc hin hi (fun p => ?_) rfl rfl rfl
    obtain ⟨hvalid, hdata⟩ := honly.beside (i :: p) fun hpre =>
      hi (List.cons_prefix_cons.1 hpre).1
    exact ⟨congrFun hvalid _, congrFun hdata _⟩

/-- `beginRow`. -/
theorem Tracks.beginRow {log : ℕ × ℕ → List Supply} (h : Tracks cfg i t s log)
    (ht : cfg.columns[i]? = some t) (hplain : t.Plain) (hc : s.currentColumn = none)
    (hp : s.prevColumn = none) {t₀ : LogicalType} {ts : List LogicalType}
    (hcols : cfg.columns = t₀ :: ts) :
    Tracks cfg i t { s with currentColumn := some (.top 0 t₀) } log := by
  refine h.within hplain (.refl _ _) rfl rfl (fun _ _ => rfl) ?_
  cases h.current with
  | ahead _ hf hlog =>
    by_cases hi : i = 0
    · subst hi
      rw [hcols] at ht
      cases ht
      exact .inside rfl rfl hlog hf
    · exact .ahead (Nat.pos_of_ne_zero hi) hf hlog
  | inside hcur _ _ _ =>
    rw [hc] at hcur
    cases hcur
  | past hcur _ =>
    rw [Appender.Past, hc] at hcur
    exact absurd hp hcur

/-- `endStruct` and `endUnion`. -/
theorem Tracks.endComposite {log : ℕ × ℕ → List Supply} (h : Tracks cfg i t s log)
    (hplain : t.Plain) {p q : Column} (hp : s.prevColumn = some p) :
    Tracks cfg i t { s with prevColumn := some q } log := by
  refine h.within hplain (.refl _ _) rfl rfl (fun _ _ => rfl) ?_
  cases h.current with
  | ahead hcur hf hlog =>
    refine .ahead ?_ hf hlog
    unfold Appender.Ahead at hcur ⊢
    cases hc : s.currentColumn with
    | some col =>
      rw [hc] at hcur
      exact hcur
    | none =>
      rw [hc, hp] at hcur
      cases hcur
  | inside hcur htop hb hf => exact .inside hcur htop hb hf
  | past hcur hcar =>
    refine .past ?_ hcar
    unfold Appender.Past at hcur ⊢
    cases hc : s.currentColumn with
    | some col =>
      rw [hc] at hcur
      exact hcur
    | none => exact Option.some_ne_none q

/-- **One call** keeps the slots of a column in step with what is supplied. -/
theorem Tracks.step {default : ℕ → Value} {h : List Entry}
    (htr : Tracks cfg i t s fun row => suppliesOf default h row i) (ht : cfg.columns[i]? = some t)
    (hplain : t.Plain) (heng : cfg.eng.WritesDefaults cfg.columns default)
    (hplace : cfg.eng.DefaultsInPlace cfg.columns)
    (hinv : ∀ col, s.currentColumn = some col → col.In cfg.columns)
    (hrow : s.closed = false → s.rowIdx < cfg.eng.vectorSize) (hbuf : Resettable cfg s.chunk)
    (c : Call) (n : Natives) (hfits : c = .appendDefault → DefaultFits cfg default s) :
    Tracks cfg i t (final (step cfg c n s))
      fun row => suppliesOf default (h ++ [⟨s, c, n, step cfg c n s⟩]) row i := by
  have hs := step_spec cfg c n s
  generalize DuckDBJava.step cfg c n s = r at hs ⊢
  have hidle : Entry.supply default ⟨s, c, n, r⟩ = none →
      Tracks cfg i t s fun row => suppliesOf default (h ++ [⟨s, c, n, r⟩]) row i :=
    fun he => htr.idle he rfl rfl rfl rfl rfl
  have hwrite : ∀ (a : Append) {col : Column}, s.closed = false → s.currentColumn = some col →
      col.topLevel = .top i t → PutsValue col.type s.rowIdx ((a.stored col.colType).value col.kind)
        (s.chunk.sub col.path) (a.write (s.env cfg) col (s.chunk.sub col.path)) := by
    intro a col hcl hc htop
    have hin := hinv col hc
    have hp := Column.plain_of_topLevel hplain hin htop
    have hk : (s.env cfg).rowIdx < (s.env cfg).eng.vectorSize := hrow hcl
    exact Append.write_plain hp.type (hin.type_wf cfg.tableType.wf) (htr.ready.column hin htop)
      hk hp.arraySize hp.parentArraySize
  have hnull : ∀ {col : Column}, s.closed = false → s.currentColumn = some col →
      col.topLevel = .top i t →
      ∃ v, col.setNull s.rowIdx (s.chunk.sub col.path) = .ok () v ∧
        SlotOnly s.rowIdx (s.chunk.sub col.path) v ∧
        decode col.type v s.rowIdx = some .null := by
    intro col hcl hc htop
    have hin := hinv col hc
    have hp := Column.plain_of_topLevel hplain hin htop
    rw [Column.setNull, hp.arraySize, hp.parentArraySize]
    exact setNullAt_plain hp.type (htr.ready.column hin htop) (hrow hcl)
  have htag : ∀ (tag : String) {col : Column}, s.closed = false → s.currentColumn = some col →
      col.topLevel = .top i t → PutsTag col.type s.rowIdx (col.kind.member tag)
        (s.chunk.sub col.path) (putUnionTag col s.rowIdx tag (s.chunk.sub col.path)) := by
    intro tag col hcl hc htop
    have hin := hinv col hc
    have hp := Column.plain_of_topLevel hplain hin htop
    exact putUnionTag_plain hp.type (hin.type_wf cfg.tableType.wf) (htr.ready.column hin htop)
      (hrow hcl) hp.arraySize tag
  cases hs with
  | refused | closeAgain => exact hidle rfl
  | beginRow _ hc hp hcols =>
    exact (hidle rfl).beginRow ht hplain hc hp hcols
  | beginStruct _ hc hstruct hfield =>
    exact htr.beginStruct ht hplain rfl (by simp [Entry.supply, hc]) hc (hinv _ hc) hstruct hfield
  | endStruct _ hp _ _ | endUnion _ hp _ =>
    exact (hidle rfl).endComposite hplain hp
  | @beginUnion _ _ tag _ _ _ hcl hc hunion hx =>
    obtain ⟨names, hkind, hm⟩ := putUnionTag_eq_ok hx
    obtain ⟨hpos, u, hmember⟩ := putUnionTag_member cfg.tableType.wf (hinv _ hc) hx
    refine htr.beginUnion ht hplain rfl hc (hinv _ hc) hkind hpos hmember
      (by simp [Entry.supply, hc, hkind, TypeKind.member, hm]) fun htop => ?_
    have hput := htag tag hcl hc htop
    rw [hx] at hput
    cases hput with
    | stored hslot _ hroot hchild hdecode => exact ⟨hslot, hroot, hchild, hdecode⟩
  | @beginUnionFailed _ _ tag _ _ _ hcl hc hunion hx =>
    refine (hidle rfl).written ht hplain hc (hinv _ hc) fun htop => ?_
    have hput := htag tag hcl hc htop
    rw [hx] at hput
    cases hput with
    | refused => exact ⟨.refl _ _, .refl _ _⟩
  | @append _ _ a _ _ hcl hc hx =>
    refine htr.supplied ht hplain rfl hc (hinv _ hc) (Entry.supply_append hc) fun htop => ?_
    have hput := hwrite a hcl hc htop
    rw [hx] at hput
    cases hput with
    | stored hslot hvalue hdecode => exact ⟨_, hvalue, hslot, fun hf => hdecode (hf [])⟩
  | @appendFailed _ _ a _ _ _ hcl hc hx =>
    refine (hidle rfl).written ht hplain hc (hinv _ hc) fun htop => ?_
    have hput := hwrite a hcl hc htop
    rw [hx] at hput
    cases hput with
    | thrown hslot hsame => exact ⟨hslot, hsame⟩
  | appendNull hcl hc hx =>
    refine htr.supplied ht hplain rfl hc (hinv _ hc) (Entry.supply_appendNull hc) fun htop => ?_
    obtain ⟨v, hv, hslot, hdecode⟩ := hnull hcl hc htop
    rw [hx] at hv
    cases hv
    exact ⟨_, rfl, hslot, fun _ => hdecode⟩
  | appendNullFailed hcl hc hx =>
    refine (hidle rfl).written ht hplain hc (hinv _ hc) fun htop => ?_
    obtain ⟨v, hv, -, -⟩ := hnull hcl hc htop
    rw [hx] at hv
    cases hv
  | appendDefault hcl hc =>
    exact htr.appendDefault ht hplain heng hplace rfl hc (hinv _ hc) (by simp [Entry.supply, hc])
      hcl (hfits rfl)
  | endRow _ hr _ =>
    obtain ⟨hc, p, hp, -⟩ := rowCompletedInvariant_eq hr
    exact (hidle rfl).ended hc (by simp [hp])
  | endRowFlushed _ hr _ hx =>
    obtain ⟨hc, p, hp, -⟩ := rowCompletedInvariant_eq hr
    exact ((hidle rfl).ended hc (by simp [hp])).flush ht hplain hbuf (flushed_of_eq hx)
  | endRowFailed _ hr _ hx =>
    obtain ⟨hchunk, hrowIdx, hgen⟩ := (flushed_of_eq hx).same hbuf
    refine htr.idle rfl hchunk ?_ hgen (flush_cursor_error hx).1 rfl
    show _ - 1 = s.rowIdx
    rw [hrowIdx]
    rfl
  | flush hx | flushFailed hx => exact (hidle rfl).flush ht hplain hbuf (flushed_of_eq hx)
  | closeEmpty => exact (hidle rfl).closing
  | close => exact ((hidle rfl).flush ht hplain hbuf (flush_spec cfg n s)).closing

end

/-! ## Runs -/

/-- What is asked of the calls of a run: the chunk can be reset, and the engine can write a default
    where one is appended. -/
def Entry.fits (cfg : Config) (default : ℕ → Value) (e : Entry) : Prop :=
  Resettable cfg e.before.chunk ∧ (e.call = .appendDefault → DefaultFits cfg default e.before)

theorem tracks_create {cfg : Config} {s₀ : Appender} (h₀ : create cfg = .ok s₀)
    {default : ℕ → Value} {i : ℕ} {t : LogicalType} (ht : cfg.columns[i]? = some t)
    (hplain : t.Plain) : Tracks cfg i t s₀ fun row => suppliesOf default [] row i := by
  obtain ⟨-, chunk, hx, rfl⟩ := create_eq_ok.1 h₀
  have hfresh : ∀ k, FreshAt k _ := fun k =>
    fresh_of_resetColumns (i := i) (k := k) hx fun _ => rfl
  exact ⟨ready_of_resetColumns ht hplain hx, fun k hk => absurd hk (Nat.not_lt_zero k),
    .ahead rfl (hfresh 0) rfl, fun k _ => ⟨hfresh k, rfl⟩, fun _ _ _ => rfl⟩

/-- **Every run** keeps the slots of a column in step with what it supplies. -/
theorem tracks_exec {cfg : Config} {s₀ : Appender} (h₀ : create cfg = .ok s₀)
    {default : ℕ → Value} (heng : cfg.eng.WritesDefaults cfg.columns default)
    (hplace : cfg.eng.DefaultsInPlace cfg.columns) {i : ℕ} {t : LogicalType}
    (ht : cfg.columns[i]? = some t) (hplain : t.Plain) {calls : List (Call × Natives)}
    (hfits : ∀ e ∈ history cfg s₀ calls, e.fits cfg default) :
    Tracks cfg i t (exec cfg s₀ calls)
      fun row => suppliesOf default (history cfg s₀ calls) row i := by
  induction calls using List.reverseRecOn with
  | nil => exact tracks_create h₀ ht hplain
  | append_singleton calls c ih =>
    obtain ⟨c, n⟩ := c
    rw [history_snoc] at hfits ⊢
    rw [exec_snoc]
    obtain ⟨hbuf, hdefault⟩ := hfits _ (List.mem_append_right _ (List.mem_singleton.2 rfl))
    have hinv := cursorInv_history h₀ calls
    exact (ih fun e he => hfits e (List.mem_append_left _ he)).step ht hplain heng hplace
      (fun col hc => (hinv.cur col hc).1) (rowIdx_lt_exec h₀ calls) hbuf c n hdefault

end DuckDBJava
