/-
  Bracket discipline: which `begin*` call an `end*` call closes.

  The code keeps no stack of open composites; it looks at the parent of the last column only.  A
  call is `Disciplined` when it does not go on while a completed composite is still open.  In a
  run of such calls the stack of open composites is always that of the columns around the
  cursor (`Place`), so every `end*` call that returns normally closes the innermost one.
-/
import DuckDBJava.Appender.Rows

namespace DuckDBJava

open Exec PathTree

/-- The columns around a column, innermost first. -/
def Column.ancestors : Column → List Column
  | top .. => []
  | child p _ _ => p :: p.ancestors

/-- The open composites after a call, innermost first. -/
def Entry.opens (e : Entry) (stack : List Column) : List Column :=
  if isOk e.result then
    match e.call, e.before.currentColumn with
    | .beginRow, _ => []
    | .beginStruct, some col | .beginUnion _, some col => col :: stack
    | .endStruct, _ | .endUnion, _ => stack.tail
    | _, _ => stack
  else stack

/-- The composites begun since the last `beginRow` and not ended. -/
def openStack (h : List Entry) : List Column := h.foldl (fun stack e => e.opens stack) []

theorem openStack_snoc (h : List Entry) (e : Entry) :
    openStack (h ++ [e]) = e.opens (openStack h) := by
  simp [openStack]

/-- The discipline of one call after the calls in `h`. -/
structure BracketsKept (h : List Entry) (e : Entry) : Prop where
  endRow : e.call = .endRow → isOk e.result → openStack h = []
  /-- the innermost open composite is a `STRUCT`, all of whose fields have been supplied -/
  endStruct : e.call = .endStruct → isOk e.result → ∃ col rest l l',
    openStack h = col :: rest ∧ col.colType = .struct ∧
      rowLog h = l ++ .beginStruct col :: l' ∧ FieldsTo col col.childCount l'
  /-- the innermost open composite is a `UNION`, whose selected member has been supplied -/
  endUnion : e.call = .endUnion → isOk e.result → ∃ col rest m field l l',
    openStack h = col :: rest ∧ col.colType = .union ∧ col.get? m = some field ∧
      rowLog h = l ++ .beginUnion col m :: l' ∧ Supplied field l'
  refused : e.call = .endRow ∨ e.call = .endStruct ∨ e.call = .endUnion → ¬ isOk e.result →
    ∃ x t, e.result = .error x t ∧ x.isSql ∧ t.currentColumn = e.before.currentColumn ∧
      t.prevColumn = e.before.prevColumn

/-- Every call of a run keeps the discipline. -/
def AllBracketsKept (h : List Entry) : Prop := ∀ l e l', h = l ++ e :: l' → BracketsKept l e

/-- No completed composite is open: the last column is at the top, or the cursor is still within
    its parent. -/
def Appender.tidy (s : Appender) : Bool :=
  match s.prevColumn with
  | some (.child q _ _) => s.currentColumn.any fun c => q.path.isSuffixOf c.path
  | _ => true

/-- The calls that go on in the row, or end it, do so from a tidy state. -/
def Disciplined (c : Call) (s : Appender) : Prop :=
  match c with
  | .append _ | .appendNull | .appendDefault | .beginStruct | .beginUnion _ | .endRow => s.tidy
  | _ => True

instance : (c : Call) → (s : Appender) → Decidable (Disciplined c s)
  | .append _, s | .appendNull, s | .appendDefault, s | .beginStruct, s | .beginUnion _, s
  | .endRow, s => inferInstanceAs (Decidable (s.tidy = true))
  | .beginRow, _ | .endStruct, _ | .endUnion, _ | .flush, _ | .close, _ =>
    inferInstanceAs (Decidable True)

/-! ## Siblings -/

/-- The next column with the same parent. -/
def nextSibling (columns : List LogicalType) : Column → Option Column
  | .top i _ => columns[i + 1]?.map (.top (i + 1))
  | .child q i _ => if q.colType = .union then none else q.get? (i + 1)

theorem nextSibling_ancestors {columns : List LogicalType} {p d : Column}
    (h : nextSibling columns p = some d) : d.ancestors = p.ancestors := by
  cases p with
  | top i t =>
    simp only [nextSibling, Option.map_eq_some_iff] at h
    obtain ⟨u, _, rfl⟩ := h; rfl
  | child q i t =>
    simp only [nextSibling] at h
    split at h
    · cases h
    · obtain ⟨u, _, rfl⟩ := Column.get?_eq h; rfl

/-- The next column is not within the column. -/
theorem nextColumn_not_below {columns : List LogicalType} : ∀ {p d : Column},
    nextColumn columns p = some d → ¬ p.path <:+ d.path
  | .top i t, d, h => by
    simp only [nextColumn, Option.map_eq_some_iff] at h
    obtain ⟨u, _, rfl⟩ := h
    intro hs
    have := child_eq_of_suffix hs (List.suffix_refl [i + 1])
    omega
  | .child q i t, d, h => by
    rw [nextColumn] at h
    intro hs
    have hq : q.path <:+ d.path := (List.suffix_cons i _).trans hs
    split at h
    · exact nextColumn_not_below h hq
    · split at h
      · next hg =>
        cases h
        obtain ⟨u, _, rfl⟩ := Column.get?_eq hg
        have := child_eq_of_suffix hs (List.suffix_refl _)
        omega
      · exact nextColumn_not_below h hq

/-- Within the parent of a column, the next column is a sibling. -/
theorem nextSibling_of_below {columns : List LogicalType} {p d : Column}
    (h : nextColumn columns p = some d)
    (hb : ∀ q i t, p = .child q i t → q.path <:+ d.path) : nextSibling columns p = some d := by
  cases p with
  | top i t => exact h
  | child q i t =>
    have hq := hb q i t rfl
    rw [nextColumn] at h
    rw [nextSibling]
    split at h
    · exact absurd hq (nextColumn_not_below h)
    · next hu =>
      rw [if_neg hu]
      split at h
      · next hg => rw [hg]; exact h
      · exact absurd hq (nextColumn_not_below h)

/-! ## Where the cursor is -/

/-- The cursor, the open composites and the log of the row. -/
inductive Place (cfg : Config) (s : Appender) (stack : List Column) (log : List Event) : Prop
  | between : s.currentColumn = none → s.prevColumn = none → stack = [] → Place cfg s stack log
  /-- a column is next, and the last one was an earlier sibling of it or of a column around it -/
  | next (c : Column) : s.currentColumn = some c → stack = c.ancestors →
      (∀ p, s.prevColumn = some p → ∃ d, nextSibling cfg.columns p = some d ∧ d.path <:+ c.path) →
      Place cfg s stack log
  /-- a column has just been supplied -/
  | after (p : Column) : s.prevColumn = some p → s.currentColumn = nextColumn cfg.columns p →
      stack = p.ancestors →
      (∃ l l', log = l ++ l' ∧ Before cfg.columns p l ∧ Supplied p l') → Place cfg s stack log

variable {cfg : Config}

theorem Place.congr {s t : Appender} {stack : List Column} {log : List Event}
    (h : Place cfg s stack log) (hc : t.currentColumn = s.currentColumn)
    (hp : t.prevColumn = s.prevColumn) : Place cfg t stack log := by
  cases h with
  | between h1 h2 h3 => exact .between (hc.trans h1) (hp.trans h2) h3
  | next c h1 h2 h3 => exact .next c (hc.trans h1) h2 (by rw [hp]; exact h3)
  | after p h1 h2 h3 h4 => exact .after p (hp.trans h1) (hc.trans h2) h3 h4

/-- In a tidy state with a current column, that column is next. -/
theorem Place.tidy {s : Appender} {stack : List Column} {log : List Event} {c : Column}
    (h : Place cfg s stack log) (hc : s.currentColumn = some c) (ht : s.tidy = true) :
    stack = c.ancestors ∧
      ∀ p, s.prevColumn = some p → ∃ d, nextSibling cfg.columns p = some d ∧ d.path <:+ c.path := by
  cases h with
  | between h1 => rw [h1] at hc; cases hc
  | next c' h1 h2 h3 => rw [h1] at hc; cases hc; exact ⟨h2, h3⟩
  | after p h1 h2 h3 h4 =>
    have hsib : nextSibling cfg.columns p = some c := by
      refine nextSibling_of_below (h2.symm.trans hc) fun q i t hp => ?_
      subst hp
      simpa [Appender.tidy, h1, hc] using ht
    refine ⟨h3.trans (nextSibling_ancestors hsib).symm, fun p' hp' => ?_⟩
    rw [h1] at hp'; cases hp'
    exact ⟨c, hsib, List.suffix_refl _⟩

/-- Where an `end*` call can return normally. -/
theorem Place.after_of_prev {s : Appender} {stack : List Column} {log : List Event} {q : Column}
    {i : ℕ} {t : LogicalType} (h : Place cfg s stack log)
    (hp : s.prevColumn = some (.child q i t)) (hn : nextSibling cfg.columns (.child q i t) = none) :
    s.currentColumn = nextColumn cfg.columns (.child q i t) ∧ stack = q :: q.ancestors ∧
      ∃ l l', log = l ++ l' ∧ Before cfg.columns (.child q i t) l ∧ Supplied (.child q i t) l' := by
  cases h with
  | between _ h2 => rw [h2] at hp; cases hp
  | next c _ _ h3 =>
    obtain ⟨d, hd, _⟩ := h3 _ hp
    rw [hn] at hd; cases hd
  | after p h1 h2 h3 h4 => rw [h1] at hp; cases hp; exact ⟨h2, h3, h4⟩

theorem nextSibling_last {columns : List LogicalType} {q : Column} {i : ℕ} {t : LogicalType}
    (h : i + 1 = q.childCount) : nextSibling columns (.child q i t) = none := by
  rw [nextSibling]; split
  · rfl
  · exact Column.get?_eq_none.2 (by omega)

theorem nextSibling_member {columns : List LogicalType} {q : Column} {i : ℕ} {t : LogicalType}
    (h : q.colType = .union) : nextSibling columns (.child q i t) = none := by
  rw [nextSibling, if_pos h]

/-- The log when the last field of a `STRUCT` has been supplied. -/
theorem struct_log {columns : List LogicalType} {q : Column} {i : ℕ} {t : LogicalType}
    {l l' : List Event} (hin : (Column.child q i t).In columns) (hq : q.colType = .struct)
    (hi : i + 1 = q.childCount) (hb : Before columns (.child q i t) l)
    (hs : Supplied (.child q i t) l') :
    ∃ l₁ l₂, l ++ l' = l₁ ++ .beginStruct q :: l₂ ∧ Before columns q l₁ ∧
      FieldsTo q q.childCount l₂ := by
  obtain ⟨l₁, lo, rfl, hl₁, ho⟩ := hb
  cases ho with
  | @struct lf _ hf =>
    refine ⟨l₁, lf ++ l', by simp, hl₁, ?_⟩
    rw [← hi]
    exact .succ hf hin.get?_parent hs
  | union hu => rw [hq] at hu; cases hu

/-- The log when the member of a `UNION` has been supplied. -/
theorem union_log {columns : List LogicalType} {q : Column} {i : ℕ} {t : LogicalType}
    {l l' : List Event} (hq : q.colType = .union) (hb : Before columns (.child q i t) l) :
    ∃ l₁, l ++ l' = l₁ ++ .beginUnion q i :: l' ∧ Before columns q l₁ ∧ 0 < i := by
  obtain ⟨l₁, lo, rfl, hl₁, ho⟩ := hb
  cases ho with
  | struct hs => rw [hq] at hs; cases hs
  | union _ hi => exact ⟨l₁, by simp, hl₁, hi⟩

theorem Place.supplied {s : Appender} {stack : List Column} {log : List Event} {c : Column}
    (v : Vec) (h : Place cfg s stack log) (hinv : CursorInv cfg s log)
    (hc : s.currentColumn = some c) (ht : s.tidy = true) :
    Place cfg (s.supplied cfg c v) stack (log ++ [.whole c]) :=
  .after c rfl rfl (h.tidy hc ht).1 ⟨log, _, rfl, (hinv.cur c hc).2, .whole⟩

/-- In a tidy state at the end of a row no composite is open. -/
theorem Place.stack_eq_nil {s : Appender} {stack : List Column} {log : List Event} {p : Column}
    (h : Place cfg s stack log) (hc : s.currentColumn = none) (hp : s.prevColumn = some p)
    (ht : s.tidy = true) : stack = [] := by
  cases h with
  | between _ _ h3 => exact h3
  | next c h1 => rw [h1] at hc; cases hc
  | after p' h1 _ h3 _ =>
    rw [h1] at hp; cases hp
    cases p with
    | top => exact h3
    | child q i t => simp [Appender.tidy, h1, hc] at ht

/-- One disciplined call keeps the place, and keeps the brackets. -/
theorem Place.step {s : Appender} {h : List Entry} (hp : Place cfg s (openStack h) (rowLog h))
    (hinv : CursorInv cfg s (rowLog h)) {c : Call} {n : Natives} (hd : Disciplined c s) :
    let e : Entry := ⟨s, c, n, DuckDBJava.step cfg c n s⟩
    Place cfg (final e.result) (e.opens (openStack h)) (e.extend (rowLog h)) ∧
      BracketsKept h e := by
  have hw := cfg.tableType.wf
  have hs := step_spec cfg c n s
  intro e
  simp only [e]
  generalize DuckDBJava.step cfg c n s = r at hs ⊢
  cases hs with
  | refused _ he =>
    exact ⟨hp, by simp, by simp, by simp, fun _ _ => ⟨_, _, rfl, he, rfl, rfl⟩⟩
  | beginRow _ hc hprev =>
    refine ⟨.next _ rfl rfl fun p hp' => ?_, by simp, by simp, by simp, by simp⟩
    rw [final_ok] at hp'
    simp [hprev] at hp'
  | @beginStruct _ _ col field _ hc ht hf =>
    obtain ⟨h1, h2⟩ := hp.tidy hc hd
    obtain ⟨t, _, rfl⟩ := Column.get?_eq hf
    refine ⟨.next _ rfl ?_ fun p hp' => ?_, by simp, by simp, by simp, by simp⟩
    · simp [Entry.opens, hc, h1, Column.ancestors]
    · obtain ⟨d, hd1, hd2⟩ := h2 p hp'
      exact ⟨d, hd1, hd2.trans (List.suffix_cons _ _)⟩
  | @beginUnion _ _ _ col m v _ hc ht hx =>
    obtain ⟨h1, h2⟩ := hp.tidy hc hd
    obtain ⟨_, t, hg⟩ := putUnionTag_member hw (hinv.cur col hc).1 hx
    refine ⟨.next _ hg ?_ fun p hp' => ?_, by simp, by simp, by simp, by simp⟩
    · simp [Entry.opens, hc, h1, Column.ancestors]
    · obtain ⟨d, hd1, hd2⟩ := h2 p hp'
      exact ⟨d, hd1, hd2.trans (List.suffix_cons _ _)⟩
  | beginUnionFailed => exact ⟨hp.congr rfl rfl, by simp, by simp, by simp, by simp⟩
  | endStruct _ hprev hq hi =>
    obtain ⟨h1, h2, l, l', hl, hb, hsup⟩ := hp.after_of_prev hprev (nextSibling_last hi)
    obtain ⟨l₁, l₂, heq, hb₁, hf⟩ := struct_log (hinv.prev _ hprev) hq hi hb hsup
    refine ⟨.after _ rfl (h1.trans (nextColumn_last hi)) ?_ ⟨l₁, _, ?_, hb₁, .struct hq hf⟩,
      by simp, fun _ _ => ⟨_, _, l₁, l₂, h2, hq, hl.trans heq, hf⟩, by simp, by simp⟩
    · simp [Entry.opens, h2]
    · simp [Entry.extend, Entry.event, hl, heq]
  | @endUnion _ _ q i t _ hprev hq =>
    obtain ⟨h1, h2, l, l', hl, hb, hsup⟩ := hp.after_of_prev hprev (nextSibling_member hq)
    obtain ⟨l₁, heq, hb₁, hi⟩ := @union_log _ _ _ _ _ l' hq hb
    have hg := (hinv.prev _ hprev).get?_parent
    refine ⟨.after _ rfl (h1.trans (nextColumn_member hq)) ?_
      ⟨l₁, _, ?_, hb₁, .union hq hi hg hsup⟩, by simp, by simp,
      fun _ _ => ⟨_, _, i, _, l₁, l', h2, hq, hg, hl.trans heq, hsup⟩, by simp⟩
    · simp [Entry.opens, h2]
    · simp [Entry.extend, Entry.event, hl, heq]
  | append _ hc _ | appendNull _ hc _ | appendDefault _ hc =>
    refine ⟨?_, by simp, by simp, by simp, by simp⟩
    simp only [Entry.extend, Entry.opens, isOk_ok, ↓reduceIte, Entry.event, hc, Option.toList_some,
      final_ok]
    exact hp.supplied _ hinv hc hd
  | appendFailed | appendNullFailed => exact ⟨hp.congr rfl rfl, by simp, by simp, by simp, by simp⟩
  | endRow _ hr _ =>
    obtain ⟨hc, p, hprev, _⟩ := rowCompletedInvariant_eq hr
    have hstack := hp.stack_eq_nil hc hprev hd
    refine ⟨.between ?_ ?_ ?_, fun _ _ => hstack, by simp, by simp, by simp⟩
    · simp [hc]
    · simp
    · simp [Entry.opens, hstack]
  | endRowFlushed _ hr _ hx =>
    obtain ⟨hc, p, hprev, _⟩ := rowCompletedInvariant_eq hr
    have hstack := hp.stack_eq_nil hc hprev hd
    obtain ⟨h1, h2, _⟩ := flush_cursor_ok hx
    refine ⟨.between ?_ ?_ ?_, fun _ _ => hstack, by simp, by simp, by simp⟩
    · simp [h1, hc]
    · simp [h2]
    · simp [Entry.opens, hstack]
  | endRowFailed _ hr _ hx =>
    obtain ⟨h1, _, _⟩ := flush_cursor_error hx
    have he := (flushed_of_eq hx).isSql
    exact ⟨hp.congr h1 rfl, by simp, by simp, by simp, fun _ _ => ⟨_, _, rfl, he, h1, rfl⟩⟩
  | flush hx =>
    obtain ⟨h1, h2, _⟩ := flush_cursor_ok hx
    refine ⟨?_, by simp, by simp, by simp, by simp⟩
    simpa [Entry.extend, Entry.opens, Entry.event] using hp.congr h1 h2
  | flushFailed hx =>
    obtain ⟨h1, h2, _⟩ := flush_cursor_error hx
    exact ⟨hp.congr h1 h2, by simp, by simp, by simp, by simp⟩
  | closeAgain =>
    refine ⟨?_, by simp, by simp, by simp, by simp⟩
    simpa [Entry.extend, Entry.opens, Entry.event] using hp
  | closeEmpty =>
    refine ⟨?_, by simp, by simp, by simp, by simp⟩
    simpa [Entry.extend, Entry.opens, Entry.event] using
      hp.congr (closing_cursor n s).1 (closing_cursor n s).2
  | close =>
    have h1 := flush_cursor cfg n s
    have h2 := closing_cursor n (final (DuckDBJava.flush cfg n s))
    refine ⟨?_, by simp, by simp, by simp, by simp⟩
    simpa [Entry.extend, Entry.opens, Entry.event] using
      hp.congr (h2.1.trans h1.1) (h2.2.trans h1.2.1)

theorem place_history {s₀ : Appender} (h₀ : create cfg = .ok s₀) {calls : List (Call × Natives)}
    (hd : ∀ e ∈ history cfg s₀ calls, Disciplined e.call e.before) :
    Place cfg (exec cfg s₀ calls) (openStack (history cfg s₀ calls))
        (rowLog (history cfg s₀ calls)) ∧
      AllBracketsKept (history cfg s₀ calls) := by
  induction calls using List.reverseRecOn with
  | nil =>
    obtain ⟨hc, hp⟩ := create_cursor h₀
    exact ⟨.between hc hp rfl, fun l e l' h => by simp [history] at h⟩
  | append_singleton calls c ih =>
    obtain ⟨c, n⟩ := c
    rw [history_snoc] at hd ⊢
    obtain ⟨ih1, ih2⟩ := ih fun e he => hd e (List.mem_append_left _ he)
    have hlast := hd _ (List.mem_append_right _ (List.mem_singleton.2 rfl))
    obtain ⟨h1, h2⟩ := ih1.step (cursorInv_history h₀ calls) (n := n) hlast
    rw [exec_snoc, openStack_snoc, rowLog_snoc]
    refine ⟨h1, fun l e l' h => ?_⟩
    rcases List.eq_nil_or_concat' l' with rfl | ⟨l', e', rfl⟩
    · obtain ⟨rfl, he⟩ := List.append_inj' h rfl
      cases he; exact h2
    · rw [← List.cons_append, ← List.append_assoc] at h
      exact ih2 l e l' (List.append_inj' h rfl).1

/-- **Bracket discipline of the runs whose calls are disciplined.** -/
theorem bracket_discipline {s₀ : Appender} (h₀ : create cfg = .ok s₀)
    {calls : List (Call × Natives)}
    (hd : ∀ e ∈ history cfg s₀ calls, Disciplined e.call e.before) :
    AllBracketsKept (history cfg s₀ calls) :=
  (place_history h₀ hd).2

theorem bracket_discipline_structRow :
    AllBracketsKept (history (.plain structTable) (Config.plain structTable).start structRow) :=
  bracket_discipline (create_eq_start (by decide)) (by decide)

/-- Without `endStruct`: the last field and the last column have the same index. -/
theorem endRow_in_struct : ¬ ∀ (cfg : Config) (s₀ : Appender), create cfg = .ok s₀ →
    ∀ calls : List (Call × Natives), AllBracketsKept (history cfg s₀ calls) := by
  intro h
  let calls : List (Call × Natives) := [.beginRow, .beginStruct, .append (.int 1)].map (·, .success)
  have hk := h (.plain structTable) _ (create_eq_start (by decide))
    (calls ++ [(.endRow, .success)]) _ _ [] (history_snoc _ _ calls .endRow .success)
  have hopen := hk.endRow rfl (by decide)
  revert hopen
  exact List.cons_ne_nil _ _

end DuckDBJava
