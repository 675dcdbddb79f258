/-
  Invariants of all vectors of the chunk.

  What every write keeps at every vector (`KeptByWrites`) holds of all of them in every state of a
  run, where the engine's defaults keep it too and no buffer fails to be fetched.
-/
import DuckDBJava.Appender.Writes

namespace DuckDBJava

open Exec PathTree

variable {F : TypeKind → Cell → Prop} {I : Column → ColState → Prop}

/-! ## Runs -/

variable {cfg : Config}

/-- `I` holds of all vectors of the chunk. -/
def ChunkAll (I : Column → ColState → Prop) (cfg : Config) (chunk : Vec) : Prop :=
  ∀ i t, cfg.columns[i]? = some t → All I (.top i t) (chunk.child i)

theorem ChunkAll.column {chunk : Vec} (h : ChunkAll I cfg chunk) {col : Column} :
    col.In cfg.columns → All I col (chunk.sub col.path) := by
  induction col with
  | top i t => exact h i t
  | child p i t ih =>
    rintro ⟨hp, ht⟩
    exact (ih hp).child (by rw [Column.get?, ht]; rfl)

theorem all_of_columns {chunk : Vec}
    (h : ∀ col : Column, col.In cfg.columns → I col (chunk.sub col.path).root) :
    ∀ (t : LogicalType) (col : Column), col.type = t → col.In cfg.columns →
      All I col (chunk.sub col.path) := by
  intro t
  induction t using LogicalType.ind with
  | h kind cs ih =>
    intro col ht hin
    refine .node (h col hin) fun i d hd => ?_
    have hdin := hin.get? hd
    obtain ⟨u, hu, rfl⟩ := Column.get?_eq hd
    rw [ht] at hu
    exact ih u (List.mem_of_getElem? hu) _ rfl hdin

/-- Column by column. -/
theorem chunkAll_iff {chunk : Vec} : ChunkAll I cfg chunk ↔
    ∀ col : Column, col.In cfg.columns → I col (chunk.sub col.path).root :=
  ⟨fun h _ hin => (h.column hin).root,
    fun h i t ht => all_of_columns h t (.top i t) rfl ht⟩

theorem ChunkAll.setSub (hI : KeptByWrites F I) {chunk c : Vec} (h : ChunkAll I cfg chunk)
    {col : Column} (hin : col.In cfg.columns) (hw : Puts F col (chunk.sub col.path) c) :
    ChunkAll I cfg (chunk.setSub col.path c) := by
  induction col generalizing c with
  | top i t =>
    intro j u hu
    show All I (.top j u) ((chunk.setChild i c).child j)
    by_cases hj : j = i
    · subst hj
      obtain rfl : u = t := Option.some.inj (hu.symm.trans hin)
      rw [child_setChild_self]
      exact hw.all hI (h j u hu)
    · rw [child_setChild_ne hj]
      exact h j u hu
  | child p i t ih => exact ih hin.1 (hw.child hin.get?_parent)

theorem chunkAll_reset (hI : KeptByWrites F I) {chunk chunk' : Vec} {u : Unit}
    (h : ChunkAll I cfg chunk) (hx : resetColumns cfg.eng 0 cfg.columns chunk = .ok u chunk') :
    ChunkAll I cfg chunk' := by
  rw [resetColumns_eq] at hx
  intro i t ht
  have hf := (resetChildren_fetched cfg.columns hx).2 i t ht
  rw [Nat.zero_add] at hf
  exact hf.all hI rfl (h i t ht)

/-- A call whose writes keep `I`: the values of `appendDecimal` are admitted, the default of the
    engine keeps `I`, and no buffer fails to be fetched. -/
structure Admitted (F : TypeKind → Cell → Prop) (I : Column → ColState → Prop) (cfg : Config)
    (e : Entry) : Prop where
  decimals : ∀ a col, e.call = .append a → e.before.currentColumn = some col →
    ∀ t cell, a.stored col.colType = .decimal t cell → ∀ p s, col.kind = .decimal t p s →
      F col.kind cell
  default : ∀ col, e.call = .appendDefault → e.before.currentColumn = some col →
    ChunkAll I cfg e.before.chunk → ChunkAll I cfg (defaultWritten cfg col e.before)
  buffers : ∀ x t, e.result = .error x t → x.isReset = false

theorem sharesSlots_of_colType {kind : TypeKind}
    (h : kind.colType = .struct ∨ kind.colType = .union) : kind.sharesSlots = true := by
  cases kind with
  | list | map | array _ => rcases h with h | h <;> cases h
  | _ => rfl

/-- The cursor is at no element. -/
theorem Before.nested {columns : List LogicalType} {col : Column} :
    ∀ {log : List Event}, Before columns col log → col.nested = false := by
  induction col with
  | top i t => exact fun _ => rfl
  | child p i t ih =>
    rintro log ⟨l, l', _, hp, ho⟩
    rw [Column.nested, ih hp, Bool.or_false]
    have hs : p.kind.sharesSlots = true := by
      cases ho with
      | struct ht _ => exact sharesSlots_of_colType (.inl ht)
      | union ht _ => exact sharesSlots_of_colType (.inr ht)
    rw [hs]
    rfl

theorem dataChunkReset_all (hI : KeptByWrites F I) {chunk chunk' : Vec} {u : Unit}
    (h : ChunkAll I cfg chunk)
    (hx : resetColumns cfg.eng 0 cfg.columns (dataChunkReset cfg.eng chunk) = .ok u chunk') :
    ChunkAll I cfg chunk' := by
  rw [resetColumns_eq] at hx
  intro i t ht
  have hf := (resetChildren_fetched cfg.columns hx).2 i t ht
  rw [Nat.zero_add] at hf
  have hdata : ∀ p, ((dataChunkReset cfg.eng chunk).child i p).data = (chunk.child i p).data :=
    fun _ => rfl
  exact (hf.of_data hdata).all hI rfl (h i t ht)

/-- One call of an appender that stays open. -/
theorem ChunkAll.step (hF : Conversions F) (hI : KeptByWrites F I) {s : Appender}
    {log : List Event} (h : ChunkAll I cfg s.chunk) (hinv : CursorInv cfg s log) {c : Call}
    {n : Natives} (hk : Admitted F I cfg ⟨s, c, n, DuckDBJava.step cfg c n s⟩)
    (hopen : (final (DuckDBJava.step cfg c n s)).closed = false) :
    ChunkAll I cfg (final (DuckDBJava.step cfg c n s)).chunk := by
  have hwf : ∀ {col}, s.currentColumn = some col → col.type.Wf := fun hc =>
    (hinv.cur _ hc).1.type_wf cfg.tableType.wf
  refine step_chunk (R := Puts F) h (fun _ _ hc hv => h.setSub hI (hinv.cur _ hc).1 hv)
    (fun _ _ hc => putUnionTag_writes hF (hwf hc) _ _)
    (fun _ _ hcall hc => Append.write_writes hF (hwf hc) (hinv.cur _ hc).2.nested
      (hk.decimals _ _ hcall hc))
    (fun _ _ => Column.setNull_writes _ _) (fun _ hcall hc => hk.default _ hcall hc h)
    (fun _ _ _ _ hx => dataChunkReset_all hI h hx) hk.buffers hopen

/-- **What every write keeps** holds of all vectors in every state of a run. -/
theorem chunkAll_exec (hF : Conversions F) (hI : KeptByWrites F I)
    (hnew : ∀ col, I col newChunk.root) {s₀ : Appender} (h₀ : create cfg = .ok s₀)
    {calls : List (Call × Natives)}
    (hk : ∀ e ∈ history cfg s₀ calls, Admitted F I cfg e)
    (hopen : (exec cfg s₀ calls).closed = false) : ChunkAll I cfg (exec cfg s₀ calls).chunk := by
  have hstart : ChunkAll I cfg newChunk := chunkAll_iff.2 fun col _ => by
    rw [root, sub_apply]
    exact hnew col
  refine exec_chunk h₀ ?_ (fun _ _ _ _ hinv hq hopen h => h.step hF hI hinv hq hopen) hk hopen
  obtain ⟨-, chunk, hx, rfl⟩ := create_eq_ok.1 h₀
  exact chunkAll_reset hI hstart hx

end DuckDBJava
