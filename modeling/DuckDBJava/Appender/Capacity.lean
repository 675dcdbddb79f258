/-
  The element count of the buffers and the capacity of the vectors.

  `maxElementsCount` multiplies the entries of the nearest vector with a size of its own (the chunk
  or the child of a `LIST` or `MAP`) by `arraySize` and `parentArraySize`; the capacity of the
  vector is the product along the whole path.
-/
import DuckDBJava.Appender.Sizes
import DuckDBJava.Appender.Rows

namespace DuckDBJava

open Exec PathTree

/-! ## Capacity -/

namespace Column

/-- `maxEntries` in `Column.maxElementsCount()`. -/
def maxEntries (eng : Engine) (chunk : Vec) : Column → ℕ
  | top .. => eng.vectorSize
  | child p i _ =>
    if p.kind.isListOrMap then (chunk.sub (i :: p.path)).root.listSize else p.maxEntries eng chunk

/-- `Column.maxElementsCount()`. -/
def maxElementsCount (eng : Engine) (chunk : Vec) (col : Column) : ℕ :=
  DuckDBJava.maxElementsCount (col.maxEntries eng chunk) col.arraySize col.parentArraySize

/-- The capacity of the vector of a column. -/
def capacity (eng : Engine) (chunk : Vec) : Column → ℕ
  | top .. => eng.vectorSize
  | child p _ _ =>
    match p.kind with
    | .list | .map => (chunk.sub p.path).root.size
    | .array n => p.capacity eng chunk * n
    | _ => p.capacity eng chunk

/-- The size of the nearest vector at or above with a size of its own. -/
def baseSize (eng : Engine) (chunk : Vec) : Column → ℕ
  | top .. => eng.vectorSize
  | child p _ _ =>
    if p.kind.isListOrMap then (chunk.sub p.path).root.size else p.baseSize eng chunk

/-- The product of the array sizes from there on. -/
def arrayProduct : Column → ℕ
  | top .. => 1
  | child p _ _ => if p.kind.isListOrMap then 1 else p.arrayProduct * p.kind.childArraySize

theorem capacity_eq (eng : Engine) (chunk : Vec) (col : Column) :
    col.capacity eng chunk = col.baseSize eng chunk * col.arrayProduct := by
  induction col with
  | top i t => exact (Nat.mul_one _).symm
  | child p i t ih =>
    simp only [capacity, baseSize, arrayProduct]
    cases p.kind with
    | list | map => simp [TypeKind.isListOrMap]
    | array n => simp [TypeKind.isListOrMap, TypeKind.childArraySize, ih, Nat.mul_assoc]
    | _ => simp [TypeKind.isListOrMap, TypeKind.childArraySize, ih]

end Column

/-! ## Sizes below a column -/

/-- The `listSize` of the child of every `LIST` and `MAP` is its size. -/
inductive Sized : LogicalType → Vec → Prop
  | node {t : LogicalType} {v : Vec} :
      (t.kind.isListOrMap = true → (v.child 0).root.listSize = v.root.size) →
      (∀ i u, t.children[i]? = some u → Sized u (v.child i)) → Sized t v

/-- The buffers of a column for `n` elements. -/
def Fetchable (eng : Engine) (kind : TypeKind) (n : ℕ) : Prop :=
  (kind.widthBytes = 0 ∨ eng.directBuffer (n * kind.widthBytes) = true) ∧
    eng.directBuffer (validityBytes n) = true

/-- The buffers have the capacity that `maxElementsCount` says. -/
inductive Capped (eng : Engine) : ℕ → ℕ → ℕ → LogicalType → Vec → Prop
  | node {m a b : ℕ} {t : LogicalType} {v : Vec} :
      v.root.buf.cap = maxElementsCount m a b → Fetchable eng t.kind v.root.buf.cap →
      (∀ i u, t.children[i]? = some u →
        Capped eng (if t.kind.isListOrMap then (v.child i).root.listSize else m)
          t.kind.childArraySize a u (v.child i)) →
      Capped eng m a b t v

/-- What the `put` functions do to the sizes at and below a column. -/
structure SizesKept (eng : Engine) (a b : ℕ) (t : LogicalType) (v v' : Vec) : Prop where
  listSize : v'.root.listSize = v.root.listSize
  sized : Sized t v → Sized t v'
  capped : ∀ m, Capped eng m a b t v → Capped eng m a b t v'

instance (eng : Engine) (a b : ℕ) (t : LogicalType) : Std.Refl (SizesKept eng a b t) :=
  ⟨fun _ => ⟨rfl, id, fun _ => id⟩⟩

instance (eng : Engine) (a b : ℕ) (t : LogicalType) : IsTrans Vec (SizesKept eng a b t) :=
  ⟨fun _ _ _ h h' => ⟨h'.listSize.trans h.listSize, fun hs => h'.sized (h.sized hs),
    fun m hc => h'.capped m (h.capped m hc)⟩⟩

theorem Sized.congr {t : LogicalType} {v : Vec} (h : Sized t v) : ∀ {v' : Vec},
    (∀ p, (v' p).size = (v p).size) → (∀ p, p ≠ [] → (v' p).listSize = (v p).listSize) →
      Sized t v' := by
  induction h with
  | node h1 _ ih =>
    intro v' hs hl
    refine .node (fun hk => ?_) fun i u hu => ih i u hu (fun p => hs (i :: p)) fun p _ => ?_
    · exact (hl [0] (List.cons_ne_nil _ _)).trans ((h1 hk).trans (hs []).symm)
    · exact hl (i :: p) (List.cons_ne_nil _ _)

theorem Capped.congr {eng : Engine} {m a b : ℕ} {t : LogicalType} {v : Vec}
    (h : Capped eng m a b t v) : ∀ {v' : Vec},
      (∀ p, (v' p).buf.cap = (v p).buf.cap ∧ (v' p).listSize = (v p).listSize) →
        Capped eng m a b t v' := by
  induction h with
  | @node m a b t v h1 h2 _ ih =>
    intro v' hs
    have hcap : v'.root.buf.cap = v.root.buf.cap := (hs []).1
    refine .node (hcap.trans h1) (by rw [hcap]; exact h2) fun i u hu => ?_
    have hl : (v'.child i).root.listSize = (v.child i).root.listSize := (hs [i]).2
    rw [hl]
    exact ih i u hu fun p => hs (i :: p)

theorem SameSizes.kept {eng : Engine} {a b : ℕ} {t : LogicalType} {v v' : Vec}
    (h : SameSizes v v') : SizesKept eng a b t v v' :=
  ⟨(h []).2.2, fun hs => hs.congr (fun p => (h p).2.1) fun p _ => (h p).2.2,
    fun _ hc => hc.congr fun p => ⟨(h p).1, (h p).2.2⟩⟩

/-- A child that keeps its sizes. -/
theorem SizesKept.onChild {eng : Engine} {a b i : ℕ} {t u : LogicalType} {v c : Vec}
    (hu : t.children[i]? = some u) (h : SizesKept eng t.kind.childArraySize a u (v.child i) c) :
    SizesKept eng a b t v (v.setChild i c) := by
  refine ⟨rfl, fun hs => ?_, fun m hc => ?_⟩
  · cases hs with
    | node h1 h2 =>
      refine .node (fun hk => ?_) fun j w hw => ?_
      · by_cases hi : 0 = i
        · subst hi
          rw [child_setChild_self, root_setChild, h.listSize]
          exact h1 hk
        · rw [child_setChild_ne hi]; exact h1 hk
      · by_cases hj : j = i
        · subst hj
          rw [child_setChild_self, Option.some.inj (hw.symm.trans hu)]
          exact h.sized (h2 j u hu)
        · rw [child_setChild_ne hj]; exact h2 j w hw
  · cases hc with
    | node h1 h2 h3 =>
      refine .node h1 h2 fun j w hw => ?_
      by_cases hj : j = i
      · subst hj
        rw [child_setChild_self, Option.some.inj (hw.symm.trans hu), h.listSize]
        exact h.capped _ (h3 j u hu)
      · rw [child_setChild_ne hj]; exact h3 j w hw

/-! ## Resets -/

/-- Only buffers are changed. -/
def SameVectors (v v' : Vec) : Prop := ∀ p, ∃ buf, v' p = { v p with buf := buf }

theorem SameVectors.refl (v : Vec) : SameVectors v v := fun p => ⟨(v p).buf, rfl⟩

theorem SameVectors.trans {v v' v'' : Vec} (h : SameVectors v v') (h' : SameVectors v' v'') :
    SameVectors v v'' := fun p => by
  obtain ⟨buf, hb⟩ := h p
  obtain ⟨buf', hb'⟩ := h' p
  exact ⟨buf', by rw [hb', hb]⟩

theorem SameVectors.onChild {v c : Vec} {i : ℕ} (h : SameVectors (v.child i) c) :
    SameVectors v (v.setChild i c) := by
  rintro (_ | ⟨j, p⟩)
  · exact ⟨_, rfl⟩
  · rw [setChild_cons]
    by_cases hj : j = i
    · subst hj; rw [if_pos rfl]; exact h p
    · rw [if_neg hj]; exact ⟨_, rfl⟩

theorem fetchBuffers_eq_ok {eng : Engine} {kind : TypeKind} {n : ℕ} {v v' : Vec} {u : Unit}
    (h : fetchBuffers eng kind n v = .ok u v') :
    Fetchable eng kind n ∧ v' = v.setRoot (v.root.fetch n) := by
  rw [fetchBuffers] at h
  obtain ⟨_, _, h1, h⟩ := bind_eq_ok.1 h
  obtain ⟨_, _, h2, h⟩ := bind_eq_ok.1 h
  obtain ⟨hdata, rfl⟩ := require_eq_ok.1 h1
  obtain ⟨hvalidity, rfl⟩ := require_eq_ok.1 h2
  cases h
  exact ⟨⟨hdata, hvalidity⟩, rfl⟩

theorem resetChildren_child {eng : Engine} {m a : ℕ} {kind : TypeKind} :
    ∀ (ts : List LogicalType) {i : ℕ} {v v' : Vec} {u : Unit},
      resetChildren eng m a kind i ts v = .ok u v' → ∀ {j}, j < i → v'.child j = v.child j
  | [], i, v, v', u, h, j, _ => by
    rw [resetChildren] at h
    cases h; rfl
  | t :: ts, i, v, v', u, h, j, hj => by
    rw [resetChildren] at h
    obtain ⟨_, w, hw, h⟩ := bind_eq_ok.1 h
    obtain ⟨c, _, rfl⟩ := onChild_eq_ok.1 hw
    rw [resetChildren_child ts h (Nat.lt_succ_of_lt hj), child_setChild_ne (Nat.ne_of_lt hj)]

mutual

/-- After `reset` the buffers of a column and of those below it are as `maxElementsCount` says. -/
theorem resetAt_eq_ok {eng : Engine} {m a b : ℕ} : ∀ (t : LogicalType) {v v' : Vec} {u : Unit},
    resetAt eng m a b t v = .ok u v' → SameVectors v v' ∧ Capped eng m a b t v'
  | .node kind cs, v, v', u, h => by
    rw [resetAt] at h
    obtain ⟨_, w, hw, h⟩ := bind_eq_ok.1 h
    obtain ⟨hf, rfl⟩ := fetchBuffers_eq_ok hw
    obtain ⟨h1, h2, h3⟩ := resetChildren_eq_ok cs h
    refine ⟨SameVectors.trans (fun p => ?_) h1, .node ?_ ?_ fun i t ht => ?_⟩
    · cases p with
      | nil => exact ⟨_, rfl⟩
      | cons i p => exact ⟨_, rfl⟩
    · rw [h2]; rfl
    · rw [h2]; exact hf
    · have := h3 i t ht
      rwa [Nat.zero_add] at this

theorem resetChildren_eq_ok {eng : Engine} {m a : ℕ} {kind : TypeKind} :
    ∀ (ts : List LogicalType) {i : ℕ} {v v' : Vec} {u : Unit},
      resetChildren eng m a kind i ts v = .ok u v' →
        SameVectors v v' ∧ v'.root = v.root ∧
          ∀ j t, ts[j]? = some t → Capped eng
            (if kind.isListOrMap then (v'.child (i + j)).root.listSize else m)
            kind.childArraySize a t (v'.child (i + j))
  | [], i, v, v', u, h => by
    rw [resetChildren] at h
    cases h
    exact ⟨.refl v, rfl, fun j t ht => by simp at ht⟩
  | t :: ts, i, v, v', u, h => by
    rw [resetChildren] at h
    obtain ⟨_, w, hw, h⟩ := bind_eq_ok.1 h
    obtain ⟨c, hc, rfl⟩ := onChild_eq_ok.1 hw
    rw [getRoot_bind] at hc
    obtain ⟨hs, hcap⟩ := resetAt_eq_ok t hc
    obtain ⟨h1, h2, h3⟩ := resetChildren_eq_ok ts h
    have hi : v'.child i = c := by
      rw [resetChildren_child ts h (Nat.lt_succ_self i), child_setChild_self]
    refine ⟨hs.onChild.trans h1, h2, fun j t' ht => ?_⟩
    cases j with
    | zero =>
      cases ht
      obtain ⟨buf, hb⟩ := hs []
      have hl : c.root.listSize = (v.child i).root.listSize := by rw [root, hb]; rfl
      rw [Nat.add_zero, hi, hl]
      exact hcap
    | succ j =>
      have := h3 j t' ht
      rwa [show i + 1 + j = i + (j + 1) by omega] at this

end

/-! ## The `put` functions -/

section
variable {eng : Engine}

attribute [local irreducible] toInt

/-- What the `put` functions do to the sizes at and below `col`. -/
abbrev Column.SizesKept (eng : Engine) (col : Column) : Vec → Vec → Prop :=
  DuckDBJava.SizesKept eng col.arraySize col.parentArraySize col.type

/-- `x` keeps the sizes at and below `col` in order, unless buffers cannot be fetched. -/
def KeepsSizes {α : Type} (eng : Engine) (col : Column) (x : PutM α) : Prop :=
  Keeps (fun e => e.isReset = false) (col.SizesKept eng) x

theorem KeepsSizes.of_same {α : Type} {x : PutM α} (col : Column)
    (h : Keeps (fun _ => True) SameSizes x) : KeepsSizes eng col x :=
  h.mono (fun _ _ => trivial) fun _ _ => SameSizes.kept

/-- The new size of a child vector, its buffers fetched for it. -/
theorem resetList_keepsSizes {col innerCol : Column} (hc : col.get? 0 = some innerCol)
    (hk : col.kind.isListOrMap = true) (n : ℤ) :
    KeepsSizes eng col (do onChild 0 (innerCol.resetList eng n.toNat); listVectorSetSize n) := by
  obtain ⟨u, hu, rfl⟩ := Column.get?_eq hc
  intro v
  rw [bind_apply]
  cases hr : onChild 0 ((Column.child col 0 u).resetList eng n.toNat) v with
  | error e w =>
    intro he
    obtain ⟨c, hx, _⟩ := onChild_eq_error.1 hr
    rw [resetAt_isReset _ _ _ hx] at he
    cases he
  | ok _ w =>
    obtain ⟨c, hx, rfl⟩ := onChild_eq_ok.1 hr
    obtain ⟨hs, hcap⟩ := resetAt_eq_ok _ hx
    have hsame : ∀ p, ∃ buf, c p = { ((v.child 0).setRoot
        ((v.child 0).root.setListSize n.toNat)) p with buf := buf } := hs
    have hlist : c.root.listSize = n.toNat := by
      obtain ⟨buf, hb⟩ := hsame []
      rw [root, hb]; rfl
    refine ⟨rfl, fun h => ?_, fun m h => ?_⟩
    · cases h with
      | node _ h2 =>
        refine .node (fun _ => ?_) fun j w hw => ?_
        · rw [child_setRoot, child_setChild_self, hlist]; rfl
        · rw [child_setRoot]
          by_cases hj : j = 0
          · subst hj
            rw [child_setChild_self]
            refine (h2 0 w hw).congr (fun p => ?_) fun p hp => ?_
            · obtain ⟨buf, hb⟩ := hsame p
              rw [hb]
              cases p <;> rfl
            · obtain ⟨buf, hb⟩ := hsame p
              rw [hb]
              cases p with
              | nil => exact absurd rfl hp
              | cons _ _ => rfl
          · rw [child_setChild_ne hj]; exact h2 j w hw
    · cases h with
      | node h1 h2 h3 =>
        refine .node h1 h2 fun j w hw => ?_
        rw [child_setRoot]
        by_cases hj : j = 0
        · subst hj
          rw [child_setChild_self, hlist, Option.some.inj (hw.symm.trans hu),
            if_pos (show col.type.kind.isListOrMap = true from hk)]
          exact hcap
        · rw [child_setChild_ne hj]; exact h3 j w hw

theorem isListOrMap_of_colType {k : TypeKind} (h : k.colType = .list ∨ k.colType = .map) :
    k.isListOrMap = true := by
  cases k with
  | list | map => rfl
  | scalar t ht => rcases h with h | h <;> (rw [TypeKind.colType] at h; subst h; cases ht)
  | unlisted t => cases t <;> rcases h with h | h <;> cases h
  | _ => rcases h with h | h <;> cases h

theorem prepareListColumn_keepsSizes {col innerCol : Column} (hc : col.get? 0 = some innerCol)
    (k : ℕ) (n : ℤ) : KeepsSizes eng col (prepareListColumn eng col innerCol k n) := by
  have hlist : col.kind.isListOrMap = true → KeepsSizes eng col (do
      let offset : ℤ := (← getRoot).size
      putEntry k offset n
      listVectorReserve eng (offset + n)
      onChild 0 (innerCol.resetList eng (offset + n).toNat)
      listVectorSetSize (offset + n)
      return toInt offset) := fun hk =>
    keeps_getRoot.bind fun c => (KeepsSizes.of_same col (putEntry_sameSizes _ _ _)).bind fun _ =>
      (KeepsSizes.of_same col (listVectorReserve_sameSizes _ _)).bind fun _ => by
        have hreset : KeepsSizes eng col _ := resetList_keepsSizes hc hk (c.size + n)
        have := hreset.bind fun _ => Keeps.pure (toInt c.size)
        rw [bind_assoc] at this
        exact this
  unfold prepareListColumn
  split
  · exact Keeps.pure _
  · next h => exact hlist (isListOrMap_of_colType (.inl h))
  · next h => exact hlist (isListOrMap_of_colType (.inr h))
  · exact Keeps.throw _

end

/-! ### One relation for all columns -/

/-- A relation for every column that holds where all sizes stay, of a column if of a field, and
    across `prepareListColumn`: all `put` functions keep it, exceptions outside `E` apart. -/
structure KeptAtColumns (eng : Engine) (E : Exn → Prop) (R : Column → Vec → Vec → Prop) :
    Prop where
  same : ∀ {col v w}, SameSizes v w → R col v w
  field : ∀ {col c i v w}, Column.get? col i = some c → R c (v.child i) w →
    R col v (v.setChild i w)
  prepare : ∀ {col c}, Column.get? col 0 = some c → ∀ k n,
    Keeps E (R col) (prepareListColumn eng col c k n)

section
variable {env : Env} {E : Exn → Prop} {R : Column → Vec → Vec → Prop}

theorem KeptAtColumns.of_same {eng : Engine} (h : KeptAtColumns eng E R) {α : Type} {x : PutM α}
    (col : Column) (hx : Keeps (fun _ => True) SameSizes x) : Keeps E (R col) x :=
  hx.mono (fun _ _ => trivial) fun _ _ => h.same

theorem KeptAtColumns.keeps_onField {eng : Engine} (h : KeptAtColumns eng E R) {α : Type}
    {x : PutM α} {col c : Column} {i : ℕ} (hc : col.get? i = some c) (hx : Keeps E (R c) x) :
    Keeps E (R col) (onChild i x) := keeps_onChild hx fun _ _ => h.field hc

theorem checkInnerTypes_sameSizes : ∀ (rest : List (List CAPIType)) (col : Column),
    Keeps E SameSizes (checkInnerTypes col rest)
  | [], _ => Keeps.pure ()
  | _ :: rest, _ => by
    rw [checkInnerTypes]
    exact (arrayInnerColumn_sameSizes _ _).bind fun c => checkInnerTypes_sameSizes rest c

variable [∀ col, Std.Refl (R col)] [∀ col, IsTrans Vec (R col)]
variable (h : KeptAtColumns env.eng E R)

attribute [local irreducible] toInt
set_option linter.unusedSectionVars false

include h

theorem putArrayWith_kept {write : ℤ → List Cell → PutM Unit}
    (hw : ∀ pos cells, Keeps (fun _ => True) SameSizes (write pos cells)) (ctypes : List CAPIType)
    (col : Column) (k : ℕ) (cells : List Cell) (mask : Option (List Bool)) :
    Keeps E (R col) (putArrayWith ctypes write env.eng col k cells mask) := by
  refine Keeps.bind_of (h.of_same col (arrayInnerColumn_sameSizes _ _)) ?_
  intro v innerCol w hx
  have hc := (arrayInnerColumn_eq_ok hx).2.1
  exact ((h.of_same col (checkArrayLength_sameSizes _ _ _)).bind fun _ =>
    (h.prepare hc _ _).bind fun _ =>
      (h.of_same col (setNullMask_sameSizes _ _ _ _ _)).bind fun _ =>
        h.of_same col (sameSizes_onChild 0 (hw _ _))) w

theorem PrimKind.putArray_kept (kind : PrimKind) (col : Column) (k : ℕ)
    (values : List kind.Val) (mask : Option (List Bool)) :
    Keeps E (R col) (kind.putArray env.eng col k values mask) := by
  cases kind with
  | boolean | byte => exact putArrayWith_kept h putBytes_sameSizes _ _ _ _ _
  | short | int | long | float | double =>
    exact putArrayWith_kept h (putView_sameSizes _) _ _ _ _ _

theorem putCompositeElementArray_kept (col : Column) (k : ℕ) (value : Obj) :
    Keeps E (R col) (putCompositeElementArray env col k value) := by
  unfold putCompositeElementArray
  split
  · exact Keeps.throw _
  · split
    · split
      · exact h.of_same col (PrimKind.putArray2D_sameSizes _ _ _ _ _ _)
      · exact Keeps.throw _
    · split
      · exact Keeps.throw _
      · split
        · exact Keeps.ite (PrimKind.putArray_kept h _ _ _ _ _) (Keeps.throw _)
        · exact Keeps.throw _

theorem putPlainElement_kept (col : Column) (k : ℕ) (value : Obj) :
    Keeps E (R col) (putPlainElement env col k value) := by
  unfold putPlainElement
  split
  · split
    · exact h.of_same col (putDecimal_sameSizes _ _ _ _ _ _)
    · exact Keeps.throw _
  · split
    · exact h.of_same col (putEnum_sameSizes _ _ _ _)
    · exact Keeps.throw _
  · exact h.of_same col (putScalarElement_sameSizes _ _ _ _)
  · exact h.of_same col (putScalarElement_sameSizes _ _ _ _)
  · exact putCompositeElementArray_kept h _ _ _
  · exact Keeps.throw _
  · exact Keeps.throw _
  · split <;> exact Keeps.throw _
  · exact Keeps.throw _

theorem beginElements_kept {col innerCol : Column} (hc : col.get? 0 = some innerCol) (k : ℕ)
    (count : ℤ) : Keeps E (R col) (beginElements env.eng col innerCol k count) := by
  refine (h.of_same col (checkArrayLength_sameSizes _ _ _)).bind fun _ =>
    ((h.prepare hc _ _).bind fun _ => Keeps.pure _).bind fun _ => ?_
  exact Keeps.ite ((h.of_same col (sameSizes_onChild 0 keeps_getRoot)).bind fun _ =>
    Keeps.pure _) (Keeps.pure _)

theorem beginEntries_kept {col innerCol : Column} (hc : col.get? 0 = some innerCol)
    (k size : ℕ) : Keeps E (R col) (beginEntries env.eng col innerCol k size) :=
  ((h.prepare hc _ _).bind fun _ => Keeps.pure _).bind fun _ =>
    (h.of_same col (sameSizes_onChild 0 keeps_getRoot)).bind fun _ => Keeps.pure _

theorem onField_kept {col : Column} {f : Column → PutM Unit} (i : ℕ)
    (hf : ∀ c, Keeps E (R c) (f c)) : Keeps E (R col) (col.onField i f) := by
  unfold Column.onField
  split
  · next c hc => exact h.keeps_onField hc (hf c)
  · exact Keeps.throw _

mutual

theorem putCompositeElement_kept : ∀ (col : Column) (k : ℕ) (value : Obj),
    Keeps E (R col) (putCompositeElement env col k value)
  | col, k, .null => by
    rw [putCompositeElement]
    exact h.of_same col (col.setNull_sameSizes k)
  | col, k, .collection elems => by
    rw [putCompositeElement]
    split
    · next hc =>
      exact (beginElements_kept h hc _ _).bind fun _ =>
        h.keeps_onField hc (putElements_kept _ _ _ _ elems)
    · exact (Keeps.require _ _).bind fun _ => putFields_kept _ _ _ elems
    · exact putPlainElement_kept h _ _ _
  | col, k, .map linked entries => by
    rw [putCompositeElement]
    split
    · next hc =>
      exact (beginEntries_kept h hc _ _).bind fun _ =>
        h.keeps_onField hc (putEntries_kept _ _ entries)
    · exact (Keeps.require _ _).bind fun _ => (Keeps.require _ _).bind fun _ =>
        putValues_kept _ _ _ entries
    · exact putPlainElement_kept h _ _ _
  | col, k, .simpleEntry tag value => by
    rw [putCompositeElement]
    split
    · exact (h.of_same col (putUnionTag_sameSizes _ _ _)).bind fun _ =>
        onField_kept h _ fun c => putCompositeElement_kept c k value
    · exact putPlainElement_kept h _ _ _
  | col, k, .boxed .. | col, k, .bigInteger _ | col, k, .bigDecimal .. | col, k, .string _
  | col, k, .uuid .. | col, k, .localDate _ | col, k, .localTime _ | col, k, .offsetTime ..
  | col, k, .localDateTime .. | col, k, .date _ | col, k, .offsetDateTime ..
  | col, k, .primArray .. | col, k, .primArray2D .. | col, k, .other => by
    simp only [putCompositeElement]
    exact putPlainElement_kept h _ _ _

theorem putElements_kept : ∀ (col : Column) (offset : ℕ) (count : ℤ) (i : ℕ)
    (values : List Obj), Keeps E (R col) (putElements env col offset count i values)
  | col, offset, count, i, [] => by
    rw [putElements]
    exact Keeps.require _ _
  | col, offset, count, i, value :: values => by
    rw [putElements]
    exact Keeps.ite ((putCompositeElement_kept col _ value).bind fun _ =>
      putElements_kept col offset count (i + 1) values) (Keeps.pure ())

theorem putFields_kept : ∀ (col : Column) (k i : ℕ) (values : List Obj),
    Keeps E (R col) (putFields env col k i values)
  | col, k, i, [] => by
    rw [putFields]
    exact Keeps.pure ()
  | col, k, i, value :: values => by
    rw [putFields]
    exact (onField_kept h i fun c => putCompositeElement_kept c k value).bind fun _ =>
      putFields_kept col k (i + 1) values

theorem putValues_kept : ∀ (col : Column) (k i : ℕ) (entries : List (Obj × Obj)),
    Keeps E (R col) (putValues env col k i entries)
  | col, k, i, [] => by
    rw [putValues]
    exact Keeps.pure ()
  | col, k, i, (_, value) :: entries => by
    rw [putValues]
    exact (onField_kept h i fun c => putCompositeElement_kept c k value).bind fun _ =>
      putValues_kept col k (i + 1) entries

theorem putEntries_kept : ∀ (col : Column) (k : ℕ) (entries : List (Obj × Obj)),
    Keeps E (R col) (putEntries env col k entries)
  | col, k, [] => by
    rw [putEntries]
    exact Keeps.pure ()
  | col, k, (key, value) :: entries => by
    rw [putEntries]
    exact (Keeps.require _ _).bind fun _ =>
      (onField_kept h 0 fun c => putCompositeElement_kept c k key).bind fun _ =>
        (onField_kept h 1 fun c => putCompositeElement_kept c k value).bind fun _ =>
          putEntries_kept col (k + 1) entries

end

theorem Stored.put_kept (col : Column) (k : ℕ) (x : Stored) :
    Keeps E (R col) (x.put env col k) := by
  cases x with
  | null => exact h.of_same col (col.setNull_sameSizes k)
  | fixed cell =>
    exact h.of_same col ((orThrow_sameSizes _).bind fun _ => putCell_sameSizes _ _ _)
  | decimal internalType cell =>
    simp only [Stored.put]
    split
    · exact (Keeps.require _ _).bind fun _ => h.of_same col (putCell_sameSizes _ _ _)
    · exact Keeps.throw _
  | bigDecimal unscaled scale =>
    simp only [Stored.put]
    split
    · exact h.of_same col (putDecimal_sameSizes _ _ _ _ _ _)
    · exact Keeps.throw _
  | text st =>
    simp only [Stored.put]
    split
    · exact h.of_same col (putEnum_sameSizes _ _ _ _)
    · exact Keeps.ite (h.of_same col (putStringOrBlob_sameSizes _ _ _)) (Keeps.throw _)
  | bytes bs => exact h.of_same col (putStringOrBlob_sameSizes _ _ _)
  | array kind values mask => exact PrimKind.putArray_kept h _ _ _ _ _
  | array2D kind values mask =>
    exact h.of_same col (PrimKind.putArray2D_sameSizes _ _ _ _ _ _)
  | elements elems count =>
    simp only [Stored.put]
    split
    · next hc =>
      exact (beginElements_kept h hc _ _).bind fun _ =>
        h.keeps_onField hc (putElements_kept h _ _ _ _ elems)
    · exact Keeps.throw _
  | entries es =>
    simp only [Stored.put]
    split
    · next hc =>
      exact (beginEntries_kept h hc _ _).bind fun _ =>
        h.keeps_onField hc (putEntries_kept h _ _ es)
    · exact Keeps.throw _

theorem Append.write_kept (col : Column) (a : Append) : Keeps E (R col) (a.write env col) :=
  (Keeps.require _ _).bind fun _ =>
    (h.of_same col (checkInnerTypes_sameSizes _ _)).bind fun _ => Stored.put_kept h _ _ _

end

/-- The sizes are kept in order. -/
theorem sizesKept_columns (eng : Engine) :
    KeptAtColumns eng (fun e => e.isReset = false) (Column.SizesKept eng) where
  same := SameSizes.kept
  field hc hw := by
    obtain ⟨u, hu, rfl⟩ := Column.get?_eq hc
    exact SizesKept.onChild hu hw
  prepare hc k n := prepareListColumn_keepsSizes hc k n

/-! ## Runs -/

variable {cfg : Config}

/-- All top-level columns are `Sized` and `Capped`. -/
def ChunkSized (cfg : Config) (chunk : Vec) : Prop := ∀ i t, cfg.columns[i]? = some t →
  Sized t (chunk.child i) ∧ Capped cfg.eng cfg.eng.vectorSize 1 1 t (chunk.child i)

/-- What holds of the top-level columns holds of all columns. -/
theorem ChunkSized.column {chunk : Vec} (h : ChunkSized cfg chunk) {col : Column} :
    col.In cfg.columns → Sized col.type (chunk.sub col.path) ∧
      Capped cfg.eng (col.maxEntries cfg.eng chunk) col.arraySize col.parentArraySize col.type
        (chunk.sub col.path) := by
  induction col with
  | top i t => exact h i t
  | child p i t ih =>
    rintro ⟨hp, ht⟩
    obtain ⟨hs, hc⟩ := ih hp
    cases hs with
    | node _ h2 =>
      cases hc with
      | node _ _ h3 => exact ⟨h2 i t ht, h3 i t ht⟩

/-- A column that keeps its sizes. -/
theorem ChunkSized.setSub {chunk c : Vec} (h : ChunkSized cfg chunk) {col : Column}
    (hin : col.In cfg.columns) (hk : col.SizesKept cfg.eng (chunk.sub col.path) c) :
    ChunkSized cfg (chunk.setSub col.path c) := by
  induction col generalizing c with
  | top i t =>
    intro j u hu
    obtain ⟨hs, hc⟩ := h j u hu
    show Sized u ((chunk.setChild i c).child j) ∧ Capped _ _ _ _ u ((chunk.setChild i c).child j)
    by_cases hj : j = i
    · subst hj
      obtain rfl : u = t := Option.some.inj (hu.symm.trans hin)
      rw [child_setChild_self]
      exact ⟨hk.sized hs, hk.capped _ hc⟩
    · rw [child_setChild_ne hj]; exact ⟨hs, hc⟩
  | child p i t ih => exact ih hin.1 (SizesKept.onChild hin.2 hk)

/-- A call after which all sizes are known: its default adds no list elements, the chunk is only
    reset when no list has elements, and no buffer fails to be fetched. -/
structure SizesKnown (cfg : Config) (e : Entry) : Prop where
  default : e.call = .appendDefault → ∀ col, e.before.currentColumn = some col →
    ∀ p, (defaultWritten cfg col e.before p).size = (e.before.chunk p).size
  reset : handsOver cfg e.call e.before = true → e.natives.appendDataChunk = true →
    e.natives.appenderFlush = true → ∀ col : Column, col.In cfg.columns →
      col.kind.isListOrMap = true → (e.before.chunk.sub col.path).root.size = 0
  buffers : ∀ x t, e.result = .error x t → x.isReset = false

/-- `Sized`, column by column. -/
theorem sized_of_columns {chunk : Vec}
    (h : ∀ col : Column, col.In cfg.columns → col.kind.isListOrMap = true →
      (chunk.sub (0 :: col.path)).root.listSize = (chunk.sub col.path).root.size) :
    ∀ (t : LogicalType) (col : Column), col.type = t → col.In cfg.columns →
      Sized t (chunk.sub col.path) := by
  intro t
  induction t using LogicalType.ind with
  | h kind cs ih =>
    intro col ht hin
    refine .node (fun hk => h col hin ?_) fun i u hu =>
      ih u (List.mem_of_getElem? hu) (.child col i u) rfl ⟨hin, ?_⟩
    · rw [Column.kind, ht]; exact hk
    · rw [ht]; exact hu

/-- A chunk whose top-level columns have just been reset. -/
theorem chunkSized_reset {chunk chunk' : Vec} {u : Unit}
    (hx : resetColumns cfg.eng 0 cfg.columns chunk = .ok u chunk')
    (h : ∀ col : Column, col.In cfg.columns → col.kind.isListOrMap = true →
      (chunk.sub (0 :: col.path)).root.listSize = (chunk.sub col.path).root.size) :
    ChunkSized cfg chunk' := by
  rw [resetColumns_eq] at hx
  obtain ⟨hs, _, hc⟩ := resetChildren_eq_ok cfg.columns hx
  have hsame : ∀ p, (chunk'.sub p).root.listSize = (chunk.sub p).root.listSize ∧
      (chunk'.sub p).root.size = (chunk.sub p).root.size := by
    intro p
    simp only [root, sub_apply, List.append_nil]
    obtain ⟨buf, hb⟩ := hs p.reverse
    rw [hb]
    exact ⟨rfl, rfl⟩
  intro i t ht
  refine ⟨sized_of_columns (fun col hin hk => ?_) t (.top i t) rfl ht, ?_⟩
  · rw [(hsame _).1, (hsame _).2]; exact h col hin hk
  · have := hc i t ht
    rwa [Nat.zero_add] at this

theorem create_chunkSized {s₀ : Appender} (h₀ : create cfg = .ok s₀) :
    ChunkSized cfg s₀.chunk := by
  obtain ⟨-, chunk, hx, rfl⟩ := create_eq_ok.1 h₀
  exact chunkSized_reset hx fun _ _ _ => by simp only [root, sub_apply]; rfl

/-- The chunk after a `flush`. -/
theorem Flushed.chunk {P : Vec → Prop} {n : Natives} {s : Appender}
    {r : EStateM.Result Exn Appender ℕ} (hf : Flushed cfg n s r) (h : P s.chunk)
    (hreset : s.closed = false → s.readyForANewRowInvariant = true → s.rowIdx ≠ 0 →
      n.appendDataChunk = true → n.appenderFlush = true → ∀ chunk',
        resetColumns cfg.eng 0 cfg.columns (dataChunkReset cfg.eng s.chunk) = .ok () chunk' →
          P chunk') :
    Ends (fun e => e.isReset = false) (fun t => P t.chunk) r := by
  cases hf with
  | closed | inRow | appendFailed | flushFailed => exact fun _ => h
  | empty => exact h
  | resetFailed _ _ _ _ _ hx =>
    intro he
    rw [resetColumns_isReset hx] at he
    cases he
  | done hcl hr h0 ha hn hx => exact hreset hcl hr h0 ha hn _ hx

/-- **The chunk after one call** of an appender that stays open: `P` holds of it if the `put`
    functions, the default of the engine and the reset of the chunk lead to it. -/
theorem step_chunk {P : Vec → Prop} {R : Column → Vec → Vec → Prop} {s : Appender} {c : Call}
    {n : Natives} (h : P s.chunk)
    (hR : ∀ col v, s.currentColumn = some col → R col (s.chunk.sub col.path) v →
      P (s.chunk.setSub col.path v))
    (hunion : ∀ col tag, s.currentColumn = some col →
      Keeps (fun e => e.isReset = false) (R col) (putUnionTag col s.rowIdx tag))
    (happend : ∀ col a, c = .append a → s.currentColumn = some col →
      Keeps (fun e => e.isReset = false) (R col) (a.write (s.env cfg) col))
    (hnull : ∀ col, s.currentColumn = some col →
      Keeps (fun e => e.isReset = false) (R col) (col.setNull s.rowIdx))
    (hdefault : ∀ col, c = .appendDefault → s.currentColumn = some col →
      P (defaultWritten cfg col s))
    (hreset : handsOver cfg c s = true → n.appendDataChunk = true → n.appenderFlush = true →
      ∀ chunk', resetColumns cfg.eng 0 cfg.columns (dataChunkReset cfg.eng s.chunk) =
        .ok () chunk' → P chunk')
    (hbuffers : ∀ x t, step cfg c n s = .error x t → x.isReset = false)
    (hopen : (final (step cfg c n s)).closed = false) : P (final (step cfg c n s)).chunk := by
  have hs := step_spec cfg c n s
  generalize DuckDBJava.step cfg c n s = r at hs hbuffers hopen ⊢
  cases hs with
  | refused | beginRow | beginStruct | endStruct | endUnion | endRow | closeAgain => exact h
  | beginUnion _ hc _ hx => exact hR _ _ hc ((hunion _ _ hc).of_ok hx)
  | beginUnionFailed _ hc _ hx =>
    exact hR _ _ hc ((hunion _ _ hc).of_error hx (hbuffers _ _ rfl))
  | append _ hc hx => exact hR _ _ hc ((happend _ _ rfl hc).of_ok hx)
  | appendFailed _ hc hx =>
    exact hR _ _ hc ((happend _ _ rfl hc).of_error hx (hbuffers _ _ rfl))
  | appendNull _ hc hx => exact hR _ _ hc ((hnull _ hc).of_ok hx)
  | appendNullFailed _ hc hx => exact hR _ _ hc ((hnull _ hc).of_error hx (hbuffers _ _ rfl))
  | appendDefault _ hc => exact hdefault _ rfl hc
  | endRowFlushed hcl hr hv hx =>
    exact (flushed_of_eq hx).chunk h fun _ _ _ ha hn =>
      hreset (by simp [handsOver, hcl, hr, hv]) ha hn
  | endRowFailed hcl hr hv hx =>
    exact (flushed_of_eq hx).chunk h (fun _ _ _ ha hn =>
      hreset (by simp [handsOver, hcl, hr, hv]) ha hn) (hbuffers _ _ rfl)
  | flush hx =>
    exact (flushed_of_eq hx).chunk h fun hcl hr h0 ha hn =>
      hreset (by simp [handsOver, hcl, hr, h0]) ha hn
  | flushFailed hx =>
    exact (flushed_of_eq hx).chunk h (fun hcl hr h0 ha hn =>
      hreset (by simp [handsOver, hcl, hr, h0]) ha hn) (hbuffers _ _ rfl)
  | closeEmpty | close => cases hopen

/-- What a call keeps in an appender that stays open holds in every state of a run. -/
theorem exec_chunk {P : Vec → Prop} {Q : Entry → Prop} {s₀ : Appender}
    (h₀ : create cfg = .ok s₀) (hP : P s₀.chunk)
    (hstep : ∀ s log c n, CursorInv cfg s log → Q ⟨s, c, n, step cfg c n s⟩ →
      (final (step cfg c n s)).closed = false → P s.chunk → P (final (step cfg c n s)).chunk)
    {calls : List (Call × Natives)} (hk : ∀ e ∈ history cfg s₀ calls, Q e)
    (hopen : (exec cfg s₀ calls).closed = false) : P (exec cfg s₀ calls).chunk := by
  induction calls using List.reverseRecOn with
  | nil => exact hP
  | append_singleton calls c ih =>
    obtain ⟨c, n⟩ := c
    rw [history_snoc] at hk
    rw [exec_snoc] at hopen ⊢
    refine hstep _ _ c n (cursorInv_history h₀ calls)
      (hk _ (List.mem_append_right _ (List.mem_singleton.2 rfl))) hopen
      (ih (fun e he => hk e (List.mem_append_left _ he)) ?_)
    cases hcl : (exec cfg s₀ calls).closed with
    | false => rfl
    | true => rw [step_of_closed cfg hcl, hcl] at hopen; exact hopen

/-- One call of an appender that stays open. -/
theorem ChunkSized.step {s : Appender} (h : ChunkSized cfg s.chunk) (hinv : ∀ col,
    s.currentColumn = some col → col.In cfg.columns) {c : Call} {n : Natives}
    (hk : SizesKnown cfg ⟨s, c, n, step cfg c n s⟩)
    (hopen : (final (step cfg c n s)).closed = false) :
    ChunkSized cfg (final (step cfg c n s)).chunk := by
  refine step_chunk (R := Column.SizesKept cfg.eng) h (fun _ _ hc hv => h.setSub (hinv _ hc) hv)
    (fun _ _ _ => KeepsSizes.of_same _ (putUnionTag_sameSizes _ _ _))
    (fun _ _ _ _ => Append.write_kept (sizesKept_columns _) _ _)
    (fun _ _ => KeepsSizes.of_same _ (Column.setNull_sameSizes _ _)) ?_ ?_ hk.buffers hopen
  · intro col hcall hc
    have hsize := hk.default hcall _ hc
    intro i t ht
    obtain ⟨h1, h2⟩ := h i t ht
    exact ⟨h1.congr (fun p => hsize (i :: p)) fun p _ => (defaultWritten_column cfg col s _).2,
      h2.congr fun p => defaultWritten_column cfg col s (i :: p)⟩
  · intro hh ha hn chunk' hx
    refine chunkSized_reset hx fun col hin hlist => ?_
    have hsized := (h.column hin).1
    cases hsized with
    | node h1 _ =>
      have hl := (h1 hlist).trans (hk.reset hh ha hn col hin hlist)
      simp only [root, child, sub_apply, List.append_nil, List.reverse_cons] at hl ⊢
      exact hl

theorem chunkSized_exec {s₀ : Appender} (h₀ : create cfg = .ok s₀) {calls : List (Call × Natives)}
    (hk : ∀ e ∈ history cfg s₀ calls, SizesKnown cfg e)
    (hopen : (exec cfg s₀ calls).closed = false) : ChunkSized cfg (exec cfg s₀ calls).chunk :=
  exec_chunk h₀ (create_chunkSized h₀)
    (fun _ _ _ _ hinv hq hopen h => h.step (fun col hc => (hinv.cur col hc).1) hq hopen) hk hopen

/-- All top-level columns are `Capped`. -/
def ChunkCapped (cfg : Config) (chunk : Vec) : Prop := ∀ i t, cfg.columns[i]? = some t →
  Capped cfg.eng cfg.eng.vectorSize 1 1 t (chunk.child i)

theorem ChunkCapped.column {chunk : Vec} (h : ChunkCapped cfg chunk) {col : Column} :
    col.In cfg.columns → Capped cfg.eng (col.maxEntries cfg.eng chunk) col.arraySize
      col.parentArraySize col.type (chunk.sub col.path) := by
  induction col with
  | top i t => exact h i t
  | child p i t ih =>
    rintro ⟨hp, ht⟩
    have hc := ih hp
    cases hc with
    | node _ _ h3 => exact h3 i t ht

theorem ChunkCapped.setSub {chunk c : Vec} (h : ChunkCapped cfg chunk) {col : Column}
    (hin : col.In cfg.columns) (hk : col.SizesKept cfg.eng (chunk.sub col.path) c) :
    ChunkCapped cfg (chunk.setSub col.path c) := by
  induction col generalizing c with
  | top i t =>
    intro j u hu
    show Capped _ _ _ _ u ((chunk.setChild i c).child j)
    by_cases hj : j = i
    · subst hj
      obtain rfl : u = t := Option.some.inj (hu.symm.trans hin)
      rw [child_setChild_self]
      exact hk.capped _ (h j u hu)
    · rw [child_setChild_ne hj]
      exact h j u hu
  | child p i t ih => exact ih hin.1 (SizesKept.onChild hin.2 hk)

theorem chunkCapped_reset {chunk chunk' : Vec} {u : Unit}
    (hx : resetColumns cfg.eng 0 cfg.columns chunk = .ok u chunk') : ChunkCapped cfg chunk' := by
  rw [resetColumns_eq] at hx
  intro i t ht
  have := (resetChildren_eq_ok cfg.columns hx).2.2 i t ht
  rwa [Nat.zero_add] at this

/-- The buffers have the capacity that `maxElementsCount` says in every run in which they can be
    fetched. -/
theorem chunkCapped_exec {s₀ : Appender} (h₀ : create cfg = .ok s₀) {calls : List (Call × Natives)}
    (hk : ∀ e ∈ history cfg s₀ calls, ∀ x t, e.result = .error x t → x.isReset = false)
    (hopen : (exec cfg s₀ calls).closed = false) : ChunkCapped cfg (exec cfg s₀ calls).chunk := by
  refine exec_chunk h₀ ?_ (fun s log c n hinv hq hopen h => ?_) hk hopen
  · obtain ⟨-, chunk, hx, rfl⟩ := create_eq_ok.1 h₀
    exact chunkCapped_reset hx
  · refine step_chunk (R := Column.SizesKept cfg.eng) h
      (fun _ _ hc hv => h.setSub (hinv.cur _ hc).1 hv)
      (fun _ _ _ => KeepsSizes.of_same _ (putUnionTag_sameSizes _ _ _))
      (fun _ _ _ _ => Append.write_kept (sizesKept_columns _) _ _)
      (fun _ _ => KeepsSizes.of_same _ (Column.setNull_sameSizes _ _))
      (fun col _ _ i t ht => (h i t ht).congr fun p => defaultWritten_column cfg col s (i :: p))
      (fun _ _ _ _ hx => chunkCapped_reset hx) hq hopen

/-! ## Writes within the buffers -/

theorem Fetchable.data_lt {eng : Engine} {kind : TypeKind} {n : ℕ} (h : Fetchable eng kind n) :
    n * kind.widthBytes < 2 ^ 31 := by
  rcases h.1 with hw | hd
  · rw [hw, Nat.mul_zero]; decide
  · exact eng.directBuffer_lt _ hd

theorem Fetchable.lt {eng : Engine} {kind : TypeKind} {n : ℕ} (h : Fetchable eng kind n) :
    n < 2 ^ 34 := by
  have := eng.directBuffer_lt _ h.2
  unfold validityBytes at this
  omega

/-- A NULL mark within the buffer is accepted. -/
theorem setNullOnVectorIdx_isOk {v : Vec} {k : ℕ} (hk : k < v.root.buf.cap)
    (hcap : v.root.buf.cap < 2 ^ 34) : isOk (setNullOnVectorIdx k v) := by
  have hpos : toInt ((k : ℤ).tdiv 64) = (k / 64 : ℕ) := by
    rw [Int.tdiv_eq_ediv_of_nonneg (by omega)]
    exact toInt_natCast (n := k / 64) (by omega)
  rw [setNullOnVectorIdx, getRoot_bind]
  simp only [require_bind, hpos]
  rw [if_pos (by omega), if_pos (by omega)]
  rfl

/-- A cell within the buffer is accepted. -/
theorem putCell_isOk {v : Vec} {w k : ℕ} (hk : k < v.root.buf.cap)
    (hcap : v.root.buf.cap * w < 2 ^ 31) (cell : Cell) : isOk (putCell w k cell v) := by
  have hle : k * w + w ≤ v.root.buf.cap * w := by
    rw [← Nat.succ_mul]; exact Nat.mul_le_mul_right w hk
  rw [putCell, toInt_natCast (show k * w < 2 ^ 31 by omega)]
  have hpos : setPosition w (k * w : ℕ) v = .ok () (v.setRoot (v.root.setPos (k * w))) := by
    rw [setPosition, getRoot_bind, require_bind, if_pos (by omega)]
    rfl
  rw [bind_ok hpos, putHere, getRoot_bind, require_bind, if_pos (by exact_mod_cast hle)]
  rfl

theorem SizesKnown.of_isOk {e : Entry} (hd : e.call ≠ .appendDefault)
    (hh : handsOver cfg e.call e.before = false) (hok : isOk e.result = true) : SizesKnown cfg e :=
  { default := fun h => absurd h hd
    reset := fun h => by rw [hh] at h; cases h
    buffers := fun x t h => by rw [h] at hok; cases hok }

/-- A table with one column `LIST(INTEGER)`. -/
def listTable : TableType :=
  .single (.listOf .integer) (LogicalType.listOf_wf LogicalType.integer_wf)

/-- A row of it in progress. -/
def listRow : List (Call × Natives) :=
  [.beginRow, .append (.collection (some [.boxed .int 7#32, .null]))].map (·, .success)

/-- A table with one column of three `ARRAY` levels. -/
def deepArrayTable : TableType :=
  .single (.arrayOf 2 (.arrayOf 2 (.arrayOf 2 .integer))) (LogicalType.arrayOf_wf (by decide)
    (LogicalType.arrayOf_wf (by decide)
      (LogicalType.arrayOf_wf (by decide) LogicalType.integer_wf)))

end DuckDBJava
