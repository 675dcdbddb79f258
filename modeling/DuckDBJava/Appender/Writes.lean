/-
  What the appender writes, vector by vector.

  A `Write` changes one vector at or below a column: a validity bit, cells, the position of its
  buffer, or the size of a list together with the buffers of its child.  Every `put` function is
  a sequence of writes (`Puts`), unless buffers cannot be fetched, and keeps what every write
  keeps at every vector (`KeptByWrites`).
-/
import DuckDBJava.Appender.Capacity
import Mathlib.Logic.Relation

namespace DuckDBJava

open Exec PathTree Relation

namespace Column

/-- The parent is an `ARRAY`. -/
def belowArray : Column → Bool
  | top .. => false
  | child p _ _ => p.colType = .array

/-- Below an `ARRAY`, `LIST` or `MAP`: the cursor does not get there. -/
def nested : Column → Bool
  | top .. => false
  | child p _ _ => !p.kind.sharesSlots || p.nested

/-- An element of an `ARRAY` that the cursor does not get to. -/
def nestedElement : Column → Bool
  | top .. => false
  | child p _ _ => p.colType = .array && p.nested

/-- The columns whose `data` are given a position: not `LIST` and `MAP`, and not the elements of an
    `ARRAY` that the cursor does not get to, but for those of one byte. -/
def Positioned (col : Column) : Prop :=
  (col.nestedElement = false ∨ col.kind.widthBytes = 1) ∧ col.kind.isListOrMap = false

theorem nestedElement_of_nested {col : Column} (h : col.nested = false) :
    col.nestedElement = false := by
  cases col with
  | top i t => rfl
  | child p i t =>
    rw [nested, Bool.or_eq_false_iff] at h
    rw [nestedElement, h.2, Bool.and_false]

/-- Below a column that is no `ARRAY`. -/
theorem get?_nestedElement {col c : Column} {i : ℕ} (hc : col.get? i = some c)
    (h : col.colType ≠ .array) : c.nestedElement = false := by
  obtain ⟨t, _, rfl⟩ := Column.get?_eq hc
  rw [nestedElement, decide_eq_false h, Bool.false_and]

/-- The elements of an `ARRAY` that the cursor gets to. -/
theorem get?_nestedElement_of {col c : Column} {i : ℕ} (hc : col.get? i = some c)
    (h : col.nested = false) : c.nestedElement = false := by
  obtain ⟨t, _, rfl⟩ := Column.get?_eq hc
  rw [nestedElement, h, Bool.and_false]

end Column

/-- All buffers are fetched anew, and all cells are kept. -/
inductive Fetched : LogicalType → Vec → Vec → Prop
  | node {t : LogicalType} {v v' : Vec} : v'.root.data = v.root.data →
      v'.root.buf.alloc = v'.root.alloc → v'.root.buf.pos = 0 →
      (∀ i u, t.children[i]? = some u → Fetched u (v.child i) (v'.child i)) → Fetched t v v'

/-- One change to the memory at or below a column, by cells that `F` admits. -/
inductive Write (F : TypeKind → Cell → Prop) : Column → Vec → Vec → Prop
  | clear {col v} (j : ℕ) : Write F col v (v.setRoot (v.root.clearValid j))
  | position {col v} (pos : ℕ) : col.Positioned → Write F col v (v.setRoot (v.root.setPos pos))
  | cells {col v} (base : ℕ) {cells : List Cell} : (∀ x ∈ cells, F col.kind x) →
      Write F col v (v.setRoot (v.root.write base cells))
  | store {col v} (j : ℕ) {x : Cell} : F col.kind x →
      Write F col v (v.setRoot (v.root.store j x))
  /-- a list is given a size, its child new buffers -/
  | grow {col d v c} (n : ℕ) : col.get? 0 = some d → Fetched d.type (v.child 0) c →
      Write F col v ((v.setChild 0 c).setRoot (v.root.setSize n))
  | child {col d i v c} : col.get? i = some d → Write F d (v.child i) c →
      Write F col v (v.setChild i c)

/-- Any number of writes. -/
def Puts (F : TypeKind → Cell → Prop) (col : Column) : Vec → Vec → Prop :=
  ReflTransGen (Write F col)

instance (F : TypeKind → Cell → Prop) (col : Column) : Std.Refl (Puts F col) :=
  ⟨fun _ => .refl⟩

instance (F : TypeKind → Cell → Prop) (col : Column) : IsTrans Vec (Puts F col) :=
  ⟨fun _ _ _ => .trans⟩

/-- The cells that the conversions make: those of a DECIMAL are checked. -/
structure Conversions (F : TypeKind → Cell → Prop) : Prop where
  other : ∀ {kind x}, kind.colType ≠ .decimal → F kind x
  decimal : ∀ {t p s u sc x}, decimalCell t p s u sc = .ok x → F (.decimal t p s) x

/-! ## One invariant for all vectors -/

/-- `I` holds of the vectors of a column and of all columns below. -/
inductive All (I : Column → ColState → Prop) : Column → Vec → Prop
  | node {col v} : I col v.root → (∀ i d, col.get? i = some d → All I d (v.child i)) → All I col v

/-- What every change of one vector keeps. -/
structure KeptByWrites (F : TypeKind → Cell → Prop) (I : Column → ColState → Prop) : Prop where
  clear : ∀ {col c} (j : ℕ), I col c → I col (c.clearValid j)
  position : ∀ {col c} (pos : ℕ), col.Positioned → I col c → I col (c.setPos pos)
  cells : ∀ {col c} (base : ℕ) {cells : List Cell}, (∀ x ∈ cells, F col.kind x) → I col c →
    I col (c.write base cells)
  store : ∀ {col c} (j : ℕ) {x : Cell}, F col.kind x → I col c → I col (c.store j x)
  size : ∀ {col c} (n : ℕ), I col c → I col (c.setSize n)
  fetched : ∀ {col c c'}, c'.data = c.data → c'.buf.alloc = c'.alloc → c'.buf.pos = 0 → I col c →
    I col c'

variable {F : TypeKind → Cell → Prop} {I : Column → ColState → Prop}

theorem All.root {col : Column} {v : Vec} (h : All I col v) : I col v.root := by
  cases h with
  | node h _ => exact h

theorem All.child {col d : Column} {i : ℕ} {v : Vec} (h : All I col v) (hd : col.get? i = some d) :
    All I d (v.child i) := by
  cases h with
  | node _ h => exact h i d hd

theorem All.setRoot {col : Column} {v : Vec} {c : ColState} (h : All I col v) (hc : I col c) :
    All I col (v.setRoot c) := .node hc fun _ _ hd => h.child hd

theorem All.setChild {col d : Column} {i : ℕ} {v c : Vec} (h : All I col v)
    (hd : col.get? i = some d) (hc : All I d c) : All I col (v.setChild i c) := by
  refine .node h.root fun j e he => ?_
  by_cases hj : j = i
  · subst hj
    rw [child_setChild_self, Option.some.inj (he.symm.trans hd)]
    exact hc
  · rw [child_setChild_ne hj]
    exact h.child he

/-- New buffers. -/
theorem Fetched.all (hI : KeptByWrites F I) {t : LogicalType} {v v' : Vec} (h : Fetched t v v') :
    ∀ {col : Column}, col.type = t → All I col v → All I col v' := by
  induction h with
  | node hdata halloc hpos _ ih =>
    rintro col rfl hv
    refine .node (hI.fetched hdata halloc hpos hv.root) fun i d hd => ?_
    obtain ⟨u, hu, rfl⟩ := Column.get?_eq hd
    exact ih i u hu rfl (hv.child hd)

theorem Write.all (hI : KeptByWrites F I) {col : Column} {v v' : Vec} (h : Write F col v v') :
    All I col v → All I col v' := by
  induction h with
  | clear j => exact fun hv => hv.setRoot (hI.clear j hv.root)
  | position pos hm => exact fun hv => hv.setRoot (hI.position pos hm hv.root)
  | cells base hx => exact fun hv => hv.setRoot (hI.cells base hx hv.root)
  | store j hx => exact fun hv => hv.setRoot (hI.store j hx hv.root)
  | grow n hd hf =>
    exact fun hv => (hv.setChild hd (hf.all hI rfl (hv.child hd))).setRoot (hI.size n hv.root)
  | child hd _ ih => exact fun hv => hv.setChild hd (ih (hv.child hd))

theorem Puts.all (hI : KeptByWrites F I) {col : Column} {v v' : Vec} (h : Puts F col v v')
    (hv : All I col v) : All I col v' := by
  induction h with
  | refl => exact hv
  | tail _ hw ih => exact hw.all hI ih

/-- Writes to a child. -/
theorem Puts.child {col d : Column} {i : ℕ} {v c : Vec} (hd : col.get? i = some d)
    (h : Puts F d (v.child i) c) : Puts F col v (v.setChild i c) := by
  induction h with
  | refl => rw [setChild_child]; exact .refl
  | @tail b c _ hw ih =>
    refine ih.tail ?_
    rw [← setChild_setChild i b c v]
    refine .child hd ?_
    rw [child_setChild_self]
    exact hw

/-! ## The `put` functions -/

/-- `x` writes at and below `col`, unless buffers cannot be fetched. -/
abbrev Writes {α : Type} (F : TypeKind → Cell → Prop) (col : Column) (x : PutM α) : Prop :=
  Keeps (fun e => e.isReset = false) (Puts F col) x

section
variable {col : Column}

attribute [local irreducible] toInt

theorem Writes.onField {α : Type} {x : PutM α} {d : Column} {i : ℕ} (hd : col.get? i = some d)
    (h : Writes F d x) : Writes F col (onChild i x) :=
  keeps_onChild h fun _ _ hp => Puts.child hd hp

theorem setNullOnVectorIdx_writes (k : ℤ) : Writes F col (setNullOnVectorIdx k) :=
  keeps_getRoot.bind fun _ => (Keeps.require _ _).bind fun _ => (Keeps.require _ _).bind fun _ =>
    keeps_modifyRoot fun _ => .single (.clear _)

theorem setPosition_writes (h : col.Positioned) (w : ℕ) (pos : ℤ) :
    Writes F col (setPosition w pos) :=
  keeps_getRoot.bind fun _ => (Keeps.require _ _).bind fun _ =>
    keeps_modifyRoot fun _ => .single (.position _ h)

theorem putHere_writes (h : col.Positioned) (w : ℕ) {cells : List Cell} (n : ℕ)
    (hx : ∀ x ∈ cells, F col.kind x) : Writes F col (putHere w cells n) :=
  keeps_getRoot.bind fun _ => (Keeps.require _ _).bind fun _ => keeps_modifyRoot fun v => by
    have hw : Write F col v (v.setRoot (v.root.write (v.root.buf.pos / w) cells)) := .cells _ hx
    refine (ReflTransGen.single hw).tail ?_
    rw [← setRoot_setRoot (v.root.write (v.root.buf.pos / w) cells)]
    exact .position _ h

theorem putCell_writes (h : col.Positioned) (w k : ℕ) {x : Cell} (hx : F col.kind x) :
    Writes F col (putCell w k x) :=
  (setPosition_writes h _ _).bind fun _ =>
    putHere_writes h _ _ fun _ hy => List.mem_singleton.1 hy ▸ hx

theorem putBytes_writes (h : col.Positioned) (pos : ℤ) {cells : List Cell}
    (hx : ∀ x ∈ cells, F col.kind x) : Writes F col (putBytes pos cells) :=
  (setPosition_writes h _ _).bind fun _ => putHere_writes h _ _ hx

theorem putView_writes (w : ℕ) (pos : ℤ) {cells : List Cell} (hx : ∀ x ∈ cells, F col.kind x) :
    Writes F col (putView w pos cells) :=
  keeps_getRoot.bind fun _ => (Keeps.require _ _).bind fun _ => (Keeps.require _ _).bind fun _ =>
    keeps_modifyRoot fun _ => .single (.cells _ hx)

theorem putEntry_writes (k : ℕ) (offset length : ℤ) (hx : ∀ x, F col.kind x) :
    Writes F col (putEntry k offset length) :=
  keeps_getRoot.bind fun _ => (Keeps.require _ _).bind fun _ => (Keeps.require _ _).bind fun _ =>
    keeps_modifyRoot fun _ => .single (.cells _ fun _ _ => hx _)

/-! ### Lists -/

theorem Fetched.of_data {t : LogicalType} {w v' : Vec} (h : Fetched t w v') : ∀ {v : Vec},
    (∀ p, (w p).data = (v p).data) → Fetched t v v' := by
  induction h with
  | node hdata halloc hpos _ ih =>
    intro v hv
    exact .node (hdata.trans (hv [])) halloc hpos fun i u hu => ih i u hu fun p => hv (i :: p)

mutual

/-- `reset` fetches all buffers. -/
theorem resetAt_fetched {eng : Engine} {m a b : ℕ} : ∀ (t : LogicalType) {v v' : Vec} {u : Unit},
    resetAt eng m a b t v = .ok u v' → Fetched t v v'
  | .node kind cs, v, v', u, h => by
    rw [resetAt] at h
    obtain ⟨_, w, hw, h⟩ := bind_eq_ok.1 h
    obtain ⟨_, rfl⟩ := fetchBuffers_eq_ok hw
    obtain ⟨hroot, hcs⟩ := resetChildren_fetched cs h
    refine .node ?_ ?_ ?_ fun i t ht => ?_
    · rw [hroot]; rfl
    · rw [hroot]; rfl
    · rw [hroot]; rfl
    · have := hcs i t ht
      rwa [Nat.zero_add] at this

theorem resetChildren_fetched {eng : Engine} {m a : ℕ} {kind : TypeKind} :
    ∀ (ts : List LogicalType) {i : ℕ} {v v' : Vec} {u : Unit},
      resetChildren eng m a kind i ts v = .ok u v' →
        v'.root = v.root ∧ ∀ j t, ts[j]? = some t → Fetched t (v.child (i + j)) (v'.child (i + j))
  | [], i, v, v', u, h => by
    rw [resetChildren] at h
    cases h
    exact ⟨rfl, fun j t ht => by simp at ht⟩
  | t :: ts, i, v, v', u, h => by
    rw [resetChildren] at h
    obtain ⟨_, w, hw, h⟩ := bind_eq_ok.1 h
    obtain ⟨c, hc, rfl⟩ := onChild_eq_ok.1 hw
    rw [getRoot_bind] at hc
    obtain ⟨hroot, hcs⟩ := resetChildren_fetched ts h
    refine ⟨hroot, fun j t' ht => ?_⟩
    cases j with
    | zero =>
      cases ht
      rw [Nat.add_zero, resetChildren_child ts h (Nat.lt_succ_self i), child_setChild_self]
      exact resetAt_fetched t hc
    | succ j =>
      have := hcs j t' ht
      rwa [child_setChild_ne (by omega), show i + 1 + j = i + (j + 1) by omega] at this

end

/-- `prepareListColumn` after the entry is written. -/
theorem grow_writes {d : Column} (hd : col.get? 0 = some d) (eng : Engine) (n : ℤ) :
    Writes F col (do
      listVectorReserve eng n
      onChild 0 (d.resetList eng n.toNat)
      listVectorSetSize n) := by
  intro v
  rw [listVectorReserve, bind_assoc, require_bind]
  split
  · rw [bind_apply]
    cases hm : onChild 0 (modify fun w => moveVectors (eng.reserveMoves w n) w) v with
    | error e w =>
      obtain ⟨_, hc, _⟩ := onChild_eq_error.1 hm
      cases hc
    | ok _ w =>
      obtain ⟨c, hc, rfl⟩ := onChild_eq_ok.1 hm
      cases hc
      show Ends _ _ ((onChild 0 (d.resetList eng n.toNat) >>= fun _ => listVectorSetSize n) _)
      rw [bind_apply]
      cases hr : onChild 0 (d.resetList eng n.toNat)
          (v.setChild 0 (moveVectors (eng.reserveMoves (v.child 0) n) (v.child 0))) with
      | error e w =>
        intro he
        obtain ⟨c, hx, _⟩ := onChild_eq_error.1 hr
        rw [resetAt_isReset _ _ _ hx] at he
        cases he
      | ok _ w =>
        obtain ⟨c, hx, rfl⟩ := onChild_eq_ok.1 hr
        rw [child_setChild_self] at hx
        rw [setChild_setChild]
        refine .single (.grow n.toNat hd ((resetAt_fetched d.type hx).of_data fun p => ?_))
        obtain ⟨a, ha⟩ := moveVectors_apply (eng.reserveMoves (v.child 0) n) (v.child 0) p
        have hdata : (moveVectors (eng.reserveMoves (v.child 0) n) (v.child 0) p).data =
            (v.child 0 p).data := by rw [ha]
        rw [← hdata]
        cases p <;> rfl
  · exact fun _ => .refl

theorem prepareListColumn_writes (hF : Conversions F) {d : Column} (hd : col.get? 0 = some d)
    (eng : Engine) (k : ℕ) (n : ℤ) : Writes F col (prepareListColumn eng col d k n) := by
  have hlist : col.colType ≠ .decimal → Writes F col (do
      let offset : ℤ := (← getRoot).size
      putEntry k offset n
      listVectorReserve eng (offset + n)
      onChild 0 (d.resetList eng (offset + n).toNat)
      listVectorSetSize (offset + n)
      return toInt offset) := fun hk =>
    keeps_getRoot.bind fun c => (putEntry_writes _ _ _ fun _ => hF.other hk).bind fun _ => by
      have hgrow : Writes F col _ := grow_writes hd eng (c.size + n)
      have := hgrow.bind fun _ => Keeps.pure (toInt c.size)
      simp only [bind_assoc] at this
      exact this
  unfold prepareListColumn
  split
  · exact Keeps.pure _
  · next h => exact hlist (by rw [h]; decide)
  · next h => exact hlist (by rw [h]; decide)
  · exact Keeps.throw _

/-! ### NULL marks -/

theorem onType_writes {α : Type} {x : PutM α} {t u : LogicalType} {i : ℕ} (ht : col.type = t)
    (hu : t.children[i]? = some u) (h : Writes F (.child col i u) x) : Writes F col (onChild i x) :=
  Writes.onField (by rw [Column.get?, ht, hu]; rfl) h

theorem setNullOnElements_writes (a n k : ℕ) : ∀ (ts : List LogicalType) (i : ℕ),
    (∀ j t, ts[j]? = some t → col.type.children[i + j]? = some t) →
      Writes F col (setNullOnElements a n k i ts)
  | [], _, _ => Keeps.pure ()
  | t :: ts, i, h => by
    rw [setNullOnElements]
    exact (onType_writes rfl (h 0 t rfl)
      (Keeps.forRange (fun _ => setNullOnVectorIdx_writes _) _ _)).bind fun _ =>
        setNullOnElements_writes a n k ts (i + 1) fun j u hu => by
          rw [show i + 1 + j = i + (j + 1) by omega]
          exact h (j + 1) u hu

mutual

theorem setNullAt_writes : ∀ (t : LogicalType) (col : Column) (a b k : ℕ), col.type = t →
    Writes F col (setNullAt a b t k)
  | .node kind cs, col, a, b, k, ht => by
    have hcs : ∀ j t, cs[j]? = some t → col.type.children[0 + j]? = some t := fun j t hj => by
      rw [ht, Nat.zero_add]; exact hj
    cases kind with
    | array n =>
      rw [setNullAt_array]
      exact (setNullOnVectorIdx_writes _).bind fun _ => setNullOnElements_writes a n k cs 0 hcs
    | list | map =>
      rw [setNullAt_listOrMap rfl]
      exact setNullOnVectorIdx_writes _
    | scalar _ _ | decimal _ _ _ | enum _ _ | struct _ | union _ | unlisted _ =>
      rw [setNullAt_sharesSlots rfl]
      exact (setNullOnVectorIdx_writes _).bind fun _ => setNullChildren_writes cs col a k 0 hcs

theorem setNullChildren_writes : ∀ (ts : List LogicalType) (col : Column) (a k i : ℕ),
    (∀ j t, ts[j]? = some t → col.type.children[i + j]? = some t) →
      Writes F col (setNullChildren a k i ts)
  | [], _, _, _, _, _ => Keeps.pure ()
  | t :: ts, col, a, k, i, h => by
    rw [setNullChildren]
    exact (onType_writes rfl (h 0 t rfl) (setNullAt_writes t _ 1 a k rfl)).bind fun _ =>
      setNullChildren_writes ts col a k (i + 1) fun j u hu => by
        rw [show i + 1 + j = i + (j + 1) by omega]
        exact h (j + 1) u hu

end

theorem Column.setNull_writes (col : Column) (k : ℕ) : Writes F col (col.setNull k) :=
  setNullAt_writes _ _ _ _ _ rfl

theorem forNulls_writes {f : ℕ → PutM Unit} (h : ∀ i, Writes F col (f i)) :
    ∀ (mask : List Bool) (i : ℕ), Writes F col (forNulls i f mask)
  | [], _ => Keeps.pure ()
  | b :: mask, i => by
    rw [forNulls]
    exact (Keeps.ite (h i) (Keeps.pure ())).bind fun _ => forNulls_writes h mask (i + 1)

theorem setArrayNullMask_writes (k : ℕ) (mask : Option (List Bool)) (n p : ℕ) :
    Writes F col (setArrayNullMask col k mask n p) := by
  cases mask with
  | none => exact Keeps.pure ()
  | some mask =>
    exact (Keeps.require _ _).bind fun _ =>
      forNulls_writes (fun _ => setNullOnVectorIdx_writes _) _ _

theorem setListNullMask_writes (mask : Option (List Bool)) (n : ℕ) :
    Writes F col (setListNullMask col mask n) := by
  cases mask with
  | none => exact Keeps.pure ()
  | some mask =>
    exact (Keeps.require _ _).bind fun _ => keeps_getRoot.bind fun _ =>
      (Keeps.require _ _).bind fun _ => forNulls_writes (fun _ => col.setNull_writes _) _ _

theorem setNullMask_writes {d : Column} (hd : col.get? 0 = some d) (k : ℕ)
    (mask : Option (List Bool)) (n : ℕ) : Writes F col (setNullMask col d k mask n) := by
  unfold setNullMask
  split
  · exact Writes.onField hd (setArrayNullMask_writes _ _ _ _)
  · exact Writes.onField hd (setListNullMask_writes _ _)
  · exact Keeps.throw _

/-! ### Scalars -/

theorem orThrow_writes {α : Type} (e : Except Exn α) : Writes F col (orThrow e) := by
  cases e with
  | ok a => exact Keeps.pure a
  | error x => exact Keeps.throw x

/-- A converted cell is put if the conversion succeeds. -/
theorem putConverted_writes (h : col.Positioned) (w k : ℕ) {e : Except Exn Cell}
    (he : ∀ x, e = .ok x → F col.kind x) :
    Writes F col (do putCell w k (← orThrow e)) := by
  refine Keeps.bind_of (orThrow_writes e) fun v x v' hx => ?_
  cases e with
  | ok y =>
    cases hx
    exact putCell_writes h w k (he _ rfl) v
  | error y => cases hx

theorem putStringOrBlob_writes (h : col.Positioned) (env : Env) (k : ℕ) (bytes : List UInt8)
    (hx : ∀ x, F col.kind x) : Writes F col (putStringOrBlob env k bytes) := by
  unfold putStringOrBlob
  refine Keeps.ite ?_ (keeps_modifyRoot fun _ => .single (.store _ (hx _)))
  exact (setPosition_writes h _ _).bind fun _ => putHere_writes h _ _ fun _ _ => hx _

theorem putEnum_writes (h : col.Positioned) (t : CAPIType) (dict : List String) (k : ℕ)
    (value : String) (hx : ∀ x, F col.kind x) : Writes F col (putEnum t dict k value) := by
  unfold putEnum
  split
  · exact Keeps.throw _
  · refine (setPosition_writes h _ _).bind fun _ => ?_
    split <;> first | exact putHere_writes h _ _ fun _ _ => hx _ | exact Keeps.throw _

theorem putDecimal_writes (hF : Conversions F) (h : col.Positioned) {t : CAPIType} {p s : ℕ}
    (hk : col.kind = .decimal t p s) (k : ℕ) (unscaled scale : ℤ) :
    Writes F col (putDecimal t p s k unscaled scale) :=
  putConverted_writes h _ _ fun _ hx => hk ▸ hF.decimal hx

/-! ### Arrays -/

theorem checkArrayLength_writes (c d : Column) (n : ℤ) : Writes F col (checkArrayLength c d n) := by
  unfold checkArrayLength
  split
  · exact Keeps.pure ()
  · exact Keeps.require _ _
  · exact Keeps.throw _

theorem arrayInnerColumn_writes (d : Column) (ctypes : List CAPIType) :
    Writes F col (arrayInnerColumn d ctypes) := by
  refine (Keeps.require _ _).bind fun _ => ?_
  split
  · exact Keeps.throw _
  · exact (Keeps.require _ _).bind fun _ => Keeps.pure _

theorem innerNullMask_writes (mask : Option (List (Option (List Bool)))) (i : ℕ) :
    Writes F col (innerNullMask mask i) := by
  unfold innerNullMask
  split
  · exact Keeps.pure _
  · split
    · exact Keeps.throw _
    · exact Keeps.pure _

/-- The bulk puts for the elements of these types. -/
def BulkPut (F : TypeKind → Cell → Prop) (ctypes : List CAPIType)
    (write : ℤ → List Cell → PutM Unit) : Prop :=
  ∀ (col : Column), col.colType ∈ ctypes → ∀ pos cells, Writes F col (write pos cells)

theorem putArrayWith_writes (hF : Conversions F) {ctypes : List CAPIType}
    {write : ℤ → List Cell → PutM Unit} (h : BulkPut F ctypes write) (eng : Engine) (k : ℕ)
    (cells : List Cell) (mask : Option (List Bool)) :
    Writes F col (putArrayWith ctypes write eng col k cells mask) := by
  refine Keeps.bind_of (arrayInnerColumn_writes _ _) ?_
  intro v d w hx
  obtain ⟨_, hd, hmem, _⟩ := arrayInnerColumn_eq_ok hx
  exact ((checkArrayLength_writes _ _ _).bind fun _ => (prepareListColumn_writes hF hd _ _ _).bind
    fun _ => (setNullMask_writes hd _ _ _).bind fun _ => Writes.onField hd (h d hmem _ _)) w

theorem putArrays_writes {ctypes : List CAPIType} {write : ℤ → List Cell → PutM Unit}
    (h : BulkPut F ctypes write) {d e : Column} (hd : col.get? 0 = some d)
    (he : d.get? 0 = some e) (hmem : e.colType ∈ ctypes) (l k : ℕ)
    (mask : Option (List (Option (List Bool)))) : ∀ (values : List (Option (List Cell))) (i : ℕ),
    Writes F col (putArrays write d e l k mask i values)
  | [], _ => Keeps.pure ()
  | none :: rest, i => by
    rw [putArrays]
    exact (Writes.onField hd (setNullOnVectorIdx_writes _)).bind fun _ =>
      putArrays_writes h hd he hmem l k mask rest (i + 1)
  | some cells :: rest, i => by
    rw [putArrays]
    exact (checkArrayLength_writes _ _ _).bind fun _ => (innerNullMask_writes _ _).bind fun _ =>
      (Writes.onField hd (Writes.onField he (setArrayNullMask_writes _ _ _ _))).bind fun _ =>
        (Writes.onField hd (Writes.onField he (h e hmem _ _))).bind fun _ =>
          putArrays_writes h hd he hmem l k mask rest (i + 1)

theorem putArray2DWith_writes {ctypes : List CAPIType} {write : ℤ → List Cell → PutM Unit}
    (h : BulkPut F ctypes write) (l k : ℕ) (values : List (Option (List Cell)))
    (mask : Option (List (Option (List Bool)))) :
    Writes F col (putArray2DWith ctypes write col l k values mask) := by
  refine Keeps.bind_of (arrayInnerColumn_writes _ _) ?_
  intro v d w hx
  obtain ⟨_, hd, _, _⟩ := arrayInnerColumn_eq_ok hx
  refine ((checkArrayLength_writes _ _ _).bind fun _ =>
    Keeps.bind_of (arrayInnerColumn_writes _ _) ?_) w
  intro v e w hx
  obtain ⟨_, he, hmem, _⟩ := arrayInnerColumn_eq_ok hx
  exact putArrays_writes h hd he hmem l k mask values 0 w

/-- An element of one byte. -/
theorem positioned_of_byte (h : col.colType ∈ [CAPIType.boolean, .tinyint, .utinyint]) :
    col.Positioned := by
  have h : col.kind.colType ∈ [CAPIType.boolean, .tinyint, .utinyint] := h
  cases hk : col.kind with
  | scalar t ht =>
    rw [hk, TypeKind.colType] at h
    refine ⟨.inr ?_, by rw [hk]; rfl⟩
    rw [hk]
    show t.widthBytes = 1
    simp only [List.mem_cons, List.not_mem_nil, or_false] at h
    rcases h with rfl | rfl | rfl <;> rfl
  | unlisted t =>
    rw [hk, TypeKind.colType] at h
    cases t <;> simp [UnlistedType.colType] at h
  | _ =>
    rw [hk, TypeKind.colType] at h
    simp at h

theorem putView_bulk (hF : Conversions F) (w : ℕ) {ctypes : List CAPIType}
    (hc : CAPIType.decimal ∉ ctypes) : BulkPut F ctypes (putView w) :=
  fun _ hmem pos _ => putView_writes w pos fun _ _ => hF.other fun hk => hc (hk ▸ hmem)

theorem putBytes_bulk (hF : Conversions F) {ctypes : List CAPIType}
    (hc : ∀ t ∈ ctypes, t ∈ [CAPIType.boolean, .tinyint, .utinyint]) :
    BulkPut F ctypes putBytes := fun d hmem pos _ => by
  have hbyte := hc _ hmem
  refine putBytes_writes (positioned_of_byte hbyte) pos fun _ _ => hF.other fun hk => ?_
  have hk : d.colType = .decimal := hk
  rw [hk] at hbyte
  revert hbyte
  decide

theorem PrimKind.putArray_writes (hF : Conversions F) (kind : PrimKind) (eng : Engine) (k : ℕ)
    (values : List kind.Val) (mask : Option (List Bool)) :
    Writes F col (kind.putArray eng col k values mask) := by
  cases kind with
  | boolean | byte => exact putArrayWith_writes hF (putBytes_bulk hF (by decide)) _ _ _ _
  | short | int | long | float | double =>
    exact putArrayWith_writes hF (putView_bulk hF _ (by decide)) _ _ _ _

theorem PrimKind.putArray2D_writes (hF : Conversions F) (kind : PrimKind) (env : Env) (k : ℕ)
    (values : List (Option (List kind.Val))) (mask : Option (List (Option (List Bool)))) :
    Writes F col (kind.putArray2D env col k values mask) := by
  cases kind with
  | boolean | byte => exact putArray2DWith_writes (putBytes_bulk hF (by decide)) _ _ _ _
  | short | int | long | float | double =>
    exact putArray2DWith_writes (putView_bulk hF _ (by decide)) _ _ _ _

/-! ### Unions -/

theorem setOthersNull_writes (m k : ℕ) : ∀ (ts : List LogicalType) (i : ℕ),
    (∀ j t, ts[j]? = some t → col.type.children[i + j]? = some t) →
      Writes F col (setOthersNull col m k i ts)
  | [], _, _ => Keeps.pure ()
  | t :: ts, i, h => by
    rw [setOthersNull]
    exact (Keeps.ite (Keeps.pure ())
      (onType_writes rfl (h 0 t rfl) (Column.setNull_writes _ _))).bind fun _ =>
        setOthersNull_writes m k ts (i + 1) fun j u hu => by
          rw [show i + 1 + j = i + (j + 1) by omega]
          exact h (j + 1) u hu

theorem putUnionTag_writes (hF : Conversions F) (hw : col.type.Wf) (k : ℕ) (tag : String) :
    Writes F col (putUnionTag col k tag) := by
  unfold putUnionTag
  split
  · next names hk =>
    have hshape := hw.shape
    rw [show col.type.kind = .union names from hk] at hshape
    obtain ⟨⟨t, ts, hcs⟩, _⟩ := hshape
    have hd : col.get? 0 = some (.child col 0 (.node (.scalar .utinyint rfl) [])) := by
      rw [Column.get?, hcs]
      rfl
    split
    · exact Keeps.throw _
    · refine (Writes.onField hd (putCell_writes ⟨.inr rfl, rfl⟩ _ _ (hF.other nofun))).bind fun _ =>
        (setOthersNull_writes _ _ _ _ fun j u hu => ?_).bind fun _ => Keeps.pure _
      rw [Nat.add_comm, ← List.getElem?_tail]
      exact hu
  · exact Keeps.throw _

end

/-! ### Elements of composites -/

section
variable {env : Env}

attribute [local irreducible] toInt

theorem putCompositeElementArray_writes (hF : Conversions F) (col : Column) (k : ℕ) (value : Obj) :
    Writes F col (putCompositeElementArray env col k value) := by
  unfold putCompositeElementArray
  split
  · exact Keeps.throw _
  · split
    · split
      · exact PrimKind.putArray2D_writes hF _ _ _ _ _
      · exact Keeps.throw _
    · split
      · exact Keeps.throw _
      · split
        · exact Keeps.ite (PrimKind.putArray_writes hF _ _ _ _ _) (Keeps.throw _)
        · exact Keeps.throw _

theorem scalar_colType_ne {t : CAPIType} (ht : t.isScalar = true) : t ≠ .decimal := by
  rintro rfl
  cases ht

theorem putScalarElement_writes {col : Column} (hpos : col.Positioned)
    (hF : ∀ c, F col.kind c) (env : Env) (t : CAPIType) (k : ℕ) (value : Obj) :
    Writes F col (putScalarElement env t k value) := by
  unfold putScalarElement
  split
  · split
    · exact putStringOrBlob_writes hpos _ _ _ fun _ => hF _
    · exact Keeps.throw _
  · split
    · exact putStringOrBlob_writes hpos _ _ _ fun _ => hF _
    · exact Keeps.throw _
  · exact putConverted_writes hpos _ _ fun _ _ => hF _

theorem putPlainElement_writes (hF : Conversions F) {col : Column} (h : col.nestedElement = false)
    (k : ℕ) (value : Obj) : Writes F col (putPlainElement env col k value) := by
  have hpos : col.kind.isListOrMap = false → col.Positioned := fun hl => ⟨.inl h, hl⟩
  unfold putPlainElement
  split
  · next hk =>
    split
    · exact putDecimal_writes hF (hpos (by rw [hk]; rfl)) hk _ _ _
    · exact Keeps.throw _
  · next hk =>
    split
    · exact putEnum_writes (hpos (by rw [hk]; rfl)) _ _ _ _ fun _ => hF.other (by rw [hk]; nofun)
    · exact Keeps.throw _
  · next t ht hk =>
    exact putScalarElement_writes (hpos (by rw [hk]; rfl))
      (fun _ => hF.other (by rw [hk]; exact scalar_colType_ne ht)) _ _ _ _
  · next t hk =>
    exact putScalarElement_writes (hpos (by rw [hk]; rfl))
      (fun _ => hF.other (by rw [hk]; exact scalar_colType_ne t.colType_isScalar)) _ _ _ _
  · exact putCompositeElementArray_writes hF _ _ _
  · exact Keeps.throw _
  · exact Keeps.throw _
  · split <;> exact Keeps.throw _
  · exact Keeps.throw _

theorem beginElements_writes (hF : Conversions F) {col d : Column} (hd : col.get? 0 = some d)
    (k : ℕ) (count : ℤ) : Writes F col (beginElements env.eng col d k count) := by
  refine (checkArrayLength_writes _ _ _).bind fun _ =>
    ((prepareListColumn_writes hF hd _ _ _).bind fun _ => Keeps.pure _).bind fun _ => ?_
  exact Keeps.ite ((Writes.onField hd keeps_getRoot).bind fun _ => Keeps.pure _) (Keeps.pure _)

theorem beginEntries_writes (hF : Conversions F) {col d : Column} (hd : col.get? 0 = some d)
    (k size : ℕ) : Writes F col (beginEntries env.eng col d k size) :=
  ((prepareListColumn_writes hF hd _ _ _).bind fun _ => Keeps.pure _).bind fun _ =>
    (Writes.onField hd keeps_getRoot).bind fun _ => Keeps.pure _

theorem onField_writes {col : Column} {f : Column → PutM Unit} (i : ℕ)
    (h : ∀ d, col.get? i = some d → Writes F d (f d)) : Writes F col (col.onField i f) := by
  unfold Column.onField
  split
  · next d hd => exact Writes.onField hd (h d hd)
  · exact Keeps.throw _

/-- The columns that values are put in one at a time. -/
structure Column.Target (col : Column) : Prop where
  wf : col.type.Wf
  nestedElement : col.nestedElement = false

theorem Column.Target.field {col d : Column} {i : ℕ} (h : col.Target) (hk : col.colType ≠ .array)
    (hd : col.get? i = some d) : d.Target := by
  refine ⟨?_, Column.get?_nestedElement hd hk⟩
  obtain ⟨t, ht, rfl⟩ := Column.get?_eq hd
  exact h.wf.child (List.mem_of_getElem? ht)

theorem colType_ne_array {col : Column} {kind : TypeKind} (hk : col.kind = kind)
    (h : kind.colType ≠ .array) : col.colType ≠ .array := by
  subst hk
  exact h

/-- The child of a `MAP` is a `STRUCT`. -/
theorem Column.Target.entry {col d : Column} {i : ℕ} (h : col.Target) (hk : col.kind = .map)
    (hd : col.get? i = some d) : d.Target ∧ d.colType ≠ .array := by
  refine ⟨h.field (colType_ne_array hk nofun) hd, ?_⟩
  obtain ⟨t, ht, rfl⟩ := Column.get?_eq hd
  have hshape := h.wf.shape
  rw [show col.type.kind = .map from hk] at hshape
  obtain ⟨names, key, value, hcs⟩ := hshape
  rw [hcs] at ht
  obtain ⟨_, rfl⟩ : i = 0 ∧ .node (.struct names) [key, value] = t := by
    cases i with
    | zero => exact ⟨rfl, Option.some.inj ht⟩
    | succ i => cases ht
  nofun

mutual

theorem putCompositeElement_writes (hF : Conversions F) : ∀ {col : Column}, col.Target →
    ∀ (k : ℕ) (value : Obj), Writes F col (putCompositeElement env col k value)
  | col, h, k, .null => by
    rw [putCompositeElement]
    exact col.setNull_writes k
  | col, h, k, .collection elems => by
    rw [putCompositeElement]
    split
    · next hk hd =>
      exact (beginElements_writes hF hd _ _).bind fun _ => Writes.onField hd
        (putElements_writes hF (h.field (colType_ne_array hk nofun) hd) _ _ _ elems)
    · next hk =>
      exact (Keeps.require _ _).bind fun _ =>
        putFields_writes hF h (colType_ne_array hk nofun) _ _ elems
    · exact putPlainElement_writes hF h.nestedElement _ _
  | col, h, k, .map linked entries => by
    rw [putCompositeElement]
    split
    · next hk hd =>
      exact (beginEntries_writes hF hd _ _).bind fun _ => Writes.onField hd
        (putEntries_writes hF (h.entry hk hd) _ entries)
    · next hk =>
      exact (Keeps.require _ _).bind fun _ => (Keeps.require _ _).bind fun _ =>
        putValues_writes hF h (colType_ne_array hk nofun) _ _ entries
    · exact putPlainElement_writes hF h.nestedElement _ _
  | col, h, k, .simpleEntry tag value => by
    rw [putCompositeElement]
    split
    · next hk =>
      exact (putUnionTag_writes hF h.wf _ _).bind fun _ => onField_writes _ fun d hd =>
        putCompositeElement_writes hF (h.field (colType_ne_array hk nofun) hd) k value
    · exact putPlainElement_writes hF h.nestedElement _ _
  | col, h, k, .boxed .. | col, h, k, .bigInteger _ | col, h, k, .bigDecimal ..
  | col, h, k, .string _ | col, h, k, .uuid .. | col, h, k, .localDate _ | col, h, k, .localTime _
  | col, h, k, .offsetTime .. | col, h, k, .localDateTime .. | col, h, k, .date _
  | col, h, k, .offsetDateTime .. | col, h, k, .primArray .. | col, h, k, .primArray2D ..
  | col, h, k, .other => by
    simp only [putCompositeElement]
    exact putPlainElement_writes hF h.nestedElement _ _

theorem putElements_writes (hF : Conversions F) : ∀ {col : Column}, col.Target →
    ∀ (offset : ℕ) (count : ℤ) (i : ℕ) (values : List Obj),
      Writes F col (putElements env col offset count i values)
  | col, h, offset, count, i, [] => by
    rw [putElements]
    exact Keeps.require _ _
  | col, h, offset, count, i, value :: values => by
    rw [putElements]
    exact Keeps.ite ((putCompositeElement_writes hF h _ value).bind fun _ =>
      putElements_writes hF h offset count (i + 1) values) (Keeps.pure ())

theorem putFields_writes (hF : Conversions F) : ∀ {col : Column}, col.Target →
    col.colType ≠ .array → ∀ (k i : ℕ) (values : List Obj),
      Writes F col (putFields env col k i values)
  | col, h, hk, k, i, [] => by
    rw [putFields]
    exact Keeps.pure ()
  | col, h, hk, k, i, value :: values => by
    rw [putFields]
    exact (onField_writes i fun d hd =>
      putCompositeElement_writes hF (h.field hk hd) k value).bind fun _ =>
        putFields_writes hF h hk k (i + 1) values

theorem putValues_writes (hF : Conversions F) : ∀ {col : Column}, col.Target →
    col.colType ≠ .array → ∀ (k i : ℕ) (entries : List (Obj × Obj)),
      Writes F col (putValues env col k i entries)
  | col, h, hk, k, i, [] => by
    rw [putValues]
    exact Keeps.pure ()
  | col, h, hk, k, i, (_, value) :: entries => by
    rw [putValues]
    exact (onField_writes i fun d hd =>
      putCompositeElement_writes hF (h.field hk hd) k value).bind fun _ =>
        putValues_writes hF h hk k (i + 1) entries

theorem putEntries_writes (hF : Conversions F) : ∀ {col : Column}, col.Target ∧
    col.colType ≠ .array → ∀ (k : ℕ) (entries : List (Obj × Obj)),
      Writes F col (putEntries env col k entries)
  | col, h, k, [] => by
    rw [putEntries]
    exact Keeps.pure ()
  | col, h, k, (key, value) :: entries => by
    rw [putEntries]
    exact (Keeps.require _ _).bind fun _ =>
      (onField_writes 0 fun d hd => putCompositeElement_writes hF (h.1.field h.2 hd) k key).bind
        fun _ => (onField_writes 1 fun d hd =>
          putCompositeElement_writes hF (h.1.field h.2 hd) k value).bind fun _ =>
            putEntries_writes hF h (k + 1) entries

end

/-- What an overload may store in a column of its types. -/
def Stored.Fits (F : TypeKind → Cell → Prop) (col : Column) : Stored → Prop
  | .fixed _ | .bytes _ => col.colType ≠ .decimal ∧ col.kind.isListOrMap = false
  | .decimal t cell => ∀ p s, col.kind = .decimal t p s → F col.kind cell
  | .entries _ => col.colType = .map
  | _ => True

theorem kind_eq_map {kind : TypeKind} (h : kind.colType = .map) : kind = .map := by
  cases kind with
  | map => rfl
  | scalar t ht =>
    rw [TypeKind.colType] at h
    subst h
    cases ht
  | unlisted t => cases t <;> cases h
  | _ => cases h

theorem Stored.put_writes (hF : Conversions F) {col : Column} (hw : col.type.Wf)
    (hb : col.nested = false) (k : ℕ) {x : Stored} (hx : x.Fits F col) :
    Writes F col (x.put env col k) := by
  have hpos : col.kind.isListOrMap = false → col.Positioned := fun hl =>
    ⟨.inl (Column.nestedElement_of_nested hb), hl⟩
  cases x with
  | null => exact col.setNull_writes k
  | fixed cell => exact putConverted_writes (hpos hx.2) _ _ fun _ _ => hF.other hx.1
  | decimal internalType cell =>
    simp only [Stored.put]
    split
    · next t p s hk =>
      refine Keeps.bind_of (Keeps.require _ _) fun v _ w hr => ?_
      obtain ⟨rfl, rfl⟩ := require_eq_ok.1 hr
      exact putCell_writes (hpos (by rw [hk]; rfl)) _ _ (hx p s hk) v
    · exact Keeps.throw _
  | bigDecimal unscaled scale =>
    simp only [Stored.put]
    split
    · next hk => exact putDecimal_writes hF (hpos (by rw [hk]; rfl)) hk _ _ _
    · exact Keeps.throw _
  | text st =>
    simp only [Stored.put]
    split
    · next hk =>
      exact putEnum_writes (hpos (by rw [hk]; rfl)) _ _ _ _ fun _ =>
        hF.other (by simp [hk, TypeKind.colType])
    · split
      · next hc =>
        exact putStringOrBlob_writes
          (hpos (TypeKind.isListOrMap_of_ne (by simp [hc]) (by simp [hc]))) _ _ _ fun _ =>
            hF.other (by simp [hc])
      · exact Keeps.throw _
  | bytes bs => exact putStringOrBlob_writes (hpos hx.2) _ _ _ fun _ => hF.other hx.1
  | array kind values mask => exact PrimKind.putArray_writes hF _ _ _ _ _
  | array2D kind values mask => exact PrimKind.putArray2D_writes hF _ _ _ _ _
  | elements elems count =>
    simp only [Stored.put]
    split
    · next d hd =>
      have hd' : d.Target := by
        refine ⟨?_, Column.get?_nestedElement_of hd hb⟩
        obtain ⟨t, ht, rfl⟩ := Column.get?_eq hd
        exact hw.child (List.mem_of_getElem? ht)
      exact (beginElements_writes hF hd _ _).bind fun _ =>
        Writes.onField hd (putElements_writes hF hd' _ _ _ elems)
    · exact Keeps.throw _
  | entries es =>
    simp only [Stored.put]
    split
    · next d hd =>
      have hcol : col.Target := ⟨hw, Column.nestedElement_of_nested hb⟩
      exact (beginEntries_writes hF hd _ _).bind fun _ =>
        Writes.onField hd (putEntries_writes hF (hcol.entry (kind_eq_map hx) hd) _ es)
    · exact Keeps.throw _

theorem checkInnerTypes_writes {col : Column} : ∀ (rest : List (List CAPIType)) (d : Column),
    Writes F col (checkInnerTypes d rest)
  | [], _ => Keeps.pure ()
  | _ :: rest, _ => by
    rw [checkInnerTypes]
    exact (arrayInnerColumn_writes _ _).bind fun d => checkInnerTypes_writes rest d

theorem colType_of_isListOrMap {kind : TypeKind} (h : kind.isListOrMap = true) :
    kind.colType = .list ∨ kind.colType = .map := by
  cases kind with
  | list => exact .inl rfl
  | map => exact .inr rfl
  | _ => cases h

theorem PrimKind.notMem_types (k : PrimKind) :
    ∀ t ∈ [CAPIType.decimal, .list, .map], t ∉ k.types := by
  cases k <;> decide

theorem Append.stored_fits {col : Column} {a : Append} (hmem : col.colType ∈ a.types)
    (h : ∀ t cell, a.stored col.colType = .decimal t cell → ∀ p s, col.kind = .decimal t p s →
      F col.kind cell) :
    (a.stored col.colType).Fits F col := by
  have hne : (∀ t ∈ [CAPIType.decimal, .list, .map], t ∉ a.types) →
      col.colType ≠ .decimal ∧ col.kind.isListOrMap = false := by
    refine fun hd => ⟨fun hk => hd _ (by decide) (hk ▸ hmem), Bool.eq_false_iff.2 fun hl => ?_⟩
    rcases colType_of_isListOrMap hl with hk | hk
    · exact hd .list (by decide) (hk ▸ hmem)
    · exact hd .map (by decide) (hk ▸ hmem)
  cases a with
  | prim k v => exact hne k.notMem_types
  | boxed k v =>
    cases v with
    | none => trivial
    | some v => exact hne k.notMem_types
  | decimalShort v | decimalInt v | decimalLong v | decimalLongs l u => exact h _ _ rfl
  | hugeInt | uuidBits | epochDays | dayMicros | dayMicrosOffset | epochSeconds | epochMillis
  | epochMicros | epochNanos => exact hne (by simp [Append.types])
  | bigInteger v | uuid v | localDate v | localTime v | offsetTime v | localDateTime v | date v
  | offsetDateTime v | bytes v =>
    cases v with
    | none => trivial
    | some v => exact hne (by simp [Append.types, timestampLocalTypes])
  | map v =>
    cases v with
    | none => trivial
    | some v => exact List.mem_singleton.1 hmem
  | char => trivial
  | character v | bigDecimal v | chars v | string v | collection v | iterable v | iterator v
  | array _ v | array2D _ v => cases v <;> trivial

theorem Append.write_writes (hF : Conversions F) {col : Column} (hw : col.type.Wf)
    (hb : col.nested = false) {a : Append}
    (h : ∀ t cell, a.stored col.colType = .decimal t cell → ∀ p s, col.kind = .decimal t p s →
      F col.kind cell) : Writes F col (a.write env col) := by
  refine Keeps.bind_of (Keeps.require _ _) fun v _ w hx => ?_
  obtain ⟨hmem, rfl⟩ := require_eq_ok.1 hx
  exact ((checkInnerTypes_writes _ _).bind fun _ =>
    Stored.put_writes hF hw hb _ (Append.stored_fits hmem h)) v

end

end DuckDBJava
