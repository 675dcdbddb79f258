/-
  The positions of the appender as `int`s: where the narrowed product is the product.

  Outside composites below an `ARRAY` the buffers bound every position (`Fetchables.addressable`).
  The elements of an `ARRAY` may be composites of which the buffers cover only a part; there a
  position can wrap to a smaller one.  `Addressable` is the bound that rules it out, and
  `putCompositeElement_eq` says that under it an element is put as with positions of any size.
-/
import DuckDBJava.Appender.UnboundedPositions

namespace DuckDBJava

open Exec PathTree

/-! ## The positions of a slot -/

/-- The element types of the primitive arrays. -/
def primitiveTypes : List CAPIType :=
  [.boolean, .tinyint, .utinyint, .smallint, .usmallint, .integer, .uinteger, .bigint, .ubigint,
    .float, .double]

theorem PrimKind.types_primitive {kind : PrimKind} {t : CAPIType} (h : t ∈ kind.types) :
    t ∈ primitiveTypes := by
  revert t
  cases kind <;> decide

theorem widthBytes_pos_of_primitive {t : CAPIType} (h : t ∈ primitiveTypes) : 0 < t.widthBytes := by
  revert t
  decide

/-- The elements a primitive array addresses for every element of the `ARRAY` around it. -/
def elementPositions : List LogicalType → ℕ
  | .node (.array m) (leaf :: _) :: _ => if leaf.colType ∈ primitiveTypes then m else 0
  | t :: _ => if t.colType ∈ primitiveTypes then 1 else 0
  | [] => 0

namespace TypeKind

/-- The positions for each slot: bytes, the longs of a list entry, or elements. -/
def positions (kind : TypeKind) (cs : List LogicalType) : ℕ :=
  match kind with
  | .list | .map => 2
  | .array n => n * elementPositions cs
  | k => k.widthBytes

/-- The factors by which `setNull` multiplies a slot of a column with these array sizes. -/
def marks (kind : TypeKind) (arraySize parentArraySize : ℕ) : ℕ :=
  match kind with
  | .array n => max (arraySize * parentArraySize) (n * arraySize)
  | _ => 1

/-- The factor by which `putIntArray2D` multiplies the row. -/
def rowMarks (kind : TypeKind) (arraySize : ℕ) (cs : List LogicalType) : ℕ :=
  match kind, cs with
  | .array n, .node (.array _) (leaf :: _) :: _ =>
    if leaf.colType ∈ PrimKind.int.types then n * arraySize else 0
  | _, _ => 0

end TypeKind

/-- The positions of the first `slots` slots are `int`s, in rows before `rows`; a validity bit is
    found through the number of its `long`. -/
structure SlotsFit (rows slots arraySize parentArraySize : ℕ) (t : LogicalType) : Prop where
  positions : slots * t.kind.positions t.children ≤ 2 ^ 31
  marks : slots * t.kind.marks arraySize parentArraySize ≤ 2 ^ 37
  rowMarks : rows * t.kind.rowMarks arraySize t.children ≤ 2 ^ 37

/-- So they are for whatever is put into the slots.  Below a `LIST` or `MAP` the buffers are
    fetched for the slots that are put into. -/
inductive Addressable (rows : ℕ) : ℕ → ℕ → ℕ → LogicalType → Prop
  | node {slots a p t} : SlotsFit rows slots a p t → (t.colType ≠ .array → ∀ u ∈ t.children,
      Addressable rows (if t.kind.isListOrMap then 0 else slots) 1 a u) →
      Addressable rows slots a p t

theorem Addressable.fits {rows slots a p : ℕ} {t : LogicalType}
    (h : Addressable rows slots a p t) : SlotsFit rows slots a p t := by
  cases h with
  | node h _ => exact h

theorem Addressable.child {rows slots a p : ℕ} {t u : LogicalType}
    (h : Addressable rows slots a p t) (ht : t.colType ≠ .array) (hu : u ∈ t.children) :
    Addressable rows (if t.kind.isListOrMap then 0 else slots) 1 a u := by
  cases h with
  | node _ h => exact h ht u hu

theorem addressable_zero (t : LogicalType) : ∀ a p, Addressable 0 0 a p t := by
  induction t using LogicalType.ind with
  | h kind cs ih =>
    intro a p
    refine .node ⟨by simp, by simp, by simp⟩ fun _ u hu => ?_
    rw [ite_self]
    exact ih u hu 1 a

/-- The buffers of a column and of the columns below it outside lists, for `m` entries. -/
inductive Fetchables (eng : Engine) : ℕ → ℕ → ℕ → LogicalType → Prop
  | node {m a p t} : Fetchable eng t.kind (maxElementsCount m a p) →
      (t.kind.isListOrMap = false → ∀ u ∈ t.children,
        Fetchables eng m t.kind.childArraySize a u) → Fetchables eng m a p t

theorem Capped.fetchables {eng : Engine} {m a p : ℕ} {t : LogicalType} {v : Vec}
    (h : Capped eng m a p t v) : Fetchables eng m a p t := by
  induction h with
  | node hcap hf _ ih =>
    refine .node (hcap ▸ hf) fun hl u hu => ?_
    obtain ⟨i, hi⟩ := List.mem_iff_getElem?.1 hu
    have := ih i u hi
    rwa [hl] at this

theorem Fetchables.root {eng : Engine} {m a p : ℕ} {t : LogicalType}
    (h : Fetchables eng m a p t) : Fetchable eng t.kind (maxElementsCount m a p) := by
  cases h with
  | node h _ => exact h

theorem Fetchables.child {eng : Engine} {m a p : ℕ} {t u : LogicalType}
    (h : Fetchables eng m a p t) (hl : t.kind.isListOrMap = false) (hu : u ∈ t.children) :
    Fetchables eng m t.kind.childArraySize a u := by
  cases h with
  | node _ h => exact h hl u hu

theorem widthBytes_pos_of_colType {t : LogicalType} (h : t.colType ∈ primitiveTypes) :
    0 < t.kind.widthBytes := by
  have hd : t.kind.colType ≠ .decimal := fun he => by
    rw [LogicalType.colType, he] at h; revert h; decide
  have he : t.kind.colType ≠ .enum := fun he => by
    rw [LogicalType.colType, he] at h; revert h; decide
  rw [TypeKind.widthBytes_of_colType hd he]
  exact widthBytes_pos_of_primitive h

/-- Elements within a buffer are within an `int`. -/
theorem Fetchable.elements {eng : Engine} {t : LogicalType} {n : ℕ} (h : Fetchable eng t.kind n)
    (ht : t.colType ∈ primitiveTypes) : n < 2 ^ 31 :=
  lt_of_le_of_lt (Nat.le_mul_of_pos_right n (widthBytes_pos_of_colType ht)) h.data_lt

theorem Fetchables.elementPositions {eng : Engine} {m n p : ℕ} {cs : List LogicalType}
    (h : Fetchables eng m 1 p (.node (.array n) cs)) :
    m * (n * DuckDBJava.elementPositions cs) ≤ 2 ^ 31 := by
  unfold DuckDBJava.elementPositions
  split
  · next k leaf _ _ =>
    split
    · next hleaf =>
      have hd := h.child rfl List.mem_cons_self
      have := (hd.child rfl (u := leaf) List.mem_cons_self).root.elements hleaf
      have heq : m * (n * k) = maxElementsCount m k n := by
        rw [maxElementsCount, Nat.mul_comm n k, Nat.mul_assoc]
      exact heq ▸ this.le
    · simp
  · next d ds _ =>
    split
    · next hd =>
      have := (h.child rfl (u := d) List.mem_cons_self).root.elements hd
      have heq : m * (n * 1) = maxElementsCount m n 1 := by
        rw [maxElementsCount, Nat.mul_assoc]
      exact heq ▸ this.le
    · simp
  · simp

theorem Fetchables.slotsFit {eng : Engine} {rows m p : ℕ} {t : LogicalType}
    (h : Fetchables eng m 1 p t) (hw : t.Wf) (hp : 0 < p)
    (hrows : rows * t.kind.rowMarks 1 t.children ≤ 2 ^ 37) : SlotsFit rows m 1 p t := by
  have hm : m ≤ maxElementsCount m 1 p := by
    rw [maxElementsCount, Nat.mul_one]
    exact Nat.le_mul_of_pos_right m hp
  have hdata : m * t.kind.widthBytes < 2 ^ 31 :=
    lt_of_le_of_lt (Nat.mul_le_mul_right _ hm) h.root.data_lt
  have hbits := h.root.lt
  obtain ⟨kind, cs⟩ := t
  refine ⟨?_, ?_, hrows⟩
  · show m * kind.positions cs ≤ 2 ^ 31
    have hdata : m * kind.widthBytes < 2 ^ 31 := hdata
    cases kind with
    | array n => exact h.elementPositions
    | list | map =>
      have hentry : m * 16 < 2 ^ 31 := hdata
      show m * 2 ≤ 2 ^ 31
      omega
    | _ => exact hdata.le
  · show m * kind.marks 1 p ≤ 2 ^ 37
    cases kind with
    | array n =>
      obtain ⟨_, d, rfl⟩ := hw.shape
      have hchild := (h.child rfl (u := d) List.mem_cons_self).root.lt
      have hn : m * (n * 1) = maxElementsCount m n 1 := by rw [maxElementsCount, Nat.mul_assoc]
      have hp1 : m * (1 * p) = maxElementsCount m 1 p := by rw [maxElementsCount, Nat.mul_assoc]
      show m * max (1 * p) (n * 1) ≤ 2 ^ 37
      rw [← Nat.mul_max_mul_left, hn, hp1]
      exact max_le (by omega) (lt_trans hchild (by decide)).le
    | _ =>
      show m * 1 ≤ 2 ^ 37
      omega

/-- **The buffers bound the positions** of a column that is no element of an `ARRAY`. -/
theorem Fetchables.addressable {eng : Engine} {rows m : ℕ} {t : LogicalType} : ∀ {p : ℕ},
    Fetchables eng m 1 p t → t.Wf → 0 < p → Addressable rows 0 1 p t →
      Addressable rows m 1 p t := by
  induction t using LogicalType.ind with
  | h kind cs ih =>
    intro p h hw hp hrows
    refine .node (h.slotsFit hw hp hrows.fits.rowMarks) fun ht u hu => ?_
    have hchild := hrows.child ht hu
    rw [ite_self] at hchild
    cases hl : kind.isListOrMap with
    | true =>
      rw [LogicalType.kind_node, hl]
      exact hchild
    | false =>
      rw [LogicalType.kind_node, hl]
      have hf := h.child hl hu
      have hone : kind.childArraySize = 1 := by
        cases kind with
        | array n => exact absurd rfl ht
        | _ => rfl
      rw [LogicalType.kind_node, hone] at hf
      exact ih u hu hf (hw.child hu) Nat.one_pos hchild

/-! ## Writes -/

attribute [local irreducible] toInt

/-- The slots before `slots`, `n` positions each, below a bound. -/
theorem slot_add_le {k slots n bound : ℕ} (hk : k < slots) (h : slots * n ≤ bound) :
    k * n + n ≤ bound := by
  rw [← Nat.succ_mul]
  exact (Nat.mul_le_mul_right n hk).trans h

theorem slot_lt {k slots n bound : ℕ} (hk : k < slots) (h : slots * n ≤ bound) (hb : 0 < bound) :
    k * n < bound := by
  have := slot_add_le hk h
  rcases Nat.eq_zero_or_pos n with rfl | hn
  · exact hb
  · omega

theorem putCell_eq {w k : ℕ} (h : k * w < 2 ^ 31) (cell : Cell) :
    putCell w k cell = Unbounded.putCell w k cell := by
  rw [putCell, Unbounded.putCell, toInt_natCast h]

theorem putEntry_eq {k : ℕ} (h : k * 2 < 2 ^ 31) (offset length : ℤ) :
    putEntry k offset length = Unbounded.putEntry k offset length := by
  have hpos : k * CAPIType.list.widthBytes / 8 < 2 ^ 31 := by
    show k * 16 / 8 < 2 ^ 31
    omega
  simp only [putEntry, Unbounded.putEntry]
  rw [toInt_natCast hpos]

theorem putStringOrBlob_eq {k : ℕ} (h : k * CAPIType.varchar.widthBytes < 2 ^ 31) (env : Env)
    (bytes : List UInt8) : putStringOrBlob env k bytes = Unbounded.putStringOrBlob env k bytes := by
  rw [putStringOrBlob, Unbounded.putStringOrBlob, toInt_natCast h]

theorem putEnum_eq {t : CAPIType} {k : ℕ} (h : k * t.widthBytes < 2 ^ 31) (dict : List String)
    (value : String) : putEnum t dict k value = Unbounded.putEnum t dict k value := by
  unfold putEnum Unbounded.putEnum
  cases enumDictGet dict value with
  | none => rfl
  | some num =>
    have hpos : setPosition t.widthBytes (toInt (k * t.widthBytes : ℕ)) =
        setPosition t.widthBytes (k * t.widthBytes : ℕ) := by rw [toInt_natCast h]
    exact congrArg₂ (· >>= ·) hpos rfl

theorem putDecimal_eq {t : CAPIType} {k : ℕ} (h : k * t.widthBytes < 2 ^ 31) (p s : ℕ)
    (unscaled scale : ℤ) :
    putDecimal t p s k unscaled scale = Unbounded.putDecimal t p s k unscaled scale :=
  bind_congr fun cell => putCell_eq h cell

/-! ### NULL marks -/

theorem setNullOnVectorIdx_eq {k : ℤ} (h0 : 0 ≤ k) (h : k < 2 ^ 37) :
    setNullOnVectorIdx k = Unbounded.setNullOnVectorIdx k := by
  have hpos : toInt (k.tdiv 64) = k.tdiv 64 := by
    rw [Int.tdiv_eq_ediv_of_nonneg h0]
    exact toInt_of_lt (by omega) (by omega)
  simp only [setNullOnVectorIdx, Unbounded.setNullOnVectorIdx]
  rw [hpos]

theorem setNullOnArrayIdx_eq {a p k i : ℕ} (h : k * (a * p) + i < 2 ^ 37) :
    setNullOnArrayIdx a p k i = Unbounded.setNullOnArrayIdx a p k i := by
  have heq : (k * a * p + i : ℤ) = (k * (a * p) + i : ℕ) := by push_cast; ring
  rw [setNullOnArrayIdx, Unbounded.setNullOnArrayIdx, heq]
  exact setNullOnVectorIdx_eq (Int.natCast_nonneg _) (by exact_mod_cast h)

theorem setNullOnElements_eq {a n k : ℕ} (h : k * (n * a) + n ≤ 2 ^ 37) :
    ∀ (ts : List LogicalType) (i : ℕ),
      setNullOnElements a n k i ts = Unbounded.setNullOnElements a n k i ts
  | [], _ => rfl
  | _ :: ts, i => by
    rw [setNullOnElements, Unbounded.setNullOnElements, setNullOnElements_eq h ts (i + 1)]
    have hloop : forRange 0 n (fun j => setNullOnArrayIdx n a k j) =
        forRange 0 n fun j => Unbounded.setNullOnArrayIdx n a k j :=
      forRange_congr fun j _ hj => setNullOnArrayIdx_eq (by omega)
    rw [hloop]

theorem Unbounded.setNullAt_array (a p n k : ℕ) (cs : List LogicalType) :
    Unbounded.setNullAt a p (.node (.array n) cs) k = (do
      Unbounded.setNullOnArrayIdx a p k 0
      Unbounded.setNullOnElements a n k 0 cs) := rfl

theorem Unbounded.setNullAt_listOrMap {kind : TypeKind} (h : kind.isListOrMap = true) (a p k : ℕ)
    (cs : List LogicalType) :
    Unbounded.setNullAt a p (.node kind cs) k = Unbounded.setNullOnVectorIdx k :=
  match kind, h with
  | .list, _ | .map, _ => rfl

theorem Unbounded.setNullAt_sharesSlots {kind : TypeKind} (h : kind.sharesSlots = true)
    (a p k : ℕ) (cs : List LogicalType) :
    Unbounded.setNullAt a p (.node kind cs) k = (do
      Unbounded.setNullOnVectorIdx k
      Unbounded.setNullChildren a k 0 cs) :=
  match kind, h with
  | .scalar .., _ | .decimal .., _ | .enum .., _ | .struct _, _ | .union _, _ | .unlisted _, _ =>
    rfl

theorem TypeKind.ne_array_of_sharesSlots {kind : TypeKind} (h : kind.sharesSlots = true) :
    kind.colType ≠ .array := by
  cases kind with
  | scalar t ht =>
    rintro rfl
    cases ht
  | array n => cases h
  | unlisted t => cases t <;> exact CAPIType.noConfusion
  | _ => exact CAPIType.noConfusion

mutual

theorem setNullAt_eq {rows slots k : ℕ} (hk : k < slots) : ∀ (t : LogicalType) {a p : ℕ}, 0 < a →
    Addressable rows slots a p t → setNullAt a p t k = Unbounded.setNullAt a p t k
  | .node kind cs, a, p, ha, h => by
    have hmarks : slots * kind.marks a p ≤ 2 ^ 37 := h.fits.marks
    cases kind with
    | array n =>
      have hmax : slots * max (a * p) (n * a) ≤ 2 ^ 37 := hmarks
      have hself : k * (a * p) < 2 ^ 37 :=
        slot_lt hk ((Nat.mul_le_mul_left _ (le_max_left _ _)).trans hmax) (by decide)
      have helements : k * (n * a) + n * a ≤ 2 ^ 37 :=
        slot_add_le hk ((Nat.mul_le_mul_left _ (le_max_right _ _)).trans hmax)
      have hn : n ≤ n * a := Nat.le_mul_of_pos_right n ha
      have hfirst : setNullOnArrayIdx a p k 0 = Unbounded.setNullOnArrayIdx a p k 0 :=
        setNullOnArrayIdx_eq (i := 0) hself
      rw [setNullAt_array, Unbounded.setNullAt_array, hfirst, setNullOnElements_eq (by omega)]
    | list | map =>
      have hk1 : k * 1 < 2 ^ 37 := slot_lt hk hmarks (by decide)
      rw [setNullAt_listOrMap rfl, Unbounded.setNullAt_listOrMap rfl]
      exact setNullOnVectorIdx_eq (Int.natCast_nonneg _) (by exact_mod_cast k.mul_one ▸ hk1)
    | scalar _ _ | decimal _ _ _ | enum _ _ | struct _ | union _ | unlisted _ =>
      have hk1 : k * 1 < 2 ^ 37 := slot_lt hk hmarks (by decide)
      rw [setNullAt_sharesSlots rfl, Unbounded.setNullAt_sharesSlots rfl,
        setNullOnVectorIdx_eq (Int.natCast_nonneg _) (by exact_mod_cast k.mul_one ▸ hk1),
        setNullChildren_eq hk cs fun u hu => h.child (TypeKind.ne_array_of_sharesSlots rfl) hu]

theorem setNullChildren_eq {rows slots k a i : ℕ} (hk : k < slots) : ∀ (ts : List LogicalType),
    (∀ u ∈ ts, Addressable rows slots 1 a u) →
      setNullChildren a k i ts = Unbounded.setNullChildren a k i ts
  | [], _ => rfl
  | t :: ts, h => by
    rw [setNullChildren, Unbounded.setNullChildren,
      setNullAt_eq hk t Nat.one_pos (h t List.mem_cons_self),
      setNullChildren_eq hk ts fun u hu => h u (List.mem_cons_of_mem _ hu)]

end

theorem forNulls_congr {f g : ℕ → PutM Unit} : ∀ (mask : List Bool) {i : ℕ},
    (∀ j, i ≤ j → j < i + mask.length → f j = g j) → forNulls i f mask = forNulls i g mask
  | [], _, _ => rfl
  | b :: mask, i, h => by
    rw [List.length_cons] at h
    rw [forNulls, forNulls, h i le_rfl (by omega),
      forNulls_congr mask fun j hij hj => h j (by omega) (by omega)]

theorem setArrayNullMask_eq {col : Column} {k count parent : ℕ}
    (h : count + col.arraySize * parent ≤ 2 ^ 31)
    (hk : k * (col.arraySize * col.parentArraySize) + (count + col.arraySize * parent) ≤ 2 ^ 37)
    (mask : Option (List Bool)) : setArrayNullMask col k mask count parent =
      Unbounded.setArrayNullMask col k mask count parent := by
  cases mask with
  | none => rfl
  | some mask =>
    funext v
    refine bind_congr_of rfl fun _ w hx => ?_
    have hlen : mask.length = count := (require_eq_ok.1 hx).1
    refine congrFun (forNulls_congr mask fun j _ hj => ?_) w
    rw [Column.setNullOnArrayIdx, toInt_natCast (by omega)]
    exact setNullOnArrayIdx_eq (by omega)

theorem Column.setNull_eq {rows slots k : ℕ} {col : Column}
    (h : Addressable rows slots col.arraySize col.parentArraySize col.type) (hk : k < slots)
    (ha : 0 < col.arraySize) : col.setNull k = Unbounded.setNull col k := setNullAt_eq hk _ ha h

theorem setListNullMask_eq {rows count : ℕ} {col : Column} {v : Vec}
    (h : Addressable rows v.root.listSize col.arraySize col.parentArraySize col.type)
    (ha : 0 < col.arraySize) (mask : Option (List Bool)) :
    setListNullMask col mask count v = Unbounded.setListNullMask col mask count v := by
  cases mask with
  | none => rfl
  | some mask =>
    refine bind_congr_of rfl fun _ w hx => ?_
    obtain ⟨hlen, rfl⟩ := require_eq_ok.1 hx
    rw [getRoot_bind, getRoot_bind]
    refine bind_congr_of rfl fun _ w hx => ?_
    have hle := (require_eq_ok.1 hx).1
    exact congrFun (forNulls_congr mask fun j _ hj => Column.setNull_eq h (by omega) ha) w

/-! ### Lists -/

section
variable {eng : Engine} {col inner : Column} {k : ℕ} {n : ℤ}

theorem prepareListColumn_array (h : col.colType = .array) :
    prepareListColumn eng col inner k n = pure (toInt (k * inner.arraySize : ℕ)) := by
  unfold prepareListColumn
  rw [h]

theorem prepareListColumn_list (h : col.colType = .list ∨ col.colType = .map) :
    prepareListColumn eng col inner k n = (do
      let offset : ℤ := (← getRoot).size
      putEntry k offset n
      listVectorReserve eng (offset + n)
      onChild 0 (inner.resetList eng (offset + n).toNat)
      listVectorSetSize (offset + n)
      return toInt offset) := by
  unfold prepareListColumn
  rcases h with h | h <;> rw [h]

theorem Unbounded.prepareListColumn_array (h : col.colType = .array) :
    Unbounded.prepareListColumn eng col inner k n =
      pure ((k * inner.arraySize : ℕ) : ℤ) := by
  unfold Unbounded.prepareListColumn
  rw [h]

theorem Unbounded.prepareListColumn_list (h : col.colType = .list ∨ col.colType = .map) :
    Unbounded.prepareListColumn eng col inner k n = (do
      let offset : ℤ := (← getRoot).size
      Unbounded.putEntry k offset n
      listVectorReserve eng (offset + n)
      onChild 0 (inner.resetList eng (offset + n).toNat)
      listVectorSetSize (offset + n)
      return offset) := by
  unfold Unbounded.prepareListColumn
  rcases h with h | h <;> rw [h]

/-- What a call that returns normally has prepared for the elements of a list. -/
structure Prepared (eng : Engine) (inner : Column) (size : ℕ) (n : ℤ) (w : Vec) : Prop where
  nonneg : 0 ≤ size + n
  listSize : (w.child 0).root.listSize = (size + n).toNat
  fetchables : Fetchables eng (size + n).toNat inner.arraySize inner.parentArraySize inner.type

theorem prepareListColumn_prepared (h : col.colType = .list ∨ col.colType = .map) {v w : Vec}
    {pos : ℤ} (hx : prepareListColumn eng col inner k n v = .ok pos w) :
    Prepared eng inner v.root.size n w ∧ pos = toInt v.root.size := by
  rw [prepareListColumn_list h, getRoot_bind] at hx
  obtain ⟨_, _, _, hx⟩ := bind_eq_ok.1 hx
  obtain ⟨_, w₁, hreserve, hx⟩ := bind_eq_ok.1 hx
  obtain ⟨_, w₂, hreset, hx⟩ := bind_eq_ok.1 hx
  obtain ⟨_, _, hr, _⟩ := bind_eq_ok.1 hreserve
  obtain ⟨hn, _⟩ := require_eq_ok.1 hr
  obtain ⟨c, hc, rfl⟩ := onChild_eq_ok.1 hreset
  obtain ⟨hsame, hcap⟩ := resetAt_eq_ok _ hc
  cases hx
  refine ⟨⟨hn, ?_, hcap.fetchables⟩, rfl⟩
  obtain ⟨buf, hb⟩ := hsame []
  show (((w₁.setChild 0 c).setRoot _).child 0).root.listSize = _
  rw [child_setRoot, child_setChild_self, root, hb]
  rfl

theorem discard_prepareListColumn_eq (h : col.kind.isListOrMap = true → k * 2 < 2 ^ 31) :
    (discard (prepareListColumn eng col inner k n) : PutM PUnit) =
      discard (Unbounded.prepareListColumn eng col inner k n) := by
  by_cases ha : col.colType = .array
  · rw [prepareListColumn_array ha, Unbounded.prepareListColumn_array ha, discard_pure,
      discard_pure]
  · by_cases hl : col.colType = .list ∨ col.colType = .map
    · rw [prepareListColumn_list hl, Unbounded.prepareListColumn_list hl]
      simp only [putEntry_eq (h (isListOrMap_of_colType hl)), discard_bind, discard_pure]
    · unfold prepareListColumn Unbounded.prepareListColumn
      generalize col.colType = t at ha hl ⊢
      cases t with
      | array => exact absurd rfl ha
      | list => exact absurd (.inl rfl) hl
      | map => exact absurd (.inr rfl) hl
      | _ => rfl

end

/-! ### Primitive arrays -/

theorem TypeKind.array_of_colType {kind : TypeKind} (h : kind.colType = .array) :
    ∃ n, kind = .array n := by
  cases kind with
  | array n => exact ⟨n, rfl⟩
  | scalar t ht =>
    rw [TypeKind.colType] at h
    subst h
    cases ht
  | unlisted t => cases t <;> cases h
  | _ => cases h

theorem elementPositions_of_primitive {cs : List LogicalType} {u : LogicalType}
    (hu : cs[0]? = some u) (h : u.colType ∈ primitiveTypes) : elementPositions cs = 1 := by
  obtain ⟨ts, rfl⟩ : ∃ ts, cs = u :: ts := by
    cases cs with
    | nil => cases hu
    | cons d ts => exact ⟨ts, by rw [Option.some.inj hu]⟩
  unfold elementPositions
  split
  · next heq =>
    cases heq
    have hnot : CAPIType.array ∉ primitiveTypes := by decide
    exact absurd h hnot
  · next heq =>
    cases heq
    rw [if_pos h]
  · next heq => cases heq

theorem elementPositions_of_array {cs ts : List LogicalType} {u : LogicalType} {m : ℕ}
    (hu : cs[0]? = some (.node (.array m) ts)) (hleaf : ts[0]? = some u)
    (h : u.colType ∈ primitiveTypes) : elementPositions cs = m := by
  cases cs with
  | nil => cases hu
  | cons d ds =>
    cases hu
    cases ts with
    | nil => cases hleaf
    | cons w ws =>
      cases hleaf
      exact if_pos h

theorem rowMarks_of_array {cs ts : List LogicalType} {u : LogicalType} {m n a : ℕ}
    (hu : cs[0]? = some (.node (.array m) ts)) (hleaf : ts[0]? = some u)
    (h : u.colType ∈ PrimKind.int.types) : (TypeKind.array n).rowMarks a cs = n * a := by
  cases cs with
  | nil => cases hu
  | cons d ds =>
    cases hu
    cases ts with
    | nil => cases hleaf
    | cons w ws =>
      cases hleaf
      exact if_pos h

theorem checkArrayLength_array {arrayCol col : Column} (h : arrayCol.colType = .array) {n : ℤ}
    {v w : Vec} {u : Unit} (hx : checkArrayLength arrayCol col n v = .ok u w) :
    col.arraySize = n := by
  unfold checkArrayLength at hx
  rw [h] at hx
  exact (require_eq_ok.1 hx).1

theorem setNullMask_array {arrayCol col : Column} (h : arrayCol.colType = .array) (k : ℕ)
    (mask : Option (List Bool)) (count : ℕ) : setNullMask arrayCol col k mask count =
      onChild 0 (setArrayNullMask col k mask count 0) := by
  unfold setNullMask
  rw [h]

theorem setNullMask_list {arrayCol col : Column} (h : arrayCol.colType = .list) (k : ℕ)
    (mask : Option (List Bool)) (count : ℕ) : setNullMask arrayCol col k mask count =
      onChild 0 (setListNullMask col mask count) := by
  unfold setNullMask
  rw [h]

theorem Unbounded.setNullMask_array {arrayCol col : Column} (h : arrayCol.colType = .array) (k : ℕ)
    (mask : Option (List Bool)) (count : ℕ) : Unbounded.setNullMask arrayCol col k mask count =
      onChild 0 (Unbounded.setArrayNullMask col k mask count 0) := by
  unfold Unbounded.setNullMask
  rw [h]

theorem Unbounded.setNullMask_list {arrayCol col : Column} (h : arrayCol.colType = .list) (k : ℕ)
    (mask : Option (List Bool)) (count : ℕ) : Unbounded.setNullMask arrayCol col k mask count =
      onChild 0 (Unbounded.setListNullMask col mask count) := by
  unfold Unbounded.setNullMask
  rw [h]

/-- The offset of a list of primitives is an `int`. -/
theorem prepareListColumn_eq {eng : Engine} {col inner : Column} {k : ℕ} {n : ℤ} {v : Vec}
    (h : col.colType = .list ∨ col.colType = .map) (hk : k * 2 < 2 ^ 31) (hn : 0 ≤ n)
    (ha : 0 < inner.arraySize * inner.parentArraySize)
    (helement : inner.colType ∈ primitiveTypes) :
    prepareListColumn eng col inner k n v = Unbounded.prepareListColumn eng col inner k n v := by
  rw [prepareListColumn_list h, Unbounded.prepareListColumn_list h, getRoot_bind, getRoot_bind]
  simp only [putEntry_eq hk]
  refine bind_congr_of rfl fun _ w₁ _ => bind_congr_of rfl fun _ w₂ _ =>
    bind_congr_of rfl fun _ w₃ hreset => ?_
  obtain ⟨c, hc, _⟩ := onChild_eq_ok.1 hreset
  have hlt := ((resetAt_eq_ok _ hc).2.fetchables.root).elements (t := inner.type) helement
  rw [maxElementsCount, Nat.mul_assoc] at hlt
  have hle := Nat.le_mul_of_pos_right (v.root.size + n).toNat ha
  rw [toInt_natCast (n := v.root.size) (by omega)]

section
variable {rows slots k : ℕ} {kind : PrimKind} {col : Column}

theorem PrimKind.putArray_eq (eng : Engine) (values : List kind.Val) (mask : Option (List Bool)) :
    kind.putArray eng col k values mask =
      putArrayWith kind.types kind.bulk eng col k (values.map kind.cell) mask := by
  cases kind <;> rfl

theorem SlotsFit.positions_array {t : LogicalType} {a p n : ℕ} (h : SlotsFit rows slots a p t)
    (ht : t.kind = .array n) : slots * (n * elementPositions t.children) ≤ 2 ^ 31 := by
  have := h.positions
  rwa [ht] at this

theorem SlotsFit.marks_array {t : LogicalType} {a p n : ℕ} (h : SlotsFit rows slots a p t)
    (ht : t.kind = .array n) : slots * (n * a) ≤ 2 ^ 37 := by
  have hmax := h.marks
  rw [ht] at hmax
  exact (Nat.mul_le_mul_left _ (le_max_right _ _)).trans hmax

theorem SlotsFit.entry {t : LogicalType} {a p : ℕ} (h : SlotsFit rows slots a p t)
    (hk : k < slots) (ht : t.kind.isListOrMap = true) : k * 2 < 2 ^ 31 := by
  have hpos := h.positions
  generalize t.kind = kind at ht hpos
  cases kind with
  | list | map => exact slot_lt hk hpos (by decide)
  | _ => cases ht

theorem childArraySize_of_listOrMap {kind : TypeKind} (h : kind.isListOrMap = true) :
    kind.childArraySize = 1 := by
  cases kind with
  | list | map => rfl
  | _ => cases h

/-- The elements of a prepared list. -/
theorem Prepared.addressable {eng : Engine} {inner : Column} {size : ℕ} {count : ℤ} {w : Vec}
    (h : Prepared eng inner size count w) (hget : col.get? 0 = some inner)
    (hl : col.kind.isListOrMap = true) (hw : col.type.Wf) (ha : 0 < col.arraySize)
    (hrows : Addressable rows 0 1 col.arraySize inner.type) :
    Addressable rows (size + count).toNat inner.arraySize inner.parentArraySize inner.type := by
  obtain ⟨u, hu, rfl⟩ := Column.get?_eq hget
  have hone : (Column.child col 0 u).arraySize = 1 := childArraySize_of_listOrMap hl
  have hf := h.fetchables
  rw [hone] at hf ⊢
  exact hf.addressable (hw.child (List.mem_of_getElem? hu)) ha hrows

theorem putArray_ofArray {inner : Column} {n : ℕ}
    (hf : SlotsFit rows slots col.arraySize col.parentArraySize col.type) (hk : k < slots)
    (ha : 0 < col.arraySize) (hcol : col.kind = .array n) (hget : col.get? 0 = some inner)
    (helement : inner.colType ∈ primitiveTypes) (eng : Engine) (write : ℤ → PutM Unit)
    (mask : Option (List Bool)) {count : ℕ} (hcount : inner.arraySize = count) :
    (do
      let pos ← prepareListColumn eng col inner k count
      setNullMask col inner k mask count
      onChild 0 (write pos) : PutM Unit) = (do
      let pos ← Unbounded.prepareListColumn eng col inner k count
      Unbounded.setNullMask col inner k mask count
      onChild 0 (write pos)) := by
  obtain ⟨u, hu, rfl⟩ := Column.get?_eq hget
  have hct : col.colType = .array := congrArg TypeKind.colType hcol
  have hsize : (Column.child col 0 u).arraySize = n := by rw [Column.arraySize, hcol]; rfl
  obtain rfl : n = count := hsize.symm.trans hcount
  have hpos := hf.positions_array hcol
  rw [elementPositions_of_primitive hu helement, Nat.mul_one] at hpos
  have hbits := slot_add_le hk (hf.marks_array hcol)
  have hn : n ≤ n * col.arraySize := Nat.le_mul_of_pos_right n ha
  have hlast := slot_add_le hk hpos
  rw [prepareListColumn_array hct, Unbounded.prepareListColumn_array hct, hsize,
    toInt_natCast (slot_lt hk hpos (by decide)), setNullMask_array hct,
    Unbounded.setNullMask_array hct, setArrayNullMask_eq (by rw [Nat.mul_zero]; omega) (by
      rw [hsize, Nat.mul_zero]
      show k * (n * col.arraySize) + (n + 0) ≤ 2 ^ 37
      omega)]

theorem putArray_ofList {inner : Column}
    (hf : SlotsFit rows slots col.arraySize col.parentArraySize col.type) (hk : k < slots)
    (ha : 0 < col.arraySize) (hw : col.type.Wf) (hcol : col.colType = .list)
    (hget : col.get? 0 = some inner) (helement : inner.colType ∈ primitiveTypes) (eng : Engine)
    (write : ℤ → PutM Unit) (mask : Option (List Bool)) (count : ℕ) :
    (do
      let pos ← prepareListColumn eng col inner k count
      setNullMask col inner k mask count
      onChild 0 (write pos) : PutM Unit) = (do
      let pos ← Unbounded.prepareListColumn eng col inner k count
      Unbounded.setNullMask col inner k mask count
      onChild 0 (write pos)) := by
  have hl : col.kind.isListOrMap = true := isListOrMap_of_colType (.inl hcol)
  funext v
  obtain ⟨u, hu, rfl⟩ := Column.get?_eq hget
  have hone : (Column.child col 0 u).arraySize = 1 := childArraySize_of_listOrMap hl
  have hprod : 0 < (Column.child col 0 u).arraySize * (Column.child col 0 u).parentArraySize := by
    rw [hone, Nat.one_mul]
    exact ha
  refine bind_congr_of (prepareListColumn_eq (.inl hcol) (hf.entry hk hl) (Int.natCast_nonneg _)
    hprod helement) fun pos w hx => ?_
  obtain ⟨hp, _⟩ := prepareListColumn_prepared (.inl hcol) hx
  have haddr := hp.addressable hget hl hw ha (addressable_zero u 1 col.arraySize)
  rw [← hp.listSize] at haddr
  rw [setNullMask_list hcol, Unbounded.setNullMask_list hcol]
  exact bind_congr_of (onChild_congr (setListNullMask_eq haddr (hone ▸ Nat.one_pos) mask))
    fun _ _ _ => rfl

theorem PrimKind.putArray_unbounded
    (hf : SlotsFit rows slots col.arraySize col.parentArraySize col.type) (hk : k < slots)
    (ha : 0 < col.arraySize) (hw : col.type.Wf) (eng : Engine) (values : List kind.Val)
    (mask : Option (List Bool)) :
    kind.putArray eng col k values mask = Unbounded.putArray kind eng col k values mask := by
  rw [kind.putArray_eq]
  funext v
  refine bind_congr_of rfl fun inner w hx => ?_
  obtain ⟨rfl, hget, hmem, hcol⟩ := arrayInnerColumn_eq_ok hx
  have helement := PrimKind.types_primitive hmem
  refine bind_congr_of rfl fun _ w hx => ?_
  rcases hcol with hcol | hcol
  · obtain ⟨n, hn⟩ := TypeKind.array_of_colType hcol
    exact congrFun (putArray_ofArray hf hk ha hn hget helement eng
      (fun pos => kind.bulk pos (values.map kind.cell)) mask
      (by exact_mod_cast checkArrayLength_array hcol hx)) w
  · exact congrFun (putArray_ofList hf hk ha hw hcol hget helement eng
      (fun pos => kind.bulk pos (values.map kind.cell)) mask _) w

/-- The inner arrays of a matrix of `n` rows and `m` columns. -/
theorem putArrays_eq {write : ℤ → List Cell → PutM Unit} {inner leaf : Column}
    {nullIdx a n m : ℕ} {mask : Option (List (Option (List Bool)))}
    (hinner : inner.colType = .array) (hn : inner.arraySize = n) (ha : inner.parentArraySize = a)
    (hm : leaf.arraySize = m) (hleaf : leaf.parentArraySize = n)
    (hnull : nullIdx * (n * a) + n ≤ 2 ^ 37) (hpos : k * (n * m) + n * m ≤ 2 ^ 31) :
    ∀ (rest : List (Option (List Cell))) (i : ℕ), i + rest.length ≤ n →
      putArrays write inner leaf nullIdx k mask i rest =
        Unbounded.putArrays write inner leaf nullIdx k mask i rest
  | [], _, _ => rfl
  | none :: rest, i, h => by
    rw [List.length_cons] at h
    have hmark : inner.setNullOnArrayIdx nullIdx i =
        Unbounded.setNullOnArrayIdx inner.arraySize inner.parentArraySize nullIdx i :=
      setNullOnArrayIdx_eq (by rw [hn, ha]; omega)
    rw [putArrays, Unbounded.putArrays, hmark,
      putArrays_eq hinner hn ha hm hleaf hnull hpos rest (i + 1) (by omega)]
  | some cells :: rest, i, h => by
    rw [List.length_cons] at h
    have hrow : i * m + m ≤ n * m := by
      rw [← Nat.succ_mul]
      exact Nat.mul_le_mul_right m (by omega)
    rw [putArrays, Unbounded.putArrays,
      putArrays_eq hinner hn ha hm hleaf hnull hpos rest (i + 1) (by omega)]
    funext v
    refine bind_congr_of rfl fun _ w hx => ?_
    have hlen : cells.length = m := by
      have := checkArrayLength_array hinner hx
      rw [hm] at this
      exact_mod_cast this.symm
    have hoffset : cells.length + leaf.arraySize * i ≤ n * m := by
      rw [hlen, hm, Nat.mul_comm m i, Nat.add_comm]
      exact hrow
    have hposition : (k * inner.arraySize + i) * leaf.arraySize < 2 ^ 31 := by
      rw [hn, hm, Nat.add_mul, Nat.mul_assoc]
      rcases Nat.eq_zero_or_pos m with rfl | hm0
      · simp
      · omega
    have hbits : ∀ mask, setArrayNullMask leaf k mask cells.length i =
        Unbounded.setArrayNullMask leaf k mask cells.length i :=
      setArrayNullMask_eq (by omega) (by
        rw [hm, hleaf, Nat.mul_comm m n]
        rw [hm] at hoffset
        omega)
    simp only [hbits, toInt_natCast hposition]

theorem PrimKind.putArray2D_unbounded
    (hf : SlotsFit rows slots col.arraySize col.parentArraySize col.type) (hk : k < slots)
    (ha : 0 < col.arraySize) (hcol : col.colType = .array) {env : Env} (hrow : env.rowIdx < rows)
    (values : List (Option (List kind.Val))) (mask : Option (List (Option (List Bool)))) :
    kind.putArray2D env col k values mask = Unbounded.putArray2D kind env col k values mask := by
  rw [kind.putArray2D_eq]
  funext v
  refine bind_congr_of rfl fun inner w hx => ?_
  obtain ⟨rfl, hget, hmem, _⟩ := arrayInnerColumn_eq_ok hx
  obtain ⟨⟨kindInner, ts⟩, hu, rfl⟩ := Column.get?_eq hget
  obtain ⟨m, hm⟩ := TypeKind.array_of_colType (List.mem_singleton.1 hmem)
  obtain rfl : kindInner = .array m := hm
  refine bind_congr_of rfl fun _ w hx => ?_
  obtain ⟨n, hn⟩ : ∃ n, col.kind = .array n := TypeKind.array_of_colType hcol
  have hsize : (Column.child col 0 (.node (.array m) ts)).arraySize = n := by
    rw [Column.arraySize, hn]; rfl
  have hlen : n = (kind.cells values).length := by
    have := checkArrayLength_array hcol hx
    rw [hsize] at this
    exact_mod_cast this
  refine bind_congr_of rfl fun leaf w hx => ?_
  obtain ⟨rfl, hget, hmem, _⟩ := arrayInnerColumn_eq_ok hx
  obtain ⟨u, hleaf, rfl⟩ := Column.get?_eq hget
  have hpos := hf.positions_array hn
  rw [elementPositions_of_array hu hleaf (PrimKind.types_primitive hmem)] at hpos
  have hn1 : n ≤ n * col.arraySize := Nat.le_mul_of_pos_right n ha
  have hnull : kind.nullIdx env k * (n * col.arraySize) + n ≤ 2 ^ 37 := by
    have hslot := slot_add_le hk (hf.marks_array hn)
    have hrows : kind = .int → env.rowIdx * (n * col.arraySize) + n * col.arraySize ≤ 2 ^ 37 := by
      rintro rfl
      have hrows := hf.rowMarks
      rw [show col.type.kind = .array n from hn, rowMarks_of_array hu hleaf hmem] at hrows
      exact slot_add_le hrow hrows
    cases kind with
    | int =>
      have := hrows rfl
      show env.rowIdx * (n * col.arraySize) + n ≤ 2 ^ 37
      omega
    | _ =>
      show k * (n * col.arraySize) + n ≤ 2 ^ 37
      omega
  have hleafSize :
      (Column.child (Column.child col 0 (.node (.array m) ts)) 0 u).arraySize = m := rfl
  exact congrFun (putArrays_eq rfl hsize rfl hleafSize hsize hnull (slot_add_le hk hpos) _ 0
    (by omega)) w

end

/-! ## Elements of composites -/

/-- Slot `k` of a column, with all positions below it within an `int`. -/
structure ElementSlot (rows slots k : ℕ) (col : Column) : Prop where
  addressable : Addressable rows slots col.arraySize col.parentArraySize col.type
  lt : k < slots
  arraySize_pos : 0 < col.arraySize
  wf : col.type.Wf

section
variable {env : Env} {rows slots k : ℕ} {col : Column}

theorem ElementSlot.setNull (h : ElementSlot rows slots k col) :
    col.setNull k = Unbounded.setNull col k :=
  Column.setNull_eq h.addressable h.lt h.arraySize_pos

/-- A field of a `STRUCT` or `UNION`. -/
theorem ElementSlot.child (h : ElementSlot rows slots k col) (hs : col.kind.sharesSlots = true)
    {u : LogicalType} (hu : u ∈ col.type.children) (i : ℕ) :
    ElementSlot rows slots k (.child col i u) := by
  have hone : (Column.child col i u).arraySize = 1 := by
    rw [Column.arraySize]
    generalize col.kind = kind at hs
    cases kind with
    | array n => cases hs
    | _ => rfl
  have hl : col.type.kind.isListOrMap = false := by
    have hs : col.type.kind.sharesSlots = true := hs
    generalize col.type.kind = kind at hs
    cases kind with
    | list | map => cases hs
    | _ => rfl
  have hchild := h.addressable.child (TypeKind.ne_array_of_sharesSlots hs) hu
  rw [hl] at hchild
  exact ⟨hone ▸ hchild, h.lt, hone ▸ Nat.one_pos, h.wf.child hu⟩

theorem ElementSlot.field (h : ElementSlot rows slots k col) (hs : col.kind.sharesSlots = true)
    {c : Column} {i : ℕ} (hc : col.get? i = some c) : ElementSlot rows slots k c := by
  obtain ⟨u, hu, rfl⟩ := Column.get?_eq hc
  exact h.child hs (List.mem_of_getElem? hu) i

theorem ElementSlot.width (h : ElementSlot rows slots k col) (hs : col.kind.sharesSlots = true) :
    k * col.kind.widthBytes < 2 ^ 31 := by
  have hpos : slots * col.kind.positions col.type.children ≤ 2 ^ 31 := h.addressable.fits.positions
  generalize col.kind = kind at hs hpos
  cases kind with
  | array n => cases hs
  | list | map => cases hs
  | _ => exact slot_lt h.lt hpos (by decide)

theorem putCompositeElementArray_eq (h : ElementSlot (env.rowIdx + 1) slots k col)
    (hcol : col.colType = .array) (value : Obj) : putCompositeElementArray env col k value =
      Unbounded.putCompositeElementArray env col k value := by
  have hf := h.addressable.fits
  unfold putCompositeElementArray Unbounded.putCompositeElementArray
  cases hc : col.get? 0 with
  | none => rfl
  | some inner =>
    simp only
    split
    · cases value with
      | primArray2D kind values =>
        exact kind.putArray2D_unbounded hf h.lt h.arraySize_pos hcol (Nat.lt_succ_self _) _ _
      | _ => rfl
    · cases PrimKind.ofBoxedType inner.colType with
      | none => rfl
      | some boxed =>
        cases value with
        | primArray kind values =>
          simp only
          rw [kind.putArray_unbounded hf h.lt h.arraySize_pos h.wf]
        | _ => rfl

theorem putScalarElement_eq {t : CAPIType} (h : k * t.widthBytes < 2 ^ 31) (env : Env)
    (value : Obj) :
    putScalarElement env t k value = Unbounded.putScalarElement env t k value := by
  unfold putScalarElement Unbounded.putScalarElement
  cases t with
  | varchar =>
    cases value with
    | string st => exact putStringOrBlob_eq h env _
    | _ => rfl
  | blob =>
    cases value with
    | primArray kind bytes =>
      cases kind with
      | byte => exact putStringOrBlob_eq h env _
      | _ => rfl
    | _ => rfl
  | _ => exact bind_congr fun cell => putCell_eq h cell

theorem putPlainElement_eq (h : ElementSlot (env.rowIdx + 1) slots k col) (value : Obj) :
    putPlainElement env col k value = Unbounded.putPlainElement env col k value := by
  have hwidth := h.width
  have harray : col.kind.colType = .array → ∀ value, putCompositeElementArray env col k value =
      Unbounded.putCompositeElementArray env col k value :=
    fun hcol => putCompositeElementArray_eq h hcol
  unfold putPlainElement Unbounded.putPlainElement
  generalize col.kind = kind at hwidth harray
  cases kind with
  | decimal t p s =>
    cases value with
    | bigDecimal unscaled scale => exact putDecimal_eq (hwidth rfl) p s unscaled scale
    | _ => rfl
  | enum t dict =>
    cases value with
    | string st => exact putEnum_eq (hwidth rfl) dict st
    | _ => rfl
  | scalar t ht => exact putScalarElement_eq (hwidth rfl) env value
  | unlisted t => exact putScalarElement_eq (hwidth rfl) env value
  | array n => exact harray rfl value
  | list | map => rfl
  | struct names => rfl
  | union names => rfl

theorem setOthersNull_eq {m : ℕ} : ∀ (ts : List LogicalType) {i : ℕ},
    (∀ u ∈ ts, ∀ i, ElementSlot rows slots k (.child col i u)) →
      setOthersNull col m k i ts = Unbounded.setOthersNull col m k i ts
  | [], _, _ => rfl
  | t :: ts, i, h => by
    rw [setOthersNull, Unbounded.setOthersNull, (h t List.mem_cons_self i).setNull,
      setOthersNull_eq ts fun u hu => h u (List.mem_cons_of_mem _ hu)]

theorem putUnionTag_eq (h : ElementSlot rows slots k col) (tag : String) :
    putUnionTag col k tag = Unbounded.putUnionTag col k tag := by
  unfold putUnionTag Unbounded.putUnionTag
  cases hkind : col.kind with
  | union names =>
    simp only
    cases unionFieldWithTag names tag with
    | none => rfl
    | some m =>
      have hs : col.kind.sharesSlots = true := by rw [hkind]; rfl
      have hshape := h.wf.shape
      rw [show col.type.kind = .union names from hkind] at hshape
      obtain ⟨⟨t, ts, hcs⟩, _⟩ := hshape
      have htag : k * CAPIType.utinyint.widthBytes < 2 ^ 31 :=
        (h.child hs (u := .node (.scalar .utinyint rfl) []) (hcs ▸ List.mem_cons_self) 0).width rfl
      have hothers : ∀ u ∈ col.type.children.tail, ∀ i, ElementSlot rows slots k (.child col i u) :=
        fun u hu i => h.child hs (List.mem_of_mem_tail hu) i
      simp only [putCell_eq htag, setOthersNull_eq _ hothers]
  | _ => rfl

theorem beginElements_eq (h : col.kind.isListOrMap = true → k * 2 < 2 ^ 31) (eng : Engine)
    (inner : Column) (count : ℤ) :
    beginElements eng col inner k count = Unbounded.beginElements eng col inner k count := by
  rw [beginElements, Unbounded.beginElements, discard_prepareListColumn_eq h]

theorem beginEntries_eq (h : col.kind.isListOrMap = true → k * 2 < 2 ^ 31) (eng : Engine)
    (inner : Column) (size : ℕ) :
    beginEntries eng col inner k size = Unbounded.beginEntries eng col inner k size := by
  rw [beginEntries, Unbounded.beginEntries, discard_prepareListColumn_eq h]

/-- The elements of `inner` from slot `offset` on, `count` of them. -/
structure ElementSlots (rows : ℕ) (inner : Column) (offset : ℕ) (count : ℤ) : Prop where
  slot : ∀ i : ℕ, i < count → ∃ slots, ElementSlot rows slots (offset + i) inner

/-- The slots that a list has been given. -/
theorem Prepared.elementSlots {inner : Column} {size : ℕ} {count : ℤ} {w : Vec}
    (hp : Prepared env.eng inner size count w) (hget : col.get? 0 = some inner)
    (hl : col.kind.isListOrMap = true) (hw : col.type.Wf) (ha : 0 < col.arraySize)
    (hrows : Addressable (env.rowIdx + 1) 0 1 col.arraySize inner.type) {offset : ℕ}
    (hoffset : (offset : ℤ) = (w.child 0).root.listSize - count) :
    ElementSlots (env.rowIdx + 1) inner offset count := by
  refine ⟨fun i hi => ⟨(size + count).toNat, hp.addressable hget hl hw ha hrows, ?_, ?_, ?_⟩⟩
  · rw [hp.listSize] at hoffset
    have := hp.nonneg
    omega
  · obtain ⟨u, hu, rfl⟩ := Column.get?_eq hget
    rw [show (Column.child col 0 u).arraySize = 1 from childArraySize_of_listOrMap hl]
    exact Nat.one_pos
  · obtain ⟨u, hu, rfl⟩ := Column.get?_eq hget
    exact hw.child (List.mem_of_getElem? hu)

theorem ElementSlots.tail {inner : Column} {offset : ℕ} {count : ℤ}
    (h : ElementSlots (env.rowIdx + 1) inner offset (count + 1)) :
    ElementSlots (env.rowIdx + 1) inner (offset + 1) count := by
  refine ⟨fun i hi => ?_⟩
  have := h.slot (i + 1) (by push_cast; omega)
  rwa [show offset + 1 + i = offset + (i + 1) by omega]

theorem discard_eq_ok {α : Type} {x : PutM α} {v w : Vec} {u : PUnit}
    (h : (discard x : PutM PUnit) v = .ok u w) : ∃ a, x v = .ok a w := by
  rw [discard_apply] at h
  cases hx : x v with
  | ok a t => rw [hx] at h; cases h; exact ⟨a, rfl⟩
  | error e t => rw [hx] at h; cases h

theorem beginElements_slots {inner : Column} {count : ℤ} {v w : Vec} {offset : ℕ}
    (hl : col.colType = .list) (hget : col.get? 0 = some inner) (hw : col.type.Wf)
    (ha : 0 < col.arraySize)
    (hrows : Addressable (env.rowIdx + 1) 0 1 col.arraySize inner.type)
    (hx : beginElements env.eng col inner k count v = .ok offset w) :
    ElementSlots (env.rowIdx + 1) inner offset count := by
  obtain ⟨_, w₁, _, hx⟩ := bind_eq_ok.1 hx
  obtain ⟨_, w₂, hprepare, hx⟩ := bind_eq_ok.1 hx
  obtain ⟨pos, hprepare⟩ := discard_eq_ok hprepare
  obtain ⟨hp, _⟩ := prepareListColumn_prepared (.inl hl) hprepare
  rw [if_pos hl] at hx
  obtain ⟨c, w₃, hc, hx⟩ := bind_eq_ok.1 hx
  obtain ⟨d, hd, rfl⟩ := onChild_eq_ok.1 hc
  cases hd
  cases hx
  refine hp.elementSlots hget (isListOrMap_of_colType (.inl hl)) hw ha hrows ?_
  have hsize := hp.listSize
  have := hp.nonneg
  omega

theorem beginEntries_slots {inner : Column} {size : ℕ} {v w : Vec} {offset : ℕ}
    (hl : col.colType = .map) (hget : col.get? 0 = some inner) (hw : col.type.Wf)
    (ha : 0 < col.arraySize)
    (hrows : Addressable (env.rowIdx + 1) 0 1 col.arraySize inner.type)
    (hx : beginEntries env.eng col inner k size v = .ok offset w) :
    ElementSlots (env.rowIdx + 1) inner offset size := by
  obtain ⟨_, w₂, hprepare, hx⟩ := bind_eq_ok.1 hx
  obtain ⟨pos, hprepare⟩ := discard_eq_ok hprepare
  obtain ⟨hp, _⟩ := prepareListColumn_prepared (.inr hl) hprepare
  obtain ⟨c, w₃, hc, hx⟩ := bind_eq_ok.1 hx
  obtain ⟨d, hd, rfl⟩ := onChild_eq_ok.1 hc
  cases hd
  cases hx
  refine hp.elementSlots hget (isListOrMap_of_colType (.inr hl)) hw ha hrows ?_
  have hsize := hp.listSize
  omega

/-- The child of a `LIST` or `MAP` below a slot. -/
theorem ElementSlot.below (h : ElementSlot (env.rowIdx + 1) slots k col)
    (hl : col.kind.isListOrMap = true) {inner : Column} (hget : col.get? 0 = some inner) :
    Addressable (env.rowIdx + 1) 0 1 col.arraySize inner.type := by
  obtain ⟨u, hu, rfl⟩ := Column.get?_eq hget
  have hne : col.type.colType ≠ .array := by
    have hl : col.type.kind.isListOrMap = true := hl
    intro hc
    obtain ⟨n, hn⟩ := TypeKind.array_of_colType hc
    rw [hn] at hl
    cases hl
  have := h.addressable.child hne (List.mem_of_getElem? hu)
  rwa [if_pos (show col.type.kind.isListOrMap = true from hl)] at this

theorem onField_congr {f g : Column → PutM Unit} {i : ℕ}
    (h : ∀ c, col.get? i = some c → f c = g c) : col.onField i f = col.onField i g := by
  unfold Column.onField
  split
  · next c hc => rw [h c hc]
  · rfl

theorem sharesSlots_of_mapChild {inner : Column} (hkind : col.kind = .map) (hw : col.type.Wf)
    (hget : col.get? 0 = some inner) : inner.kind.sharesSlots = true := by
  obtain ⟨u, hu, rfl⟩ := Column.get?_eq hget
  have hshape := hw.shape
  rw [show col.type.kind = .map from hkind] at hshape
  obtain ⟨ns, a, b, hcs⟩ := hshape
  rw [hcs] at hu
  cases hu
  rfl

mutual

/-- **An element is put as with positions of any size.** -/
theorem putCompositeElement_eq : ∀ (value : Obj) {slots k : ℕ} {col : Column},
    ElementSlot (env.rowIdx + 1) slots k col →
      putCompositeElement env col k value = Unbounded.putCompositeElement env col k value
  | .null, _, _, _, h => by
    rw [putCompositeElement, Unbounded.putCompositeElement]
    exact h.setNull
  | .collection elems, _, k, col, h => by
    rw [putCompositeElement, Unbounded.putCompositeElement]
    cases hkind : col.kind with
    | list =>
      have hct : col.colType = .list := congrArg TypeKind.colType hkind
      have hl : col.kind.isListOrMap = true := by rw [hkind]; rfl
      cases hget : col.get? 0 with
      | none => exact putPlainElement_eq h _
      | some inner =>
        funext v
        refine bind_congr_of (congrFun (beginElements_eq (h.addressable.fits.entry h.lt) _ _ _) v)
          fun offset w hx => ?_
        have hslots := beginElements_slots hct hget h.wf h.arraySize_pos (h.below hl hget) hx
        exact congrArg (onChild 0 · w) (putElements_eq elems hslots)
    | struct names =>
      exact bind_congr fun _ => putFields_eq elems h (by rw [hkind]; rfl)
    | _ => exact putPlainElement_eq h _
  | .map linked entries, _, k, col, h => by
    rw [putCompositeElement, Unbounded.putCompositeElement]
    cases hkind : col.kind with
    | map =>
      have hct : col.colType = .map := congrArg TypeKind.colType hkind
      have hl : col.kind.isListOrMap = true := by rw [hkind]; rfl
      cases hget : col.get? 0 with
      | none => exact putPlainElement_eq h _
      | some inner =>
        funext v
        refine bind_congr_of (congrFun (beginEntries_eq (h.addressable.fits.entry h.lt) _ _ _) v)
          fun offset w hx => ?_
        have hslots := beginEntries_slots hct hget h.wf h.arraySize_pos (h.below hl hget) hx
        exact congrArg (onChild 0 · w) (putEntries_eq entries hslots
          (sharesSlots_of_mapChild hkind h.wf hget))
    | struct names =>
      exact bind_congr fun _ => bind_congr fun _ => putValues_eq entries h (by rw [hkind]; rfl)
    | _ => exact putPlainElement_eq h _
  | .simpleEntry tag value, _, k, col, h => by
    rw [putCompositeElement, Unbounded.putCompositeElement]
    cases hkind : col.kind with
    | union names =>
      simp only
      rw [putUnionTag_eq h]
      exact bind_congr fun m => onField_congr fun c hc =>
        putCompositeElement_eq value (h.field (by rw [hkind]; rfl) hc)
    | _ => exact putPlainElement_eq h _
  | .boxed .., _, _, _, h | .bigInteger _, _, _, _, h | .bigDecimal .., _, _, _, h
  | .string _, _, _, _, h | .uuid .., _, _, _, h | .localDate _, _, _, _, h
  | .localTime _, _, _, _, h | .offsetTime .., _, _, _, h | .localDateTime .., _, _, _, h
  | .date _, _, _, _, h | .offsetDateTime .., _, _, _, h | .primArray .., _, _, _, h
  | .primArray2D .., _, _, _, h | .other, _, _, _, h => by
    simp only [putCompositeElement, Unbounded.putCompositeElement]
    exact putPlainElement_eq h _

theorem putElements_eq : ∀ (values : List Obj) {col : Column} {offset i : ℕ} {count : ℤ},
    ElementSlots (env.rowIdx + 1) col offset count → putElements env col offset count i values =
      Unbounded.putElements env col offset count i values
  | [], _, _, _, _, _ => by rw [putElements, Unbounded.putElements]
  | value :: values, _, _, i, count, h => by
    rw [putElements, Unbounded.putElements, putElements_eq values h]
    split
    · next hi =>
      obtain ⟨_, hslot⟩ := h.slot i hi
      rw [putCompositeElement_eq value hslot]
    · rfl

theorem putFields_eq : ∀ (values : List Obj) {slots k i : ℕ} {col : Column},
    ElementSlot (env.rowIdx + 1) slots k col → col.kind.sharesSlots = true →
      putFields env col k i values = Unbounded.putFields env col k i values
  | [], _, _, _, _, _, _ => by rw [putFields, Unbounded.putFields]
  | value :: values, _, _, i, _, h, hs => by
    rw [putFields, Unbounded.putFields, putFields_eq values h hs,
      onField_congr fun c hc => putCompositeElement_eq value (h.field hs hc)]

theorem putValues_eq : ∀ (entries : List (Obj × Obj)) {slots k i : ℕ} {col : Column},
    ElementSlot (env.rowIdx + 1) slots k col → col.kind.sharesSlots = true →
      putValues env col k i entries = Unbounded.putValues env col k i entries
  | [], _, _, _, _, _, _ => by rw [putValues, Unbounded.putValues]
  | (_, value) :: entries, _, _, i, _, h, hs => by
    rw [putValues, Unbounded.putValues, putValues_eq entries h hs,
      onField_congr fun c hc => putCompositeElement_eq value (h.field hs hc)]

theorem putEntries_eq : ∀ (entries : List (Obj × Obj)) {offset : ℕ} {col : Column},
    ElementSlots (env.rowIdx + 1) col offset entries.length → col.kind.sharesSlots = true →
      putEntries env col offset entries = Unbounded.putEntries env col offset entries
  | [], _, _, _, _ => by rw [putEntries, Unbounded.putEntries]
  | (key, value) :: entries, offset, _, h, hs => by
    rw [List.length_cons, Nat.cast_add, Nat.cast_one] at h
    obtain ⟨slots, hslot⟩ := h.slot 0 (by push_cast; omega)
    have hslot : ElementSlot (env.rowIdx + 1) slots offset _ := hslot
    rw [putEntries, Unbounded.putEntries, putEntries_eq entries h.tail hs,
      onField_congr fun c hc => putCompositeElement_eq key (hslot.field hs hc),
      onField_congr fun c hc => putCompositeElement_eq value (hslot.field hs hc)]

end

end

end DuckDBJava
