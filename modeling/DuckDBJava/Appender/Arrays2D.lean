/-
  The writers of two-dimensional arrays.

  Below slot `k` of a column `ARRAY(ARRAY(T, m), n)` inner array `i` is slot `k * n + i` of the
  first child, and its element `j` slot `(k * n + i) * m + j` of the child below.  Every writer
  stores the elements and marks what is NULL in these slots, but for `putIntArray2D`: it marks a
  `null` inner array below slot `rowIdx`.
-/
import DuckDBJava.Appender.ChunkInvariant
import DuckDBJava.Appender.NullMarks

namespace DuckDBJava

open Exec PathTree

/-! ## The memory of the column -/

/-- The vectors below a column `ARRAY(ARRAY(T, m), n)` of `entries` slots, `T` of `w` bytes: the
    buffers are over the present memory, and bulk puts through a view start at position 0. -/
structure Grid (w n m entries : ℕ) (v : Vec) : Prop where
  inner : (v [0]).Live
  innerCap : (v [0]).buf.cap = entries * n
  leaf : (v [0, 0]).Live
  leafCap : (v [0, 0]).buf.cap = entries * n * m
  bytes : (v [0, 0]).buf.cap * w < 2 ^ 31
  pos : w ≠ 1 → (v [0, 0]).buf.pos = 0

/-- The element at `j` of inner array `i` of slot `k`. -/
def leafSlot (n m k i j : ℕ) : ℕ := (k * n + i) * m + j

theorem leafSlot_add_le {n entries k i : ℕ} (m : ℕ) (hk : k < entries) (hi : i < n) :
    leafSlot n m k i 0 + m ≤ entries * n * m := by
  have h1 : k * n + n ≤ entries * n := by
    rw [← Nat.succ_mul]
    exact Nat.mul_le_mul_right n hk
  have h2 : (k * n + i) * m + m ≤ entries * n * m := by
    rw [← Nat.succ_mul]
    exact Nat.mul_le_mul_right m (by omega)
  exact h2

theorem leafSlot_lt {n m entries k i j : ℕ} (hk : k < entries) (hi : i < n) (hj : j < m) :
    leafSlot n m k i j < entries * n * m := by
  have := leafSlot_add_le m hk hi
  unfold leafSlot at this ⊢
  omega

theorem leafSlot_inj {n m k i i' j j' : ℕ} (hj : j < m) (hj' : j' < m)
    (h : leafSlot n m k i j = leafSlot n m k i' j') : i = i' ∧ j = j' := by
  have hm : 0 < m := by omega
  have hdiv : ∀ a, (a * m + j) / m = a := fun a => by
    rw [Nat.add_comm, Nat.add_mul_div_right _ _ hm, Nat.div_eq_of_lt hj, Nat.zero_add]
  have hdiv' : ∀ a, (a * m + j') / m = a := fun a => by
    rw [Nat.add_comm, Nat.add_mul_div_right _ _ hm, Nat.div_eq_of_lt hj', Nat.zero_add]
  have hrow := congrArg (· / m) h
  simp only [leafSlot, hdiv, hdiv'] at hrow
  obtain rfl : i = i' := by omega
  unfold leafSlot at h
  exact ⟨rfl, by omega⟩

/-! ## What is written -/

/-- After the inner arrays before the `i`-th, of which `nulls` are marked among the inner arrays
    and `marked` among the elements: their elements are stored and nothing else is changed. -/
structure Wrote (w n m k : ℕ) (rows : List (Option (List Cell))) (nulls marked : ℕ → Prop) (i : ℕ)
    (v v' : Vec) : Prop where
  inner : ∃ valid, v' [0] = { v [0] with valid := valid } ∧
    ∀ x, valid x = true ↔ (v [0]).valid x = true ∧ ¬ nulls x
  leaf : ∃ valid data pos, v' [0, 0] = { v [0, 0] with
      valid := valid, data := data, buf := { (v [0, 0]).buf with pos := pos } } ∧
    (w ≠ 1 → pos = (v [0, 0]).buf.pos) ∧
    (∀ x, valid x = true ↔ (v [0, 0]).valid x = true ∧ ¬ marked x) ∧
    (∀ r cells j c, r < i → rows[r]? = some (some cells) → cells[j]? = some c →
      data (leafSlot n m k r j) = some c) ∧
    ∀ x, (∀ r j, r < i → (∃ cells, rows[r]? = some (some cells)) → j < m →
      x ≠ leafSlot n m k r j) → data x = (v [0, 0]).data x
  other : ∀ p, p ≠ [0] → p ≠ [0, 0] → v' p = v p

section
variable {w n m k entries i : ℕ} {rows : List (Option (List Cell))} {nulls marked : ℕ → Prop}
variable {v v' v'' : Vec}

theorem Wrote.start (hnulls : ∀ x, ¬ nulls x) (hmarked : ∀ x, ¬ marked x) :
    Wrote w n m k rows nulls marked 0 v v where
  inner := ⟨_, rfl, fun x => (and_iff_left (hnulls x)).symm⟩
  leaf := ⟨_, _, _, rfl, fun _ => rfl, fun x => (and_iff_left (hmarked x)).symm,
    fun r _ _ _ hr => absurd hr (Nat.not_lt_zero r), fun _ _ => rfl⟩
  other _ _ _ := rfl

/-- The memory stays a grid. -/
theorem Wrote.grid (h : Wrote w n m k rows nulls marked i v v') (hv : Grid w n m entries v) :
    Grid w n m entries v' := by
  obtain ⟨valid, hinner, _⟩ := h.inner
  obtain ⟨valid', data, pos, hleaf, hpos, _⟩ := h.leaf
  refine ⟨?_, ?_, ?_, ?_, ?_, ?_⟩
  · rw [hinner]; exact ⟨hv.inner.alloc, hv.inner.cap⟩
  · rw [hinner]; exact hv.innerCap
  · rw [hleaf]; exact ⟨hv.leaf.alloc, hv.leaf.cap⟩
  · rw [hleaf]; exact hv.leafCap
  · rw [hleaf]; exact hv.bytes
  · intro hw
    rw [hleaf]
    exact (hpos hw).trans (hv.pos hw)

/-- A `null` inner array is marked. -/
theorem Wrote.markNull {nulls' : ℕ → Prop} {x : ℕ} (h : Wrote w n m k rows nulls marked i v v')
    (hi : rows[i]? = some none) (hm : Marked (Slots.child 0 (.own x)) v' v'')
    (hnulls : ∀ y, nulls' y ↔ nulls y ∨ y = x) :
    Wrote w n m k rows nulls' marked (i + 1) v v'' := by
  obtain ⟨valid, hinner, hvalid⟩ := h.inner
  obtain ⟨valid', data, pos, hleaf, hpos, hvalid', hstored, hkept⟩ := h.leaf
  have hrow : ∀ r, r < i + 1 → (∃ cells, rows[r]? = some (some cells)) → r < i := by
    rintro r hr ⟨cells, hcells⟩
    rcases Nat.lt_succ_iff_lt_or_eq.1 hr with hlt | rfl
    · exact hlt
    · rw [hi] at hcells
      cases hcells
  have hsame : ∀ p, p ≠ [0] → v'' p = v' p := by
    intro p hp
    obtain ⟨b, hb, hbv⟩ := hm p
    have hbits : b = (v' p).valid := by
      funext y
      rw [Bool.eq_iff_iff, hbv]
      refine and_iff_left ?_
      rintro ⟨q, hq, hown, _⟩
      exact hp (by rw [hq, hown])
    rw [hb, hbits]
  refine ⟨?_, ?_, fun p hp hp' => (hsame p hp).trans (h.other p hp hp')⟩
  · obtain ⟨b, hb, hbv⟩ := hm [0]
    refine ⟨b, by rw [hb, hinner], fun y => ?_⟩
    have hown : Slots.child 0 (.own x) [0] y ↔ y = x :=
      ⟨fun ⟨q, _, _, hy⟩ => hy, fun hy => ⟨[], rfl, rfl, hy⟩⟩
    rw [hbv, hown, hinner, hvalid, hnulls, not_or, and_assoc]
  · refine ⟨valid', data, pos, (hsame [0, 0] (by decide)).trans hleaf, hpos, hvalid',
      fun r cells j c hr hcells => ?_, fun y hy => hkept y fun r j hr => hy r j (by omega)⟩
    exact hstored r cells j c (hrow r hr ⟨cells, hcells⟩) hcells

/-- The elements of an inner array are marked and stored. -/
theorem Wrote.storeRow {marked' : ℕ → Prop} {M : Slots} {cells : List Cell} {pos : ℕ} {v₂ : Vec}
    (h : Wrote w n m k rows nulls marked i v v') (hv : Grid w n m entries v)
    (hlen : ∀ cells, some cells ∈ rows → cells.length = m) (hi : rows[i]? = some (some cells))
    (hm : Marked M v' v'') (hM : ∀ p x, M p x → p = [0, 0])
    (hmarked : ∀ y, marked' y ↔ marked y ∨ M [0, 0] y)
    (hw : v₂ [0, 0] = ((v'' [0, 0]).write (leafSlot n m k i 0) cells).setPos pos)
    (hpos : w ≠ 1 → pos = (v'' [0, 0]).buf.pos) (hother : ∀ p, p ≠ [0, 0] → v₂ p = v'' p) :
    Wrote w n m k rows nulls marked' (i + 1) v v₂ := by
  have hlive := (h.grid hv).leaf
  obtain ⟨valid, hinner, hvalid⟩ := h.inner
  obtain ⟨valid', data, pos', hleaf, hpos', hvalid', hstored, hkept⟩ := h.leaf
  have hlenm := hlen cells (List.mem_of_getElem? hi)
  have hsame : ∀ p, p ≠ [0, 0] → v'' p = v' p := by
    intro p hp
    obtain ⟨b, hb, hbv⟩ := hm p
    have hbits : b = (v' p).valid := by
      funext y
      rw [Bool.eq_iff_iff, hbv]
      exact and_iff_left fun hy => hp (hM p y hy)
    rw [hb, hbits]
  obtain ⟨b, hb, hbv⟩ := hm [0, 0]
  -- the cells from `leafSlot n m k i 0` on are those of the inner array
  have hin : ∀ x, leafSlot n m k i 0 ≤ x → x < leafSlot n m k i 0 + cells.length →
      x - leafSlot n m k i 0 < m ∧ x = leafSlot n m k i (x - leafSlot n m k i 0) := by
    intro x hle hlt
    unfold leafSlot at hle hlt ⊢
    omega
  refine ⟨⟨valid, ?_, hvalid⟩, ⟨b, fun x =>
    if leafSlot n m k i 0 ≤ x ∧ x < leafSlot n m k i 0 + cells.length then
      cells[x - leafSlot n m k i 0]? else data x, pos, ?_, fun hne => ?_, fun y => ?_, ?_, ?_⟩, ?_⟩
  · rw [hother _ (by decide), hsame _ (by decide), hinner]
  · have halloc : (v'' [0, 0]).buf.alloc = (v'' [0, 0]).alloc := by
      rw [hb]
      exact hlive.alloc
    rw [hw, ColState.write, if_pos halloc, hb, hleaf]
    rfl
  · rw [hpos hne, hb, hleaf]
    exact hpos' hne
  · rw [hbv, hmarked, not_or, hleaf, hvalid', and_assoc]
  · intro r cells' j c hr hcells hc
    have hj : j < m := by
      rw [← hlen cells' (List.mem_of_getElem? hcells)]
      exact (List.getElem?_eq_some_iff.1 hc).1
    rcases Nat.lt_succ_iff_lt_or_eq.1 hr with hlt | rfl
    · have hout : ¬ (leafSlot n m k i 0 ≤ leafSlot n m k r j ∧
          leafSlot n m k r j < leafSlot n m k i 0 + cells.length) := by
        rintro ⟨hle, hlt'⟩
        obtain ⟨hlt'', heq⟩ := hin _ hle hlt'
        have := (leafSlot_inj hj hlt'' heq).1
        omega
      exact (if_neg hout).trans (hstored r cells' j c hlt hcells hc)
    · rw [hi] at hcells
      cases hcells
      have hat : leafSlot n m k r j = leafSlot n m k r 0 + j := by unfold leafSlot; omega
      refine (if_pos ⟨by omega, by omega⟩).trans ?_
      rw [hat, Nat.add_sub_cancel_left]
      exact hc
  · intro x hx
    have hout : ¬ (leafSlot n m k i 0 ≤ x ∧ x < leafSlot n m k i 0 + cells.length) := by
      rintro ⟨hle, hlt⟩
      obtain ⟨hlt', heq⟩ := hin x hle hlt
      exact hx i _ (Nat.lt_succ_self i) ⟨cells, hi⟩ hlt' heq
    exact (if_neg hout).trans (hkept x fun r j hr => hx r j (Nat.lt_succ_of_lt hr))
  · intro p hp hp'
    rw [hother p hp', hsame p hp', h.other p hp hp']

end

/-! ## The steps of a writer -/

theorem write_setPos (c : ColState) (a b d : ℕ) (cells : List Cell) :
    ((c.setPos a).write b cells).setPos d = (c.write b cells).setPos d := by
  unfold ColState.write ColState.setPos
  split <;> rfl

theorem setPos_self {c : ColState} {a : ℕ} (h : c.buf.pos = a) : c.setPos a = c := by
  subst h
  rfl

/-- A bulk put stores the cells from slot `q` on. -/
def StoresAt (w : ℕ) (write : ℤ → List Cell → PutM Unit) : Prop :=
  ∀ (v : Vec) (q : ℕ) (cells : List Cell), (w ≠ 1 → v.root.buf.pos = 0) →
    q + cells.length ≤ v.root.buf.cap → v.root.buf.cap * w < 2 ^ 31 → ∃ pos,
      write q cells v = .ok () (v.setRoot ((v.root.write q cells).setPos pos)) ∧
        (w ≠ 1 → pos = v.root.buf.pos)

theorem putBytes_storesAt : StoresAt 1 putBytes := by
  intro v q cells _ hle _
  refine ⟨q + cells.length, ?_, fun h => absurd rfl h⟩
  have hpos : setPosition 1 q v = .ok () (v.setRoot (v.root.setPos q)) := by
    rw [setPosition, getRoot_bind, require_bind, if_pos ⟨by omega, by omega⟩]
    rfl
  rw [putBytes, bind_ok hpos, putHere, getRoot_bind, require_bind]
  refine (if_pos (show q + cells.length ≤ v.root.buf.cap * 1 by omega)).trans ?_
  rw [modifyRoot_apply, setRoot_setRoot, root_setRoot, write_setPos]
  show EStateM.Result.ok () (v.setRoot ((v.root.write (q / 1) cells).setPos _)) = _
  rw [Nat.div_one]
  rfl

theorem putView_storesAt {w : ℕ} (hw : 1 < w) : StoresAt w (putView w) := by
  intro v q cells hpos hle _
  have hpos := hpos hw.ne'
  refine ⟨0, ?_, fun _ => hpos.symm⟩
  have hcap : (v.root.buf.cap * w - v.root.buf.pos) / w = v.root.buf.cap := by
    rw [hpos, Nat.sub_zero, Nat.mul_div_cancel _ (by omega)]
  rw [putView, getRoot_bind]
  simp only [require_bind, hcap]
  rw [if_pos (by omega), if_pos (by omega), modifyRoot_apply]
  have hself : (v.root.write q cells).setPos 0 = v.root.write q cells :=
    setPos_self (by rw [ColState.write_buf, hpos])
  rw [hself, hpos, Nat.zero_div, Nat.zero_add, Int.toNat_natCast]

theorem forNulls_clears {f : ℕ → PutM Unit} {M : ℕ → Slots} : ∀ (mask : List Bool) (i : ℕ),
    (∀ j < mask.length, ClearsBits (f (i + j)) (M (i + j))) →
      ClearsBits (forNulls i f mask) fun p x => ∃ j, mask[j]? = some true ∧ M (i + j) p x
  | [], i, _ => ClearsBits.pure.congr fun p x => by simp [Slots.none]
  | b :: mask, i, h => by
    rw [forNulls]
    have hb : ClearsBits (if b = true then f i else pure ()) fun p x => b = true ∧ M i p x := by
      cases b with
      | true => exact (h 0 (Nat.succ_pos _)).congr fun p x => by simp
      | false => exact ClearsBits.pure.congr fun p x => by simp [Slots.none]
    have hrest := forNulls_clears (M := M) mask (i + 1) fun j hj => by
      have := h (j + 1) (Nat.succ_lt_succ hj)
      rwa [show i + (j + 1) = i + 1 + j by omega] at this
    refine (hb.bind hrest).congr fun p x => ?_
    constructor
    · rintro (⟨rfl, hx⟩ | ⟨j, hj, hx⟩)
      · exact ⟨0, rfl, hx⟩
      · exact ⟨j + 1, hj, by rwa [show i + (j + 1) = i + 1 + j by omega]⟩
    · rintro ⟨j, hj, hx⟩
      cases j with
      | zero => exact .inl ⟨Option.some.inj hj, hx⟩
      | succ j => exact .inr ⟨j, hj, by rwa [show i + 1 + j = i + (j + 1) by omega]⟩

/-- The mask of an inner array marks its elements. -/
theorem setArrayNullMask_clears {col : Column} {n m k i : ℕ} (hsize : col.arraySize = m)
    (hparent : col.parentArraySize = n) (hlt : ∀ j < m, leafSlot n m k i j < 2 ^ 31)
    {mask : Option (List Bool)} (hmask : ∀ bits, mask = some bits → bits.length = m) :
    ClearsBits (setArrayNullMask col k mask m i) fun p x =>
      p = [] ∧ ∃ j bits, mask = some bits ∧ bits[j]? = some true ∧ x = leafSlot n m k i j := by
  cases mask with
  | none => exact ClearsBits.pure.congr fun p x => by simp [Slots.none]
  | some bits =>
    have hlen := hmask bits rfl
    have hbits : setArrayNullMask col k (some bits) m i =
        forNulls 0 (fun j => col.setNullOnArrayIdx k (toInt (j + col.arraySize * i : ℕ))) bits := by
      funext v
      rw [setArrayNullMask, require_bind, if_pos hlen]
    rw [hbits]
    refine (forNulls_clears (M := fun j => .own (leafSlot n m k i j)) bits 0
      fun j hj => ?_).congr fun p x => ?_
    · have hj' := hlt (0 + j) (by omega)
      have hslot : k * m * n + (0 + j + m * i) = leafSlot n m k i (0 + j) := by
        unfold leafSlot
        ring
      have hint : toInt (0 + j + m * i : ℕ) = (0 + j + m * i : ℕ) :=
        toInt_natCast (lt_of_le_of_lt (by omega) hj')
      rw [hsize, hint, Column.setNullOnArrayIdx, hsize, hparent]
      have := setNullOnArrayIdx_clears m n k (0 + j + m * i)
      rwa [hslot, slotOf_of_lt (by omega)] at this
    · constructor
      · rintro ⟨j, hj, rfl, rfl⟩
        exact ⟨rfl, j, bits, rfl, hj, by rw [Nat.zero_add]⟩
      · rintro ⟨rfl, j, bits', hb, hj, rfl⟩
        cases hb
        exact ⟨j, hj, rfl, by rw [Nat.zero_add]⟩

/-! ## The loop of a writer -/

/-- The bit of the mask for element `j` of inner array `i`. -/
def MaskBit (mask : Option (List (Option (List Bool)))) (i j : ℕ) : Prop :=
  ∃ masks bits, mask = some masks ∧ masks[i]? = some (some bits) ∧ bits[j]? = some true

/-- A mask for `n` inner arrays of `m` elements. -/
def MaskFits (n m : ℕ) (mask : Option (List (Option (List Bool)))) : Prop :=
  ∀ masks, mask = some masks → masks.length = n ∧ ∀ bits, some bits ∈ masks → bits.length = m

/-- A matrix of `n` inner arrays of `m` elements; an inner array may be `null`. -/
def MatrixFits {α : Type} (n m : ℕ) (rows : List (Option (List α))) : Prop :=
  rows.length = n ∧ ∀ row, some row ∈ rows → row.length = m

/-- The marks of the `null` ones of the inner arrays before the `i`-th, below slot `l`. -/
def nullsTo (n l : ℕ) (rows : List (Option (List Cell))) (i : ℕ) : ℕ → Prop :=
  fun x => ∃ r < i, rows[r]? = some none ∧ x = slotOf (l * n + r)

/-- The marks of the elements of the others. -/
def markedTo (n m k : ℕ) (rows : List (Option (List Cell)))
    (mask : Option (List (Option (List Bool)))) (i : ℕ) : ℕ → Prop :=
  fun x => ∃ r < i, ∃ j, (∃ cells, rows[r]? = some (some cells)) ∧ MaskBit mask r j ∧
    x = leafSlot n m k r j

theorem MaskBit.lt {n m i j : ℕ} {mask : Option (List (Option (List Bool)))}
    (hmask : MaskFits n m mask) (h : MaskBit mask i j) : j < m := by
  obtain ⟨masks, bits, rfl, hi, hj⟩ := h
  rw [← (hmask masks rfl).2 bits (List.mem_of_getElem? hi)]
  exact (List.getElem?_eq_some_iff.1 hj).1

/-- `nullMask[i]` of a mask that fits. -/
theorem innerNullMask_fits {n m i : ℕ} {mask : Option (List (Option (List Bool)))}
    (hmask : MaskFits n m mask) (hi : i < n) (v : Vec) :
    ∃ row, innerNullMask mask i v = .ok row v ∧ (∀ bits, row = some bits → bits.length = m) ∧
      ∀ j, (∃ bits, row = some bits ∧ bits[j]? = some true) ↔ MaskBit mask i j := by
  cases mask with
  | none => exact ⟨none, rfl, nofun, fun j => by simp [MaskBit]⟩
  | some masks =>
    obtain ⟨hlen, hbits⟩ := hmask masks rfl
    have hget := List.getElem?_eq_getElem (show i < masks.length by omega)
    refine ⟨masks[i], ?_, fun bits hb => hbits bits (hb ▸ List.getElem_mem _), fun j => ?_⟩
    · rw [innerNullMask, hget]
      rfl
    · constructor
      · rintro ⟨bits, hb, hj⟩
        exact ⟨masks, bits, rfl, by rw [hget, hb], hj⟩
      · rintro ⟨masks', bits, hm, hb, hj⟩
        cases hm
        rw [hget] at hb
        exact ⟨bits, Option.some.inj hb, hj⟩

/-- The column of the inner arrays and that of their elements. -/
structure ArrayColumns (n m : ℕ) (d e : Column) : Prop where
  colType : d.colType = .array
  arraySize : d.arraySize = n
  parentArraySize : d.parentArraySize = 1
  leafArraySize : e.arraySize = m
  leafParentArraySize : e.parentArraySize = n

section
variable {w n m k l entries i : ℕ} {rows : List (Option (List Cell))}
variable {mask : Option (List (Option (List Bool)))} {d e : Column} {v v' : Vec}
variable {write : ℤ → List Cell → PutM Unit}

theorem exists_lt_succ {P : ℕ → Prop} : (∃ r < i + 1, P r) ↔ (∃ r < i, P r) ∨ P i := by
  constructor
  · rintro ⟨r, hr, h⟩
    rcases Nat.lt_succ_iff_lt_or_eq.1 hr with hlt | rfl
    · exact .inl ⟨r, hlt, h⟩
    · exact .inr h
  · rintro (⟨r, hr, h⟩ | h)
    · exact ⟨r, Nat.lt_succ_of_lt hr, h⟩
    · exact ⟨i, Nat.lt_succ_self i, h⟩

theorem nullsTo_succ (x : ℕ) : nullsTo n l rows (i + 1) x ↔
    nullsTo n l rows i x ∨ rows[i]? = some none ∧ x = slotOf (l * n + i) := exists_lt_succ

theorem markedTo_succ (x : ℕ) : markedTo n m k rows mask (i + 1) x ↔
    markedTo n m k rows mask i x ∨ ∃ j, (∃ cells, rows[i]? = some (some cells)) ∧
      MaskBit mask i j ∧ x = leafSlot n m k i j := exists_lt_succ

/-- The state of the loop before the `i`-th inner array. -/
abbrev LoopState (w n m k l : ℕ) (rows : List (Option (List Cell)))
    (mask : Option (List (Option (List Bool)))) (i : ℕ) : Vec → Vec → Prop :=
  Wrote w n m k rows (nullsTo n l rows i) (markedTo n m k rows mask i) i

/-- The bit of inner array `i` below slot `l` is within the buffer. -/
def NullInBuffer (n entries l i : ℕ) : Prop := slotOf (l * n + i) < (entries * n + 63) / 64 * 64

/-- A `null` inner array. -/
theorem putNull_spec (hcols : ArrayColumns n m d e) (hv : Grid w n m entries v)
    (h : LoopState w n m k l rows mask i v v') (hi : rows[i]? = some none) :
    (NullInBuffer n entries l i ∧ ∃ v'', onChild 0 (d.setNullOnArrayIdx l i) v' = .ok () v'' ∧
      LoopState w n m k l rows mask (i + 1) v v'') ∨
    (¬ NullInBuffer n entries l i ∧
      ∃ x v'', onChild 0 (d.setNullOnArrayIdx l i) v' = .error x v'') := by
  have hgrid := h.grid hv
  have hclears := ClearsBits.onChild 0 (setNullOnArrayIdx_clears n 1 l i)
  rw [Nat.mul_one] at hclears
  rw [Column.setNullOnArrayIdx, hcols.arraySize, hcols.parentArraySize]
  have hbits : BitsIn (Slots.child 0 (.own (slotOf (l * n + i)))) v' ↔
      NullInBuffer n entries l i := by
    rw [NullInBuffer, ← hgrid.innerCap]
    constructor
    · exact fun hb => hb [0] _ ⟨[], rfl, rfl, rfl⟩
    · rintro hb p x ⟨_, rfl, rfl, rfl⟩
      exact hb
  rw [← hbits]
  rcases hclears v' (by rintro p x ⟨_, rfl, rfl, rfl⟩; exact hgrid.inner) with
    ⟨hb, v'', hx, hm⟩ | ⟨hb, x, v'', hx⟩
  · refine .inl ⟨hb, v'', hx, ?_⟩
    have hnulls : ∀ y, nullsTo n l rows (i + 1) y ↔
        nullsTo n l rows i y ∨ y = slotOf (l * n + i) := fun y => by
      rw [nullsTo_succ, and_iff_right hi]
    have hmarked : markedTo n m k rows mask (i + 1) = markedTo n m k rows mask i := by
      funext y
      refine propext ((markedTo_succ y).trans (or_iff_left ?_))
      rintro ⟨_, ⟨cells, hcells⟩, _⟩
      rw [hi] at hcells
      cases hcells
    rw [LoopState, hmarked]
    exact h.markNull hi hm hnulls
  · exact .inr ⟨hb, x, v'', hx⟩

/-- An inner array that is not `null`: its mask, then its elements. -/
theorem putRow_spec (hcols : ArrayColumns n m d e) (hwrite : StoresAt w write)
    (hv : Grid w n m entries v) (hk : k < entries) (hw : 0 < w)
    (hrows : MatrixFits n m rows) (h : LoopState w n m k l rows mask i v v')
    {cells : List Cell} (hi : rows[i]? = some (some cells)) {row : Option (List Bool)}
    (hrow : ∀ bits, row = some bits → bits.length = m)
    (hbits : ∀ j, (∃ bits, row = some bits ∧ bits[j]? = some true) ↔ MaskBit mask i j) :
    ∃ v'', (do
      onChild 0 (onChild 0 (setArrayNullMask e k row cells.length i))
      onChild 0 (onChild 0
        (write (toInt ((k * d.arraySize + i) * e.arraySize : ℕ)) cells))) v' = .ok () v'' ∧
      LoopState w n m k l rows mask (i + 1) v v'' := by
  have hin : i < n := by
    rw [← hrows.1]
    exact (List.getElem?_eq_some_iff.1 hi).1
  have hlen := hrows.2 cells (List.mem_of_getElem? hi)
  have hgrid := h.grid hv
  have hcap : entries * n * m < 2 ^ 31 := by
    have := hgrid.bytes
    rw [hgrid.leafCap] at this
    exact lt_of_le_of_lt (Nat.le_mul_of_pos_right _ hw) this
  have hlt : ∀ j < m, leafSlot n m k i j < 2 ^ 31 := fun j hj =>
    (leafSlot_lt hk hin hj).trans hcap
  -- the mask
  have hclears := ClearsBits.onChild 0 (ClearsBits.onChild 0
    (setArrayNullMask_clears hcols.leafArraySize hcols.leafParentArraySize hlt hrow))
  have hpath : ∀ p x, Slots.child 0 (Slots.child 0 fun p x => p = [] ∧ ∃ j bits,
      row = some bits ∧ bits[j]? = some true ∧ x = leafSlot n m k i j) p x → p = [0, 0] := by
    rintro p x ⟨_, rfl, _, rfl, rfl, _⟩
    rfl
  obtain ⟨v₁, hx, hm⟩ : ∃ v₁, onChild 0 (onChild 0 (setArrayNullMask e k row m i)) v' = .ok () v₁ ∧
      Marked _ v' v₁ := by
    rcases hclears v' fun p x hp => (hpath p x hp) ▸ hgrid.leaf with ⟨_, hok⟩ | ⟨hb, _⟩
    · exact hok
    · refine absurd (fun p x hp => ?_) hb
      obtain rfl := hpath p x hp
      obtain ⟨_, hq, _, hq', _, j, bits, rfl, hj, rfl⟩ := hp
      have hj : j < m := (hrow bits rfl) ▸ (List.getElem?_eq_some_iff.1 hj).1
      have := leafSlot_lt hk hin hj
      rw [hgrid.leafCap]
      omega
  -- the elements
  have hq := leafSlot_add_le m hk hin
  have hint : toInt ((k * d.arraySize + i) * e.arraySize : ℕ) = (leafSlot n m k i 0 : ℕ) := by
    rw [hcols.arraySize, hcols.leafArraySize]
    exact toInt_natCast (n := (k * n + i) * m) (by unfold leafSlot at hq; omega)
  have hbuf : (v₁ [0, 0]).buf = (v' [0, 0]).buf := hm.buf _
  obtain ⟨pos, hput, hpos⟩ := hwrite ((v₁.child 0).child 0) (leafSlot n m k i 0) cells
    (fun hne => (congrArg Buffer.pos hbuf).trans (hgrid.pos hne))
    (by
      show _ ≤ (v₁ [0, 0]).buf.cap
      rw [hbuf, hgrid.leafCap, hlen]
      exact hq)
    (by
      show (v₁ [0, 0]).buf.cap * w < _
      rw [hbuf]
      exact hgrid.bytes)
  have hstore := onChild_eq_ok.2 ⟨_, onChild_eq_ok.2 ⟨_, hput, rfl⟩, rfl⟩
  rw [hlen, bind_ok hx, hint]
  refine ⟨_, hstore, ?_⟩
  have hnulls : nullsTo n l rows (i + 1) = nullsTo n l rows i := by
    funext y
    refine propext ((nullsTo_succ y).trans (or_iff_left ?_))
    rintro ⟨hnone, _⟩
    rw [hi] at hnone
    cases hnone
  rw [LoopState, hnulls]
  refine h.storeRow hv hrows.2 hi hm hpath (fun y => ?_) rfl hpos ?_
  · rw [markedTo_succ]
    refine or_congr_right ⟨?_, ?_⟩
    · rintro ⟨j, _, hbit, rfl⟩
      obtain ⟨bits, hb, hj⟩ := (hbits j).2 hbit
      exact ⟨_, rfl, _, rfl, rfl, j, bits, hb, hj, rfl⟩
    · rintro ⟨_, hp, _, _, _, j, bits, hb, hj, rfl⟩
      exact ⟨j, ⟨cells, hi⟩, (hbits j).1 ⟨bits, hb, hj⟩, rfl⟩
  · intro p hp
    match p with
    | [] => rfl
    | (_ + 1) :: _ => rfl
    | [0] => rfl
    | 0 :: (_ + 1) :: _ => rfl
    | [0, 0] => exact absurd rfl hp
    | 0 :: 0 :: _ :: _ => rfl

/-- The whole loop: it throws if the bit of a `null` inner array is outside of the buffer. -/
theorem putArrays_spec (hcols : ArrayColumns n m d e) (hwrite : StoresAt w write)
    (hv : Grid w n m entries v) (hk : k < entries) (hw : 0 < w) (hrows : MatrixFits n m rows)
    (hmask : MaskFits n m mask) : ∀ (rest : List (Option (List Cell))) (i : ℕ) (v' : Vec),
    rows.drop i = rest → i ≤ n → LoopState w n m k l rows mask i v v' →
      ((∀ r, i ≤ r → rows[r]? = some none → NullInBuffer n entries l r) ∧
        ∃ v'', putArrays write d e l k mask i rest v' = .ok () v'' ∧
          LoopState w n m k l rows mask n v v'') ∨
      ((∃ r, rows[r]? = some none ∧ ¬ NullInBuffer n entries l r) ∧
        ∃ x v'', putArrays write d e l k mask i rest v' = .error x v'')
  | [], i, v', hrest, hle, h => by
    have hn : n ≤ i := by
      rw [← hrows.1]
      exact List.drop_eq_nil_iff.1 hrest
    obtain rfl : i = n := by omega
    refine .inl ⟨fun r hr hnone => ?_, v', rfl, h⟩
    have := (List.getElem?_eq_some_iff.1 hnone).1
    rw [hrows.1] at this
    omega
  | row :: rest, i, v', hrest, hle, h => by
    have hi : rows[i]? = some row := by
      rw [← Nat.add_zero i, ← List.getElem?_drop, hrest]
      rfl
    have hin : i < n := by
      rw [← hrows.1]
      exact (List.getElem?_eq_some_iff.1 hi).1
    have hrest' : rows.drop (i + 1) = rest := by
      rw [← List.tail_drop, hrest]
      rfl
    cases row with
    | none =>
      rw [putArrays]
      rcases putNull_spec hcols hv h hi with ⟨hb, v'', hx, h'⟩ | ⟨hb, x, v'', hx⟩
      · rw [bind_ok hx]
        rcases putArrays_spec hcols hwrite hv hk hw hrows hmask rest (i + 1) v'' hrest' hin h' with
          ⟨hall, hok⟩ | herr
        · refine .inl ⟨fun r hr hnone => ?_, hok⟩
          rcases Nat.eq_or_lt_of_le hr with rfl | hlt
          · exact hb
          · exact hall r hlt hnone
        · exact .inr herr
      · rw [bind_error hx]
        exact .inr ⟨⟨i, hi, hb⟩, x, v'', rfl⟩
    | some cells =>
      have hlen := hrows.2 cells (List.mem_of_getElem? hi)
      have hcheck : checkArrayLength d e cells.length v' = .ok () v' := by
        unfold checkArrayLength
        rw [hcols.colType]
        exact require_of (by rw [hcols.leafArraySize, hlen]) _ _
      obtain ⟨bits, hbits, hfit, hbit⟩ := innerNullMask_fits hmask hin v'
      obtain ⟨v'', hx, h'⟩ := putRow_spec hcols hwrite hv hk hw hrows h hi hfit hbit
      rw [putArrays, bind_ok hcheck, bind_ok hbits, ← bind_assoc, bind_ok hx]
      rcases putArrays_spec hcols hwrite hv hk hw hrows hmask rest (i + 1) v'' hrest' hin h' with
        ⟨hall, hok⟩ | herr
      · refine .inl ⟨fun r hr hnone => ?_, hok⟩
        rcases Nat.eq_or_lt_of_le hr with rfl | hlt
        · rw [hi] at hnone
          cases hnone
        · exact hall r hlt hnone
      · exact .inr herr

end

/-! ## The seven writers -/

namespace PrimKind

/-- The bulk put of a writer. -/
def bulk : PrimKind → ℤ → List Cell → PutM Unit
  | boolean | byte => putBytes
  | k => putView k.width

/-- Where a writer marks a `null` inner array of slot `k`. -/
def nullIdx (kind : PrimKind) (env : Env) (k : ℕ) : ℕ :=
  match kind with
  | int => env.rowIdx
  | _ => k

/-- The elements of a matrix as they are stored. -/
def cells (kind : PrimKind) (values : List (Option (List kind.Val))) : List (Option (List Cell)) :=
  values.map (Option.map (List.map kind.cell))

theorem putArray2D_eq (kind : PrimKind) (env : Env) (col : Column) (k : ℕ)
    (values : List (Option (List kind.Val))) (mask : Option (List (Option (List Bool)))) :
    kind.putArray2D env col k values mask = putArray2DWith kind.types kind.bulk col
      (kind.nullIdx env k) k (kind.cells values) mask := by
  cases kind <;> rfl

theorem bulk_storesAt (kind : PrimKind) : StoresAt kind.width kind.bulk := by
  cases kind with
  | boolean | byte => exact putBytes_storesAt
  | short | int | long | float | double => exact putView_storesAt (by decide)

theorem width_pos (kind : PrimKind) : 0 < kind.width := by cases kind <;> decide

theorem cells_eq_none {kind : PrimKind} {values : List (Option (List kind.Val))} {i : ℕ} :
    (kind.cells values)[i]? = some none ↔ values[i]? = some none := by
  unfold cells
  rw [List.getElem?_map]
  rcases values[i]? with _ | (_ | row) <;> simp

theorem cells_eq_some {kind : PrimKind} {values : List (Option (List kind.Val))} {i : ℕ} :
    (∃ cs, (kind.cells values)[i]? = some (some cs)) ↔ ∃ row, values[i]? = some (some row) := by
  unfold cells
  rw [List.getElem?_map]
  rcases values[i]? with _ | (_ | row) <;> simp

theorem cells_fits {kind : PrimKind} {values : List (Option (List kind.Val))} {n m : ℕ}
    (h : MatrixFits n m values) : MatrixFits n m (kind.cells values) := by
  unfold cells
  refine ⟨by rw [List.length_map]; exact h.1, fun cs hcs => ?_⟩
  obtain ⟨row, hrow, hmap⟩ := List.mem_map.1 hcs
  cases row with
  | none => cases hmap
  | some row =>
    cases hmap
    rw [List.length_map]
    exact h.2 row hrow

end PrimKind

/-- A column `ARRAY(ARRAY(T, m), n)` that is no element of an `ARRAY`, for the writer of `kind`. -/
structure Column.Array2D (col : Column) (kind : PrimKind) (n m : ℕ) : Prop where
  belowArray : col.belowArray = false
  pos : 0 < n ∧ 0 < m
  type : ∃ leaf, col.type = .arrayOf n (.arrayOf m leaf) ∧ leaf.colType ∈ kind.types

theorem arraySize_of_belowArray {col : Column} (h : col.belowArray = false) :
    col.arraySize = 1 := by
  cases col with
  | top i t => rfl
  | child p i t =>
    have hp : p.kind.colType ≠ .array := of_decide_eq_false h
    rw [Column.arraySize]
    cases hk : p.kind with
    | array n => rw [hk] at hp; exact absurd rfl hp
    | _ => rfl

theorem arrayInnerColumn_of {col c : Column} {ctypes : List CAPIType} (hcol : col.colType = .array)
    (hc : col.get? 0 = some c) (hmem : c.colType ∈ ctypes) (v : Vec) :
    arrayInnerColumn col ctypes v = .ok c v := by
  rw [arrayInnerColumn, require_bind, if_pos (.inl hcol), hc]
  show (require _ _ >>= _) v = _
  rw [require_bind, if_pos hmem]
  rfl

section
variable {kind : PrimKind} {n m k entries : ℕ} {col : Column} {env : Env}
variable {values : List (Option (List kind.Val))} {mask : Option (List (Option (List Bool)))}
variable {v : Vec}

/-- What a writer does: the loop from the first inner array on. -/
theorem putArray2D_spec (hcol : col.Array2D kind n m) (hvalues : MatrixFits n m values)
    (hmask : MaskFits n m mask) (hv : Grid kind.width n m entries v) (hk : k < entries) :
    ((∀ r, values[r]? = some none → NullInBuffer n entries (kind.nullIdx env k) r) ∧
      ∃ v', kind.putArray2D env col k values mask v = .ok () v' ∧
        LoopState kind.width n m k (kind.nullIdx env k) (kind.cells values) mask n v v') ∨
    ((∃ r, values[r]? = some none ∧ ¬ NullInBuffer n entries (kind.nullIdx env k) r) ∧
      ∃ x v', kind.putArray2D env col k values mask v = .error x v') := by
  obtain ⟨leaf, htype, hleaf⟩ := hcol.type
  have hkind : col.kind = .array n := by rw [Column.kind, htype]; rfl
  have hd : col.get? 0 = some (.child col 0 (.arrayOf m leaf)) := by rw [Column.get?, htype]; rfl
  have hcols : ArrayColumns n m (.child col 0 (.arrayOf m leaf))
      (.child (.child col 0 (.arrayOf m leaf)) 0 leaf) :=
    { colType := rfl
      arraySize := by rw [Column.arraySize, hkind]; rfl
      parentArraySize := arraySize_of_belowArray hcol.belowArray
      leafArraySize := rfl
      leafParentArraySize := by
        show (Column.child col 0 (.arrayOf m leaf)).arraySize = n
        rw [Column.arraySize, hkind]
        rfl }
  have hcheck : checkArrayLength col (.child col 0 (.arrayOf m leaf)) (kind.cells values).length v =
      .ok () v := by
    have hct : col.colType = .array := by rw [Column.colType, htype]; rfl
    unfold checkArrayLength
    rw [hct]
    exact require_of (by rw [hcols.arraySize, (PrimKind.cells_fits hvalues).1]) _ _
  have hstart : LoopState kind.width n m k (kind.nullIdx env k) (kind.cells values) mask 0 v v := by
    refine .start ?_ ?_
    · rintro _ ⟨_, hr, _⟩
      exact Nat.not_lt_zero _ hr
    · rintro _ ⟨_, hr, _⟩
      exact Nat.not_lt_zero _ hr
  have hinner : arrayInnerColumn col [.array] v = .ok (.child col 0 (.arrayOf m leaf)) v :=
    arrayInnerColumn_of (congrArg TypeKind.colType hkind) hd (List.mem_singleton.2 rfl) v
  rw [kind.putArray2D_eq, putArray2DWith, bind_ok hinner, bind_ok hcheck,
    bind_ok (arrayInnerColumn_of rfl rfl hleaf v)]
  have hspec := putArrays_spec hcols kind.bulk_storesAt hv hk kind.width_pos
    (PrimKind.cells_fits hvalues) hmask (kind.cells values) 0 v rfl (Nat.zero_le n) hstart
  simp only [PrimKind.cells_eq_none, Nat.zero_le, true_implies] at hspec
  exact hspec

/-- The matrix is in slot `k`: its elements are stored, of the inner arrays exactly the `null` ones
    are marked and of the elements exactly those of `marked`, and nothing else is changed. -/
structure MatrixStored (kind : PrimKind) (n m k : ℕ) (values : List (Option (List kind.Val)))
    (marked : ℕ → ℕ → Prop) (v v' : Vec) : Prop where
  stored : ∀ i row j x, values[i]? = some (some row) → row[j]? = some x →
    (v' [0, 0]).data (leafSlot n m k i j) = some (kind.cell x)
  nulls : ∀ x, (v' [0]).valid x = true ↔
    (v [0]).valid x = true ∧ ¬ ∃ i, values[i]? = some none ∧ x = k * n + i
  marks : ∀ x, (v' [0, 0]).valid x = true ↔
    (v [0, 0]).valid x = true ∧ ¬ ∃ i j, marked i j ∧ x = leafSlot n m k i j
  kept : ∀ x, (∀ i j, i < n → j < m → x ≠ leafSlot n m k i j) →
    (v' [0, 0]).data x = (v [0, 0]).data x
  inner : (v' [0]).data = (v [0]).data
  other : ∀ p, p ≠ [0] → p ≠ [0, 0] → v' p = v p

/-- The writer stores the matrix in slot `k` of every memory that has it. -/
def StoresMatrix (kind : PrimKind) (n m : ℕ) (env : Env) (col : Column) (k : ℕ)
    (values : List (Option (List kind.Val))) (mask : Option (List (Option (List Bool))))
    (marked : ℕ → ℕ → Prop) : Prop :=
  ∀ entries v, Grid kind.width n m entries v → k < entries → ∃ v',
    kind.putArray2D env col k values mask v = .ok () v' ∧
      MatrixStored kind n m k values marked v v'

/-- The `null` inner arrays of slot `k` are marked where they are.  `slotOf` is the cast of the
    position of a bit: short of an overflow, `env.rowIdx` is `k`. -/
def NullsInPlace (kind : PrimKind) (n : ℕ) (env : Env) (k : ℕ)
    (values : List (Option (List kind.Val))) : Prop :=
  kind = .int → slotOf (env.rowIdx * n) = k * n ∨ none ∉ values

theorem inner_lt (hk : k < entries) (hv : Grid kind.width n m entries v) {r : ℕ} (hr : r < n) :
    k * n + r < entries * n ∧ entries * n < 2 ^ 34 := by
  have h1 : k * n + n ≤ entries * n := by
    rw [← Nat.succ_mul]
    exact Nat.mul_le_mul_right n hk
  have h2 := hv.inner.cap
  rw [hv.innerCap] at h2
  omega

/-- Below the slot itself, every `null` inner array is marked in its place. -/
theorem NullsInPlace.slotOf_eq (h : NullsInPlace kind n env k values)
    (hvalues : MatrixFits n m values) (hk : k < entries) (hv : Grid kind.width n m entries v)
    {r : ℕ} (hr : values[r]? = some none) : slotOf (kind.nullIdx env k * n + r) = k * n + r := by
  have hrn : r < n := by
    rw [← hvalues.1]
    exact (List.getElem?_eq_some_iff.1 hr).1
  obtain ⟨h1, h2⟩ := inner_lt hk hv hrn
  cases kind with
  | int =>
    rcases h rfl with hslot | hnone
    · unfold slotOf at hslot ⊢
      simp only [PrimKind.nullIdx]
      omega
    · exact absurd (List.mem_of_getElem? hr) hnone
  | _ => exact slotOf_of_lt (by simp only [PrimKind.nullIdx]; omega)

/-- The bits of the mask for the inner arrays that are not `null`: the others are skipped. -/
def ReadBit (values : List (Option (List kind.Val))) (mask : Option (List (Option (List Bool))))
    (i j : ℕ) : Prop := MaskBit mask i j ∧ values[i]? ≠ some none

theorem maskBit_row (hmask : MaskFits n m mask) (hvalues : MatrixFits n m values) {i j : ℕ}
    (h : MaskBit mask i j) : i < n ∧ (values[i]? ≠ some none ↔
      ∃ row, values[i]? = some (some row)) := by
  obtain ⟨masks, bits, rfl, hi, _⟩ := h
  have hin : i < n := by
    rw [← (hmask masks rfl).1]
    exact (List.getElem?_eq_some_iff.1 hi).1
  refine ⟨hin, ?_⟩
  have hlen : i < values.length := hvalues.1.symm ▸ hin
  rw [List.getElem?_eq_getElem hlen]
  cases values[i] <;> simp

theorem nullsTo_iff (hvalues : MatrixFits n m values) {l x : ℕ} :
    nullsTo n l (kind.cells values) n x ↔
      ∃ r, values[r]? = some none ∧ x = slotOf (l * n + r) := by
  unfold nullsTo
  simp only [PrimKind.cells_eq_none]
  constructor
  · rintro ⟨r, _, hr⟩
    exact ⟨r, hr⟩
  · rintro ⟨r, hr, hx⟩
    exact ⟨r, by rw [← hvalues.1]; exact (List.getElem?_eq_some_iff.1 hr).1, hr, hx⟩

theorem markedTo_iff (hmask : MaskFits n m mask) (hvalues : MatrixFits n m values) {x : ℕ} :
    markedTo n m k (kind.cells values) mask n x ↔
      ∃ i j, ReadBit values mask i j ∧ x = leafSlot n m k i j := by
  unfold markedTo
  simp only [PrimKind.cells_eq_some]
  constructor
  · rintro ⟨i, _, j, hrow, hbit, hx⟩
    exact ⟨i, j, ⟨hbit, (maskBit_row hmask hvalues hbit).2.2 hrow⟩, hx⟩
  · rintro ⟨i, j, ⟨hbit, hne⟩, hx⟩
    obtain ⟨hin, hiff⟩ := maskBit_row hmask hvalues hbit
    exact ⟨i, hin, j, hiff.1 hne, hbit, hx⟩

/-- With the `null` inner arrays in their place, the loop ends with the matrix stored. -/
theorem NullsInPlace.storesMatrix (hplace : NullsInPlace kind n env k values)
    (hcol : col.Array2D kind n m) (hvalues : MatrixFits n m values) (hmask : MaskFits n m mask) :
    StoresMatrix kind n m env col k values mask (ReadBit values mask) := by
  intro entries v hv hk
  have hspec : (_ ∧ ∃ v', kind.putArray2D env col k values mask v = .ok () v' ∧ _) ∨ _ :=
    putArray2D_spec hcol hvalues hmask hv hk
  rcases hspec with
    ⟨_, v', hx, h⟩ | ⟨⟨r, hr, hout⟩, _⟩
  · refine ⟨v', hx, ?_⟩
    obtain ⟨valid, hinner, hvalid⟩ := h.inner
    obtain ⟨valid', data, pos, hleaf, _, hvalid', hstored, hkept⟩ := h.leaf
    refine ⟨fun i row j x hi hj => ?_, fun x => ?_, fun x => ?_, fun x hx => ?_, ?_, h.other⟩
    · rw [hleaf]
      refine hstored i (row.map kind.cell) j _ ?_ ?_ ?_
      · rw [← hvalues.1]
        exact (List.getElem?_eq_some_iff.1 hi).1
      · rw [PrimKind.cells, List.getElem?_map, hi]
        rfl
      · rw [List.getElem?_map, hj]
        rfl
    · rw [hinner, hvalid, nullsTo_iff hvalues]
      refine and_congr_right fun _ => not_congr (exists_congr fun r => and_congr_right fun hr => ?_)
      rw [hplace.slotOf_eq hvalues hk hv hr]
    · rw [hleaf, hvalid', markedTo_iff hmask hvalues]
    · rw [hleaf]
      exact hkept x fun r j hr _ hj => hx r j hr hj
    · rw [hinner]
  · have hrn : r < n := by
      rw [← hvalues.1]
      exact (List.getElem?_eq_some_iff.1 hr).1
    have := (inner_lt hk hv hrn).1
    rw [NullInBuffer, hplace.slotOf_eq hvalues hk hv hr] at hout
    omega

/-! ## When they do -/

/-- Two shifts of the same slots, one of them after the cast: the first of the slots tells. -/
theorem slotOf_of_shift {S : ℕ → Prop} {a b : ℕ} (hne : ∃ r, S r) (hb : ∀ r, S r → b + r < 2 ^ 34)
    (h : ∀ x, (∃ r, S r ∧ x = slotOf (a + r)) ↔ ∃ r, S r ∧ x = b + r) : slotOf a = b := by
  classical
  have hfirst := Nat.find_spec hne
  have hmin : ∀ r, S r → Nat.find hne ≤ r := fun r hr => Nat.find_min' hne hr
  generalize Nat.find hne = first at hfirst hmin
  obtain ⟨s, hs, hs'⟩ := (h _).1 ⟨first, hfirst, rfl⟩
  obtain ⟨t, ht, ht'⟩ := (h _).2 ⟨first, hfirst, rfl⟩
  have hs1 := hmin s hs
  have ht1 := hmin t ht
  have hs2 := hb s hs
  have ht2 := hb t ht
  unfold slotOf at hs' ht' ⊢
  omega

/-- A new memory. -/
def gridMemory (n m entries : ℕ) : Vec := fun p =>
  { valid := fun _ => true, data := fun _ => none, size := 0, alloc := 0, listSize := 0,
    buf := ⟨0, if p = [0] then entries * n else entries * n * m, 0⟩ }

theorem gridMemory_grid {w : ℕ} (hw : 0 < w) (hm : 0 < m) (h : entries * n * m * w < 2 ^ 31) :
    Grid w n m entries (gridMemory n m entries) := by
  have hleaf : entries * n * m < 2 ^ 31 := lt_of_le_of_lt (Nat.le_mul_of_pos_right _ hw) h
  have hinner : entries * n < 2 ^ 31 := lt_of_le_of_lt (Nat.le_mul_of_pos_right _ hm) hleaf
  exact ⟨⟨rfl, lt_trans hinner (by decide)⟩, rfl, ⟨rfl, lt_trans hleaf (by decide)⟩, rfl, h,
    fun _ => rfl⟩

/-- What the writer does in a new memory. -/
theorem StoresMatrix.loopState {marked : ℕ → ℕ → Prop}
    (h : StoresMatrix kind n m env col k values mask marked) (hcol : col.Array2D kind n m)
    (hvalues : MatrixFits n m values) (hmask : MaskFits n m mask)
    (hk : (k + 1) * n * m * kind.width < 2 ^ 31) : ∃ v',
      MatrixStored kind n m k values marked (gridMemory n m (k + 1)) v' ∧
        LoopState kind.width n m k (kind.nullIdx env k) (kind.cells values) mask n
          (gridMemory n m (k + 1)) v' := by
  have hgrid := gridMemory_grid kind.width_pos hcol.pos.2 hk
  obtain ⟨v', hx, hs⟩ := h (k + 1) _ hgrid (Nat.lt_succ_self k)
  refine ⟨v', hs, ?_⟩
  have hspec : (_ ∧ ∃ v', kind.putArray2D env col k values mask (gridMemory n m (k + 1)) =
      .ok () v' ∧ _) ∨ _ := putArray2D_spec hcol hvalues hmask hgrid (Nat.lt_succ_self k)
  rcases hspec with
    ⟨_, v'', hx', hl⟩ | ⟨_, x, v'', hx'⟩
  · rw [hx] at hx'
    cases hx'
    exact hl
  · rw [hx] at hx'
    cases hx'

theorem StoresMatrix.nullsInPlace {marked : ℕ → ℕ → Prop}
    (h : StoresMatrix kind n m env col k values mask marked) (hcol : col.Array2D kind n m)
    (hvalues : MatrixFits n m values) (hmask : MaskFits n m mask)
    (hk : (k + 1) * n * m * kind.width < 2 ^ 31) : NullsInPlace kind n env k values := by
  intro hint
  by_cases hnone : none ∈ values
  · refine .inl ?_
    obtain ⟨v', hs, hl⟩ := h.loopState hcol hvalues hmask hk
    obtain ⟨valid, hinner, hvalid⟩ := hl.inner
    have hgrid := gridMemory_grid kind.width_pos hcol.pos.2 hk
    obtain ⟨r₀, hr₀⟩ := List.mem_iff_getElem?.1 hnone
    have hidx : kind.nullIdx env k = env.rowIdx := by rw [hint]; rfl
    refine slotOf_of_shift (S := fun r => values[r]? = some none) ⟨r₀, hr₀⟩ (fun r hr => ?_)
      fun x => ?_
    · have hrn : r < n := by
        rw [← hvalues.1]
        exact (List.getElem?_eq_some_iff.1 hr).1
      have := inner_lt (Nat.lt_succ_self k) hgrid hrn
      omega
    · have hx := hs.nulls x
      rw [hinner, hvalid, nullsTo_iff hvalues, hidx] at hx
      simp only [gridMemory, true_and] at hx
      exact not_iff_not.1 hx
  · exact .inr hnone

/-- No mask bit of a `null` inner array is set, if it is to be marked. -/
theorem StoresMatrix.ne_none (h : StoresMatrix kind n m env col k values mask (MaskBit mask))
    (hcol : col.Array2D kind n m) (hvalues : MatrixFits n m values) (hmask : MaskFits n m mask)
    (hk : (k + 1) * n * m * kind.width < 2 ^ 31) {i j : ℕ} (hbit : MaskBit mask i j) :
    values[i]? ≠ some none := by
  obtain ⟨v', hs, hl⟩ := h.loopState hcol hvalues hmask hk
  obtain ⟨valid, data, pos, hleaf, _, hvalid, _⟩ := hl.leaf
  have hx := hs.marks (leafSlot n m k i j)
  rw [hleaf, hvalid, markedTo_iff hmask hvalues] at hx
  simp only [gridMemory, true_and] at hx
  obtain ⟨i', j', ⟨hbit', hne⟩, heq⟩ := (not_iff_not.1 hx).2 ⟨i, j, hbit, rfl⟩
  rw [(leafSlot_inj (hbit.lt hmask) (hbit'.lt hmask) heq).1]
  exact hne

theorem storesMatrix_congr {marked marked' : ℕ → ℕ → Prop} (h : ∀ i j, marked i j ↔ marked' i j) :
    StoresMatrix kind n m env col k values mask marked ↔
      StoresMatrix kind n m env col k values mask marked' := by
  have : marked = marked' := by
    funext i j
    exact propext (h i j)
  rw [this]

/-- **The writers of two-dimensional arrays** store the matrix, mark what is NULL and change nothing
    else if and only if the `null` inner arrays are marked in their place, which only
    `putIntArray2D` can fail to do; the bits of the mask for `null` inner arrays are skipped,
    so that they must not be set if they count. -/
theorem putArray2D_stores_iff {kind : PrimKind} {n m : ℕ} {col : Column}
    (hcol : col.Array2D kind n m) (env : Env) (k : ℕ)
    (hk : (k + 1) * n * m * kind.width < 2 ^ 31) {values : List (Option (List kind.Val))}
    (hvalues : MatrixFits n m values) {mask : Option (List (Option (List Bool)))}
    (hmask : MaskFits n m mask) :
    (StoresMatrix kind n m env col k values mask (MaskBit mask) ↔
      NullsInPlace kind n env k values ∧ ∀ i j, MaskBit mask i j → values[i]? ≠ some none) ∧
    (StoresMatrix kind n m env col k values mask (ReadBit values mask) ↔
      NullsInPlace kind n env k values) := by
  refine ⟨⟨fun h => ⟨h.nullsInPlace hcol hvalues hmask hk, fun i j hbit =>
    h.ne_none hcol hvalues hmask hk hbit⟩, ?_⟩, fun h => h.nullsInPlace hcol hvalues hmask hk,
      fun hplace => hplace.storesMatrix hcol hvalues hmask⟩
  rintro ⟨hplace, hskip⟩
  rw [storesMatrix_congr fun i j => show MaskBit mask i j ↔ ReadBit values mask i j from
    ⟨fun hbit => ⟨hbit, hskip i j hbit⟩, fun hread => hread.1⟩]
  exact hplace.storesMatrix hcol hvalues hmask

end

/-- The type `ARRAY(ARRAY(INTEGER, 2), 2)`. -/
def matrixType : LogicalType := .arrayOf 2 (.arrayOf 2 .integer)

/-- A matrix whose first inner array is `null`. -/
def halfMatrix : List (Option (List (PrimKind.Val .int))) := [none, some [1#32, 2#32]]

theorem halfMatrix_fits : MatrixFits 2 2 halfMatrix := by
  refine ⟨rfl, fun row h => ?_⟩
  simp only [halfMatrix, List.mem_cons, reduceCtorEq, Option.some.injEq, List.not_mem_nil,
    or_false, false_or] at h
  rw [h]
  rfl

theorem maskFits_none (n m : ℕ) : MaskFits n m none := fun _ h => by cases h

theorem putArray2D_stores_iff_half :
    (StoresMatrix .int 2 2 ⟨.still, 3, true⟩ (.top 0 matrixType) 3 halfMatrix none
        (MaskBit none) ↔
      NullsInPlace .int 2 ⟨.still, 3, true⟩ 3 halfMatrix ∧
        ∀ i j, MaskBit none i j → halfMatrix[i]? ≠ some none) ∧
    (StoresMatrix .int 2 2 ⟨.still, 3, true⟩ (.top 0 matrixType) 3 halfMatrix none
        (ReadBit halfMatrix none) ↔ NullsInPlace .int 2 ⟨.still, 3, true⟩ 3 halfMatrix) :=
  @putArray2D_stores_iff .int 2 2 _ ⟨rfl, by decide, .integer, rfl, by decide⟩ ⟨.still, 3, true⟩ 3
    (by decide) _ halfMatrix_fits _ (maskFits_none 2 2)

/-- In slot 1 of a `LIST` of matrices in row 0, `putIntArray2D` marks a `null` inner array of
    slot 0. -/
theorem putIntArray2D_misplaces : ¬ ∀ (kind : PrimKind) (n m : ℕ) (col : Column),
    col.Array2D kind n m → ∀ (env : Env) (k : ℕ), (k + 1) * n * m * kind.width < 2 ^ 31 →
      ∀ (values : List (Option (List kind.Val))) (mask : Option (List (Option (List Bool)))),
        MatrixFits n m values → MaskFits n m mask →
          StoresMatrix kind n m env col k values mask (MaskBit mask) := by
  intro h
  have hcol : (Column.child (.top 0 (.listOf matrixType)) 0 matrixType).Array2D .int 2 2 :=
    ⟨rfl, by decide, .integer, rfl, by decide⟩
  have hplace := (h .int 2 2 _ hcol ⟨.still, 0, true⟩ 1 (by decide) halfMatrix none
    halfMatrix_fits (maskFits_none 2 2)).nullsInPlace hcol halfMatrix_fits (maskFits_none 2 2)
      (by decide)
  rcases hplace rfl with hslot | hnone
  · exact absurd hslot (by decide)
  · exact hnone List.mem_cons_self

/-! ## The memory of an appender -/

/-- The buffer is over the present memory, and its position is set for positioned columns only. -/
def BufferFresh (col : Column) (c : ColState) : Prop :=
  c.buf.alloc = c.alloc ∧ (¬ col.Positioned → c.buf.pos = 0)

theorem bufferFresh_kept : KeptByWrites (fun _ _ => True) BufferFresh where
  clear j h := by
    unfold BufferFresh
    rw [ColState.clearValid_buf, ColState.clearValid_alloc]
    exact h
  position _ hp h := ⟨h.1, fun hn => absurd hp hn⟩
  cells base _ _ h := by
    unfold BufferFresh
    rw [ColState.write_buf, ColState.write_alloc]
    exact h
  store _ _ _ h := h
  size _ h := h
  fetched _ halloc hpos _ := ⟨halloc, fun _ => hpos⟩

/-- A call whose default moves no vector, and which fetches its buffers. -/
structure Entry.InPlace (cfg : Config) (e : Entry) : Prop where
  default : ∀ col, e.call = .appendDefault → e.before.currentColumn = some col →
    ∀ p, (defaultWritten cfg col e.before p).alloc = (e.before.chunk p).alloc
  buffers : ∀ x t, e.result = .error x t → x.isReset = false

theorem defaultWritten_buf (cfg : Config) (col : Column) (s : Appender) (p : List ℕ) :
    (defaultWritten cfg col s p).buf = (s.chunk p).buf := by
  unfold defaultWritten
  cases cfg.eng.appendDefault col.idx s.rowIdx s.chunk <;> rfl

theorem Entry.InPlace.admitted {cfg : Config} {e : Entry} (h : e.InPlace cfg) :
    Admitted (fun _ _ => True) BufferFresh cfg e where
  decimals _ _ _ _ _ _ _ _ _ _ := trivial
  default col hcall hc hs := by
    rw [chunkAll_iff] at hs ⊢
    intro d hd
    have hfresh := hs d hd
    simp only [BufferFresh, root, sub_apply, List.append_nil] at hfresh ⊢
    rw [defaultWritten_buf, h.default col hcall hc]
    exact hfresh
  buffers := h.buffers

theorem widthBytes_of_types {kind : PrimKind} {t : TypeKind} (h : t.colType ∈ kind.types) :
    t.widthBytes = kind.width := by
  cases t with
  | scalar t ht =>
    have h : t ∈ kind.types := h
    show t.widthBytes = kind.width
    cases kind <;> simp only [PrimKind.types, List.mem_cons, List.not_mem_nil, or_false] at h <;>
      rcases h with rfl | rfl <;> rfl
  | unlisted t =>
    cases t <;> cases kind <;> simp [TypeKind.colType, UnlistedType.colType, PrimKind.types] at h
  | _ => cases kind <;> simp [TypeKind.colType, PrimKind.types] at h

/-- **The memory of a two-dimensional array is a `Grid`** in every state of a run, for as many slots
    as its buffers were fetched for. -/
theorem grid_exec {cfg : Config} {s₀ : Appender} (h₀ : create cfg = .ok s₀)
    {calls : List (Call × Natives)} (hk : ∀ e ∈ history cfg s₀ calls, e.InPlace cfg)
    (hopen : (exec cfg s₀ calls).closed = false) {col : Column} (hin : col.In cfg.columns)
    {kind : PrimKind} {n m : ℕ} (hcol : col.Array2D kind n m) :
    Grid kind.width n m (col.maxEntries cfg.eng (exec cfg s₀ calls).chunk)
      ((exec cfg s₀ calls).chunk.sub col.path) := by
  obtain ⟨leaf, htype, hleaf⟩ := hcol.type
  have hfresh := (chunkAll_exec ⟨fun _ => trivial, fun _ => trivial⟩ bufferFresh_kept
    (fun _ => ⟨rfl, fun _ => rfl⟩) h₀ (fun e he => (hk e he).admitted) hopen).column hin
  have hcapped := (chunkCapped_exec h₀ (fun e he => (hk e he).buffers) hopen).column hin
  generalize col.maxEntries cfg.eng (exec cfg s₀ calls).chunk = entries at hcapped ⊢
  generalize (exec cfg s₀ calls).chunk.sub col.path = v at hfresh hcapped ⊢
  have hd : col.get? 0 = some (.child col 0 (.arrayOf m leaf)) := by rw [Column.get?, htype]; rfl
  have hfd := hfresh.child hd
  have hfe := hfd.child (i := 0) (d := .child (.child col 0 (.arrayOf m leaf)) 0 leaf) rfl
  rw [htype, arraySize_of_belowArray hcol.belowArray] at hcapped
  have hwidth : leaf.kind.widthBytes = kind.width := widthBytes_of_types hleaf
  have hbelow : (Column.child (.child col 0 (.arrayOf m leaf)) 0 leaf).nestedElement = true := by
    show (decide (LogicalType.colType (.arrayOf m leaf) = .array) &&
      (!col.kind.sharesSlots || col.nested)) = true
    rw [Column.kind, htype]
    rfl
  cases hcapped with
  | node _ _ hcs =>
    have hcd := hcs 0 _ rfl
    cases hcd with
    | node hcap hfetch hcs =>
      have hce := hcs 0 _ rfl
      cases hce with
      | node hcap' hfetch' _ =>
        refine ⟨⟨hfd.root.1, hfetch.lt⟩, ?_, ⟨hfe.root.1, hfetch'.lt⟩, ?_, ?_, fun hw => ?_⟩
        · exact hcap.trans (Nat.mul_one _)
        · refine hcap'.trans ?_
          show entries * m * n = entries * n * m
          ring
        · rw [← hwidth]
          exact hfetch'.data_lt
        · refine hfe.root.2 ?_
          rintro ⟨hp | hp, _⟩
          · rw [hbelow] at hp
            cases hp
          · exact hw (hwidth.symm.trans hp)

end DuckDBJava
