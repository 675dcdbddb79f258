/-
  What the `put` functions do to the sizes of vectors and buffers.

  Outside `prepareListColumn` nothing changes a `size`, a `listSize` or the capacity of a buffer
  (`SameSizes`).  `prepareListColumn` changes them together: the invariants `Sized` (the `listSize`
  below a `LIST` or `MAP` is the size of its child) and `Capped` (a buffer is as large as
  `maxElementsCount` says) survive unless the buffers cannot be fetched.
-/
import DuckDBJava.Appender.Steps

namespace DuckDBJava

open Exec PathTree

/-! ## The sizes stay -/

/-- All sizes and capacities are the same. -/
def SameSizes (v v' : Vec) : Prop := ∀ p,
  (v' p).buf.cap = (v p).buf.cap ∧ (v' p).size = (v p).size ∧ (v' p).listSize = (v p).listSize

instance : Std.Refl SameSizes := ⟨fun _ _ => ⟨rfl, rfl, rfl⟩⟩

instance : IsTrans Vec SameSizes := ⟨fun _ _ _ h h' p =>
  ⟨(h' p).1.trans (h p).1, (h' p).2.1.trans (h p).2.1, (h' p).2.2.trans (h p).2.2⟩⟩

theorem SameSizes.onChild {v c : Vec} {i : ℕ} (h : SameSizes (v.child i) c) :
    SameSizes v (v.setChild i c) := by
  rintro (_ | ⟨j, p⟩)
  · exact ⟨rfl, rfl, rfl⟩
  · rw [setChild_cons]
    by_cases hj : j = i
    · subst hj; rw [if_pos rfl]; exact h p
    · rw [if_neg hj]; exact ⟨rfl, rfl, rfl⟩

section
variable {E : Exn → Prop}

attribute [local irreducible] toInt

theorem sameSizes_onChild {α : Type} {x : PutM α} (i : ℕ) (h : Keeps E SameSizes x) :
    Keeps E SameSizes (onChild i x) := keeps_onChild h fun _ _ => SameSizes.onChild

theorem sameSizes_modifyRoot {f : ColState → ColState}
    (h : ∀ c, (f c).buf.cap = c.buf.cap ∧ (f c).size = c.size ∧ (f c).listSize = c.listSize) :
    Keeps E SameSizes (modifyRoot f) := by
  refine keeps_modifyRoot fun t => ?_
  rintro (_ | ⟨j, p⟩)
  · exact h t.root
  · exact ⟨rfl, rfl, rfl⟩

theorem setPosition_sameSizes (w : ℕ) (pos : ℤ) : Keeps E SameSizes (setPosition w pos) :=
  keeps_getRoot.bind fun _ => (Keeps.require _ _).bind fun _ =>
    sameSizes_modifyRoot fun _ => ⟨rfl, rfl, rfl⟩

theorem putHere_sameSizes (w : ℕ) (cells : List Cell) (n : ℕ) :
    Keeps E SameSizes (putHere w cells n) :=
  keeps_getRoot.bind fun _ => (Keeps.require _ _).bind fun _ =>
    sameSizes_modifyRoot fun _ => by simp [ColState.setPos]

theorem putCell_sameSizes (w k : ℕ) (cell : Cell) : Keeps E SameSizes (putCell w k cell) :=
  (setPosition_sameSizes _ _).bind fun _ => putHere_sameSizes _ _ _

theorem putBytes_sameSizes (pos : ℤ) (cells : List Cell) : Keeps E SameSizes (putBytes pos cells) :=
  (setPosition_sameSizes _ _).bind fun _ => putHere_sameSizes _ _ _

theorem putView_sameSizes (w : ℕ) (pos : ℤ) (cells : List Cell) :
    Keeps E SameSizes (putView w pos cells) :=
  keeps_getRoot.bind fun _ => (Keeps.require _ _).bind fun _ => (Keeps.require _ _).bind fun _ =>
    sameSizes_modifyRoot fun _ => by simp

theorem putEntry_sameSizes (k : ℕ) (offset length : ℤ) :
    Keeps E SameSizes (putEntry k offset length) :=
  keeps_getRoot.bind fun _ => (Keeps.require _ _).bind fun _ => (Keeps.require _ _).bind fun _ =>
    sameSizes_modifyRoot fun _ => by simp

theorem listVectorReserve_sameSizes (eng : Engine) (n : ℤ) :
    Keeps E SameSizes (listVectorReserve eng n) := by
  refine (Keeps.require _ _).bind fun _ => sameSizes_onChild 0 fun v => ?_
  show SameSizes v (moveVectors _ v)
  intro p
  obtain ⟨m, hm⟩ := moveVectors_apply (eng.reserveMoves v n) v p
  rw [hm]
  exact ⟨rfl, rfl, rfl⟩

theorem setNullOnVectorIdx_sameSizes (k : ℤ) : Keeps E SameSizes (setNullOnVectorIdx k) :=
  keeps_getRoot.bind fun _ => (Keeps.require _ _).bind fun _ => (Keeps.require _ _).bind fun _ =>
    sameSizes_modifyRoot fun _ => by simp

theorem setNullOnElements_sameSizes (a n k : ℕ) : ∀ (ts : List LogicalType) (i : ℕ),
    Keeps E SameSizes (setNullOnElements a n k i ts)
  | [], _ => Keeps.pure ()
  | _ :: ts, i => by
    rw [setNullOnElements]
    exact (sameSizes_onChild i (Keeps.forRange (fun _ => setNullOnVectorIdx_sameSizes _) _ _)).bind
      fun _ => setNullOnElements_sameSizes a n k ts (i + 1)

mutual

theorem setNullAt_sameSizes : ∀ (t : LogicalType) (a b k : ℕ),
    Keeps E SameSizes (setNullAt a b t k)
  | .node kind cs, a, b, k => by
    cases kind with
    | array n =>
      rw [setNullAt_array]
      exact (setNullOnVectorIdx_sameSizes _).bind fun _ => setNullOnElements_sameSizes a n k cs 0
    | list | map =>
      rw [setNullAt_listOrMap rfl]
      exact setNullOnVectorIdx_sameSizes _
    | scalar _ _ | decimal _ _ _ | enum _ _ | struct _ | union _ | unlisted _ =>
      rw [setNullAt_sharesSlots rfl]
      exact (setNullOnVectorIdx_sameSizes _).bind fun _ => setNullChildren_sameSizes cs a k 0

theorem setNullChildren_sameSizes : ∀ (ts : List LogicalType) (a k i : ℕ),
    Keeps E SameSizes (setNullChildren a k i ts)
  | [], _, _, _ => Keeps.pure ()
  | t :: ts, a, k, i => by
    rw [setNullChildren]
    exact (sameSizes_onChild i (setNullAt_sameSizes t 1 a k)).bind fun _ =>
      setNullChildren_sameSizes ts a k (i + 1)

end

theorem Column.setNull_sameSizes (col : Column) (k : ℕ) : Keeps E SameSizes (col.setNull k) :=
  setNullAt_sameSizes _ _ _ _

theorem orThrow_sameSizes {α : Type} (e : Except Exn α) : Keeps E SameSizes (orThrow e) := by
  cases e with
  | ok a => exact Keeps.pure a
  | error x => exact Keeps.throw x

theorem putStringOrBlob_sameSizes (env : Env) (k : ℕ) (bytes : List UInt8) :
    Keeps E SameSizes (putStringOrBlob env k bytes) := by
  unfold putStringOrBlob
  refine Keeps.ite ?_ (sameSizes_modifyRoot fun _ => ⟨rfl, rfl, rfl⟩)
  exact (setPosition_sameSizes _ _).bind fun _ => putHere_sameSizes _ _ _

theorem putEnum_sameSizes (t : CAPIType) (dict : List String) (k : ℕ) (value : String) :
    Keeps E SameSizes (putEnum t dict k value) := by
  unfold putEnum
  split
  · exact Keeps.throw _
  · refine (setPosition_sameSizes _ _).bind fun _ => ?_
    split <;> first | exact putHere_sameSizes _ _ _ | exact Keeps.throw _

theorem putDecimal_sameSizes (t : CAPIType) (p s k : ℕ) (unscaled scale : ℤ) :
    Keeps E SameSizes (putDecimal t p s k unscaled scale) :=
  (orThrow_sameSizes _).bind fun _ => putCell_sameSizes _ _ _

theorem putScalarElement_sameSizes (env : Env) (t : CAPIType) (k : ℕ) (value : Obj) :
    Keeps E SameSizes (putScalarElement env t k value) := by
  unfold putScalarElement
  split
  · split
    · exact putStringOrBlob_sameSizes _ _ _
    · exact Keeps.throw _
  · split
    · exact putStringOrBlob_sameSizes _ _ _
    · exact Keeps.throw _
  · exact (orThrow_sameSizes _).bind fun _ => putCell_sameSizes _ _ _

theorem forNulls_sameSizes {f : ℕ → PutM Unit} (h : ∀ i, Keeps E SameSizes (f i)) :
    ∀ (mask : List Bool) (i : ℕ), Keeps E SameSizes (forNulls i f mask)
  | [], _ => Keeps.pure ()
  | b :: mask, i => by
    rw [forNulls]
    exact (Keeps.ite (h i) (Keeps.pure ())).bind fun _ => forNulls_sameSizes h mask (i + 1)

theorem setArrayNullMask_sameSizes (col : Column) (k : ℕ) (mask : Option (List Bool)) (n p : ℕ) :
    Keeps E SameSizes (setArrayNullMask col k mask n p) := by
  cases mask with
  | none => exact Keeps.pure ()
  | some mask =>
    exact (Keeps.require _ _).bind fun _ =>
      forNulls_sameSizes (fun _ => setNullOnVectorIdx_sameSizes _) _ _

theorem setListNullMask_sameSizes (col : Column) (mask : Option (List Bool)) (n : ℕ) :
    Keeps E SameSizes (setListNullMask col mask n) := by
  cases mask with
  | none => exact Keeps.pure ()
  | some mask =>
    exact (Keeps.require _ _).bind fun _ => keeps_getRoot.bind fun _ =>
      (Keeps.require _ _).bind fun _ => forNulls_sameSizes (fun _ => col.setNull_sameSizes _) _ _

theorem setNullMask_sameSizes (arrayCol col : Column) (k : ℕ) (mask : Option (List Bool)) (n : ℕ) :
    Keeps E SameSizes (setNullMask arrayCol col k mask n) := by
  unfold setNullMask
  split
  · exact sameSizes_onChild 0 (setArrayNullMask_sameSizes _ _ _ _ _)
  · exact sameSizes_onChild 0 (setListNullMask_sameSizes _ _ _)
  · exact Keeps.throw _

theorem checkArrayLength_sameSizes (arrayCol col : Column) (n : ℤ) :
    Keeps E SameSizes (checkArrayLength arrayCol col n) := by
  unfold checkArrayLength
  split
  · exact Keeps.pure ()
  · exact Keeps.require _ _
  · exact Keeps.throw _

theorem arrayInnerColumn_sameSizes (arrayCol : Column) (ctypes : List CAPIType) :
    Keeps E SameSizes (arrayInnerColumn arrayCol ctypes) := by
  refine (Keeps.require _ _).bind fun _ => ?_
  split
  · exact Keeps.throw _
  · exact (Keeps.require _ _).bind fun _ => Keeps.pure _

theorem innerNullMask_sameSizes (mask : Option (List (Option (List Bool)))) (i : ℕ) :
    Keeps E SameSizes (innerNullMask mask i) := by
  unfold innerNullMask
  split
  · exact Keeps.pure _
  · split
    · exact Keeps.throw _
    · exact Keeps.pure _

theorem putArrays_sameSizes {write : ℤ → List Cell → PutM Unit}
    (h : ∀ pos cells, Keeps E SameSizes (write pos cells)) (innerCol col : Column) (l k : ℕ)
    (mask : Option (List (Option (List Bool)))) : ∀ (values : List (Option (List Cell))) (i : ℕ),
    Keeps E SameSizes (putArrays write innerCol col l k mask i values)
  | [], _ => Keeps.pure ()
  | none :: rest, i => by
    rw [putArrays]
    exact (sameSizes_onChild 0 (setNullOnVectorIdx_sameSizes _)).bind fun _ =>
      putArrays_sameSizes h innerCol col l k mask rest (i + 1)
  | some cells :: rest, i => by
    rw [putArrays]
    exact (checkArrayLength_sameSizes _ _ _).bind fun _ => (innerNullMask_sameSizes _ _).bind
      fun _ => (sameSizes_onChild 0 (sameSizes_onChild 0
        (setArrayNullMask_sameSizes _ _ _ _ _))).bind fun _ =>
          (sameSizes_onChild 0 (sameSizes_onChild 0 (h _ _))).bind fun _ =>
            putArrays_sameSizes h innerCol col l k mask rest (i + 1)

theorem putArray2DWith_sameSizes {write : ℤ → List Cell → PutM Unit}
    (h : ∀ pos cells, Keeps E SameSizes (write pos cells)) (ctypes : List CAPIType)
    (outerCol : Column) (l k : ℕ) (values : List (Option (List Cell)))
    (mask : Option (List (Option (List Bool)))) :
    Keeps E SameSizes (putArray2DWith ctypes write outerCol l k values mask) :=
  (arrayInnerColumn_sameSizes _ _).bind fun _ => (checkArrayLength_sameSizes _ _ _).bind fun _ =>
    (arrayInnerColumn_sameSizes _ _).bind fun _ => putArrays_sameSizes h _ _ _ _ _ _ _

theorem PrimKind.putArray2D_sameSizes (kind : PrimKind) (env : Env) (outerCol : Column) (k : ℕ)
    (values : List (Option (List kind.Val))) (mask : Option (List (Option (List Bool)))) :
    Keeps E SameSizes (kind.putArray2D env outerCol k values mask) := by
  cases kind with
  | boolean | byte => exact putArray2DWith_sameSizes putBytes_sameSizes _ _ _ _ _ _
  | short | int | long | float | double =>
    exact putArray2DWith_sameSizes (putView_sameSizes _) _ _ _ _ _ _

theorem setOthersNull_sameSizes (col : Column) (m k : ℕ) : ∀ (ts : List LogicalType) (i : ℕ),
    Keeps E SameSizes (setOthersNull col m k i ts)
  | [], _ => Keeps.pure ()
  | _ :: ts, i => by
    rw [setOthersNull]
    exact (Keeps.ite (Keeps.pure ()) (sameSizes_onChild i (Column.setNull_sameSizes _ _))).bind
      fun _ => setOthersNull_sameSizes col m k ts (i + 1)

theorem putUnionTag_sameSizes (col : Column) (k : ℕ) (tag : String) :
    Keeps E SameSizes (putUnionTag col k tag) := by
  unfold putUnionTag
  split
  · split
    · exact Keeps.throw _
    · exact (sameSizes_onChild 0 (putCell_sameSizes _ _ _)).bind fun _ =>
        (setOthersNull_sameSizes _ _ _ _ _).bind fun _ => Keeps.pure _
  · exact Keeps.throw _

end

end DuckDBJava
