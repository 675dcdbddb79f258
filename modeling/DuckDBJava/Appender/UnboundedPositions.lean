/-
  The appender with positions of any size.

  The functions that narrow a position to `int`, and those that call them, once more under the same
  names in the namespace `Unbounded`: here a position is the product itself.  A write goes to the
  slot that it addresses, or the position is outside the buffer and the call throws.
-/
import DuckDBJava.Appender.Arrays2D

namespace DuckDBJava.Unbounded

open Exec PathTree

/-! ## Columns -/

def putCell (w vectorIdx : ℕ) (cell : Cell) : PutM Unit := do
  setPosition w (vectorIdx * w : ℕ)
  putHere w [cell] w

def putEntry (vectorIdx : ℕ) (offset length : ℤ) : PutM Unit := do
  let c ← getRoot
  let pos : ℤ := (vectorIdx * CAPIType.list.widthBytes / 8 : ℕ)
  let cap := (c.buf.cap * CAPIType.list.widthBytes - c.buf.pos) / 8
  require (0 ≤ pos ∧ pos ≤ cap) .illegalArgument
  require (pos + 2 ≤ cap) .bufferOverflow
  modifyRoot fun c => c.write ((c.buf.pos / 8 + pos.toNat) / 2) [.entry offset length]

def setNullOnVectorIdx (vectorIdx : ℤ) : PutM Unit := do
  let c ← getRoot
  let validityPos := vectorIdx.tdiv 64
  let limit := (c.buf.cap + 63) / 64
  require (0 ≤ validityPos ∧ validityPos ≤ limit) .illegalArgument
  require (validityPos < limit) .bufferUnderflow
  let idxInEntry := vectorIdx.tmod 64 % 64
  modifyRoot fun c => c.clearValid (validityPos.toNat * 64 + idxInEntry.toNat)

def setNullOnArrayIdx (arraySize parentArraySize rowIdx : ℕ) (arrayIdx : ℤ) : PutM Unit :=
  setNullOnVectorIdx (rowIdx * arraySize * parentArraySize + arrayIdx)

def setNullOnElements (arraySize n vectorIdx : ℕ) (i : ℕ) : List LogicalType → PutM Unit
  | [] => pure ()
  | _ :: ts => do
    onChild i (forRange 0 n fun j => setNullOnArrayIdx n arraySize vectorIdx j)
    setNullOnElements arraySize n vectorIdx (i + 1) ts

mutual

def setNullAt (arraySize parentArraySize : ℕ) : LogicalType → ℕ → PutM Unit
  | .node kind cs, vectorIdx =>
    match kind with
    | .array n => do
      setNullOnArrayIdx arraySize parentArraySize vectorIdx 0
      setNullOnElements arraySize n vectorIdx 0 cs
    | .list | .map => setNullOnVectorIdx vectorIdx
    | _ => do
      setNullOnVectorIdx vectorIdx
      setNullChildren arraySize vectorIdx 0 cs

def setNullChildren (arraySize vectorIdx : ℕ) (i : ℕ) : List LogicalType → PutM Unit
  | [] => pure ()
  | t :: ts => do
    onChild i (setNullAt 1 arraySize t vectorIdx)
    setNullChildren arraySize vectorIdx (i + 1) ts

end

/-- `Column.setNull`. -/
def setNull (col : Column) (vectorIdx : ℕ) : PutM Unit :=
  setNullAt col.arraySize col.parentArraySize col.type vectorIdx

/-! ## Scalars -/

def putStringOrBlob (env : Env) (vectorIdx : ℕ) (bytes : List UInt8) : PutM Unit :=
  if env.writeInlinedStrings ∧ bytes.length < stringMaxInlineBytes then do
    setPosition CAPIType.varchar.widthBytes (vectorIdx * CAPIType.varchar.widthBytes : ℕ)
    putHere CAPIType.varchar.widthBytes [.string bytes] (4 + bytes.length)
  else
    modifyRoot fun c => c.store vectorIdx (.string bytes)

def putEnum (internalType : CAPIType) (dict : List String) (vectorIdx : ℕ) (value : String) :
    PutM Unit :=
  match enumDictGet dict value with
  | none => throw (.sql (.enumValue value))
  | some num => do
    let w := internalType.widthBytes
    setPosition w (vectorIdx * w : ℕ)
    match internalType with
    | .utinyint | .usmallint | .uinteger => putHere w [.fixed (num % 2 ^ (8 * w))] w
    | t => throw (.sql (.enumInternalType t))

def putDecimal (internalType : CAPIType) (decimalPrecision decimalScale vectorIdx : ℕ)
    (unscaled scale : ℤ) : PutM Unit := do
  let cell ← orThrow (decimalCell internalType decimalPrecision decimalScale unscaled scale)
  putCell internalType.widthBytes vectorIdx cell

/-! ## Lists and arrays -/

def prepareListColumn (eng : Engine) (col innerCol : Column) (vectorIdx : ℕ)
    (listElementsCount : ℤ) : PutM ℤ :=
  match col.colType with
  | .array => pure ((vectorIdx * innerCol.arraySize : ℕ) : ℤ)
  | .list | .map => do
    let offset : ℤ := (← getRoot).size
    putEntry vectorIdx offset listElementsCount
    let listSize := offset + listElementsCount
    listVectorReserve eng listSize
    onChild 0 (innerCol.resetList eng listSize.toNat)
    listVectorSetSize listSize
    return offset
  | t => throw (.sql (.invalidArrayColumnType t))

def setArrayNullMask (col : Column) (vectorIdx : ℕ) (nullMask : Option (List Bool))
    (elementsCount parentArrayIdx : ℕ) : PutM Unit :=
  match nullMask with
  | none => pure ()
  | some mask => do
    require (mask.length = elementsCount) (.sql (.invalidNullMaskSize elementsCount mask.length))
    forNulls 0 (fun i => setNullOnArrayIdx col.arraySize col.parentArraySize vectorIdx
      (i + col.arraySize * parentArrayIdx : ℕ)) mask

def setListNullMask (col : Column) (nullMask : Option (List Bool)) (elementsCount : ℕ) :
    PutM Unit :=
  match nullMask with
  | none => pure ()
  | some mask => do
    require (mask.length = elementsCount) (.sql (.invalidNullMaskSize elementsCount mask.length))
    let c ← getRoot
    require (elementsCount ≤ c.listSize) (.sql (.invalidListState c.listSize elementsCount))
    forNulls 0 (fun i => setNull col (c.listSize - elementsCount + i)) mask

def setNullMask (arrayCol col : Column) (vectorIdx : ℕ) (nullMask : Option (List Bool))
    (elementsCount : ℕ) : PutM Unit :=
  match arrayCol.colType with
  | .array => onChild 0 (setArrayNullMask col vectorIdx nullMask elementsCount 0)
  | .list => onChild 0 (setListNullMask col nullMask elementsCount)
  | _ => throw (.sql (.invalidArrayColumnType col.colType))

/-- `putBoolArray` … `putDoubleArray`. -/
def putArray (kind : PrimKind) (eng : Engine) (arrayCol : Column) (vectorIdx : ℕ)
    (values : List kind.Val) (nullMask : Option (List Bool)) : PutM Unit := do
  let cells := values.map kind.cell
  let col ← arrayInnerColumn arrayCol kind.types
  checkArrayLength arrayCol col cells.length
  let pos ← prepareListColumn eng arrayCol col vectorIdx cells.length
  setNullMask arrayCol col vectorIdx nullMask cells.length
  onChild 0 (kind.bulk pos cells)

def putArrays (write : ℤ → List Cell → PutM Unit) (innerCol col : Column) (nullIdx vectorIdx : ℕ)
    (nullMask : Option (List (Option (List Bool)))) (i : ℕ) :
    List (Option (List Cell)) → PutM Unit
  | [] => pure ()
  | none :: rest => do
    onChild 0 (setNullOnArrayIdx innerCol.arraySize innerCol.parentArraySize nullIdx i)
    putArrays write innerCol col nullIdx vectorIdx nullMask (i + 1) rest
  | some cells :: rest => do
    checkArrayLength innerCol col cells.length
    let mask ← innerNullMask nullMask i
    onChild 0 (onChild 0 (setArrayNullMask col vectorIdx mask cells.length i))
    onChild 0 (onChild 0
      (write ((vectorIdx * innerCol.arraySize + i) * col.arraySize : ℕ) cells))
    putArrays write innerCol col nullIdx vectorIdx nullMask (i + 1) rest

/-- `putBoolArray2D` … `putDoubleArray2D`. -/
def putArray2D (kind : PrimKind) (env : Env) (outerCol : Column) (vectorIdx : ℕ)
    (values : List (Option (List kind.Val))) (nullMask : Option (List (Option (List Bool)))) :
    PutM Unit := do
  let innerCol ← arrayInnerColumn outerCol [.array]
  checkArrayLength outerCol innerCol (kind.cells values).length
  let col ← arrayInnerColumn innerCol kind.types
  putArrays kind.bulk innerCol col (kind.nullIdx env vectorIdx) vectorIdx nullMask 0
    (kind.cells values)

/-! ## Elements of composites -/

def setOthersNull (col : Column) (fieldWithTag vectorIdx : ℕ) (i : ℕ) :
    List LogicalType → PutM Unit
  | [] => pure ()
  | t :: ts => do
    (if i = fieldWithTag then pure () else onChild i (setNull (Column.child col i t) vectorIdx))
    setOthersNull col fieldWithTag vectorIdx (i + 1) ts

def putUnionTag (col : Column) (vectorIdx : ℕ) (tag : String) : PutM ℕ :=
  match col.kind with
  | .union names =>
    match unionFieldWithTag names tag with
    | none => throw (.sql (.unionFieldNotFound tag))
    | some fieldWithTag => do
      onChild 0 (putCell CAPIType.utinyint.widthBytes vectorIdx
        (.fixed ((fieldWithTag - 1) % 2 ^ 8)))
      setOthersNull col fieldWithTag vectorIdx 1 col.type.children.tail
      return fieldWithTag
  | _ => throw (.sql (.unionFieldNotFound tag))

def putCompositeElementArray (env : Env) (col : Column) (vectorIdx : ℕ) (value : Obj) :
    PutM Unit :=
  match col.get? 0 with
  | none => throw .indexOutOfBounds
  | some innerCol =>
    if innerCol.colType = .array then
      match value with
      | .primArray2D k values => putArray2D k env col vectorIdx values none
      | _ => throw (.sql .unsupportedArray2D)
    else
      match PrimKind.ofBoxedType innerCol.colType with
      | none => throw (.sql (.unsupportedArray innerCol.colType))
      | some kind =>
        match value with
        | .primArray k values =>
          if k = kind then putArray k env.eng col vectorIdx values none else throw .classCast
        | _ => throw .classCast

def putScalarElement (env : Env) (t : CAPIType) (vectorIdx : ℕ) (value : Obj) : PutM Unit :=
  match t with
  | .varchar =>
    match value with
    | .string st => putStringOrBlob env vectorIdx (utf8 st)
    | _ => throw .classCast
  | .blob =>
    match value with
    | .primArray .byte bytes => putStringOrBlob env vectorIdx (bytesOf bytes)
    | _ => throw .classCast
  | t => do
    let cell ← orThrow (scalarCell t value)
    putCell t.widthBytes vectorIdx cell

def putPlainElement (env : Env) (col : Column) (vectorIdx : ℕ) (value : Obj) : PutM Unit :=
  match col.kind with
  | .decimal internalType decimalPrecision decimalScale =>
    match value with
    | .bigDecimal unscaled scale =>
      putDecimal internalType decimalPrecision decimalScale vectorIdx unscaled scale
    | _ => throw .classCast
  | .enum internalType dict =>
    match value with
    | .string st => putEnum internalType dict vectorIdx st
    | _ => throw .classCast
  | .scalar t _ => putScalarElement env t vectorIdx value
  | .unlisted t => putScalarElement env t.colType vectorIdx value
  | .array _ => putCompositeElementArray env col vectorIdx value
  | .list | .map => throw .classCast
  | .struct _ =>
    match value with
    | .map false _ => throw (.sql .structNotLinkedMap)
    | _ => throw .classCast
  | .union _ => throw (.sql .unionNotSimpleEntry)

def beginElements (eng : Engine) (arrayCol col : Column) (vectorIdx : ℕ) (count : ℤ) : PutM ℕ := do
  checkArrayLength arrayCol col count
  discard (prepareListColumn eng arrayCol col vectorIdx count)
  if arrayCol.colType = .list then
    let c ← onChild 0 getRoot
    return (c.listSize - count).toNat
  else
    return vectorIdx * col.arraySize

def beginEntries (eng : Engine) (mapCol col : Column) (vectorIdx size : ℕ) : PutM ℕ := do
  discard (prepareListColumn eng mapCol col vectorIdx size)
  let c ← onChild 0 getRoot
  return c.listSize - size

mutual

def putCompositeElement (env : Env) (col : Column) (vectorIdx : ℕ) : Obj → PutM Unit
  | .null => setNull col vectorIdx
  | .collection elems =>
    match col.kind, col.get? 0 with
    | .list, some innerCol => do
      let offset ← beginElements env.eng col innerCol vectorIdx elems.length
      onChild 0 (putElements env innerCol offset elems.length 0 elems)
    | .struct _, _ => do
      require (col.childCount = elems.length)
        (.sql (.structFieldsCount col.childCount elems.length))
      putFields env col vectorIdx 0 elems
    | _, _ => putPlainElement env col vectorIdx (.collection elems)
  | .map linked entries =>
    match col.kind, col.get? 0 with
    | .map, some innerCol => do
      let offset ← beginEntries env.eng col innerCol vectorIdx entries.length
      onChild 0 (putEntries env innerCol offset entries)
    | .struct _, _ => do
      require linked (.sql .structNotLinkedMap)
      require (col.childCount = entries.length)
        (.sql (.structFieldsCount col.childCount entries.length))
      putValues env col vectorIdx 0 entries
    | _, _ => putPlainElement env col vectorIdx (.map linked entries)
  | .simpleEntry tag value =>
    match col.kind with
    | .union _ => do
      let fieldWithTag ← putUnionTag col vectorIdx tag
      col.onField fieldWithTag fun c => putCompositeElement env c vectorIdx value
    | _ => putPlainElement env col vectorIdx (.simpleEntry tag value)
  | value => putPlainElement env col vectorIdx value

def putElements (env : Env) (col : Column) (offset : ℕ) (count : ℤ) (i : ℕ) :
    List Obj → PutM Unit
  | [] => require (count ≤ i) (.sql (.iteratorCount count i))
  | value :: values =>
    if i < count then do
      putCompositeElement env col (offset + i) value
      putElements env col offset count (i + 1) values
    else pure ()

def putFields (env : Env) (structCol : Column) (vectorIdx : ℕ) (i : ℕ) : List Obj → PutM Unit
  | [] => pure ()
  | value :: values => do
    structCol.onField i fun c => putCompositeElement env c vectorIdx value
    putFields env structCol vectorIdx (i + 1) values

def putValues (env : Env) (structCol : Column) (vectorIdx : ℕ) (i : ℕ) :
    List (Obj × Obj) → PutM Unit
  | [] => pure ()
  | (_, value) :: entries => do
    structCol.onField i fun c => putCompositeElement env c vectorIdx value
    putValues env structCol vectorIdx (i + 1) entries

def putEntries (env : Env) (structCol : Column) (vectorIdx : ℕ) : List (Obj × Obj) → PutM Unit
  | [] => pure ()
  | (key, value) :: entries => do
    require (structCol.childCount = 2) (.sql (.structFieldsCount structCol.childCount 2))
    structCol.onField 0 fun c => putCompositeElement env c vectorIdx key
    structCol.onField 1 fun c => putCompositeElement env c vectorIdx value
    putEntries env structCol (vectorIdx + 1) entries

end

def putObjectArrayOrList (env : Env) (arrayCol col : Column) (vectorIdx : ℕ) (elems : List Obj)
    (count : ℤ) : PutM Unit := do
  let offset ← beginElements env.eng arrayCol col vectorIdx count
  onChild 0 (putElements env col offset count 0 elems)

def putMap (env : Env) (mapCol col : Column) (vectorIdx : ℕ) (entries : List (Obj × Obj)) :
    PutM Unit := do
  let offset ← beginEntries env.eng mapCol col vectorIdx entries.length
  onChild 0 (putEntries env col offset entries)

/-! ## Calls -/

/-- Store at the current column. -/
def put (env : Env) (col : Column) (vectorIdx : ℕ) : Stored → PutM Unit
  | .null => setNull col vectorIdx
  | .fixed cell => do putCell col.colType.widthBytes vectorIdx (← orThrow cell)
  | .decimal internalType cell =>
    match col.kind with
    | .decimal t _ _ => do
      require (t = internalType) (.sql (.decimalInternalTypeMismatch t internalType))
      putCell t.widthBytes vectorIdx cell
    | _ => throw (.sql (.decimalInternalTypeMismatch .invalid internalType))
  | .bigDecimal unscaled scale =>
    match col.kind with
    | .decimal t p s => putDecimal t p s vectorIdx unscaled scale
    | _ => throw (.sql (.invalidDecimalInternalType .invalid))
  | .text s =>
    match col.kind with
    | .enum internalType dict => putEnum internalType dict vectorIdx s
    | k =>
      if k.colType = .varchar then putStringOrBlob env vectorIdx (utf8 s)
      else throw (.sql (.invalidType k.colType))
  | .bytes bs => putStringOrBlob env vectorIdx bs
  | .array k values nullMask => putArray k env.eng col vectorIdx values nullMask
  | .array2D k values nullMask => putArray2D k env col vectorIdx values nullMask
  | .elements elems count =>
    match col.get? 0 with
    | some innerCol => putObjectArrayOrList env col innerCol vectorIdx elems count
    | none => throw .indexOutOfBounds
  | .entries es =>
    match col.get? 0 with
    | some innerCol => putMap env col innerCol vectorIdx es
    | none => throw .indexOutOfBounds

/-- An `append*` method between finding the current column and moving to the next one. -/
def write (env : Env) (col : Column) (a : Append) : PutM Unit := do
  checkColumnType col a.types
  checkInnerTypes col a.innerTypes
  put env col env.rowIdx (a.stored col.colType)

variable (cfg : Config)

def beginUnion (tag : String) : AppM Unit := do
  checkOpen
  match (← get).currentColumn with
  | none => throw (.sql (.rowNotBegun "beginUnion"))
  | some col =>
    require (col.colType = .union) (.sql (.invalidColumnType [.union] col.colType))
    let fieldWithTag ← onColumn col (putUnionTag col (← get).rowIdx tag)
    modify fun s => { s with currentColumn := col.get? fieldWithTag }

def append (a : Append) : AppM Unit := do
  let col ← currentColumn cfg
  onColumn col (write ((← get).env cfg) col a)
  moveToNextColumn cfg

def appendNull : AppM Unit := do
  let col ← currentColumn cfg
  onColumn col (setNull col (← get).rowIdx)
  moveToNextColumn cfg

/-- One call. -/
def step (c : Call) (n : Natives) : AppM Unit :=
  match c with
  | .beginUnion tag => beginUnion tag
  | .append a => append cfg a
  | .appendNull => appendNull cfg
  | c => DuckDBJava.step cfg c n

/-- The calls of a run, in order. -/
def history (s : Appender) : List (Call × Natives) → List Entry
  | [] => []
  | (c, n) :: calls => ⟨s, c, n, step cfg c n s⟩ :: history (final (step cfg c n s)) calls

/-! ## Where a write lands -/

/-- Of the vectors of a column only the `n` slots of its own from slot `k` on have changed. -/
structure OnlySlots (k n : ℕ) (v v' : Vec) : Prop where
  child : ∀ i, v'.child i = v.child i
  slot : ∀ j, j < k ∨ k + n ≤ j →
    v'.root.data j = v.root.data j ∧ v'.root.valid j = v.root.valid j

theorem OnlySlots.refl (k n : ℕ) (v : Vec) : OnlySlots k n v v :=
  ⟨fun _ => rfl, fun _ _ => ⟨rfl, rfl⟩⟩

theorem onlySlots_write {k : ℕ} {v : Vec} {c : ColState} (cells : List Cell)
    (hdata : c.data = v.root.data) (hvalid : c.valid = v.root.valid) :
    OnlySlots k cells.length v (v.setRoot (c.write k cells)) := by
  refine ⟨fun _ => rfl, fun j hj => ⟨?_, ?_⟩⟩
  · rw [← hdata]
    show (c.write k cells).data j = c.data j
    unfold ColState.write
    split
    · exact if_neg (by omega)
    · rfl
  · rw [← hvalid]
    show (c.write k cells).valid j = c.valid j
    rw [ColState.write_valid]

/-- The puts behind `position(k * w)`. -/
theorem putHere_lands {w : ℕ} (hw : 0 < w) (k : ℕ) (cells : List Cell) (n : ℕ) :
    Keeps (fun _ => True) (OnlySlots k cells.length)
      (setPosition w (k * w : ℕ) >>= fun _ => putHere w cells n) := by
  intro v
  rw [setPosition, bind_assoc, getRoot_bind, bind_assoc, require_bind]
  split
  · show Ends _ _ (putHere w cells n (v.setRoot (v.root.setPos (k * w))))
    rw [putHere, getRoot_bind, require_bind]
    split
    · have hslot : k * w / w = k := Nat.mul_div_cancel k hw
      have h := onlySlots_write (k := k) (v := v) (c := v.root.setPos (k * w)) cells rfl rfl
      show OnlySlots k _ v
        (v.setRoot (((v.root.setPos (k * w)).write (k * w / w) cells).setPos _))
      rw [hslot]
      exact ⟨h.child, h.slot⟩
    · exact fun _ => ⟨fun _ => rfl, fun _ _ => ⟨rfl, rfl⟩⟩
  · exact fun _ => .refl k _ v

/-- **A cell lands in the slot that is addressed**, or the call throws with nothing written. -/
theorem putCell_lands {w : ℕ} (hw : 0 < w) (k : ℕ) (cell : Cell) :
    Keeps (fun _ => True) (OnlySlots k 1) (putCell w k cell) := putHere_lands hw k [cell] w

/-- **A text or blob lands in the slot that is addressed**, inlined or not. -/
theorem putStringOrBlob_lands (env : Env) (k : ℕ) (bytes : List UInt8) :
    Keeps (fun _ => True) (OnlySlots k 1) (putStringOrBlob env k bytes) := by
  unfold putStringOrBlob
  split
  · exact putHere_lands (by decide) k [.string bytes] _
  · exact fun v => ⟨fun _ => rfl, fun j hj => ⟨if_neg (by omega), rfl⟩⟩

/-- **A bulk put lands in the slots from the one that is addressed on**, or the call throws with
    nothing written.  A view begins at the position of the buffer. -/
theorem bulk_lands (kind : PrimKind) (q : ℕ) (cells : List Cell) {v : Vec}
    (hpos : kind.width ≠ 1 → v.root.buf.pos = 0) :
    Ends (fun _ => True) (OnlySlots q cells.length v) (kind.bulk q cells v) := by
  have hview : ∀ w, v.root.buf.pos = 0 →
      Ends (fun _ => True) (OnlySlots q cells.length v) (putView w q cells v) := by
    intro w hpos
    rw [putView, getRoot_bind]
    simp only [require_bind, hpos]
    split
    · split
      · rw [modifyRoot_apply, hpos, Nat.zero_div, Nat.zero_add, Int.toNat_natCast]
        exact onlySlots_write cells rfl rfl
      · exact fun _ => .refl q _ v
    · exact fun _ => .refl q _ v
  cases kind with
  | boolean | byte =>
    have h := putHere_lands Nat.one_pos q cells cells.length v
    rw [Nat.mul_one] at h
    exact h
  | short | int | long | float | double => exact hview _ (hpos (by decide))

/-- **A list entry lands in the slot that is addressed**, or the call throws with nothing
    written. -/
theorem putEntry_lands (k : ℕ) (offset length : ℤ) {v : Vec} (hpos : v.root.buf.pos = 0) :
    Ends (fun _ => True) (OnlySlots k 1 v) (putEntry k offset length v) := by
  have hslot : (0 + ((k * CAPIType.list.widthBytes / 8 : ℕ) : ℤ).toNat) / 2 = k := by
    rw [show CAPIType.list.widthBytes = 16 from rfl]
    omega
  rw [putEntry, getRoot_bind]
  simp only [require_bind, hpos]
  split
  · split
    · rw [modifyRoot_apply, hpos, Nat.zero_div, hslot]
      exact onlySlots_write [.entry offset length] rfl rfl
    · exact fun _ => .refl k 1 v
  · exact fun _ => .refl k 1 v

/-- **A NULL mark lands in the slot that is addressed**, or the call throws with nothing marked. -/
theorem setNullOnVectorIdx_lands (k : ℕ) :
    Keeps (fun _ => True) (OnlySlots k 1) (setNullOnVectorIdx k) := by
  intro v
  rw [setNullOnVectorIdx, getRoot_bind, require_bind]
  split
  · rw [require_bind]
    split
    · have hbit : ((k : ℤ).tdiv 64).toNat * 64 + ((k : ℤ).tmod 64 % 64).toNat = k := by
        rw [Int.tdiv_eq_ediv_of_nonneg (Int.natCast_nonneg k),
          Int.tmod_eq_emod_of_nonneg (Int.natCast_nonneg k)]
        omega
      rw [hbit]
      refine ⟨fun _ => rfl, fun j hj => ⟨?_, ?_⟩⟩
      · show (v.root.clearValid k).data j = v.root.data j
        rw [ColState.clearValid_data]
      · show (v.root.clearValid k).valid j = v.root.valid j
        unfold ColState.clearValid
        split
        · exact if_neg (by omega)
        · rfl
    · exact fun _ => .refl k 1 v
  · exact fun _ => .refl k 1 v

end DuckDBJava.Unbounded
