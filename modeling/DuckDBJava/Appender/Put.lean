/-
  The `put` functions of `DuckDBAppender`.

  A function runs on the vector of the column it is given and reaches the vectors of the
  children through `onChild`.  The functions for elements recurse along the Java value.
-/
import DuckDBJava.Appender.Columns
import DuckDBJava.Appender.Values

namespace DuckDBJava

open Exec PathTree

/-- What the `put` functions read besides their arguments. -/
structure Env where
  eng : Engine
  /-- `DuckDBAppender.rowIdx` -/
  rowIdx : ℕ
  writeInlinedStrings : Bool

/-- Throw the exception of a conversion. -/
def orThrow {α : Type} : Except Exn α → PutM α
  | .ok a => pure a
  | .error e => throw e

/-- Run `f` on the `i`-th child (`children.get(i)`). -/
def Column.onField (col : Column) (i : ℕ) (f : Column → PutM Unit) : PutM Unit :=
  match col.get? i with
  | some c => onChild i (f c)
  | none => throw .indexOutOfBounds

/-! ## Scalars -/

/-- `STRING_MAX_INLINE_BYTES`. -/
def stringMaxInlineBytes : ℕ := 12

/-- A store through the vector itself, wherever its memory is. -/
def ColState.store (c : ColState) (j : ℕ) (cell : Cell) : ColState :=
  { c with data := fun i => if i = j then some cell else c.data i }

/-- `putStringOrBlob`.  The bytes of the slot after a short string are not part of its value. -/
def putStringOrBlob (env : Env) (vectorIdx : ℕ) (bytes : List UInt8) : PutM Unit :=
  if env.writeInlinedStrings ∧ bytes.length < stringMaxInlineBytes then do
    setPosition CAPIType.varchar.widthBytes (toInt (vectorIdx * CAPIType.varchar.widthBytes : ℕ))
    putHere CAPIType.varchar.widthBytes [.string bytes] (4 + bytes.length)
  else
    modifyRoot fun c => c.store vectorIdx (.string bytes)

/-- `enumDict.get(value)`: of equal names the dictionary keeps the last. -/
def enumDictGet (dict : List String) (value : String) : Option ℕ :=
  (List.range dict.length).reverse.find? fun i => dict[i]? = some value

/-- `putEnum`. -/
def putEnum (internalType : CAPIType) (dict : List String) (vectorIdx : ℕ) (value : String) :
    PutM Unit :=
  match enumDictGet dict value with
  | none => throw (.sql (.enumValue value))
  | some num => do
    let w := internalType.widthBytes
    setPosition w (toInt (vectorIdx * w : ℕ))
    match internalType with
    | .utinyint | .usmallint | .uinteger => putHere w [.fixed (num % 2 ^ (8 * w))] w
    | t => throw (.sql (.enumInternalType t))

/-- `putDecimal` of a `BigDecimal`. -/
def putDecimal (internalType : CAPIType) (decimalPrecision decimalScale vectorIdx : ℕ)
    (unscaled scale : ℤ) : PutM Unit := do
  let cell ← orThrow (decimalCell internalType decimalPrecision decimalScale unscaled scale)
  putCell internalType.widthBytes vectorIdx cell

/-! ## Lists -/

/-- `checkArrayLength(col, length)` for the element column `col` of `arrayCol`. -/
def checkArrayLength (arrayCol col : Column) (length : ℤ) : PutM Unit :=
  match arrayCol.colType with
  | .list => pure ()
  | .array => require (col.arraySize = length) (.sql (.invalidArraySize col.arraySize length))
  | _ => throw (.sql (.invalidArrayColumnType col.colType))

/-- `arrayInnerColumn`. -/
def arrayInnerColumn (arrayCol : Column) (ctypes : List CAPIType) : PutM Column := do
  require (arrayCol.colType = .array ∨ arrayCol.colType = .list)
    (.sql (.invalidArrayColumnType arrayCol.colType))
  match arrayCol.get? 0 with
  | none => throw .indexOutOfBounds
  | some col => do
    require (col.colType ∈ ctypes) (.sql (.invalidInnerColumnType ctypes col.colType))
    return col

theorem arrayInnerColumn_eq_ok {arrayCol c : Column} {ctypes : List CAPIType} {v w : Vec}
    (h : arrayInnerColumn arrayCol ctypes v = .ok c w) :
    w = v ∧ arrayCol.get? 0 = some c ∧ c.colType ∈ ctypes ∧
      (arrayCol.colType = .array ∨ arrayCol.colType = .list) := by
  obtain ⟨_, _, hr, h⟩ := bind_eq_ok.1 h
  obtain ⟨hcol, rfl⟩ := require_eq_ok.1 hr
  cases hc : arrayCol.get? 0 with
  | none => rw [hc] at h; cases h
  | some c' =>
    rw [hc] at h
    obtain ⟨_, _, hr, h⟩ := bind_eq_ok.1 h
    obtain ⟨hmem, rfl⟩ := require_eq_ok.1 hr
    cases h
    exact ⟨rfl, rfl, hmem, hcol⟩

/-- The engine moves the vectors in `moved`: their contents are kept. -/
def moveVectors (moved : List ℕ → Bool) (v : Vec) : Vec := fun p =>
  if moved p then { v p with alloc := (v p).alloc + 1 } else v p

theorem moveVectors_apply (moved : List ℕ → Bool) (v : Vec) (p : List ℕ) :
    ∃ n, moveVectors moved v p = { v p with alloc := n } := by
  unfold moveVectors
  split
  · exact ⟨_, rfl⟩
  · exact ⟨_, rfl⟩

/-- `duckdb_list_vector_reserve`. -/
def listVectorReserve (eng : Engine) (n : ℤ) : PutM Unit := do
  require (0 ≤ n) (.sql .invalidIndex)
  onChild 0 (modify fun v => moveVectors (eng.reserveMoves v n) v)

/-- `duckdb_list_vector_set_size`. -/
def listVectorSetSize (n : ℤ) : PutM Unit := modifyRoot fun c => c.setSize n.toNat

/-- `prepareListColumn`, for the element column `innerCol` of `col`. -/
def prepareListColumn (eng : Engine) (col innerCol : Column) (vectorIdx : ℕ)
    (listElementsCount : ℤ) : PutM ℤ :=
  match col.colType with
  | .array => pure (toInt (vectorIdx * innerCol.arraySize : ℕ))
  | .list | .map => do
    let offset : ℤ := (← getRoot).size
    putEntry vectorIdx offset listElementsCount
    let listSize := offset + listElementsCount
    listVectorReserve eng listSize
    onChild 0 (innerCol.resetList eng listSize.toNat)
    listVectorSetSize listSize
    return toInt offset
  | t => throw (.sql (.invalidArrayColumnType t))

/-! ## Null masks -/

/-- The loop of `setArrayNullMask` and `setListNullMask`. -/
def forNulls (i : ℕ) (f : ℕ → PutM Unit) : List Bool → PutM Unit
  | [] => pure ()
  | b :: mask => do
    (if b then f i else pure ())
    forNulls (i + 1) f mask

/-- `setArrayNullMask`, on the vector of `col`. -/
def setArrayNullMask (col : Column) (vectorIdx : ℕ) (nullMask : Option (List Bool))
    (elementsCount parentArrayIdx : ℕ) : PutM Unit :=
  match nullMask with
  | none => pure ()
  | some mask => do
    require (mask.length = elementsCount) (.sql (.invalidNullMaskSize elementsCount mask.length))
    forNulls 0 (fun i => col.setNullOnArrayIdx vectorIdx
      (toInt (i + col.arraySize * parentArrayIdx : ℕ))) mask

/-- `setListNullMask`, on the vector of `col`. -/
def setListNullMask (col : Column) (nullMask : Option (List Bool)) (elementsCount : ℕ) :
    PutM Unit :=
  match nullMask with
  | none => pure ()
  | some mask => do
    require (mask.length = elementsCount) (.sql (.invalidNullMaskSize elementsCount mask.length))
    let c ← getRoot
    require (elementsCount ≤ c.listSize) (.sql (.invalidListState c.listSize elementsCount))
    forNulls 0 (fun i => col.setNull (c.listSize - elementsCount + i)) mask

/-- `setNullMask`, for the element column `col` of `arrayCol`. -/
def setNullMask (arrayCol col : Column) (vectorIdx : ℕ) (nullMask : Option (List Bool))
    (elementsCount : ℕ) : PutM Unit :=
  match arrayCol.colType with
  | .array => onChild 0 (setArrayNullMask col vectorIdx nullMask elementsCount 0)
  | .list => onChild 0 (setListNullMask col nullMask elementsCount)
  | _ => throw (.sql (.invalidArrayColumnType col.colType))

/-! ## Primitive arrays -/

/-- `putBoolArray` … `putDoubleArray`: `write` is the bulk put at a position. -/
def putArrayWith (ctypes : List CAPIType) (write : ℤ → List Cell → PutM Unit) (eng : Engine)
    (arrayCol : Column) (vectorIdx : ℕ) (cells : List Cell) (nullMask : Option (List Bool)) :
    PutM Unit := do
  let col ← arrayInnerColumn arrayCol ctypes
  checkArrayLength arrayCol col cells.length
  let pos ← prepareListColumn eng arrayCol col vectorIdx cells.length
  setNullMask arrayCol col vectorIdx nullMask cells.length
  onChild 0 (write pos cells)

def putBoolArray := putArrayWith [.boolean] putBytes
def putByteArray := putArrayWith [.tinyint, .utinyint] putBytes
def putShortArray := putArrayWith [.smallint, .usmallint] (putView 2)
def putIntArray := putArrayWith [.integer, .uinteger] (putView 4)
def putLongArray := putArrayWith [.bigint, .ubigint] (putView 8)
def putFloatArray := putArrayWith [.float] (putView 4)
def putDoubleArray := putArrayWith [.double] (putView 8)

/-- `nullMask[i]` where `nullMask` is not `null`. -/
def innerNullMask (nullMask : Option (List (Option (List Bool)))) (i : ℕ) :
    PutM (Option (List Bool)) :=
  match nullMask with
  | none => pure none
  | some masks =>
    match masks[i]? with
    | none => throw .indexOutOfBounds
    | some mask => pure mask

/-- The loop of `putBoolArray2D` … `putDoubleArray2D` over the inner arrays from the `i`-th on;
    a `null` one is marked in row `nullIdx`. -/
def putArrays (write : ℤ → List Cell → PutM Unit) (innerCol col : Column) (nullIdx vectorIdx : ℕ)
    (nullMask : Option (List (Option (List Bool)))) (i : ℕ) :
    List (Option (List Cell)) → PutM Unit
  | [] => pure ()
  | none :: rest => do
    onChild 0 (innerCol.setNullOnArrayIdx nullIdx i)
    putArrays write innerCol col nullIdx vectorIdx nullMask (i + 1) rest
  | some cells :: rest => do
    checkArrayLength innerCol col cells.length
    let mask ← innerNullMask nullMask i
    onChild 0 (onChild 0 (setArrayNullMask col vectorIdx mask cells.length i))
    onChild 0 (onChild 0
      (write (toInt ((vectorIdx * innerCol.arraySize + i) * col.arraySize : ℕ)) cells))
    putArrays write innerCol col nullIdx vectorIdx nullMask (i + 1) rest

/-- `putBoolArray2D` … `putDoubleArray2D`. -/
def putArray2DWith (ctypes : List CAPIType) (write : ℤ → List Cell → PutM Unit)
    (outerCol : Column) (nullIdx vectorIdx : ℕ) (values : List (Option (List Cell)))
    (nullMask : Option (List (Option (List Bool)))) : PutM Unit := do
  let innerCol ← arrayInnerColumn outerCol [.array]
  checkArrayLength outerCol innerCol values.length
  let col ← arrayInnerColumn innerCol ctypes
  putArrays write innerCol col nullIdx vectorIdx nullMask 0 values

def putBoolArray2D (_ : Env) (outerCol : Column) (vectorIdx : ℕ) :=
  putArray2DWith [.boolean] putBytes outerCol vectorIdx vectorIdx

def putByteArray2D (_ : Env) (outerCol : Column) (vectorIdx : ℕ) :=
  putArray2DWith [.tinyint, .utinyint] putBytes outerCol vectorIdx vectorIdx

def putShortArray2D (_ : Env) (outerCol : Column) (vectorIdx : ℕ) :=
  putArray2DWith [.smallint, .usmallint] (putView 2) outerCol vectorIdx vectorIdx

/-- A `null` inner array is marked at `rowIdx`, where the siblings mark it at `vectorIdx`. -/
def putIntArray2D (env : Env) (outerCol : Column) (vectorIdx : ℕ) :=
  putArray2DWith [.integer, .uinteger] (putView 4) outerCol env.rowIdx vectorIdx

def putLongArray2D (_ : Env) (outerCol : Column) (vectorIdx : ℕ) :=
  putArray2DWith [.bigint, .ubigint] (putView 8) outerCol vectorIdx vectorIdx

def putFloatArray2D (_ : Env) (outerCol : Column) (vectorIdx : ℕ) :=
  putArray2DWith [.float] (putView 4) outerCol vectorIdx vectorIdx

def putDoubleArray2D (_ : Env) (outerCol : Column) (vectorIdx : ℕ) :=
  putArray2DWith [.double] (putView 8) outerCol vectorIdx vectorIdx

/-- The `put` function of the arrays of a kind. -/
def PrimKind.putArray (k : PrimKind) (eng : Engine) (arrayCol : Column) (vectorIdx : ℕ)
    (values : List k.Val) (nullMask : Option (List Bool)) : PutM Unit :=
  let cells := values.map k.cell
  match k with
  | .boolean => putBoolArray eng arrayCol vectorIdx cells nullMask
  | .byte => putByteArray eng arrayCol vectorIdx cells nullMask
  | .short => putShortArray eng arrayCol vectorIdx cells nullMask
  | .int => putIntArray eng arrayCol vectorIdx cells nullMask
  | .long => putLongArray eng arrayCol vectorIdx cells nullMask
  | .float => putFloatArray eng arrayCol vectorIdx cells nullMask
  | .double => putDoubleArray eng arrayCol vectorIdx cells nullMask

/-- The `put` function of the arrays of arrays of a kind. -/
def PrimKind.putArray2D (k : PrimKind) (env : Env) (outerCol : Column) (vectorIdx : ℕ)
    (values : List (Option (List k.Val))) (nullMask : Option (List (Option (List Bool)))) :
    PutM Unit :=
  let cells := values.map (Option.map (List.map k.cell))
  match k with
  | .boolean => putBoolArray2D env outerCol vectorIdx cells nullMask
  | .byte => putByteArray2D env outerCol vectorIdx cells nullMask
  | .short => putShortArray2D env outerCol vectorIdx cells nullMask
  | .int => putIntArray2D env outerCol vectorIdx cells nullMask
  | .long => putLongArray2D env outerCol vectorIdx cells nullMask
  | .float => putFloatArray2D env outerCol vectorIdx cells nullMask
  | .double => putDoubleArray2D env outerCol vectorIdx cells nullMask

/-! ## Elements of composites -/

/-- The child with the name `tag` after the tag child; of equal names the last. -/
def unionFieldWithTag (names : List String) (tag : String) : Option ℕ :=
  (List.range names.length).reverse.find? fun i => 0 < i ∧ names[i]? = some tag

/-- The loop of `putUnionTag` over the members from the `i`-th child on. -/
def setOthersNull (col : Column) (fieldWithTag vectorIdx : ℕ) (i : ℕ) :
    List LogicalType → PutM Unit
  | [] => pure ()
  | t :: ts => do
    (if i = fieldWithTag then pure () else onChild i ((Column.child col i t).setNull vectorIdx))
    setOthersNull col fieldWithTag vectorIdx (i + 1) ts

/-- `putUnionTag`: the number of the selected child. -/
def putUnionTag (col : Column) (vectorIdx : ℕ) (tag : String) : PutM ℕ :=
  match col.kind with
  | .union names =>
    match unionFieldWithTag names tag with
    | none => throw (.sql (.unionFieldNotFound tag))
    | some fieldWithTag => do
      onChild 0 (putCell CAPIType.utinyint.widthBytes vectorIdx
        (.fixed ((fieldWithTag - 1) % 2 ^ 8)))
      setOthersNull col fieldWithTag vectorIdx 1 col.type.children.tail
      return fieldWithTag
  | _ => throw (.sql (.unionFieldNotFound tag))

/-- `putCompositeElementArray`. -/
def putCompositeElementArray (env : Env) (col : Column) (vectorIdx : ℕ) (value : Obj) :
    PutM Unit :=
  match col.get? 0 with
  | none => throw .indexOutOfBounds
  | some innerCol =>
    if innerCol.colType = .array then
      match value with
      | .primArray2D k values => k.putArray2D env col vectorIdx values none
      | _ => throw (.sql .unsupportedArray2D)
    else
      match PrimKind.ofBoxedType innerCol.colType with
      | none => throw (.sql (.unsupportedArray innerCol.colType))
      | some kind =>
        match value with
        | .primArray k values =>
          if k = kind then k.putArray env.eng col vectorIdx values none else throw .classCast
        | _ => throw .classCast

/-- `putCompositeElement` for the column types without parameters and children. -/
def putScalarElement (env : Env) (t : CAPIType) (vectorIdx : ℕ) (value : Obj) : PutM Unit :=
  match t with
  | .varchar =>
    match value with
    | .string st => putStringOrBlob env vectorIdx (utf8 st)
    | _ => throw .classCast
  | .blob =>
    match value with
    | .primArray .byte bytes => putStringOrBlob env vectorIdx (bytesOf bytes)
    | _ => throw .classCast
  | t => do
    let cell ← orThrow (scalarCell t value)
    putCell t.widthBytes vectorIdx cell

/-- `putCompositeElement` for a value none of whose elements it visits. -/
def putPlainElement (env : Env) (col : Column) (vectorIdx : ℕ) (value : Obj) : PutM Unit :=
  match col.kind with
  | .decimal internalType decimalPrecision decimalScale =>
    match value with
    | .bigDecimal unscaled scale =>
      putDecimal internalType decimalPrecision decimalScale vectorIdx unscaled scale
    | _ => throw .classCast
  | .enum internalType dict =>
    match value with
    | .string st => putEnum internalType dict vectorIdx st
    | _ => throw .classCast
  | .scalar t _ => putScalarElement env t vectorIdx value
  | .unlisted t => putScalarElement env t.colType vectorIdx value
  | .array _ => putCompositeElementArray env col vectorIdx value
  | .list | .map => throw .classCast
  | .struct _ =>
    match value with
    | .map false _ => throw (.sql .structNotLinkedMap)
    | _ => throw .classCast
  | .union _ => throw (.sql .unionNotSimpleEntry)

/-- `putObjectArrayOrList` up to its loop: the slot of the first element. -/
def beginElements (eng : Engine) (arrayCol col : Column) (vectorIdx : ℕ) (count : ℤ) : PutM ℕ := do
  checkArrayLength arrayCol col count
  discard (prepareListColumn eng arrayCol col vectorIdx count)
  if arrayCol.colType = .list then
    let c ← onChild 0 getRoot
    return (c.listSize - count).toNat
  else
    return vectorIdx * col.arraySize

/-- `putMap` up to its loop. -/
def beginEntries (eng : Engine) (mapCol col : Column) (vectorIdx size : ℕ) : PutM ℕ := do
  discard (prepareListColumn eng mapCol col vectorIdx size)
  let c ← onChild 0 getRoot
  return c.listSize - size

mutual

/-- `putCompositeElement`, with the composites it recurses into. -/
def putCompositeElement (env : Env) (col : Column) (vectorIdx : ℕ) : Obj → PutM Unit
  | .null => col.setNull vectorIdx
  | .collection elems =>
    match col.kind, col.get? 0 with
    | .list, some innerCol => do
      let offset ← beginElements env.eng col innerCol vectorIdx elems.length
      onChild 0 (putElements env innerCol offset elems.length 0 elems)
    | .struct _, _ => do
      require (col.childCount = elems.length)
        (.sql (.structFieldsCount col.childCount elems.length))
      putFields env col vectorIdx 0 elems
    | _, _ => putPlainElement env col vectorIdx (.collection elems)
  | .map linked entries =>
    match col.kind, col.get? 0 with
    | .map, some innerCol => do
      let offset ← beginEntries env.eng col innerCol vectorIdx entries.length
      onChild 0 (putEntries env innerCol offset entries)
    | .struct _, _ => do
      require linked (.sql .structNotLinkedMap)
      require (col.childCount = entries.length)
        (.sql (.structFieldsCount col.childCount entries.length))
      putValues env col vectorIdx 0 entries
    | _, _ => putPlainElement env col vectorIdx (.map linked entries)
  | .simpleEntry tag value =>
    match col.kind with
    | .union _ => do
      let fieldWithTag ← putUnionTag col vectorIdx tag
      col.onField fieldWithTag fun c => putCompositeElement env c vectorIdx value
    | _ => putPlainElement env col vectorIdx (.simpleEntry tag value)
  | value => putPlainElement env col vectorIdx value

/-- The loop of `putObjectArrayOrList` from the `i`-th element on. -/
def putElements (env : Env) (col : Column) (offset : ℕ) (count : ℤ) (i : ℕ) :
    List Obj → PutM Unit
  | [] => require (count ≤ i) (.sql (.iteratorCount count i))
  | value :: values =>
    if i < count then do
      putCompositeElement env col (offset + i) value
      putElements env col offset count (i + 1) values
    else pure ()

/-- The loop of `putCompositeElementStruct` from the `i`-th field on. -/
def putFields (env : Env) (structCol : Column) (vectorIdx : ℕ) (i : ℕ) : List Obj → PutM Unit
  | [] => pure ()
  | value :: values => do
    structCol.onField i fun c => putCompositeElement env c vectorIdx value
    putFields env structCol vectorIdx (i + 1) values

/-- The same loop over the values of a `LinkedHashMap`. -/
def putValues (env : Env) (structCol : Column) (vectorIdx : ℕ) (i : ℕ) :
    List (Obj × Obj) → PutM Unit
  | [] => pure ()
  | (_, value) :: entries => do
    structCol.onField i fun c => putCompositeElement env c vectorIdx value
    putValues env structCol vectorIdx (i + 1) entries

/-- The loop of `putMap`: an entry is put as a `STRUCT` of key and value. -/
def putEntries (env : Env) (structCol : Column) (vectorIdx : ℕ) : List (Obj × Obj) → PutM Unit
  | [] => pure ()
  | (key, value) :: entries => do
    require (structCol.childCount = 2) (.sql (.structFieldsCount structCol.childCount 2))
    structCol.onField 0 fun c => putCompositeElement env c vectorIdx key
    structCol.onField 1 fun c => putCompositeElement env c vectorIdx value
    putEntries env structCol (vectorIdx + 1) entries

end

/-- `putObjectArrayOrList`: an iterator over `elems`, of which `count` elements are taken. -/
def putObjectArrayOrList (env : Env) (arrayCol col : Column) (vectorIdx : ℕ) (elems : List Obj)
    (count : ℤ) : PutM Unit := do
  let offset ← beginElements env.eng arrayCol col vectorIdx count
  onChild 0 (putElements env col offset count 0 elems)

/-- `putMap`. -/
def putMap (env : Env) (mapCol col : Column) (vectorIdx : ℕ) (entries : List (Obj × Obj)) :
    PutM Unit := do
  let offset ← beginEntries env.eng mapCol col vectorIdx entries.length
  onChild 0 (putEntries env col offset entries)

end DuckDBJava
