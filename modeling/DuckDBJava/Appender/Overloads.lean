/-
  The `append` overloads of `DuckDBAppender`: which columns each accepts and what it stores.
-/
import DuckDBJava.Appender.Put

namespace DuckDBJava

open Exec PathTree

/-- A call of one of the `append*` methods; `none` is a Java `null`.  A Java iterator is the list
    of the elements it yields. -/
inductive Append where
  /-- `append(boolean)` … `append(double)` -/
  | prim (k : PrimKind) (value : k.Val)
  /-- `append(Boolean)` … `append(Double)` -/
  | boxed (k : PrimKind) (value : Option k.Val)
  | char (value : Char)
  | character (value : Option Char)
  | hugeInt (lower upper : BitVec 64)
  | bigInteger (value : Option ℤ)
  | decimalShort (value : BitVec 16)
  | decimalInt (value : BitVec 32)
  | decimalLong (value : BitVec 64)
  | decimalLongs (lower upper : BitVec 64)
  /-- the unscaled value and the scale of a `BigDecimal` -/
  | bigDecimal (value : Option (ℤ × ℤ))
  /-- `append(boolean[], boolean[])` … `append(double[], boolean[])`, `appendByteArray` -/
  | array (k : PrimKind) (values : Option (List k.Val)) (nullMask : Option (List Bool))
  | array2D (k : PrimKind) (values : Option (List (Option (List k.Val))))
      (nullMask : Option (List (Option (List Bool))))
  /-- `append(byte[])` -/
  | bytes (values : Option (List (BitVec 8)))
  | chars (characters : Option String)
  | string (value : Option String)
  | uuidBits (mostSigBits leastSigBits : BitVec 64)
  | uuid (value : Option (BitVec 64 × BitVec 64))
  | epochDays (days : BitVec 32)
  | localDate (epochDay : Option ℤ)
  | dayMicros (micros : BitVec 64)
  | localTime (nanoOfDay : Option ℕ)
  | dayMicrosOffset (micros : BitVec 64) (offset : BitVec 32)
  | offsetTime (value : Option (ℕ × ℤ))
  | epochSeconds (seconds : BitVec 64)
  | epochMillis (millis : BitVec 64)
  | epochMicros (micros : BitVec 64)
  | epochNanos (nanos : BitVec 64)
  | localDateTime (value : Option (ℤ × ℕ))
  | date (value : Option UtilDate)
  | offsetDateTime (value : Option (ℤ × ℕ))
  | collection (elems : Option (List Obj))
  | iterable (elems : Option (List Obj)) (count : ℤ)
  | iterator (elems : Option (List Obj)) (count : ℤ)
  | map (entries : Option (List (Obj × Obj)))

/-- What an overload stores in the current column. -/
inductive Stored where
  /-- the overload calls `appendNull` -/
  | null
  | fixed (cell : Except Exn Cell)
  | decimal (internalType : CAPIType) (cell : Cell)
  | bigDecimal (unscaled scale : ℤ)
  | text (s : String)
  | bytes (bs : List UInt8)
  | array (k : PrimKind) (values : List k.Val) (nullMask : Option (List Bool))
  | array2D (k : PrimKind) (values : List (Option (List k.Val)))
      (nullMask : Option (List (Option (List Bool))))
  | elements (elems : List Obj) (count : ℤ)
  | entries (es : List (Obj × Obj))

/-- A `null` argument calls `appendNull`. -/
def Stored.orNull {α : Type} (f : α → Stored) : Option α → Stored
  | none => .null
  | some a => f a

def timestampLocalTypes : List CAPIType := [.timestampS, .timestampMs, .timestamp, .timestampNs]
def collectionTypes : List CAPIType := [.array, .list]

namespace Append

/-- The types of `currentColumn(ctypes)`. -/
def types : Append → List CAPIType
  | prim k _ | boxed k _ => k.types
  | char _ | string _ => [.varchar, .enum]
  | character _ | chars _ => [.varchar]
  | hugeInt .. | bigInteger _ => [.hugeint, .uhugeint]
  | decimalShort _ | decimalInt _ | decimalLong _ | decimalLongs .. | bigDecimal _ => [.decimal]
  | array .. => collectionTypes
  | array2D .. => [.array]
  | bytes _ => [.varchar, .blob]
  | uuidBits .. | uuid _ => [.uuid]
  | epochDays _ | localDate _ => [.date]
  | dayMicros _ | localTime _ => [.time]
  | dayMicrosOffset .. | offsetTime _ => [.timeTz]
  | epochSeconds _ => [.timestampS]
  | epochMillis _ => [.timestampMs]
  | epochMicros _ => [.timestamp, .timestampTz]
  | epochNanos _ => [.timestampNs]
  | localDateTime _ | date _ => timestampLocalTypes
  | offsetDateTime _ => [.timestampTz]
  | collection _ | iterable .. | iterator .. => collectionTypes
  | map _ => [.map]

/-- The calls of `arrayInnerColumn` before the `null` check, from the outside in. -/
def innerTypes : Append → List (List CAPIType)
  | array k _ _ => [k.types]
  | array2D k _ _ => [[.array], k.types]
  | _ => []

/-- What is stored, in a column of the type `colType`. -/
def stored (colType : CAPIType) : Append → Stored
  | prim k v => .fixed (.ok (k.cell v))
  | boxed k v => .orNull (fun v => .fixed (.ok (k.cell v))) v
  | char c => .text (String.singleton c)
  | character c => .orNull (fun c => .text (String.singleton c)) c
  | hugeInt lower upper => .fixed (.ok (hugeIntCell lower upper))
  | bigInteger v => .orNull (fun v => .fixed (bigIntegerCell v)) v
  | decimalShort v => .decimal .smallint (.fixed v.toNat)
  | decimalInt v => .decimal .integer (.fixed v.toNat)
  | decimalLong v => .decimal .bigint (.fixed v.toNat)
  | decimalLongs lower upper => .decimal .hugeint (hugeIntCell lower upper)
  | bigDecimal v => .orNull (fun v => .bigDecimal v.1 v.2) v
  | array k values nullMask => .orNull (fun vs => .array k vs nullMask) values
  | array2D k values nullMask => .orNull (fun vs => .array2D k vs nullMask) values
  | bytes values => .orNull (fun bs => .bytes (bytesOf bs)) values
  | chars s | string s => .orNull .text s
  | uuidBits msb lsb => .fixed (.ok (uuidCell msb lsb))
  | uuid v => .orNull (fun v => .fixed (.ok (uuidCell v.1 v.2))) v
  | epochDays days => .fixed (.ok (.fixed days.toNat))
  | localDate d => .orNull (fun d => .fixed (localDateCell d)) d
  | dayMicros micros => .fixed (.ok (.fixed micros.toNat))
  | localTime n => .orNull (fun n => .fixed (.ok (.fixed (BitVec.ofNat 64 (n / 1000)).toNat))) n
  | dayMicrosOffset micros offset => .fixed (.ok (timeTzCell micros offset.toInt))
  | offsetTime v =>
    .orNull (fun v => .fixed (.ok (timeTzCell (BitVec.ofNat 64 (v.1 / 1000)) v.2))) v
  | epochSeconds m | epochMillis m | epochMicros m | epochNanos m => .fixed (.ok (.fixed m.toNat))
  | localDateTime v => .orNull (fun v => .fixed (localDateTimeCell colType v.1 v.2)) v
  | date v => .orNull (fun v => .fixed (dateCell colType v)) v
  | offsetDateTime v => .orNull (fun v => .fixed (untilCell 1000 v.1 v.2)) v
  | collection elems => .orNull (fun es => .elements es es.length) elems
  | iterable elems count | iterator elems count => .orNull (fun es => .elements es count) elems
  | map entries => .orNull .entries entries

end Append

/-- Store at the current column. -/
def Stored.put (env : Env) (col : Column) (vectorIdx : ℕ) : Stored → PutM Unit
  | .null => col.setNull vectorIdx
  | .fixed cell => do putCell col.colType.widthBytes vectorIdx (← orThrow cell)
  | .decimal internalType cell =>
    match col.kind with
    | .decimal t _ _ => do
      require (t = internalType) (.sql (.decimalInternalTypeMismatch t internalType))
      putCell t.widthBytes vectorIdx cell
    | _ => throw (.sql (.decimalInternalTypeMismatch .invalid internalType))
  | .bigDecimal unscaled scale =>
    match col.kind with
    | .decimal t p s => putDecimal t p s vectorIdx unscaled scale
    | _ => throw (.sql (.invalidDecimalInternalType .invalid))
  | .text s =>
    match col.kind with
    | .enum internalType dict => putEnum internalType dict vectorIdx s
    | k =>
      if k.colType = .varchar then putStringOrBlob env vectorIdx (utf8 s)
      else throw (.sql (.invalidType k.colType))
  | .bytes bs => putStringOrBlob env vectorIdx bs
  | .array k values nullMask => k.putArray env.eng col vectorIdx values nullMask
  | .array2D k values nullMask => k.putArray2D env col vectorIdx values nullMask
  | .elements elems count =>
    match col.get? 0 with
    | some innerCol => putObjectArrayOrList env col innerCol vectorIdx elems count
    | none => throw .indexOutOfBounds
  | .entries es =>
    match col.get? 0 with
    | some innerCol => putMap env col innerCol vectorIdx es
    | none => throw .indexOutOfBounds

/-- `checkColumnType`. -/
def checkColumnType (col : Column) (ctypes : List CAPIType) : PutM Unit :=
  require (col.colType ∈ ctypes) (.sql (.invalidColumnType ctypes col.colType))

/-- The checks of the inner columns of an array. -/
def checkInnerTypes (col : Column) : List (List CAPIType) → PutM Unit
  | [] => pure ()
  | ctypes :: rest => do
    let innerCol ← arrayInnerColumn col ctypes
    checkInnerTypes innerCol rest

/-- An `append*` method between finding the current column and moving to the next one. -/
def Append.write (env : Env) (col : Column) (a : Append) : PutM Unit := do
  checkColumnType col a.types
  checkInnerTypes col a.innerTypes
  (a.stored col.colType).put env col env.rowIdx

end DuckDBJava
