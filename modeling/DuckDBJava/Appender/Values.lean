/-
  The Java values an appender takes and the bytes it stores for a scalar.
-/
import DuckDBJava.Appender.Memory
import Mathlib.Data.Nat.Log

namespace DuckDBJava

/-- The element types of the primitive arrays with their own `append` overloads. -/
inductive PrimKind where
  | boolean | byte | short | int | long | float | double
  deriving DecidableEq

namespace PrimKind

/-- The values of a primitive type; `float` and `double` by their bits. -/
def Val : PrimKind → Type
  | boolean => Bool
  | byte => BitVec 8
  | short => BitVec 16
  | int | float => BitVec 32
  | long | double => BitVec 64

instance : (k : PrimKind) → DecidableEq k.Val
  | boolean => inferInstanceAs (DecidableEq Bool)
  | byte => inferInstanceAs (DecidableEq (BitVec 8))
  | short => inferInstanceAs (DecidableEq (BitVec 16))
  | int | float => inferInstanceAs (DecidableEq (BitVec 32))
  | long | double => inferInstanceAs (DecidableEq (BitVec 64))

/-- The bytes of one value. -/
def cell : (k : PrimKind) → k.Val → Cell
  | boolean, b => .fixed (cond b 1 0)
  | byte, v => .fixed (BitVec.toNat v)
  | short, v => .fixed (BitVec.toNat v)
  | int, v => .fixed (BitVec.toNat v)
  | float, v => .fixed (BitVec.toNat v)
  | long, v => .fixed (BitVec.toNat v)
  | double, v => .fixed (BitVec.toNat v)

/-- The element types an array append of this kind accepts. -/
def types : PrimKind → List CAPIType
  | boolean => [.boolean]
  | byte => [.tinyint, .utinyint]
  | short => [.smallint, .usmallint]
  | int => [.integer, .uinteger]
  | long => [.bigint, .ubigint]
  | float => [.float]
  | double => [.double]

/-- The element type for which `putCompositeElement` takes boxed values of this kind. -/
def boxedType : PrimKind → CAPIType
  | boolean => .boolean
  | byte => .tinyint
  | short => .smallint
  | int => .integer
  | long => .bigint
  | float => .float
  | double => .double

/-- The kind whose boxed values `putCompositeElement` takes for an element type. -/
def ofBoxedType : CAPIType → Option PrimKind
  | .boolean => some boolean
  | .tinyint => some byte
  | .smallint => some short
  | .integer => some int
  | .bigint => some long
  | .float => some float
  | .double => some double
  | _ => none

/-- Bytes per value. -/
def width (k : PrimKind) : ℕ := k.boxedType.widthBytes

end PrimKind

/-- A `java.util.Date`: `getTime()` and, of a `java.sql.Timestamp`, the nanoseconds of its instant
    below the millisecond. -/
structure UtilDate where
  getTime : BitVec 64
  nanosOfMilli : Fin 1000000
  deriving DecidableEq

/-- Objects passed to the appender, by what its casts and `instanceof` tests tell apart.  A date
    or time is what the getters the appender calls return; the key of a `SimpleEntry` is its
    `String.valueOf`. -/
inductive Obj where
  | null
  | boxed (k : PrimKind) (v : k.Val)
  | bigInteger (v : ℤ)
  | bigDecimal (unscaled scale : ℤ)
  | string (s : String)
  | uuid (mostSigBits leastSigBits : BitVec 64)
  | localDate (epochDay : ℤ)
  | localTime (nanoOfDay : ℕ)
  | offsetTime (nanoOfDay : ℕ) (totalSeconds : ℤ)
  | localDateTime (epochSecond : ℤ) (nano : ℕ)
  | date (value : UtilDate)
  | offsetDateTime (epochSecond : ℤ) (nano : ℕ)
  | primArray (k : PrimKind) (values : List k.Val)
  | primArray2D (k : PrimKind) (values : List (Option (List k.Val)))
  | collection (elems : List Obj)
  /-- a `LinkedHashMap` if `linked` -/
  | map (linked : Bool) (entries : List (Obj × Obj))
  | simpleEntry (key : String) (value : Obj)
  | other

/-! ## Scalars -/

/-- The two longs of a 128-bit value. -/
def hugeIntCell (lower upper : BitVec 64) : Cell := .fixed (lower.toNat + 2 ^ 64 * upper.toNat)

/-- `BigInteger.longValue()`. -/
def longValue (v : ℤ) : BitVec 64 := BitVec.ofInt 64 v

/-- A `long` result that throws `ArithmeticException` on overflow. -/
def exactLong (v : ℤ) : Except Exn (BitVec 64) :=
  if -2 ^ 63 ≤ v ∧ v < 2 ^ 63 then .ok (BitVec.ofInt 64 v) else .error .arithmetic

/-- `BigDecimal.precision()`. -/
def precision (unscaled : ℤ) : ℕ := Nat.log 10 unscaled.natAbs + 1

/-- `putBigInteger`. -/
def bigIntegerCell (v : ℤ) : Except Exn Cell :=
  if v < -2 ^ 127 ∨ 2 ^ 127 - 1 < v then .error (.sql .bigIntegerOutOfRange)
  else .ok (hugeIntCell (longValue v) (longValue (v / 2 ^ 64)))

/-- `checkDecimalPrecision`. -/
def checkDecimalPrecision (unscaled : ℤ) (internalType : CAPIType) (maxPrecision : ℕ) :
    Except Exn Unit :=
  if maxPrecision < precision unscaled then
    .error (.sql (.decimalInternalPrecision (precision unscaled) maxPrecision internalType))
  else .ok ()

/-- `shortValueExact`, `intValueExact`, `longValueExact`: `n` bits. -/
def valueExact (n : ℕ) (v : ℤ) : Except Exn Cell :=
  if -2 ^ (n - 1) ≤ v ∧ v < 2 ^ (n - 1) then .ok (.fixed (BitVec.ofInt n v).toNat)
  else .error .arithmetic

/-- `putDecimal` of a `BigDecimal`. -/
def decimalCell (internalType : CAPIType) (decimalPrecision decimalScale : ℕ)
    (unscaled scale : ℤ) : Except Exn Cell := do
  if decimalPrecision < precision unscaled then
    throw (.sql (.decimalPrecision decimalPrecision (precision unscaled)))
  if (decimalScale : ℤ) ≠ scale then throw (.sql (.decimalScale decimalScale scale))
  match internalType with
  | .smallint => do checkDecimalPrecision unscaled .smallint 4; valueExact 16 unscaled
  | .integer => do checkDecimalPrecision unscaled .integer 9; valueExact 32 unscaled
  | .bigint => do checkDecimalPrecision unscaled .bigint 18; valueExact 64 unscaled
  | .hugeint => do
    checkDecimalPrecision unscaled .hugeint 38
    return hugeIntCell (longValue unscaled) (longValue (unscaled / 2 ^ 64))
  | t => throw (.sql (.invalidDecimalInternalType t))

/-- `putUUID`: the most significant bit is flipped. -/
def uuidCell (mostSigBits leastSigBits : BitVec 64) : Cell :=
  hugeIntCell leastSigBits (mostSigBits ^^^ BitVec.intMin 64)

/-- `putLocalDate`. -/
def localDateCell (epochDay : ℤ) : Except Exn Cell :=
  if epochDay < -2 ^ 31 ∨ 2 ^ 31 - 1 < epochDay then .error (.sql (.daysOutOfRange epochDay))
  else .ok (.fixed (BitVec.ofInt 32 epochDay).toNat)

/-- `putDayMicros` with an offset. -/
def timeTzCell (micros : BitVec 64) (offset : ℤ) : Cell :=
  let maxOffset : ℤ := 16 * 60 * 60 - 1
  .fixed (((micros &&& 0xFFFFFFFFFF#64) <<< 24) |||
    (BitVec.ofInt 64 (maxOffset - offset) &&& 0xFFFFFF#64)).toNat

/-- The nanoseconds of the unit of a local timestamp type. -/
def unitNanos : CAPIType → Option ℤ
  | .timestampS => some 1000000000
  | .timestampMs => some 1000000
  | .timestamp => some 1000
  | .timestampNs => some 1
  | _ => none

/-- `EPOCH_DATE_TIME.until(value, unit)`: whole units, rounded toward the epoch. -/
def untilCell (unit epochSecond : ℤ) (nano : ℕ) : Except Exn Cell := do
  let moment ← exactLong ((epochSecond * 1000000000 + nano).tdiv unit)
  return .fixed moment.toNat

/-- `putLocalDateTime`. -/
def localDateTimeCell (colType : CAPIType) (epochSecond : ℤ) (nano : ℕ) : Except Exn Cell :=
  match unitNanos colType with
  | some unit => untilCell unit epochSecond nano
  | none => .error (.sql (.invalidTimestampColumn colType))

/-- `putDate`. -/
def dateCell (colType : CAPIType) (value : UtilDate) : Except Exn Cell := do
  let moment ← match colType with
    | .timestampS => pure (BitVec.ofInt 64 (value.getTime.toInt.tdiv 1000))
    | .timestampMs => pure value.getTime
    | .timestamp => exactLong (value.getTime.toInt * 1000)
    | .timestampNs => exactLong (value.getTime.toInt * 1000000)
    | t => throw (.sql (.invalidTimestampColumn t))
  return .fixed moment.toNat

/-- `String.getBytes(UTF_8)`. -/
def utf8 (s : String) : List UInt8 := s.toUTF8.toList

/-- A Java `byte[]`. -/
def bytesOf (bytes : List (BitVec 8)) : List UInt8 := bytes.map fun b => UInt8.ofBitVec b

/-- What the cases of `putCompositeElement` without elements store in a fixed-width column:
    the cast of the value and the conversion of its `put` function. -/
def scalarCell (colType : CAPIType) (value : Obj) : Except Exn Cell :=
  match colType, value with
  | .boolean, .boxed .boolean v => .ok (PrimKind.boolean.cell v)
  | .tinyint, .boxed .byte v => .ok (PrimKind.byte.cell v)
  | .smallint, .boxed .short v => .ok (PrimKind.short.cell v)
  | .integer, .boxed .int v => .ok (PrimKind.int.cell v)
  | .bigint, .boxed .long v => .ok (PrimKind.long.cell v)
  | .hugeint, .bigInteger v => bigIntegerCell v
  | .float, .boxed .float v => .ok (PrimKind.float.cell v)
  | .double, .boxed .double v => .ok (PrimKind.double.cell v)
  | .uuid, .uuid msb lsb => .ok (uuidCell msb lsb)
  | .date, .localDate d => localDateCell d
  | .time, .localTime n => .ok (.fixed (BitVec.ofNat 64 (n / 1000)).toNat)
  | .timeTz, .offsetTime n o => .ok (timeTzCell (BitVec.ofNat 64 (n / 1000)) o)
  | .timestamp, .localDateTime s n => localDateTimeCell .timestamp s n
  | .timestampMs, .localDateTime s n => localDateTimeCell .timestampMs s n
  | .timestampNs, .localDateTime s n => localDateTimeCell .timestampNs s n
  | .timestampS, .localDateTime s n => localDateTimeCell .timestampS s n
  | .timestamp, .date v => dateCell .timestamp v
  | .timestampMs, .date v => dateCell .timestampMs v
  | .timestampNs, .date v => dateCell .timestampNs v
  | .timestampS, .date v => dateCell .timestampS v
  | .timestampTz, .offsetDateTime s n => untilCell 1000 s n
  | .timestamp, _ | .timestampMs, _ | .timestampNs, _ | .timestampS, _ =>
    .error (.sql .invalidTimestampObject)
  | .boolean, _ | .tinyint, _ | .smallint, _ | .integer, _ | .bigint, _ | .hugeint, _
  | .float, _ | .double, _ | .uuid, _ | .date, _ | .time, _ | .timeTz, _ | .timestampTz, _ =>
    .error .classCast
  | t, _ => .error (.sql (.unsupportedComposite t))

end DuckDBJava
