/-
  The getters of `DuckDBVector`, for every column type.

  A getter on a slot that is NULL returns a default: `null`, or `0`, `false` or `NaN` if its result
  is a primitive value or a `BigInteger`.  On another slot it decodes the bits of the slot, or it
  converts what `getObject` returns.  The conversions of the Java library are a parameter.
-/
import DuckDBJava.Numbers.TemporalParameters
import DuckDBJava.Result.Vectors

namespace DuckDBJava

open Calendar

/-! ## Values and exceptions -/

/-- What a getter returns. -/
inductive JavaValue where
  | object (o : JObject)
  /-- `java.sql.Date` -/
  | sqlDate (millis : ℤ)
  /-- `java.sql.Time` -/
  | sqlTime (millis : ℤ)
  | localDateTime (ldt : LocalDateTime)

namespace JavaValue

/-- `value == null` -/
def isNull : JavaValue → Bool
  | object .null => true
  | _ => false

end JavaValue

/-- What is never `null`. -/
abbrev NonNull := {v : JavaValue // v.isNull = false}

/-- What the getters and the moves of a result set throw. -/
inductive GetterException where
  /-- "ResultSet was closed" -/
  | resultSetClosed
  /-- "Column index out of bounds" -/
  | columnIndexOutOfBounds
  /-- "No row in context" -/
  | noRowInContext
  /-- "type is null" -/
  | typeIsNull
  /-- "Can't convert value to …" -/
  | cannotConvert
  /-- "The first element of Array-backed ResultSet can only be retrieved with numeric getters" -/
  | indexColumn
  /-- "Array-backed ResultSet can only have two columns" -/
  | twoColumns
  /-- `SQLFeatureNotSupportedException` -/
  | notSupported
  /-- an error of the engine or of the connection -/
  | engine
  /-- `NumberFormatException`, `DateTimeParseException` or `IllegalArgumentException` of a text -/
  | parse
  | java (e : JavaException)
  deriving DecidableEq

/-- `SQLException` or a subclass. -/
def GetterException.isSql : GetterException → Bool
  | parse | java _ => false
  | _ => true

/-- The getters of `DuckDBVector`. -/
inductive VectorGetter where
  | object | lazyString | struct | array | blob | bytes
  | boolean | byte | short | int | long | float | double
  | uint8 | uint16 | uint32 | uint64 | hugeint | uhugeint | bigDecimal
  | date | localTime | offsetTime | localDateTime | offsetDateTime | uuid
  | time (cal : Option Zone)
  | timestamp (cal : Option Zone)

/-- What the getters take from the Java library. -/
structure JavaLibrary extends Platform where
  toString : JavaValue → String
  /-- `((Number) o).longValue()` and the like, for the type of the getter -/
  number : VectorGetter → JObject → NonNull
  /-- `Long.parseLong(s)` and the like, for the type of the getter -/
  parse : VectorGetter → String → Except GetterException NonNull

/-- A library that knows no text, in a system in UTC. -/
def JavaLibrary.plain : JavaLibrary where
  systemDefault := utc
  resolve := id
  decodeCharbuffer := fun _ => ""
  newStringUTF := id
  castToString := fun _ _ => .error .engine
  variant := fun _ _ => .ok .null
  toString := fun _ => ""
  number := fun _ _ => ⟨.object (.number .integer 0), rfl⟩
  parse := fun _ _ => .error .parse

/-! ## One slot -/

/-- A slot that is not NULL. -/
structure Slot where
  type : DuckDBColumnType
  /-- the physical type that `meta.type_size` stands for, and `meta.scale` -/
  internalType : CAPIType
  scale : ℕ
  /-- the slot of `constlen_data` -/
  bits : ℕ
  /-- the element of `varlen_data` -/
  varlen : JObject

/-- The types whose slots are in `constlen_data`, as the types of the appender. -/
def DuckDBColumnType.constlenKind (internalType : CAPIType) (scale : ℕ) :
    DuckDBColumnType → Option TypeKind
  | .boolean => some (.scalar .boolean (.refl true))
  | .tinyint => some (.scalar .tinyint (.refl true))
  | .smallint => some (.scalar .smallint (.refl true))
  | .integer => some (.scalar .integer (.refl true))
  | .bigint => some (.scalar .bigint (.refl true))
  | .utinyint => some (.scalar .utinyint (.refl true))
  | .usmallint => some (.scalar .usmallint (.refl true))
  | .uinteger => some (.scalar .uinteger (.refl true))
  | .ubigint => some (.scalar .ubigint (.refl true))
  | .hugeint => some (.scalar .hugeint (.refl true))
  | .uhugeint => some (.scalar .uhugeint (.refl true))
  | .float => some (.scalar .float (.refl true))
  | .double => some (.scalar .double (.refl true))
  | .decimal => some (.decimal internalType 0 scale)
  | .date => some (.scalar .date (.refl true))
  | .time => some (.scalar .time (.refl true))
  | .timeWithTimeZone => some (.scalar .timeTz (.refl true))
  | .timestamp => some (.scalar .timestamp (.refl true))
  | .timestampS => some (.scalar .timestampS (.refl true))
  | .timestampMs => some (.scalar .timestampMs (.refl true))
  | .timestampNs => some (.scalar .timestampNs (.refl true))
  | .timestampWithTimeZone => some (.scalar .timestampTz (.refl true))
  | .uuid => some (.scalar .uuid (.refl true))
  | .timeNs => some (.unlisted .timeNs)
  | _ => none

/-- An exception of the decoders. -/
def orJava {α : Type} : Except JavaException α → Except GetterException α
  | .ok a => .ok a
  | .error e => .error (.java e)

def JObject.isNumber : JObject → Bool
  | number .. | float _ | double _ | bigDecimal .. => true
  | _ => false

namespace Slot

variable (lib : JavaLibrary) (s : Slot)

/-- `varlen_data[idx].toString()` -/
def getLazyString : Except GetterException String :=
  match s.varlen with
  | .null => .error (.java .nullPointer)
  | .string text => .ok text
  | o => .ok (lib.toString (.object o))

/-- `getObject` -/
def getObject : Except GetterException JavaValue :=
  match s.type.constlenKind s.internalType s.scale with
  | some kind => do return .object (← orJava (bitsObject lib.toPlatform kind s.bits))
  | none => match s.type with
    | .json => do return .object (.jsonNode (← s.getLazyString lib))
    | .blob | .geometry => do return .object (← orJava (blobObject s.varlen))
    | .map => do return .object (← orJava (arrayElements s.varlen >>= mapObject))
    | .list | .array | .struct => .ok (.object s.varlen)
    | .union => do return .object (← orJava (structAttributes s.varlen >>= unionMember))
    | .variant => do return .object (← orJava (variantObject s.varlen))
    | _ => do return .object (.string (← s.getLazyString lib))

/-- The end of the getters of numbers: a `Number` is converted, anything else is parsed. -/
def convert (g : VectorGetter) : Except GetterException JavaValue := do
  match ← s.getObject lib with
  | .object .null => throw (.java .nullPointer)
  | .object o =>
    if o.isNumber then return (lib.number g o).1
    else return (← lib.parse g (lib.toString (.object o))).1
  | v => return (← lib.parse g (lib.toString v)).1

/-- `new BigDecimal(o.toString())` and the like. -/
def reparse (g : VectorGetter) : Except GetterException JavaValue := do
  match ← s.getObject lib with
  | .object .null => throw (.java .nullPointer)
  | v => return (← lib.parse g (lib.toString v)).1

/-- `LocalDate.parse(lazyString)` and the like. -/
def parseLazy (g : VectorGetter) : Except GetterException JavaValue := do
  return (← lib.parse g (← s.getLazyString lib)).1

/-- A getter of numbers with the types it decodes itself. -/
def numeric (g : VectorGetter) (own : List DuckDBColumnType) (decode : ℕ → JObject) :
    Except GetterException JavaValue :=
  if s.type ∈ own then .ok (.object (decode s.bits)) else s.convert lib g

/-- A getter for one type only. -/
def only (own : List DuckDBColumnType) (value : Except JavaException JObject) :
    Except GetterException JavaValue :=
  if s.type ∈ own then do return .object (← orJava value) else .error .notSupported

/-- `getLocalDateTimeFromTimestamp`; `none` for the types that are no timestamps. -/
def localDateTimeFromTimestamp (cal : Option Zone) :
    Option (Except GetterException LocalDateTime) :=
  if s.type = .timestampS ∧ ¬ inLocalDateRange (signed 8 s.bits / secondsPerDay) then
    some (.error (.java .dateTime))
  else (getLocalDateTimeFromTimestamp lib.systemDefault s.type (signed 8 s.bits) cal).map .ok

/-- `Date.valueOf(LocalDate)` in milliseconds. -/
def dateMillis (epochDay : ℤ) : ℤ := dateValueOf lib.resolve epochDay * 1000

/-- `Time.valueOf(LocalTime)` in milliseconds; the fraction of the second is dropped. -/
def timeMillis (nanoOfDay : ℤ) : ℤ := lib.resolve (nanoOfDay / nanosPerSecond) * 1000

/-- `getTimestamp` -/
def getTimestamp (cal : Option Zone) : Except GetterException Instant :=
  if s.type = .date then .ok (timestampValueOf lib.resolve ⟨signed 4 s.bits, 0, 0⟩)
  else match s.localDateTimeFromTimestamp lib cal with
    | some ldt => do return timestampValueOf lib.resolve (← ldt)
    | none => do
      match (← lib.parse (.timestamp cal) (← s.getLazyString lib)).1 with
      | .object (.timestamp instant) => return instant
      | _ => throw .parse

/-- `getLocalTime` -/
def getLocalTime : Except GetterException JavaValue :=
  match s.type with
  | .time => do
    return .object (.localTime (← orJava (localTimeOfNanoOfDay (microsToNanos (signed 8 s.bits)))))
  | .timeNs => do return .object (.localTime (← orJava (localTimeOfNanoOfDay (signed 8 s.bits))))
  | _ => match s.localDateTimeFromTimestamp lib none with
    | some ldt => do return .object (.localTime (← ldt).nanoOfDay)
    | none => s.parseLazy lib .localTime

/-- `getOffsetTime` -/
def getOffsetTime : Except GetterException JavaValue :=
  match s.type with
  | .time | .timeNs => do
    match ← s.getLocalTime lib with
    | .object (.localTime nanoOfDay) => return .object (.offsetTime nanoOfDay 0)
    | v => return v
  | .timeWithTimeZone => do return .object (← orJava (toOffsetTime (signed 8 s.bits)))
  | _ => match s.localDateTimeFromTimestamp lib none with
    | some ldt => do
      let ldt ← ldt
      return .object (.offsetTime ldt.nanoOfDay
        (lib.systemDefault.offset (ldt.toInstant 0).epochSecond))
    | none => s.parseLazy lib .offsetTime

/-- `getTime` -/
def getTime (cal : Option Zone) : Except GetterException JavaValue :=
  match s.type with
  | .time | .timeNs => do
    match ← s.getLocalTime lib with
    | .object (.localTime nanoOfDay) => return .sqlTime (timeMillis lib nanoOfDay)
    | v => return v
  | .timeWithTimeZone => do
    match ← orJava (toOffsetTime (signed 8 s.bits)) with
    | .offsetTime nanoOfDay _ => return .sqlTime (timeMillis lib nanoOfDay)
    | o => return .object o
  | .timestamp | .timestampMs | .timestampNs | .timestampS | .timestampWithTimeZone => do
    let ts ← s.getTimestamp lib cal
    return .sqlTime (ts.epochSecond * 1000 + ts.nano / 1000000)
  | _ => s.parseLazy lib (.time cal)

/-- `getDate` -/
def getDate : Except GetterException JavaValue :=
  if s.type = .date then .ok (.sqlDate (dateMillis lib (signed 4 s.bits)))
  else match s.localDateTimeFromTimestamp lib none with
    | some ldt => do return .sqlDate (dateMillis lib (← ldt).epochDay)
    | none => s.parseLazy lib .date

/-- `getLocalDateTime` -/
def getLocalDateTime : Except GetterException JavaValue :=
  if s.type = .date then .ok (.localDateTime ⟨signed 4 s.bits, 0, 0⟩)
  else match s.localDateTimeFromTimestamp lib none with
    | some ldt => do return .localDateTime (← ldt)
    | none => s.parseLazy lib .localDateTime

/-- `getOffsetDateTime` -/
def getOffsetDateTime : Except GetterException JavaValue :=
  match s.localDateTimeFromTimestamp lib none with
  | some ldt => do
    let ldt ← ldt
    return .object (.offsetDateTime ⟨ldt, lib.systemDefault.offset (ldt.toInstant 0).epochSecond⟩)
  | none => s.parseLazy lib .offsetDateTime

/-- `(Array) varlen_data[idx]` -/
def asArray : Except JavaException JObject := do
  let _ ← arrayElements s.varlen
  return s.varlen

/-- `(Struct) varlen_data[idx]` -/
def asStruct : Except JavaException JObject := do
  let _ ← structAttributes s.varlen
  return s.varlen

/-- `(byte[]) varlen_data[idx]` -/
def asBytes : Except JavaException JObject := do
  let _ ← blobObject s.varlen
  return s.varlen

/-- A getter on the slot. -/
def get : VectorGetter → Except GetterException JavaValue
  | .object => s.getObject lib
  | .lazyString => do return .object (.string (← s.getLazyString lib))
  | .struct => do return .object (← orJava s.asStruct)
  | .array => s.only [.list, .array] s.asArray
  | .blob => s.only [.blob, .geometry] (blobObject s.varlen)
  | .bytes => s.only [.blob, .geometry] s.asBytes
  | .boolean => s.numeric lib .boolean [.boolean] fun bits => .boolean (signed 1 bits == 1)
  | .byte => s.numeric lib .byte [.tinyint] fun bits => .number .byte (signed 1 bits)
  | .short => s.numeric lib .short [.smallint] fun bits => .number .short (signed 2 bits)
  | .int => s.numeric lib .int [.integer] fun bits => .number .integer (signed 4 bits)
  | .long => s.numeric lib .long [.bigint, .timestamp, .timestampWithTimeZone]
      fun bits => .number .long (signed 8 bits)
  | .float => s.numeric lib .float [.float] fun bits => .float (bits % 2 ^ 32)
  | .double => s.numeric lib .double [.double] fun bits => .double (bits % 2 ^ 64)
  | .uint8 => s.only [.utinyint] (.ok (.number .short (unsigned 1 s.bits)))
  | .uint16 => s.only [.usmallint] (.ok (.number .integer (unsigned 2 s.bits)))
  | .uint32 => s.only [.uinteger] (.ok (.number .long (unsigned 4 s.bits)))
  | .uint64 => s.only [.ubigint] (.ok (.number .bigInteger (unsigned 8 s.bits)))
  | .hugeint => if s.type = .hugeint then .ok (.object (.number .bigInteger (signed 16 s.bits)))
      else s.reparse lib .hugeint
  | .uhugeint => if s.type = .uhugeint then .ok (.object (.number .bigInteger (unsigned 16 s.bits)))
      else s.reparse lib .uhugeint
  | .bigDecimal =>
    if s.type = .decimal then do
      return .object (← orJava (decimalObject s.internalType s.scale s.bits))
    else s.reparse lib .bigDecimal
  | .uuid =>
    if s.type = .uuid then do
      return .object (← orJava (bitsObject lib.toPlatform (.scalar .uuid (.refl true)) s.bits))
    else s.reparse lib .uuid
  | .date => s.getDate lib
  | .localTime => s.getLocalTime lib
  | .offsetTime => s.getOffsetTime lib
  | .localDateTime => s.getLocalDateTime lib
  | .offsetDateTime => s.getOffsetDateTime lib
  | .time cal => s.getTime lib cal
  | .timestamp cal => do return .object (.timestamp (← s.getTimestamp lib cal))

end Slot

/-! ## Vectors -/

/-- What a getter returns for a NULL. -/
def VectorGetter.nullValue : VectorGetter → JavaValue
  | boolean => .object (.boolean false)
  | byte => .object (.number .byte 0)
  | short | uint8 => .object (.number .short 0)
  | int | uint16 => .object (.number .integer 0)
  | long | uint32 => .object (.number .long 0)
  | uint64 | hugeint | uhugeint => .object (.number .bigInteger 0)
  | float => .object (.float 0x7fc00000)
  | double => .object (.double 0x7ff8000000000000)
  | _ => .object .null

/-- A vector of any column type: `DuckDBVector` with the memory it reads. -/
structure ColumnVector where
  type : DuckDBColumnType
  internalType : CAPIType
  scale : ℕ
  length : ℕ
  nullmask : ℕ → Bool
  bits : ℕ → ℕ
  varlen : ℕ → JObject

namespace ColumnVector

/-- The slot of a row that is not NULL. -/
def slot (v : ColumnVector) (row : ℕ) : Slot :=
  ⟨v.type, v.internalType, v.scale, v.bits row, v.varlen row⟩

/-- `check_and_null(idx)`: the array of the null mask has `length` entries. -/
def checkAndNull (v : ColumnVector) (idx : ℤ) : Except GetterException Bool :=
  if 0 ≤ idx ∧ idx < v.length then .ok (v.nullmask idx.toNat)
  else .error (.java .arrayIndexOutOfBounds)

/-- A getter of the vector. -/
def get (lib : JavaLibrary) (v : ColumnVector) (g : VectorGetter) (idx : ℤ) :
    Except GetterException JavaValue := do
  if ← v.checkAndNull idx then return g.nullValue
  else (v.slot idx.toNat).get lib g

end ColumnVector

end DuckDBJava
