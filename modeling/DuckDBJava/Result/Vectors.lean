/-
  Fetched chunks: the vectors of the engine, the `DuckDBVector`s that `ProcessVector` makes of
  them, and the objects `getObject` returns.

  A flat vector is a tree: a node holds the type, the validity bits, the slots and, for a `LIST`
  or `MAP`, the size of the child vector; child `i` is the `i`-th child vector.  Constant-width
  slots are handed to Java as they are and decoded by `getObject`; strings, blobs, lists, arrays
  and structs are decoded while the chunk is fetched.

  A `String` is what the decoder of the platform makes of the bytes.  `DuckDBArray` and
  `DuckDBStruct` are compared by identity: each is made once, for one slot of one vector.
-/
import DuckDBJava.Lib.LinkedMap
import DuckDBJava.Lib.Traverse
import DuckDBJava.Appender.Memory
import DuckDBJava.Result.Timestamps

namespace DuckDBJava

open Exec PathTree

/-! ## Vectors of the engine -/

/-- The slots of one flat vector. -/
structure FlatSlots where
  type : LogicalType
  valid : ℕ → Bool
  data : ℕ → Cell
  /-- `ListVector::GetListSize` -/
  size : ℕ

/-- A flat vector with its child vectors. -/
abbrev FlatVector := PathTree FlatSlots

/-! ## Java objects -/

/-- What the fetch and the accessors throw. -/
inductive JavaException where
  | arrayIndexOutOfBounds
  | negativeArraySize
  | nullPointer
  | classCast
  | dateTime
  /-- an error of the engine -/
  | engine
  /-- memory that does not hold a value of the type is read -/
  | invalidMemory
  deriving DecidableEq

/-- The classes of whole numbers. -/
inductive NumberClass where
  | byte | short | integer | long | bigInteger
  deriving DecidableEq

/-- The vector and the slot an object was made for. -/
structure ObjectId where
  path : List ℕ
  row : ℕ
  deriving DecidableEq

/-- What an accessor returns. -/
inductive JObject where
  | null
  | boolean (b : Bool)
  | number (cls : NumberClass) (value : ℤ)
  | float (bits : ℕ)
  | double (bits : ℕ)
  | bigDecimal (unscaled : ℤ) (scale : ℕ)
  | string (s : String)
  | byteArray (bytes : List UInt8)
  /-- `DuckDBBlobResult` -/
  | blob (bytes : List UInt8)
  | uuid (mostSigBits leastSigBits : ℤ)
  | localDate (epochDay : ℤ)
  | localTime (nanoOfDay : ℤ)
  | offsetTime (nanoOfDay offset : ℤ)
  | timestamp (instant : Instant)
  | offsetDateTime (odt : OffsetDateTime)
  /-- `DuckDBArray` -/
  | array (id : ObjectId) (elements : List JObject)
  /-- `DuckDBStruct` -/
  | struct (id : ObjectId) (keys : List String) (attributes : List JObject)
  /-- `LinkedHashMap` -/
  | map (entries : List (JObject × JObject))
  | jsonNode (text : String)
  /-- the `DuckDBVector` of the value of a `VARIANT`, by what `getObject(0)` on it gives -/
  | vector (first : Except JavaException JObject)

namespace JObject

/-- `Float.floatToIntBits`. -/
def floatToIntBits (bits : ℕ) : ℕ :=
  if 0x7f800000 < bits % 2 ^ 31 then 0x7fc00000 else bits

/-- `Double.doubleToLongBits`. -/
def doubleToLongBits (bits : ℕ) : ℕ :=
  if 0x7ff0000000000000 < bits % 2 ^ 63 then 0x7ff8000000000000 else bits

mutual

/-- `Objects.equals(a, b)`. -/
def equals : JObject → JObject → Bool
  | null, null => true
  | boolean a, boolean b => a == b
  | number c a, number d b => c == d && a == b
  | float a, float b => floatToIntBits a == floatToIntBits b
  | double a, double b => doubleToLongBits a == doubleToLongBits b
  | bigDecimal a s, bigDecimal b t => a == b && s == t
  | string a, string b => a == b
  | blob a, blob b => a == b
  | uuid a b, uuid c d => a == c && b == d
  | localDate a, localDate b => a == b
  | localTime a, localTime b => a == b
  | offsetTime a o, offsetTime b p => a == b && o == p
  | timestamp a, timestamp b => a == b
  | offsetDateTime a, offsetDateTime b => a == b
  | array i _, array j _ => i == j
  | struct i _ _, struct j _ _ => i == j
  | jsonNode a, jsonNode b => a == b
  | map es, map fs => es.length == fs.length && allIn es fs
  | _, _ => false

/-- Every entry is in the map `fs`. -/
def allIn : List (JObject × JObject) → List (JObject × JObject) → Bool
  | [], _ => true
  | e :: es, fs => isIn e fs && allIn es fs

/-- The entry is in the map `fs`. -/
def isIn : JObject × JObject → List (JObject × JObject) → Bool
  | (k, v), fs => match fs.find? fun f => equals k f.1 with
    | some f => equals v f.2
    | none => false

end

end JObject

/-- What the driver takes from the platform and from the engine. -/
structure Platform where
  systemDefault : Calendar.Zone
  /-- the local times of the system zone in `java.util` -/
  resolve : ℤ → ℤ
  /-- `decode_charbuffer_to_jstring` -/
  decodeCharbuffer : List UInt8 → String
  newStringUTF : String → String
  /-- the cast of one value to `VARCHAR` -/
  castToString : TypeKind → Cell → Except JavaException (List UInt8)
  /-- what the fetch stores for a slot of a `VARIANT`: `null` or the vector of the value -/
  variant : ObjectId → Cell → Except JavaException JObject

/-! ## Constant-width slots -/

/-- The `w` low bytes as a signed number. -/
def signed (w bits : ℕ) : ℤ := (bits : ℤ).bmod (256 ^ w)

/-- The `w` low bytes as an unsigned number. -/
def unsigned (w bits : ℕ) : ℤ := (bits % 256 ^ w : ℕ)

/-- `LocalTime.ofNanoOfDay`. -/
def localTimeOfNanoOfDay (nanos : ℤ) : Except JavaException ℤ :=
  if 0 ≤ nanos ∧ nanos ≤ 86399999999999 then .ok nanos else .error .dateTime

/-- `TimeUnit.MICROSECONDS.toNanos`. -/
def microsToNanos (micros : ℤ) : ℤ :=
  max (-2 ^ 63) (min (2 ^ 63 - 1) (micros * 1000))

/-- `DuckDBTimestamp.toOffsetTime`. -/
def toOffsetTime (timeBits : ℤ) : Except JavaException JObject := do
  let timeMicros := timeBits / 2 ^ 24
  let offset := 16 * 60 * 60 - 1 - timeBits % 2 ^ 24
  let sign : ℤ := if offset < 0 then -1 else 1
  let ss := (offset.natAbs : ℤ) % 60
  let mm := (offset.natAbs : ℤ) / 60 % 60
  let hh := (offset.natAbs : ℤ) / 60 / 60
  let time ← localTimeOfNanoOfDay (timeMicros * 1000)
  if 15 < hh then
    return .offsetTime time 0
  else
    return .offsetTime time (sign * hh * 3600 + sign * mm * 60 + sign * ss)

/-- The days of `LocalDate`, which `LocalDateTime.ofEpochSecond` checks. -/
def inLocalDateRange (epochDay : ℤ) : Prop :=
  -365243219162 ≤ epochDay ∧ epochDay ≤ 365241780471

instance (d : ℤ) : Decidable (inLocalDateRange d) := inferInstanceAs (Decidable (_ ∧ _))

/-- `getTimestamp`, of a stored value; only seconds can leave the range of the dates. -/
def timestampObject (env : Platform) (type : DuckDBColumnType) (value : ℤ) :
    Except JavaException JObject :=
  if type = .timestampS ∧ ¬ inLocalDateRange (value / secondsPerDay) then .error .dateTime
  else match getTimestamp env.systemDefault env.resolve type value none with
    | some ts => .ok (.timestamp ts)
    | none => .error .nullPointer

/-- `getOffsetDateTime`, of a stored value. -/
def offsetDateTimeObject (env : Platform) (value : ℤ) : Except JavaException JObject :=
  match getOffsetDateTime env.systemDefault .timestampWithTimeZone value with
  | some odt => .ok (.offsetDateTime odt)
  | none => .error .nullPointer

/-- `getBigDecimal`, by the physical type. -/
def decimalObject (internalType : CAPIType) (scale bits : ℕ) : Except JavaException JObject :=
  match internalType with
  | .smallint => .ok (.bigDecimal (signed 2 bits) scale)
  | .integer => .ok (.bigDecimal (signed 4 bits) scale)
  | .bigint => .ok (.bigDecimal (signed 8 bits) scale)
  | .hugeint => .ok (.bigDecimal (signed 8 (bits / 2 ^ 64) * 2 ^ 64 + unsigned 8 bits) scale)
  | _ => .error .engine

/-- The accessor `getObject` calls for a constant-width type, on the bits of the slot. -/
def bitsObject (env : Platform) (kind : TypeKind) (bits : ℕ) : Except JavaException JObject :=
  match kind with
  | .decimal internalType _ scale => decimalObject internalType scale bits
  | .unlisted .timeNs => do return .localTime (← localTimeOfNanoOfDay (signed 8 bits))
  | .scalar t _ => match t with
    | .boolean => .ok (.boolean (signed 1 bits == 1))
    | .tinyint => .ok (.number .byte (signed 1 bits))
    | .smallint => .ok (.number .short (signed 2 bits))
    | .integer => .ok (.number .integer (signed 4 bits))
    | .bigint => .ok (.number .long (signed 8 bits))
    | .utinyint => .ok (.number .short (unsigned 1 bits))
    | .usmallint => .ok (.number .integer (unsigned 2 bits))
    | .uinteger => .ok (.number .long (unsigned 4 bits))
    | .ubigint => .ok (.number .bigInteger (unsigned 8 bits))
    | .hugeint => .ok (.number .bigInteger (signed 16 bits))
    | .uhugeint => .ok (.number .bigInteger (unsigned 16 bits))
    | .float => .ok (.float (bits % 2 ^ 32))
    | .double => .ok (.double (bits % 2 ^ 64))
    | .date => .ok (.localDate (signed 4 bits))
    | .time => do return .localTime (← localTimeOfNanoOfDay (microsToNanos (signed 8 bits)))
    | .timeTz => toOffsetTime (signed 8 bits)
    | .timestamp | .timestampS | .timestampMs | .timestampNs =>
      timestampObject env kind.columnType (signed 8 bits)
    | .timestampTz => offsetDateTimeObject env (signed 8 bits)
    | .uuid => .ok (.uuid ((signed 8 (bits / 2 ^ 64) + 2 ^ 63).bmod (2 ^ 64)) (signed 8 bits))
    | _ => .error .classCast
  | _ => .error .classCast

/-- The same on a slot. -/
def constObject (env : Platform) (kind : TypeKind) : Cell → Except JavaException JObject
  | .fixed bits => bitsObject env kind bits
  | _ => .error .invalidMemory

/-! ## DuckDBVector -/

/-- `DuckDBVector`.  `kind` stands for `duckdb_type` and `meta`. -/
structure DuckDBVector where
  kind : TypeKind
  length : ℕ
  nullmask : ℕ → Bool
  constlenData : ℕ → Cell
  varlenData : List JObject

/-- The key and the value `getMap` takes from an entry. -/
def mapEntry : JObject → Except JavaException (JObject × JObject)
  | .struct _ _ (k :: v :: _) => .ok (k, v)
  | .struct .. => .error .arrayIndexOutOfBounds
  | .null => .error .nullPointer
  | _ => .error .classCast

/-- `((Array) o).getArray()`. -/
def arrayElements : JObject → Except JavaException (List JObject)
  | .array _ xs => .ok xs
  | .null => .error .nullPointer
  | _ => .error .classCast

/-- `((Struct) o).getAttributes()`. -/
def structAttributes : JObject → Except JavaException (List JObject)
  | .struct _ _ xs => .ok xs
  | .null => .error .nullPointer
  | _ => .error .classCast

/-- The map of the entries, put one after the other. -/
def mapObject (entries : List JObject) : Except JavaException JObject := do
  return .map (LinkedMap.ofEntries JObject.equals (← entries.mapM mapEntry))

/-- `xs[idx]`. -/
def elementAt {α : Type} (xs : List α) (idx : ℤ) : Except JavaException α :=
  if 0 ≤ idx then
    match xs[idx.toNat]? with
    | some x => .ok x
    | none => .error .arrayIndexOutOfBounds
  else .error .arrayIndexOutOfBounds

/-- `attributes[1 + (short) attributes[0]]`. -/
def unionMember (attributes : List JObject) : Except JavaException JObject :=
  match attributes.head? with
  | some (.number .short tag) => elementAt attributes (1 + tag)
  | some .null => .error .nullPointer
  | some _ => .error .classCast
  | none => .error .arrayIndexOutOfBounds

/-- `new DuckDBBlobResult(ByteBuffer.wrap((byte[]) o))`. -/
def blobObject : JObject → Except JavaException JObject
  | .byteArray bytes => .ok (.blob bytes)
  | .null => .error .nullPointer
  | _ => .error .classCast

/-- `getLazyString`. -/
def lazyString : JObject → Except JavaException JObject
  | .null => .error .nullPointer
  | o => .ok o

/-- `new JsonNode(getLazyString(idx))`. -/
def jsonObject (o : JObject) : Except JavaException JObject := do
  match ← lazyString o with
  | .string text => return .jsonNode text
  | _ => throw .invalidMemory

/-- `((DuckDBVector) o).getObject(0)`. -/
def variantObject : JObject → Except JavaException JObject
  | .vector first => first
  | .null => .error .nullPointer
  | _ => .error .classCast

/-- The branch of `getObject` for a cell that is not NULL, on the element of `constlen_data` and
    that of `varlen_data`. -/
def cellObject (env : Platform) (kind : TypeKind) (constlen : Cell) (varlen : JObject) :
    Except JavaException JObject :=
  match kind.columnType with
  | .map => do mapObject (← arrayElements varlen)
  | .list | .array | .struct => .ok varlen
  | .union => do unionMember (← structAttributes varlen)
  | .blob | .geometry => blobObject varlen
  | .json => jsonObject varlen
  | .variant => variantObject varlen
  | .varchar | .enum | .bit | .interval | .unknown => lazyString varlen
  | _ => constObject env kind constlen

/-- `DuckDBVector.getObject`. -/
def DuckDBVector.getObject (env : Platform) (v : DuckDBVector) (idx : ℤ) :
    Except JavaException JObject :=
  if 0 ≤ idx ∧ idx < v.length then
    if v.nullmask idx.toNat then .ok .null
    else cellObject env v.kind (v.constlenData idx.toNat) (v.varlenData.getD idx.toNat .null)
  else .error .arrayIndexOutOfBounds

/-- `new DuckDBArray(vector, offset, length)`. -/
def newDuckDBArray (env : Platform) (id : ObjectId) (vector : DuckDBVector) (offset length : ℤ) :
    Except JavaException JObject := do
  requireE (0 ≤ length) .negativeArraySize
  let elements ← (List.range length.toNat).mapM fun i : ℕ =>
    vector.getObject env (toInt (offset + i))
  return .array id elements

/-- `new DuckDBStruct(keys, values, offset, typeName)`. -/
def newDuckDBStruct (env : Platform) (id : ObjectId) (keys : List String)
    (values : List DuckDBVector) (offset : ℤ) : Except JavaException JObject := do
  let attributes ← values.mapM fun v => v.getObject env offset
  return .struct id keys attributes

/-! ## ProcessVector -/

/-- The cases of the `switch` in `ProcessVector`. -/
inductive FetchCase where
  | constlen | enum | struct | blob | array | list | variant | varchar | default
  deriving DecidableEq

/-- The case of a type. -/
def TypeKind.fetchCase : TypeKind → FetchCase
  | .decimal .. => .constlen
  | .enum .. => .enum
  | .struct _ | .union _ => .struct
  | .array _ => .array
  | .list | .map => .list
  | .unlisted t => match t with
    | .json => .varchar
    | .timeNs => .constlen
    | .geometry => .blob
    | .variant => .variant
  | .scalar t _ => match t with
    | .blob => .blob
    | .varchar => .varchar
    | .boolean | .tinyint | .smallint | .integer | .bigint | .utinyint | .usmallint | .uinteger
    | .ubigint | .hugeint | .uhugeint | .float | .double | .date | .time | .timeTz | .timestamp
    | .timestampS | .timestampMs | .timestampNs | .timestampTz | .uuid => .constlen
    | _ => .default

theorem TypeKind.eq_array {kind : TypeKind} (h : kind.fetchCase = .array) :
    ∃ n, kind = .array n := by
  cases kind with
  | array n => exact ⟨n, rfl⟩
  | scalar t ht => cases t <;> cases h
  | unlisted t => cases t <;> cases h
  | _ => cases h

theorem TypeKind.eq_struct_or_union {kind : TypeKind} (h : kind.fetchCase = .struct) :
    ∃ names, kind = .struct names ∨ kind = .union names := by
  cases kind with
  | struct names => exact ⟨names, .inl rfl⟩
  | union names => exact ⟨names, .inr rfl⟩
  | scalar t ht => cases t <;> cases h
  | unlisted t => cases t <;> cases h
  | _ => cases h

/-- The field names of a `STRUCT` or `UNION`. -/
def TypeKind.fieldNames : TypeKind → List String
  | .struct names | .union names => names
  | _ => []

/-- How many slots of a child are materialised for `n` rows. -/
def TypeKind.childRows (kind : TypeKind) (size n : ℕ) : ℕ :=
  match kind with
  | .array limit => n * limit
  | .list | .map => size
  | _ => n

/-- The physical types of a `DECIMAL`. -/
def TypeKind.decimalOk : TypeKind → Bool
  | .decimal t _ _ => t ∈ [CAPIType.smallint, .integer, .bigint, .hugeint]
  | _ => true

/-- The string of an `ENUM` slot. -/
def enumObject (env : Platform) (kind : TypeKind) (c : Cell) : Except JavaException JObject :=
  match kind, c with
  | .enum _ dict, .fixed bits => match dict[bits]? with
    | some s => .ok (.string (env.newStringUTF s))
    | none => .error .engine
  | _, _ => .error .invalidMemory

/-- The string of a `VARCHAR` slot. -/
def varcharObject (env : Platform) : Cell → Except JavaException JObject
  | .string bytes => .ok (.string (env.decodeCharbuffer bytes))
  | _ => .error .invalidMemory

/-- The bytes of a `BLOB` slot. -/
def blobBytes : Cell → Except JavaException JObject
  | .string bytes => .ok (.byteArray bytes)
  | _ => .error .invalidMemory

/-- The offset and the length of a `LIST` or `MAP` slot. -/
def listEntry : Cell → Except JavaException (ℤ × ℤ)
  | .entry offset length => .ok (offset, length)
  | _ => .error .invalidMemory

/-- The loops over the rows: `varlen_data[row] = f(row)`, NULL rows skipped. -/
def fillValid (s : FlatSlots) (n : ℕ) (f : ℕ → Except JavaException JObject) :
    Except JavaException (List JObject) :=
  (List.range n).mapM fun row => if s.valid row then f row else .ok .null

/-- `VectorOperations::Cast` to `VARCHAR` and `vec.ReferenceAndSetType(string_vec)`. -/
def castAndReference (env : Platform) (kind : TypeKind) (n : ℕ) :
    M JavaException FlatVector Unit := do
  let s ← getRoot
  let strings ← liftE ((List.range n).mapM fun row =>
    if s.valid row then env.castToString kind (s.data row) else .ok [])
  modifyRoot fun s => { s with
    type := .node (.scalar .varchar (.refl true)) []
    data := fun row => .string (strings.getD row []) }

/-- The rows of `varlen_data`, once the child vectors are processed. -/
def fillVarlen (env : Platform) (kind : TypeKind) (path : List ℕ) (n : ℕ)
    (columns : List DuckDBVector) : M JavaException FlatVector (List JObject) := do
  let s ← getRoot
  match kind.fetchCase with
  | .constlen => do
    require (kind.decimalOk = true) .engine
    return []
  | .enum => liftE (fillValid s n fun row => enumObject env kind (s.data row))
  | .struct => liftE ((List.range n).mapM fun row =>
      newDuckDBStruct env ⟨path, row⟩ (kind.fieldNames.map env.newStringUTF) columns (toInt row))
  | .blob => liftE (fillValid s n fun row => blobBytes (s.data row))
  | .array => match kind, columns with
    | .array limit, [column] => liftE (fillValid s n fun row =>
        newDuckDBArray env ⟨path, row⟩ column (toInt (row * limit : ℕ)) (toInt limit))
    | _, _ => throw .engine
  | .list => match columns with
    | [column] => liftE (fillValid s n fun row => do
        let (offset, limit) ← listEntry (s.data row)
        newDuckDBArray env ⟨path, row⟩ column (toInt offset) (toInt limit))
    | _ => throw .engine
  | .variant => liftE (fillValid s n fun row => env.variant ⟨path, row⟩ (s.data row))
  | .varchar => liftE (fillValid s n fun row => varcharObject env (s.data row))
  | .default => do
    castAndReference env kind n
    let s ← getRoot
    liftE (fillValid s n fun row => varcharObject env (s.data row))

mutual

/-- `ProcessVector`: `type` is `vec.GetType()`, `path` where the vector is in the chunk. -/
def processVector (env : Platform) :
    LogicalType → List ℕ → ℕ → M JavaException FlatVector DuckDBVector
  | .node kind children, path, n => do
    require (n < 2 ^ 31) .negativeArraySize
    let s ← getRoot
    let columns ← processEntries env children path 0 (kind.childRows s.size n)
    let varlen ← fillVarlen env kind path n columns
    return ⟨kind, n, fun row => !s.valid row, s.data, varlen⟩

/-- The child vectors from the `i`-th on. -/
def processEntries (env : Platform) : List LogicalType → List ℕ → ℕ → ℕ →
    M JavaException FlatVector (List DuckDBVector)
  | [], _, _, _ => return []
  | t :: ts, path, i, n => do
    let column ← onChild i (processVector env t (i :: path) n)
    let columns ← processEntries env ts path (i + 1) n
    return column :: columns

end

/-- The element of `varlen_data` for the value of a `VARIANT` slot: nothing for a null, else the
    vector of the value, fetched like any other. -/
def variantElement (env : Platform) (id : ObjectId) :
    Option FlatVector → Except JavaException JObject
  | none => .ok .null
  | some value => match processVector env value.root.type (id.row :: id.path) 1 value with
    | .ok column _ => .ok (.vector (column.getObject env 0))
    | .error e _ => .error e

/-- The platform with `ConvertVariantToValue`, for variants at most `depth` deep in one another. -/
def Platform.withVariants (env : Platform)
    (convert : Cell → Except JavaException (Option FlatVector)) : ℕ → Platform
  | 0 => env
  | depth + 1 => { env with
      variant := fun id c => do
        variantElement (env.withVariants convert depth) id (← convert c) }

/-- `ProcessVector(env, conn_ref, vec, row_count)` on a column of the chunk. -/
def fetchColumn (env : Platform) (n : ℕ) : M JavaException FlatVector DuckDBVector := do
  let s ← getRoot
  processVector env s.type [] n

end DuckDBJava
