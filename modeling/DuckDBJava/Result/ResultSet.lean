/-
  `DuckDBResultSet`: the chunk, the index in it, and the getters.

  All getters go through `checkAndNull`, which checks that the result set is open, the column index
  and the row, and sets `wasNull`; `getLocalTime` alone does not.
-/
import DuckDBJava.Lib.Calls
import DuckDBJava.Result.Getters

namespace DuckDBJava

open Calls

/-! ## Getters -/

/-- The classes that `getObject(columnIndex, type)` tells apart. -/
inductive JavaClass where
  | bigDecimal | string | boolean | byte | short | integer | long | float | double | date | time
  | localTime | timestamp | localDate | localDateTime | bigInteger | offsetDateTime | blob | uuid
  | other
  deriving DecidableEq

/-- The getters by column index.  `json` is `getJsonObject`, `vector` those that return what the
    getter of the vector returns. -/
inductive Getter where
  | vector (g : VectorGetter)
  | string
  | json
  | objectAs (type : Option JavaClass)

/-- `isTimestamp` -/
def DuckDBColumnType.isTimestamp : DuckDBColumnType → Bool
  | timestamp | timestampWithTimeZone | timestampS | timestampMs | timestampNs => true
  | _ => false

/-- The getter of a whole number that fits a Java class, for the classes of whole numbers. -/
def DuckDBColumnType.smallNumber : DuckDBColumnType → Option VectorGetter
  | smallint => some .short
  | usmallint => some .uint16
  | tinyint => some .byte
  | utinyint => some .uint8
  | _ => none

/-- The getter of an exact number for `BigDecimal` and `BigInteger`. -/
def DuckDBColumnType.wholeNumber : DuckDBColumnType → Option VectorGetter
  | hugeint => some .hugeint
  | uhugeint => some .uhugeint
  | bigint => some .long
  | ubigint => some .uint64
  | integer => some .int
  | uinteger => some .uint32
  | t => t.smallNumber

/-- The getter that `getObject(columnIndex, type)` calls for a column type; for `String` it is
    `getString`. -/
def JavaClass.getter (sqlType : DuckDBColumnType) : JavaClass → Option VectorGetter
  | bigDecimal => match sqlType with
    | .decimal => some .bigDecimal
    | .float => some .float
    | .double => some .double
    | t => t.wholeNumber
  | boolean => if sqlType = .boolean then some .boolean else none
  | byte => if sqlType = .tinyint then some .byte else none
  | short => match sqlType with
    | .smallint => some .short
    | .tinyint => some .byte
    | .utinyint => some .uint8
    | _ => none
  | integer => if sqlType = .integer then some .int else sqlType.smallNumber
  | long => match sqlType with
    | .integer => some .int
    | .uinteger => some .uint32
    | t => if t = .bigint ∨ t.isTimestamp then some .long else t.smallNumber
  | float => if sqlType = .float then some .float else none
  | double => if sqlType = .double then some .double else none
  | date | localDate => if sqlType = .date then some .date else none
  | time => if sqlType ∈ [.time, .timeNs, .timeWithTimeZone] then some (.time none) else none
  | localTime => if sqlType ∈ [.time, .timeNs, .timeWithTimeZone] then some .localTime else none
  | timestamp => if sqlType.isTimestamp then some (.timestamp none) else none
  | localDateTime => if sqlType.isTimestamp ∨ sqlType = .date then some .localDateTime else none
  | bigInteger => sqlType.wholeNumber
  | offsetDateTime => if sqlType = .timestampWithTimeZone then some .offsetDateTime else none
  | uuid => if sqlType = .uuid ∨ sqlType = .varchar then some .uuid else none
  | string | blob | other => none

/-- What the getters of a result set take from elsewhere. -/
structure ResultSetEnv extends JavaLibrary where
  /-- `meta.column_types` -/
  columnTypes : List DuckDBColumnType
  /-- the string of a row that `duckdb_jdbc_cast_result_to_strings` makes of the column, or the
      exception of a closed connection -/
  castToStrings : ColumnVector → ℕ → Except GetterException String
  /-- `type.cast(BigDecimal.valueOf(value))` and the like -/
  cast : JavaClass → JavaValue → Except GetterException JavaValue

/-- `meta.column_count` -/
def ResultSetEnv.columnCount (env : ResultSetEnv) : ℕ := env.columnTypes.length

/-- The types whose strings are those of the engine. -/
def DuckDBColumnType.castsToString : DuckDBColumnType → Bool
  | blob | geometry | list | struct | map | array | unknown | union => true
  | _ => false

/-! ## The result set -/

/-- What `duckdb_jdbc_fetch` returns. -/
inductive Fetch where
  | chunk (columns : List ColumnVector)
  /-- an exception of the engine, of a closed connection, or of the constructor of a `DuckDBStruct`
      or a `DuckDBArray`; what the engine has fetched is lost -/
  | failure (e : GetterException)

/-- The fields of `DuckDBResultSet`; `pending` is what the fetches still return, with the end marker
    behind, and `fetches` counts them. -/
structure DuckDBResultSet where
  closed : Bool
  currentChunk : List ColumnVector
  chunkIdx : ℕ
  finished : Bool
  wasNull : Bool
  pending : List Fetch
  fetches : ℕ

namespace DuckDBResultSet

/-- A new result set. -/
def new (pending : List Fetch) : DuckDBResultSet := ⟨false, [], 0, false, false, pending, 0⟩

/-- `fetchChunk()`: `catch (SQLException e)` closes. -/
def fetchChunk (rs : DuckDBResultSet) :
    Except GetterException (List ColumnVector) × DuckDBResultSet :=
  match rs.pending with
  | [] => (.ok [], { rs with fetches := rs.fetches + 1 })
  | .chunk columns :: rest => (.ok columns, { rs with pending := rest, fetches := rs.fetches + 1 })
  | .failure e :: rest =>
    (.error e, { rs with closed := e.isSql, pending := rest, fetches := rs.fetches + 1 })

/-- `currentChunk.length == 0 || chunkIdx > currentChunk[0].length` -/
def needsFetch (rs : DuckDBResultSet) : Bool :=
  match rs.currentChunk with
  | [] => true
  | v :: _ => v.length < rs.chunkIdx

/-- `next()` -/
def next (rs : DuckDBResultSet) : Except GetterException Bool × DuckDBResultSet :=
  if rs.closed then (.error .resultSetClosed, rs)
  else if rs.finished then (.ok false, rs)
  else
    let rs := { rs with chunkIdx := rs.chunkIdx + 1 }
    if rs.needsFetch then
      match rs.fetchChunk with
      | (.error e, rs) => (.error e, rs)
      | (.ok [], rs) => (.ok false, { rs with currentChunk := [], chunkIdx := 1, finished := true })
      | (.ok columns, rs) => (.ok true, { rs with currentChunk := columns, chunkIdx := 1 })
    else (.ok true, rs)

/-- `currentChunk[columnIndex - 1]` -/
def column (rs : DuckDBResultSet) (columnIndex : ℤ) : Except GetterException ColumnVector :=
  if 1 ≤ columnIndex then
    match rs.currentChunk[(columnIndex - 1).toNat]? with
    | some v => .ok v
    | none => .error (.java .arrayIndexOutOfBounds)
  else .error (.java .arrayIndexOutOfBounds)

variable (env : ResultSetEnv) (rs : DuckDBResultSet) (columnIndex : ℤ)

/-- `checkAndNull(columnIndex)` -/
def checkAndNull : Except GetterException Bool × DuckDBResultSet :=
  if rs.closed then (.error .resultSetClosed, rs)
  else if columnIndex < 1 ∨ env.columnCount < columnIndex then (.error .columnIndexOutOfBounds, rs)
  else match rs.column columnIndex >>= fun v => v.checkAndNull ((rs.chunkIdx : ℤ) - 1) with
    | .ok wasNull => (.ok wasNull, { rs with wasNull := wasNull })
    | .error _ => (.error .noRowInContext, rs)

/-- `currentChunk[columnIndex - 1].getX(chunkIdx - 1)` -/
def read (g : VectorGetter) : Except GetterException JavaValue := do
  (← rs.column columnIndex).get env.toJavaLibrary g ((rs.chunkIdx : ℤ) - 1)

/-- `if (checkAndNull(columnIndex)) return ifNull;`, then the value. -/
def checked (ifNull : JavaValue)
    (value : DuckDBResultSet → Except GetterException JavaValue × DuckDBResultSet) :
    Except GetterException JavaValue × DuckDBResultSet :=
  match rs.checkAndNull env columnIndex with
  | (.error e, rs) => (.error e, rs)
  | (.ok true, rs) => (.ok ifNull, rs)
  | (.ok false, rs) => value rs

/-- The getters that return what the getter of the vector returns; `getLocalTime` checks nothing. -/
def getVector : VectorGetter → Except GetterException JavaValue × DuckDBResultSet
  | .localTime => (rs.read env columnIndex .localTime, rs)
  | g => rs.checked env columnIndex g.nullValue fun rs => (rs.read env columnIndex g, rs)

/-- The string of an object that is not `null`. -/
def stringOf (value : JavaValue) : Except GetterException JavaValue := do
  match env.columnTypes[(columnIndex - 1).toNat]? with
  | none => throw (.java .arrayIndexOutOfBounds)
  | some sqlType =>
    if sqlType.castsToString then
      let v ← rs.column columnIndex
      return .object (.string (← env.castToStrings v (rs.chunkIdx - 1)))
    else return .object (.string (env.toString value))

/-- `getString` -/
def getString : Except GetterException JavaValue × DuckDBResultSet :=
  rs.checked env columnIndex (.object .null) fun rs =>
    match rs.getVector env columnIndex .object with
    | (.ok value, rs) =>
      if value.isNull then (.ok (.object .null), rs) else (rs.stringOf env columnIndex value, rs)
    | (.error e, rs) => (.error e, rs)

/-- `new JsonNode(result)`, or `null`. -/
def toJsonNode : JavaValue → JavaValue
  | .object (.string text) => .object (.jsonNode text)
  | v => v

/-- `getJsonObject` -/
def getJsonObject : Except GetterException JavaValue × DuckDBResultSet :=
  match rs.getVector env columnIndex .lazyString with
  | (r, rs) => (r.map toJsonNode, rs)

/-- `getObject(columnIndex, type)`, behind the checks. -/
def getAs (type : JavaClass) (rs : DuckDBResultSet) :
    Except GetterException JavaValue × DuckDBResultSet :=
  match env.columnTypes[(columnIndex - 1).toNat]? with
  | none => (.error (.java .arrayIndexOutOfBounds), rs)
  | some sqlType =>
    if type = .string ∧ (sqlType = .varchar ∨ sqlType = .enum) then
      match rs.getString env columnIndex with
      | (r, rs) => (r >>= env.cast type, rs)
    else match type.getter sqlType with
      | some g => match rs.getVector env columnIndex g with
        | (r, rs) => (r >>= env.cast type, rs)
      | none => (.error .cannotConvert, rs)

/-- A getter by column index. -/
def get : Getter → Except GetterException JavaValue × DuckDBResultSet
  | .vector g => rs.getVector env columnIndex g
  | .string => rs.getString env columnIndex
  | .json => rs.getJsonObject env columnIndex
  | .objectAs none =>
    if rs.closed then (.error .resultSetClosed, rs) else (.error .typeIsNull, rs)
  | .objectAs (some type) => rs.checked env columnIndex (.object .null) (getAs env columnIndex type)

/-- `wasNull()` -/
def getWasNull : Except GetterException Bool :=
  if rs.closed then .error .resultSetClosed else .ok rs.wasNull

end DuckDBResultSet

end DuckDBJava
