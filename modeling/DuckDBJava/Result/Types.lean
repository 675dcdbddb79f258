/-
  The column types a result set reports (`DuckDBColumnType`).
-/
import DuckDBJava.Appender.Types

namespace DuckDBJava

/-- `DuckDBColumnType`. -/
inductive DuckDBColumnType where
  | boolean | tinyint | smallint | integer | bigint
  | utinyint | usmallint | uinteger | ubigint | hugeint | uhugeint | float | double | decimal
  | varchar | blob | time | timeNs | date
  | timestamp | timestampMs | timestampNs | timestampS | timestampWithTimeZone
  | bit | timeWithTimeZone | interval | list | struct | enum | uuid | json | map | array
  | unknown | union | variant | geometry
  deriving DecidableEq, Repr

/-- `TypeNameToType(type_to_jduckdb_type(type))`; the names of the types `DuckDBColumnType` does
    not list end as `UNKNOWN`. -/
def TypeKind.columnType : TypeKind → DuckDBColumnType
  | .decimal .. => .decimal
  | .enum .. => .enum
  | .list => .list
  | .map => .map
  | .array _ => .array
  | .struct _ => .struct
  | .union _ => .union
  | .scalar t _ => match t with
    | .boolean => .boolean
    | .tinyint => .tinyint
    | .smallint => .smallint
    | .integer => .integer
    | .bigint => .bigint
    | .utinyint => .utinyint
    | .usmallint => .usmallint
    | .uinteger => .uinteger
    | .ubigint => .ubigint
    | .hugeint => .hugeint
    | .uhugeint => .uhugeint
    | .float => .float
    | .double => .double
    | .varchar => .varchar
    | .blob => .blob
    | .date => .date
    | .time => .time
    | .timeTz => .timeWithTimeZone
    | .timestamp => .timestamp
    | .timestampS => .timestampS
    | .timestampMs => .timestampMs
    | .timestampNs => .timestampNs
    | .timestampTz => .timestampWithTimeZone
    | .uuid => .uuid
    | .bit => .bit
    | .interval => .interval
    | _ => .unknown
  | .unlisted t => match t with
    | .json => .json
    | .timeNs => .timeNs
    | .geometry => .geometry
    | .variant => .variant

theorem TypeKind.eq_union {kind : TypeKind} (h : kind.columnType = .union) :
    ∃ names, kind = .union names := by
  cases kind with
  | union names => exact ⟨names, rfl⟩
  | scalar t ht => cases t <;> cases h
  | unlisted t => cases t <;> cases h
  | _ => cases h

end DuckDBJava
