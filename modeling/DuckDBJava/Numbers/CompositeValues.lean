/-
  Composite parameters: `to_duckdb_value` on the maps, structs and arrays of `createMap`,
  `createStruct` and `createArrayOf`, nested at will, with the parts of the engine that it calls.
-/
import DuckDBJava.Numbers.Parameters
import DuckDBJava.Numbers.Timestamps
import DuckDBJava.Numbers.Uuid
import Mathlib.Data.List.Forall2

namespace DuckDBJava.Params

open Exec Calendar

/-! ## Types -/

mutual

/-- Equality of logical types, node by node. -/
def typeEq : (t u : LogicalType) → Decidable (t = u)
  | .node k cs, .node l ds =>
    match decEq k l, typesEq cs ds with
    | isTrue hk, isTrue hc => isTrue (by rw [hk, hc])
    | isFalse hk, _ => isFalse fun h => hk (LogicalType.node.inj h).1
    | _, isFalse hc => isFalse fun h => hc (LogicalType.node.inj h).2

def typesEq : (ts us : List LogicalType) → Decidable (ts = us)
  | [], [] => isTrue rfl
  | [], _ :: _ => isFalse nofun
  | _ :: _, [] => isFalse nofun
  | t :: ts, u :: us =>
    match typeEq t u, typesEq ts us with
    | isTrue ht, isTrue hts => isTrue (by rw [ht, hts])
    | isFalse ht, _ => isFalse fun h => ht (List.cons.inj h).1
    | _, isFalse hts => isFalse fun h => hts (List.cons.inj h).2

end

instance : DecidableEq LogicalType := typeEq

/-- A type without parameters. -/
abbrev scalarOf (t : CAPIType) (h : t.isScalar = true) : LogicalType :=
  .node (.scalar t h) []

/-- `LogicalType::DECIMAL(width, scale)` -/
def decimalOf (width scale : ℕ) : LogicalType :=
  .node (.decimal (internalTypeOf width) width scale) []

/-- `LogicalType::STRUCT(children)` -/
def structOf (fields : List (String × LogicalType)) : LogicalType :=
  .node (.struct (fields.map Prod.fst)) (fields.map Prod.snd)

/-- The entries of a `MAP`. -/
def entryFields (keyType valueType : LogicalType) : List (String × LogicalType) :=
  [("key", keyType), ("value", valueType)]

/-- `LogicalType::MAP(key, value)` -/
def mapOf (keyType valueType : LogicalType) : LogicalType :=
  .node .map [structOf (entryFields keyType valueType)]

/-! ## Values -/

/-- What a `Value` without children holds. -/
inductive ValueData where
  | boolean (x : Bool)
  /-- integers, decimals by their digits, dates, times and timestamps by their count -/
  | int (n : ℤ)
  | float (bits : BitVec 32)
  | double (bits : BitVec 64)
  | string (x : String)
  | blob (x : List UInt8)
  deriving DecidableEq

/-- `duckdb::Value` -/
inductive Value where
  | null (type : LogicalType)
  | scalar (type : LogicalType) (data : ValueData)
  | nested (type : LogicalType) (children : List Value)

/-- `Value::type()` -/
def Value.type : Value → LogicalType
  | null t | scalar t _ | nested t _ => t

/-- `Value::IsNull()` -/
def Value.isNull : Value → Bool
  | null _ => true
  | _ => false

/-- `StructValue::GetChildren` -/
def Value.children : Value → List Value
  | nested _ children => children
  | _ => []

/-- How a conversion ends without a value. -/
inductive ParamError where
  /-- An exception of the engine: a `java.sql.SQLException`. -/
  | sqlException
  /-- `DuckDBTimestamp.valueOf` throws; the exception is pending when the native method returns. -/
  | unchecked
  /-- The type is read as one of another kind. -/
  | undefined
  deriving DecidableEq

/-- The engine and the JVM, as far as a conversion asks them. -/
structure ClientContext where
  /-- `TransformStringToLogicalType`; `none` where it throws. -/
  transformStringToLogicalType : String → Option LogicalType
  /-- `VectorOperations::TryCast` of a single value. -/
  tryCast : Value → LogicalType → Option Value
  /-- The result is read from a vector of the type. -/
  tryCast_type : ∀ {v t w}, tryCast v t = some w → w.type = t
  /-- The equality of `value_set_t`. -/
  keyEquals : Value → Value → Bool
  /-- The cast of a text to DECIMAL. -/
  decimalCast : DecimalCast
  systemDefault : Zone
  /-- The second at which a local time of the default zone occurs. -/
  resolve : ℤ → ℤ

namespace ClientContext

variable (context : ClientContext)

def transform (typeName : String) : Except ParamError LogicalType :=
  match context.transformStringToLogicalType typeName with
  | some type => .ok type
  | none => .error .sqlException

/-- `Value::DefaultCastAs` -/
def defaultCastAs (v : Value) (type : LogicalType) : Except ParamError Value :=
  if type.colType = .any then .ok v
  else if v.type = type then .ok v
  else
    match context.tryCast v type with
    | some w => .ok w
    | none => .error .sqlException

/-- The loop of `Value::STRUCT(type, struct_values)`, with the bound of `child_types[i]`. -/
def castEach : List LogicalType → List Value → Except ParamError (List Value)
  | _, [] => .ok []
  | [], _ :: _ => .error .sqlException
  | t :: ts, v :: vs => do
    let w ← context.defaultCastAs v t
    let ws ← castEach ts vs
    return w :: ws

/-- `Value::STRUCT(type, struct_values)` -/
def typedStruct (fields : List (String × LogicalType)) (values : List Value) :
    Except ParamError Value := do
  let children ← context.castEach (fields.map Prod.snd) values
  return .nested (structOf fields) children

/-- `Value::STRUCT(values)`: the types are those of the values. -/
def structValue (values : List (String × Value)) : Except ParamError Value :=
  context.typedStruct (values.map fun v => (v.1, v.2.type)) (values.map Prod.snd)

/-- `Value::LIST(child_type, values)` -/
def listValue (childType : LogicalType) (values : List Value) : Except ParamError Value := do
  let children ← values.mapM fun v => context.defaultCastAs v childType
  return .nested (.listOf childType) children

/-- `MapKeyCheck`: NULL keys and duplicate ones. -/
def mapKeyCheck (uniqueKeys : List Value) (key : Value) : Except ParamError (List Value) :=
  if key.isNull then .error .sqlException
  else if uniqueKeys.any (context.keyEquals key) then .error .sqlException
  else .ok (key :: uniqueKeys)

/-- `children[i]` -/
def child (v : Value) (i : ℕ) : Except ParamError Value :=
  match v.children[i]? with
  | some c => .ok c
  | none => .error .sqlException

/-- The first loop of `Value::MAP`: the keys and values of the entries. -/
def mapEntries (uniqueKeys : List Value) : List Value → Except ParamError (List (Value × Value))
  | [] => .ok []
  | val :: values => do
    let key ← child val 0
    let uniqueKeys ← context.mapKeyCheck uniqueKeys key
    let value ← child val 1
    let entries ← mapEntries uniqueKeys values
    return (key, value) :: entries

/-- The second loop: the entries with their key and value cast. -/
def castEntries (keyType valueType : LogicalType) (uniqueKeys : List Value) :
    List (Value × Value) → Except ParamError (List Value)
  | [] => .ok []
  | (key, value) :: entries => do
    let key ← context.defaultCastAs key keyType
    let uniqueKeys ← context.mapKeyCheck uniqueKeys key
    let entry ← context.typedStruct (entryFields keyType valueType) [key, value]
    let entries ← castEntries keyType valueType uniqueKeys entries
    return entry :: entries

end ClientContext

/-- The type has an `AuxInfo()`. -/
def hasAuxInfo : TypeKind → Bool
  | .scalar .. => false
  | .unlisted t => match t with
    | .json | .variant => true
    | .timeNs | .geometry => false
  | _ => true

/-- `info->Cast` for a type of another kind: `optional_ptr` throws where there is no `AuxInfo()`. -/
def castInfo (type : LogicalType) : ParamError :=
  if hasAuxInfo type.kind then .undefined else .sqlException

/-- The fields of `LogicalType::VARIANT()`. -/
def variantFields : List (String × LogicalType) :=
  [("keys", .listOf (scalarOf .varchar (.refl true))),
    ("children", .listOf (structOf [("keys_index", scalarOf .uinteger (.refl true)),
      ("values_index", scalarOf .uinteger (.refl true))])),
    ("values", .listOf (structOf [("type_id", scalarOf .utinyint (.refl true)),
      ("byte_offset", scalarOf .uinteger (.refl true))])),
    ("data", scalarOf .blob (.refl true))]

/-- `ListType::GetChildType` -/
def listChildType : LogicalType → Except ParamError LogicalType
  | .node .list (t :: _) | .node .map (t :: _) => .ok t
  | type => .error (castInfo type)

/-- `StructType::GetChildTypes` -/
def structChildTypes : LogicalType → Except ParamError (List (String × LogicalType))
  | .node (.struct names) cs | .node (.union names) cs => .ok (names.zip cs)
  | .node (.unlisted .variant) _ => .ok variantFields
  | type => .error (castInfo type)

/-- `StructType::GetChildTypes(type)[index]`, which checks the index. -/
def structChild (type : LogicalType) (index : ℕ) : Except ParamError (String × LogicalType) := do
  let childTypes ← structChildTypes type
  match childTypes[index]? with
  | some child => .ok child
  | none => .error .sqlException

/-- `Value::MAP(child_type, values)` -/
def ClientContext.mapValue (context : ClientContext) (childType : LogicalType)
    (values : List Value) : Except ParamError Value := do
  let entries ← context.mapEntries [] values
  let keyType ← structChild childType 0
  let valueType ← structChild childType 1
  let children ← context.castEntries keyType.2 valueType.2 [] entries
  return .nested (mapOf keyType.2 valueType.2) children

/-! ## Parameters -/

/-- A parameter that is no map, struct or array. -/
inductive ScalarParam where
  | null
  | boolean (x : Bool)
  | byte (x : BitVec 8)
  | short (x : BitVec 16)
  | integer (x : BitVec 32)
  | long (x : BitVec 64)
  | hugeInt (x : HugeintT)
  | offsetDateTime (x : OffsetDateTime)
  | temporal (x : TemporalParam)
  | float (bits : BitVec 32)
  | double (bits : BitVec 64)
  | bigDecimal (x : BigDecimal)
  | string (x : String)
  | byteArray (x : List UInt8)
  | uuid (x : UUID)
  /-- An object of any other class. -/
  | other

/-- `DuckDBMap` by its entries, `DuckDBUserStruct` and `DuckDBUserArray`, with their type names. -/
inductive JavaParam where
  | scalar (x : ScalarParam)
  | map (typeName : String) (entries : List (JavaParam × JavaParam))
  | struct (typeName : String) (attributes : List JavaParam)
  | array (typeName : String) (elements : List JavaParam)

/-- The value of a `DuckDBTimestamp`, `DuckDBTime` or `DuckDBDate`. -/
def temporalValue : TemporalValue → Value
  | .timestamp micros => .scalar (scalarOf .timestamp rfl) (.int micros)
  | .time micros => .scalar (scalarOf .time rfl) (.int micros)
  | .date days => .scalar (scalarOf .date rfl) (.int days.toInt)

/-- `create_value_from_bigdecimal`, as a `Value`. -/
def decimalValue : DecimalValue → Value
  | .null => .null (scalarOf .sqlnull rfl)
  | .decimal unscaled width scale => .scalar (decimalOf width scale) (.int unscaled)

/-- `to_duckdb_value` of a parameter without elements. -/
def ClientContext.scalarValue (context : ClientContext) : ScalarParam → Except ParamError Value
  | .null => .ok (.null (scalarOf .sqlnull rfl))
  | .boolean x => .ok (.scalar (scalarOf .boolean rfl) (.boolean x))
  | .byte x => .ok (.scalar (scalarOf .tinyint rfl) (.int x.toInt))
  | .short x => .ok (.scalar (scalarOf .smallint rfl) (.int x.toInt))
  | .integer x => .ok (.scalar (scalarOf .integer rfl) (.int x.toInt))
  | .long x => .ok (.scalar (scalarOf .bigint rfl) (.int x.toInt))
  | .hugeInt x => .ok (.scalar (scalarOf .hugeint rfl) (.int x.value))
  | .offsetDateTime x =>
    match timestampTZMicros x with
    | some micros => .ok (.scalar (scalarOf .timestampTz rfl) (.int micros))
    | none => .error .unchecked
  | .temporal x =>
    match temporalValueOf context.systemDefault context.resolve x with
    | some v => .ok (temporalValue v)
    | none => .error .unchecked
  | .float bits => .ok (.scalar (scalarOf .float rfl) (.float bits))
  | .double bits => .ok (.scalar (scalarOf .double rfl) (.double bits))
  | .bigDecimal x =>
    match createValueFromBigDecimal context.decimalCast x with
    | .ok v => .ok (decimalValue v)
    | .error _ => .error .sqlException
  | .string x => .ok (.scalar (scalarOf .varchar rfl) (.string x))
  | .byteArray x => .ok (.scalar (scalarOf .blob rfl) (.blob x))
  | .uuid x => .ok (.scalar (scalarOf .uuid rfl) (.int (createValueFromUuid x).value))
  | .other => .error .sqlException

mutual

/-- `to_duckdb_value` -/
def toDuckdbValue (context : ClientContext) : JavaParam → Except ParamError Value
  | .scalar x => context.scalarValue x
  | .map typeName entries => do
    let type ← context.transform typeName
    let entries ← entryValues context entries
    let childType ← listChildType type
    context.mapValue childType entries
  | .struct typeName attributes => do
    let type ← context.transform typeName
    let values ← attributeValues context type 0 attributes
    context.structValue values
  | .array typeName elements => do
    let type ← context.transform typeName
    let values ← elementValues context elements
    context.listValue type values

/-- The loop of `create_value_from_map`. -/
def entryValues (context : ClientContext) :
    List (JavaParam × JavaParam) → Except ParamError (List Value)
  | [] => .ok []
  | (key, value) :: entries => do
    let key ← toDuckdbValue context key
    let value ← toDuckdbValue context value
    let entry ← context.structValue [("key", key), ("value", value)]
    let entries ← entryValues context entries
    return entry :: entries

/-- The loop of `create_value_from_struct`. -/
def attributeValues (context : ClientContext) (type : LogicalType) (i : ℕ) :
    List JavaParam → Except ParamError (List (String × Value))
  | [] => .ok []
  | jvalue :: jvalues => do
    let child ← structChild type i
    let value ← toDuckdbValue context jvalue
    let values ← attributeValues context type (i + 1) jvalues
    return (child.1, value) :: values

/-- The loop of `create_value_from_array`. -/
def elementValues (context : ClientContext) : List JavaParam → Except ParamError (List Value)
  | [] => .ok []
  | element :: elements => do
    let value ← toDuckdbValue context element
    let values ← elementValues context elements
    return value :: values

end

/-- Induction along the elements. -/
@[elab_as_elim]
theorem JavaParam.ind {P : JavaParam → Prop} (scalar : ∀ x, P (.scalar x))
    (map : ∀ typeName entries, (∀ e ∈ entries, P e.1 ∧ P e.2) → P (.map typeName entries))
    (struct : ∀ typeName attributes, (∀ a ∈ attributes, P a) → P (.struct typeName attributes))
    (array : ∀ typeName elements, (∀ e ∈ elements, P e) → P (.array typeName elements)) :
    ∀ p, P p
  | .scalar x => scalar x
  | .map typeName entries => map typeName entries (indEntries entries)
  | .struct typeName attributes => struct typeName attributes (indList attributes)
  | .array typeName elements => array typeName elements (indList elements)
where
  indList : ∀ ps : List JavaParam, ∀ p ∈ ps, P p
    | [], _, hp => absurd hp List.not_mem_nil
    | p :: ps, q, hq =>
      (List.mem_cons.1 hq).elim (fun e => e ▸ ind scalar map struct array p) (indList ps q)
  indEntries : ∀ es : List (JavaParam × JavaParam), ∀ e ∈ es, P e.1 ∧ P e.2
    | [], _, he => absurd he List.not_mem_nil
    | (k, v) :: es, e, he =>
      (List.mem_cons.1 he).elim
        (fun h => h ▸ ⟨ind scalar map struct array k, ind scalar map struct array v⟩)
        (indEntries es e)

/-! ## Casts -/

theorem zip_fields (fields : List (String × LogicalType)) :
    (fields.map Prod.fst).zip (fields.map Prod.snd) = fields := by
  rw [← List.unzip_fst, ← List.unzip_snd, List.zip_unzip]

theorem structChildTypes_structOf (fields : List (String × LogicalType)) :
    structChildTypes (structOf fields) = .ok fields := congrArg Except.ok (zip_fields fields)

theorem structOf_inj {f g : List (String × LogicalType)} (h : structOf f = structOf g) : f = g :=
  Except.ok.inj ((structChildTypes_structOf f).symm.trans
    ((congrArg structChildTypes h).trans (structChildTypes_structOf g)))

section
variable {context : ClientContext}

theorem defaultCastAs_self (v : Value) : context.defaultCastAs v v.type = .ok v := by
  unfold ClientContext.defaultCastAs
  split
  · rfl
  · rw [if_pos rfl]

/-- A cast value is of the type, unless every value is. -/
theorem defaultCastAs_again {v w : Value} {type : LogicalType}
    (h : context.defaultCastAs v type = .ok w) : context.defaultCastAs w type = .ok w := by
  unfold ClientContext.defaultCastAs at h ⊢
  split
  · rfl
  · next hany =>
    rw [if_neg hany] at h
    suffices hw : w.type = type by rw [if_pos hw]
    split at h
    · next hv =>
      cases h
      exact hv
    · split at h
      · next hcast =>
        cases h
        exact context.tryCast_type hcast
      · cases h

theorem castEach_types (vs : List Value) :
    context.castEach (vs.map Value.type) vs = .ok vs := by
  induction vs with
  | nil => rfl
  | cons v vs ih =>
    rw [List.map_cons, ClientContext.castEach, defaultCastAs_self, ih]
    rfl

/-- An untyped struct keeps its values. -/
theorem structValue_eq (values : List (String × Value)) :
    context.structValue values =
      .ok (.nested (structOf (values.map fun v => (v.1, v.2.type))) (values.map Prod.snd)) := by
  have htypes : (values.map fun v => (v.1, v.2.type)).map Prod.snd =
      (values.map Prod.snd).map Value.type := by
    rw [List.map_map, List.map_map]
    rfl
  rw [ClientContext.structValue, ClientContext.typedStruct, htypes, castEach_types]
  rfl

/-- The entry of a map, before its cast. -/
def pairEntry (p : Value × Value) : Value :=
  .nested (structOf (entryFields p.1.type p.2.type)) [p.1, p.2]

/-- An entry whose key is cast already. -/
theorem typedStruct_entry {key value v : Value} {keyType valueType : LogicalType}
    (hkey : context.defaultCastAs key keyType = .ok key)
    (h : context.typedStruct (entryFields keyType valueType) [key, value] = .ok v) :
    ∃ w, context.defaultCastAs value valueType = .ok w ∧
      v = .nested (structOf (entryFields keyType valueType)) [key, w] := by
  obtain ⟨children, hcast, hv⟩ := Except.bind_eq_ok.1 h
  obtain ⟨k, hk, hcast⟩ := Except.bind_eq_ok.1 hcast
  obtain ⟨ws, hws, hcast⟩ := Except.bind_eq_ok.1 hcast
  obtain ⟨w, hw, hws⟩ := Except.bind_eq_ok.1 hws
  rw [hkey] at hk
  cases hk
  cases hws
  cases hcast
  cases hv
  exact ⟨w, hw, rfl⟩

/-! ## Exceptions -/

/-- No exception but an `SQLException`. -/
def OnlySql {α : Type} (x : Except ParamError α) : Prop := ∀ e, x = .error e → e = .sqlException

section
variable {α β : Type}

theorem OnlySql.ok (a : α) : OnlySql (.ok a) := fun _ h => by cases h

theorem OnlySql.sql : OnlySql (.error .sqlException : Except ParamError α) := fun _ h => by
  cases h
  rfl

theorem OnlySql.bind {x : Except ParamError α} {f : α → Except ParamError β} (hx : OnlySql x)
    (hf : ∀ a, x = .ok a → OnlySql (f a)) : OnlySql (x >>= f) := by
  cases x with
  | ok a => exact hf a rfl
  | error e =>
    intro e' h
    cases h
    exact hx e rfl

theorem OnlySql.mapM {f : α → Except ParamError β} {xs : List α} (h : ∀ x ∈ xs, OnlySql (f x)) :
    OnlySql (xs.mapM f) := by
  induction xs with
  | nil => exact .ok _
  | cons x xs ih =>
    rw [List.mapM_cons]
    exact (h x List.mem_cons_self).bind fun y _ =>
      (ih fun z hz => h z (List.mem_cons_of_mem x hz)).bind fun ys _ => .ok _

end

theorem onlySql_defaultCastAs (v : Value) (type : LogicalType) :
    OnlySql (context.defaultCastAs v type) := by
  unfold ClientContext.defaultCastAs
  split
  · exact .ok _
  · split
    · exact .ok _
    · split
      · exact .ok _
      · exact .sql

theorem onlySql_castEach : ∀ ts vs, OnlySql (context.castEach ts vs)
  | [], [] => .ok _
  | _ :: _, [] => .ok _
  | [], _ :: _ => .sql
  | t :: ts, v :: vs => (onlySql_defaultCastAs v t).bind fun _ _ =>
      (onlySql_castEach ts vs).bind fun _ _ => .ok _

theorem onlySql_mapKeyCheck (uniqueKeys : List Value) (key : Value) :
    OnlySql (context.mapKeyCheck uniqueKeys key) := by
  unfold ClientContext.mapKeyCheck
  split
  · exact .sql
  · split
    · exact .sql
    · exact .ok _

theorem onlySql_child (v : Value) (i : ℕ) : OnlySql (ClientContext.child v i) := by
  unfold ClientContext.child
  split
  · exact .ok _
  · exact .sql

theorem onlySql_mapEntries : ∀ vs uniqueKeys, OnlySql (context.mapEntries uniqueKeys vs)
  | [], _ => .ok _
  | v :: vs, uniqueKeys => (onlySql_child v 0).bind fun key _ =>
      (onlySql_mapKeyCheck uniqueKeys key).bind fun uniqueKeys _ =>
        (onlySql_child v 1).bind fun _ _ =>
          (onlySql_mapEntries vs uniqueKeys).bind fun _ _ => .ok _

theorem onlySql_castEntries (keyType valueType : LogicalType) :
    ∀ entries uniqueKeys, OnlySql (context.castEntries keyType valueType uniqueKeys entries)
  | [], _ => .ok _
  | (key, _) :: entries, uniqueKeys => (onlySql_defaultCastAs key keyType).bind fun key _ =>
      (onlySql_mapKeyCheck uniqueKeys key).bind fun uniqueKeys _ =>
        ((onlySql_castEach _ _).bind fun _ _ => .ok _).bind fun _ _ =>
          (onlySql_castEntries keyType valueType entries uniqueKeys).bind fun _ _ => .ok _

end

end DuckDBJava.Params
