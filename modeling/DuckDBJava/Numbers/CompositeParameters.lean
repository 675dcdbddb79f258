/-
  The types of composite parameters.

  The conversion goes through a parameter in order.  `Accepted` says that nothing in it is refused,
  and `Broken` that a date-time out of range, or type information that is read as that of another
  kind, comes before anything that is refused with an `SQLException`.

  **`composite_parameters_iff`**: a map and an array get their declared type, with each element
  cast to its own.  A struct takes the names of its declared fields and the types of its Java
  attributes, so it is of its declared type only where these are the declared ones.
-/
import DuckDBJava.Numbers.CompositeValues

namespace DuckDBJava.Params

open Exec Calendar

/-! ## What a declaration says -/

section
variable (context : ClientContext)

/-- The engine's cast of a converted element. -/
def CastOf (p : JavaParam) (type : LogicalType) (v : Value) : Prop :=
  ∃ x, toDuckdbValue context p = .ok x ∧ context.defaultCastAs x type = .ok v

/-- An entry of a map, its key and value cast. -/
def EntryOf (keyType valueType : LogicalType) (entry : JavaParam × JavaParam) (v : Value) : Prop :=
  ∃ key value, CastOf context entry.1 keyType key ∧ CastOf context entry.2 valueType value ∧
    v = .nested (structOf (entryFields keyType valueType)) [key, value]

/-- The value is of the declared type, with an element for each of the parameter, cast to the
    declared type of the element. -/
def Declared : JavaParam → Value → Prop
  | .scalar _, _ => True
  | .map typeName entries, v => ∃ keyType valueType children,
      context.transformStringToLogicalType typeName = some (mapOf keyType valueType) ∧
        v = .nested (mapOf keyType valueType) children ∧
        List.Forall₂ (EntryOf context keyType valueType) entries children
  | .struct typeName attributes, v => ∃ fields children,
      context.transformStringToLogicalType typeName = some (structOf fields) ∧
        v = .nested (structOf fields) children ∧ attributes.length = fields.length ∧
        List.Forall₂ (fun x c => CastOf context x.1 x.2 c)
          (attributes.zip (fields.map Prod.snd)) children
  | .array typeName elements, v => ∃ type children,
      context.transformStringToLogicalType typeName = some type ∧
        v = .nested (.listOf type) children ∧
        List.Forall₂ (fun e c => CastOf context e type c) elements children

/-- The conversion gives what the declaration says, or throws an `SQLException`. -/
def AsClaimed (p : JavaParam) : Prop :=
  match toDuckdbValue context p with
  | .ok v => Declared context p v
  | .error e => e = .sqlException

end

/-! ## What parameters stand for -/

/-- The type that a name stands for. -/
def ClientContext.typeOf (context : ClientContext) (typeName : String) : LogicalType :=
  (context.transformStringToLogicalType typeName).getD (scalarOf .sqlnull (.refl true))

/-- The cast of a value, where there is one. -/
def ClientContext.castTo (context : ClientContext) (type : LogicalType) (v : Value) : Value :=
  (context.defaultCastAs v type).toOption.getD v

/-- The value has a cast to the type. -/
def ClientContext.Casts (context : ClientContext) (v : Value) (type : LogicalType) : Prop :=
  ∃ w, context.defaultCastAs v type = .ok w

/-- No key is NULL, or equal to one before it. -/
def ClientContext.KeysFit (context : ClientContext) (uniqueKeys : List Value) : List Value → Prop
  | [] => True
  | key :: keys =>
    (key.isNull = false ∧ ∀ other ∈ uniqueKeys, context.keyEquals key other = false) ∧
      context.KeysFit (key :: uniqueKeys) keys

/-- The types of the keys and of the values of a map. -/
def mapTypes (type : LogicalType) : Except ParamError (LogicalType × LogicalType) := do
  let child ← listChildType type
  let keyType ← structChild child 0
  let valueType ← structChild child 1
  return (keyType.2, valueType.2)

/-- The names of the fields of a type that has fields. -/
def fieldNames (type : LogicalType) : List String :=
  ((structChildTypes type).toOption.getD []).map Prod.fst

/-- An entry of a map, its key and value cast. -/
def ClientContext.castEntry (context : ClientContext) (keyType valueType : LogicalType)
    (p : Value × Value) : Value :=
  .nested (structOf (entryFields keyType valueType))
    [context.castTo keyType p.1, context.castTo valueType p.2]

mutual

/-- The value that a parameter stands for, whatever may be refused on the way. -/
def paramValue (context : ClientContext) : JavaParam → Value
  | .scalar x => (context.scalarValue x).toOption.getD (.null (scalarOf .sqlnull (.refl true)))
  | .map typeName entries =>
    match mapTypes (context.typeOf typeName) with
    | .ok (keyType, valueType) =>
      .nested (mapOf keyType valueType)
        ((paramPairs context entries).map (context.castEntry keyType valueType))
    | .error _ => .null (scalarOf .sqlnull (.refl true))
  | .struct typeName attributes =>
    let values := paramValues context attributes
    .nested (structOf ((fieldNames (context.typeOf typeName)).zip (values.map Value.type))) values
  | .array typeName elements =>
    .nested (.listOf (context.typeOf typeName))
      ((paramValues context elements).map (context.castTo (context.typeOf typeName)))

def paramValues (context : ClientContext) : List JavaParam → List Value
  | [] => []
  | p :: ps => paramValue context p :: paramValues context ps

def paramPairs (context : ClientContext) : List (JavaParam × JavaParam) → List (Value × Value)
  | [] => []
  | (key, value) :: entries =>
    (paramValue context key, paramValue context value) :: paramPairs context entries

end

theorem paramValues_eq (context : ClientContext) :
    ∀ ps, paramValues context ps = ps.map (paramValue context)
  | [] => rfl
  | p :: ps => congrArg (paramValue context p :: ·) (paramValues_eq context ps)

theorem paramPairs_eq (context : ClientContext) : ∀ entries, paramPairs context entries =
    entries.map fun e => (paramValue context e.1, paramValue context e.2)
  | [] => rfl
  | (key, value) :: entries =>
    congrArg ((paramValue context key, paramValue context value) :: ·)
      (paramPairs_eq context entries)

/-! ## What is refused -/

section
variable (context : ClientContext)

/-- The conversion to a count of the epoch does not overflow. -/
def ScalarParam.InRange : ScalarParam → Prop
  | .offsetDateTime x => timestampTZMicros x ≠ none
  | .temporal x => temporalValueOf context.systemDefault context.resolve x ≠ none
  | _ => True

/-- A scalar is of a class that is supported, and is not refused. -/
def ScalarParam.Accepted : ScalarParam → Prop
  | .bigDecimal x => ∃ d, createValueFromBigDecimal context.decimalCast x = .ok d
  | .other => False
  | x => x.InRange context

/-- Nothing in the parameter is refused: the type names are known and of the right kind, there is a
    field for every attribute, keys are neither NULL nor equal, and the casts succeed. -/
inductive Accepted : JavaParam → Prop
  | scalar {x} : ScalarParam.Accepted context x → Accepted (.scalar x)
  | map {typeName entries type keyType valueType} :
      context.transformStringToLogicalType typeName = some type →
      mapTypes type = .ok (keyType, valueType) →
      (∀ e ∈ entries, Accepted e.1) → (∀ e ∈ entries, Accepted e.2) →
      context.KeysFit [] (entries.map fun e => paramValue context e.1) →
      (∀ e ∈ entries, context.Casts (paramValue context e.1) keyType) →
      (∀ e ∈ entries, context.Casts (paramValue context e.2) valueType) →
      context.KeysFit [] (entries.map fun e => context.castTo keyType (paramValue context e.1)) →
      Accepted (.map typeName entries)
  | struct {typeName attributes type} :
      context.transformStringToLogicalType typeName = some type →
      (∀ i < attributes.length, ∃ child, structChild type i = .ok child) →
      (∀ a ∈ attributes, Accepted a) → Accepted (.struct typeName attributes)
  | array {typeName elements type} :
      context.transformStringToLogicalType typeName = some type →
      (∀ e ∈ elements, Accepted e) →
      (∀ e ∈ elements, context.Casts (paramValue context e) type) →
      Accepted (.array typeName elements)

/-- A date-time out of the range of `java.time`, or type information that is read as that of another
    kind, comes before anything that is refused. -/
inductive Broken : JavaParam → Prop
  | scalar {x} : ¬ ScalarParam.InRange context x → Broken (.scalar x)
  | key {typeName type done key value rest} :
      context.transformStringToLogicalType typeName = some type →
      (∀ e ∈ done, Accepted context e.1 ∧ Accepted context e.2) → Broken key →
      Broken (.map typeName (done ++ (key, value) :: rest))
  | value {typeName type done key value rest} :
      context.transformStringToLogicalType typeName = some type →
      (∀ e ∈ done, Accepted context e.1 ∧ Accepted context e.2) → Accepted context key →
      Broken value → Broken (.map typeName (done ++ (key, value) :: rest))
  /-- the map's type is no MAP, and no plain type -/
  | mapKind {typeName type entries} :
      context.transformStringToLogicalType typeName = some type →
      (∀ e ∈ entries, Accepted context e.1 ∧ Accepted context e.2) →
      listChildType type = .error .undefined → Broken (.map typeName entries)
  /-- the elements of the map's type are no STRUCT, and of no plain type -/
  | entryKind {typeName type child entries} :
      context.transformStringToLogicalType typeName = some type →
      (∀ e ∈ entries, Accepted context e.1 ∧ Accepted context e.2) →
      context.KeysFit [] (entries.map fun e => paramValue context e.1) →
      listChildType type = .ok child → structChildTypes child = .error .undefined →
      Broken (.map typeName entries)
  /-- the struct's type is no STRUCT, and no plain type -/
  | structKind {typeName type a rest} :
      context.transformStringToLogicalType typeName = some type →
      structChildTypes type = .error .undefined → Broken (.struct typeName (a :: rest))
  | field {typeName type child done a rest} :
      context.transformStringToLogicalType typeName = some type →
      (∀ b ∈ done, Accepted context b) → structChild type done.length = .ok child → Broken a →
      Broken (.struct typeName (done ++ a :: rest))
  | element {typeName type done e rest} :
      context.transformStringToLogicalType typeName = some type →
      (∀ b ∈ done, Accepted context b) → Broken e → Broken (.array typeName (done ++ e :: rest))

end

/-! ## Types of parameters -/

/-- The type a scalar is converted to. -/
def ScalarParam.type : ScalarParam → LogicalType
  | .null | .other => scalarOf .sqlnull (.refl true)
  | .boolean _ => scalarOf .boolean (.refl true)
  | .byte _ => scalarOf .tinyint (.refl true)
  | .short _ => scalarOf .smallint (.refl true)
  | .integer _ => scalarOf .integer (.refl true)
  | .long _ => scalarOf .bigint (.refl true)
  | .hugeInt _ => scalarOf .hugeint (.refl true)
  | .offsetDateTime _ => scalarOf .timestampTz (.refl true)
  | .temporal (.sqlTimestamp _) | .temporal (.localDateTime _) => scalarOf .timestamp (.refl true)
  | .temporal (.sqlTime _) | .temporal (.localTime _) => scalarOf .time (.refl true)
  | .temporal (.sqlDate _) | .temporal (.localDate _) => scalarOf .date (.refl true)
  | .float _ => scalarOf .float (.refl true)
  | .double _ => scalarOf .double (.refl true)
  | .bigDecimal x =>
    if x.width ≤ 38 then decimalOf x.width x.scale.toNat else scalarOf .sqlnull (.refl true)
  | .string _ => scalarOf .varchar (.refl true)
  | .byteArray _ => scalarOf .blob (.refl true)
  | .uuid _ => scalarOf .uuid (.refl true)

mutual

/-- The type of a parameter: that of its class, and for a struct the declared names with the types
    of the attributes. -/
def paramType (context : ClientContext) : JavaParam → LogicalType
  | .scalar x => x.type
  | .map typeName _ =>
    match mapTypes (context.typeOf typeName) with
    | .ok (keyType, valueType) => mapOf keyType valueType
    | .error _ => scalarOf .sqlnull (.refl true)
  | .struct typeName attributes =>
    structOf ((fieldNames (context.typeOf typeName)).zip (paramTypes context attributes))
  | .array typeName _ => .listOf (context.typeOf typeName)

def paramTypes (context : ClientContext) : List JavaParam → List LogicalType
  | [] => []
  | p :: ps => paramType context p :: paramTypes context ps

end

theorem paramTypes_eq (context : ClientContext) :
    ∀ ps, paramTypes context ps = ps.map (paramType context)
  | [] => rfl
  | p :: ps => congrArg (paramType context p :: ·) (paramTypes_eq context ps)

/-- The declared type is a MAP for a map and a STRUCT for a struct, and the attributes of the struct
    are of the types of its fields. -/
def TypesAgree (context : ClientContext) : JavaParam → Prop
  | .map typeName _ => ∃ keyType valueType,
      context.transformStringToLogicalType typeName = some (mapOf keyType valueType)
  | .struct typeName attributes => ∃ fields,
      context.transformStringToLogicalType typeName = some (structOf fields) ∧
        attributes.map (paramType context) = fields.map Prod.snd
  | _ => True

/-! ## Keys and casts -/

section
variable {context : ClientContext}

theorem transform_eq {typeName : String} {type : LogicalType}
    (h : context.transformStringToLogicalType typeName = some type) :
    context.transform typeName = .ok type := by
  rw [ClientContext.transform, h]

theorem transform_none {typeName : String}
    (h : context.transformStringToLogicalType typeName = none) :
    context.transform typeName = .error .sqlException := by
  rw [ClientContext.transform, h]

theorem typeOf_eq {typeName : String} {type : LogicalType}
    (h : context.transformStringToLogicalType typeName = some type) :
    context.typeOf typeName = type := by
  rw [ClientContext.typeOf, h, Option.getD_some]

theorem castTo_eq {v w : Value} {type : LogicalType} (h : context.defaultCastAs v type = .ok w) :
    context.castTo type v = w := by
  rw [ClientContext.castTo, h]
  rfl

theorem ClientContext.Casts.eq {v : Value} {type : LogicalType} (h : context.Casts v type) :
    context.defaultCastAs v type = .ok (context.castTo type v) := by
  obtain ⟨w, hw⟩ := h
  rw [castTo_eq hw, hw]

theorem mapKeyCheck_eq_ok {key : Value} {uniqueKeys keys : List Value} :
    context.mapKeyCheck uniqueKeys key = .ok keys ↔
      (key.isNull = false ∧ ∀ other ∈ uniqueKeys, context.keyEquals key other = false) ∧
        keys = key :: uniqueKeys := by
  have hany : uniqueKeys.any (context.keyEquals key) = false ↔
      ∀ other ∈ uniqueKeys, context.keyEquals key other = false := by
    simp only [List.any_eq_false, Bool.not_eq_true]
  rw [ClientContext.mapKeyCheck, ← hany]
  cases key.isNull with
  | true => simp
  | false =>
    cases uniqueKeys.any (context.keyEquals key) with
    | true => simp
    | false => simp [eq_comm]

/-- The first loop of `Value::MAP` passes iff the keys fit. -/
theorem mapEntries_eq_ok {pairs : List (Value × Value)} {uniqueKeys : List Value} :
    context.mapEntries uniqueKeys (pairs.map pairEntry) = .ok pairs ↔
      context.KeysFit uniqueKeys (pairs.map Prod.fst) := by
  induction pairs generalizing uniqueKeys with
  | nil => exact iff_of_true rfl trivial
  | cons p pairs ih =>
    rw [List.map_cons, List.map_cons, ClientContext.KeysFit, ← ih]
    constructor
    · intro h
      obtain ⟨key, hkey, h⟩ := Except.bind_eq_ok.1 h
      cases hkey
      obtain ⟨keys, hkeys, h⟩ := Except.bind_eq_ok.1 h
      obtain ⟨hfit, rfl⟩ := mapKeyCheck_eq_ok.1 hkeys
      obtain ⟨value, hvalue, h⟩ := Except.bind_eq_ok.1 h
      cases hvalue
      obtain ⟨rest, hrest, h⟩ := Except.bind_eq_ok.1 h
      cases h
      exact ⟨hfit, hrest⟩
    · rintro ⟨hfit, hrest⟩
      refine Except.bind_eq_ok.2 ⟨p.1, rfl, Except.bind_eq_ok.2
        ⟨_, mapKeyCheck_eq_ok.2 ⟨hfit, rfl⟩, ?_⟩⟩
      exact Except.bind_eq_ok.2 ⟨p.2, rfl, Except.bind_eq_ok.2 ⟨pairs, hrest, rfl⟩⟩

theorem typedStruct_of {keyType valueType : LogicalType} {p : Value × Value}
    (hkey : context.Casts p.1 keyType) (hvalue : context.Casts p.2 valueType) :
    context.typedStruct (entryFields keyType valueType) [context.castTo keyType p.1, p.2] =
      .ok (context.castEntry keyType valueType p) := by
  refine Except.bind_eq_ok.2 ⟨[context.castTo keyType p.1, context.castTo valueType p.2], ?_, rfl⟩
  refine Except.bind_eq_ok.2 ⟨_, defaultCastAs_again hkey.eq, Except.bind_eq_ok.2 ⟨_, ?_, rfl⟩⟩
  exact Except.bind_eq_ok.2 ⟨_, hvalue.eq, rfl⟩

/-- The second loop passes iff the casts succeed and the keys still fit. -/
theorem castEntries_eq_ok {pairs : List (Value × Value)} {keyType valueType : LogicalType}
    {uniqueKeys vs : List Value} :
    context.castEntries keyType valueType uniqueKeys pairs = .ok vs ↔
      ((∀ p ∈ pairs, context.Casts p.1 keyType) ∧ (∀ p ∈ pairs, context.Casts p.2 valueType) ∧
        context.KeysFit uniqueKeys (pairs.map fun p => context.castTo keyType p.1)) ∧
      vs = pairs.map (context.castEntry keyType valueType) := by
  induction pairs generalizing uniqueKeys vs with
  | nil =>
    constructor
    · intro h
      cases h
      exact ⟨⟨nofun, nofun, trivial⟩, rfl⟩
    · rintro ⟨-, rfl⟩
      rfl
  | cons p pairs ih =>
    rw [List.map_cons, List.map_cons, ClientContext.KeysFit, List.forall_mem_cons,
      List.forall_mem_cons]
    constructor
    · intro h
      obtain ⟨key, hkey, h⟩ := Except.bind_eq_ok.1 h
      obtain ⟨keys, hkeys, h⟩ := Except.bind_eq_ok.1 h
      obtain ⟨entry, hentry, h⟩ := Except.bind_eq_ok.1 h
      obtain ⟨rest, hrest, h⟩ := Except.bind_eq_ok.1 h
      cases h
      obtain ⟨hfit, rfl⟩ := mapKeyCheck_eq_ok.1 hkeys
      obtain ⟨value, hvalue, rfl⟩ := typedStruct_entry (defaultCastAs_again hkey) hentry
      obtain ⟨⟨hks, hvs, hfits⟩, rfl⟩ := ih.1 hrest
      rw [ClientContext.castEntry, castTo_eq hkey, castTo_eq hvalue]
      exact ⟨⟨⟨⟨key, hkey⟩, hks⟩, ⟨⟨value, hvalue⟩, hvs⟩, hfit, hfits⟩, rfl⟩
    · rintro ⟨⟨⟨hkey, hks⟩, ⟨hvalue, hvs⟩, hfit, hfits⟩, rfl⟩
      have hrest := ih.2 ⟨⟨hks, hvs, hfits⟩, rfl⟩
      refine Except.bind_eq_ok.2 ⟨_, hkey.eq, Except.bind_eq_ok.2
        ⟨_, mapKeyCheck_eq_ok.2 ⟨hfit, rfl⟩, ?_⟩⟩
      exact Except.bind_eq_ok.2 ⟨_, typedStruct_of hkey hvalue, Except.bind_eq_ok.2
        ⟨_, hrest, rfl⟩⟩

/-! ## The conversion of what is accepted -/

theorem scalarValue_of {x : ScalarParam} (h : ScalarParam.Accepted context x) :
    ∃ v, context.scalarValue x = .ok v := by
  cases x with
  | offsetDateTime x =>
    obtain ⟨micros, hmicros⟩ := Option.ne_none_iff_exists'.1 h
    rw [ClientContext.scalarValue, hmicros]
    exact ⟨_, rfl⟩
  | temporal x =>
    obtain ⟨v, hv⟩ := Option.ne_none_iff_exists'.1 h
    rw [ClientContext.scalarValue, hv]
    exact ⟨_, rfl⟩
  | bigDecimal x =>
    obtain ⟨d, hd⟩ := h
    rw [ClientContext.scalarValue, hd]
    exact ⟨_, rfl⟩
  | other => cases h
  | _ => exact ⟨_, rfl⟩

theorem elementValues_eq (elements : List JavaParam) :
    elementValues context elements = elements.mapM (toDuckdbValue context) := by
  induction elements with
  | nil => rfl
  | cons e es ih => rw [elementValues, List.mapM_cons, ih]

theorem entryValues_of {entries : List (JavaParam × JavaParam)}
    (hkeys : ∀ e ∈ entries, toDuckdbValue context e.1 = .ok (paramValue context e.1))
    (hvalues : ∀ e ∈ entries, toDuckdbValue context e.2 = .ok (paramValue context e.2)) :
    entryValues context entries = .ok ((paramPairs context entries).map pairEntry) := by
  induction entries with
  | nil => rfl
  | cons e entries ih =>
    obtain ⟨hkey, hkeys⟩ := List.forall_mem_cons.1 hkeys
    obtain ⟨hvalue, hvalues⟩ := List.forall_mem_cons.1 hvalues
    refine Except.bind_eq_ok.2 ⟨_, hkey, Except.bind_eq_ok.2 ⟨_, hvalue, ?_⟩⟩
    exact Except.bind_eq_ok.2 ⟨_, structValue_eq _, Except.bind_eq_ok.2
      ⟨_, ih hkeys hvalues, rfl⟩⟩

/-- `structChild` takes the type for one with fields, and checks the index. -/
theorem structChild_eq_ok {type : LogicalType} {i : ℕ} {child : String × LogicalType} :
    structChild type i = .ok child ↔
      ∃ fields, structChildTypes type = .ok fields ∧ fields[i]? = some child := by
  rw [structChild, Except.bind_eq_ok]
  refine exists_congr fun fields => and_congr_right fun _ => ?_
  cases fields[i]? with
  | none => simp
  | some c => simp

theorem attributeValues_of {type : LogicalType} {fields : List (String × LogicalType)}
    (hfields : structChildTypes type = .ok fields) {attributes : List JavaParam} {i : ℕ}
    (hlen : attributes.length ≤ (fields.drop i).length)
    (h : ∀ a ∈ attributes, toDuckdbValue context a = .ok (paramValue context a)) :
    attributeValues context type i attributes =
      .ok (((fields.drop i).map Prod.fst).zip (paramValues context attributes)) := by
  induction attributes generalizing i with
  | nil =>
    rw [paramValues, List.zip_nil_right]
    rfl
  | cons a attributes ih =>
    obtain ⟨ha, hattributes⟩ := List.forall_mem_cons.1 h
    rw [List.length_drop, List.length_cons] at hlen
    have hi : i < fields.length := by omega
    have hrest := ih (i := i + 1) (by rw [List.length_drop]; omega) hattributes
    have hchild : structChild type i = .ok fields[i] :=
      structChild_eq_ok.2 ⟨fields, hfields, List.getElem?_eq_getElem hi⟩
    refine Except.bind_eq_ok.2 ⟨_, hchild, Except.bind_eq_ok.2 ⟨_, ha, Except.bind_eq_ok.2
      ⟨_, hrest, ?_⟩⟩⟩
    rw [List.drop_eq_getElem_cons hi, paramValues, List.map_cons, List.zip_cons_cons]
    rfl

/-- `Value::MAP` on entries whose keys fit and whose casts succeed. -/
theorem mapValue_of {child : LogicalType} {keyType valueType : String × LogicalType}
    (hkey : structChild child 0 = .ok keyType) (hvalue : structChild child 1 = .ok valueType)
    {pairs : List (Value × Value)} (hkeys : context.KeysFit [] (pairs.map Prod.fst))
    (hcasts : (∀ p ∈ pairs, context.Casts p.1 keyType.2) ∧
      (∀ p ∈ pairs, context.Casts p.2 valueType.2) ∧
      context.KeysFit [] (pairs.map fun p => context.castTo keyType.2 p.1)) :
    context.mapValue child (pairs.map pairEntry) =
      .ok (.nested (mapOf keyType.2 valueType.2)
        (pairs.map (context.castEntry keyType.2 valueType.2))) := by
  refine Except.bind_eq_ok.2 ⟨pairs, mapEntries_eq_ok.2 hkeys, Except.bind_eq_ok.2
    ⟨keyType, hkey, Except.bind_eq_ok.2 ⟨valueType, hvalue, ?_⟩⟩⟩
  exact Except.bind_eq_ok.2 ⟨_, castEntries_eq_ok.2 ⟨hcasts, rfl⟩, rfl⟩

/-- The types of a map are those of the elements of its type. -/
theorem mapTypes_eq_ok {type keyType valueType : LogicalType} :
    mapTypes type = .ok (keyType, valueType) ↔ ∃ child key value,
      listChildType type = .ok child ∧ structChild child 0 = .ok (key, keyType) ∧
        structChild child 1 = .ok (value, valueType) := by
  constructor
  · intro h
    obtain ⟨child, hchild, h⟩ := Except.bind_eq_ok.1 h
    obtain ⟨⟨key, keyType'⟩, hkey, h⟩ := Except.bind_eq_ok.1 h
    obtain ⟨⟨value, valueType'⟩, hvalue, h⟩ := Except.bind_eq_ok.1 h
    cases h
    exact ⟨child, key, value, hchild, hkey, hvalue⟩
  · rintro ⟨child, key, value, hchild, hkey, hvalue⟩
    exact Except.bind_eq_ok.2 ⟨child, hchild, Except.bind_eq_ok.2 ⟨_, hkey,
      Except.bind_eq_ok.2 ⟨_, hvalue, rfl⟩⟩⟩

theorem mapTypes_mapOf (keyType valueType : LogicalType) :
    mapTypes (mapOf keyType valueType) = .ok (keyType, valueType) := rfl

/-- An accepted parameter is converted to what it stands for. -/
theorem Accepted.converts {p : JavaParam} (h : Accepted context p) :
    toDuckdbValue context p = .ok (paramValue context p) := by
  induction h with
  | @scalar x hx =>
    obtain ⟨v, hv⟩ := scalarValue_of hx
    rw [toDuckdbValue, paramValue, hv]
    rfl
  | @map typeName entries type keyType valueType htype hmap _ _ hkeys hks hvs hfits ihk ihv =>
    obtain ⟨child, key, value, hchild, hkey, hvalue⟩ := mapTypes_eq_ok.1 hmap
    rw [paramValue, typeOf_eq htype, hmap]
    refine Except.bind_eq_ok.2 ⟨type, transform_eq htype, Except.bind_eq_ok.2
      ⟨_, entryValues_of ihk ihv, Except.bind_eq_ok.2 ⟨child, hchild, ?_⟩⟩⟩
    rw [paramPairs_eq]
    refine mapValue_of hkey hvalue ?_ ⟨?_, ?_, ?_⟩
    · rw [List.map_map]
      exact hkeys
    · rw [List.forall_mem_map]
      exact hks
    · rw [List.forall_mem_map]
      exact hvs
    · rw [List.map_map]
      exact hfits
  | @struct typeName attributes type htype hfields _ ih =>
    rw [paramValue, typeOf_eq htype]
    cases attributes with
    | nil =>
      refine Except.bind_eq_ok.2 ⟨type, transform_eq htype, ?_⟩
      show context.structValue [] = _
      rw [structValue_eq]
      show _ = Except.ok (Value.nested (structOf ((fieldNames type).zip [])) [])
      rw [List.zip_nil_right]
      rfl
    | cons a rest =>
      obtain ⟨child, hchild⟩ := hfields rest.length (Nat.lt_succ_self _)
      obtain ⟨fields, hstruct, hget⟩ := structChild_eq_ok.1 hchild
      have hlen : (a :: rest).length ≤ (fields.drop 0).length :=
        (List.getElem?_eq_some_iff.1 hget).1
      refine Except.bind_eq_ok.2 ⟨type, transform_eq htype, Except.bind_eq_ok.2
        ⟨_, attributeValues_of hstruct hlen ih, ?_⟩⟩
      have hvalues : (paramValues context (a :: rest)).length ≤ (fields.map Prod.fst).length := by
        rw [paramValues_eq, List.length_map, List.length_map]
        exact hlen
      rw [structValue_eq, List.drop_zero, List.map_snd_zip hvalues, fieldNames, hstruct,
        List.zip_map_right]
      rfl
  | @array typeName elements type htype _ hcasts ih =>
    rw [paramValue, typeOf_eq htype, paramValues_eq]
    refine Except.bind_eq_ok.2 ⟨type, transform_eq htype, Except.bind_eq_ok.2
      ⟨elements.map (paramValue context), ?_, Except.bind_eq_ok.2 ⟨_, ?_, rfl⟩⟩⟩
    · rw [elementValues_eq]
      exact mapM_of_forall ih
    · refine mapM_of_forall ?_
      rw [List.forall_mem_map]
      exact fun e he => (hcasts e he).eq

/-! ## The conversion of what is broken -/

theorem scalarValue_of_not_inRange {x : ScalarParam} (h : ¬ ScalarParam.InRange context x) :
    context.scalarValue x = .error .unchecked := by
  cases x with
  | offsetDateTime x => rw [ClientContext.scalarValue, not_not.1 h]
  | temporal x => rw [ClientContext.scalarValue, not_not.1 h]
  | _ => exact absurd trivial h

/-- The entries up to one that cannot be converted. -/
theorem entryValues_error {done rest : List (JavaParam × JavaParam)} {key value : JavaParam}
    {e : ParamError} (hdone : ∀ x ∈ done, Accepted context x.1 ∧ Accepted context x.2)
    (h : (do let _ ← toDuckdbValue context key; toDuckdbValue context value) = .error e) :
    entryValues context (done ++ (key, value) :: rest) = .error e := by
  induction done with
  | nil =>
    rcases Except.bind_eq_error.1 h with hkey | ⟨v, hkey, hvalue⟩
    · exact Except.bind_of_error hkey
    · exact Except.bind_of_ok hkey (Except.bind_of_error hvalue)
  | cons x done ih =>
    obtain ⟨⟨hkey, hvalue⟩, hdone⟩ := List.forall_mem_cons.1 hdone
    refine Except.bind_of_ok hkey.converts (Except.bind_of_ok hvalue.converts ?_)
    exact Except.bind_of_ok (structValue_eq _) (Except.bind_of_error (ih hdone))

/-- The attributes up to one that cannot be converted, or has no field. -/
theorem attributeValues_error {type : LogicalType} {done rest : List JavaParam} {a : JavaParam}
    {i : ℕ} {e : ParamError} (hdone : ∀ b ∈ done, Accepted context b)
    (hfields : ∀ j < done.length, ∃ child, structChild type (i + j) = .ok child)
    (h : (do let _ ← structChild type (i + done.length); toDuckdbValue context a) = .error e) :
    attributeValues context type i (done ++ a :: rest) = .error e := by
  induction done generalizing i with
  | nil =>
    rcases Except.bind_eq_error.1 h with hchild | ⟨child, hchild, ha⟩
    · exact Except.bind_of_error hchild
    · exact Except.bind_of_ok hchild (Except.bind_of_error ha)
  | cons b done ih =>
    obtain ⟨hb, hdone⟩ := List.forall_mem_cons.1 hdone
    obtain ⟨child, hchild⟩ := hfields 0 (Nat.succ_pos _)
    have hlater : ∀ j, i + (j + 1) = i + 1 + j := fun j => by omega
    refine Except.bind_of_ok hchild (Except.bind_of_ok hb.converts (Except.bind_of_error ?_))
    refine ih hdone (fun j hj => ?_) ?_
    · rw [← hlater]
      exact hfields (j + 1) (Nat.succ_lt_succ hj)
    · rwa [← hlater]

/-- The fields before one that there is. -/
theorem structChild_of_le {type : LogicalType} {n : ℕ} {child : String × LogicalType}
    (h : structChild type n = .ok child) {i : ℕ} (hi : i ≤ n) :
    ∃ child, structChild type i = .ok child := by
  obtain ⟨fields, hfields, hget⟩ := structChild_eq_ok.1 h
  have hlt : i < fields.length := by
    have := (List.getElem?_eq_some_iff.1 hget).1
    omega
  exact ⟨_, structChild_eq_ok.2 ⟨fields, hfields, List.getElem?_eq_getElem hlt⟩⟩

theorem elementValues_error {done rest : List JavaParam} {a : JavaParam} {e : ParamError}
    (hdone : ∀ b ∈ done, Accepted context b) (h : toDuckdbValue context a = .error e) :
    elementValues context (done ++ a :: rest) = .error e := by
  rw [elementValues_eq]
  exact mapM_error_of (fun b hb => ⟨_, (hdone b hb).converts⟩) h

/-- The loop of a map whose entries are accepted. -/
theorem Accepted.entryValues {entries : List (JavaParam × JavaParam)}
    (h : ∀ e ∈ entries, Accepted context e.1 ∧ Accepted context e.2) :
    entryValues context entries = .ok ((paramPairs context entries).map pairEntry) :=
  entryValues_of (fun e he => (h e he).1.converts) fun e he => (h e he).2.converts

theorem mapEntries_paramPairs {entries : List (JavaParam × JavaParam)} :
    context.mapEntries [] ((paramPairs context entries).map pairEntry) =
        .ok (paramPairs context entries) ↔
      context.KeysFit [] (entries.map fun e => paramValue context e.1) := by
  rw [mapEntries_eq_ok, paramPairs_eq, List.map_map]
  rfl

/-- A broken parameter ends in another exception. -/
theorem Broken.breaks {p : JavaParam} (h : Broken context p) :
    ∃ e, toDuckdbValue context p = .error e ∧ e ≠ .sqlException := by
  induction h with
  | scalar hx => exact ⟨.unchecked, scalarValue_of_not_inRange hx, nofun⟩
  | key htype hdone _ ih =>
    obtain ⟨e, he, hne⟩ := ih
    refine ⟨e, Except.bind_of_ok (transform_eq htype) (Except.bind_of_error ?_), hne⟩
    exact entryValues_error hdone (Except.bind_of_error he)
  | value htype hdone hkey _ ih =>
    obtain ⟨e, he, hne⟩ := ih
    refine ⟨e, Except.bind_of_ok (transform_eq htype) (Except.bind_of_error ?_), hne⟩
    exact entryValues_error hdone (Except.bind_of_ok hkey.converts he)
  | mapKind htype hentries hkind =>
    refine ⟨.undefined, Except.bind_of_ok (transform_eq htype) ?_, nofun⟩
    exact Except.bind_of_ok (Accepted.entryValues hentries) (Except.bind_of_error hkind)
  | entryKind htype hentries hkeys hchild hkind =>
    refine ⟨.undefined, Except.bind_of_ok (transform_eq htype) ?_, nofun⟩
    refine Except.bind_of_ok (Accepted.entryValues hentries) (Except.bind_of_ok hchild ?_)
    refine Except.bind_of_ok (mapEntries_paramPairs.2 hkeys) (Except.bind_of_error ?_)
    exact Except.bind_of_error hkind
  | structKind htype hkind =>
    refine ⟨.undefined, Except.bind_of_ok (transform_eq htype) (Except.bind_of_error ?_), nofun⟩
    exact Except.bind_of_error (Except.bind_of_error hkind)
  | @field typeName type child done a rest htype hdone hchild _ ih =>
    obtain ⟨e, he, hne⟩ := ih
    refine ⟨e, Except.bind_of_ok (transform_eq htype) (Except.bind_of_error ?_), hne⟩
    refine attributeValues_error hdone (fun j hj => ?_) ?_
    · rw [Nat.zero_add]
      exact structChild_of_le hchild hj.le
    · rw [Nat.zero_add]
      exact Except.bind_of_ok hchild he
  | element htype hdone _ ih =>
    obtain ⟨e, he, hne⟩ := ih
    refine ⟨e, Except.bind_of_ok (transform_eq htype) (Except.bind_of_error ?_), hne⟩
    exact elementValues_error hdone he

/-! ## Accepted, broken or refused -/

theorem OnlySql.refused {α : Type} {x : Except ParamError α} (h : OnlySql x)
    (hno : ¬ ∃ a, x = .ok a) : x = .error .sqlException := by
  cases x with
  | ok a => exact absurd ⟨a, rfl⟩ hno
  | error e => rw [h e rfl]

theorem castInfo_cases (type : LogicalType) :
    castInfo type = .undefined ∨ castInfo type = .sqlException := by
  unfold castInfo
  split
  · exact .inl rfl
  · exact .inr rfl

theorem listChildType_error {type : LogicalType} {e : ParamError}
    (h : listChildType type = .error e) : e = .undefined ∨ e = .sqlException := by
  unfold listChildType at h
  split at h <;> cases h
  exact castInfo_cases _

theorem structChildTypes_error {type : LogicalType} {e : ParamError}
    (h : structChildTypes type = .error e) : e = .undefined ∨ e = .sqlException := by
  unfold structChildTypes at h
  split at h <;> cases h
  exact castInfo_cases _

theorem onlySql_structChild {type : LogicalType} {fields : List (String × LogicalType)}
    (h : structChildTypes type = .ok fields) (i : ℕ) : OnlySql (structChild type i) := by
  rw [structChild, h]
  refine (OnlySql.ok fields).bind fun _ _ => ?_
  split
  · exact .ok _
  · exact .sql

theorem scalar_cases (x : ScalarParam) :
    Accepted context (.scalar x) ∨ Broken context (.scalar x) ∨
      toDuckdbValue context (.scalar x) = .error .sqlException := by
  by_cases hin : ScalarParam.InRange context x
  · cases x with
    | bigDecimal x =>
      cases hd : createValueFromBigDecimal context.decimalCast x with
      | ok d => exact .inl (.scalar ⟨d, hd⟩)
      | error e =>
        refine .inr (.inr ?_)
        rw [toDuckdbValue, ClientContext.scalarValue, hd]
    | other => exact .inr (.inr rfl)
    | _ => exact .inl (.scalar hin)
  · exact .inr (.inl (.scalar hin))

theorem mapEntries_pairs {pairs entries : List (Value × Value)} {uniqueKeys : List Value}
    (h : context.mapEntries uniqueKeys (pairs.map pairEntry) = .ok entries) : entries = pairs := by
  induction pairs generalizing uniqueKeys entries with
  | nil =>
    cases h
    rfl
  | cons p pairs ih =>
    obtain ⟨key, hkey, h⟩ := Except.bind_eq_ok.1 h
    obtain ⟨keys, -, h⟩ := Except.bind_eq_ok.1 h
    obtain ⟨value, hvalue, h⟩ := Except.bind_eq_ok.1 h
    obtain ⟨rest, hrest, h⟩ := Except.bind_eq_ok.1 h
    cases hkey
    cases hvalue
    cases h
    rw [ih hrest]

/-- `Value::MAP` on keys that do not fit. -/
theorem mapValue_of_not_keysFit {pairs : List (Value × Value)}
    (h : ¬ context.KeysFit [] (pairs.map Prod.fst)) (child : LogicalType) :
    context.mapValue child (pairs.map pairEntry) = .error .sqlException := by
  refine Except.bind_of_error ((onlySql_mapEntries _ _).refused ?_)
  rintro ⟨entries, hentries⟩
  rw [mapEntries_pairs hentries] at hentries
  exact h (mapEntries_eq_ok.1 hentries)

/-- `Value::MAP` where the elements of the type are a STRUCT. -/
theorem mapValue_cases {child : LogicalType} {fields : List (String × LogicalType)}
    (hfields : structChildTypes child = .ok fields) {pairs : List (Value × Value)} :
    (∃ keyType valueType, structChild child 0 = .ok keyType ∧ structChild child 1 = .ok valueType ∧
      (∀ p ∈ pairs, context.Casts p.1 keyType.2) ∧ (∀ p ∈ pairs, context.Casts p.2 valueType.2) ∧
      context.KeysFit [] (pairs.map fun p => context.castTo keyType.2 p.1)) ∨
    context.mapValue child (pairs.map pairEntry) = .error .sqlException := by
  by_cases hok : ∃ v, context.mapValue child (pairs.map pairEntry) = .ok v
  · obtain ⟨v, hv⟩ := hok
    obtain ⟨entries, hentries, hrest⟩ := Except.bind_eq_ok.1 hv
    rw [mapEntries_pairs hentries] at hrest
    obtain ⟨keyType, hkey, hrest⟩ := Except.bind_eq_ok.1 hrest
    obtain ⟨valueType, hvalue, hrest⟩ := Except.bind_eq_ok.1 hrest
    obtain ⟨children, hchildren, -⟩ := Except.bind_eq_ok.1 hrest
    exact .inl ⟨keyType, valueType, hkey, hvalue, (castEntries_eq_ok.1 hchildren).1⟩
  · refine .inr (OnlySql.refused ?_ hok)
    refine (onlySql_mapEntries _ _).bind fun _ _ => ?_
    refine (onlySql_structChild hfields 0).bind fun _ _ => ?_
    refine (onlySql_structChild hfields 1).bind fun _ _ => ?_
    exact (onlySql_castEntries _ _ _ _).bind fun _ _ => .ok _

/-- A map whose entries are accepted. -/
theorem map_cases {typeName : String} {type : LogicalType} {entries : List (JavaParam × JavaParam)}
    (htype : context.transformStringToLogicalType typeName = some type)
    (hentries : ∀ e ∈ entries, Accepted context e.1 ∧ Accepted context e.2) :
    Accepted context (.map typeName entries) ∨ Broken context (.map typeName entries) ∨
      toDuckdbValue context (.map typeName entries) = .error .sqlException := by
  have hloop := Accepted.entryValues hentries
  rw [paramPairs_eq] at hloop
  cases hchild : listChildType type with
  | error e =>
    rcases listChildType_error hchild with rfl | rfl
    · exact .inr (.inl (.mapKind htype hentries hchild))
    · exact .inr (.inr (Except.bind_of_ok (transform_eq htype)
        (Except.bind_of_ok hloop (Except.bind_of_error hchild))))
  | ok child =>
    set pairs := entries.map fun e => (paramValue context e.1, paramValue context e.2) with hpairs
    have hfst : pairs.map Prod.fst = entries.map fun e => paramValue context e.1 := by
      rw [hpairs, List.map_map]
      rfl
    have hrefused : context.mapValue child (pairs.map pairEntry) = .error .sqlException →
        toDuckdbValue context (.map typeName entries) = .error .sqlException := fun h =>
      Except.bind_of_ok (transform_eq htype) (Except.bind_of_ok hloop (Except.bind_of_ok hchild h))
    by_cases hkeys : context.KeysFit [] (pairs.map Prod.fst)
    · cases hfields : structChildTypes child with
      | error e =>
        rcases structChildTypes_error hfields with rfl | rfl
        · exact .inr (.inl (.entryKind htype hentries (hfst ▸ hkeys) hchild hfields))
        · exact .inr (.inr (hrefused (Except.bind_of_ok (mapEntries_eq_ok.2 hkeys)
            (Except.bind_of_error (Except.bind_of_error hfields)))))
      | ok fields =>
        rcases (mapValue_cases hfields).imp_right hrefused with
          ⟨key, value, hkey, hvalue, hks, hvs, hfits⟩ | herror
        · rw [hpairs, List.forall_mem_map] at hks hvs
          rw [hpairs, List.map_map] at hfits
          have hmap := mapTypes_eq_ok.2 ⟨child, key.1, value.1, hchild, hkey, hvalue⟩
          exact .inl (.map htype hmap (fun e he => (hentries e he).1)
            (fun e he => (hentries e he).2) (hfst ▸ hkeys) hks hvs hfits)
        · exact .inr (.inr herror)
    · exact .inr (.inr (hrefused (mapValue_of_not_keysFit hkeys child)))

/-- More attributes than fields. -/
theorem attributeValues_tooMany {type : LogicalType} {fields : List (String × LogicalType)}
    (hfields : structChildTypes type = .ok fields) {attributes : List JavaParam}
    (hlen : fields.length < attributes.length)
    (h : ∀ b ∈ attributes.take fields.length, Accepted context b) :
    attributeValues context type 0 attributes = .error .sqlException := by
  have htake : (attributes.take fields.length).length = fields.length :=
    List.length_take_of_le hlen.le
  rw [← List.take_append_drop fields.length attributes, List.drop_eq_getElem_cons hlen]
  refine attributeValues_error h (fun j hj => ?_) ?_
  · have hj : j < fields.length := htake ▸ hj
    rw [Nat.zero_add]
    exact ⟨_, structChild_eq_ok.2 ⟨fields, hfields, List.getElem?_eq_getElem hj⟩⟩
  · refine Except.bind_of_error (Except.bind_of_ok hfields ?_)
    rw [htake, Nat.zero_add, List.getElem?_eq_none le_rfl]

theorem struct_cases {typeName : String} {type : LogicalType} {attributes : List JavaParam}
    (htype : context.transformStringToLogicalType typeName = some type)
    (h : ∀ a ∈ attributes, Accepted context a ∨ Broken context a ∨
      toDuckdbValue context a = .error .sqlException) :
    Accepted context (.struct typeName attributes) ∨ Broken context (.struct typeName attributes) ∨
      toDuckdbValue context (.struct typeName attributes) = .error .sqlException := by
  have hrefused : attributeValues context type 0 attributes = .error .sqlException →
      toDuckdbValue context (.struct typeName attributes) = .error .sqlException := fun h =>
    Except.bind_of_ok (transform_eq htype) (Except.bind_of_error h)
  cases hfields : structChildTypes type with
  | error e =>
    cases attributes with
    | nil => exact .inl (.struct htype nofun nofun)
    | cons a rest =>
      rcases structChildTypes_error hfields with rfl | rfl
      · exact .inr (.inl (.structKind htype hfields))
      · exact .inr (.inr (hrefused (Except.bind_of_error (Except.bind_of_error hfields))))
  | ok fields =>
    rcases forall_or_first (Accepted context) attributes with hall | ⟨done, a, rest, rfl, hdone, ha⟩
    · rcases Nat.lt_or_ge fields.length attributes.length with hlen | hlen
      · exact .inr (.inr (hrefused (attributeValues_tooMany hfields hlen fun b hb =>
          hall b (List.mem_of_mem_take hb))))
      · refine .inl (.struct htype (fun i hi => ?_) hall)
        have hi : i < fields.length := by omega
        exact ⟨_, structChild_eq_ok.2 ⟨fields, hfields, List.getElem?_eq_getElem hi⟩⟩
    · rcases Nat.lt_or_ge done.length fields.length with hlen | hlen
      · have hchild : structChild type done.length = .ok fields[done.length] :=
          structChild_eq_ok.2 ⟨fields, hfields, List.getElem?_eq_getElem hlen⟩
        rcases h a (List.mem_append_right _ List.mem_cons_self) with ha' | ha' | ha'
        · exact absurd ha' ha
        · exact .inr (.inl (.field htype hdone hchild ha'))
        · refine .inr (.inr (hrefused (attributeValues_error hdone (fun j hj => ?_) ?_)))
          · rw [Nat.zero_add]
            exact structChild_of_le hchild hj.le
          · rw [Nat.zero_add]
            exact Except.bind_of_ok hchild ha'
      · refine .inr (.inr (hrefused (attributeValues_tooMany hfields ?_ fun b hb => hdone b ?_)))
        · rw [List.length_append, List.length_cons]
          omega
        · rw [List.take_append_of_le_length hlen] at hb
          exact List.mem_of_mem_take hb

theorem array_cases {typeName : String} {type : LogicalType} {elements : List JavaParam}
    (htype : context.transformStringToLogicalType typeName = some type)
    (h : ∀ e ∈ elements, Accepted context e ∨ Broken context e ∨
      toDuckdbValue context e = .error .sqlException) :
    Accepted context (.array typeName elements) ∨ Broken context (.array typeName elements) ∨
      toDuckdbValue context (.array typeName elements) = .error .sqlException := by
  rcases forall_or_first (Accepted context) elements with hall | ⟨done, a, rest, rfl, hdone, ha⟩
  · have hloop : elementValues context elements = .ok (elements.map (paramValue context)) := by
      rw [elementValues_eq]
      exact mapM_of_forall fun e he => (hall e he).converts
    by_cases hcasts : ∀ e ∈ elements, context.Casts (paramValue context e) type
    · exact .inl (.array htype hall hcasts)
    · refine .inr (.inr (Except.bind_of_ok (transform_eq htype) (Except.bind_of_ok hloop
        (Except.bind_of_error (OnlySql.refused ?_ ?_)))))
      · exact OnlySql.mapM fun v _ => onlySql_defaultCastAs v type
      · rw [mapM_isOk, List.forall_mem_map]
        exact hcasts
  · rcases h a (List.mem_append_right _ List.mem_cons_self) with ha' | ha' | ha'
    · exact absurd ha' ha
    · exact .inr (.inl (.element htype hdone ha'))
    · exact .inr (.inr (Except.bind_of_ok (transform_eq htype)
        (Except.bind_of_error (elementValues_error hdone ha'))))

/-- A parameter is accepted or broken, or an `SQLException` is thrown. -/
theorem param_cases (p : JavaParam) :
    Accepted context p ∨ Broken context p ∨ toDuckdbValue context p = .error .sqlException := by
  induction p using JavaParam.ind with
  | scalar x => exact scalar_cases x
  | map typeName entries ih =>
    cases htype : context.transformStringToLogicalType typeName with
    | none => exact .inr (.inr (Except.bind_of_error (transform_none htype)))
    | some type =>
      rcases forall_or_first (fun e => Accepted context e.1 ∧ Accepted context e.2) entries with
        hall | ⟨done, ⟨key, value⟩, rest, rfl, hdone, hnot⟩
      · exact map_cases htype hall
      have hrefused : (do let _ ← toDuckdbValue context key; toDuckdbValue context value) =
            .error .sqlException →
          toDuckdbValue context (.map typeName (done ++ (key, value) :: rest)) =
            .error .sqlException := fun h =>
        Except.bind_of_ok (transform_eq htype) (Except.bind_of_error (entryValues_error hdone h))
      obtain ⟨hk, hv⟩ := ih (key, value) (List.mem_append_right _ List.mem_cons_self)
      rcases hk with hk | hk | hk
      · rcases hv with hv | hv | hv
        · exact absurd ⟨hk, hv⟩ hnot
        · exact .inr (.inl (.value htype hdone hk hv))
        · exact .inr (.inr (hrefused (Except.bind_of_ok hk.converts hv)))
      · exact .inr (.inl (.key htype hdone hk))
      · exact .inr (.inr (hrefused (Except.bind_of_error hk)))
  | struct typeName attributes ih =>
    cases htype : context.transformStringToLogicalType typeName with
    | none => exact .inr (.inr (Except.bind_of_error (transform_none htype)))
    | some type => exact struct_cases htype ih
  | array typeName elements ih =>
    cases htype : context.transformStringToLogicalType typeName with
    | none => exact .inr (.inr (Except.bind_of_error (transform_none htype)))
    | some type => exact array_cases htype ih

/-! ## Declared types -/

theorem createValueFromBigDecimal_type {cast : DecimalCast} {x : BigDecimal} {d : DecimalValue}
    (h : createValueFromBigDecimal cast x = .ok d) :
    (decimalValue d).type = ScalarParam.type (.bigDecimal x) := by
  rw [ScalarParam.type]
  by_cases hneg : x.scale < 0
  · rw [create_of_neg hneg] at h
    cases h
  have h0 : 0 ≤ x.scale := not_lt.1 hneg
  by_cases h18 : x.width ≤ 18
  · rw [create_of_small h0 h18] at h
    cases h
    rw [if_pos (h18.trans (by decide))]
    rfl
  by_cases h38 : x.width ≤ 38
  · rw [create_of_text h0 (not_le.1 h18) h38] at h
    obtain ⟨unscaled, -, h⟩ := Except.bind_eq_ok.1 h
    cases h
    rw [if_pos h38]
    rfl
  · rw [create_of_large h0 (not_le.1 h38)] at h
    cases h
    rw [if_neg h38]
    rfl

theorem temporalValueOf_type {x : TemporalParam} {v : TemporalValue}
    (h : temporalValueOf context.systemDefault context.resolve x = some v) :
    (temporalValue v).type = ScalarParam.type (.temporal x) := by
  cases x with
  | sqlTimestamp x =>
    obtain ⟨ldt, -, h⟩ := Option.bind_eq_some_iff.1 h
    obtain ⟨micros, -, rfl⟩ := Option.map_eq_some_iff.1 h
    rfl
  | localTime nanoOfDay =>
    cases h
    rfl
  | _ =>
    obtain ⟨count, -, rfl⟩ := Option.map_eq_some_iff.1 h
    rfl

theorem scalarValue_type {x : ScalarParam} {v : Value} (h : context.scalarValue x = .ok v) :
    v.type = x.type := by
  cases x with
  | offsetDateTime x =>
    rw [ClientContext.scalarValue] at h
    split at h <;> cases h
    rfl
  | temporal x =>
    rw [ClientContext.scalarValue] at h
    split at h
    · next hv =>
      cases h
      exact temporalValueOf_type hv
    · cases h
  | bigDecimal x =>
    rw [ClientContext.scalarValue] at h
    split at h
    · next hd =>
      cases h
      exact createValueFromBigDecimal_type hd
    · cases h
  | other => cases h
  | _ =>
    cases h
    rfl

theorem Accepted.type {p : JavaParam} (h : Accepted context p) :
    (paramValue context p).type = paramType context p := by
  induction h with
  | scalar hx =>
    obtain ⟨v, hv⟩ := scalarValue_of hx
    rw [paramValue, hv]
    exact scalarValue_type hv
  | map htype hmap =>
    rw [paramValue, paramType, typeOf_eq htype, hmap]
    rfl
  | struct _ _ _ ih =>
    rw [paramValue, paramType, paramValues_eq, paramTypes_eq, List.map_map]
    have htypes := List.map_congr_left (f := Value.type ∘ paramValue context) ih
    show structOf _ = _
    rw [htypes]
  | array => rfl

/-- What an accepted struct stands for is as declared iff the types agree. -/
theorem declared_struct_iff {typeName : String} {attributes : List JavaParam}
    (h : ∀ a ∈ attributes, Accepted context a) :
    Declared context (.struct typeName attributes)
        (paramValue context (.struct typeName attributes)) ↔
      TypesAgree context (.struct typeName attributes) := by
  have hvalue : ∀ {fields}, context.transformStringToLogicalType typeName =
      some (structOf fields) → paramValue context (.struct typeName attributes) =
        .nested (structOf ((fields.map Prod.fst).zip (attributes.map (paramType context))))
          (attributes.map (paramValue context)) := by
    intro fields hdecl
    have htypes : (attributes.map (paramValue context)).map Value.type =
        attributes.map (paramType context) := by
      rw [List.map_map]
      exact List.map_congr_left fun a ha => (h a ha).type
    rw [paramValue, typeOf_eq hdecl, paramValues_eq, htypes, fieldNames, structChildTypes_structOf]
    rfl
  constructor
  · rintro ⟨fields, children, hdecl, hv, hlen, -⟩
    rw [hvalue hdecl] at hv
    have hfields := congrArg (List.map Prod.snd) (structOf_inj (Value.nested.inj hv).1)
    rw [List.map_snd_zip (by rw [List.length_map, List.length_map, hlen])] at hfields
    exact ⟨fields, hdecl, hfields⟩
  · rintro ⟨fields, hdecl, htypes⟩
    refine ⟨fields, attributes.map (paramValue context), hdecl, ?_, ?_, ?_⟩
    · rw [hvalue hdecl, htypes, zip_fields]
    · rw [← List.length_map (paramType context), htypes, List.length_map]
    · rw [← htypes, ← List.map_prod_left_eq_zip, List.forall₂_map_left_iff,
        List.forall₂_map_right_iff, List.forall₂_same]
      intro a ha
      refine ⟨_, (h a ha).converts, ?_⟩
      rw [← (h a ha).type, defaultCastAs_self]

theorem Accepted.declared_iff {p : JavaParam} (h : Accepted context p) :
    Declared context p (paramValue context p) ↔ TypesAgree context p := by
  cases h with
  | scalar => exact iff_of_true trivial trivial
  | @map typeName entries type keyType valueType htype hmap hk hv hkeys hks hvs hfits =>
    constructor
    · rintro ⟨keyType, valueType, children, hdecl, -, -⟩
      exact ⟨keyType, valueType, hdecl⟩
    · rintro ⟨keyType', valueType', hdecl⟩
      obtain rfl : type = mapOf keyType' valueType' := Option.some.inj (htype.symm.trans hdecl)
      rw [mapTypes_mapOf] at hmap
      cases hmap
      refine ⟨keyType, valueType,
        (paramPairs context entries).map (context.castEntry keyType valueType), hdecl, ?_, ?_⟩
      · rw [paramValue, typeOf_eq htype]
        rfl
      · rw [paramPairs_eq, List.map_map, List.forall₂_map_right_iff, List.forall₂_same]
        intro e he
        exact ⟨_, _, ⟨_, (hk e he).converts, (hks e he).eq⟩, ⟨_, (hv e he).converts, (hvs e he).eq⟩,
          rfl⟩
  | struct _ _ hattributes => exact declared_struct_iff hattributes
  | @array typeName elements type htype helements hcasts =>
    refine iff_of_true
      ⟨type, (paramValues context elements).map (context.castTo type), htype, ?_, ?_⟩ trivial
    · rw [paramValue, typeOf_eq htype]
    · rw [paramValues_eq, List.map_map, List.forall₂_map_right_iff, List.forall₂_same]
      exact fun e he => ⟨_, (helements e he).converts, (hcasts e he).eq⟩

theorem Accepted.not_broken {p : JavaParam} (h : Accepted context p) : ¬ Broken context p := by
  intro hbroken
  obtain ⟨e, he, -⟩ := hbroken.breaks
  rw [h.converts] at he
  cases he

end

/-- **Composite parameters** are of their declared type, their elements cast to theirs, or an
    `SQLException` is thrown, iff no date-time out of range and no type information of another kind
    comes before anything that is refused, and, where nothing is refused, maps and structs are
    declared as such and the attributes of a struct are of the types of its fields. -/
theorem composite_parameters_iff (context : ClientContext) (p : JavaParam) :
    AsClaimed context p ↔
      ¬ Broken context p ∧ (Accepted context p → TypesAgree context p) := by
  rcases @param_cases context p with h | h | h
  · rw [AsClaimed, h.converts, ← h.declared_iff]
    exact ⟨fun hdecl => ⟨h.not_broken, fun _ => hdecl⟩, fun hagree => hagree.2 h⟩
  · obtain ⟨e, he, hne⟩ := h.breaks
    rw [AsClaimed, he]
    exact iff_of_false hne fun hagree => hagree.1 h
  · rw [AsClaimed, h]
    refine iff_of_true rfl ⟨fun hbroken => ?_, fun haccepted => ?_⟩
    · obtain ⟨e, he, hne⟩ := hbroken.breaks
      rw [h] at he
      cases he
      exact hne rfl
    · rw [haccepted.converts] at h
      cases h

/-! ## A small engine -/

/-- A few type names, and the casts to BIGINT. -/
def smallContext : ClientContext where
  transformStringToLogicalType typeName :=
    if typeName = "BIGINT" then some (scalarOf .bigint (.refl true))
    else if typeName = "STRUCT(a BIGINT)" then
      some (structOf [("a", scalarOf .bigint (.refl true))])
    else none
  tryCast v t :=
    match v with
    | .null _ => some (.null t)
    | .scalar _ (.int n) =>
      if t = scalarOf .bigint (.refl true) ∧ -2 ^ 63 ≤ n ∧ n < 2 ^ 63 then
        some (.scalar t (.int n))
      else none
    | _ => none
  tryCast_type {v t w} h := by
    split at h
    · cases h
      rfl
    · split at h <;> cases h
      rfl
    · cases h
  keyEquals v w :=
    match v, w with
    | .scalar _ a, .scalar _ b => a = b
    | _, _ => false
  decimalCast := castSameScale
  systemDefault := utc
  resolve localSecond := localSecond

/-- One attribute for the one field. -/
theorem smallContext_accepted (x : ScalarParam) (h : ScalarParam.Accepted smallContext x) :
    Accepted smallContext (.struct "STRUCT(a BIGINT)" [.scalar x]) := by
  have htype : smallContext.transformStringToLogicalType "STRUCT(a BIGINT)" =
      some (structOf [("a", scalarOf .bigint (.refl true))]) := rfl
  refine .struct htype (fun i hi => ?_) fun a ha => ?_
  · obtain rfl : i = 0 := Nat.lt_one_iff.1 hi
    exact ⟨_, rfl⟩
  · rw [List.mem_singleton.1 ha]
    exact .scalar h

theorem composite_parameters_long :
    AsClaimed smallContext (.struct "STRUCT(a BIGINT)" [.scalar (.long 1)]) := by
  have h := smallContext_accepted (.long 1) trivial
  exact (composite_parameters_iff smallContext _).2 ⟨h.not_broken, fun _ => ⟨_, rfl, rfl⟩⟩

/-- An `Integer` for a field declared BIGINT: the struct is of type `STRUCT(a INTEGER)`. -/
theorem composite_parameters_integer : ¬ ∀ context p, AsClaimed context p := by
  intro h
  have haccepted := smallContext_accepted (.integer 1) trivial
  have hclaimed := h smallContext (.struct "STRUCT(a BIGINT)" [.scalar (.integer 1)])
  rw [AsClaimed, haccepted.converts] at hclaimed
  obtain ⟨fields, hdecl, htypes⟩ := haccepted.declared_iff.1 hclaimed
  rw [← structOf_inj (Option.some.inj hdecl)] at htypes
  exact absurd htypes (by decide)

end DuckDBJava.Params
