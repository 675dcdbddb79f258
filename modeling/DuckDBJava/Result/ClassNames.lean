/-
  The classes of the objects of a result set.

  `type_to_javaString` gives the class that `getColumnClassName` reports for a column.  Whatever the
  memory of a fetched column holds, `getObject` returns null or an object of the type of the column,
  down to the leaves (**`getObject_holds`**).  So the reported class is right for every type but
  `UNION`, `VARIANT` and `GEOMETRY`: the first two are reported as strings, which is right just when
  the member or the value is one, and so is the `DuckDBBlobResult` of a `GEOMETRY`
  (**`getColumnClassName_iff`**).  **`getObject_class_iff`** says the same of single slots, of all
  types without child vectors and `MAP`.
-/
import DuckDBJava.Result.Shown
import DuckDBJava.Result.WasNull

namespace DuckDBJava

open Exec PathTree

/-! ## Class names -/

/-- The classes of the values of a result set. -/
inductive ObjectClass where
  | boolean | byte | short | integer | long | bigInteger | float | double | bigDecimal | string
  | byteArray | localTime | offsetTime | localDate | timestamp | offsetDateTime | jsonNode
  | blobResult | uuid | array | linkedHashMap | struct | vector | sqlDate | sqlTime | localDateTime
  deriving DecidableEq

/-- `Class.getName()` -/
def ObjectClass.getName : ObjectClass → String
  | boolean => "java.lang.Boolean"
  | byte => "java.lang.Byte"
  | short => "java.lang.Short"
  | integer => "java.lang.Integer"
  | long => "java.lang.Long"
  | bigInteger => "java.math.BigInteger"
  | float => "java.lang.Float"
  | double => "java.lang.Double"
  | bigDecimal => "java.math.BigDecimal"
  | string => "java.lang.String"
  | byteArray => "[B"
  | localTime => "java.time.LocalTime"
  | offsetTime => "java.time.OffsetTime"
  | localDate => "java.time.LocalDate"
  | timestamp => "java.sql.Timestamp"
  | offsetDateTime => "java.time.OffsetDateTime"
  | jsonNode => "org.duckdb.JsonNode"
  | blobResult => "org.duckdb.DuckDBResultSet$DuckDBBlobResult"
  | uuid => "java.util.UUID"
  | array => "org.duckdb.DuckDBArray"
  | linkedHashMap => "java.util.LinkedHashMap"
  | struct => "org.duckdb.DuckDBStruct"
  | vector => "org.duckdb.DuckDBVector"
  | sqlDate => "java.sql.Date"
  | sqlTime => "java.sql.Time"
  | localDateTime => "java.time.LocalDateTime"

/-- `type_to_javaString` -/
def typeToJavaString : DuckDBColumnType → String
  | .boolean => ObjectClass.boolean.getName
  | .tinyint => ObjectClass.byte.getName
  | .smallint | .utinyint => ObjectClass.short.getName
  | .integer | .usmallint => ObjectClass.integer.getName
  | .bigint | .uinteger => ObjectClass.long.getName
  | .hugeint | .uhugeint | .ubigint => ObjectClass.bigInteger.getName
  | .float => ObjectClass.float.getName
  | .double => ObjectClass.double.getName
  | .decimal => ObjectClass.bigDecimal.getName
  | .time | .timeNs => ObjectClass.localTime.getName
  | .timeWithTimeZone => ObjectClass.offsetTime.getName
  | .date => ObjectClass.localDate.getName
  | .timestamp | .timestampNs | .timestampS | .timestampMs => ObjectClass.timestamp.getName
  | .timestampWithTimeZone => ObjectClass.offsetDateTime.getName
  | .json => ObjectClass.jsonNode.getName
  | .blob => ObjectClass.blobResult.getName
  | .uuid => ObjectClass.uuid.getName
  | .list | .array => ObjectClass.array.getName
  | .map => ObjectClass.linkedHashMap.getName
  | .struct => ObjectClass.struct.getName
  | _ => ObjectClass.string.getName

/-- `getColumnClassName`, of the types of the columns. -/
def getColumnClassName (columnTypes : List DuckDBColumnType) (column : ℤ) :
    Except GetterException String :=
  if columnTypes.length < column then .error .columnIndexOutOfBounds
  -- a `column - 1` that wraps is out of bounds, too
  else do return typeToJavaString (← orJava (elementAt columnTypes (column - 1)))

/-- `getClass()` -/
def JObject.getClass : JObject → Option ObjectClass
  | null => none
  | boolean _ => some .boolean
  | number .byte _ => some .byte
  | number .short _ => some .short
  | number .integer _ => some .integer
  | number .long _ => some .long
  | number .bigInteger _ => some .bigInteger
  | float _ => some .float
  | double _ => some .double
  | bigDecimal .. => some .bigDecimal
  | string _ => some .string
  | byteArray _ => some .byteArray
  | blob _ => some .blobResult
  | uuid .. => some .uuid
  | localDate _ => some .localDate
  | localTime _ => some .localTime
  | offsetTime .. => some .offsetTime
  | timestamp _ => some .timestamp
  | offsetDateTime _ => some .offsetDateTime
  | array .. => some .array
  | struct .. => some .struct
  | map _ => some .linkedHashMap
  | jsonNode _ => some .jsonNode
  | vector _ => some .vector

/-- `getClass()`, of any value. -/
def JavaValue.getClass : JavaValue → Option ObjectClass
  | object o => o.getClass
  | sqlDate _ => some .sqlDate
  | sqlTime _ => some .sqlTime
  | localDateTime _ => some .localDateTime

/-- An object of the class that is reported for the type. -/
def JObject.InstanceOf (o : JObject) (type : DuckDBColumnType) : Prop :=
  o.getClass.map ObjectClass.getName = some (typeToJavaString type)

theorem ObjectClass.eq_string {c : ObjectClass} (h : c.getName = "java.lang.String") :
    c = .string := by
  cases c <;> first | rfl | exact absurd h (by decide)

/-- The types whose objects may be of another class than the one reported. -/
def misreported : List DuckDBColumnType := [.union, .variant, .geometry]

/-- What a column of a type holds: objects of the class reported for the type, made of parts that
    the child columns hold; for a `UNION`, what one of the members holds, and for a `VARIANT`, what
    `V` says.  The keys are made by `newStringUTF`. -/
inductive Holds (newStringUTF : String → String) (V : JObject → Prop) :
    LogicalType → JObject → Prop
  | null {t} : Holds newStringUTF V t .null
  | leaf {kind o} : kind.isLeaf = true → kind.columnType ∉ misreported →
      o.InstanceOf kind.columnType → Holds newStringUTF V (.node kind []) o
  | geometry {bytes} : Holds newStringUTF V (.node (.unlisted .geometry) []) (.blob bytes)
  | variant {x} : V x → Holds newStringUTF V (.node (.unlisted .variant) []) x
  | list {t id xs} : (∀ x ∈ xs, Holds newStringUTF V t x) →
      Holds newStringUTF V (.node .list [t]) (.array id xs)
  | array {limit t id xs} : (∀ x ∈ xs, Holds newStringUTF V t x) →
      Holds newStringUTF V (.node (.array limit) [t]) (.array id xs)
  | map {names key value entries} : (∀ e ∈ entries, Holds newStringUTF V key (Prod.fst e)) →
      (∀ e ∈ entries, Holds newStringUTF V value (Prod.snd e)) →
      Holds newStringUTF V (.node .map [.node (.struct names) [key, value]]) (.map entries)
  | struct {names children id xs} : xs.length = children.length →
      (∀ (i : ℕ) t x, children[i]? = some t → xs[i]? = some x → Holds newStringUTF V t x) →
      Holds newStringUTF V (.node (.struct names) children) (.struct id (names.map newStringUTF) xs)
  | union {names children t x} {member : ℕ} : children[member + 1]? = some t →
      Holds newStringUTF V t x → Holds newStringUTF V (.node (.union names) children) x

/-- Any object of a column of the other types is of the class reported. -/
theorem Holds.instanceOf {newStringUTF : String → String} {V : JObject → Prop} {t : LogicalType}
    {o : JObject} (h : Holds newStringUTF V t o) (ht : t.kind.columnType ∉ misreported)
    (ho : o ≠ .null) : o.InstanceOf t.kind.columnType := by
  cases h with
  | null => exact absurd rfl ho
  | leaf _ _ h => exact h
  | union | variant | geometry => exact (ht (by simp [misreported, TypeKind.columnType])).elim
  | _ => rfl

/-! ## Leaves -/

section
variable {env : Platform}

theorem timestampObject_instanceOf (type : DuckDBColumnType) (value : ℤ) :
    Yields (·.InstanceOf .timestamp) (timestampObject env type value) := by
  unfold timestampObject
  split
  · exact Yields.error
  · split
    · exact Yields.ok rfl
    · exact Yields.error

theorem decimalObject_instanceOf (internalType : CAPIType) (scale bits : ℕ) :
    Yields (·.InstanceOf .decimal) (decimalObject internalType scale bits) := by
  unfold decimalObject
  split <;> first | exact Yields.ok rfl | exact Yields.error

/-- The accessors of constant-width types. -/
theorem bitsObject_instanceOf (kind : TypeKind) (bits : ℕ) :
    Yields (·.InstanceOf kind.columnType) (bitsObject env kind bits) := by
  cases kind with
  | decimal => exact decimalObject_instanceOf _ _ _
  | scalar t h =>
    cases t with
    | boolean | tinyint | smallint | integer | bigint | utinyint | usmallint | uinteger | ubigint
    | hugeint | uhugeint | float | double | date | uuid => exact Yields.ok rfl
    | time => exact Yields.bind_all fun _ => Yields.ok rfl
    | timeTz =>
      intro o ho
      obtain ⟨_, _, rfl⟩ := toOffsetTime_yields _ o ho
      rfl
    | timestamp | timestampS | timestampMs | timestampNs => exact timestampObject_instanceOf _ _
    | timestampTz =>
      show Yields _ (offsetDateTimeObject _ _)
      unfold offsetDateTimeObject
      split
      · exact Yields.ok rfl
      · exact Yields.error
    | _ => exact Yields.error
  | unlisted t =>
    cases t with
    | timeNs => exact Yields.bind_all fun _ => Yields.ok rfl
    | _ => exact Yields.error
  | _ => exact Yields.error

theorem constObject_instanceOf (kind : TypeKind) (c : Cell) :
    Yields (·.InstanceOf kind.columnType) (constObject env kind c) := by
  cases c with
  | fixed bits => exact bitsObject_instanceOf kind bits
  | _ => exact Yields.error

theorem varcharObject_yields (c : Cell) :
    Yields (fun o => ∃ s, o = .string s) (varcharObject env c) := by
  cases c with
  | string bytes => exact Yields.ok ⟨_, rfl⟩
  | _ => exact Yields.error

theorem varcharObject_instanceOf {type : DuckDBColumnType}
    (h : typeToJavaString type = ObjectClass.string.getName) (c : Cell) :
    Yields (·.InstanceOf type) (varcharObject env c) := by
  intro o ho
  obtain ⟨s, rfl⟩ := varcharObject_yields c o ho
  exact congrArg some h.symm

theorem enumObject_instanceOf (kind : TypeKind) (h : kind.columnType = .enum) (c : Cell) :
    Yields (·.InstanceOf kind.columnType) (enumObject env kind c) := by
  rw [h]
  unfold enumObject
  split
  · split
    · exact Yields.ok rfl
    · exact Yields.error
  · exact Yields.error

theorem blobObject_class (o : JObject) :
    Yields (fun b => b.getClass = some .blobResult) (blobObject o) := by
  cases o with
  | byteArray bytes => exact Yields.ok rfl
  | _ => exact Yields.error

theorem jsonObject_instanceOf (o : JObject) : Yields (·.InstanceOf .json) (jsonObject o) :=
  Yields.bind_all fun o => by
    cases o with
    | string => exact Yields.ok rfl
    | _ => exact Yields.error

/-- A slot without children. -/
theorem scalarObject_instanceOf {kind : TypeKind} (hl : kind.isLeaf = true)
    (ht : kind.columnType ∉ misreported) (c : Cell) :
    Yields (·.InstanceOf kind.columnType) (scalarObject env kind c) := by
  unfold scalarObject
  cases kind with
  | decimal => exact constObject_instanceOf _ c
  | enum => exact enumObject_instanceOf _ rfl c
  | scalar t h =>
    cases t with
    | blob =>
      refine Yields.bind_all fun o b hb => ?_
      rw [JObject.InstanceOf, blobObject_class o b hb]
      rfl
    | varchar => exact varcharObject_instanceOf rfl c
    | invalid | interval | bit | any | varint | sqlnull | stringLiteral | integerLiteral =>
      exact Yields.bind_all fun _ => varcharObject_instanceOf rfl _
    | decimal | enum | list | struct | map | array | union => cases h
    | _ => exact constObject_instanceOf _ c
  | unlisted t =>
    cases t with
    | json => exact Yields.bind_all fun _ => jsonObject_instanceOf _
    | timeNs => exact constObject_instanceOf _ c
    | variant | geometry => exact absurd (by decide) ht
  | _ => cases hl

theorem scalarObject_geometry (c : Cell) :
    Yields (fun o => ∃ bytes, o = .blob bytes) (scalarObject env (.unlisted .geometry) c) := by
  refine Yields.bind_all fun o b hb => ?_
  cases o with
  | byteArray bytes =>
    cases hb
    exact ⟨bytes, rfl⟩
  | _ => cases hb

end

/-! ## Nested values -/

section
variable {env : Platform} {P V : JObject → Prop}

theorem mapM_yields {ε α β : Type} {Q : β → Prop} {f : α → Except ε β} {xs : List α}
    (h : ∀ a ∈ xs, Yields Q (f a)) : Yields (fun ys => ∀ y ∈ ys, Q y) (xs.mapM f) := by
  intro ys hys
  have hall := mapM_eq_ok.1 hys
  clear hys
  induction hall with
  | nil => exact fun _ hy => absurd hy List.not_mem_nil
  | cons hd _ ih =>
    obtain ⟨hx, hxs⟩ := List.forall_mem_cons.1 h
    exact List.forall_mem_cons.2 ⟨hx _ hd, ih hxs⟩

/-- The elements of an array come from the slots of the child vector. -/
theorem arrayObject_yields {d : Decoder} (h : ∀ q, Yields P (d q)) (id : ObjectId) (m : ℕ)
    (offset length : ℤ) : Yields (fun o => ∃ xs, o = .array id xs ∧ ∀ x ∈ xs, P x)
      (arrayObject id m d offset length) := by
  refine Yields.bind_all fun _ => (mapM_yields fun i _ => ?_).bind fun xs hxs =>
    Yields.ok ⟨xs, rfl, hxs⟩
  unfold readSlot
  split
  · exact h _
  · exact Yields.error

theorem listRow_yields {d : Decoder} (h : ∀ q, Yields P (d q)) {kind : TypeKind}
    (hk : kind.fetchCase = .list) (path : List ℕ) (s : FlatSlots) (m row : ℕ) :
    Yields (fun o => ∃ id xs, o = .array id xs ∧ ∀ x ∈ xs, P x)
      (validRow env kind path s m [d] row) := by
  unfold validRow
  rw [hk]
  refine Yields.bind_all fun e => fun o ho => ?_
  exact ⟨_, arrayObject_yields h _ _ _ _ o ho⟩

/-- The key and the value of an entry. -/
theorem mapEntry_holds {utf : String → String} {names : List String} {key value : LogicalType}
    {o : JObject} (h : Holds utf V (.node (.struct names) [key, value]) o) :
    Yields (fun e => Holds utf V key e.1 ∧ Holds utf V value e.2) (mapEntry o) := by
  cases h with
  | null => exact Yields.error
  | @struct _ _ id xs hlen hxs =>
    obtain ⟨k, v, rfl⟩ := List.length_eq_two.1 hlen
    exact Yields.ok ⟨hxs 0 key k rfl rfl, hxs 1 value v rfl rfl⟩

/-- The tag of a `UNION` is not negative. -/
theorem tag_nonneg {path : List ℕ} {n p : ℕ} {v : FlatVector} {tag : ℤ}
    (h : slotObject env (.node (.scalar .utinyint rfl) []) path n v p =
      .ok (.number .short tag)) : 0 ≤ tag := by
  rw [slotObject] at h
  by_cases hv : v.root.valid p = true
  · have hs : LogicalType.ShapeOK (.scalar .utinyint rfl) [] := Eq.refl []
    have hslot : constObject env (.scalar .utinyint rfl) (v.root.data p) =
        .ok (.number .short tag) := (decodeSlot_scalar hs TypeKind.noConfusion hv).symm.trans h
    cases hc : v.root.data p with
    | fixed bits =>
      rw [hc] at hslot
      cases hslot
      exact Int.natCast_nonneg _
    | _ =>
      rw [hc] at hslot
      cases hslot
  · rw [decodeSlot, if_neg hv] at h
    cases h

theorem elementAt_eq_ok {α : Type} {xs : List α} {idx : ℤ} {x : α} (h : elementAt xs idx = .ok x) :
    0 ≤ idx ∧ xs[idx.toNat]? = some x := by
  unfold elementAt at h
  split at h
  · next hidx =>
    refine ⟨hidx, ?_⟩
    split at h
    · next hx =>
      cases h
      exact hx
    · cases h
  · cases h

variable {children : List LogicalType} {path : List ℕ} {n p : ℕ} {v : FlatVector}
  {names : List String}

/-- The decoder of a child slot. -/
theorem slotObjects_eq_some {i : ℕ} {d : Decoder}
    (h : (slotObjects env children path 0 n v)[i]? = some d) :
    ∃ t, children[i]? = some t ∧ d = slotObject env t (i :: path) n (v.child i) := by
  rw [slotObjects_getElem?] at h
  obtain ⟨t, ht, rfl⟩ := Option.map_eq_some_iff.1 h
  refine ⟨t, ht, ?_⟩
  simp only [Nat.zero_add]

theorem structSlot_holds
    (ih : ∀ i t, children[i]? = some t →
      Yields (Holds env.newStringUTF V t) (slotObject env t (i :: path) n (v.child i) p))
    (id : ObjectId) : Yields (Holds env.newStringUTF V (.node (.struct names) children))
      (structObject id
      (names.map env.newStringUTF) (slotObjects env children path 0 n v) p) := by
  intro o ho
  obtain ⟨xs, hxs, rfl⟩ := structObject_eq_ok.1 ho
  obtain ⟨hlen, hslots⟩ := attributes_slots hxs
  exact .struct hlen fun i t x ht hx => ih i t ht x (hslots i t x ht hx)

/-- The types without children that are reported as they are. -/
theorem not_misreported {kind : TypeKind} (hl : kind.isLeaf = true)
    (hvariant : kind ≠ .unlisted .variant) (hgeometry : kind ≠ .unlisted .geometry) :
    kind.columnType ∉ misreported := by
  cases kind with
  | scalar t h => cases t <;> simp [misreported, TypeKind.columnType]
  | decimal | enum => simp [misreported, TypeKind.columnType]
  | unlisted t =>
    cases t with
    | json | timeNs => decide
    | variant => exact absurd rfl hvariant
    | geometry => exact absurd rfl hgeometry
  | _ => cases hl

/-- A `VARIANT` gives what its vector gives. -/
theorem variantSlot_holds (hV : ∀ {id c x}, env.variant id c = .ok (.vector (.ok x)) → V x)
    (hv : v.root.valid p = true) {o : JObject}
    (ho : decodeSlot env (.unlisted .variant) path v.root n [] p = .ok o) :
    Holds env.newStringUTF V (.node (.unlisted .variant) []) o := by
  rw [decodeSlot_of_valid hv DuckDBColumnType.noConfusion] at ho
  obtain ⟨y, hy, ho⟩ := Except.bind_eq_ok.1 ho
  replace ho : variantObject y = .ok o := ho
  cases y with
  | vector first =>
    obtain rfl : first = .ok o := ho
    exact .variant (hV hy)
  | _ => cases ho

theorem unionSlot_holds (hs : LogicalType.ShapeOK (.union names) children)
    (ih : ∀ i t, children[i]? = some t →
      Yields (Holds env.newStringUTF V t) (slotObject env t (i :: path) n (v.child i) p)) :
    Yields (Holds env.newStringUTF V (.node (.union names) children))
      (unionSlot (slotObjects env children path 0 n v) p) := by
  obtain ⟨⟨t₀, ts, rfl⟩, -⟩ := hs
  intro o ho
  obtain ⟨y, hy, ho⟩ := Except.bind_eq_ok.1 ho
  cases y with
  | number cls tag =>
    cases cls with
    | short =>
      obtain ⟨d, hd, ho⟩ := Except.bind_eq_ok.1 ho
      have htag := tag_nonneg hy
      obtain ⟨-, hd⟩ := elementAt_eq_ok hd
      obtain ⟨t, ht, rfl⟩ := slotObjects_eq_some hd
      rw [show ((1 : ℤ) + tag).toNat = tag.toNat + 1 by omega] at ht ho
      exact .union ht (ih _ t ht _ ho)
    | _ => cases ho
  | _ => cases ho

end

/-- **The objects of a type.** -/
theorem slotObject_holds {env : Platform} {V : JObject → Prop}
    (hV : ∀ {id c x}, env.variant id c = .ok (.vector (.ok x)) → V x) {t : LogicalType} (ht : t.Wf)
    (path : List ℕ) (n p : ℕ) (v : FlatVector) :
    Yields (Holds env.newStringUTF V t) (slotObject env t path n v p) := by
  induction t using LogicalType.ind generalizing path n p v with
  | h kind children ih =>
    rw [slotObject]
    by_cases hv : v.root.valid p = true
    · have ihc : ∀ i t, children[i]? = some t → ∀ m q,
          Yields (Holds env.newStringUTF V t) (slotObject env t (i :: path) m (v.child i) q) :=
        fun i t hi m q =>
        ih t (List.mem_of_getElem? hi) (ht.child (List.mem_of_getElem? hi)) _ _ _ _
      have hs := ht.shape
      cases kind with
      | union names =>
        rw [decodeSlot, if_pos hv]
        exact unionSlot_holds hs fun i t hi => ihc i t hi _ _
      | struct names =>
        rw [decodeSlot_of_valid hv DuckDBColumnType.noConfusion]
        refine (structSlot_holds (fun i t hi => ihc i t hi _ _) _).bind fun o ho => ?_
        exact Yields.ok ho
      | list =>
        obtain ⟨t, rfl⟩ := hs
        rw [decodeSlot_of_valid hv DuckDBColumnType.noConfusion]
        refine (listRow_yields (ihc 0 t rfl _) rfl _ _ _ _).bind fun o ho => ?_
        obtain ⟨id, xs, rfl, hxs⟩ := ho
        exact Yields.ok (.list hxs)
      | array limit =>
        obtain ⟨-, t, rfl⟩ := hs
        rw [decodeSlot_of_valid hv DuckDBColumnType.noConfusion]
        refine Yields.bind (arrayObject_yields (ihc 0 t rfl _) _ _ _ _) fun o ho => ?_
        obtain ⟨xs, rfl, hxs⟩ := ho
        exact Yields.ok (.array hxs)
      | map =>
        obtain ⟨names, key, value, rfl⟩ := hs
        rw [decodeSlot_of_valid hv DuckDBColumnType.noConfusion]
        refine (listRow_yields (ihc 0 _ rfl _) rfl _ _ _ _).bind fun o ho => ?_
        obtain ⟨id, xs, rfl, hxs⟩ := ho
        show Yields _ (mapObject xs)
        refine Yields.bind (mapM_yields fun x hx => mapEntry_holds (hxs x hx))
          fun entries hentries => ?_
        have hmap : ∀ e ∈ LinkedMap.ofEntries JObject.equals entries,
            Holds env.newStringUTF V key e.1 ∧ Holds env.newStringUTF V value e.2 :=
          LinkedMap.forall_ofEntries hentries
        exact Yields.ok (Holds.map (fun e he => (hmap e he).1) fun e he => (hmap e he).2)
      | scalar _ _ | decimal _ _ _ | enum _ _ =>
        obtain rfl : children = [] := by
          first
            | exact hs
            | exact hs.1
        intro o ho
        have hleaf := (decodeSlot_scalar hs TypeKind.noConfusion hv).symm.trans ho
        refine .leaf rfl ?_ (scalarObject_instanceOf rfl ?_ _ o hleaf)
        all_goals exact not_misreported rfl TypeKind.noConfusion TypeKind.noConfusion
      | unlisted type =>
        obtain rfl : children = [] := hs
        intro o ho
        by_cases hvariant : type = .variant
        · subst hvariant
          exact variantSlot_holds hV hv ho
        have hne : TypeKind.unlisted type ≠ .unlisted .variant :=
          fun h => hvariant (TypeKind.unlisted.inj h)
        have hleaf := (decodeSlot_scalar ht.shape hne hv).symm.trans ho
        by_cases hgeometry : type = .geometry
        · subst hgeometry
          obtain ⟨bytes, rfl⟩ := scalarObject_geometry _ o hleaf
          exact .geometry
        have hclass : (TypeKind.unlisted type).columnType ∉ misreported :=
          not_misreported rfl hne fun h => hgeometry (TypeKind.unlisted.inj h)
        exact .leaf rfl hclass (scalarObject_instanceOf rfl hclass _ o hleaf)
    · rw [decodeSlot, if_neg hv]
      exact Yields.ok .null

theorem typeToJavaString_misreported {type : DuckDBColumnType} (h : type ∈ misreported) :
    typeToJavaString type = ObjectClass.string.getName := by
  simp only [misreported, List.mem_cons, List.not_mem_nil, or_false] at h
  rcases h with rfl | rfl | rfl <;> rfl

theorem getColumnClassName_column {types : List DuckDBColumnType} {i : ℕ} {type : DuckDBColumnType}
    (h : types[i]? = some type) :
    getColumnClassName types (i + 1) = .ok (typeToJavaString type) := by
  have hi := (List.getElem?_eq_some_iff.1 h).1
  unfold getColumnClassName elementAt
  rw [if_neg (by omega), if_pos (by omega), show ((i : ℤ) + 1 - 1).toNat = i by omega, h]
  rfl

/-! ## Fetched columns -/

section
variable {env : Platform} {v w : FlatVector} {n p : ℕ} {column : DuckDBVector} {o : JObject}

/-- What a `VARIANT` holds: an object of the type of the value that the engine converts it to. -/
def InVariant (env : Platform) (convert : Cell → Except JavaException (Option FlatVector)) :
    ℕ → JObject → Prop
  | 0, x => ∃ id c, env.variant id c = .ok (.vector (.ok x))
  | depth + 1, x => ∃ c value, convert c = .ok (some value) ∧
      Holds env.newStringUTF (InVariant env convert depth) value.root.type x

theorem newStringUTF_withVariants (convert : Cell → Except JavaException (Option FlatVector))
    (depth : ℕ) : (env.withVariants convert depth).newStringUTF = env.newStringUTF := by
  cases depth <;> rfl

/-- The vector of a `VARIANT` is fetched as a column of the type of the value. -/
theorem variant_inVariant {convert : Cell → Except JavaException (Option FlatVector)}
    (hconvert : ∀ c value, convert c = .ok (some value) → value.root.type.Wf) {depth : ℕ}
    {id : ObjectId} {c : Cell}
    (hx : (env.withVariants convert depth).variant id c = .ok (.vector (.ok o))) :
    InVariant env convert depth o := by
  induction depth generalizing id c o with
  | zero => exact ⟨id, c, hx⟩
  | succ depth ih =>
    obtain ⟨value, hvalue, hx⟩ := Except.bind_eq_ok.1 hx
    cases value with
    | none => cases hx
    | some value =>
      have hwf := hconvert c value hvalue
      refine ⟨c, value, hvalue, ?_⟩
      rw [← newStringUTF_withVariants convert depth]
      rw [variantElement] at hx
      split at hx
      · next column w hcolumn =>
        have hget := processVector_getObject hwf hcolumn Nat.one_pos
        refine slotObject_holds ih hwf _ 1 0 value o (hget.symm.trans ?_)
        injection hx with hx
        injection hx
      · cases hx

/-- **What `getObject` returns has the type of the column**, whatever the memory holds. -/
theorem getObject_holds {convert : Cell → Except JavaException (Option FlatVector)} {depth : ℕ}
    (hconvert : ∀ c value, convert c = .ok (some value) → value.root.type.Wf)
    (ht : v.root.type.Wf) (hfetch : fetchColumn (env.withVariants convert depth) n v = .ok column w)
    (hp : p < n) (ho : column.getObject (env.withVariants convert depth) p = .ok o) :
    Holds env.newStringUTF (InVariant env convert depth) v.root.type o := by
  rw [← newStringUTF_withVariants convert depth]
  exact slotObject_holds (variant_inVariant hconvert) ht [] n p v o
    ((fetchColumn_getObject ht hfetch hp).symm.trans ho)

theorem getObject_holds_integerList : Holds id (InVariant .utc (fun _ => .ok none) 0)
    (.listOf .integer) (.array ⟨[], 0⟩ [.number .integer 7, .null]) := by
  obtain ⟨column, w, hfetch, ho⟩ : ∃ column w, fetchColumn .utc 1 integerList = .ok column w ∧
      column.getObject .utc (0 : ℕ) = .ok (.array ⟨[], 0⟩ [.number .integer 7, .null]) :=
    ⟨_, _, rfl, rfl⟩
  have henv : Platform.utc = Platform.utc.withVariants (fun _ => .ok none) 0 := rfl
  rw [henv] at hfetch ho
  have hconvert : ∀ (c : Cell) (value : FlatVector),
      (.ok none : Except JavaException (Option FlatVector)) = .ok (some value) →
        value.root.type.Wf := by
    intro c value h
    cases h
  exact getObject_holds (v := integerList) hconvert (LogicalType.listOf_wf LogicalType.integer_wf)
    hfetch Nat.one_pos ho

end

/-- `UNION(num INTEGER)`. -/
def numUnion : LogicalType :=
  .node (.union ["", "num"]) [.node (.scalar .utinyint (.refl true)) [], .integer]

theorem numUnion_wf : numUnion.Wf :=
  .node ⟨⟨_, _, rfl⟩, rfl⟩ fun u hu => by
    obtain rfl | hu := List.mem_cons.1 hu
    · exact LogicalType.scalar_wf _ _
    · exact List.mem_singleton.1 hu ▸ LogicalType.integer_wf

/-- The column `[7]` of type `UNION(num INTEGER)`. -/
def numVector : FlatVector
  | [] => ⟨numUnion, fun _ => true, fun _ => .fixed 0, 0⟩
  | 0 :: _ => ⟨.node (.scalar .utinyint (.refl true)) [], fun _ => true, fun _ => .fixed 0, 0⟩
  | _ => ⟨.integer, fun _ => true, fun _ => .fixed 7, 0⟩

theorem columnType_of_constlenKind {type : DuckDBColumnType} {internalType : CAPIType} {scale : ℕ}
    {kind : TypeKind} (h : type.constlenKind internalType scale = some kind) :
    kind.columnType = type := by
  cases type <;> cases h <;> rfl

theorem mapObject_class (entries : List JObject) :
    Yields (fun o => o.getClass = some .linkedHashMap) (mapObject entries) :=
  Yields.bind_all fun _ => Yields.ok rfl

/-- **The class that is reported for a slot**: of the types that have no child vectors, and `MAP`,
    only a `GEOMETRY` is not what `getColumnClassName` reports. -/
theorem getObject_class_iff (lib : JavaLibrary) (s : Slot)
    (hs : s.type ∉ [DuckDBColumnType.list, .array, .struct, .union, .variant]) :
    Yields (fun value =>
      (∃ c, value.getClass = some c ∧ getColumnClassName [s.type] 1 = .ok c.getName) ↔
        s.type ≠ .geometry) (s.getObject lib) := by
  have hname : getColumnClassName [s.type] 1 = .ok (typeToJavaString s.type) :=
    getColumnClassName_column (i := 0) rfl
  rw [hname]
  unfold Slot.getObject
  cases hk : s.type.constlenKind s.internalType s.scale with
  | some kind =>
    refine (bitsObject_instanceOf kind s.bits).orJava.bind fun o ho => Yields.ok ?_
    obtain ⟨c, hc, hclass⟩ := Option.map_eq_some_iff.1 ho
    rw [columnType_of_constlenKind hk] at hclass
    refine iff_of_true ⟨c, hc, congrArg Except.ok hclass.symm⟩ fun hg => ?_
    rw [hg] at hk
    cases hk
  | none =>
    cases ht : s.type with
    | json => exact Yields.bind_all fun _ => Yields.ok (iff_of_true ⟨_, rfl, rfl⟩ nofun)
    | varchar | bit | interval | enum | unknown =>
      exact Yields.bind_all fun _ => Yields.ok (iff_of_true ⟨_, rfl, rfl⟩ nofun)
    | map =>
      exact (Yields.bind_all fun _ => mapObject_class _).orJava.bind fun o ho =>
        Yields.ok (iff_of_true ⟨_, ho, rfl⟩ nofun)
    | blob =>
      exact (blobObject_class _).orJava.bind fun o ho =>
        Yields.ok (iff_of_true ⟨_, ho, rfl⟩ nofun)
    | geometry =>
      refine (blobObject_class _).orJava.bind fun o ho => Yields.ok ?_
      refine iff_of_false (fun h => ?_) fun h => h rfl
      obtain ⟨c, hc, hclass⟩ := h
      cases hc.symm.trans ho
      exact absurd hclass (by decide)
    | list | array | struct | union | variant =>
      rw [ht] at hs
      exact (hs (by decide)).elim
    | _ =>
      rw [ht] at hk
      cases hk

/-- The slot of a `GEOMETRY` without a byte. -/
def geometrySlot : Slot :=
  ⟨.geometry, .invalid, 0, 0, .byteArray []⟩

/-- The `DuckDBBlobResult` of a `GEOMETRY` is reported as a `String`. -/
theorem getObject_class_iff_geometry :
    ¬ ∃ c, (JavaValue.object (.blob [])).getClass = some c ∧
      getColumnClassName [.geometry] 1 = .ok c.getName :=
  fun h => (getObject_class_iff .plain geometrySlot (by decide) _ rfl).1 h rfl

end DuckDBJava
