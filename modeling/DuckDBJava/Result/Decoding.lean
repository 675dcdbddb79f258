/-
  Nested values: what `getObject` returns is what the layout of the engine denotes.

  `Denotes` reads a slot by the layout alone: an entry of a `LIST` or `MAP` is a range of child
  slots, slot `p` of `ARRAY[N]` the child slots `p·N, …, p·N + N - 1`, a `STRUCT` its fields at the
  same slot, a `UNION` its member number tag.  Nothing in it wraps around, is bounds-checked or is
  materialised.  On a column whose rows denote values and whose child slots all decode, the fetch
  succeeds and `getObject` returns these values (`getObject_denotes`).
-/
import DuckDBJava.Result.Fetch

namespace DuckDBJava

open Exec PathTree

variable {env : Platform}

/-! ## The layout -/

/-- The object of a slot of a type without children, but for `VARIANT`. -/
def scalarObject (env : Platform) (kind : TypeKind) (c : Cell) : Except JavaException JObject :=
  match kind.fetchCase with
  | .enum => enumObject env kind c
  | .varchar =>
    if kind = .unlisted .json then do jsonObject (← varcharObject env c) else varcharObject env c
  | .blob => do blobObject (← blobBytes c)
  | .default => do varcharObject env (.string (← env.castToString kind c))
  | _ => constObject env kind c

/-- The value that slot `p` of a vector denotes. -/
inductive Denotes (env : Platform) : LogicalType → List ℕ → FlatVector → ℕ → JObject → Prop
  | null {t path v p} : v.root.valid p = false → Denotes env t path v p .null
  | scalar {kind path v p x} : v.root.valid p = true →
      scalarObject env kind (v.root.data p) = .ok x → Denotes env (.node kind []) path v p x
  | variant {path v p x} : v.root.valid p = true →
      env.variant ⟨path, p⟩ (v.root.data p) = .ok (.vector (.ok x)) →
      Denotes env (.node (.unlisted .variant) []) path v p x
  | list {t path v p} {offset length : ℕ} {xs : ℕ → JObject} : v.root.valid p = true →
      v.root.data p = .entry offset length → offset + length ≤ v.root.size →
      (∀ i < length, Denotes env t (0 :: path) (v.child 0) (offset + i) (xs i)) →
      Denotes env (.node .list [t]) path v p (.array ⟨path, p⟩ ((List.range length).map xs))
  | map {t path v p} {offset length : ℕ} {id : ℕ → ObjectId} {names : List String}
      {key value : ℕ → JObject} : v.root.valid p = true →
      v.root.data p = .entry offset length → offset + length ≤ v.root.size →
      (∀ i < length, Denotes env t (0 :: path) (v.child 0) (offset + i)
        (.struct (id i) names [key i, value i])) →
      Denotes env (.node .map [t]) path v p
        (.map (LinkedMap.lastWins JObject.equals
          ((List.range length).map fun i => (key i, value i))))
  | array {t path v p} {limit : ℕ} {xs : ℕ → JObject} : v.root.valid p = true →
      (∀ i < limit, Denotes env t (0 :: path) (v.child 0) (p * limit + i) (xs i)) →
      Denotes env (.node (.array limit) [t]) path v p
        (.array ⟨path, p⟩ ((List.range limit).map xs))
  | struct {names children path v p} {xs : ℕ → JObject} : v.root.valid p = true →
      (∀ i t, children[i]? = some t → Denotes env t (i :: path) (v.child i) p (xs i)) →
      Denotes env (.node (.struct names) children) path v p
        (.struct ⟨path, p⟩ (names.map env.newStringUTF) ((List.range children.length).map xs))
  | union {names tagType members path v p x} {tag : ℕ} {t : LogicalType} : v.root.valid p = true →
      Denotes env tagType (0 :: path) (v.child 0) p (.number .short tag) →
      members[tag]? = some t → Denotes env t ((1 + tag) :: path) (v.child (1 + tag)) p x →
      Denotes env (.node (.union names) (tagType :: members)) path v p x

/-! ## Reading ranges of slots -/

theorem arrayObject_eq (id : ObjectId) {m : ℕ} {d : Decoder} {offset length : ℕ} {xs : ℕ → JObject}
    (hle : offset + length ≤ m) (hm : m < 2 ^ 31) (h : ∀ i < length, d (offset + i) = .ok (xs i)) :
    arrayObject id m d (toInt offset) (toInt length) =
      .ok (.array id ((List.range length).map xs)) := by
  rw [toInt_natCast (by omega), toInt_natCast (by omega)]
  unfold arrayObject
  rw [requireE_of (by omega), Int.toNat_natCast]
  have : ((List.range length).mapM fun i : ℕ => readSlot m d (toInt (offset + i))) =
      .ok ((List.range length).map xs) := by
    rw [mapM_eq_ok, List.forall₂_map_right_iff, List.forall₂_same]
    intro i hi
    have hi := List.mem_range.1 hi
    rw [← Int.natCast_add, toInt_natCast (by omega), readSlot, if_pos (by omega),
      Int.toNat_natCast, h i hi]
  exact Except.bind_eq_ok.2 ⟨(), rfl, Except.bind_eq_ok.2 ⟨_, this, rfl⟩⟩

theorem arrayObject_isOk (id : ObjectId) {m : ℕ} {d : Decoder} {offset length : ℕ}
    (hle : offset + length ≤ m) (hm : m < 2 ^ 31) (h : ∀ q < m, ∃ y, d q = .ok y) :
    ∃ x, arrayObject id m d (toInt offset) (toInt length) = .ok x := by
  have hall : ∀ i, ∃ y, i < length → d (offset + i) = .ok y := by
    intro i
    by_cases hi : i < length
    · obtain ⟨y, hy⟩ := h (offset + i) (by omega)
      exact ⟨y, fun _ => hy⟩
    · exact ⟨.null, fun hi' => absurd hi' hi⟩
  choose xs hxs using hall
  exact ⟨_, arrayObject_eq id hle hm hxs⟩

/-- The slots of `ARRAY[limit]` are side by side. -/
theorem array_range_le {p n : ℕ} (limit : ℕ) (hp : p < n) : p * limit + limit ≤ n * limit := by
  rw [← Nat.succ_mul]
  exact Nat.mul_le_mul_right limit hp

/-- The child vectors of `t` can all be fetched. -/
def ChildrenOk (env : Platform) (t : LogicalType) (path : List ℕ) (n : ℕ) (v : FlatVector) : Prop :=
  checkEntries env t.children path 0 (t.kind.childRows v.root.size n) v = .ok ()

theorem ChildrenOk.child {kind : TypeKind} {children : List LogicalType} {path : List ℕ} {n i : ℕ}
    {v : FlatVector} {t : LogicalType} (h : ChildrenOk env (.node kind children) path n v)
    (ht : children[i]? = some t) : kind.childRows v.root.size n < 2 ^ 31 ∧
      ChildrenOk env t (i :: path) (kind.childRows v.root.size n) (v.child i) := by
  have := checkEntries_eq_ok.1 h i t ht
  rw [Nat.zero_add] at this
  obtain ⟨kind', children'⟩ := t
  obtain ⟨hn, hc, -, -⟩ := checkVector_eq_ok.1 this
  exact ⟨hn, hc⟩

theorem decodeSlot_of_valid {kind : TypeKind} {path : List ℕ} {s : FlatSlots} {m : ℕ}
    {ds : List Decoder} {row : ℕ} (hv : s.valid row = true) (hu : kind.columnType ≠ .union) :
    decodeSlot env kind path s m ds row =
      (validRow env kind path s m ds row >>= fun x => cellObject env kind (s.data row) x) := by
  rw [decodeSlot, if_pos hv, if_neg hu]

theorem lazyString_bind {x : Except JavaException JObject} (h : x ≠ .ok .null) :
    (x >>= lazyString) = x := by
  cases x with
  | error e => rfl
  | ok y => cases y with
    | null => exact absurd rfl h
    | _ => rfl

theorem varcharObject_ne_null (c : Cell) : varcharObject env c ≠ .ok .null := by
  cases c <;> exact fun h => by cases h

theorem enumObject_ne_null (kind : TypeKind) (c : Cell) : enumObject env kind c ≠ .ok .null := by
  unfold enumObject
  split
  · split
    · exact fun h => by cases h
    · exact fun h => by cases h
  · exact fun h => by cases h

theorem scalarObject_variant (c : Cell) (x : JObject) :
    scalarObject env (.unlisted .variant) c ≠ .ok x := by
  cases c <;> exact fun h => by cases h

/-- A scalar is decoded by its own accessor. -/
theorem decodeSlot_scalar {kind : TypeKind} (hs : LogicalType.ShapeOK kind [])
    (hvariant : kind ≠ .unlisted .variant) {path : List ℕ} {s : FlatSlots} {m row : ℕ}
    (hv : s.valid row = true) :
    decodeSlot env kind path s m [] row = scalarObject env kind (s.data row) := by
  have hu : kind.columnType ≠ .union := by
    intro hu
    obtain ⟨names, rfl⟩ := TypeKind.eq_union hu
    obtain ⟨⟨t, ts, h⟩, -⟩ := hs
    cases h
  rw [decodeSlot_of_valid hv hu]
  unfold validRow scalarObject cellObject
  cases kind with
  | decimal t p sc => rfl
  | enum t dict => exact lazyString_bind (enumObject_ne_null _ _)
  | list => obtain ⟨t, h⟩ := hs; cases h
  | map => obtain ⟨ns, k, w, h⟩ := hs; cases h
  | array m => obtain ⟨-, t, h⟩ := hs; cases h
  | struct names => exact absurd rfl hs.1
  | union names => exact absurd rfl hu
  | scalar t h =>
    cases t with
    | varchar => exact lazyString_bind (varcharObject_ne_null _)
    | invalid | interval | bit | any | varint | sqlnull | stringLiteral | integerLiteral =>
      refine lazyString_bind fun h => ?_
      obtain ⟨bytes, -, h⟩ := Except.bind_eq_ok.1 h
      exact varcharObject_ne_null _ h
    | decimal | enum | list | struct | map | array | union => cases h
    | _ => rfl
  | unlisted t =>
    cases t with
    | variant => exact absurd rfl hvariant
    | _ => rfl

/-- The fields of a struct, each by its own decoder. -/
theorem mapM_slotObjects {children : List LogicalType} {path : List ℕ} {n p : ℕ} {v : FlatVector}
    {xs : ℕ → JObject}
    (h : ∀ i t, children[i]? = some t → slotObject env t (i :: path) n (v.child i) p = .ok (xs i)) :
    (slotObjects env children path 0 n v).mapM (fun d => d p) =
      .ok ((List.range children.length).map xs) := by
  rw [mapM_eq_ok, List.forall₂_iff_get]
  refine ⟨by rw [slotObjects_length, List.length_map, List.length_range], fun i hi _ => ?_⟩
  have hd := slotObjects_getElem? env children path 0 n v i
  rw [List.getElem?_eq_getElem hi, Nat.zero_add] at hd
  obtain ⟨t, ht, hd⟩ := Option.map_eq_some_iff.1 hd.symm
  simp only [List.get_eq_getElem, ← hd, h i t ht, List.getElem_map, List.getElem_range]

/-- A slot that denotes a value is decoded to it. -/
theorem Denotes.slotObject {t : LogicalType} {path : List ℕ} {v : FlatVector} {p : ℕ} {x : JObject}
    (h : Denotes env t path v p x) (ht : t.Wf) {n : ℕ} (hp : p < n)
    (hc : ChildrenOk env t path n v) : slotObject env t path n v p = .ok x := by
  induction h generalizing n with
  | @null t path v p hv =>
    obtain ⟨kind, children⟩ := t
    rw [DuckDBJava.slotObject, decodeSlot, if_neg (by simp [hv])]
  | scalar hv hx =>
    rw [DuckDBJava.slotObject]
    refine (decodeSlot_scalar ht.shape ?_ hv).trans hx
    rintro rfl
    exact scalarObject_variant _ _ hx
  | @variant path v p x hv hx =>
    rw [DuckDBJava.slotObject, decodeSlot_of_valid hv DuckDBColumnType.noConfusion]
    exact Except.bind_eq_ok.2 ⟨_, hx, rfl⟩
  | @list t path v p offset length xs hv hdata hle hxs ih =>
    obtain ⟨hm, hc⟩ := hc.child (i := 0) rfl
    have hrow : validRow env .list path v.root v.root.size
        [DuckDBJava.slotObject env t (0 :: path) v.root.size (v.child 0)] p =
        .ok (.array ⟨path, p⟩ ((List.range length).map xs)) := by
      rw [validRow_list env hdata]
      exact arrayObject_eq _ hle hm fun i hi =>
        ih i hi (ht.child List.mem_cons_self) (by omega) hc
    rw [DuckDBJava.slotObject, decodeSlot_of_valid hv DuckDBColumnType.noConfusion]
    exact Except.bind_eq_ok.2 ⟨_, hrow, rfl⟩
  | @map t path v p offset length id names key value hv hdata hle hxs ih =>
    obtain ⟨hm, hc⟩ := hc.child (i := 0) rfl
    have hrow : validRow env .map path v.root v.root.size
        [DuckDBJava.slotObject env t (0 :: path) v.root.size (v.child 0)] p =
        .ok (.array ⟨path, p⟩ ((List.range length).map fun i =>
          .struct (id i) names [key i, value i])) := by
      rw [validRow_map env hdata]
      exact arrayObject_eq _ hle hm fun i hi =>
        ih i hi (ht.child List.mem_cons_self) (by omega) hc
    have hentries : ((List.range length).map fun i =>
          JObject.struct (id i) names [key i, value i]).mapM mapEntry =
        .ok ((List.range length).map fun i => (key i, value i)) := by
      rw [mapM_eq_ok, List.forall₂_map_left_iff, List.forall₂_map_right_iff, List.forall₂_same]
      exact fun i _ => rfl
    rw [DuckDBJava.slotObject, decodeSlot_of_valid hv (by decide),
      ← LinkedMap.ofEntries_eq_lastWins]
    refine Except.bind_eq_ok.2 ⟨_, hrow, ?_⟩
    exact Except.bind_eq_ok.2 ⟨_, rfl, Except.bind_eq_ok.2 ⟨_, hentries, rfl⟩⟩
  | @array t path v p limit xs hv hxs ih =>
    obtain ⟨hm, hc⟩ := hc.child (i := 0) rfl
    have hrow : validRow env (.array limit) path v.root (n * limit)
        [DuckDBJava.slotObject env t (0 :: path) (n * limit) (v.child 0)] p =
        .ok (.array ⟨path, p⟩ ((List.range limit).map xs)) := by
      have hle := array_range_le limit hp
      rw [validRow_array env]
      exact arrayObject_eq _ hle hm fun i hi =>
        ih i hi (ht.child List.mem_cons_self) (by omega) hc
    rw [DuckDBJava.slotObject, decodeSlot_of_valid hv DuckDBColumnType.noConfusion]
    exact Except.bind_eq_ok.2 ⟨_, hrow, rfl⟩
  | @struct names children path v p xs hv hxs ih =>
    have hrow : validRow env (.struct names) path v.root n
        (slotObjects env children path 0 n v) p = .ok (.struct ⟨path, p⟩
          (names.map env.newStringUTF) ((List.range children.length).map xs)) := by
      refine Except.bind_eq_ok.2 ⟨_, mapM_slotObjects fun i t hi => ?_, rfl⟩
      exact ih i t hi (ht.child (List.mem_of_getElem? hi)) hp (hc.child hi).2
    rw [DuckDBJava.slotObject, decodeSlot_of_valid hv DuckDBColumnType.noConfusion]
    exact Except.bind_eq_ok.2 ⟨_, hrow, rfl⟩
  | @union names tagType members path v p x tag t hv htag hmem hx ihtag ihx =>
    have htag' := ihtag (ht.child List.mem_cons_self) hp (hc.child (i := 0) rfl).2
    have hmem' : (tagType :: members)[1 + tag]? = some t := by
      rw [Nat.add_comm, List.getElem?_cons_succ, hmem]
    have hx' := ihx (ht.child (List.mem_of_getElem? hmem')) hp (hc.child hmem').2
    have hd := slotObjects_getElem? env (tagType :: members) path 0 n v (1 + tag)
    rw [hmem', Nat.zero_add] at hd
    rw [DuckDBJava.slotObject, decodeSlot, if_pos hv]
    show unionSlot (slotObjects env (tagType :: members) path 0 n v) p = _
    refine Except.bind_eq_ok.2 ⟨_, htag', ?_⟩
    refine Except.bind_eq_ok.2 ⟨_, ?_, hx'⟩
    rw [elementAt, if_pos (by omega)]
    have : ((1 : ℤ) + (tag : ℤ)).toNat = 1 + tag := by omega
    rw [this, hd]
    rfl

/-! ## A column -/

/-- The child vectors that a fetch materialises all decode: each of them can be fetched, and
    `getObject` returns an object for each of its slots. -/
def ChildSlotsDecode (env : Platform) (t : LogicalType) (path : List ℕ) (n : ℕ) (v : FlatVector) :
    Prop :=
  ∀ i u, t.children[i]? = some u → ∃ column w,
    processVector env u (i :: path) (t.kind.childRows v.root.size n) (v.child i) = .ok column w ∧
    ∀ q < t.kind.childRows v.root.size n, ∃ y, column.getObject env q = .ok y

/-- The same of the functions that describe the fetch. -/
theorem ChildSlotsDecode.spec {t : LogicalType} (ht : t.Wf) {path : List ℕ} {n : ℕ} {v : FlatVector}
    (h : ChildSlotsDecode env t path n v) : ChildrenOk env t path n v ∧
      ∀ d ∈ slotObjects env t.children path 0 (t.kind.childRows v.root.size n) v,
        ∀ q < t.kind.childRows v.root.size n, ∃ y, d q = .ok y := by
  have hspec : ∀ i u, t.children[i]? = some u →
      checkVector env u (i :: path) (t.kind.childRows v.root.size n) (v.child i) = .ok () ∧
      ∀ q < t.kind.childRows v.root.size n, ∃ y,
        slotObject env u (i :: path) (t.kind.childRows v.root.size n) (v.child i) q = .ok y := by
    intro i u hu
    obtain ⟨column, w, hok, hall⟩ := h i u hu
    have hwf := ht.child (List.mem_of_getElem? hu)
    have hcheck := (processVector_eq_ok hwf).1 ⟨column, w, hok⟩
    have hreads := processVector_spec env hwf (i :: path)
      (t.kind.childRows v.root.size n) (v.child i)
    rw [hcheck, hok] at hreads
    exact ⟨hcheck, fun q hq => hreads.2 q hq ▸ hall q hq⟩
  constructor
  · refine checkEntries_eq_ok.2 fun i u hu => ?_
    rw [Nat.zero_add]
    exact (hspec i u hu).1
  · intro d hd q hq
    obtain ⟨i, hi, rfl⟩ := List.getElem_of_mem hd
    have hget := slotObjects_getElem? env t.children path 0 (t.kind.childRows v.root.size n) v i
    rw [List.getElem?_eq_getElem hi, Nat.zero_add] at hget
    obtain ⟨u, hu, hget⟩ := Option.map_eq_some_iff.1 hget.symm
    rw [← hget]
    exact (hspec i u hu).2 q hq

/-- A row that denotes a value can be filled. -/
theorem validRow_isOk {kind : TypeKind} {children : List LogicalType} {path : List ℕ} {n p : ℕ}
    {v : FlatVector} {x : JObject} (hk : kind.fetchCase ≠ .struct) (hv : v.root.valid p = true)
    (hx : slotObject env (.node kind children) path n v p = .ok x) :
    ∃ y, validRow env kind path v.root (kind.childRows v.root.size n)
      (slotObjects env children path 0 (kind.childRows v.root.size n) v) p = .ok y := by
  have hu : kind.columnType ≠ .union := by
    intro hu
    obtain ⟨names, rfl⟩ := TypeKind.eq_union hu
    exact hk rfl
  rw [slotObject, decodeSlot_of_valid hv hu] at hx
  obtain ⟨y, hy, -⟩ := Except.bind_eq_ok.1 hx
  exact ⟨y, hy⟩

/-- A column whose rows denote values and whose child slots decode can be fetched. -/
theorem checkVector_of_denotes {t : LogicalType} (ht : t.Wf) {path : List ℕ} {n : ℕ}
    (hn : n < 2 ^ 31) {v : FlatVector} (hchildren : ChildSlotsDecode env t path n v)
    (hrows : ∀ p < n, t.kind.fetchCase ≠ .constlen → ∃ x, Denotes env t path v p x) :
    checkVector env t path n v = .ok () := by
  obtain ⟨hc, hslots⟩ := hchildren.spec ht
  obtain ⟨kind, children⟩ := t
  simp only [LogicalType.kind_node, LogicalType.children_node] at hslots
  refine checkVector_eq_ok.2 ⟨hn, hc, ?_, fun p hp => ?_⟩
  · exact ht.shape.decimalOk
  · rw [fetchRow]
    by_cases hs : kind.fetchCase = .struct
    · -- the fields of every row, NULL or not
      rw [if_pos (.inr hs), validRow_struct hs]
      rw [TypeKind.childRows_of_struct hs] at hslots ⊢
      obtain ⟨xs, hxs⟩ := mapM_isOk.2 fun d hd => hslots d hd p hp
      exact ⟨_, Except.bind_eq_ok.2 ⟨xs, hxs, rfl⟩⟩
    · by_cases hv : v.root.valid p = true
      · rw [if_pos (.inl hv)]
        by_cases hconst : kind.fetchCase = .constlen
        · exact ⟨.null, by unfold validRow; rw [hconst]⟩
        · obtain ⟨x, hx⟩ := hrows p hp hconst
          exact validRow_isOk hs hv (hx.slotObject ht hp hc)
      · rw [if_neg (by simp [hv, hs])]
        exact ⟨.null, rfl⟩

/-- **Nested values are decoded by the layout.**  For every type and every column of it whose
    child slots all decode and whose rows denote values, slots of constant width apart, the fetch
    succeeds; `getObject` returns null for a NULL row and the value a row denotes for every other
    one. -/
theorem getObject_denotes {v : FlatVector} (ht : v.root.type.Wf) {n : ℕ} (hn : n < 2 ^ 31)
    (hchildren : ChildSlotsDecode env v.root.type [] n v)
    (hrows : ∀ p < n, v.root.type.kind.fetchCase ≠ .constlen →
      ∃ x, Denotes env v.root.type [] v p x) :
    ∃ column w, fetchColumn env n v = .ok column w ∧ ∀ p < n,
      (v.root.valid p = false → column.getObject env p = .ok .null) ∧
      ∀ x, Denotes env v.root.type [] v p x → column.getObject env p = .ok x := by
  have hc := (hchildren.spec ht).1
  have hcheck := checkVector_of_denotes ht hn hchildren hrows
  obtain ⟨column, w, hok⟩ := (processVector_eq_ok ht).2 hcheck
  refine ⟨column, w, hok, fun p hp => ?_⟩
  have hdenotes : ∀ x, Denotes env v.root.type [] v p x → column.getObject env p = .ok x :=
    fun x hx => (fetchColumn_getObject ht hok hp).trans (hx.slotObject ht hp hc)
  exact ⟨fun hv => hdenotes _ (.null hv), hdenotes⟩

/-- The object of a `VARIANT` is that of the value in it. -/
theorem Denotes.variant_of_convert {convert : Cell → Except JavaException (Option FlatVector)}
    {depth : ℕ} {path : List ℕ} {v w : FlatVector} {p : ℕ} {x : JObject}
    (hv : v.root.valid p = true) (hconvert : convert (v.root.data p) = .ok (some w))
    (ht : w.root.type.Wf)
    (hchildren : ChildSlotsDecode (env.withVariants convert depth) w.root.type (p :: path) 1 w)
    (hx : Denotes (env.withVariants convert depth) w.root.type (p :: path) w 0 x) :
    Denotes (env.withVariants convert (depth + 1)) (.node (.unlisted .variant) []) path v p x := by
  have hcheck := checkVector_of_denotes ht (by decide) hchildren fun q hq _ => by
    obtain rfl : q = 0 := by omega
    exact ⟨x, hx⟩
  obtain ⟨column, w', hok⟩ := (processVector_eq_ok ht).2 hcheck
  have hget : column.getObject (env.withVariants convert depth) 0 = .ok x :=
    (processVector_getObject ht hok Nat.one_pos).trans
      (hx.slotObject ht Nat.one_pos (hchildren.spec ht).1)
  refine .variant hv ?_
  show (convert (v.root.data p) >>= variantElement (env.withVariants convert depth) ⟨path, p⟩) = _
  rw [hconvert]
  show variantElement _ _ (some w) = _
  rw [variantElement, hok]
  exact congrArg (fun r => Except.ok (JObject.vector r)) hget

/-- A platform in UTC that decodes no string. -/
def Platform.utc : Platform where
  systemDefault := DuckDBJava.utc
  resolve l := l
  decodeCharbuffer _ := ""
  newStringUTF s := s
  castToString _ _ := .ok []
  variant _ _ := .ok .null

/-- The column `[[7, NULL]]` of type `INTEGER[]`. -/
def integerList : FlatVector
  | [] => ⟨.listOf .integer, fun _ => true, fun _ => .entry 0 2, 2⟩
  | _ => ⟨.integer, fun q => q == 0, fun _ => .fixed 7, 0⟩

theorem integerList_denotes : Denotes .utc integerList.root.type [] integerList 0
    (.array ⟨[], 0⟩ [.number .integer 7, .null]) := by
  have hslots : ∀ i < 2, Denotes .utc .integer [0] (integerList.child 0)
      (0 + i) (if i = 0 then .number .integer 7 else .null) := by
    intro i hi
    match i, hi with
    | 0, _ => exact .scalar rfl rfl
    | 1, _ => exact .null rfl
  exact .list rfl rfl (Nat.le_refl 2) hslots

theorem getObject_denotes_integerList : ∃ column w,
    fetchColumn .utc 1 integerList = .ok column w ∧
    column.getObject .utc 0 = .ok (.array ⟨[], 0⟩ [.number .integer 7, .null]) := by
  have hwf : integerList.root.type.Wf := LogicalType.listOf_wf LogicalType.integer_wf
  have hchild : ChildSlotsDecode .utc integerList.root.type [] 1 integerList := by
    intro i u hu
    match i, hu with
    | 0, rfl =>
      refine ⟨_, _, rfl, fun q hq => ?_⟩
      match q, hq with
      | 0, _ => exact ⟨_, rfl⟩
      | 1, _ => exact ⟨_, rfl⟩
  obtain ⟨column, w, hok, hrows⟩ := getObject_denotes hwf (by decide) hchild
    (fun p hp _ => by
      obtain rfl : p = 0 := by omega
      exact ⟨_, integerList_denotes⟩)
  exact ⟨column, w, hok, (hrows 0 Nat.one_pos).2 _ integerList_denotes⟩

end DuckDBJava
