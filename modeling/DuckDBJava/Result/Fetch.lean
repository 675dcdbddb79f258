/-
  What a fetch makes of a vector, slot by slot.

  `slotObject` is the object a slot is decoded to, as a function of the vector alone, and
  `checkVector` says with which exception, if any, the vector cannot be fetched.  `ProcessVector`
  fails as `checkVector` says, and `getObject` on what it returns is `slotObject`
  (`processVector_spec`).
-/
import DuckDBJava.Result.Vectors
import Mathlib.Data.List.GetD
import Mathlib.Data.List.Forall2

namespace DuckDBJava

open Exec PathTree

/-- The decoder of the slots of a vector. -/
abbrev Decoder := ℕ → Except JavaException JObject

/-! ## One level -/

/-- Slot `idx` of `m` slots. -/
def readSlot (m : ℕ) (d : Decoder) (idx : ℤ) : Except JavaException JObject :=
  if 0 ≤ idx ∧ idx < m then d idx.toNat else .error .arrayIndexOutOfBounds

/-- The array of the slots from `offset` on. -/
def arrayObject (id : ObjectId) (m : ℕ) (d : Decoder) (offset length : ℤ) :
    Except JavaException JObject := do
  requireE (0 ≤ length) .negativeArraySize
  let elements ← (List.range length.toNat).mapM fun i : ℕ => readSlot m d (toInt (offset + i))
  return .array id elements

/-- The struct of the fields at a slot. -/
def structObject (id : ObjectId) (keys : List String) (ds : List Decoder) (row : ℕ) :
    Except JavaException JObject := do
  let attributes ← ds.mapM fun d => d row
  return .struct id keys attributes

theorem failure_structObject (id : ObjectId) (keys : List String) (ds : List Decoder) (row : ℕ) :
    failure (structObject id keys ds row) = failure (ds.mapM fun d => d row) := by
  unfold structObject
  cases ds.mapM fun d => d row <;> rfl

/-- The member of a union that the tag at a slot selects. -/
def unionSlot (ds : List Decoder) (row : ℕ) : Except JavaException JObject :=
  match ds.head? with
  | none => .error .arrayIndexOutOfBounds
  | some d => do
    match ← d row with
    | .number .short tag => do (← elementAt ds (1 + tag)) row
    | .null => .error .nullPointer
    | _ => .error .classCast

/-- What the fetch stores for a row that is not NULL; `ds` decode the `m` slots of the
    children. -/
def validRow (env : Platform) (kind : TypeKind) (path : List ℕ) (s : FlatSlots) (m : ℕ)
    (ds : List Decoder) (row : ℕ) : Except JavaException JObject :=
  match kind.fetchCase with
  | .constlen => .ok .null
  | .enum => enumObject env kind (s.data row)
  | .struct => structObject ⟨path, row⟩ (kind.fieldNames.map env.newStringUTF) ds row
  | .blob => blobBytes (s.data row)
  | .array => match kind, ds with
    | .array limit, [d] => arrayObject ⟨path, row⟩ m d (toInt (row * limit : ℕ)) (toInt limit)
    | _, _ => .error .engine
  | .list => match ds with
    | [d] => do
      let (offset, limit) ← listEntry (s.data row)
      arrayObject ⟨path, row⟩ m d (toInt offset) (toInt limit)
    | _ => .error .engine
  | .variant => env.variant ⟨path, row⟩ (s.data row)
  | .varchar => varcharObject env (s.data row)
  | .default => do varcharObject env (.string (← env.castToString kind (s.data row)))

section
variable (env : Platform) {path : List ℕ} {s : FlatSlots} {m row : ℕ} {ds : List Decoder}
  {d : Decoder}

theorem validRow_list {offset length : ℤ} (h : s.data row = .entry offset length) :
    validRow env .list path s m [d] row =
      arrayObject ⟨path, row⟩ m d (toInt offset) (toInt length) := by
  unfold validRow
  rw [h]; rfl

theorem validRow_map {offset length : ℤ} (h : s.data row = .entry offset length) :
    validRow env .map path s m [d] row =
      arrayObject ⟨path, row⟩ m d (toInt offset) (toInt length) := by
  unfold validRow
  rw [h]; rfl

theorem validRow_array (limit : ℕ) : validRow env (.array limit) path s m [d] row =
    arrayObject ⟨path, row⟩ m d (toInt (row * limit : ℕ)) (toInt limit) := rfl

variable {env}

theorem validRow_struct {kind : TypeKind} (h : kind.fetchCase = .struct) :
    validRow env kind path s m ds row =
      structObject ⟨path, row⟩ (kind.fieldNames.map env.newStringUTF) ds row := by
  unfold validRow
  rw [h]

end

/-- What the fetch stores for a row: structs are made for NULL rows, too. -/
def fetchRow (env : Platform) (kind : TypeKind) (path : List ℕ) (s : FlatSlots) (m : ℕ)
    (ds : List Decoder) (row : ℕ) : Except JavaException JObject :=
  if s.valid row ∨ kind.fetchCase = .struct then validRow env kind path s m ds row else .ok .null

/-- What `getObject` returns for a row. -/
def decodeSlot (env : Platform) (kind : TypeKind) (path : List ℕ) (s : FlatSlots) (m : ℕ)
    (ds : List Decoder) : Decoder := fun row =>
  if s.valid row then
    if kind.columnType = .union then unionSlot ds row
    else do cellObject env kind (s.data row) (← validRow env kind path s m ds row)
  else .ok .null

/-! ## All levels -/

mutual

/-- The object of each of the `n` slots of a vector. -/
def slotObject (env : Platform) : LogicalType → List ℕ → ℕ → FlatVector → Decoder
  | .node kind children, path, n, v =>
    decodeSlot env kind path v.root (kind.childRows v.root.size n)
      (slotObjects env children path 0 (kind.childRows v.root.size n) v)

/-- The decoders of the child vectors from the `i`-th on. -/
def slotObjects (env : Platform) : List LogicalType → List ℕ → ℕ → ℕ → FlatVector → List Decoder
  | [], _, _, _, _ => []
  | t :: ts, path, i, n, v =>
    slotObject env t (i :: path) n (v.child i) :: slotObjects env ts path (i + 1) n v

end

mutual

/-- The exception with which `ProcessVector` ends on `n` rows, if any. -/
def checkVector (env : Platform) : LogicalType → List ℕ → ℕ → FlatVector → Except JavaException Unit
  | .node kind children, path, n, v => do
    requireE (n < 2 ^ 31) .negativeArraySize
    checkEntries env children path 0 (kind.childRows v.root.size n) v
    requireE (kind.decimalOk = true) .engine
    failure ((List.range n).mapM
      (fetchRow env kind path v.root (kind.childRows v.root.size n)
        (slotObjects env children path 0 (kind.childRows v.root.size n) v)))

/-- The same of the child vectors from the `i`-th on. -/
def checkEntries (env : Platform) :
    List LogicalType → List ℕ → ℕ → ℕ → FlatVector → Except JavaException Unit
  | [], _, _, _, _ => .ok ()
  | t :: ts, path, i, n, v => do
    checkVector env t (i :: path) n (v.child i)
    checkEntries env ts path (i + 1) n v

end

theorem slotObjects_congr (env : Platform) (ts : List LogicalType) (path : List ℕ) (i n : ℕ)
    {v w : FlatVector} (h : ∀ j, i ≤ j → v.child j = w.child j) :
    slotObjects env ts path i n v = slotObjects env ts path i n w := by
  induction ts generalizing i with
  | nil => rfl
  | cons t ts ih =>
    rw [slotObjects, slotObjects, h i (Nat.le_refl i), ih (i + 1) fun j hj => h j (by omega)]

theorem checkEntries_congr (env : Platform) (ts : List LogicalType) (path : List ℕ) (i n : ℕ)
    {v w : FlatVector} (h : ∀ j, i ≤ j → v.child j = w.child j) :
    checkEntries env ts path i n v = checkEntries env ts path i n w := by
  induction ts generalizing i with
  | nil => rfl
  | cons t ts ih =>
    rw [checkEntries, checkEntries, h i (Nat.le_refl i), ih (i + 1) fun j hj => h j (by omega)]

theorem checkEntries_forall {env : Platform} {ts : List LogicalType} {path : List ℕ} {i n : ℕ}
    {v w : FlatVector} (h : ∀ j t, ts[j]? = some t →
      checkVector env t ((i + j) :: path) n (v.child (i + j)) =
        checkVector env t ((i + j) :: path) n (w.child (i + j))) :
    checkEntries env ts path i n v = checkEntries env ts path i n w := by
  induction ts generalizing i with
  | nil => rfl
  | cons t ts ih =>
    obtain ⟨ht, hts⟩ := (forall_getElem?_cons (P := fun k u =>
      checkVector env u (k :: path) n (v.child k) =
        checkVector env u (k :: path) n (w.child k))).1 h
    rw [checkEntries, checkEntries, ht, ih hts]

theorem slotObjects_length (env : Platform) (ts : List LogicalType) (path : List ℕ) (i n : ℕ)
    (v : FlatVector) : (slotObjects env ts path i n v).length = ts.length := by
  induction ts generalizing i with
  | nil => rfl
  | cons t ts ih => rw [slotObjects, List.length_cons, List.length_cons, ih]

theorem slotObjects_getElem? (env : Platform) (ts : List LogicalType) (path : List ℕ) (i n : ℕ)
    (v : FlatVector) (j : ℕ) : (slotObjects env ts path i n v)[j]? =
      ts[j]?.map fun t => slotObject env t ((i + j) :: path) n (v.child (i + j)) := by
  induction ts generalizing i j with
  | nil => rw [slotObjects, List.getElem?_nil, List.getElem?_nil]; rfl
  | cons t ts ih =>
    rw [slotObjects]
    cases j with
    | zero => rfl
    | succ j =>
      rw [List.getElem?_cons_succ, List.getElem?_cons_succ, ih]
      congr 2
      rw [Nat.add_assoc, Nat.add_comm 1 j]

theorem requireE_bind_eq_ok {c : Prop} [Decidable c] {e : JavaException}
    {x : Except JavaException Unit} : (requireE c e >>= fun _ => x) = .ok () ↔ c ∧ x = .ok () := by
  unfold requireE
  split
  · next h => simp [h, bind, Except.bind]
  · next h => simp [h, bind, Except.bind]

theorem bind_unit_eq_ok {x y : Except JavaException Unit} :
    (x >>= fun _ => y) = .ok () ↔ x = .ok () ∧ y = .ok () := by
  cases x <;> simp [bind, Except.bind]

/-- The vector can be fetched iff its child vectors can and its rows can be filled. -/
theorem checkVector_eq_ok {env : Platform} {kind : TypeKind} {children : List LogicalType}
    {path : List ℕ} {n : ℕ} {v : FlatVector} :
    checkVector env (.node kind children) path n v = .ok () ↔
      n < 2 ^ 31 ∧ checkEntries env children path 0 (kind.childRows v.root.size n) v = .ok () ∧
      kind.decimalOk = true ∧ ∀ row < n, ∃ x,
        fetchRow env kind path v.root (kind.childRows v.root.size n)
          (slotObjects env children path 0 (kind.childRows v.root.size n) v) row = .ok x := by
  rw [checkVector, requireE_bind_eq_ok, bind_unit_eq_ok, requireE_bind_eq_ok, failure_eq_ok,
    mapM_isOk]
  simp only [List.mem_range]

theorem checkEntries_eq_ok {env : Platform} {ts : List LogicalType} {path : List ℕ} {i n : ℕ}
    {v : FlatVector} : checkEntries env ts path i n v = .ok () ↔
      ∀ j t, ts[j]? = some t →
        checkVector env t ((i + j) :: path) n (v.child (i + j)) = .ok () := by
  induction ts generalizing i with
  | nil => simp [checkEntries]
  | cons t ts ih =>
    rw [checkEntries, bind_unit_eq_ok, ih]
    exact (forall_getElem?_cons (P := fun k u =>
      checkVector env u (k :: path) n (v.child k) = .ok ())).symm

/-! ## One level of `ProcessVector` -/

/-- The vector has `m` slots, decoded by `d`. -/
def Reads (env : Platform) (m : ℕ) (column : DuckDBVector) (d : Decoder) : Prop :=
  column.length = m ∧ ∀ row < m, column.getObject env row = d row

section
variable {env : Platform} {m n : ℕ}

theorem Reads.getObject {column : DuckDBVector} {d : Decoder} (h : Reads env m column d) (idx : ℤ) :
    column.getObject env idx = readSlot m d idx := by
  unfold readSlot
  by_cases hidx : 0 ≤ idx ∧ idx < m
  · rw [if_pos hidx, ← h.2 idx.toNat (by omega), Int.toNat_of_nonneg hidx.1]
  · rw [if_neg hidx, DuckDBVector.getObject, h.1, if_neg hidx]

theorem Reads.newDuckDBArray {column : DuckDBVector} {d : Decoder} (h : Reads env m column d)
    (id : ObjectId) (offset length : ℤ) :
    newDuckDBArray env id column offset length = arrayObject id m d offset length := by
  unfold DuckDBJava.newDuckDBArray arrayObject
  rw [mapM_congr fun (i : ℕ) _ => h.getObject (toInt (offset + i))]

theorem newDuckDBStruct_eq {columns : List DuckDBVector} {ds : List Decoder}
    (h : List.Forall₂ (Reads env m) columns ds) (id : ObjectId) (keys : List String) {row : ℕ}
    (hrow : row < m) : newDuckDBStruct env id keys columns row = structObject id keys ds row := by
  unfold newDuckDBStruct structObject
  have : (columns.mapM fun c => c.getObject env row) = ds.mapM fun d => d row := by
    induction h with
    | nil => rfl
    | cons hd _ ih => rw [List.mapM_cons, List.mapM_cons, hd.2 row hrow, ih]
  rw [this]

/-- The rows of a traversal of `0, …, n - 1`. -/
theorem mapM_range_eq_ok {α : Type} {f : ℕ → Except JavaException α} {xs : List α}
    (h : (List.range n).mapM f = .ok xs) (a : α) {row : ℕ} (hrow : row < n) :
    f row = .ok (xs.getD row a) := by
  have h := mapM_eq_ok.1 h
  have hlen := h.length_eq
  rw [List.length_range] at hlen
  have := h.get (i := row) (by rwa [List.length_range]) (by rwa [← hlen])
  rw [List.getD_eq_getElem _ _ (by rwa [← hlen])]
  simpa using this

/-- The condition on `varlen_data` after the rows are filled. -/
def Filled (f : Decoder) (n : ℕ) (varlen : List JObject) : Prop :=
  ∀ row < n, f row = .ok (varlen.getD row .null)

theorem liftE_fills {f : Decoder} {x : Except JavaException (List JObject)}
    (hx : x = (List.range n).mapM f) (v : FlatVector) :
    Yields (fun varlen _ => Filled f n varlen) (failure ((List.range n).mapM f))
      ((liftE x : M JavaException FlatVector (List JObject)) v) := by
  subst hx
  exact (Yields.liftE _ v).imp fun varlen _ h row hrow => mapM_range_eq_ok h.1 .null hrow

/-- The `default` case: the cast decides whether the fetch fails, and what is cast is decoded. -/
theorem castAndReference_fills {kind : TypeKind} {path : List ℕ} {ds : List Decoder}
    (hk : kind.fetchCase = .default) (v : FlatVector) :
    Yields (fun varlen _ => Filled (fetchRow env kind path v.root m ds) n varlen)
      (failure ((List.range n).mapM (fetchRow env kind path v.root m ds)))
      ((do
        castAndReference env kind n
        let s ← getRoot
        liftE (fillValid s n fun row => varcharObject env (s.data row)) :
          M JavaException FlatVector (List JObject)) v) := by
  have hrow : ∀ row, fetchRow env kind path v.root m ds row =
      if v.root.valid row then
        (do varcharObject env (.string (← env.castToString kind (v.root.data row))))
      else .ok .null := by
    intro row
    simp [fetchRow, validRow, hk]
  have hfail : failure ((List.range n).mapM (fetchRow env kind path v.root m ds)) =
      failure ((List.range n).mapM fun row =>
        if v.root.valid row then env.castToString kind (v.root.data row) else .ok []) := by
    refine failure_mapM_congr fun row _ => ?_
    rw [hrow]
    split
    · cases env.castToString kind (v.root.data row) <;> rfl
    · rfl
  cases hcast : (List.range n).mapM fun row =>
      if v.root.valid row then env.castToString kind (v.root.data row) else .ok [] with
  | error e =>
    have : castAndReference env kind n v = .error e v := by
      rw [castAndReference, getRoot_bind, hcast]; rfl
    rw [bind_error this, hfail, hcast]
    exact rfl
  | ok strings =>
    have : castAndReference env kind n v = .ok () (v.setRoot { v.root with
        type := .node (.scalar .varchar (.refl true)) [],
        data := fun row => .string (strings.getD row []) }) := by
      rw [castAndReference, getRoot_bind, hcast]; rfl
    rw [bind_ok this, getRoot_bind]
    refine liftE_fills (mapM_congr fun row hr => ?_) _
    have hs := mapM_range_eq_ok hcast [] (List.mem_range.1 hr)
    rw [hrow]
    by_cases hv : v.root.valid row = true
    · rw [if_pos hv] at hs
      rw [if_pos hv, hs]
      exact if_pos hv
    · rw [if_neg hv]
      exact if_neg hv

theorem TypeKind.decimalOk_of_ne {kind : TypeKind} (h : kind.fetchCase ≠ .constlen) :
    kind.decimalOk = true := by
  cases kind with
  | decimal t p sc => exact absurd rfl h
  | _ => rfl

/-- A row that `fillValid` skips, or fills with `f`. -/
theorem fetchRow_eq {kind : TypeKind} {path : List ℕ} {s : FlatSlots} {ds : List Decoder}
    {f : Decoder} (hk : kind.fetchCase ≠ .struct)
    (hf : ∀ row, f row = validRow env kind path s m ds row) :
    fillValid s n f = (List.range n).mapM (fetchRow env kind path s m ds) := by
  refine mapM_congr fun row _ => ?_
  simp only [fetchRow, hk, or_false, hf]

/-- Filling the rows of one vector. -/
theorem fillVarlen_spec {kind : TypeKind} {path : List ℕ} {columns : List DuckDBVector}
    {ds : List Decoder} (hcols : List.Forall₂ (Reads env m) columns ds)
    (hone : kind.fetchCase = .array ∨ kind.fetchCase = .list → ∃ d, ds = [d])
    (hrows : kind.fetchCase = .struct → n = m) (hn : n < 2 ^ 31) (v : FlatVector) :
    Yields (fun varlen _ => Filled (fetchRow env kind path v.root m ds) n varlen)
      (do
        requireE (kind.decimalOk = true) .engine
        failure ((List.range n).mapM (fetchRow env kind path v.root m ds)))
      (fillVarlen env kind path n columns v) := by
  rw [fillVarlen, getRoot_bind]
  cases hk : kind.fetchCase with
  | constlen =>
    refine (Yields.require _ _ v).bind fun u t ht => ?_
    have hall : ∀ row, fetchRow env kind path v.root m ds row = .ok .null := by
      intro row
      simp [fetchRow, validRow, hk]
    have : (List.range n).mapM (fetchRow env kind path v.root m ds) =
        (List.range n).mapM fun _ => .ok .null := mapM_congr fun row _ => hall row
    rw [this, failure_eq_ok.2 (mapM_isOk.2 fun _ _ => ⟨_, rfl⟩)]
    exact fun row _ => hall row
  | default =>
    rw [requireE_of (TypeKind.decimalOk_of_ne (by rw [hk]; exact FetchCase.noConfusion))]
    exact castAndReference_fills hk v
  | struct =>
    rw [requireE_of (TypeKind.decimalOk_of_ne (by rw [hk]; exact FetchCase.noConfusion))]
    refine liftE_fills (mapM_congr fun row hr => ?_) v
    have hr := List.mem_range.1 hr
    rw [toInt_natCast (by omega), newDuckDBStruct_eq hcols _ _ (hrows hk ▸ hr), fetchRow,
      if_pos (.inr hk)]
    unfold validRow
    rw [hk]
  | array =>
    rw [requireE_of (TypeKind.decimalOk_of_ne (by rw [hk]; exact FetchCase.noConfusion))]
    obtain ⟨d, rfl⟩ := hone (.inl hk)
    cases hcols with
    | cons hd hnil =>
      cases hnil
      obtain ⟨limit, rfl⟩ := TypeKind.eq_array hk
      refine liftE_fills (fetchRow_eq (by rw [hk]; exact FetchCase.noConfusion) fun row => ?_) v
      exact hd.newDuckDBArray _ _ _
  | list =>
    rw [requireE_of (TypeKind.decimalOk_of_ne (by rw [hk]; exact FetchCase.noConfusion))]
    obtain ⟨d, rfl⟩ := hone (.inr hk)
    cases hcols with
    | cons hd hnil =>
      cases hnil
      refine liftE_fills (fetchRow_eq (by rw [hk]; exact FetchCase.noConfusion) fun row => ?_) v
      unfold validRow
      rw [hk]
      simp only [hd.newDuckDBArray]
  | _ =>
    rw [requireE_of (TypeKind.decimalOk_of_ne (by rw [hk]; exact FetchCase.noConfusion))]
    refine liftE_fills (fetchRow_eq (by rw [hk]; exact FetchCase.noConfusion) fun row => ?_) v
    unfold validRow
    rw [hk]

/-! ## `getObject` on a fetched vector -/

theorem structObject_eq_ok {id : ObjectId} {keys : List String} {ds : List Decoder} {row : ℕ}
    {x : JObject} : structObject id keys ds row = .ok x ↔
      ∃ attributes, List.Forall₂ (fun d y => d row = .ok y) ds attributes ∧
        x = .struct id keys attributes := by
  unfold structObject
  rw [Except.bind_eq_ok]
  constructor
  · rintro ⟨attributes, hs, h⟩
    cases h
    exact ⟨attributes, mapM_eq_ok.1 hs, rfl⟩
  · rintro ⟨attributes, hs, rfl⟩
    exact ⟨attributes, mapM_eq_ok.2 hs, rfl⟩

/-- The member is the one its own decoder gives. -/
theorem unionMember_eq {ds : List Decoder} {row : ℕ} {attributes : List JObject}
    (h : List.Forall₂ (fun d y => d row = .ok y) ds attributes) :
    unionMember attributes = unionSlot ds row := by
  have hmember : ∀ idx, elementAt attributes idx = (elementAt ds idx >>= fun d => d row) := by
    intro idx
    unfold elementAt
    by_cases hidx : 0 ≤ idx
    · rw [if_pos hidx, if_pos hidx]
      by_cases hi : idx.toNat < ds.length
      · rw [List.getElem?_eq_getElem hi, List.getElem?_eq_getElem (h.length_eq ▸ hi)]
        exact (h.get hi (h.length_eq ▸ hi)).symm
      · rw [List.getElem?_eq_none (by rw [← h.length_eq]; omega),
          List.getElem?_eq_none (by omega)]
        rfl
    · rw [if_neg hidx, if_neg hidx]; rfl
  cases h with
  | nil => rfl
  | @cons d y ds ys hd htl =>
    unfold unionMember unionSlot
    simp only [List.head?_cons, hd]
    cases y with
    | number cls tag => cases cls with
      | short => exact hmember (1 + tag)
      | _ => rfl
    | _ => rfl

theorem decodeSlot_eq {kind : TypeKind} {path : List ℕ} {s : FlatSlots} {ds : List Decoder}
    {varlen : List JObject} (h : Filled (fetchRow env kind path s m ds) n varlen) {row : ℕ}
    (hrow : row < n) :
    (if !s.valid row then .ok .null
      else cellObject env kind (s.data row) (varlen.getD row .null)) =
      decodeSlot env kind path s m ds row := by
  have h := h row hrow
  unfold decodeSlot
  by_cases hv : s.valid row = true
  · rw [fetchRow, if_pos (.inl hv)] at h
    rw [hv, if_neg (by decide), if_pos rfl, h]
    by_cases hu : kind.columnType = .union
    · rw [if_pos hu]
      have hk : kind.fetchCase = .struct := by
        obtain ⟨names, rfl⟩ := TypeKind.eq_union hu
        rfl
      unfold validRow at h
      rw [hk] at h
      obtain ⟨attributes, hs, hx⟩ := structObject_eq_ok.1 h
      rw [hx, ← unionMember_eq hs, cellObject, hu]
      rfl
    · rw [if_neg hu]; rfl
  · rw [if_pos (by simpa using hv), if_neg hv]

/-! ## All levels of `ProcessVector` -/

theorem yields_onChild {β : Type} {P : β → FlatVector → Prop} {c : Except JavaException Unit}
    {x : M JavaException FlatVector β} {i : ℕ} {v : FlatVector} (h : Yields P c (x (v.child i))) :
    Yields (fun b w => P b (w.child i) ∧ w.root = v.root ∧ ∀ j, j ≠ i → w.child j = v.child j) c
      (onChild i x v) := by
  rw [onChild]
  cases c with
  | ok u => cases hx : x (v.child i) with
    | ok b w =>
      rw [hx] at h
      exact ⟨(child_setChild_self i w v).symm ▸ h, rfl, fun j hj => child_setChild_ne hj w v⟩
    | error e w => rw [hx] at h; exact h.elim
  | error e => cases hx : x (v.child i) with
    | ok b w => rw [hx] at h; exact h.elim
    | error e' w => rw [hx] at h; exact h

/-- What is proved of the types of the children holds of the list of them. -/
theorem processEntries_spec {ts : List LogicalType} (hts : ∀ t ∈ ts, ∀ path n v,
      Yields (fun column _ => Reads env n column (slotObject env t path n v))
        (checkVector env t path n v) (processVector env t path n v))
    (path : List ℕ) (i n : ℕ) (v : FlatVector) :
    Yields (fun columns w => List.Forall₂ (Reads env n) columns (slotObjects env ts path i n v) ∧
        w.root = v.root) (checkEntries env ts path i n v) (processEntries env ts path i n v) := by
  induction ts generalizing i v with
  | nil => exact ⟨.nil, rfl⟩
  | cons t ts ih =>
    rw [checkEntries, processEntries]
    refine (yields_onChild (hts t List.mem_cons_self _ _ _)).bind ?_
    rintro column w ⟨hcolumn, hroot, hrest⟩
    have hafter : ∀ j, i + 1 ≤ j → w.child j = v.child j := fun j hj => hrest j (by omega)
    rw [← checkEntries_congr env ts path (i + 1) n hafter]
    refine (ih (fun u hu => hts u (List.mem_cons_of_mem t hu)) (i + 1) w).map ?_
    rintro columns w' ⟨hcolumns, hroot'⟩
    rw [slotObjects_congr env ts path (i + 1) n hafter] at hcolumns
    exact ⟨.cons hcolumn hcolumns, hroot'.trans hroot⟩

theorem LogicalType.ShapeOK.one_child {kind : TypeKind} {children : List LogicalType}
    (h : ShapeOK kind children) (hk : kind.fetchCase = .array ∨ kind.fetchCase = .list) :
    ∃ t, children = [t] := by
  cases kind with
  | list => exact h
  | map => obtain ⟨ns, k, w, hw⟩ := h; exact ⟨_, hw⟩
  | array m => exact h.2
  | scalar t ht => cases t <;> simp [TypeKind.fetchCase] at hk
  | unlisted t => cases t <;> simp [TypeKind.fetchCase] at hk
  | _ => simp [TypeKind.fetchCase] at hk

theorem LogicalType.ShapeOK.decimalOk {kind : TypeKind} {children : List LogicalType}
    (h : ShapeOK kind children) : kind.decimalOk = true := by
  cases kind with
  | decimal t p sc => exact decide_eq_true h.2
  | _ => rfl

theorem TypeKind.childRows_of_struct {kind : TypeKind} (hk : kind.fetchCase = .struct)
    (size n : ℕ) : kind.childRows size n = n := by
  cases kind with
  | array m => cases hk
  | list => cases hk
  | map => cases hk
  | _ => rfl

/-- **A fetch, slot by slot.**  `ProcessVector` throws what `checkVector` says, and `getObject` on
    the vector it returns is `slotObject`. -/
theorem processVector_spec (env : Platform) {t : LogicalType} (ht : t.Wf) (path : List ℕ) (n : ℕ)
    (v : FlatVector) :
    Yields (fun column _ => Reads env n column (slotObject env t path n v))
      (checkVector env t path n v) (processVector env t path n v) := by
  induction t using LogicalType.ind generalizing path n v with
  | h kind children ih =>
    rw [checkVector, processVector]
    refine (Yields.require _ _ v).bind ?_
    rintro u v' ⟨hn, rfl⟩
    rw [getRoot_bind]
    refine (processEntries_spec (fun t hmem => ih t hmem (ht.child hmem)) path 0 _ v').bind ?_
    rintro columns w ⟨hcolumns, hroot⟩
    have hone : kind.fetchCase = .array ∨ kind.fetchCase = .list → ∃ d,
        slotObjects env children path 0 (kind.childRows v'.root.size n) v' = [d] := by
      intro hk
      obtain ⟨t, rfl⟩ := ht.shape.one_child hk
      exact ⟨_, rfl⟩
    rw [← hroot] at hcolumns hone ⊢
    refine (fillVarlen_spec hcolumns hone
      (fun hk => (TypeKind.childRows_of_struct hk _ n).symm) hn w).map ?_
    intro varlen w' hfilled
    refine ⟨rfl, fun row hrow => ?_⟩
    rw [slotObject, ← hroot, ← decodeSlot_eq hfilled hrow, DuckDBVector.getObject,
      if_pos (by simpa)]
    simp only [Int.toNat_natCast]

/-- What a fetch of the vector throws, or what `getObject` returns for its rows. -/
theorem processVector_eq_ok {t : LogicalType} (ht : t.Wf) {path : List ℕ} {n : ℕ} {v : FlatVector} :
    (∃ column w, processVector env t path n v = .ok column w) ↔
      checkVector env t path n v = .ok () := by
  have h := processVector_spec env ht path n v
  cases hc : checkVector env t path n v with
  | ok u => cases hx : processVector env t path n v with
    | ok column w => simp
    | error e w => rw [hc, hx] at h; exact h.elim
  | error e => cases hx : processVector env t path n v with
    | ok column w => rw [hc, hx] at h; exact h.elim
    | error e' w => simp

/-- `getObject` on a fetched vector returns the objects of the slots. -/
theorem processVector_getObject {t : LogicalType} (ht : t.Wf) {path : List ℕ} {v w : FlatVector}
    {p : ℕ} {column : DuckDBVector} (hfetch : processVector env t path n v = .ok column w)
    (hp : p < n) : column.getObject env p = slotObject env t path n v p := by
  have hcheck := (processVector_eq_ok ht).1 ⟨column, w, hfetch⟩
  have hreads := processVector_spec env ht path n v
  rw [hcheck, hfetch] at hreads
  exact hreads.2 p hp

theorem fetchColumn_getObject {v w : FlatVector} (ht : v.root.type.Wf) {p : ℕ}
    {column : DuckDBVector} (hfetch : fetchColumn env n v = .ok column w) (hp : p < n) :
    column.getObject env p = slotObject env v.root.type [] n v p :=
  processVector_getObject ht hfetch hp

end

/-! ## What a fetch leaves behind -/

section
variable {env : Platform} {kind : TypeKind} {path : List ℕ} {n : ℕ} {v w : FlatVector}

/-- The root after the cast to strings. -/
def CastRoot (env : Platform) (kind : TypeKind) (n : ℕ) (s s' : FlatSlots) : Prop :=
  s'.type = .node (.scalar .varchar (.refl true)) [] ∧ s'.valid = s.valid ∧ ∀ row, ∃ bytes,
    s'.data row = .string bytes ∧
      (row < n → s.valid row = true → env.castToString kind (s.data row) = .ok bytes)

theorem castAndReference_final (h : castAndReference env kind n v = .ok () w) :
    CastRoot env kind n v.root w.root ∧ ∀ i, w.child i = v.child i := by
  rw [castAndReference, getRoot_bind] at h
  obtain ⟨strings, u, hs, h⟩ := bind_eq_ok.1 h
  obtain ⟨hcast, rfl⟩ := liftE_eq_ok.1 hs
  cases h
  refine ⟨⟨rfl, rfl, fun row => ⟨_, rfl, fun hrow hvalid => ?_⟩⟩, fun i => rfl⟩
  have := mapM_range_eq_ok hcast [] hrow
  rwa [if_pos hvalid] at this

/-- Only the cast to strings writes to the vector. -/
theorem fillVarlen_final {columns : List DuckDBVector} {varlen : List JObject}
    (h : fillVarlen env kind path n columns v = .ok varlen w) :
    (kind.fetchCase ≠ .default → w = v) ∧
    (kind.fetchCase = .default → CastRoot env kind n v.root w.root ∧
      ∀ i, w.child i = v.child i) := by
  rw [fillVarlen, getRoot_bind] at h
  cases hk : kind.fetchCase with
  | default =>
    rw [hk] at h
    refine ⟨fun hne => absurd rfl hne, fun _ => ?_⟩
    obtain ⟨_, u, hu, h⟩ := bind_eq_ok.1 h
    rw [getRoot_bind] at h
    obtain ⟨-, rfl⟩ := liftE_eq_ok.1 h
    exact castAndReference_final hu
  | constlen =>
    rw [hk] at h
    refine ⟨fun _ => ?_, fun hd => FetchCase.noConfusion hd⟩
    obtain ⟨_, u, hu, h⟩ := bind_eq_ok.1 h
    cases h
    exact (require_eq_ok.1 hu).2.symm
  | array =>
    rw [hk] at h
    refine ⟨fun _ => ?_, fun hd => FetchCase.noConfusion hd⟩
    dsimp only at h
    split at h
    · exact (liftE_eq_ok.1 h).2.symm
    · cases h
  | list =>
    rw [hk] at h
    refine ⟨fun _ => ?_, fun hd => FetchCase.noConfusion hd⟩
    dsimp only at h
    split at h
    · exact (liftE_eq_ok.1 h).2.symm
    · cases h
  | _ =>
    rw [hk] at h
    exact ⟨fun _ => (liftE_eq_ok.1 h).2.symm, fun hd => FetchCase.noConfusion hd⟩

/-- Each child vector is left as its own fetch leaves it. -/
theorem processEntries_final {ts : List LogicalType} {i : ℕ} {columns : List DuckDBVector}
    (h : processEntries env ts path i n v = .ok columns w) : w.root = v.root ∧
      (∀ j < i, w.child j = v.child j) ∧ ∀ j t, ts[j]? = some t → ∃ column,
        processVector env t ((i + j) :: path) n (v.child (i + j)) =
          .ok column (w.child (i + j)) := by
  induction ts generalizing i v columns with
  | nil =>
    cases h
    exact ⟨rfl, fun _ _ => rfl, fun j t ht => by simp at ht⟩
  | cons t ts ih =>
    rw [processEntries] at h
    obtain ⟨column, u, hu, h⟩ := bind_eq_ok.1 h
    obtain ⟨columns, u', hu', h⟩ := bind_eq_ok.1 h
    cases h
    obtain ⟨c, hc, rfl⟩ := onChild_eq_ok.1 hu
    obtain ⟨hroot, hbefore, hafter⟩ := ih hu'
    refine ⟨hroot, fun j hj => ?_, ?_⟩
    · rw [hbefore j (by omega), child_setChild_ne (by omega)]
    · refine (forall_getElem?_cons (P := fun k u => ∃ column,
        processVector env u (k :: path) n (v.child k) = .ok column (w.child k))).2
        ⟨⟨column, ?_⟩, ?_⟩
      · rw [hbefore i (Nat.lt_succ_self i), child_setChild_self]
        exact hc
      · intro j t ht
        obtain ⟨column, hcol⟩ := hafter j t ht
        rw [child_setChild_ne (by omega)] at hcol
        exact ⟨column, hcol⟩

/-- **What a fetch writes.**  A vector keeps its slots, unless the fetch has no decoder for its
    type: then it becomes a vector of strings. -/
theorem processVector_final {children : List LogicalType} {column : DuckDBVector}
    (h : processVector env (.node kind children) path n v = .ok column w) :
    (kind.fetchCase ≠ .default → w.root = v.root) ∧
    (kind.fetchCase = .default → CastRoot env kind n v.root w.root) ∧
    ∀ i t, children[i]? = some t → ∃ column,
      processVector env t (i :: path) (kind.childRows v.root.size n) (v.child i) =
        .ok column (w.child i) := by
  rw [processVector] at h
  obtain ⟨_, u, hu, h⟩ := bind_eq_ok.1 h
  obtain ⟨-, rfl⟩ := require_eq_ok.1 hu
  rw [getRoot_bind] at h
  obtain ⟨columns, u, hu, h⟩ := bind_eq_ok.1 h
  obtain ⟨varlen, u', hu', h⟩ := bind_eq_ok.1 h
  cases h
  obtain ⟨hroot, -, hchildren⟩ := processEntries_final hu
  obtain ⟨hkeep, hcast⟩ := fillVarlen_final hu'
  have hchild : ∀ i, w.child i = u.child i := by
    intro i
    by_cases hk : kind.fetchCase = .default
    · exact (hcast hk).2 i
    · rw [hkeep hk]
  refine ⟨fun hk => by rw [hkeep hk, hroot], fun hk => hroot ▸ (hcast hk).1, fun i t ht => ?_⟩
  obtain ⟨column, hcol⟩ := hchildren i t ht
  rw [Nat.zero_add] at hcol
  exact ⟨column, hchild i ▸ hcol⟩

end

end DuckDBJava
