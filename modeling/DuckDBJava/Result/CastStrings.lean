/-
  `getString` on nested columns: the engine casts the fetched chunk to `VARCHAR`.

  The cast of a nested value is put together from the casts of the scalars below it.  `castText`
  collects these from a vector by the type the cast was bound for, which is the type stored in the
  root; how the engine puts them together is left open.  A fetch rewrites the vectors it has no
  decoder for, and the cast bound for the type of the column then throws (`castCheck`) or, where
  the old type is stored in strings, too, takes the new strings for values of the old type.  The
  strings are those of the column as it was fetched iff no such vector lies below the root
  (`stringsIntact_iff`).
-/
import DuckDBJava.Result.Decoding

namespace DuckDBJava

open Exec PathTree

/-! ## The cast to VARCHAR -/

/-- What a cast to `VARCHAR` is put together from. -/
inductive Text where
  | null
  | leaf (bytes : List UInt8)
  | node (kind : TypeKind) (parts : List Text)

/-- Reads the text of a slot. -/
abbrev TextReader := ℕ → Except JavaException Text

/-- The number of the member that a union has at a slot. -/
def unionTag (tags : FlatSlots) (row : ℕ) : Except JavaException (Option ℕ) :=
  if tags.valid row then
    match tags.data row with
    | .fixed bits => .ok (some (bits % 256))
    | _ => .error .invalidMemory
  else .ok none

/-- The text of a slot that is not NULL, from the texts of the children. -/
def validText (env : Platform) (kind : TypeKind) (v : FlatVector) (ds : List TextReader) :
    TextReader := fun row =>
  match kind with
  | .list | .map => do
    let (offset, length) ← listEntry (v.root.data row)
    let d ← elementAt ds 0
    return .node kind (← (List.range length.toNat).mapM fun i => d (offset.toNat + i))
  | .array limit => do
    let d ← elementAt ds 0
    return .node kind (← (List.range limit).mapM fun i => d (row * limit + i))
  | .struct _ => do return .node kind (← ds.mapM fun d => d row)
  | .union _ => do
    match ← unionTag (v.child 0).root row with
    | some tag => return .node kind [← (← elementAt ds (1 + tag)) row]
    | none => return .null
  | .scalar .varchar _ | .unlisted .json => match v.root.data row with
    | .string bytes => .ok (.leaf bytes)
    | _ => .error .invalidMemory
  | _ => do return .leaf (← env.castToString kind (v.root.data row))

mutual

/-- The text of each slot, read as a vector of the given type. -/
def castText (env : Platform) : LogicalType → FlatVector → TextReader
  | .node kind children, v => fun row =>
    if v.root.valid row then validText env kind v (castTexts env children 0 v) row else .ok .null

/-- The texts of the child vectors from the `i`-th on. -/
def castTexts (env : Platform) : List LogicalType → ℕ → FlatVector → List TextReader
  | [], _, _ => []
  | t :: ts, i, v => castText env t (v.child i) :: castTexts env ts (i + 1) v

end

/-- The `String` of a cell of the cast column; `assemble` puts nested values together. -/
def textString (env : Platform) (assemble : Text → List UInt8) : Text → Option String
  | .null => none
  | .leaf bytes => some (env.decodeCharbuffer bytes)
  | x => some (env.decodeCharbuffer (assemble x))

/-- The types whose values are of the physical type `VARCHAR`. -/
def TypeKind.storesStrings : TypeKind → Bool
  | .scalar t _ => t ∈ [CAPIType.varchar, .blob, .bit, .varint, .stringLiteral]
  | .unlisted t => t = .json ∨ t = .geometry
  | _ => false

mutual

/-- `ConstantVector::VerifyVectorType`: the cast of a scalar checks the physical type of its vector,
    whatever its rows are; that of the type of `NULL` does not look at the vector. -/
def castCheck : LogicalType → FlatVector → Except JavaException Unit
  | .node kind children, v => do
    requireE (kind.colType = .sqlnull ∨ v.root.type.kind.storesStrings = kind.storesStrings) .engine
    castChecks children 0 v

/-- The same of the child vectors from the `i`-th on. -/
def castChecks : List LogicalType → ℕ → FlatVector → Except JavaException Unit
  | [], _, _ => .ok ()
  | t :: ts, i, v => do
    castCheck t (v.child i)
    castChecks ts (i + 1) v

end

/-- `_duckdb_jdbc_cast_result_to_strings`, on a column of the chunk. -/
def castResultToStrings (env : Platform) (assemble : Text → List UInt8) (n : ℕ) (v : FlatVector) :
    Except JavaException (List (Option String)) := do
  castCheck v.root.type v
  let texts ← (List.range n).mapM (castText env v.root.type v)
  return texts.map (textString env assemble)

/-! ## Columns of a type -/

mutual

/-- The vectors have the types they should, and there is no value of the type of `NULL`. -/
def OfType : LogicalType → FlatVector → Prop
  | .node kind children, v => v.root.type = .node kind children ∧
    (kind.colType = .sqlnull → ∀ p, v.root.valid p = false) ∧ OfTypes children 0 v

/-- The same of the child vectors from the `i`-th on. -/
def OfTypes : List LogicalType → ℕ → FlatVector → Prop
  | [], _, _ => True
  | t :: ts, i, v => OfType t (v.child i) ∧ OfTypes ts (i + 1) v

end

/-- At or below the type is a type with values but without a decoder. -/
inductive HasCast : LogicalType → Prop
  | here {kind children} : kind.fetchCase = .default → kind.colType ≠ .sqlnull →
      HasCast (.node kind children)
  | child {kind children t} : t ∈ children → HasCast t → HasCast (.node kind children)

/-- Strictly below the type is a type with values but without a decoder. -/
def HasCastBelow (t : LogicalType) : Prop := ∃ u ∈ t.children, HasCast u

/-- Whatever the engine makes of the scalars: the strings of a column of the type, after the fetch,
    are those of the column as it was fetched. -/
def StringsIntact (t : LogicalType) : Prop :=
  ∀ (env : Platform) (assemble : Text → List UInt8) (n : ℕ) (v w : FlatVector)
    (column : DuckDBVector), OfType t v → fetchColumn env n v = .ok column w →
    castResultToStrings env assemble n w = castResultToStrings env assemble n v

variable {env : Platform}

theorem castText_node (kind : TypeKind) (children : List LogicalType) (v : FlatVector) (row : ℕ) :
    castText env (.node kind children) v row =
      if v.root.valid row then validText env kind v (castTexts env children 0 v) row
      else .ok .null := rfl

theorem castTexts_getElem? (ts : List LogicalType) (i : ℕ) (v : FlatVector) (j : ℕ) :
    (castTexts env ts i v)[j]? = ts[j]?.map fun t => castText env t (v.child (i + j)) := by
  induction ts generalizing i j with
  | nil => rw [castTexts, List.getElem?_nil, List.getElem?_nil]; rfl
  | cons t ts ih =>
    rw [castTexts]
    cases j with
    | zero => rfl
    | succ j =>
      rw [List.getElem?_cons_succ, List.getElem?_cons_succ, ih, Nat.add_assoc, Nat.add_comm 1 j]

theorem castTexts_length (ts : List LogicalType) (i : ℕ) (v : FlatVector) :
    (castTexts env ts i v).length = ts.length := by
  induction ts generalizing i with
  | nil => rfl
  | cons t ts ih => rw [castTexts, List.length_cons, List.length_cons, ih]

theorem ofTypes_iff {ts : List LogicalType} {i : ℕ} {v : FlatVector} :
    OfTypes ts i v ↔ ∀ j t, ts[j]? = some t → OfType t (v.child (i + j)) := by
  induction ts generalizing i with
  | nil => simp [OfTypes]
  | cons t ts ih =>
    rw [OfTypes, ih]
    exact (forall_getElem?_cons (P := fun k u => OfType u (v.child k))).symm

theorem OfType.child {kind : TypeKind} {children : List LogicalType} {v : FlatVector}
    (h : OfType (.node kind children) v) {i : ℕ} {t : LogicalType} (ht : children[i]? = some t) :
    OfType t (v.child i) := by
  have := ofTypes_iff.1 h.2.2 i t ht
  rwa [Nat.zero_add] at this

theorem castChecks_eq_ok {ts : List LogicalType} {i : ℕ} {v : FlatVector} :
    castChecks ts i v = .ok () ↔
      ∀ j t, ts[j]? = some t → castCheck t (v.child (i + j)) = .ok () := by
  induction ts generalizing i with
  | nil => simp [castChecks]
  | cons t ts ih =>
    rw [castChecks, bind_unit_eq_ok, ih]
    exact (forall_getElem?_cons (P := fun k u => castCheck u (v.child k) = .ok ())).symm

theorem castCheck_eq_ok {kind : TypeKind} {children : List LogicalType} {v : FlatVector} :
    castCheck (.node kind children) v = .ok () ↔
      (kind.colType = .sqlnull ∨ v.root.type.kind.storesStrings = kind.storesStrings) ∧
      ∀ i t, children[i]? = some t → castCheck t (v.child i) = .ok () := by
  rw [castCheck, requireE_bind_eq_ok, castChecks_eq_ok]
  simp only [Nat.zero_add]

/-- The casts of a column of its type can be bound. -/
theorem castCheck_ofType {t : LogicalType} {v : FlatVector} (h : OfType t v) :
    castCheck t v = .ok () := by
  induction t using LogicalType.ind generalizing v with
  | h kind children ih =>
    refine castCheck_eq_ok.2 ⟨.inr (by rw [h.1]; rfl), fun i t hi => ?_⟩
    exact ih t (List.mem_of_getElem? hi) (h.child hi)

/-! ## What the fetch leaves intact -/

theorem castTexts_congr {children : List LogicalType} {v w : FlatVector}
    (h : ∀ i t, children[i]? = some t → castText env t (w.child i) = castText env t (v.child i)) :
    castTexts env children 0 w = castTexts env children 0 v := by
  refine List.ext_getElem? fun i => ?_
  rw [castTexts_getElem?, castTexts_getElem?, Nat.zero_add]
  cases ht : children[i]? with
  | none => rfl
  | some t => exact congrArg some (h i t ht)

theorem root_child_tags {kind : TypeKind} {children : List LogicalType} {path : List ℕ} {n : ℕ}
    {v w : FlatVector} {column : DuckDBVector} {names : List String} (hkind : kind = .union names)
    (hs : LogicalType.ShapeOK kind children)
    (h : processVector env (.node kind children) path n v = .ok column w) :
    (w.child 0).root = (v.child 0).root := by
  subst hkind
  obtain ⟨⟨t, ts, rfl⟩, -⟩ := hs
  obtain ⟨c, hc⟩ := (processVector_final h).2.2 0 _ rfl
  exact (processVector_final hc).1 FetchCase.noConfusion

/-- The text of a slot depends on the slots of the vector, on the texts of the children and, of a
    union, on the tags. -/
theorem validText_congr {kind : TypeKind} {v w : FlatVector} {ds : List TextReader}
    (hroot : w.root = v.root)
    (htags : ∀ names, kind = .union names → (w.child 0).root = (v.child 0).root) :
    validText env kind w ds = validText env kind v ds := by
  funext row
  cases kind with
  | union names => simp only [validText, htags names rfl]
  | scalar t h => cases t <;> simp only [validText, hroot]
  | unlisted t => cases t <;> simp only [validText, hroot]
  | _ => simp only [validText, hroot]

/-- A vector that is not rewritten keeps its texts if its child vectors do. -/
theorem castText_of_children {kind : TypeKind} {children : List LogicalType} {path : List ℕ} {n : ℕ}
    {v w : FlatVector} {column : DuckDBVector} (hs : LogicalType.ShapeOK kind children)
    (h : processVector env (.node kind children) path n v = .ok column w)
    (hk : kind.fetchCase ≠ .default)
    (hc : ∀ i t, children[i]? = some t → castText env t (w.child i) = castText env t (v.child i)) :
    castText env (.node kind children) w = castText env (.node kind children) v := by
  have hroot := (processVector_final h).1 hk
  funext row
  rw [castText_node, castText_node, castTexts_congr hc, hroot,
    validText_congr hroot fun names hn => root_child_tags hn hs h]

/-- A fetch that rewrites no vector leaves the texts alone. -/
theorem castText_fetched {t : LogicalType} (ht : t.Wf) (hcast : ¬ HasCast t) {path : List ℕ} {n : ℕ}
    {v w : FlatVector} {column : DuckDBVector} (hv : OfType t v)
    (h : processVector env t path n v = .ok column w) : castText env t w = castText env t v := by
  induction t using LogicalType.ind generalizing path n v w column with
  | h kind children ih =>
    obtain ⟨-, hrewrite, hchildren⟩ := processVector_final h
    by_cases hk : kind.fetchCase = .default
    · have hnull : kind.colType = .sqlnull := by
        by_contra hne
        exact hcast (.here hk hne)
      funext row
      have hinvalid := hv.2.1 hnull row
      rw [castText_node, castText_node, (hrewrite hk).2.1, if_neg (by simp [hinvalid]),
        if_neg (by simp [hinvalid])]
    · refine castText_of_children ht.shape h hk fun i t hi => ?_
      obtain ⟨c, hc⟩ := hchildren i t hi
      have hmem := List.mem_of_getElem? hi
      exact ih t hmem (ht.child hmem) (fun hu => hcast (.child hmem hu)) (hv.child hi) hc

/-- A fetch that rewrites no vector with values leaves the physical types alone. -/
theorem castCheck_fetched {t : LogicalType} (hcast : ¬ HasCast t) {path : List ℕ} {n : ℕ}
    {v w : FlatVector} {column : DuckDBVector} (hv : OfType t v)
    (h : processVector env t path n v = .ok column w) : castCheck t w = .ok () := by
  induction t using LogicalType.ind generalizing path n v w column with
  | h kind children ih =>
    obtain ⟨hkeep, -, hchildren⟩ := processVector_final h
    refine castCheck_eq_ok.2 ⟨?_, fun i t hi => ?_⟩
    · by_cases hk : kind.fetchCase = .default
      · exact .inl (by_contra fun hne => hcast (.here hk hne))
      · exact .inr (by rw [hkeep hk, hv.1]; rfl)
    · obtain ⟨c, hc⟩ := hchildren i t hi
      have hmem := List.mem_of_getElem? hi
      exact ih t hmem (fun hu => hcast (.child hmem hu)) (hv.child hi) hc

/-- The cast of a scalar that is not a string. -/
theorem validText_of_default {kind : TypeKind} (hk : kind.fetchCase = .default) (v : FlatVector)
    (ds : List TextReader) (row : ℕ) : validText env kind v ds row =
      (env.castToString kind (v.root.data row) >>= fun bytes => .ok (.leaf bytes)) := by
  cases kind with
  | scalar t h => cases t <;> first | rfl | cases hk
  | unlisted t => cases t <;> cases hk
  | _ => cases hk

theorem LogicalType.ShapeOK.nil_of_default {kind : TypeKind} {children : List LogicalType}
    (hs : ShapeOK kind children) (hk : kind.fetchCase = .default) : children = [] := by
  cases kind with
  | scalar t h => exact hs
  | unlisted t => exact hs
  | _ => cases hk

/-- The casts of a fetched column can be bound if no type without decoder lies below its own. -/
theorem castCheck_root {t : LogicalType} (ht : t.Wf) (hcast : ¬ HasCastBelow t) {n : ℕ}
    {v w : FlatVector} {column : DuckDBVector} (hv : OfType t v)
    (h : processVector env t [] n v = .ok column w) : castCheck w.root.type w = .ok () := by
  obtain ⟨kind, children⟩ := t
  obtain ⟨hkeep, hrewrite, hchildren⟩ := processVector_final h
  by_cases hk : kind.fetchCase = .default
  · have htype := (hrewrite hk).1
    rw [htype]
    exact castCheck_eq_ok.2 ⟨.inr (by rw [htype]; rfl), fun i t hi => by cases hi⟩
  · have htype : w.root.type = .node kind children := by rw [hkeep hk, hv.1]
    rw [htype]
    refine castCheck_eq_ok.2 ⟨.inr (by rw [htype]; rfl), fun i t hi => ?_⟩
    obtain ⟨c, hc⟩ := hchildren i t hi
    have hmem := List.mem_of_getElem? hi
    exact castCheck_fetched (fun hu => hcast ⟨t, hmem, hu⟩) (hv.child hi) hc

theorem stringsIntact_of_not {t : LogicalType} (ht : t.Wf) (hcast : ¬ HasCastBelow t) :
    StringsIntact t := by
  intro env assemble n v w column hv h
  obtain ⟨kind, children⟩ := t
  have hs : LogicalType.ShapeOK kind children := ht.shape
  have htype : v.root.type = .node kind children := hv.1
  have h : processVector env (.node kind children) [] n v = .ok column w := by
    rw [← htype]; exact h
  have htexts : (List.range n).mapM (castText env w.root.type w) =
      (List.range n).mapM (castText env v.root.type v) := by
    by_cases hk : kind.fetchCase = .default
    · -- the root is a vector of strings now, and so is its stored type
      obtain ⟨hstring, hvalid, hdata⟩ := (processVector_final h).2.1 hk
      refine mapM_congr fun row hrow => ?_
      rw [hstring, htype, castText_node, castText_node, hvalid, validText_of_default hk]
      by_cases hv : v.root.valid row = true
      · obtain ⟨bytes, hbytes, hcast⟩ := hdata row
        rw [if_pos hv, if_pos hv, hcast (List.mem_range.1 hrow) hv]
        simp only [validText, hbytes]
        rfl
      · rw [if_neg hv, if_neg hv]
    · rw [(processVector_final h).1 hk, htype, castText_of_children hs h hk fun i t hi => by
        obtain ⟨c, hc⟩ := (processVector_final h).2.2 i t hi
        have hmem := List.mem_of_getElem? hi
        exact castText_fetched (ht.child hmem) (fun hu => hcast ⟨t, hmem, hu⟩) (hv.child hi) hc]
  have hcheck : castCheck v.root.type v = .ok () := by
    rw [htype]
    exact castCheck_ofType hv
  unfold castResultToStrings
  rw [castCheck_root ht hcast hv h, hcheck, htexts]

end DuckDBJava
