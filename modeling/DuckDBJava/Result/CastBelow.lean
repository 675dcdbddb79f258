/-
  Columns whose strings a fetch spoils.

  For every type with a type without decoder strictly below it there is a column, of as many rows
  as one likes, whose strings after the fetch are not those of the column as it was fetched: along
  the way to such a type all slots are valid, beside it all are NULL.
-/
import DuckDBJava.Result.CastStrings

namespace DuckDBJava

open Exec PathTree

/-! ## The engine of the example -/

/-- The cell of a value of a type without decoder. -/
def markedCell (kind : TypeKind) : Cell :=
  if kind.colType = .interval then .fixed 0 else .string [1]

/-- A cast that tells the values in `markedCell` from what a fetch leaves of them. -/
def markPlatform : Platform where
  systemDefault := utc
  resolve l := l
  decodeCharbuffer bytes := if 97 ∈ bytes then "a" else "b"
  newStringUTF s := s
  castToString kind c :=
    if kind.fetchCase = .default ∧ (c = .fixed 0 ∨ c = .string [1]) then .ok [97] else .ok [98]
  variant _ _ := .ok .null

mutual

/-- All bytes of a text, one after the other. -/
def Text.leaves : Text → List UInt8
  | .null => []
  | .leaf bytes => bytes
  | .node _ parts => leavesAll parts

def Text.leavesAll : List Text → List UInt8
  | [] => []
  | x :: xs => x.leaves ++ leavesAll xs

end

theorem Text.mem_leavesAll {b : UInt8} {xs : List Text} :
    b ∈ leavesAll xs ↔ ∃ x ∈ xs, b ∈ x.leaves := by
  induction xs with
  | nil => simp [leavesAll]
  | cons x xs ih => simp [leavesAll, ih]

theorem Text.mem_leaves_node {b : UInt8} {kind : TypeKind} {xs : List Text} :
    b ∈ (node kind xs).leaves ↔ ∃ x ∈ xs, b ∈ x.leaves := by
  rw [leaves, mem_leavesAll]

/-! ## The limits of the engine -/

mutual

/-- A union has at most 256 members, and the arrays in `n` rows, with one element in each list,
    have fewer than `2 ^ 31` slots. -/
def Fits : LogicalType → ℕ → Prop
  | .node kind children, n => n < 2 ^ 31 ∧ (kind.columnType = .union → children.length ≤ 257) ∧
    FitsAll children (kind.childRows 1 n)

def FitsAll : List LogicalType → ℕ → Prop
  | [], _ => True
  | t :: ts, n => Fits t n ∧ FitsAll ts n

end

theorem Fits.child {kind : TypeKind} {children : List LogicalType} {n : ℕ}
    (h : Fits (.node kind children) n) {t : LogicalType} (ht : t ∈ children) :
    Fits t (kind.childRows 1 n) := by
  have hall : ∀ {ts : List LogicalType} {m : ℕ}, FitsAll ts m → ∀ t ∈ ts, Fits t m := by
    intro ts m
    induction ts with
    | nil => exact fun _ t ht => absurd ht List.not_mem_nil
    | cons u ts ih =>
      rintro ⟨hu, hts⟩ t ht
      rcases List.mem_cons.1 ht with rfl | ht
      · exact hu
      · exact ih hts t ht
  exact hall h.2.2 t ht

/-! ## Vectors that decode -/

/-- The vector can be fetched, and its slots decode to objects with `P`. -/
def Decodes (t : LogicalType) (v : FlatVector) (P : JObject → Prop) : Prop :=
  ∀ path n, Fits t n → checkVector markPlatform t path n v = .ok () ∧
    ∀ q < n, ∃ x, slotObject markPlatform t path n v q = .ok x ∧ P x

theorem Decodes.imp {t : LogicalType} {v : FlatVector} {P Q : JObject → Prop} (h : Decodes t v P)
    (hPQ : ∀ x, P x → Q x) : Decodes t v Q := fun path n hn =>
  ⟨(h path n hn).1, fun q hq =>
    let ⟨x, hx, hp⟩ := (h path n hn).2 q hq
    ⟨x, hx, hPQ x hp⟩⟩

/-- The children of a vector can be fetched, and all their slots decode. -/
theorem children_decode {kind : TypeKind} {children : List LogicalType} {v : FlatVector}
    {P : ℕ → JObject → Prop}
    (h : ∀ i t, children[i]? = some t → Decodes t (v.child i) (P i)) (path : List ℕ) {n : ℕ}
    (hn : Fits (.node kind children) n) :
    checkEntries markPlatform children path 0 (kind.childRows 1 n) v = .ok () ∧
    ∀ i d, (slotObjects markPlatform children path 0 (kind.childRows 1 n) v)[i]? = some d →
      ∀ q < kind.childRows 1 n, ∃ x, d q = .ok x ∧ P i x := by
  constructor
  · refine checkEntries_eq_ok.2 fun i t ht => ?_
    rw [Nat.zero_add]
    exact (h i t ht _ _ (hn.child (List.mem_of_getElem? ht))).1
  · intro i d hd q hq
    rw [slotObjects_getElem?, Nat.zero_add] at hd
    obtain ⟨t, ht, rfl⟩ := Option.map_eq_some_iff.1 hd
    exact (h i t ht _ _ (hn.child (List.mem_of_getElem? ht))).2 q hq

/-- A vector decodes if its children do and its rows can be filled. -/
theorem decodes_node {kind : TypeKind} {children : List LogicalType} {v : FlatVector}
    {Q : JObject → Prop} {P : ℕ → JObject → Prop} (hs : LogicalType.ShapeOK kind children)
    (hsize : v.root.size = 1)
    (h : ∀ i t, children[i]? = some t → Decodes t (v.child i) (P i))
    (hrow : ∀ path m ds n, Fits (.node kind children) n → m = kind.childRows 1 n →
      ds.length = children.length →
      (∀ (i : ℕ) d, ds[i]? = some d → ∀ q < m, ∃ x, d q = .ok x ∧ P i x) → ∀ p < n,
      (∃ y, fetchRow markPlatform kind path v.root m ds p = .ok y) ∧
      ∃ x, decodeSlot markPlatform kind path v.root m ds p = .ok x ∧ Q x) :
    Decodes (.node kind children) v Q := by
  intro path n hn
  obtain ⟨hentries, hslots⟩ := children_decode h path hn
  have hrow := hrow path _ _ n hn rfl (slotObjects_length _ _ _ _ _ _) hslots
  rw [checkVector_eq_ok, slotObject, hsize]
  exact ⟨⟨hn.1, hentries, hs.decimalOk, fun p hp => (hrow p hp).1⟩, fun p hp => (hrow p hp).2⟩

/-! ## NULL vectors and tags -/

/-- A vector of the type, all NULL. -/
def nulls (t : LogicalType) : FlatVector
  | [] => ⟨t, fun _ => false, fun _ => .fixed 0, 1⟩
  | i :: p => nulls (t.children.getD i t) p

theorem child_nulls (t : LogicalType) (i : ℕ) :
    (nulls t).child i = nulls (t.children.getD i t) := rfl

theorem child_nulls_of {kind : TypeKind} {children : List LogicalType} {i : ℕ} {u : LogicalType}
    (hu : children[i]? = some u) : (nulls (.node kind children)).child i = nulls u := by
  rw [child_nulls, LogicalType.children_node, List.getD_eq_getElem?_getD, hu]
  rfl

theorem nulls_ofType (t : LogicalType) : OfType t (nulls t) := by
  induction t using LogicalType.ind with
  | h kind children ih =>
    refine ⟨rfl, fun _ _ => rfl, ofTypes_iff.2 fun i u hu => ?_⟩
    rw [Nat.zero_add, child_nulls_of hu]
    exact ih u (List.mem_of_getElem? hu)

theorem fetchRow_of_fields {kind : TypeKind} (path : List ℕ) (s : FlatSlots) (m : ℕ) {p : ℕ}
    {ds : List Decoder} (hk : kind.fetchCase = .struct)
    (h : ∀ (i : ℕ) d, ds[i]? = some d → ∃ x, d p = .ok x) :
    ∃ xs, List.Forall₂ (fun d y => d p = .ok y) ds xs ∧
      fetchRow markPlatform kind path s m ds p =
        .ok (.struct ⟨path, p⟩ (kind.fieldNames.map markPlatform.newStringUTF) xs) := by
  obtain ⟨xs, hxs⟩ := mapM_isOk.2 fun d hd =>
    let ⟨i, hi⟩ := List.mem_iff_getElem?.1 hd
    h i d hi
  refine ⟨xs, mapM_eq_ok.1 hxs, ?_⟩
  rw [fetchRow, if_pos (.inr hk), validRow_struct hk, structObject_eq_ok]
  exact ⟨xs, mapM_eq_ok.1 hxs, rfl⟩

theorem nulls_decodes {t : LogicalType} (ht : t.Wf) : Decodes t (nulls t) (· = .null) := by
  induction t using LogicalType.ind with
  | h kind children ih =>
    refine decodes_node (P := fun _ x => x = .null) ht.shape rfl (fun i u hu => ?_)
      fun path m ds n hn hm hlen hds p hp => ⟨?_, .null, if_neg Bool.noConfusion, rfl⟩
    · rw [child_nulls_of hu]
      have hmem := List.mem_of_getElem? hu
      exact ih u hmem (ht.child hmem)
    · by_cases hk : kind.fetchCase = .struct
      · have hp : p < m := by rwa [hm, TypeKind.childRows_of_struct hk]
        obtain ⟨xs, -, h⟩ := fetchRow_of_fields path
          (nulls (.node kind children)).root m hk fun i d hd =>
            let ⟨x, hx, _⟩ := hds i d hd p hp
            ⟨x, hx⟩
        exact ⟨_, h⟩
      · refine ⟨.null, ?_⟩
        rw [fetchRow, if_neg]
        rintro (hv | hk')
        · exact Bool.noConfusion hv
        · exact hk hk'

/-- The tags of a union of which every row has the given member. -/
def tags (tag : ℕ) : FlatVector
  | _ => ⟨.node (.scalar .utinyint (.refl true)) [], fun _ => true, fun _ => .fixed tag, 1⟩

theorem tags_ofType (tag : ℕ) : OfType (.node (.scalar .utinyint rfl) []) (tags tag) :=
  ⟨rfl, fun h => CAPIType.noConfusion h, trivial⟩

theorem tags_decodes {tag : ℕ} (htag : tag < 256) :
    Decodes (.node (.scalar .utinyint rfl) []) (tags tag) (· = .number .short tag) := by
  refine decodes_node (P := fun _ _ => True) rfl rfl (fun i u hu => by simp at hu)
    fun path m ds n hn hm hlen hds p hp => ⟨⟨.null, ?_⟩, .number .short tag, ?_, rfl⟩
  · rw [fetchRow, if_pos (.inl rfl)]
    rfl
  · have : (unsigned 1 tag : ℤ) = tag := by
      unfold unsigned
      omega
    rw [← this]
    rfl

/-! ## Vectors around a marked child -/

/-- The rows of the vector refer to slots of child `k`. -/
def Leads (kind : TypeKind) (v : FlatVector) (k : ℕ) : Prop :=
  (∀ p, v.root.valid p = true) ∧ (∀ p, v.root.data p = .entry (0 : ℕ) (1 : ℕ)) ∧
  match kind with
  | .list | .map => k = 0
  | .array limit => k = 0 ∧ 0 < limit
  | .struct _ => True
  | .union _ => 0 < k ∧ ∀ p, unionTag (v.child 0).root p = .ok (some (k - 1))
  | _ => False

/-- What is asked of the objects of child `i`. -/
def ChildObject (kind : TypeKind) (k i : ℕ) (x : JObject) : Prop :=
  (kind.columnType = .union → i = 0 → x = .number .short (k - 1 : ℕ)) ∧
  (kind = .map → i = 0 → ∃ id keys a b, x = .struct id keys [a, b])

theorem Leads.congr {kind : TypeKind} {v w : FlatVector} {k : ℕ} (h : Leads kind v k)
    (hroot : w.root = v.root)
    (htags : ∀ names, kind = .union names → (w.child 0).root = (v.child 0).root) :
    Leads kind w k := by
  obtain ⟨hvalid, hdata, hkind⟩ := h
  refine ⟨hroot ▸ hvalid, hroot ▸ hdata, ?_⟩
  cases kind with
  | union names => exact ⟨hkind.1, htags names rfl ▸ hkind.2⟩
  | _ => exact hkind

theorem arrayObject_single (id : ObjectId) {m limit p n : ℕ} {d : Decoder} (hm : m < 2 ^ 31)
    (hlimit : m = n * limit) (hp : p < n) (h : ∀ q < m, ∃ x, d q = .ok x) :
    ∃ x, arrayObject id m d (toInt (p * limit : ℕ)) (toInt limit) = .ok x :=
  arrayObject_isOk id (hlimit ▸ array_range_le limit hp) hm h

/-- The rows can be filled and decode, whatever the kind. -/
theorem rows_decode {kind : TypeKind} {children : List LogicalType} {v : FlatVector} {k : ℕ}
    (hs : LogicalType.ShapeOK kind children) (hk : k < children.length) (hl : Leads kind v k)
    {path : List ℕ} {m n : ℕ} {ds : List Decoder} (hn : Fits (.node kind children) n)
    (hm : m = kind.childRows 1 n) (hlen : ds.length = children.length)
    (hds : ∀ (i : ℕ) d, ds[i]? = some d → ∀ q < m, ∃ x, d q = .ok x ∧ ChildObject kind k i x)
    {p : ℕ} (hp : p < n) : (∃ y, fetchRow markPlatform kind path v.root m ds p = .ok y) ∧
      ∃ x, decodeSlot markPlatform kind path v.root m ds p = .ok x ∧ ∀ names, kind = .struct names →
        ∃ id keys xs, x = .struct id keys xs ∧ xs.length = children.length := by
  obtain ⟨hvalid, hdata, hkind⟩ := hl
  have hv := hvalid p
  have hm31 : m < 2 ^ 31 := by
    obtain ⟨u, hu⟩ : ∃ u, u ∈ children := ⟨children[k], List.getElem_mem hk⟩
    have := (hn.child hu)
    obtain ⟨kind', children'⟩ := u
    exact hm ▸ this.1
  cases kind with
  | list =>
    obtain ⟨u, rfl⟩ := hs
    obtain ⟨d, rfl⟩ := List.length_eq_one_iff.1 hlen
    obtain ⟨x, hx⟩ := arrayObject_isOk ⟨path, p⟩ (show 0 + 1 ≤ m from hm ▸ Nat.le_refl 1)
      hm31 fun q hq => (hds 0 d rfl q hq).imp fun _ h => h.1
    rw [← validRow_list markPlatform (s := v.root) (hdata p)] at hx
    rw [fetchRow, if_pos (.inl hv), decodeSlot_of_valid hv DuckDBColumnType.noConfusion, hx]
    exact ⟨⟨x, rfl⟩, x, rfl, fun _ h => TypeKind.noConfusion h⟩
  | array limit =>
    obtain ⟨-, u, rfl⟩ := hs
    obtain ⟨d, rfl⟩ := List.length_eq_one_iff.1 hlen
    obtain ⟨x, hx⟩ := arrayObject_single ⟨path, p⟩ hm31 hm hp fun q hq =>
      (hds 0 d rfl q hq).imp fun _ h => h.1
    rw [← validRow_array markPlatform (s := v.root)] at hx
    rw [fetchRow, if_pos (.inl hv), decodeSlot_of_valid hv DuckDBColumnType.noConfusion, hx]
    exact ⟨⟨x, rfl⟩, x, rfl, fun _ h => TypeKind.noConfusion h⟩
  | map =>
    obtain ⟨ns, key, value, rfl⟩ := hs
    obtain ⟨d, rfl⟩ := List.length_eq_one_iff.1 hlen
    have hone : 0 + 1 ≤ m := hm ▸ Nat.le_refl 1
    obtain ⟨x, hx, -, hentry⟩ := hds 0 d rfl 0 hone
    obtain ⟨id, keys, a, b, rfl⟩ := hentry rfl rfl
    have hrow := arrayObject_eq ⟨path, p⟩ hone hm31 fun i hi => show d (0 + i) =
      .ok ((fun _ => .struct id keys [a, b]) i) by rwa [Nat.lt_one_iff.1 hi]
    rw [← validRow_map markPlatform (s := v.root) (hdata p)] at hrow
    rw [fetchRow, if_pos (.inl hv), decodeSlot_of_valid hv DuckDBColumnType.noConfusion, hrow]
    exact ⟨⟨_, rfl⟩, _, rfl, fun _ h => TypeKind.noConfusion h⟩
  | struct names =>
    have hp : p < m := by rwa [hm, TypeKind.childRows_of_struct rfl]
    obtain ⟨xs, hxs, h⟩ := fetchRow_of_fields path v.root m
      (show (TypeKind.struct names).fetchCase = .struct from rfl) fun i d hd =>
        (hds i d hd p hp).imp fun _ h => h.1
    have hrow := h
    rw [fetchRow, if_pos (.inl hv)] at hrow
    rw [decodeSlot_of_valid hv DuckDBColumnType.noConfusion, hrow]
    exact ⟨⟨_, h⟩, _, rfl, fun _ _ => ⟨_, _, xs, rfl, hxs.length_eq ▸ hlen⟩⟩
  | union names =>
    have hp : p < m := by rwa [hm, TypeKind.childRows_of_struct rfl]
    obtain ⟨hpos, -⟩ := hkind
    obtain ⟨xs, -, h⟩ := fetchRow_of_fields path v.root m
      (show (TypeKind.union names).fetchCase = .struct from rfl) fun i d hd =>
        (hds i d hd p hp).imp fun _ h => h.1
    refine ⟨⟨_, h⟩, ?_⟩
    cases ds with
    | nil => simp only [List.length_nil] at hlen; omega
    | cons d0 ds =>
      obtain ⟨x0, hx0, htag, -⟩ := hds 0 d0 rfl p hp
      obtain rfl := htag rfl rfl
      have hlt : k < (d0 :: ds).length := hlen ▸ hk
      obtain ⟨x, hx, -⟩ := hds k _ (List.getElem?_eq_getElem hlt) p hp
      refine ⟨x, ?_, fun _ h => TypeKind.noConfusion h⟩
      rw [decodeSlot, if_pos hv]
      refine Except.bind_eq_ok.2 ⟨_, hx0, Except.bind_eq_ok.2 ⟨_, ?_, hx⟩⟩
      have : ((1 : ℤ) + ((k - 1 : ℕ) : ℤ)).toNat = k := by omega
      rw [elementAt, if_pos (by omega), this, List.getElem?_eq_getElem hlt]
  | _ => exact hkind.elim

/-- The text of a row is made of the texts of child slots, some of them of child `k`. -/
theorem rows_text {kind : TypeKind} {children : List LogicalType} {v : FlatVector} {k : ℕ}
    (hs : LogicalType.ShapeOK kind children) (hk : k < children.length) (hl : Leads kind v k)
    {m n : ℕ} {ds : List TextReader} {Q : ℕ → Text → Prop} (hm : m = kind.childRows 1 n)
    (hlen : ds.length = children.length)
    (hds : ∀ (i : ℕ) d, ds[i]? = some d → ∀ q < m, ∃ x, d q = .ok x ∧ Q i x) {p : ℕ} (hp : p < n) :
    ∃ parts, validText markPlatform kind v ds p = .ok (.node kind parts) ∧
      (∀ y ∈ parts, ∃ i, Q i y) ∧ ∃ y ∈ parts, Q k y := by
  obtain ⟨-, hdata, hkind⟩ := hl
  have hentry : kind.isListOrMap = true → m = 1 → k = 0 → (∃ d, ds = [d]) →
      ∃ parts, (do
        let entry ← listEntry (v.root.data p)
        let d ← elementAt ds 0
        return Text.node kind (← (List.range entry.2.toNat).mapM fun i => d (entry.1.toNat + i))) =
          Except.ok (.node kind parts) ∧ (∀ y ∈ parts, ∃ i, Q i y) ∧ ∃ y ∈ parts, Q k y := by
    rintro - hm rfl ⟨d, rfl⟩
    obtain ⟨x, hx, hq⟩ := hds 0 d rfl 0 (by omega)
    refine ⟨[x], ?_, fun y hy => ⟨0, List.mem_singleton.1 hy ▸ hq⟩, x,
      List.mem_singleton_self x, hq⟩
    rw [hdata p]
    show (do return Text.node kind (← [0].mapM fun i => d (0 + i))) = _
    rw [List.mapM_cons, List.mapM_nil, Nat.zero_add, hx]
    rfl
  cases kind with
  | list =>
    obtain ⟨u, rfl⟩ := hs
    exact hentry rfl hm hkind (List.length_eq_one_iff.1 hlen)
  | map =>
    obtain ⟨ns, key, value, rfl⟩ := hs
    exact hentry rfl hm hkind (List.length_eq_one_iff.1 hlen)
  | array limit =>
    obtain ⟨-, u, rfl⟩ := hs
    obtain ⟨rfl, hpos⟩ := hkind
    obtain ⟨d, rfl⟩ := List.length_eq_one_iff.1 hlen
    have hle : p * limit + limit ≤ m := hm ▸ array_range_le limit hp
    have hread : ∀ i ∈ List.range limit, ∃ x, d (p * limit + i) = .ok x := by
      intro i hi
      have := List.mem_range.1 hi
      exact (hds 0 d rfl (p * limit + i) (by omega)).imp fun _ h => h.1
    obtain ⟨xs, hxs⟩ := mapM_isOk.2 hread
    have hall := mapM_eq_ok.1 hxs
    have hq : ∀ y ∈ xs, Q 0 y := by
      intro y hy
      obtain ⟨i, hi, rfl⟩ := List.getElem_of_mem hy
      have hi' : i < limit := by rwa [← hall.length_eq, List.length_range] at hi
      have hget := hall.get (i := i) (by rwa [List.length_range]) hi
      simp only [List.get_eq_getElem, List.getElem_range] at hget
      obtain ⟨x, hx, hq⟩ := hds 0 d rfl (p * limit + i) (by omega)
      cases hx.symm.trans hget
      exact hq
    have hlen : 0 < xs.length := by rwa [← hall.length_eq, List.length_range]
    refine ⟨xs, ?_, fun y hy => ⟨0, hq y hy⟩, xs[0], List.getElem_mem hlen,
      hq _ (List.getElem_mem hlen)⟩
    exact Except.bind_eq_ok.2 ⟨d, rfl, Except.bind_eq_ok.2 ⟨xs, hxs, rfl⟩⟩
  | struct names =>
    have hp : p < m := by rwa [hm, TypeKind.childRows_of_struct rfl]
    have hread : ∀ d ∈ ds, ∃ x, d p = .ok x := by
      intro d hd
      obtain ⟨i, hi⟩ := List.mem_iff_getElem?.1 hd
      exact (hds i d hi p hp).imp fun _ h => h.1
    obtain ⟨xs, hxs⟩ := mapM_isOk.2 hread
    have hall := mapM_eq_ok.1 hxs
    have hq : ∀ i (hi : i < xs.length), Q i xs[i] := by
      intro i hi
      have hi' : i < ds.length := hall.length_eq ▸ hi
      have hget := hall.get hi' hi
      obtain ⟨x, hx, hq⟩ := hds i _ (List.getElem?_eq_getElem hi') p hp
      cases hx.symm.trans hget
      exact hq
    have hlt : k < xs.length := by rwa [← hall.length_eq, hlen]
    refine ⟨xs, Except.bind_eq_ok.2 ⟨xs, hxs, rfl⟩, fun y hy => ?_, xs[k], List.getElem_mem hlt,
      hq k hlt⟩
    obtain ⟨i, hi, rfl⟩ := List.getElem_of_mem hy
    exact ⟨i, hq i hi⟩
  | union names =>
    have hp : p < m := by rwa [hm, TypeKind.childRows_of_struct rfl]
    obtain ⟨hpos, htag⟩ := hkind
    have hlt : k < ds.length := hlen ▸ hk
    obtain ⟨x, hx, hq⟩ := hds k _ (List.getElem?_eq_getElem hlt) p hp
    refine ⟨[x], ?_, fun y hy => ⟨k, List.mem_singleton.1 hy ▸ hq⟩, x,
      List.mem_singleton_self x, hq⟩
    have : ((1 : ℤ) + ((k - 1 : ℕ) : ℤ)).toNat = k := by omega
    refine Except.bind_eq_ok.2 ⟨_, htag p, Except.bind_eq_ok.2 ⟨_, ?_, Except.bind_eq_ok.2
      ⟨x, hx, rfl⟩⟩⟩
    rw [elementAt, if_pos (by omega), this, List.getElem?_eq_getElem hlt]
  | _ => exact hkind.elim

/-! ## Spoiled vectors -/

/-- A vector that can be fetched, with a marked value in the text of every row that the fetch
    spoils. -/
structure Spoiled (t : LogicalType) (v : FlatVector) : Prop where
  ofType : OfType t v
  decodes : Decodes t v fun x => ∀ names, t.kind = .struct names →
    ∃ id keys xs, x = .struct id keys xs ∧ xs.length = t.children.length
  before : ∀ p, ∃ x, castText markPlatform t v p = .ok x ∧ 97 ∈ x.leaves
  after : ∀ path n column w, processVector markPlatform t path n v = .ok column w →
    ∀ p < n, ∃ x, castText markPlatform t w p = .ok x ∧ 97 ∉ x.leaves

theorem markPlatform_cast_marked {kind : TypeKind} (hk : kind.fetchCase = .default) :
    markPlatform.castToString kind (markedCell kind) = .ok [97] := by
  refine if_pos ⟨hk, ?_⟩
  unfold markedCell
  split
  · exact .inl rfl
  · exact .inr rfl

theorem markPlatform_cast_string (kind : TypeKind) :
    markPlatform.castToString kind (.string [97]) = .ok [98] :=
  if_neg fun h => by
    rcases h.2 with h | h
    · cases h
    · exact absurd (Cell.string.inj h) (by decide)

/-- A type without decoder. -/
theorem spoiled_here {kind : TypeKind} {children : List LogicalType}
    (hs : LogicalType.ShapeOK kind children) (hk : kind.fetchCase = .default)
    (hnull : kind.colType ≠ .sqlnull) : ∃ v, Spoiled (.node kind children) v := by
  obtain rfl := hs.nil_of_default hk
  refine ⟨.cons ⟨.node kind [], fun _ => true, fun _ => markedCell kind, 1⟩
    fun _ => nulls (.node kind []), ⟨rfl, fun h => absurd h hnull, trivial⟩, ?_, fun p => ?_, ?_⟩
  · refine decodes_node (P := fun _ _ => True) hs rfl (fun i u hu => by simp at hu)
      fun path m ds n hn hm hlen hds p hp => ?_
    obtain rfl := List.length_eq_zero_iff.1 hlen
    have hrow : ∀ s : FlatSlots, s.data p = markedCell kind →
        validRow markPlatform kind path s m [] p = .ok (.string "a") := by
      intro s hs
      unfold validRow
      rw [hk, hs]
      simp only [markPlatform_cast_marked hk]
      rfl
    refine ⟨⟨.string "a", ?_⟩, .string "a", ?_, fun names h => ?_⟩
    · rw [fetchRow, if_pos (.inl rfl)]
      exact hrow _ rfl
    · rw [decodeSlot_scalar hs (by rintro rfl; cases hk) rfl]
      unfold scalarObject
      rw [hk, root_cons]
      simp only [markPlatform_cast_marked hk]
      rfl
    · have h : kind = .struct names := h
      subst h
      cases hk
  · refine ⟨.leaf [97], ?_, List.mem_singleton_self _⟩
    rw [castText_node, root_cons, if_pos rfl, validText_of_default hk, root_cons,
      markPlatform_cast_marked hk]
    rfl
  · intro path n column w h p hp
    obtain ⟨-, hvalid, hdata⟩ := (processVector_final h).2.1 hk
    obtain ⟨bytes, hbytes, hcast⟩ := hdata p
    have hcast := hcast hp rfl
    rw [root_cons, markPlatform_cast_marked hk] at hcast
    cases hcast
    refine ⟨.leaf [98], ?_, by decide⟩
    rw [castText_node, hvalid, root_cons, if_pos rfl, validText_of_default hk, hbytes]
    rw [markPlatform_cast_string]
    rfl

theorem castText_of_invalid {t : LogicalType} {v : FlatVector} {p : ℕ}
    (hv : v.root.valid p = false) : castText markPlatform t v p = .ok .null := by
  obtain ⟨kind, children⟩ := t
  rw [castText_node]
  exact if_neg (by simp [hv])

theorem castText_tag {v : FlatVector} {p : ℕ} (hv : v.root.valid p = true) :
    castText markPlatform (.node (.scalar .utinyint rfl) []) v p = .ok (.leaf [98]) := by
  rw [castText_node, if_pos hv]
  rfl

/-- A fetch changes no validity bit. -/
theorem processVector_valid {env : Platform} {t : LogicalType} {path : List ℕ} {n : ℕ}
    {v w : FlatVector} {column : DuckDBVector} (h : processVector env t path n v = .ok column w) :
    w.root.valid = v.root.valid := by
  obtain ⟨kind, children⟩ := t
  obtain ⟨hkeep, hcast, -⟩ := processVector_final h
  by_cases hk : kind.fetchCase = .default
  · exact (hcast hk).2.1
  · rw [hkeep hk]

/-- The child vectors around a marked one: the tags of a union, and NULLs. -/
def besides (kind : TypeKind) (children : List LogicalType) (k : ℕ) (i : ℕ) : FlatVector :=
  if kind.columnType = .union ∧ i = 0 then tags (k - 1)
  else nulls (children.getD i (.node kind children))

/-- A vector of the type with the vector `u` as child `k`. -/
def around (kind : TypeKind) (children : List LogicalType) (k : ℕ) (u : FlatVector) : FlatVector :=
  .cons ⟨.node kind children, fun _ => true, fun _ => .entry (0 : ℕ) (1 : ℕ), 1⟩ fun i =>
    if i = k then u else besides kind children k i

section
variable {kind : TypeKind} {children : List LogicalType} {k : ℕ} {t : LogicalType} {u : FlatVector}

theorem child_around_self : (around kind children k u).child k = u := if_pos rfl

theorem child_around {i : ℕ} (hi : i ≠ k) : (around kind children k u).child i =
    besides kind children k i := if_neg hi

theorem besides_cases (hs : LogicalType.ShapeOK kind children) {i : ℕ} {s : LogicalType}
    (hi : children[i]? = some s) :
    (kind.columnType = .union ∧ i = 0 ∧ s = .node (.scalar .utinyint rfl) [] ∧
      besides kind children k i = tags (k - 1)) ∨
    (¬ (kind.columnType = .union ∧ i = 0) ∧ besides kind children k i = nulls s) := by
  by_cases h : kind.columnType = .union ∧ i = 0
  · refine .inl ⟨h.1, h.2, ?_, if_pos h⟩
    obtain ⟨hu, rfl⟩ := h
    obtain ⟨names, rfl⟩ := TypeKind.eq_union hu
    obtain ⟨⟨m, ms, rfl⟩, -⟩ := hs
    exact (Option.some.inj hi).symm
  · refine .inr ⟨h, ?_⟩
    rw [besides, if_neg h, List.getD_eq_getElem?_getD, hi]
    rfl

theorem leads_around (hs : LogicalType.ShapeOK kind children) (hk : children[k]? = some t)
    (ht : HasCast t) (hlen : kind.columnType = .union → children.length ≤ 257) :
    Leads kind (around kind children k u) k := by
  refine ⟨fun _ => rfl, fun _ => rfl, ?_⟩
  have hlt := (List.getElem?_eq_some_iff.1 hk).1
  cases kind with
  | list => obtain ⟨s, rfl⟩ := hs; exact Nat.lt_one_iff.1 hlt
  | map => obtain ⟨ns, a, b, rfl⟩ := hs; exact Nat.lt_one_iff.1 hlt
  | array limit => obtain ⟨hpos, s, rfl⟩ := hs; exact ⟨Nat.lt_one_iff.1 hlt, hpos⟩
  | struct names => exact trivial
  | union names =>
    have hpos : 0 < k := by
      -- the tags have a decoder
      refine Nat.pos_of_ne_zero fun h0 => ?_
      subst h0
      obtain ⟨⟨m, ms, rfl⟩, -⟩ := hs
      cases hk
      cases ht with
      | here h _ => cases h
      | child h _ => exact absurd h List.not_mem_nil
    refine ⟨hpos, fun p => ?_⟩
    rw [child_around (by omega), besides, if_pos ⟨rfl, rfl⟩]
    show Except.ok (some ((k - 1) % 256)) = _
    rw [Nat.mod_eq_of_lt (by have := hlen rfl; omega)]
  | scalar t h => rw [show children = [] from hs] at hlt; exact absurd hlt (Nat.not_lt_zero k)
  | decimal a b c => rw [hs.1] at hlt; exact absurd hlt (Nat.not_lt_zero k)
  | enum a b => rw [hs.1] at hlt; exact absurd hlt (Nat.not_lt_zero k)
  | unlisted t => rw [show children = [] from hs] at hlt; exact absurd hlt (Nat.not_lt_zero k)

theorem fetchCase_of_child (hs : LogicalType.ShapeOK kind children) (hk : children[k]? = some t) :
    kind.fetchCase ≠ .default ∧ kind.colType ≠ .sqlnull := by
  cases kind with
  | scalar s h => rw [show children = [] from hs] at hk; cases hk
  | decimal a b c => rw [hs.1] at hk; cases hk
  | enum a b => rw [hs.1] at hk; cases hk
  | unlisted t => rw [show children = [] from hs] at hk; cases hk
  | _ => exact ⟨FetchCase.noConfusion, CAPIType.noConfusion⟩

theorem decodes_around (hwf : (LogicalType.node kind children).Wf) (hk : children[k]? = some t)
    (ht : HasCast t) (hlen : kind.columnType = .union → children.length ≤ 257)
    (hu : Spoiled t u) : Decodes (.node kind children) (around kind children k u) fun x =>
      ∀ names, kind = .struct names → ∃ id keys xs, x = .struct id keys xs ∧
        xs.length = children.length := by
  have hs : LogicalType.ShapeOK kind children := hwf.shape
  have hlt := (List.getElem?_eq_some_iff.1 hk).1
  have hl := leads_around (u := u) hs hk ht hlen
  refine decodes_node (P := ChildObject kind k) hs rfl (fun i s hi => ?_)
    fun path m ds n hn hm hlen hds p hp => rows_decode hs hlt hl hn hm hlen hds hp
  by_cases hik : i = k
  · subst hik
    rw [child_around_self]
    obtain rfl := Option.some.inj (hk.symm.trans hi)
    refine hu.decodes.imp fun x hx => ⟨fun hunion h0 => ?_, fun hmap h0 => ?_⟩
    · subst h0
      obtain ⟨names, rfl⟩ := TypeKind.eq_union hunion
      exact absurd hl.2.2.1 (Nat.lt_irrefl 0)
    · subst h0 hmap
      obtain ⟨ns, a, b, rfl⟩ := hs
      cases hi
      obtain ⟨id, keys, xs, rfl, hxs⟩ := hx ns rfl
      obtain ⟨y, z, rfl⟩ := List.length_eq_two.1 hxs
      exact ⟨id, keys, y, z, rfl⟩
  · rw [child_around hik]
    rcases besides_cases (k := k) hs hi with ⟨hunion, rfl, rfl, hb⟩ | ⟨hne, hb⟩
    · rw [hb]
      refine (tags_decodes (by have := hlen hunion; omega)).imp fun x hx => ⟨fun _ _ => hx, ?_⟩
      rintro rfl
      cases hunion
    · rw [hb]
      refine (nulls_decodes (hwf.child (List.mem_of_getElem? hi))).imp fun x hx =>
        ⟨fun hunion h0 => absurd ⟨hunion, h0⟩ hne, ?_⟩
      rintro rfl rfl
      exact absurd hl.2.2.symm hik

theorem ofType_around (hs : LogicalType.ShapeOK kind children) (hk : children[k]? = some t)
    (hu : OfType t u) : OfType (.node kind children) (around kind children k u) := by
  refine ⟨rfl, fun h => absurd h (fetchCase_of_child hs hk).2, ofTypes_iff.2 fun i s hi => ?_⟩
  rw [Nat.zero_add]
  by_cases hik : i = k
  · subst hik
    obtain rfl := Option.some.inj (hk.symm.trans hi)
    rw [child_around_self]
    exact hu
  · rw [child_around hik]
    rcases besides_cases (k := k) hs hi with ⟨-, rfl, rfl, hb⟩ | ⟨-, hb⟩
    · rw [hb]; exact tags_ofType _
    · rw [hb]; exact nulls_ofType s

/-- The vectors beside the marked one have no mark, before the fetch and after it. -/
theorem castText_besides (hs : LogicalType.ShapeOK kind children) {i : ℕ} {s : LogicalType}
    (hi : children[i]? = some s) {w : FlatVector} (hw : w.root.valid =
      (besides kind children k i).root.valid) (q : ℕ) :
    ∃ x, castText markPlatform s w q = .ok x ∧ 97 ∉ x.leaves := by
  rcases besides_cases (k := k) hs hi with ⟨-, rfl, rfl, hb⟩ | ⟨-, hb⟩
  · exact ⟨_, castText_tag (by rw [hw, hb]; rfl), by decide⟩
  · exact ⟨_, castText_of_invalid (by rw [hw, hb]; rfl), List.not_mem_nil⟩

theorem spoiled_around (hwf : (LogicalType.node kind children).Wf) (hk : children[k]? = some t)
    (ht : HasCast t) (hlen : kind.columnType = .union → children.length ≤ 257)
    (hu : Spoiled t u) : Spoiled (.node kind children) (around kind children k u) := by
  have hs : LogicalType.ShapeOK kind children := hwf.shape
  have hlt := (List.getElem?_eq_some_iff.1 hk).1
  have hl := leads_around (u := u) hs hk ht hlen
  refine ⟨ofType_around hs hk hu.ofType, decodes_around hwf hk ht hlen hu, fun p => ?_, ?_⟩
  · have hds : ∀ (i : ℕ) d,
        (castTexts markPlatform children 0 (around kind children k u))[i]? = some d →
        ∀ q < kind.childRows 1 (p + 1), ∃ x, d q = .ok x ∧ (i = k → 97 ∈ x.leaves) := by
      intro i d hd q _
      rw [castTexts_getElem?, Nat.zero_add] at hd
      obtain ⟨s, hi, rfl⟩ := Option.map_eq_some_iff.1 hd
      by_cases hik : i = k
      · subst hik
        obtain rfl := Option.some.inj (hk.symm.trans hi)
        obtain ⟨x, hx, hmem⟩ := hu.before q
        rw [child_around_self]
        exact ⟨x, hx, fun _ => hmem⟩
      · rw [child_around hik]
        obtain ⟨x, hx, -⟩ := castText_besides (k := k) hs hi rfl q
        exact ⟨x, hx, fun h => absurd h hik⟩
    obtain ⟨parts, hparts, -, y, hy, hmark⟩ := rows_text
      (Q := fun i x => i = k → 97 ∈ x.leaves) hs hlt hl rfl (castTexts_length _ _ _) hds
      (Nat.lt_succ_self p)
    exact ⟨.node kind parts, hparts, Text.mem_leaves_node.2 ⟨y, hy, hmark rfl⟩⟩
  · intro path n column w h p hp
    obtain ⟨hkeep, -, hchildren⟩ := processVector_final h
    have hroot := hkeep (fetchCase_of_child hs hk).1
    have hds : ∀ (i : ℕ) d, (castTexts markPlatform children 0 w)[i]? = some d →
        ∀ q < kind.childRows 1 n, ∃ x, d q = .ok x ∧ 97 ∉ x.leaves := by
      intro i d hd q hq
      rw [castTexts_getElem?, Nat.zero_add] at hd
      obtain ⟨s, hi, rfl⟩ := Option.map_eq_some_iff.1 hd
      obtain ⟨c, hc⟩ := hchildren i s hi
      by_cases hik : i = k
      · subst hik
        obtain rfl := Option.some.inj (hk.symm.trans hi)
        rw [child_around_self] at hc
        exact hu.after _ _ _ _ hc q hq
      · rw [child_around hik] at hc
        exact castText_besides (k := k) hs hi (processVector_valid hc) q
    obtain ⟨parts, hparts, hall, -⟩ := rows_text (Q := fun _ x => 97 ∉ x.leaves) hs hlt
      (hl.congr hroot fun names hn => root_child_tags hn hs h) rfl (castTexts_length _ _ _) hds hp
    refine ⟨.node kind parts, ?_, fun hmem => ?_⟩
    · rw [castText_node, hroot]
      exact hparts
    · obtain ⟨y, hy, hmem⟩ := Text.mem_leaves_node.1 hmem
      obtain ⟨i, hi⟩ := hall y hy
      exact hi hmem

end

/-- Every type with a type without decoder at or below it has a marked vector. -/
theorem exists_spoiled {t : LogicalType} (h : HasCast t) (ht : t.Wf) {n : ℕ} (hn : Fits t n) :
    ∃ v, Spoiled t v := by
  induction h generalizing n with
  | here hk hnull => exact spoiled_here ht.shape hk hnull
  | child hmem hcast ih =>
    obtain ⟨v, hv⟩ := ih (ht.child hmem) (hn.child hmem)
    obtain ⟨k, hk⟩ := List.mem_iff_getElem?.1 hmem
    exact ⟨_, spoiled_around ht hk hcast hn.2.1 hv⟩

/-! ## Strings after the fetch -/

theorem textString_eq_a (x : Text) :
    textString markPlatform Text.leaves x = some "a" ↔ 97 ∈ x.leaves := by
  have hstring : ∀ bytes : List UInt8,
      some (if 97 ∈ bytes then "a" else "b") = some "a" ↔ 97 ∈ bytes := by
    intro bytes
    split
    · next h => exact iff_of_true rfl h
    · next h => exact iff_of_false (by decide) h
  cases x with
  | null => exact iff_of_false (by decide) List.not_mem_nil
  | leaf bytes => exact hstring bytes
  | node kind parts => exact hstring _

/-- The strings of one row, where the cast can be bound. -/
theorem castResultToStrings_one {env : Platform} {assemble : Text → List UInt8} {v : FlatVector}
    {x : Text} (h : castText env v.root.type v 0 = .ok x) :
    castResultToStrings env assemble 1 v =
      (castCheck v.root.type v >>= fun _ => .ok [textString env assemble x]) := by
  have hrow : [0].mapM (castText env v.root.type v) = .ok [x] := by
    rw [List.mapM_cons, List.mapM_nil, h]
    rfl
  show (castCheck v.root.type v >>= fun _ => [0].mapM (castText env v.root.type v) >>= _) = _
  rw [hrow]
  rfl

/-- A type without decoder strictly below the column spoils its strings. -/
theorem not_stringsIntact {t : LogicalType} (ht : t.Wf) (hn : Fits t 1) (h : HasCastBelow t) :
    ¬ StringsIntact t := by
  intro hintact
  obtain ⟨kind, children⟩ := t
  obtain ⟨u, hmem, hcast⟩ := h
  obtain ⟨k, hk⟩ := List.mem_iff_getElem?.1 hmem
  obtain ⟨v, hv⟩ := exists_spoiled (.child hmem hcast) ht hn
  have htype : v.root.type = .node kind children := hv.ofType.1
  obtain ⟨column, w, hok⟩ := (processVector_eq_ok ht).2 (hv.decodes [] 1 hn).1
  have hroot := (processVector_final hok).1 (fetchCase_of_child ht.shape hk).1
  have hfetch : fetchColumn markPlatform 1 v = .ok column w := by
    show processVector markPlatform v.root.type [] 1 v = _
    rw [htype]
    exact hok
  obtain ⟨x, hx, hmark⟩ := hv.before 0
  obtain ⟨y, hy, hnone⟩ := hv.after _ _ _ _ hok 0 Nat.one_pos
  have hbound : castCheck (.node kind children) v = .ok () := castCheck_ofType hv.ofType
  have hstrings := hintact markPlatform Text.leaves 1 v w column hv.ofType hfetch
  rw [castResultToStrings_one (v := v) (by rw [htype]; exact hx),
    castResultToStrings_one (v := w) (by rw [hroot, htype]; exact hy),
    (textString_eq_a x).2 hmark, htype, hbound] at hstrings
  cases hcheck : castCheck w.root.type w with
  | error e =>
    rw [hcheck] at hstrings
    cases hstrings
  | ok u =>
    rw [hcheck] at hstrings
    exact hnone ((textString_eq_a y).1 (List.cons.inj (Except.ok.inj hstrings)).1)

/-- The bytes of an ASCII string. -/
def asciiBytes (s : String) : List UInt8 := s.toList.map fun c => UInt8.ofNat c.toNat

/-- An engine that casts the interval 0 as DuckDB does. -/
def intervalPlatform : Platform where
  systemDefault := utc
  resolve l := l
  decodeCharbuffer bytes := String.ofList (bytes.map fun b => Char.ofNat b.toNat)
  newStringUTF s := s
  castToString _ c :=
    if c = .fixed 0 then .ok (asciiBytes "00:00:00") else .error .engine
  variant _ _ := .ok .null

/-- The text of a list with one element. -/
def singletonText : Text → List UInt8
  | .node _ [.leaf bytes] => asciiBytes "[" ++ bytes ++ asciiBytes "]"
  | _ => []

/-- The column `[INTERVAL '0 seconds']`. -/
def intervalList : FlatVector :=
  .cons ⟨.listOf (.node (.scalar .interval rfl) []), fun _ => true, fun _ => .entry 0 1, 1⟩ fun _ =>
    .cons ⟨.node (.scalar .interval rfl) [], fun _ => true, fun _ => .fixed 0, 0⟩ fun _ =>
      nulls (.node (.scalar .interval rfl) [])

end DuckDBJava
