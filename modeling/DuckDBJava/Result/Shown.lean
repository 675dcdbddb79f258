/-
  The objects that show a value.

  `Shows` relates a value of a slot, as the layout of a vector denotes it, to the object that
  `getObject` returns for it, whatever vectors the structs on the way were made for.  A fetched
  vector without `ARRAY`, `LIST` and `MAP` shows what its slots hold (`slotObject_shows`).
-/
import DuckDBJava.Result.Decoding
import DuckDBJava.Appender.Supplies

namespace DuckDBJava

open Exec PathTree

variable {env : Platform}

/-- The slots of a flat vector as those of a vector of a chunk. -/
def slotsOf (v : FlatVector) : Vec := fun p =>
  { valid := (v p).valid, data := fun k => some ((v p).data k), size := (v p).size, alloc := 0,
    listSize := 0, buf := ⟨0, 0, 0⟩ }

/-- The object shows the value. -/
inductive Shows (env : Platform) : LogicalType → Value → JObject → Prop
  | null {t} : Shows env t .null .null
  | fixed {kind bits o} : scalarObject env kind (.fixed bits) = .ok o →
      Shows env (.node kind []) (.fixed bits) o
  | string {kind bytes o} : scalarObject env kind (.string bytes) = .ok o →
      Shows env (.node kind []) (.string bytes) o
  | variant {x o} {id : ObjectId} {c : Cell} : c.value = some x →
      env.variant id c = .ok (.vector (.ok o)) → Shows env (.node (.unlisted .variant) []) x o
  | struct {names children xs id os} : xs.length = children.length → os.length = children.length →
      (∀ (i : ℕ) t (x : Value) (o : JObject), children[i]? = some t → xs[i]? = some x →
        os[i]? = some o → Shows env t x o) →
      Shows env (.node (.struct names) children) (.struct xs)
        (.struct id (names.map env.newStringUTF) os)
  | union {names children t x o} {member : ℕ} : children[member + 1]? = some t → Shows env t x o →
      Shows env (.node (.union names) children) (.union member x) o

/-- The object of a slot without children, by its value. -/
def leafObject (env : Platform) (kind : TypeKind) : Value → Except JavaException JObject
  | .null => .ok .null
  | .fixed bits => scalarObject env kind (.fixed bits)
  | .string bytes => scalarObject env kind (.string bytes)
  | _ => .error .invalidMemory

/-- A slot without children, but for `VARIANT`. -/
theorem slotObject_leaf {kind : TypeKind} (hwf : (LogicalType.node kind []).Wf)
    (hl : kind.isLeaf = true) (hvariant : kind ≠ .unlisted .variant) {path : List ℕ} {n p : ℕ}
    {v : FlatVector} {x : Value}
    (hx : decode (.node kind []) (slotsOf v) p = some x) :
    slotObject env (.node kind []) path n v p = leafObject env kind x := by
  by_cases hv : v.root.valid p = true
  · have hslot : (slotsOf v).root.valid p = true := hv
    have hleaf : (LogicalType.node kind []).kind.isLeaf = true := hl
    rw [decode_leaf hleaf hslot] at hx
    replace hx : (v.root.data p).value = some x := hx
    refine (decodeSlot_scalar hwf.shape hvariant hv).trans ?_
    cases hc : v.root.data p with
    | fixed | string =>
      rw [hc] at hx
      cases hx
      rfl
    | entry =>
      rw [hc] at hx
      cases hx
  · have hnull : (slotsOf v).root.valid p = false := by
      show v.root.valid p = false
      simpa using hv
    unfold decode at hx
    rw [if_pos hnull] at hx
    cases hx
    rw [slotObject, decodeSlot, if_neg hv]
    rfl

theorem Shows.of_leaf {kind : TypeKind} {x : Value} {o : JObject}
    (ho : leafObject env kind x = .ok o) : Shows env (.node kind []) x o := by
  cases x with
  | null =>
    cases ho
    exact .null
  | fixed => exact .fixed ho
  | string => exact .string ho
  | _ => cases ho

/-- A `VARIANT`. -/
theorem variantSlot_shows {path : List ℕ} {n p : ℕ} {v : FlatVector} {x : Value} {o : JObject}
    (hv : v.root.valid p = true)
    (hx : decode (.node (.unlisted .variant) []) (slotsOf v) p = some x)
    (ho : slotObject env (.node (.unlisted .variant) []) path n v p = .ok o) :
    Shows env (.node (.unlisted .variant) []) x o := by
  have hslot : (slotsOf v).root.valid p = true := hv
  have hleaf : (LogicalType.node (.unlisted .variant) []).kind.isLeaf = true := rfl
  rw [decode_leaf hleaf hslot] at hx
  rw [slotObject, decodeSlot_of_valid hv DuckDBColumnType.noConfusion] at ho
  obtain ⟨y, hy, ho⟩ := Except.bind_eq_ok.1 ho
  replace ho : variantObject y = .ok o := ho
  cases y with
  | vector first =>
    obtain rfl : first = .ok o := ho
    exact .variant hx hy
  | _ => cases ho

section
variable {kind : TypeKind} {children : List LogicalType} {path : List ℕ} {n p : ℕ} {v : FlatVector}
  {x : Value} {o : JObject}

/-- The attributes of a struct are the objects of the child slots. -/
theorem attributes_slots {os : List JObject}
    (h : List.Forall₂ (fun d y => d p = .ok y) (slotObjects env children path 0 n v) os) :
    os.length = children.length ∧ ∀ (i : ℕ) t o, children[i]? = some t → os[i]? = some o →
      slotObject env t (i :: path) n (v.child i) p = .ok o := by
  obtain ⟨hlen, hslots⟩ := List.forall₂_iff_get.1 h
  refine ⟨by rw [← hlen, slotObjects_length], fun i t o ht ho => ?_⟩
  obtain ⟨hi, rfl⟩ := List.getElem?_eq_some_iff.1 ho
  have hd := slotObjects_getElem? env children path 0 n v i
  rw [List.getElem?_eq_getElem (hlen ▸ hi), ht, Nat.zero_add] at hd
  have hslot := hslots i (hlen ▸ hi) hi
  simp only [List.get_eq_getElem, Option.some.inj hd] at hslot
  exact hslot

/-- The fields of a `STRUCT`. -/
theorem structSlot_shows {names : List String} (hv : v.root.valid p = true)
    (ih : ∀ i t, children[i]? = some t → ∀ {x o}, decode t (slotsOf (v.child i)) p = some x →
      slotObject env t (i :: path) n (v.child i) p = .ok o → Shows env t x o)
    (hx : decode (.node (.struct names) children) (slotsOf v) p = some x)
    (ho : slotObject env (.node (.struct names) children) path n v p = .ok o) :
    Shows env (.node (.struct names) children) x o := by
  rw [slotObject, decodeSlot_of_valid hv DuckDBColumnType.noConfusion] at ho
  obtain ⟨y, hy, hyo⟩ := Except.bind_eq_ok.1 ho
  obtain ⟨os, hos, hstruct⟩ := Except.bind_eq_ok.1 hy
  cases hstruct
  cases hyo
  have hvalid : ¬ (slotsOf v).root.valid p = false := by
    show ¬ v.root.valid p = false
    simp [hv]
  rw [decode, if_neg hvalid] at hx
  obtain ⟨xs, hxs, rfl⟩ := Option.map_eq_some_iff.1 hx
  obtain ⟨hlen, hget⟩ := decodeFields_eq_some hxs
  replace hos : (slotObjects env children path 0 n v).mapM (fun d => d p) = .ok os := hos
  obtain ⟨hlen', hslots⟩ := attributes_slots (mapM_eq_ok.1 hos)
  refine .struct hlen hlen' fun i t x o ht hx ho => ?_
  refine ih i t ht ?_ (hslots i t o ht ho)
  rw [← hx, hget i t ht, Nat.zero_add]
  rfl

/-- The selected member of a `UNION`. -/
theorem unionSlot_shows {names : List String} (hwf : (LogicalType.node (.union names) children).Wf)
    (hnames : names.length ≤ 257) (hv : v.root.valid p = true)
    (ih : ∀ i t, children[i]? = some t → ∀ {x o}, decode t (slotsOf (v.child i)) p = some x →
      slotObject env t (i :: path) n (v.child i) p = .ok o → Shows env t x o)
    (hx : decode (.node (.union names) children) (slotsOf v) p = some x)
    (ho : slotObject env (.node (.union names) children) path n v p = .ok o) :
    Shows env (.node (.union names) children) x o := by
  obtain ⟨⟨t₀, ts, hchildren⟩, hlen⟩ := hwf.shape
  have hvalid : ¬ (slotsOf v).root.valid p = false := by
    show ¬ v.root.valid p = false
    simp [hv]
  rw [decode, if_neg hvalid] at hx
  split at hx
  · next tag htag =>
    obtain ⟨y, hy, rfl⟩ := Option.map_eq_some_iff.1 hx
    rw [slotObject, decodeSlot, if_pos hv] at ho
    replace ho : unionSlot (slotObjects env children path 0 n v) p = .ok o := ho
    obtain ⟨u, hu, hy⟩ := decodeChild_eq_some hy
    refine .union hu (ih _ u hu hy ?_)
    have hlt := (List.getElem?_eq_some_iff.1 hu).1
    have hd := slotObjects_getElem? env children path 0 n v (tag + 1)
    rw [hu, Nat.zero_add] at hd
    have hlen : names.length = children.length := hlen
    have hbound : tag < 256 := by omega
    subst hchildren
    obtain ⟨y', hy', ho⟩ := Except.bind_eq_ok.1 ho
    have htagged : slotObject env (.node (.scalar .utinyint rfl) []) (0 :: path) n (v.child 0) p =
        .ok (.number .short (unsigned 1 tag)) :=
      slotObject_leaf (hwf.child List.mem_cons_self) rfl TypeKind.noConfusion htag
    cases htagged.symm.trans hy'
    obtain ⟨d, hd', ho⟩ := Except.bind_eq_ok.1 ho
    have htag' : unsigned 1 tag = tag := congrArg Nat.cast (Nat.mod_eq_of_lt hbound)
    rw [htag', elementAt, if_pos (by omega), show ((1 : ℤ) + (tag : ℤ)).toNat = tag + 1 by omega,
      hd] at hd'
    cases hd'
    exact ho
  · cases hx

end

/-- Every slot of a fetched vector shows what it holds. -/
theorem slotObject_shows {t : LogicalType} (ht : t.Wf) (hplain : t.Plain) {path : List ℕ} {n p : ℕ}
    {v : FlatVector} {x : Value} {o : JObject} (hx : decode t (slotsOf v) p = some x)
    (ho : slotObject env t path n v p = .ok o) : Shows env t x o := by
  induction t using LogicalType.ind generalizing path v x o with
  | h kind children ih =>
    by_cases hv : v.root.valid p = true
    · have ih' : ∀ i t, children[i]? = some t → ∀ {x o},
          decode t (slotsOf (v.child i)) p = some x →
          slotObject env t (i :: path) n (v.child i) p = .ok o → Shows env t x o :=
        fun i t hi {x o} => ih t (List.mem_of_getElem? hi) (ht.child (List.mem_of_getElem? hi))
          (hplain.child hi)
      cases kind with
      | struct names => exact structSlot_shows hv ih' hx ho
      | union names => exact unionSlot_shows ht (hplain.tags rfl) hv ih' hx ho
      | list | map | array _ => cases hplain.shares
      | scalar _ _ | decimal _ _ _ | enum _ _ =>
        obtain rfl : children = [] := by
          first
            | exact ht.shape
            | exact ht.shape.1
        exact .of_leaf ((slotObject_leaf ht rfl TypeKind.noConfusion hx).symm.trans ho)
      | unlisted type =>
        obtain rfl : children = [] := ht.shape
        by_cases hvariant : type = .variant
        · subst hvariant
          exact variantSlot_shows hv hx ho
        · have hne : TypeKind.unlisted type ≠ .unlisted .variant :=
            fun h => hvariant (TypeKind.unlisted.inj h)
          exact .of_leaf ((slotObject_leaf ht rfl hne hx).symm.trans ho)
    · have hnull : v.root.valid p = false := by simpa using hv
      have hvalid : (slotsOf v).root.valid p = false := hnull
      rw [slotObject, decodeSlot, if_neg hv] at ho
      unfold decode at hx
      rw [if_pos hvalid] at hx
      cases ho
      cases hx
      exact .null

end DuckDBJava
