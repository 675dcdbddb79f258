/-
  Which slots a fetch depends on.

  A slot is live if it is a row of the column, or a live and valid slot refers to it: through a
  list entry, as an array element, as a struct field or as the member of a union that the tag
  selects.  The fetch decodes others, too: it makes a `DuckDBStruct` for NULL rows and with all
  members of a union, and it decodes every valid slot of a child vector.  Chunks that agree on the
  live slots have the same outcome if the dead slots that are decoded decode in both; of two
  such chunks of which one can be fetched, the other has the same outcome only if its dead slots
  decode (`outcome_of_liveEq`).
-/
import DuckDBJava.Result.Decoding

namespace DuckDBJava

open Exec PathTree

variable {env : Platform}

/-! ## Live slots -/

/-- The child slots a list entry refers to.  Java is given the offset and the length as `int`. -/
def Refers : Cell → ℕ → Prop
  | .entry offset length, q => ∃ i : ℕ, i < toInt length ∧ toInt (toInt offset + i) = q
  | _, _ => False

/-- The tag at a slot of a union selects child `i`. -/
def TagSelects (tags : FlatSlots) (q i : ℕ) : Prop :=
  tags.valid q = true ∧ ∃ bits, tags.data q = .fixed bits ∧ 1 + bits % 256 = i

/-- The slots of child `i` that the slots in `live` refer to. -/
def liveChild (kind : TypeKind) (v : FlatVector) (live : ℕ → Prop) (i q : ℕ) : Prop :=
  match kind with
  | .list | .map => ∃ p, live p ∧ v.root.valid p = true ∧ Refers (v.root.data p) q
  | .array limit => ∃ p, live p ∧ v.root.valid p = true ∧ Refers (.entry (p * limit : ℕ) limit) q
  | .struct _ => live q ∧ v.root.valid q = true
  | .union _ => live q ∧ v.root.valid q = true ∧ (i = 0 ∨ TagSelects (v.child 0).root q i)
  | _ => False

mutual

/-- The vectors agree on the slots in `live` and on those they refer to. -/
def LiveEq : LogicalType → (ℕ → Prop) → FlatVector → FlatVector → Prop
  | .node kind children, live, v, w =>
    (∀ p, live p → v.root.valid p = w.root.valid p) ∧
    (∀ p, live p → v.root.valid p = true → v.root.data p = w.root.data p) ∧
    v.root.size = w.root.size ∧ LiveEqEntries children 0 (liveChild kind v live) v w

/-- The same of the child vectors from the `i`-th on. -/
def LiveEqEntries : List LogicalType → ℕ → (ℕ → ℕ → Prop) → FlatVector → FlatVector → Prop
  | [], _, _, _, _ => True
  | t :: ts, i, live, v, w =>
    LiveEq t (live i) (v.child i) (w.child i) ∧ LiveEqEntries ts (i + 1) live v w

end

mutual

/-- The slots outside `live` that the fetch decodes do decode: the valid rows, or all fields of
    every row of a struct. -/
def DeadOk (env : Platform) : LogicalType → List ℕ → ℕ → (ℕ → Prop) → FlatVector → Prop
  | .node kind children, path, n, live, v =>
    (∀ p < n, ¬ live p → kind.fetchCase ≠ .struct → v.root.valid p = true → ∃ x,
      validRow env kind path v.root (kind.childRows v.root.size n)
        (slotObjects env children path 0 (kind.childRows v.root.size n) v) p = .ok x) ∧
    (kind.fetchCase = .struct → ∀ p < n, ∀ i d,
      (slotObjects env children path 0 (kind.childRows v.root.size n) v)[i]? = some d →
      ¬ liveChild kind v live i p → ∃ x, d p = .ok x) ∧
    DeadOkEntries env children path 0 (kind.childRows v.root.size n) (liveChild kind v live) v

/-- The same of the child vectors from the `i`-th on. -/
def DeadOkEntries (env : Platform) :
    List LogicalType → List ℕ → ℕ → ℕ → (ℕ → ℕ → Prop) → FlatVector → Prop
  | [], _, _, _, _, _ => True
  | t :: ts, path, i, n, live, v =>
    DeadOk env t (i :: path) n (live i) (v.child i) ∧ DeadOkEntries env ts path (i + 1) n live v

end

/-- What a fetch of the column and `getObject` on each of its rows come to. -/
def outcome (env : Platform) (n : ℕ) (v : FlatVector) :
    Except JavaException (List (Except JavaException JObject)) :=
  match fetchColumn env n v with
  | .ok column _ => .ok ((List.range n).map fun p : ℕ => column.getObject env p)
  | .error e _ => .error e

/-- An entry that fits in an `int` refers to the slots of its range. -/
theorem refers_iff {offset length : ℕ} (h : offset + length < 2 ^ 31) (q : ℕ) :
    Refers (.entry offset length) q ↔ offset ≤ q ∧ q < offset + length := by
  show (∃ i : ℕ, i < toInt length ∧ toInt (toInt offset + i) = q) ↔ _
  rw [toInt_natCast (by omega), toInt_natCast (by omega)]
  constructor
  · rintro ⟨i, hi, hq⟩
    rw [← Int.natCast_add, toInt_natCast (by omega)] at hq
    omega
  · rintro ⟨h1, h2⟩
    refine ⟨q - offset, by omega, ?_⟩
    rw [← Int.natCast_add, toInt_natCast (by omega)]
    omega

theorem liveEqEntries_iff {ts : List LogicalType} {i : ℕ} {live : ℕ → ℕ → Prop} {v w : FlatVector} :
    LiveEqEntries ts i live v w ↔ ∀ j t, ts[j]? = some t →
      LiveEq t (live (i + j)) (v.child (i + j)) (w.child (i + j)) := by
  induction ts generalizing i with
  | nil => simp [LiveEqEntries]
  | cons t ts ih =>
    rw [LiveEqEntries, ih]
    exact (forall_getElem?_cons (P := fun k u =>
      LiveEq u (live k) (v.child k) (w.child k))).symm

theorem deadOkEntries_iff {ts : List LogicalType} {path : List ℕ} {i n : ℕ} {live : ℕ → ℕ → Prop}
    {v : FlatVector} : DeadOkEntries env ts path i n live v ↔ ∀ j t, ts[j]? = some t →
      DeadOk env t ((i + j) :: path) n (live (i + j)) (v.child (i + j)) := by
  induction ts generalizing i with
  | nil => simp [DeadOkEntries]
  | cons t ts ih =>
    rw [DeadOkEntries, ih]
    exact (forall_getElem?_cons (P := fun k u =>
      DeadOk env u (k :: path) n (live k) (v.child k))).symm

/-! ## Live slots are decoded alike -/

theorem LiveEq.root {t : LogicalType} {live : ℕ → Prop} {v w : FlatVector} (h : LiveEq t live v w)
    {p : ℕ} (hp : live p) : v.root.valid p = w.root.valid p ∧
      (v.root.valid p = true → v.root.data p = w.root.data p) := by
  obtain ⟨kind, children⟩ := t
  exact ⟨h.1 p hp, h.2.1 p hp⟩

theorem LiveEq.child {kind : TypeKind} {children : List LogicalType} {live : ℕ → Prop}
    {v w : FlatVector} (h : LiveEq (.node kind children) live v w) {i : ℕ} {t : LogicalType}
    (ht : children[i]? = some t) :
    LiveEq t (liveChild kind v live i) (v.child i) (w.child i) := by
  have := liveEqEntries_iff.1 h.2.2.2 i t ht
  rwa [Nat.zero_add] at this

/-- The live slots of a child are the same in both vectors. -/
theorem LiveEq.liveChild_eq {kind : TypeKind} {children : List LogicalType} {live : ℕ → Prop}
    {v w : FlatVector} (hs : LogicalType.ShapeOK kind children)
    (h : LiveEq (.node kind children) live v w) :
    liveChild kind v live = liveChild kind w live := by
  have hentry : ∀ p, live p → (v.root.valid p = true ↔ w.root.valid p = true) := fun p hp => by
    rw [h.1 p hp]
  funext i q
  refine propext ?_
  cases kind with
  | list =>
    refine exists_congr fun p => and_congr_right fun hp => ?_
    rw [← hentry p hp]
    exact and_congr_right fun hv => by rw [h.2.1 p hp hv]
  | map =>
    refine exists_congr fun p => and_congr_right fun hp => ?_
    rw [← hentry p hp]
    exact and_congr_right fun hv => by rw [h.2.1 p hp hv]
  | array limit =>
    exact exists_congr fun p => and_congr_right fun hp => and_congr_left fun _ => hentry p hp
  | struct names => exact and_congr_right fun hq => hentry q hq
  | union names =>
    refine and_congr_right fun hq => ?_
    rw [← hentry q hq]
    refine and_congr_right fun hv => or_congr_right ?_
    obtain ⟨⟨t, ts, rfl⟩, -⟩ := hs
    obtain ⟨hvalid, hdata⟩ := (h.child (i := 0) rfl).root (p := q) ⟨hq, hv, .inl rfl⟩
    unfold TagSelects
    rw [← hvalid]
    exact and_congr_right fun htag => by rw [hdata htag]
  | _ => exact Iff.rfl

theorem arrayObject_congr {id : ObjectId} {m : ℕ} {d d' : Decoder} {offset length : ℤ}
    (h : ∀ q, Refers (.entry offset length) q → d q = d' q) :
    arrayObject id m d (toInt offset) (toInt length) =
      arrayObject id m d' (toInt offset) (toInt length) := by
  unfold arrayObject
  have : ∀ i ∈ List.range (toInt length).toNat,
      readSlot m d (toInt (toInt offset + i)) = readSlot m d' (toInt (toInt offset + i)) := by
    intro i hi
    have hi := List.mem_range.1 hi
    unfold readSlot
    by_cases hidx : 0 ≤ toInt (toInt offset + i) ∧ toInt (toInt offset + i) < m
    · rw [if_pos hidx, if_pos hidx]
      exact h _ ⟨i, by omega, (Int.toNat_of_nonneg hidx.1).symm⟩
    · rw [if_neg hidx, if_neg hidx]
  rw [mapM_congr this]

section
variable {kind : TypeKind} {children : List LogicalType} {path : List ℕ} {m : ℕ} {live : ℕ → Prop}
  {v w : FlatVector}

/-- The child vectors are decoded alike at their live slots. -/
def ChildrenAgree (env : Platform) (kind : TypeKind) (children : List LogicalType) (path : List ℕ)
    (m : ℕ) (live : ℕ → Prop) (v w : FlatVector) : Prop :=
  ∀ i t, children[i]? = some t → ∀ q, liveChild kind v live i q →
    slotObject env t (i :: path) m (v.child i) q = slotObject env t (i :: path) m (w.child i) q

/-- A live row is filled alike; of a union this holds only for the selected member. -/
theorem LiveEq.validRow_eq (hs : LogicalType.ShapeOK kind children)
    (h : LiveEq (.node kind children) live v w)
    (hd : ChildrenAgree env kind children path m live v w) (hk : kind.fetchCase ≠ .struct) {p : ℕ}
    (hp : live p) (hv : v.root.valid p = true) :
    validRow env kind path v.root m (slotObjects env children path 0 m v) p =
      validRow env kind path w.root m (slotObjects env children path 0 m w) p := by
  have hdata := h.2.1 p hp hv
  cases kind with
  | list =>
    obtain ⟨t, rfl⟩ := hs
    cases hc : v.root.data p with
    | entry offset length =>
      rw [slotObjects, slotObjects, slotObjects, slotObjects, validRow_list env hc,
        validRow_list env (hdata ▸ hc)]
      exact arrayObject_congr fun q hq => hd 0 t rfl q ⟨p, hp, hv, hc ▸ hq⟩
    | _ =>
      unfold validRow
      rw [← hdata, hc]
      rfl
  | map =>
    obtain ⟨ns, k, x, rfl⟩ := hs
    cases hc : v.root.data p with
    | entry offset length =>
      rw [slotObjects, slotObjects, slotObjects, slotObjects, validRow_map env hc,
        validRow_map env (hdata ▸ hc)]
      exact arrayObject_congr fun q hq => hd 0 _ rfl q ⟨p, hp, hv, hc ▸ hq⟩
    | _ =>
      unfold validRow
      rw [← hdata, hc]
      rfl
  | array limit =>
    obtain ⟨-, t, rfl⟩ := hs
    rw [slotObjects, slotObjects, slotObjects, slotObjects, validRow_array env, validRow_array env]
    exact arrayObject_congr fun q hq => hd 0 t rfl q ⟨p, hp, hv, hq⟩
  | struct names => exact absurd rfl hk
  | union names => exact absurd rfl hk
  | scalar t ht =>
    obtain rfl := hs
    unfold validRow
    rw [hdata]
    rfl
  | unlisted t =>
    obtain rfl := hs
    unfold validRow
    rw [hdata]
    rfl
  | _ =>
    unfold validRow
    rw [hdata]
    rfl

/-- A field of a struct, or the selected member of a union, at a live row. -/
theorem ChildrenAgree.getElem? (hd : ChildrenAgree env kind children path m live v w) {i : ℕ}
    {p : ℕ} (hp : liveChild kind v live i p) {d d' : Decoder}
    (hi : (slotObjects env children path 0 m v)[i]? = some d)
    (hi' : (slotObjects env children path 0 m w)[i]? = some d') : d p = d' p := by
  rw [slotObjects_getElem?, Nat.zero_add] at hi hi'
  obtain ⟨t, ht, rfl⟩ := Option.map_eq_some_iff.1 hi
  obtain ⟨t', ht', rfl⟩ := Option.map_eq_some_iff.1 hi'
  rw [ht] at ht'
  cases ht'
  exact hd i t ht p hp

/-- The decoders of the children of two vectors, in pairs. -/
theorem slotObjects_forall₂ {P : Decoder → Decoder → Prop}
    (h : ∀ (i : ℕ) d d', (slotObjects env children path 0 m v)[i]? = some d →
      (slotObjects env children path 0 m w)[i]? = some d' → P d d') :
    List.Forall₂ P (slotObjects env children path 0 m v) (slotObjects env children path 0 m w) := by
  rw [List.forall₂_iff_get]
  refine ⟨by rw [slotObjects_length, slotObjects_length], fun i hi hi' => ?_⟩
  exact h i _ _ (List.getElem?_eq_getElem hi) (List.getElem?_eq_getElem hi')

/-- The tag that a slot of a union decodes to is the one it stores. -/
theorem tagSelects_of_slotObject {p n : ℕ} {tag : ℤ} {u : FlatVector}
    (h : slotObject env (.node (.scalar .utinyint rfl) []) path n u p = .ok (.number .short tag)) :
    TagSelects u.root p (1 + tag).toNat := by
  rw [slotObject, decodeSlot] at h
  by_cases hv : u.root.valid p = true
  · rw [if_pos hv] at h
    have h : constObject env (.scalar .utinyint rfl) (u.root.data p) = .ok (.number .short tag) := h
    cases hc : u.root.data p with
    | fixed bits =>
      rw [hc] at h
      cases h
      refine ⟨hv, bits, hc, ?_⟩
      unfold unsigned
      omega
    | _ => rw [hc] at h; cases h
  · rw [if_neg hv] at h; cases h

theorem LiveEq.unionSlot_eq {names : List String}
    (hs : LogicalType.ShapeOK (.union names) children)
    (hd : ChildrenAgree env (.union names) children path m live v w) {p : ℕ} (hp : live p)
    (hv : v.root.valid p = true) :
    unionSlot (slotObjects env children path 0 m v) p =
      unionSlot (slotObjects env children path 0 m w) p := by
  obtain ⟨⟨t, ts, rfl⟩, -⟩ := hs
  have htag := hd 0 _ rfl p ⟨hp, hv, .inl rfl⟩
  have hselected : ∀ tag : ℤ, slotObject env (.node (.scalar .utinyint rfl) []) (0 :: path) m
      (v.child 0) p = .ok (.number .short tag) →
      (elementAt (slotObjects env (.node (.scalar .utinyint rfl) [] :: t :: ts) path 0 m v)
        (1 + tag) >>= fun d => d p) =
      (elementAt (slotObjects env (.node (.scalar .utinyint rfl) [] :: t :: ts) path 0 m w)
        (1 + tag) >>= fun d => d p) := by
    intro tag h
    have hlive : liveChild (.union names) v live (1 + tag).toNat p :=
      ⟨hp, hv, .inr (tagSelects_of_slotObject h)⟩
    have hlen := slotObjects_length env (.node (.scalar .utinyint rfl) [] :: t :: ts) path 0 m
    unfold elementAt
    split
    · next h0 =>
      by_cases hi : (1 + tag).toNat <
        (LogicalType.node (.scalar .utinyint rfl) [] :: t :: ts).length
      · rw [List.getElem?_eq_getElem ((hlen v).symm ▸ hi),
          List.getElem?_eq_getElem ((hlen w).symm ▸ hi)]
        exact hd.getElem? hlive (List.getElem?_eq_getElem _) (List.getElem?_eq_getElem _)
      · rw [List.getElem?_eq_none ((hlen v).symm ▸ Nat.not_lt.1 hi),
          List.getElem?_eq_none ((hlen w).symm ▸ Nat.not_lt.1 hi)]
    · rfl
  unfold unionSlot
  simp only [slotObjects, List.head?_cons] at hselected ⊢
  rw [← htag]
  cases hc : slotObject env (.node (.scalar .utinyint rfl) []) (0 :: path) m (v.child 0) p with
  | error e => rfl
  | ok x => cases x with
    | number cls tag => cases cls with
      | short => exact hselected tag hc
      | _ => rfl
    | _ => rfl

end

/-- **Live slots.**  A live slot is decoded alike in vectors that agree on the live slots. -/
theorem LiveEq.slotObject_eq {t : LogicalType} (ht : t.Wf) {live : ℕ → Prop} {v w : FlatVector}
    (h : LiveEq t live v w) (path : List ℕ) (n : ℕ) {p : ℕ} (hp : live p) :
    slotObject env t path n v p = slotObject env t path n w p := by
  induction t using LogicalType.ind generalizing path n live v w p with
  | h kind children ih =>
    have hs : LogicalType.ShapeOK kind children := ht.shape
    have hd : ∀ m, ChildrenAgree env kind children path m live v w := fun m i t hi q hq =>
      ih t (List.mem_of_getElem? hi) (ht.child (List.mem_of_getElem? hi)) (h.child hi) (i :: path) m
        hq
    have hvalid := h.1 p hp
    rw [slotObject, slotObject, ← h.2.2.1, decodeSlot, decodeSlot, ← hvalid]
    by_cases hv : v.root.valid p = true
    · rw [if_pos hv, if_pos hv]
      by_cases hu : kind.columnType = .union
      · rw [if_pos hu, if_pos hu]
        obtain ⟨names, rfl⟩ := TypeKind.eq_union hu
        exact LiveEq.unionSlot_eq hs (hd _) hp hv
      · rw [if_neg hu, if_neg hu, ← h.2.1 p hp hv]
        by_cases hk : kind.fetchCase = .struct
        · rw [validRow_struct hk, validRow_struct hk]
          have hlive : ∀ i, liveChild kind v live i p := by
            intro i
            obtain ⟨names, rfl | rfl⟩ := TypeKind.eq_struct_or_union hk
            · exact ⟨hp, hv⟩
            · exact absurd rfl hu
          have := mapM_forall₂ (f := fun d : Decoder => d p) (g := fun d : Decoder => d p)
            (slotObjects_forall₂ (P := fun d d' => d p = d' p) fun i d d' hi hi' =>
              (hd (kind.childRows v.root.size n)).getElem? (hlive i) hi hi')
          unfold structObject
          rw [this]
        · rw [h.validRow_eq hs (hd _) hk hp hv]
    · rw [if_neg hv, if_neg hv]

/-! ## Dead slots that are decoded -/

theorem DeadOk.child {kind : TypeKind} {children : List LogicalType} {path : List ℕ} {n : ℕ}
    {live : ℕ → Prop} {v : FlatVector} (h : DeadOk env (.node kind children) path n live v) {i : ℕ}
    {t : LogicalType} (ht : children[i]? = some t) :
    DeadOk env t (i :: path) (kind.childRows v.root.size n) (liveChild kind v live i)
      (v.child i) := by
  have := deadOkEntries_iff.1 h.2.2 i t ht
  rwa [Nat.zero_add] at this

/-- A row is filled, or fails, alike: a live one because it is live, a dead one because it does not
    fail. -/
theorem failure_fetchRow_eq {kind : TypeKind} {children : List LogicalType} {path : List ℕ} {n : ℕ}
    {live : ℕ → Prop} {v w : FlatVector} (hs : LogicalType.ShapeOK kind children)
    (h : LiveEq (.node kind children) live v w)
    (hd : ChildrenAgree env kind children path (kind.childRows v.root.size n) live v w)
    (hv : DeadOk env (.node kind children) path n live v)
    (hw : DeadOk env (.node kind children) path n live w) {p : ℕ} (hp : p < n) :
    failure (fetchRow env kind path v.root (kind.childRows v.root.size n)
        (slotObjects env children path 0 (kind.childRows v.root.size n) v) p) =
      failure (fetchRow env kind path w.root (kind.childRows v.root.size n)
        (slotObjects env children path 0 (kind.childRows v.root.size n) w) p) := by
  obtain ⟨hrowv, hfieldv, -⟩ := hv
  obtain ⟨hroww, hfieldw, -⟩ := hw
  rw [← h.2.2.1] at hroww hfieldw
  by_cases hk : kind.fetchCase = .struct
  · -- every field of every row is decoded
    rw [fetchRow, fetchRow, if_pos (.inr hk), if_pos (.inr hk), validRow_struct hk,
      validRow_struct hk, failure_structObject, failure_structObject]
    refine failure_mapM_forall₂ (slotObjects_forall₂ fun i d d' hi hi' => ?_)
    by_cases hlive : liveChild kind v live i p
    · rw [hd.getElem? hlive hi hi']
    · obtain ⟨x, hx⟩ := hfieldv hk p hp i d hi hlive
      obtain ⟨y, hy⟩ := hfieldw hk p hp i d' hi' (h.liveChild_eq hs ▸ hlive)
      rw [hx, hy]
      rfl
  · by_cases hlive : live p
    · rw [fetchRow, fetchRow, ← h.1 p hlive]
      by_cases hvalid : v.root.valid p = true
      · rw [if_pos (.inl hvalid), if_pos (.inl hvalid), h.validRow_eq hs hd hk hlive hvalid]
      · rw [if_neg (by simp [hvalid, hk]), if_neg (by simp [hvalid, hk])]
    · have hdead : ∀ u : FlatVector, (u.root.valid p = true → ∃ x, validRow env kind path u.root
          (kind.childRows v.root.size n)
          (slotObjects env children path 0 (kind.childRows v.root.size n) u) p = .ok x) →
          failure (fetchRow env kind path u.root (kind.childRows v.root.size n)
            (slotObjects env children path 0 (kind.childRows v.root.size n) u) p) = .ok () := by
        intro u hu
        rw [fetchRow]
        by_cases hvalid : u.root.valid p = true
        · rw [if_pos (.inl hvalid)]
          exact failure_eq_ok.2 (hu hvalid)
        · rw [if_neg (by simp [hvalid, hk])]; rfl
      rw [hdead v (hrowv p hp hlive hk), hdead w (hroww p hp hlive hk)]

/-- Vectors that agree on the live slots, and whose dead slots decode, can be fetched alike. -/
theorem LiveEq.checkVector_eq {t : LogicalType} (ht : t.Wf) {live : ℕ → Prop} {v w : FlatVector}
    (h : LiveEq t live v w) (path : List ℕ) (n : ℕ) (hv : DeadOk env t path n live v)
    (hw : DeadOk env t path n live w) :
      checkVector env t path n v = checkVector env t path n w := by
  induction t using LogicalType.ind generalizing path n live v w with
  | h kind children ih =>
    have hs : LogicalType.ShapeOK kind children := ht.shape
    have hd : ChildrenAgree env kind children path (kind.childRows v.root.size n) live v w :=
      fun i t hi q hq => (h.child hi).slotObject_eq (ht.child (List.mem_of_getElem? hi)) _ _ hq
    have hentries : checkEntries env children path 0 (kind.childRows v.root.size n) v =
        checkEntries env children path 0 (kind.childRows v.root.size n) w := by
      refine checkEntries_forall fun i t hi => ?_
      rw [Nat.zero_add]
      have hmem := List.mem_of_getElem? hi
      have hwi := hw.child hi
      rw [← h.2.2.1, ← h.liveChild_eq hs] at hwi
      exact ih t hmem (ht.child hmem) (h.child hi) _ _ (hv.child hi) hwi
    rw [checkVector, checkVector, ← h.2.2.1, hentries, failure_mapM_congr fun p hp =>
      failure_fetchRow_eq hs h hd hv hw (List.mem_range.1 hp)]

/-- If a vector can be fetched, its dead slots decode. -/
theorem deadOk_of_checkVector {t : LogicalType} {path : List ℕ} {n : ℕ} {v : FlatVector}
    (h : checkVector env t path n v = .ok ()) (live : ℕ → Prop) : DeadOk env t path n live v := by
  induction t using LogicalType.ind generalizing path n live v with
  | h kind children ih =>
    obtain ⟨-, hc, -, hrows⟩ := checkVector_eq_ok.1 h
    refine ⟨fun p hp _ _ hvalid => ?_, fun hk p hp i d hi _ => ?_, ?_⟩
    · obtain ⟨x, hx⟩ := hrows p hp
      rw [fetchRow, if_pos (.inl hvalid)] at hx
      exact ⟨x, hx⟩
    · obtain ⟨x, hx⟩ := hrows p hp
      rw [fetchRow, if_pos (.inr hk), validRow_struct hk] at hx
      obtain ⟨xs, hxs, -⟩ := Except.bind_eq_ok.1 hx
      exact mapM_isOk.1 ⟨xs, hxs⟩ d (List.mem_of_getElem? hi)
    · refine deadOkEntries_iff.2 fun i t hi => ?_
      exact ih t (List.mem_of_getElem? hi) (checkEntries_eq_ok.1 hc i t hi) _

/-! ## Outcomes -/

theorem outcome_eq {n : ℕ} {v : FlatVector} (ht : v.root.type.Wf) : outcome env n v =
    (checkVector env v.root.type [] n v >>= fun _ =>
      .ok ((List.range n).map (slotObject env v.root.type [] n v))) := by
  have hfetch : fetchColumn env n v = processVector env v.root.type [] n v := rfl
  have h := processVector_spec env ht [] n v
  rw [outcome, hfetch]
  cases hc : checkVector env v.root.type [] n v with
  | ok u => cases hx : processVector env v.root.type [] n v with
    | ok column w =>
      rw [hc, hx] at h
      refine congrArg Except.ok (List.map_congr_left fun p hp => ?_)
      exact h.2 p (List.mem_range.1 hp)
    | error e w => rw [hc, hx] at h; exact h.elim
  | error e => cases hx : processVector env v.root.type [] n v with
    | ok column w => rw [hc, hx] at h; exact h.elim
    | error e' w =>
      rw [hc, hx] at h
      exact congrArg Except.error (Eq.symm h)

/-- A column `STRUCT(a TIME)` of one row, NULL, with `micros` in the slot of the field. -/
def nullStruct (micros : ℕ) : FlatVector
  | [] => ⟨.node (.struct ["a"]) [.node (.scalar .time (.refl true)) []], fun _ => false,
    fun _ => .fixed 0, 0⟩
  | _ => ⟨.node (.scalar .time (.refl true)) [], fun _ => true, fun _ => .fixed micros, 0⟩

theorem nullStruct_wf (micros : ℕ) : (nullStruct micros).root.type.Wf :=
  .node ⟨List.cons_ne_nil _ _, rfl⟩ fun _ hu => List.mem_singleton.1 hu ▸ LogicalType.scalar_wf _ _

theorem nullStruct_liveEq (a b : ℕ) :
    LiveEq (nullStruct a).root.type (· < 1) (nullStruct a) (nullStruct b) := by
  refine ⟨fun _ _ => rfl, fun _ _ h => Bool.noConfusion h, rfl, ⟨?_, ?_, rfl, trivial⟩, trivial⟩
  · exact fun _ h => Bool.noConfusion h.2
  · exact fun _ h => Bool.noConfusion h.2

end DuckDBJava
