/-
  Columns without `ARRAY`, `LIST` and `MAP`: all their vectors have the slots of the chunk.

  `Ready`: the buffers of such a column are over its present memory and hold all slots.  From there
  every method of the appender touches slot `k` only (`SlotOnly`): `setNull_plain`, `write_plain`
  and `putUnionTag_plain` say what it leaves there.
-/
import DuckDBJava.Appender.NullMarks
import DuckDBJava.Appender.Slots
import DuckDBJava.Numbers.DecimalWidth

namespace DuckDBJava

open Exec PathTree

/-- No `ARRAY`, `LIST` or `MAP` at or below; the tag of a `UNION` is a byte. -/
inductive LogicalType.Plain : LogicalType → Prop
  | node {t : LogicalType} : t.kind.sharesSlots = true →
      (∀ names, t.kind = .union names → names.length ≤ 257) →
      (∀ u ∈ t.children, u.Plain) → t.Plain

theorem LogicalType.Plain.shares {t : LogicalType} (h : t.Plain) : t.kind.sharesSlots = true := by
  cases h with
  | node hs _ _ => exact hs

theorem LogicalType.Plain.tags {t : LogicalType} (h : t.Plain) {names : List String}
    (hk : t.kind = .union names) : names.length ≤ 257 := by
  cases h with
  | node _ ht _ => exact ht names hk

theorem LogicalType.Plain.child {t u : LogicalType} (h : t.Plain) {i : ℕ}
    (hu : t.children[i]? = some u) : u.Plain := by
  cases h with
  | node _ _ hc => exact hc u (List.mem_of_getElem? hu)

theorem TypeKind.childArraySize_of_sharesSlots {k : TypeKind} (h : k.sharesSlots = true) :
    k.childArraySize = 1 := by
  cases k with
  | array n => cases h
  | _ => rfl

theorem TypeKind.isListOrMap_of_sharesSlots {k : TypeKind} (h : k.sharesSlots = true) :
    k.isListOrMap = false := by
  cases k with
  | list | map => cases h
  | _ => rfl

/-! ## One slot -/

/-- Slot `k` of the vectors is the same. -/
def SameAt (k : ℕ) (v v' : Vec) : Prop :=
  ∀ p, (v' p).valid k = (v p).valid k ∧ (v' p).data k = (v p).data k

/-- The buffers are over the same memory. -/
def SameMemory (v v' : Vec) : Prop := ∀ p,
  (v' p).alloc = (v p).alloc ∧ (v' p).buf.alloc = (v p).buf.alloc ∧ (v' p).buf.cap = (v p).buf.cap

/-- Slot `k` of the vectors is all that differs. -/
structure SlotOnly (k : ℕ) (v v' : Vec) : Prop where
  memory : SameMemory v v'
  slots : ∀ j, j ≠ k → SameAt j v v'

/-- No slot `k` of the vectors is marked NULL. -/
def FreshAt (k : ℕ) (v : Vec) : Prop := ∀ p, (v p).valid k = true

section
variable {k : ℕ} {v v' v'' c : Vec}

theorem SameAt.refl (k : ℕ) (v : Vec) : SameAt k v v := fun _ => ⟨rfl, rfl⟩

theorem SameAt.trans (h : SameAt k v v') (h' : SameAt k v' v'') : SameAt k v v'' := fun p =>
  ⟨(h' p).1.trans (h p).1, (h' p).2.trans (h p).2⟩

theorem SameAt.child (h : SameAt k v v') (i : ℕ) : SameAt k (v.child i) (v'.child i) :=
  fun p => h (i :: p)

theorem SameAt.fresh (h : SameAt k v v') (hf : FreshAt k v) : FreshAt k v' := fun p =>
  (h p).1.trans (hf p)

theorem FreshAt.child (h : FreshAt k v) (i : ℕ) : FreshAt k (v.child i) := fun p => h (i :: p)

theorem SlotOnly.refl (k : ℕ) (v : Vec) : SlotOnly k v v :=
  ⟨fun _ => ⟨rfl, rfl, rfl⟩, fun _ _ => .refl _ _⟩

theorem SlotOnly.trans (h : SlotOnly k v v') (h' : SlotOnly k v' v'') : SlotOnly k v v'' := by
  refine ⟨fun p => ?_, fun j hj => (h.slots j hj).trans (h'.slots j hj)⟩
  obtain ⟨h1, h2, h3⟩ := h.memory p
  obtain ⟨h1', h2', h3'⟩ := h'.memory p
  exact ⟨h1'.trans h1, h2'.trans h2, h3'.trans h3⟩

theorem SlotOnly.child (h : SlotOnly k v v') (i : ℕ) : SlotOnly k (v.child i) (v'.child i) :=
  ⟨fun p => h.memory (i :: p), fun j hj => (h.slots j hj).child i⟩

/-- A change of the `i`-th child. -/
theorem SlotOnly.setChild {i : ℕ} (h : SlotOnly k (v.child i) c) :
    SlotOnly k v (v.setChild i c) := by
  refine ⟨?_, fun j hj => ?_⟩
  · rintro (_ | ⟨n, p⟩)
    · exact ⟨rfl, rfl, rfl⟩
    · rw [setChild_cons]
      by_cases hn : n = i
      · subst hn
        rw [if_pos rfl]
        exact h.memory p
      · rw [if_neg hn]
        exact ⟨rfl, rfl, rfl⟩
  · rintro (_ | ⟨n, p⟩)
    · exact ⟨rfl, rfl⟩
    · rw [setChild_cons]
      by_cases hn : n = i
      · subst hn
        rw [if_pos rfl]
        exact h.slots j hj p
      · rw [if_neg hn]
        exact ⟨rfl, rfl⟩

/-- A change of the vector itself. -/
theorem SlotOnly.setRoot {c : ColState}
    (hm : c.alloc = v.root.alloc ∧ c.buf.alloc = v.root.buf.alloc ∧ c.buf.cap = v.root.buf.cap)
    (hs : ∀ j, j ≠ k → c.valid j = v.root.valid j ∧ c.data j = v.root.data j) :
    SlotOnly k v (v.setRoot c) := by
  refine ⟨?_, fun j hj => ?_⟩
  · rintro (_ | ⟨n, p⟩)
    · exact hm
    · exact ⟨rfl, rfl, rfl⟩
  · rintro (_ | ⟨n, p⟩)
    · exact hs j hj
    · exact ⟨rfl, rfl⟩

end

mutual

/-- A plain value depends on its slot only. -/
theorem decode_sameAt : ∀ {t : LogicalType}, t.Plain → ∀ {v v' : Vec} {k : ℕ}, SameAt k v v' →
    decode t v' k = decode t v k
  | .node kind cs, ht, v, v', k, h => by
    have hvalid : v'.root.valid k = v.root.valid k := (h []).1
    have hdata : v'.root.data k = v.root.data k := (h []).2
    have hcs : ∀ u ∈ cs, u.Plain := by
      cases ht with
      | node _ _ hc => exact hc
    have hchild := fun i => decodeChild_sameAt cs hcs i (h.child i)
    cases kind with
    | list | map | array n => cases ht.shares
    | struct ns => simp only [decode, hvalid, decodeFields_sameAt cs hcs 0 h]
    | union ns =>
      have htag := decodeChild_sameAt cs hcs 0 (h.child 0)
      simp only [decode, hvalid, htag]
      cases decodeChild cs 0 (v.child 0) k with
      | none => rfl
      | some x =>
        cases x with
        | fixed tag => simp only [hchild (tag + 1)]
        | _ => rfl
    | _ => simp only [decode, hvalid, hdata]

theorem decodeChild_sameAt : ∀ (ts : List LogicalType), (∀ u ∈ ts, u.Plain) → ∀ (i : ℕ)
    {v v' : Vec} {k : ℕ}, SameAt k v v' → decodeChild ts i v' k = decodeChild ts i v k
  | [], _, _, _, _, _, _ => rfl
  | _ :: _, ht, 0, _, _, _, h => decode_sameAt (ht _ List.mem_cons_self) h
  | _ :: ts, ht, i + 1, _, _, _, h =>
    decodeChild_sameAt ts (fun u hu => ht u (List.mem_cons_of_mem _ hu)) i h

theorem decodeFields_sameAt : ∀ (ts : List LogicalType), (∀ u ∈ ts, u.Plain) → ∀ (i : ℕ)
    {v v' : Vec} {k : ℕ}, SameAt k v v' → decodeFields ts i v' k = decodeFields ts i v k
  | [], _, _, _, _, _, _ => rfl
  | t :: ts, ht, i, v, v', k, h => by
    rw [decodeFields, decodeFields, decode_sameAt (ht t List.mem_cons_self) (h.child i),
      decodeFields_sameAt ts (fun u hu => ht u (List.mem_cons_of_mem _ hu)) (i + 1) h]

end

/-! ## Buffers -/

/-- The buffers of a column are over its memory and hold the slots of the chunk. -/
inductive Ready (eng : Engine) : LogicalType → Vec → Prop
  | node {t : LogicalType} {v : Vec} : v.root.buf.alloc = v.root.alloc →
      v.root.buf.cap = eng.vectorSize → Fetchable eng t.kind eng.vectorSize →
      (∀ i u, t.children[i]? = some u → Ready eng u (v.child i)) → Ready eng t v

section
variable {eng : Engine} {t : LogicalType} {v v' : Vec}

theorem Ready.child (h : Ready eng t v) {i : ℕ} {u : LogicalType}
    (hu : t.children[i]? = some u) : Ready eng u (v.child i) := by
  cases h with
  | node _ _ _ hc => exact hc i u hu

theorem Ready.sameMemory (h : Ready eng t v) : ∀ {v' : Vec}, SameMemory v v' → Ready eng t v' := by
  induction h with
  | node halloc hcap hf _ ih =>
    intro v' hm
    obtain ⟨h1, h2, h3⟩ := hm []
    exact .node (h2.trans (halloc.trans h1.symm)) (h3.trans hcap) hf fun i u hu =>
      ih i u hu fun p => hm (i :: p)

theorem Ready.live (h : Ready eng t v) : v.root.Live := by
  cases h with
  | node halloc hcap hf _ => exact ⟨halloc, hcap ▸ hf.lt⟩

theorem Ready.cap (h : Ready eng t v) : v.root.buf.cap = eng.vectorSize := by
  cases h with
  | node _ hcap _ _ => exact hcap

theorem Ready.holds (h : Ready eng t v) {k : ℕ} (hk : k < eng.vectorSize) :
    v.root.Holds t.kind.widthBytes k := by
  cases h with
  | node halloc hcap hf _ => exact ⟨halloc, hcap ▸ hk, hcap ▸ hf.data_lt⟩

/-- The buffers of a plain column that has been reset. -/
theorem ready_of_reset (hp : t.Plain) (hc : Capped eng eng.vectorSize 1 1 t v')
    (hf : Fetched t v v') : Ready eng t v' := by
  induction hf with
  | @node t v v' _ halloc _ _ ih =>
    cases hc with
    | node hcap hfetch hcs =>
      have hcap' : v'.root.buf.cap = eng.vectorSize := by
        rw [hcap, maxElementsCount, Nat.mul_one, Nat.mul_one]
      refine .node halloc hcap' (hcap' ▸ hfetch) fun i u hu => ?_
      have hcu := hcs i u hu
      rw [TypeKind.isListOrMap_of_sharesSlots hp.shares,
        TypeKind.childArraySize_of_sharesSlots hp.shares] at hcu
      exact ih i u hu (hp.child hu) hcu

theorem Column.arraySize_child {p : Column} {i : ℕ} {t : LogicalType} (hp : p.type.Plain) :
    (Column.child p i t).arraySize = 1 := TypeKind.childArraySize_of_sharesSlots hp.shares

end

/-! ## `setNull` -/

/-- `setNull` marks the slot below a plain column. -/
theorem marks_plain {k j : ℕ} (hk : k < 2 ^ 34) : ∀ {p : List ℕ} {t : LogicalType}, t.Plain →
    Marks 1 1 t k p j → j = k ∧ (p = [] ∨ ∃ i u q, p = i :: q ∧ t.children[i]? = some u ∧
      Marks 1 1 u k q j)
  | [], t, ht, h => by
    have hs := ht.shares
    rw [Marks] at h
    generalize t.kind = kind at hs h
    have hslot : slotOf k = k := slotOf_of_lt (by omega)
    cases kind with
    | array n => cases hs
    | _ => exact ⟨h.trans hslot, .inl rfl⟩
  | i :: p, t, ht, h => by
    obtain ⟨u, hu, hm⟩ := h
    have hs := ht.shares
    have hm : Marks 1 1 u k p j := by
      generalize t.kind = kind at hs hm
      cases kind with
      | array n | list | map => cases hs
      | _ => exact hm
    exact ⟨(marks_plain hk (ht.child hu) hm).1, .inr ⟨i, u, p, rfl, hu, hm⟩⟩

/-- The vectors that `setNull` marks are those of the column. -/
theorem Ready.marked {eng : Engine} {k j : ℕ} (hk : k < 2 ^ 34) : ∀ {p : List ℕ}
    {t : LogicalType} {v : Vec}, t.Plain → Ready eng t v → Marks 1 1 t k p j →
      (v p).Live ∧ (v p).buf.cap = eng.vectorSize ∧ j = k
  | [], t, v, ht, h, hm => ⟨h.live, h.cap, (marks_plain hk ht hm).1⟩
  | i :: p, t, v, ht, h, hm => by
    obtain ⟨hj, hnil | ⟨i', u, q, hpq, hu, hm'⟩⟩ := marks_plain hk ht hm
    · cases hnil
    · cases hpq
      obtain ⟨h1, h2, -⟩ := Ready.marked hk (v := v.child i) (ht.child hu) (h.child hu) hm'
      exact ⟨h1, h2, hj⟩

theorem decode_null {t : LogicalType} {v : Vec} {k : ℕ} (h : v.root.valid k = false) :
    decode t v k = some .null := by
  cases t with
  | node kind cs => cases kind <;> simp only [decode, h, ↓reduceIte]

/-- **`setNull`** of a plain column. -/
theorem setNullAt_plain {eng : Engine} {t : LogicalType} {v : Vec} {k : ℕ} (ht : t.Plain)
    (h : Ready eng t v) (hk : k < eng.vectorSize) :
    ∃ v', setNullAt 1 1 t k v = .ok () v' ∧ SlotOnly k v v' ∧ decode t v' k = some .null := by
  have hsize : k < 2 ^ 34 := by
    have := h.live.cap
    rw [h.cap] at this
    omega
  have hlive : LiveOn (Marks 1 1 t k) v := fun p j hm => (h.marked hsize ht hm).1
  rcases setNullAt_clears t 1 1 k v hlive with ⟨_, v', hx, hm⟩ | ⟨hbits, _⟩
  · refine ⟨v', hx, ⟨fun p => ?_, fun j hj p => ⟨?_, ?_⟩⟩, decode_null ?_⟩
    · rw [hm.alloc, hm.buf]
      exact ⟨rfl, rfl, rfl⟩
    · rw [Bool.eq_iff_iff, hm.valid]
      refine and_iff_left fun hjm => hj ?_
      exact (h.marked hsize ht hjm).2.2
    · obtain ⟨valid, hv, _⟩ := hm p
      rw [hv]
    · have hself : Marks 1 1 t k [] k := by
        have hs := ht.shares
        rw [Marks]
        generalize t.kind = kind at hs
        cases kind with
        | array n => cases hs
        | _ => exact (slotOf_of_lt (by omega)).symm
      have hvalid := (hm.valid [] k).not.2 fun hn => hn.2 hself
      exact Bool.eq_false_of_not_eq_true hvalid
  · refine absurd (fun p j hm => ?_) hbits
    obtain ⟨-, hcap, rfl⟩ := h.marked hsize ht hm
    rw [hcap]
    omega

/-! ## Values -/

/-- A column without children. -/
def TypeKind.isLeaf : TypeKind → Bool
  | .scalar .. | .decimal .. | .enum .. | .unlisted _ => true
  | _ => false

/-- The value that is stored in a column without children. -/
def Stored.value (kind : TypeKind) : Stored → Option Value
  | .null => some .null
  | .fixed (.ok cell) => cell.value
  | .decimal internalType cell =>
    match kind with
    | .decimal t _ _ => if t = internalType then cell.value else none
    | _ => none
  | .bigDecimal unscaled scale =>
    match kind with
    | .decimal t p s => (decimalCell t p s unscaled scale).toOption.bind Cell.value
    | _ => none
  | .text s =>
    match kind with
    | .enum t dict => (enumDictGet dict s).map fun num => .fixed (num % 2 ^ (8 * t.widthBytes))
    | k => if k.colType = .varchar then some (.string (utf8 s)) else none
  | .bytes bs => some (.string bs)
  | _ => none

/-- A value of fixed width. -/
def Cell.IsFixed (c : Cell) : Prop := ∃ bits, c = .fixed bits

/-- What the overloads for a column without children store. -/
def Stored.FitsLeaf (kind : TypeKind) : Stored → Prop
  | .null | .bigDecimal .. | .text _ => True
  | .fixed r => 0 < kind.widthBytes ∧ kind.widthBytes = kind.colType.widthBytes ∧
      ∀ c, r = .ok c → c.IsFixed
  | .decimal _ cell => cell.IsFixed
  | .bytes _ => kind.colType ∈ [CAPIType.varchar, .blob]
  | _ => False

section
variable {c : Cell}

theorem hugeIntCell_isFixed (lower upper : BitVec 64) : (hugeIntCell lower upper).IsFixed :=
  ⟨_, rfl⟩

theorem PrimKind.cell_isFixed : ∀ (k : PrimKind) (v : k.Val), (k.cell v).IsFixed
  | .boolean, _ | .byte, _ | .short, _ | .int, _ | .long, _ | .float, _ | .double, _ => ⟨_, rfl⟩

theorem bigIntegerCell_isFixed {v : ℤ} (h : bigIntegerCell v = .ok c) : c.IsFixed := by
  unfold bigIntegerCell at h
  split at h
  · cases h
  · cases h
    exact hugeIntCell_isFixed _ _

theorem localDateCell_isFixed {d : ℤ} (h : localDateCell d = .ok c) : c.IsFixed := by
  unfold localDateCell at h
  split at h
  · cases h
  · cases h
    exact ⟨_, rfl⟩

/-- A `long`, if it has been computed. -/
theorem moment_isFixed {r : Except Exn (BitVec 64)}
    (h : (do let moment ← r; return .fixed moment.toNat : Except Exn Cell) = .ok c) :
    c.IsFixed := by
  cases r with
  | error e => cases h
  | ok m =>
    cases h
    exact ⟨_, rfl⟩

theorem localDateTimeCell_isFixed {t : CAPIType} {s : ℤ} {n : ℕ}
    (h : localDateTimeCell t s n = .ok c) : c.IsFixed := by
  unfold localDateTimeCell at h
  split at h
  · exact moment_isFixed h
  · cases h

theorem dateCell_isFixed {t : CAPIType} {v : UtilDate} (h : dateCell t v = .ok c) :
    c.IsFixed := by
  unfold dateCell at h
  split at h
  · exact moment_isFixed h
  · exact moment_isFixed h
  · exact moment_isFixed h
  · exact moment_isFixed h
  · cases h

theorem Stored.orNull_fitsLeaf {α : Type} {kind : TypeKind} {f : α → Stored} {x : Option α}
    (h : ∀ a, (f a).FitsLeaf kind) : (Stored.orNull f x).FitsLeaf kind := by
  cases x with
  | none => trivial
  | some a => exact h a

/-- The types of one value of fixed width. -/
def CAPIType.fixedWidth (t : CAPIType) : Bool := t.isScalar && decide (0 < t.widthBytes)

theorem TypeKind.width_of_fixedWidth {kind : TypeKind} (h : kind.colType.fixedWidth = true) :
    0 < kind.widthBytes ∧ kind.widthBytes = kind.colType.widthBytes := by
  rw [CAPIType.fixedWidth, Bool.and_eq_true, decide_eq_true_eq] at h
  cases kind with
  | scalar t ht => exact ⟨h.2, rfl⟩
  | unlisted t => exact ⟨h.2, rfl⟩
  | _ => cases h.1

theorem Stored.fixed_fitsLeaf {kind : TypeKind} {types : List CAPIType} {r : Except Exn Cell}
    (h : kind.colType ∈ types) (hw : types.all CAPIType.fixedWidth = true)
    (hr : ∀ c, r = .ok c → c.IsFixed) : (Stored.fixed r).FitsLeaf kind := by
  obtain ⟨hpos, hkind⟩ := TypeKind.width_of_fixedWidth (List.all_eq_true.1 hw _ h)
  exact ⟨hpos, hkind, hr⟩

theorem ok_isFixed {c c' : Cell} (hc : c.IsFixed) (h : (.ok c : Except Exn Cell) = .ok c') :
    c'.IsFixed := by
  cases h
  exact hc

theorem PrimKind.types_fixedWidth : ∀ k : PrimKind, k.types.all CAPIType.fixedWidth = true
  | boolean | byte | short | int | long | float | double => rfl

/-- The overloads for an `ARRAY`, `LIST` or `MAP` take no other column. -/
theorem TypeKind.not_collection {kind : TypeKind} (hs : kind.sharesSlots = true) :
    kind.colType ∉ [CAPIType.array, .list, .map] := by
  cases kind with
  | array n | list | map => cases hs
  | scalar t ht =>
    intro h
    rw [TypeKind.colType] at h
    rcases List.mem_cons.1 h with rfl | h
    · cases ht
    · rcases List.mem_cons.1 h with rfl | h
      · cases ht
      · obtain rfl := List.mem_singleton.1 h
        cases ht
  | unlisted t => cases t <;> simp [TypeKind.colType, UnlistedType.colType]
  | _ => simp [TypeKind.colType]

/-- An overload that takes a column without an `ARRAY`, `LIST` or `MAP`. -/
theorem Append.stored_fitsLeaf {kind : TypeKind} (hs : kind.sharesSlots = true) (a : Append)
    (h : kind.colType ∈ a.types) :
    a.innerTypes = [] ∧ (a.stored kind.colType).FitsLeaf kind := by
  have hno := TypeKind.not_collection hs
  cases a with
  | prim k v =>
    exact ⟨rfl, Stored.fixed_fitsLeaf h k.types_fixedWidth fun _ => ok_isFixed (k.cell_isFixed v)⟩
  | boxed k v =>
    exact ⟨rfl, Stored.orNull_fitsLeaf fun v =>
      Stored.fixed_fitsLeaf h k.types_fixedWidth fun _ => ok_isFixed (k.cell_isFixed v)⟩
  | char c => exact ⟨rfl, trivial⟩
  | character v | chars v | string v | bigDecimal v =>
    exact ⟨rfl, Stored.orNull_fitsLeaf fun _ => trivial⟩
  | hugeInt l u | uuidBits m l =>
    exact ⟨rfl, Stored.fixed_fitsLeaf h rfl fun _ => ok_isFixed ⟨_, rfl⟩⟩
  | bigInteger v =>
    exact ⟨rfl, Stored.orNull_fitsLeaf fun _ =>
      Stored.fixed_fitsLeaf h rfl fun _ => bigIntegerCell_isFixed⟩
  | decimalShort v | decimalInt v | decimalLong v | decimalLongs l u => exact ⟨rfl, _, rfl⟩
  | bytes v => exact ⟨rfl, Stored.orNull_fitsLeaf fun _ => h⟩
  | uuid v | localTime v | offsetTime v =>
    exact ⟨rfl, Stored.orNull_fitsLeaf fun _ =>
      Stored.fixed_fitsLeaf h rfl fun _ => ok_isFixed ⟨_, rfl⟩⟩
  | epochDays d | dayMicros m | dayMicrosOffset m o | epochSeconds m | epochMillis m
  | epochMicros m | epochNanos m =>
    exact ⟨rfl, Stored.fixed_fitsLeaf h rfl fun _ => ok_isFixed ⟨_, rfl⟩⟩
  | localDate d =>
    exact ⟨rfl, Stored.orNull_fitsLeaf fun _ =>
      Stored.fixed_fitsLeaf h rfl fun _ => localDateCell_isFixed⟩
  | localDateTime v =>
    exact ⟨rfl, Stored.orNull_fitsLeaf fun _ =>
      Stored.fixed_fitsLeaf h rfl fun _ => localDateTimeCell_isFixed⟩
  | date v =>
    exact ⟨rfl, Stored.orNull_fitsLeaf fun _ =>
      Stored.fixed_fitsLeaf h rfl fun _ => dateCell_isFixed⟩
  | offsetDateTime v =>
    exact ⟨rfl, Stored.orNull_fitsLeaf fun _ => Stored.fixed_fitsLeaf h rfl fun _ => moment_isFixed⟩
  | array k v m | array2D k v m | collection v | iterable v n | iterator v n | map v =>
    refine absurd ?_ hno
    simp only [Append.types, collectionTypes, List.mem_cons, List.not_mem_nil, or_false] at h ⊢
    tauto

/-! ## One value -/

/-- The cell in the slot of a column without children. -/
theorem decode_leaf {t : LogicalType} (hl : t.kind.isLeaf = true) {v : Vec} {k : ℕ}
    (h : v.root.valid k = true) : decode t v k = (v.root.data k).bind Cell.value := by
  cases t with
  | node kind cs =>
    cases kind with
    | scalar | decimal | enum | unlisted => simp [decode, h]
    | _ => cases hl

end

section
variable {eng : Engine} {t : LogicalType} {v : Vec} {k : ℕ}

theorem Cell.IsFixed.value {c : Cell} (h : c.IsFixed) : ∃ x, c.value = some x := by
  obtain ⟨bits, rfl⟩ := h
  exact ⟨_, rfl⟩

/-- How a call that supplies slot `k` of a column ends: the value is there, or an exception is
    thrown and the slots are as they were. -/
inductive PutsValue (t : LogicalType) (k : ℕ) (value : Option Value) (v : Vec) :
    EStateM.Result Exn Vec Unit → Prop
  | stored {x v'} : SlotOnly k v v' → value = some x →
      (v.root.valid k = true → decode t v' k = some x) → PutsValue t k value v (.ok () v')
  | thrown {e v'} : SlotOnly k v v' → SameAt k v v' → PutsValue t k value v (.error e v')

/-- An exception before anything is changed. -/
theorem PutsValue.refused {value : Option Value} {e : Exn} : PutsValue t k value v (.error e v) :=
  .thrown (.refl k v) (.refl k v)

theorem putsValue_root (hl : t.kind.isLeaf = true) {c : ColState} {cell : Cell} {x : Value}
    (hm : c.alloc = v.root.alloc ∧ c.buf.alloc = v.root.buf.alloc ∧ c.buf.cap = v.root.buf.cap)
    (hvalid : c.valid = v.root.valid)
    (hdata : c.data = fun j => if j = k then some cell else v.root.data j)
    (hx : cell.value = some x) : PutsValue t k (some x) v (.ok () (v.setRoot c)) := by
  refine .stored (SlotOnly.setRoot hm fun j hj => ?_) rfl fun hv => ?_
  · rw [hvalid, hdata]
    exact ⟨rfl, if_neg hj⟩
  · rw [decode_leaf hl (by rw [root_setRoot, hvalid]; exact hv), root_setRoot, hdata]
    simp [hx]

/-- The puts of one element. -/
theorem putCell_putsValue (hl : t.kind.isLeaf = true) (h : Ready eng t v)
    (hk : k < eng.vectorSize) {w : ℕ} (hw : 0 < w) (hkind : t.kind.widthBytes = w) {cell : Cell}
    {x : Value} (hx : cell.value = some x) : PutsValue t k (some x) v (putCell w k cell v) := by
  have hholds := h.holds hk
  rw [hkind] at hholds
  rw [putCell_holds hw hholds]
  exact putsValue_root hl ⟨rfl, rfl, rfl⟩ rfl rfl hx

attribute [local irreducible] toInt

/-- `putStringOrBlob` in a column of strings. -/
theorem putStringOrBlob_putsValue (hl : t.kind.isLeaf = true) (hstr : t.kind.widthBytes = 16)
    {env : Env} (h : Ready env.eng t v) (hk : k < env.eng.vectorSize) (bytes : List UInt8) :
    PutsValue t k (some (.string bytes)) v (putStringOrBlob env k bytes v) := by
  have hw : CAPIType.varchar.widthBytes = 16 := rfl
  unfold putStringOrBlob
  rw [hw]
  split
  · next hshort =>
    have hholds := h.holds hk
    rw [hstr] at hholds
    have hlen : bytes.length < 12 := hshort.2
    have hle := hholds.slot_le
    have hint : toInt (k * 16 : ℕ) = (k * 16 : ℕ) := toInt_natCast (by have := hholds.int; omega)
    have hset : setPosition 16 (k * 16 : ℕ) v = .ok () (v.setRoot (v.root.setPos (k * 16))) := by
      rw [setPosition, getRoot_bind, require_bind, if_pos (by omega)]
      rfl
    have hfits : (v.root.setPos (k * 16)).buf.pos + (4 + bytes.length) ≤
        (v.root.setPos (k * 16)).buf.cap * 16 := by
      show k * 16 + (4 + bytes.length) ≤ v.root.buf.cap * 16
      omega
    have hput : putHere 16 [.string bytes] (4 + bytes.length) (v.setRoot (v.root.setPos (k * 16))) =
        .ok () (v.setRoot (((v.root.setPos (k * 16)).write k [.string bytes]).setPos
          (k * 16 + (4 + bytes.length)))) := by
      rw [putHere, getRoot_bind, require_bind, root_setRoot, modifyRoot_apply, if_pos hfits]
      simp [ColState.setPos]
    rw [hint, bind_ok hset, hput, ColState.write_singleton (by exact hholds.alloc)]
    exact putsValue_root hl ⟨rfl, rfl, rfl⟩ rfl rfl rfl
  · exact putsValue_root (x := .string bytes) hl ⟨rfl, rfl, rfl⟩ rfl rfl rfl

/-- A conversion and the puts of its result. -/
theorem putConverted_putsValue (hl : t.kind.isLeaf = true) (h : Ready eng t v)
    (hk : k < eng.vectorSize) {w : ℕ} (hw : 0 < w) (hkind : t.kind.widthBytes = w)
    {r : Except Exn Cell} (hr : ∀ c, r = .ok c → c.IsFixed) :
    PutsValue t k (r.toOption.bind Cell.value) v
      ((do putCell w k (← orThrow r) : PutM Unit) v) := by
  cases r with
  | error e =>
    have hthrow : (do putCell w k (← orThrow (.error e)) : PutM Unit) v = .error e v :=
      bind_error rfl
    rw [hthrow]
    exact .refused
  | ok c =>
    have hput : (do putCell w k (← orThrow (.ok c)) : PutM Unit) v = putCell w k c v := bind_ok rfl
    obtain ⟨x, hx⟩ := (hr c rfl).value
    have hvalue : (Except.ok c : Except Exn Cell).toOption.bind Cell.value = some x := hx
    rw [hput, hvalue]
    exact putCell_putsValue hl h hk hw hkind hx

/-- `putEnum` in an ENUM column. -/
theorem putEnum_putsValue {internalType : CAPIType} {dict : List String}
    (hkind : t.kind = .enum internalType dict)
    (hw : internalType ∈ [CAPIType.utinyint, .usmallint, .uinteger]) (h : Ready eng t v)
    (hk : k < eng.vectorSize) (value : String) :
    PutsValue t k ((enumDictGet dict value).map fun num =>
      .fixed (num % 2 ^ (8 * internalType.widthBytes))) v
      (putEnum internalType dict k value v) := by
  have hl : t.kind.isLeaf = true := by rw [hkind]; rfl
  have hwidth : t.kind.widthBytes = internalType.widthBytes := by rw [hkind]; rfl
  rw [putEnum]
  cases enumDictGet dict value with
  | none => exact .refused
  | some num =>
    simp only [List.mem_cons, List.not_mem_nil, or_false] at hw
    rcases hw with rfl | rfl | rfl
    · exact putCell_putsValue (w := 1) hl h hk Nat.one_pos hwidth rfl
    · exact putCell_putsValue (w := 2) hl h hk Nat.two_pos hwidth rfl
    · exact putCell_putsValue (w := 4) hl h hk (Nat.succ_pos 3) hwidth rfl

end

/-- Store a value in a column without children. -/
theorem Stored.put_plain {st : Stored} {env : Env} {col : Column} {v : Vec}
    (hl : col.kind.isLeaf = true) (hplain : col.type.Plain) (hwf : col.type.Wf)
    (h : Ready env.eng col.type v) {k : ℕ} (hk : k < env.eng.vectorSize)
    (ha : col.arraySize = 1) (hpa : col.parentArraySize = 1) (hst : st.FitsLeaf col.kind) :
    PutsValue col.type k (st.value col.kind) v (st.put env col k v) := by
  cases st with
  | null =>
    obtain ⟨v', hx, hs, hd⟩ := setNullAt_plain hplain h hk
    rw [Stored.put, Column.setNull, ha, hpa, hx]
    exact .stored hs rfl fun _ => hd
  | fixed r =>
    obtain ⟨hpos, hw, hfixed⟩ := hst
    have hvalue : (Stored.fixed r).value col.kind = r.toOption.bind Cell.value := by
      cases r <;> rfl
    rw [hvalue, Stored.put]
    exact putConverted_putsValue hl h hk (hw ▸ hpos) hw hfixed
  | decimal internalType cell =>
    obtain ⟨x, hx⟩ := Cell.IsFixed.value hst
    have hshape := hwf.shape
    cases hkind : col.kind with
    | decimal t p s =>
      simp only [Stored.put, Stored.value, hkind, require_bind]
      by_cases ht : t = internalType
      · rw [if_pos ht, if_pos ht, hx]
        rw [show col.type.kind = _ from hkind] at hshape
        have hw : 0 < t.widthBytes := by
          have hmem := hshape.2
          simp only [List.mem_cons, List.not_mem_nil, or_false] at hmem
          rcases hmem with rfl | rfl | rfl | rfl <;> decide
        have hwidth : col.type.kind.widthBytes = t.widthBytes := by
          rw [show col.type.kind = _ from hkind]
          rfl
        exact putCell_putsValue (t := col.type) hl h hk hw hwidth hx
      · rw [if_neg ht, if_neg ht]
        exact .refused
    | _ =>
      simp only [Stored.put, hkind]
      exact .refused
  | bigDecimal unscaled scale =>
    have hshape := hwf.shape
    cases hkind : col.kind with
    | decimal t p s =>
      simp only [Stored.put, Stored.value, hkind]
      rw [show col.type.kind = _ from hkind] at hshape
      have hw : 0 < t.widthBytes := by
        have hmem := hshape.2
        simp only [List.mem_cons, List.not_mem_nil, or_false] at hmem
        rcases hmem with rfl | rfl | rfl | rfl <;> decide
      have hwidth : col.type.kind.widthBytes = t.widthBytes := by
        rw [show col.type.kind = _ from hkind]
        rfl
      refine putConverted_putsValue hl h hk hw hwidth fun c hc => ?_
      obtain ⟨-, bits, hbits, -⟩ := decimalCell_eq_ok hc
      exact ⟨bits, hbits⟩
    | _ =>
      simp only [Stored.put, hkind]
      exact .refused
  | text s =>
    have hshape := hwf.shape
    cases hkind : col.kind with
    | scalar t ht =>
      simp only [Stored.put, Stored.value, hkind]
      cases t with
      | varchar =>
        have hwidth : col.type.kind.widthBytes = 16 := by
          rw [show col.type.kind = _ from hkind]
          rfl
        exact putStringOrBlob_putsValue hl hwidth h hk (utf8 s)
      | _ => exact .refused
    | unlisted t =>
      simp only [Stored.put, Stored.value, hkind]
      cases t with
      | json =>
        have hwidth : col.type.kind.widthBytes = 16 := by
          rw [show col.type.kind = _ from hkind]
          rfl
        exact putStringOrBlob_putsValue hl hwidth h hk (utf8 s)
      | _ => exact .refused
    | enum t dict =>
      simp only [Stored.put, Stored.value, hkind]
      rw [show col.type.kind = _ from hkind] at hshape
      exact putEnum_putsValue hkind hshape.2 h hk s
    | _ =>
      simp only [Stored.put, hkind]
      exact .refused
  | bytes bs =>
    have hwidth : col.kind.widthBytes = 16 := by
      have hmem : col.kind.colType ∈ [CAPIType.varchar, .blob] := hst
      simp only [List.mem_cons, List.not_mem_nil, or_false] at hmem
      rcases hmem with hc | hc
      · rw [TypeKind.widthBytes_of_colType (by simp [hc]) (by simp [hc]), hc]
        rfl
      · rw [TypeKind.widthBytes_of_colType (by simp [hc]) (by simp [hc]), hc]
        rfl
    exact putStringOrBlob_putsValue hl hwidth h hk bs
  | array | array2D | elements | entries => exact hst.elim

/-- No overload takes a `STRUCT` or a `UNION`. -/
theorem Append.composite_notMem (a : Append) :
    CAPIType.struct ∉ a.types ∧ CAPIType.union ∉ a.types := by
  cases a with
  | prim k v | boxed k v => cases k <;> simp [Append.types, PrimKind.types]
  | _ => simp [Append.types, collectionTypes, timestampLocalTypes]

theorem Append.isLeaf_of_types {kind : TypeKind} (hs : kind.sharesSlots = true) {a : Append}
    (h : kind.colType ∈ a.types) : kind.isLeaf = true := by
  cases kind with
  | scalar | decimal | enum | unlisted => rfl
  | struct ns => exact absurd h a.composite_notMem.1
  | union ns => exact absurd h a.composite_notMem.2
  | _ => cases hs

/-- **An `append` to a plain column.** -/
theorem Append.write_plain {a : Append} {env : Env} {col : Column} {v : Vec}
    (hplain : col.type.Plain) (hwf : col.type.Wf) (h : Ready env.eng col.type v)
    (hk : env.rowIdx < env.eng.vectorSize) (ha : col.arraySize = 1)
    (hpa : col.parentArraySize = 1) :
    PutsValue col.type env.rowIdx ((a.stored col.colType).value col.kind) v
      (a.write env col v) := by
  by_cases ht : col.colType ∈ a.types
  · obtain ⟨hi, hst⟩ := a.stored_fitsLeaf hplain.shares ht
    rw [write_apply ht hi]
    exact Stored.put_plain (a.isLeaf_of_types hplain.shares ht) hplain hwf h hk ha hpa hst
  · rw [Append.write, checkColumnType, bind_error (require_of_not ht _ _)]
    exact .refused

/-! ## `putUnionTag` -/

/-- The members of a UNION that are not selected are marked NULL. -/
theorem setOthersNull_plain {eng : Engine} {col : Column} {k m : ℕ} (hk : k < eng.vectorSize)
    (hplain : col.type.Plain) (ha : col.arraySize = 1) :
    ∀ (ts : List LogicalType) (i : ℕ) {v : Vec},
    (∀ j u, ts[j]? = some u → u.Plain ∧ Ready eng u (v.child (i + j))) →
    ∃ v', setOthersNull col m k i ts v = .ok () v' ∧ SlotOnly k v v' ∧ v'.root = v.root ∧
      v'.child m = v.child m ∧ ∀ j < i, v'.child j = v.child j
  | [], i, v, _ => ⟨v, rfl, .refl k v, rfl, rfl, fun _ _ => rfl⟩
  | t :: ts, i, v, hts => by
    obtain ⟨ht, hready⟩ := hts 0 t rfl
    rw [setOthersNull]
    by_cases him : i = m
    · obtain ⟨v', hx, hs, hroot, hm, hlt⟩ := setOthersNull_plain hk hplain ha ts (i + 1) (v := v)
        fun j u hu => by
          have := hts (j + 1) u hu
          rwa [show i + (j + 1) = i + 1 + j by omega] at this
      refine ⟨v', ?_, hs, hroot, hm, fun j hj => hlt j (by omega)⟩
      rw [if_pos him]
      exact hx
    · obtain ⟨c, hc, hsc, -⟩ := setNullAt_plain ht hready hk
      have hnull : (Column.child col i t).setNull k (v.child i) = .ok () c := by
        rw [Column.setNull, Column.arraySize_child hplain]
        rw [show (Column.child col i t).parentArraySize = col.arraySize from rfl, ha]
        exact hc
      obtain ⟨v', hx, hs, hroot, hm, hlt⟩ := setOthersNull_plain hk hplain ha ts (i + 1)
        (v := v.setChild i c) fun j u hu => by
          have := hts (j + 1) u hu
          rw [show i + (j + 1) = i + 1 + j by omega] at this
          rwa [child_setChild_ne (by omega)]
      refine ⟨v', ?_, (SlotOnly.setChild hsc).trans hs, hroot, ?_, fun j hj => ?_⟩
      · rw [if_neg him, bind_ok (onChild_eq_ok.2 ⟨c, hnull, rfl⟩)]
        exact hx
      · rw [hm, child_setChild_ne (Ne.symm him)]
      · rw [hlt j (by omega), child_setChild_ne (by omega)]

/-- The tag of a UNION. -/
theorem putTag_plain {eng : Engine} {v : Vec} {k : ℕ}
    (h : Ready eng (.node (.scalar .utinyint (.refl true)) []) v) (hk : k < eng.vectorSize)
    (bits : ℕ) : ∃ c, putCell CAPIType.utinyint.widthBytes k (.fixed bits) v = .ok () c ∧
      SlotOnly k v c ∧ (v.root.valid k = true →
        decode (.node (.scalar .utinyint (.refl true)) []) c k = some (.fixed bits)) := by
  refine ⟨_, putCell_holds Nat.one_pos (h.holds hk) _, ?_⟩
  have hput : PutsValue (.node (.scalar .utinyint (.refl true)) []) k (some (.fixed bits)) v
      (.ok () (v.setRoot (v.root.put CAPIType.utinyint.widthBytes k (.fixed bits)))) :=
    putsValue_root (t := .node (.scalar .utinyint (.refl true)) []) rfl ⟨rfl, rfl, rfl⟩ rfl rfl rfl
  cases hput with
  | stored hs hx hd =>
    cases hx
    exact ⟨hs, hd⟩

/-- How `putUnionTag` ends: the tag of the member is there and the member is as it was, or an
    exception is thrown before anything is changed. -/
inductive PutsTag (t : LogicalType) (k : ℕ) (member : Option ℕ) (v : Vec) :
    EStateM.Result Exn Vec ℕ → Prop
  | stored {m v'} : SlotOnly k v v' → member = some m → v'.root = v.root →
      v'.child m = v.child m →
      (FreshAt k v → decodeChild t.children 0 (v'.child 0) k = some (.fixed (m - 1))) →
      PutsTag t k member v (.ok m v')
  | refused {e} : PutsTag t k member v (.error e v)

/-- The member that `putUnionTag` selects. -/
def TypeKind.member (tag : String) : TypeKind → Option ℕ
  | .union names => unionFieldWithTag names tag
  | _ => none

/-- **`putUnionTag` in a plain column.** -/
theorem putUnionTag_plain {eng : Engine} {col : Column} {v : Vec} (hplain : col.type.Plain)
    (hwf : col.type.Wf) (h : Ready eng col.type v) {k : ℕ} (hk : k < eng.vectorSize)
    (ha : col.arraySize = 1) (tag : String) :
    PutsTag col.type k (col.kind.member tag) v (putUnionTag col k tag v) := by
  have hshape := hwf.shape
  cases hkind : col.kind with
  | union names =>
    simp only [putUnionTag, hkind, TypeKind.member]
    rw [show col.type.kind = _ from hkind] at hshape
    obtain ⟨⟨t, ts, hcs⟩, hlen⟩ := hshape
    cases hm : unionFieldWithTag names tag with
    | none => exact .refused
    | some m =>
      obtain ⟨hm0, hname⟩ := unionFieldWithTag_eq_some hm
      have hmlt : m < names.length := (List.getElem?_eq_some_iff.1 hname).1
      have htags := hplain.tags (show col.type.kind = _ from hkind)
      have htag : (m - 1) % 2 ^ 8 = m - 1 := Nat.mod_eq_of_lt (by omega)
      obtain ⟨c, hc, hsc, hdc⟩ := putTag_plain (v := v.child 0) (h.child (by rw [hcs]; rfl)) hk
        ((m - 1) % 2 ^ 8)
      obtain ⟨v', hothers, hs, hroot, hmember, hlt⟩ := setOthersNull_plain (m := m) hk hplain ha
        col.type.children.tail 1 (v := v.setChild 0 c) fun j u hu => by
          have hu : col.type.children[1 + j]? = some u := by
            rw [← hu, List.getElem?_tail, Nat.add_comm]
          rw [child_setChild_ne (by omega)]
          exact ⟨hplain.child hu, h.child hu⟩
      have hrun : (do
          onChild 0 (putCell CAPIType.utinyint.widthBytes k (.fixed ((m - 1) % 2 ^ 8)))
          setOthersNull col m k 1 col.type.children.tail
          pure m : PutM ℕ) v = .ok m v' := by
        rw [bind_ok (onChild_eq_ok.2 ⟨c, hc, rfl⟩), bind_ok hothers]
        rfl
      show PutsTag col.type k (some m) v ((do
          onChild 0 (putCell CAPIType.utinyint.widthBytes k (.fixed ((m - 1) % 2 ^ 8)))
          setOthersNull col m k 1 col.type.children.tail
          pure m : PutM ℕ) v)
      rw [hrun]
      refine .stored ((SlotOnly.setChild hsc).trans hs) rfl hroot ?_ fun hfresh => ?_
      · rw [hmember, child_setChild_ne (by omega)]
      · rw [hlt 0 Nat.one_pos, child_setChild_self, hcs, ← htag]
        exact hdc (hfresh [0])
  | _ =>
    simp only [putUnionTag, hkind]
    exact .refused

end DuckDBJava
