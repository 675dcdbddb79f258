/-
  The bytes of `string_t` slots.

  `Cell.string` stands for the value of a slot.  Here a VARCHAR or BLOB vector is the memory
  itself, 16 bytes a slot, with the column's `data` buffer over it and the string heap of the
  vector, and `putStringOrBlob` is written down to its single puts.  `Represents` relates the two
  levels and `putString_sim` shows that the cells are a faithful view of the bytes; what the
  cells do not see are the bytes of a slot behind a short string.
-/
import DuckDBJava.Lib.Bytes
import DuckDBJava.Appender.Put

namespace DuckDBJava

open Exec PathTree Bytes

/-- The bytes of a string slot, `sizeof(string_t)`. -/
abbrev slotBytes : ℕ := CAPIType.varchar.widthBytes

/-- `string_t::INLINE_LENGTH`. -/
def inlineLength : ℕ := 12

/-- A VARCHAR or BLOB vector and the `data` buffer of the `Column` over it: the buffer covers
    `cap` slots of the vector's memory and is at position `pos`. -/
structure StringVector where
  cap : ℕ
  pos : ℕ
  mem : Mem
  /-- the strings in the string buffer of the vector, by their address -/
  heap : ℕ → List UInt8
  /-- the capacity of a `ByteBuffer` is an `int` -/
  cap_lt : cap * slotBytes < 2 ^ 31

/-- Computations on a string vector. -/
abbrev StringM (α : Type) := M Exn StringVector α

namespace StringVector

/-- The 16 bytes of slot `j`. -/
def slot (v : StringVector) (j : ℕ) : List UInt8 := v.mem.load (j * slotBytes) slotBytes

/-- `string_t::GetSize`. -/
def length (v : StringVector) (j : ℕ) : ℕ := ofLE (v.mem.load (j * slotBytes) 4)

/-- The pointer of a string that is not inlined. -/
def pointer (v : StringVector) (j : ℕ) : ℕ := ofLE (v.mem.load (j * slotBytes + 8) 8)

/-- The `GetSize()` bytes at `string_t::GetData()`. -/
def read (v : StringVector) (j : ℕ) : List UInt8 :=
  if v.length j ≤ inlineLength then v.mem.load (j * slotBytes + 4) (v.length j)
  else (v.heap (v.pointer j)).take (v.length j)

end StringVector

/-! ## The puts -/

namespace DataBuffer

/-- `data.position(pos)`. -/
def position (pos : ℤ) : StringM Unit := do
  let v ← get
  require (0 ≤ pos ∧ pos ≤ v.cap * slotBytes) .illegalArgument
  set { v with pos := pos.toNat }

/-- `data.put(bytes)`: a relative put. -/
def put (bytes : List UInt8) : StringM Unit := do
  let v ← get
  require (v.pos + bytes.length ≤ v.cap * slotBytes) .bufferOverflow
  set { v with mem := v.mem.store v.pos bytes, pos := v.pos + bytes.length }

/-- `data.putInt(n)`; the buffers of the columns are little-endian. -/
def putInt (n : ℕ) : StringM Unit := put (le 4 n)

end DataBuffer

/-- The constructor `string_t(data, len)`, with the string at `ptr` when it is not inlined. -/
def stringT (ptr : ℕ) (data : List UInt8) : List UInt8 :=
  le 4 data.length ++
    if data.length ≤ inlineLength then data ++ List.replicate (inlineLength - data.length) 0
    else data.take 4 ++ le 8 ptr

/-- `duckdb_vector_assign_string_element_len`; the string buffer of the vector stores a string
    that is not inlined at `ptr`. -/
def assignStringElementLen (ptr index : ℕ) (str : List UInt8) (v : StringVector) :
    StringVector :=
  { v with
    mem := v.mem.store (index * slotBytes) (stringT ptr str)
    heap := if str.length ≤ inlineLength then v.heap else Function.update v.heap ptr str }

/-- The branch of `putStringOrBlob` that writes the string into its slot. -/
def putInlined (vectorIdx : ℕ) (bytes : List UInt8) : StringM Unit := do
  DataBuffer.position (toInt (vectorIdx * slotBytes : ℕ))
  DataBuffer.putInt bytes.length
  (if 0 < bytes.length then DataBuffer.put bytes else pure ())

/-- `putStringOrBlob`, put by put. -/
def putStringBytes (writeInlinedStrings : Bool) (ptr vectorIdx : ℕ) (bytes : List UInt8) :
    StringM Unit :=
  if writeInlinedStrings ∧ bytes.length < stringMaxInlineBytes then putInlined vectorIdx bytes
  else modify (assignStringElementLen ptr vectorIdx bytes)

theorem stringT_of_short (ptr : ℕ) {data : List UInt8} (h : data.length ≤ inlineLength) :
    stringT ptr data = le 4 data.length ++ data ++
      List.replicate (inlineLength - data.length) 0 := by
  rw [stringT, if_pos h, List.append_assoc]

theorem length_stringT (ptr : ℕ) (data : List UInt8) : (stringT ptr data).length = slotBytes := by
  have hw : slotBytes = 16 := rfl
  have hl : inlineLength = 12 := rfl
  unfold stringT
  split
  · simp only [List.length_append, length_le, List.length_replicate]
    omega
  · simp only [List.length_append, length_le, List.length_take]
    omega

/-! ## What the inlined branch leaves in a slot -/

theorem toInt_slot {v : StringVector} {vectorIdx : ℕ} (h : vectorIdx ≤ v.cap) :
    toInt (vectorIdx * slotBytes : ℕ) = (vectorIdx * slotBytes : ℕ) :=
  toInt_natCast (lt_of_le_of_lt (Nat.mul_le_mul_right _ h) v.cap_lt)

theorem DataBuffer.put_eq {v : StringVector} {bytes : List UInt8}
    (h : v.pos + bytes.length ≤ v.cap * slotBytes) :
    DataBuffer.put bytes v =
      .ok () { v with mem := v.mem.store v.pos bytes, pos := v.pos + bytes.length } := by
  unfold put
  rw [get_bind, require_bind, if_pos h]
  rfl

theorem DataBuffer.position_eq {v : StringVector} {vectorIdx : ℕ} (h : vectorIdx ≤ v.cap) :
    DataBuffer.position (toInt (vectorIdx * slotBytes : ℕ)) v =
      .ok () { v with pos := vectorIdx * slotBytes } := by
  have hle : ((vectorIdx * slotBytes : ℕ) : ℤ) ≤ v.cap * slotBytes := by
    exact_mod_cast Nat.mul_le_mul_right slotBytes h
  unfold position
  rw [toInt_slot h, get_bind, require_bind, if_pos ⟨Int.natCast_nonneg _, hle⟩, Int.toNat_natCast]
  rfl

/-- In a slot of the buffer, the inlined branch stores the length and the bytes, and no more. -/
theorem putInlined_eq {v : StringVector} {vectorIdx : ℕ} {bytes : List UInt8}
    (hidx : vectorIdx < v.cap) (hlen : bytes.length < stringMaxInlineBytes) :
    putInlined vectorIdx bytes v = .ok () { v with
      mem := v.mem.store (vectorIdx * slotBytes) (le 4 bytes.length ++ bytes)
      pos := vectorIdx * slotBytes + 4 + bytes.length } := by
  have hw : slotBytes = 16 := rfl
  have hm : stringMaxInlineBytes = 12 := rfl
  have hcap : (vectorIdx + 1) * slotBytes ≤ v.cap * slotBytes := Nat.mul_le_mul_right _ hidx
  rw [Nat.add_mul] at hcap
  have hstore := v.mem.store_append (vectorIdx * slotBytes) (le 4 bytes.length) bytes
  rw [length_le] at hstore
  unfold putInlined DataBuffer.putInt
  rw [bind_ok (DataBuffer.position_eq hidx.le), bind_ok (DataBuffer.put_eq _), ← hstore]
  · simp only [length_le]
    by_cases h0 : 0 < bytes.length
    · rw [if_pos h0, DataBuffer.put_eq]
      show vectorIdx * slotBytes + 4 + bytes.length ≤ v.cap * slotBytes
      omega
    · obtain rfl : bytes = [] := List.length_eq_zero_iff.1 (by omega)
      rw [if_neg h0, Mem.store_nil]
      rfl
  · rw [length_le]
    show vectorIdx * slotBytes + 4 ≤ v.cap * slotBytes
    omega

/-- The bytes of slot `j` behind a string of `n` bytes are zero. -/
def ZeroBehind (v : StringVector) (j n : ℕ) : Prop :=
  ∀ i, 4 + n ≤ i → i < slotBytes → v.mem (j * slotBytes + i) = 0

theorem zeroBehind_iff {v : StringVector} {j n : ℕ} (h : n ≤ inlineLength) :
    ZeroBehind v j n ↔
      v.mem.load (j * slotBytes + (4 + n)) (inlineLength - n) =
        List.replicate (inlineLength - n) 0 := by
  have hw : slotBytes = 16 := rfl
  have hl : inlineLength = 12 := rfl
  constructor
  · intro hz
    refine List.ext_getElem (by simp) fun k hk _ => ?_
    rw [Mem.length_load] at hk
    rw [Mem.getElem_load, List.getElem_replicate, Nat.add_assoc]
    exact hz _ (by omega) (by omega)
  · intro hz i h1 h2
    have hk : i - (4 + n) < inlineLength - n := by omega
    have hget := congrArg (fun l : List UInt8 => l[i - (4 + n)]?) hz
    simp only [Mem.load, List.getElem?_map, List.getElem?_range hk, List.getElem?_replicate,
      if_pos hk, Option.map_some, Option.some.injEq] at hget
    rwa [Nat.add_assoc, Nat.add_sub_cancel' h1] at hget

/-- The inlined branch and the native call on the same slot: the slot holds the same 16 bytes
    afterwards. -/
def InlineAgrees (v : StringVector) (ptr vectorIdx : ℕ) (bytes : List UInt8) : Prop :=
  ∃ v', putStringBytes true ptr vectorIdx bytes v = .ok () v' ∧
    v'.slot vectorIdx = (assignStringElementLen ptr vectorIdx bytes v).slot vectorIdx

theorem putStringBytes_inlined {v : StringVector} {ptr vectorIdx : ℕ} {bytes : List UInt8}
    (hlen : bytes.length < stringMaxInlineBytes) :
    putStringBytes true ptr vectorIdx bytes v = putInlined vectorIdx bytes v := by
  rw [putStringBytes, if_pos ⟨rfl, hlen⟩]

theorem slot_inlined {v v' : StringVector} {vectorIdx : ℕ} {bytes : List UInt8}
    (hidx : vectorIdx < v.cap) (hlen : bytes.length < stringMaxInlineBytes)
    (h : putInlined vectorIdx bytes v = .ok () v') :
    v'.slot vectorIdx = le 4 bytes.length ++ bytes ++
      v.mem.load (vectorIdx * slotBytes + (4 + bytes.length)) (inlineLength - bytes.length) := by
  rw [putInlined_eq hidx hlen] at h
  obtain rfl := (EStateM.Result.ok.inj h).2
  have hm : stringMaxInlineBytes = 12 := rfl
  have hl : inlineLength = 12 := rfl
  have hn : (le 4 bytes.length ++ bytes).length = 4 + bytes.length := by
    rw [List.length_append, length_le]
  have hk : 4 + bytes.length + (inlineLength - bytes.length) = slotBytes := by
    show _ = 16
    omega
  have hfront := v.mem.load_store_front (vectorIdx * slotBytes) (inlineLength - bytes.length)
    (le 4 bytes.length ++ bytes)
  rwa [hn, hk] at hfront

theorem slot_assign (v : StringVector) (ptr index : ℕ) (str : List UInt8) :
    (assignStringElementLen ptr index str v).slot index = stringT ptr str := by
  have h := v.mem.load_store_self (index * slotBytes) (stringT ptr str)
  rwa [length_stringT] at h

theorem inlineAgrees_iff {v : StringVector} {ptr vectorIdx : ℕ} {bytes : List UInt8}
    (hidx : vectorIdx < v.cap) (hlen : bytes.length < stringMaxInlineBytes) :
    InlineAgrees v ptr vectorIdx bytes ↔
      v.mem.load (vectorIdx * slotBytes + (4 + bytes.length)) (inlineLength - bytes.length) =
        List.replicate (inlineLength - bytes.length) 0 := by
  have hle : bytes.length ≤ inlineLength := Nat.le_of_lt hlen
  have hok := putInlined_eq hidx hlen
  constructor
  · rintro ⟨v', hv', hslot⟩
    rw [putStringBytes_inlined hlen] at hv'
    rw [slot_inlined hidx hlen hv', slot_assign, stringT_of_short ptr hle] at hslot
    exact List.append_cancel_left hslot
  · intro h
    refine ⟨_, (putStringBytes_inlined hlen).trans hok, ?_⟩
    rw [slot_inlined hidx hlen hok, slot_assign, stringT_of_short ptr hle, h]

/-- **Inlined strings.**  For every string shorter than the limit and every slot of the buffer,
    the inlined branch leaves the `string_t` of the native call if and only if the bytes of the
    slot behind the string were zero before. -/
theorem inlined_string_iff (v : StringVector) (ptr vectorIdx : ℕ) (bytes : List UInt8)
    (hidx : vectorIdx < v.cap) (hlen : bytes.length < stringMaxInlineBytes) :
    InlineAgrees v ptr vectorIdx bytes ↔ ZeroBehind v vectorIdx bytes.length :=
  (inlineAgrees_iff hidx hlen).trans (zeroBehind_iff (Nat.le_of_lt hlen)).symm

/-- The vector of a column of a new chunk. -/
def StringVector.start : StringVector where
  cap := 2048
  pos := 0
  mem := fun _ => 0
  heap := fun _ => []
  cap_lt := by decide

theorem inlined_string_iff_start :
    (0 < StringVector.start.cap ∧ [97, 98].length < stringMaxInlineBytes) ∧
      (InlineAgrees .start 0 0 [97, 98] ↔ ZeroBehind .start 0 2) :=
  ⟨by decide, inlined_string_iff .start 0 0 [97, 98] (by decide) (by decide)⟩

/-- A string and, in the same slot after a flush, a shorter one: the end of the first is still
    there. -/
theorem inlined_string_after_longer :
    ∃ v, putStringBytes true 0 0 [97, 98, 99, 100, 101, 102] .start = .ok () v ∧
      ¬ InlineAgrees v 0 0 [120, 121, 122] := by
  refine ⟨_, (putStringBytes_inlined (by decide)).trans (putInlined_eq (by decide) (by decide)), ?_⟩
  rw [inlineAgrees_iff (by decide) (by decide)]
  decide

/-! ## Slots over a whole run -/

/-- One call of `putStringOrBlob`. -/
structure StringWrite where
  inlined : Bool
  ptr : ℕ
  index : ℕ
  bytes : List UInt8

def StringWrite.run (w : StringWrite) : StringM Unit :=
  putStringBytes w.inlined w.ptr w.index w.bytes

/-- The calls on one vector; a flush in between leaves the memory as it is. -/
def runWrites : List StringWrite → StringM Unit
  | [] => pure ()
  | w :: ws => do w.run; runWrites ws

/-- What a call stores in its slot. -/
def StringWrite.stored (w : StringWrite) : List UInt8 :=
  if w.inlined ∧ w.bytes.length < stringMaxInlineBytes then le 4 w.bytes.length ++ w.bytes
  else stringT w.ptr w.bytes

theorem StringWrite.run_spec {w : StringWrite} {v : StringVector} (h : w.index < v.cap) :
    ∃ v', w.run v = .ok () v' ∧ v'.cap = v.cap ∧
      v'.mem = v.mem.store (w.index * slotBytes) w.stored := by
  unfold run putStringBytes stored
  split
  · next hw => exact ⟨_, putInlined_eq h hw.2, rfl, rfl⟩
  · exact ⟨_, rfl, rfl, rfl⟩

theorem StringWrite.length_stored_le (w : StringWrite) : w.stored.length ≤ slotBytes := by
  unfold stored
  split
  · next hw =>
    have hm : w.bytes.length < 12 := hw.2
    rw [List.length_append, length_le]
    show _ ≤ 16
    omega
  · rw [length_stringT]

/-- Behind a short string, a call stores nothing but zeros. -/
theorem StringWrite.stored_getD {w : StringWrite} {i : ℕ} (hlen : w.bytes.length ≤ inlineLength)
    (hi : 4 + w.bytes.length ≤ i) : w.stored.getD i 0 = 0 := by
  unfold stored
  split
  · refine List.getD_eq_default _ _ ?_
    rwa [List.length_append, length_le]
  · rw [stringT_of_short _ hlen, List.getD_append_right _ _ _ _
      (by rwa [List.length_append, length_le])]
    rcases lt_or_ge (i - (le 4 w.bytes.length ++ w.bytes).length)
      (inlineLength - w.bytes.length) with h | h
    · rw [List.getD_eq_getElem _ _ (by rwa [List.length_replicate]), List.getElem_replicate]
    · exact List.getD_eq_default _ _ (by rwa [List.length_replicate])

theorem ZeroBehind.run {w : StringWrite} {v v' : StringVector} {j n : ℕ}
    (hz : ZeroBehind v j n) (hn : n ≤ inlineLength) (hidx : w.index < v.cap)
    (hlen : w.index = j → w.bytes.length ≤ n) (hrun : w.run v = .ok () v') :
    ZeroBehind v' j n := by
  obtain ⟨u, hu, -, hmem⟩ := w.run_spec hidx
  obtain rfl := (EStateM.Result.ok.inj (hu.symm.trans hrun)).2
  have hst := w.length_stored_le
  have hw : slotBytes = 16 := rfl
  intro i h1 h2
  rw [hmem]
  unfold Mem.store
  by_cases hj : w.index = j
  · subst hj
    have hlen := hlen rfl
    split
    · rw [Nat.add_sub_cancel_left]
      exact StringWrite.stored_getD (hlen.trans hn) (by omega)
    · exact hz i h1 h2
  · rw [if_neg (by rw [hw] at hst ⊢; omega)]
    exact hz i h1 h2

/-- In a run in which no string put into the slot is longer than `n`, the bytes behind stay
    zero. -/
theorem ZeroBehind.runWrites {ws : List StringWrite} {v v' : StringVector} {j n : ℕ}
    (hz : ZeroBehind v j n) (hn : n ≤ inlineLength) (hidx : ∀ w ∈ ws, w.index < v.cap)
    (hlen : ∀ w ∈ ws, w.index = j → w.bytes.length ≤ n) (hrun : runWrites ws v = .ok () v') :
    ZeroBehind v' j n := by
  induction ws generalizing v with
  | nil =>
    obtain rfl := (EStateM.Result.ok.inj hrun).2
    exact hz
  | cons w ws ih =>
    obtain ⟨⟨⟩, u, hu, hrest⟩ := bind_eq_ok.1 hrun
    have hw := hidx w List.mem_cons_self
    have hzu := hz.run hn hw (hlen w List.mem_cons_self) hu
    obtain ⟨u', hu', hcap, -⟩ := w.run_spec hw
    obtain rfl := (EStateM.Result.ok.inj (hu'.symm.trans hu)).2
    refine ih hzu (fun x hx => ?_) (fun x hx => hlen x (List.mem_cons_of_mem _ hx)) hrest
    rw [hcap]
    exact hidx x (List.mem_cons_of_mem _ hx)

/-- As long as no string put into a slot before was longer, flushes or not, the inlined branch
    leaves the `string_t` of the native call. -/
theorem inlineAgrees_after_run {ws : List StringWrite} {v : StringVector} {ptr vectorIdx : ℕ}
    {bytes : List UInt8} (hidx : ∀ w ∈ ws, w.index < StringVector.start.cap)
    (hws : ∀ w ∈ ws, w.index = vectorIdx → w.bytes.length ≤ bytes.length)
    (hrun : runWrites ws .start = .ok () v) (hv : vectorIdx < v.cap)
    (hlen : bytes.length < stringMaxInlineBytes) : InlineAgrees v ptr vectorIdx bytes := by
  have hle : bytes.length ≤ inlineLength := Nat.le_of_lt hlen
  have hz : ZeroBehind .start vectorIdx bytes.length := fun _ _ _ => rfl
  exact (inlineAgrees_iff hv hlen).2 ((zeroBehind_iff hle).1 (hz.runWrites hle hidx hws hrun))

/-! ## The cells are a view of the bytes -/

namespace StringVector

variable {v v' : StringVector} {j k : ℕ} {bytes : List UInt8}

theorem read_of_inlined (hlen : v.length j = bytes.length) (hle : bytes.length ≤ inlineLength)
    (hbytes : v.mem.load (j * slotBytes + 4) bytes.length = bytes) : v.read j = bytes := by
  rw [read, hlen, if_pos hle, hbytes]

theorem length_of_store (hn : bytes.length < 2 ^ 32) (rest : List UInt8)
    (hmem : v'.mem = v.mem.store (j * slotBytes) (le 4 bytes.length ++ rest)) :
    v'.length j = bytes.length := by
  unfold length
  have hload := v.mem.load_store_self (j * slotBytes) (le 4 bytes.length)
  rw [length_le] at hload
  have happ := v.mem.store_append (j * slotBytes) (le 4 bytes.length) rest
  rw [length_le] at happ
  rw [hmem, ← happ, Mem.load_store_of_disjoint _ _ _ _ _ (.inr le_rfl), hload]
  exact ofLE_le_of_lt hn

/-- A string stored behind its length is read back. -/
theorem read_of_store (hle : bytes.length ≤ inlineLength) (rest : List UInt8)
    (hmem : v'.mem = v.mem.store (j * slotBytes) (le 4 bytes.length ++ (bytes ++ rest))) :
    v'.read j = bytes := by
  have hl : inlineLength = 12 := rfl
  refine read_of_inlined (length_of_store (by omega) _ hmem) hle ?_
  have happ := v.mem.store_append (j * slotBytes) (le 4 bytes.length) (bytes ++ rest)
  rw [length_le] at happ
  have happ' := (v.mem.store (j * slotBytes) (le 4 bytes.length)).store_append
    (j * slotBytes + 4) bytes rest
  rw [hmem, ← happ, ← happ', Mem.load_store_of_disjoint _ _ _ _ _ (.inr le_rfl),
    Mem.load_store_self]

/-- A string in the string buffer is read back through its pointer. -/
theorem read_of_pointer {ptr : ℕ} (hlong : inlineLength < bytes.length)
    (hn : bytes.length < 2 ^ 32) (hptr : ptr < 2 ^ 64)
    (hmem : v'.mem = v.mem.store (j * slotBytes) (stringT ptr bytes))
    (hheap : v'.heap ptr = bytes) : v'.read j = bytes := by
  have hl : inlineLength = 12 := rfl
  rw [stringT, if_neg (by omega)] at hmem
  have hlen : v'.length j = bytes.length := length_of_store hn _ hmem
  have hfront : (le 4 bytes.length ++ bytes.take 4).length = 8 := by
    rw [List.length_append, length_le, List.length_take]
    omega
  have happ := v.mem.store_append (j * slotBytes) (le 4 bytes.length ++ bytes.take 4) (le 8 ptr)
  have hload := (v.mem.store (j * slotBytes) (le 4 bytes.length ++ bytes.take 4)).load_store_self
    (j * slotBytes + 8) (le 8 ptr)
  rw [length_le] at hload
  rw [hfront, List.append_assoc] at happ
  have hpointer : v'.pointer j = ptr := by
    unfold pointer
    rw [hmem, ← happ, hload]
    exact ofLE_le_of_lt hptr
  rw [read, hlen, if_neg (by omega), hpointer, hheap, List.take_length]

/-- A store in another slot changes neither the length nor the pointer, hence not the string. -/
theorem read_of_other {bs : List UInt8} (hjk : j ≠ k) (hbs : bs.length ≤ slotBytes)
    (hmem : v'.mem = v.mem.store (k * slotBytes) bs)
    (hheap : inlineLength < v.length j → v'.heap (v.pointer j) = v.heap (v.pointer j)) :
    v'.read j = v.read j := by
  have hw : slotBytes = 16 := rfl
  have hload : ∀ a n, a + n ≤ slotBytes →
      v'.mem.load (j * slotBytes + a) n = v.mem.load (j * slotBytes + a) n := by
    intro a n ha
    rw [hmem]
    refine Mem.load_store_of_disjoint _ _ _ _ _ ?_
    rw [hw] at hbs ha ⊢
    omega
  have hlen : v'.length j = v.length j := congrArg ofLE (hload 0 4 (by omega))
  have hptr : v'.pointer j = v.pointer j := congrArg ofLE (hload 8 8 (by omega))
  unfold read
  rw [hlen, hptr]
  split
  · next h => exact hload 4 _ (by have hl : inlineLength = 12 := rfl; omega)
  · next h => rw [hheap (by omega)]

end StringVector

/-- The cells of a vector, seen through an up-to-date buffer, are the strings in its memory, in
    the slots `live` that were written since the last flush. -/
structure Represents (live : Set ℕ) (v : StringVector) (t : Vec) : Prop where
  alloc : t.root.buf.alloc = t.root.alloc
  cap : t.root.buf.cap = v.cap
  pos : t.root.buf.pos = v.pos
  read : ∀ j ∈ live, j < v.cap → ∃ bs, t.root.data j = some (.string bs) ∧ v.read j = bs

/-- `ptr` is not the address of a string in use. -/
def FreshPointer (live : Set ℕ) (ptr : ℕ) (v : StringVector) : Prop :=
  ptr < 2 ^ 64 ∧ ∀ j ∈ live, inlineLength < v.length j → v.pointer j ≠ ptr

section
variable {live : Set ℕ} {env : Env} {v v' : StringVector} {t t' : Vec} {vectorIdx : ℕ}
  {bytes : List UInt8}

theorem Represents.insert (bytes : List UInt8) (h : Represents live v t)
    (halloc : t'.root.buf.alloc = t'.root.alloc)
    (hcap : t'.root.buf.cap = v'.cap) (hpos : t'.root.buf.pos = v'.pos) (hcap' : v'.cap = v.cap)
    (hself : t'.root.data vectorIdx = some (.string bytes) ∧ v'.read vectorIdx = bytes)
    (hother : ∀ j ∈ live, j ≠ vectorIdx →
      t'.root.data j = t.root.data j ∧ v'.read j = v.read j) :
    Represents (insert vectorIdx live) v' t' where
  alloc := halloc
  cap := hcap
  pos := hpos
  read j hj hjcap := by
    by_cases hne : j = vectorIdx
    · subst hne
      exact ⟨bytes, hself⟩
    · have hlive := hj.resolve_left hne
      obtain ⟨hdata, hread⟩ := hother j hlive hne
      rw [hdata, hread]
      exact h.read j hlive (hcap' ▸ hjcap)

/-- The inlined branch on the cells. -/
theorem putStringOrBlob_inlined (h : Represents live v t) (hidx : vectorIdx < v.cap)
    (hb : env.writeInlinedStrings = true) (hlen : bytes.length < stringMaxInlineBytes) :
    putStringOrBlob env vectorIdx bytes t = .ok () (t.setRoot
      (((t.root.setPos (vectorIdx * slotBytes)).write vectorIdx [.string bytes]).setPos
        (vectorIdx * slotBytes + (4 + bytes.length)))) := by
  have hw : slotBytes = 16 := rfl
  have hm : stringMaxInlineBytes = 12 := rfl
  have hfit : (vectorIdx + 1) * slotBytes ≤ v.cap * slotBytes := Nat.mul_le_mul_right _ hidx
  rw [Nat.add_mul] at hfit
  have hpos : setPosition slotBytes (toInt (vectorIdx * slotBytes : ℕ)) t =
      .ok () (t.setRoot (t.root.setPos (vectorIdx * slotBytes))) := by
    have hle : ((vectorIdx * slotBytes : ℕ) : ℤ) ≤ (v.cap : ℤ) * (slotBytes : ℕ) := by
      exact_mod_cast Nat.mul_le_mul_right slotBytes hidx.le
    unfold setPosition
    rw [getRoot_bind, h.cap, toInt_slot hidx.le, require_bind,
      if_pos ⟨Int.natCast_nonneg _, hle⟩, modifyRoot_apply, Int.toNat_natCast]
  unfold putStringOrBlob
  rw [if_pos ⟨hb, hlen⟩, bind_ok hpos]
  unfold putHere
  have hcap : (t.root.setPos (vectorIdx * slotBytes)).buf.pos + (4 + bytes.length) ≤
      (t.root.setPos (vectorIdx * slotBytes)).buf.cap * slotBytes := by
    show vectorIdx * slotBytes + _ ≤ t.root.buf.cap * slotBytes
    rw [h.cap]
    omega
  rw [getRoot_bind, root_setRoot, require_bind, if_pos hcap, modifyRoot_apply, root_setRoot]
  have hslot : (t.root.setPos (vectorIdx * slotBytes)).buf.pos / slotBytes = vectorIdx :=
    Nat.mul_div_cancel _ (by decide)
  rw [hslot]
  rfl

/-- **The cells are faithful.**  In every slot of an up-to-date buffer, `putStringOrBlob` on the
    bytes and on the cells both succeed, and the strings in the memory are those of the cells. -/
theorem putStringOrBlob_represents {ptr : ℕ} (h : Represents live v t) (hidx : vectorIdx < v.cap)
    (hn : bytes.length < 2 ^ 31) (hptr : FreshPointer live ptr v) :
    ∃ v' t', putStringBytes env.writeInlinedStrings ptr vectorIdx bytes v = .ok () v' ∧
      putStringOrBlob env vectorIdx bytes t = .ok () t' ∧
      Represents (insert vectorIdx live) v' t' := by
  by_cases hb : env.writeInlinedStrings = true ∧ bytes.length < stringMaxInlineBytes
  · obtain ⟨hflag, hlen⟩ := hb
    have hbytes := putInlined_eq hidx hlen
    have hcells := putStringOrBlob_inlined h hidx hflag hlen
    have hfresh : (t.root.setPos (vectorIdx * slotBytes)).buf.alloc =
        (t.root.setPos (vectorIdx * slotBytes)).alloc := h.alloc
    have hbranch : putStringBytes env.writeInlinedStrings ptr vectorIdx bytes v =
        putInlined vectorIdx bytes v := by
      rw [putStringBytes, if_pos ⟨hflag, hlen⟩]
    refine ⟨_, _, hbranch.trans hbytes, hcells,
      h.insert bytes ?_ ?_ ?_ rfl ⟨?_, ?_⟩ fun j hj hne => ⟨?_, ?_⟩⟩
    · rw [root_setRoot]
      show (ColState.write _ _ _).buf.alloc = (ColState.write _ _ _).alloc
      rw [ColState.write_buf, ColState.write_alloc]
      exact hfresh
    · rw [root_setRoot]
      show (ColState.write _ _ _).buf.cap = v.cap
      rw [ColState.write_buf]
      exact h.cap
    · rw [root_setRoot]
      exact (Nat.add_assoc _ _ _).symm
    · rw [root_setRoot]
      show (ColState.write _ _ _).data vectorIdx = _
      rw [ColState.write, if_pos hfresh]
      simp
    · exact StringVector.read_of_store (Nat.le_of_lt hlen) [] (by rw [List.append_nil])
    · rw [root_setRoot]
      show (ColState.write _ _ _).data j = _
      rw [ColState.write, if_pos hfresh]
      exact if_neg (by simp only [List.length_singleton]; omega)
    · have hle : (le 4 bytes.length ++ bytes).length ≤ slotBytes := by
        have hm : stringMaxInlineBytes = 12 := rfl
        rw [List.length_append, length_le]
        show _ ≤ 16
        omega
      exact StringVector.read_of_other hne hle rfl fun _ => rfl
  · refine ⟨assignStringElementLen ptr vectorIdx bytes v, t.setRoot (t.root.store vectorIdx
      (.string bytes)), by rw [putStringBytes, if_neg hb]; rfl,
      by rw [putStringOrBlob, if_neg hb]; rfl,
      h.insert bytes h.alloc h.cap h.pos rfl ⟨if_pos rfl, ?_⟩ fun j hj hne => ⟨if_neg hne, ?_⟩⟩
    · rcases Nat.lt_or_ge inlineLength bytes.length with hlong | hshort
      · refine StringVector.read_of_pointer (v := v) hlong (by omega) hptr.1 rfl ?_
        show (if bytes.length ≤ inlineLength then v.heap
          else Function.update v.heap ptr bytes) ptr = _
        rw [if_neg (by omega), Function.update_self]
      · refine StringVector.read_of_store (v := v) hshort
          (List.replicate (inlineLength - bytes.length) 0) ?_
        rw [← List.append_assoc, ← stringT_of_short ptr hshort]
        rfl
    · refine StringVector.read_of_other hne (length_stringT ptr bytes).le rfl fun hlong => ?_
      have hptr' := hptr.2 j hj hlong
      show (if bytes.length ≤ inlineLength then v.heap else Function.update v.heap ptr bytes) _ = _
      split
      · rfl
      · rw [Function.update_of_ne hptr']

end

end DuckDBJava
