/-
  `DuckDBBlobResult`: one byte buffer for the blob and for all streams of it.

  The buffer has one position, which `getBytes` moves as the streams do; `getBinaryStream(pos,
  length)` does not look at its arguments.  **`blob_reads_iff`**: all blobs of a length are read as
  if every stream had its own place and range, if and only if every read on a stream finds the
  position of the buffer at the place of the stream (`Agrees`) and the other calls stay within the
  blob.
-/
import DuckDBJava.Appender.Memory
import DuckDBJava.Lib.Calls

namespace DuckDBJava

open Calls

/-! ## The blob and its streams -/

/-- What a call on a blob or on one of its streams returns or throws. -/
inductive BlobOutcome where
  /-- a new array, or the bytes that are put into the array that is given -/
  | bytes (bs : List UInt8)
  | stream
  | number (n : ℤ)
  /-- `-1` -/
  | endOfStream
  | sqlException
  | illegalArgument
  | bufferUnderflow
  | indexOutOfBounds
  deriving DecidableEq

/-- The calls; a stream is named by its number, an array by its size. -/
inductive BlobCall where
  | getBytes (pos : BitVec 64) (length : BitVec 32)
  | getBinaryStream
  | getBinaryStreamOf (pos length : BitVec 64)
  | length
  | read (stream : ℕ)
  | readArray (stream size : ℕ) (off len : BitVec 32)

namespace DuckDBBlobResult

section
variable (content : List UInt8) (position : ℕ)

/-- `getBytes(pos, length)`, with the position it leaves. -/
def getBytes (pos length : ℤ) : BlobOutcome × ℕ :=
  if pos < 1 ∨ length < 0 then (.sqlException, position)
  else
    -- `buffer.position((int) pos - 1)`
    let newPosition := toInt (toInt pos - 1)
    if newPosition < 0 ∨ content.length < newPosition then (.illegalArgument, position)
    else
      let position := newPosition.toNat
      if content.length - position < length.toNat then (.bufferUnderflow, position)
      else (.bytes ((content.drop position).take length.toNat), position + length.toNat)

/-- `read()` -/
def read : BlobOutcome × ℕ :=
  if position < content.length then (.bytes ((content.drop position).take 1), position + 1)
  else (.endOfStream, position)

/-- `read(bytes, off, len)` -/
def readArray (size : ℕ) (off len : ℤ) : BlobOutcome × ℕ :=
  if position < content.length then
    let len := min len ((content.length - position : ℕ) : ℤ)
    if off < 0 ∨ len < 0 ∨ size < off + len then (.indexOutOfBounds, position)
    else (.bytes ((content.drop position).take len.toNat), position + len.toNat)
  else (.endOfStream, position)

/-- A call; all streams are streams of the one buffer. -/
def call : BlobCall → BlobOutcome × ℕ
  | .getBytes pos length => getBytes content position pos.toInt length.toInt
  | .getBinaryStream | .getBinaryStreamOf .. => (.stream, position)
  | .length => (.number content.length, position)
  | .read _ => read content position
  | .readArray _ size off len => readArray content position size off.toInt len.toInt

end

end DuckDBBlobResult

/-! ## Streams with a place of their own -/

/-- The rest of a stream: what it is to read next, and where it ends. -/
structure BlobRange where
  place : ℕ
  stop : ℕ
  deriving DecidableEq

namespace BlobRange

/-- The bytes that `pos` and `length` designate, up to the end of the blob. -/
def designated (n : ℕ) (pos length : ℤ) : Option BlobRange :=
  if 1 ≤ pos ∧ pos ≤ n + 1 ∧ 0 ≤ length then
    some ⟨(pos - 1).toNat, min n (pos - 1 + length).toNat⟩
  else none

variable (content : List UInt8) (r : BlobRange) (count : ℕ)

/-- The bytes of the range. -/
def bytes : List UInt8 := (content.drop r.place).take (r.stop - r.place)

/-- A read of at most `count` bytes. -/
def next : BlobOutcome :=
  if r.place < r.stop then .bytes ((content.drop r.place).take (min count (r.stop - r.place)))
  else .endOfStream

/-- The rest behind such a read. -/
def rest : BlobRange := ⟨min (r.place + count) r.stop, r.stop⟩

/-- Two streams return the same, whatever the blob holds. -/
def Agrees (s : BlobRange) : Prop :=
  (r.place = r.stop ∧ s.place = s.stop) ∨
    (r.place < r.stop ∧ s.place < s.stop ∧
      min count (r.stop - r.place) = min count (s.stop - s.place) ∧ (r.place = s.place ∨ count = 0))

/-- The range is one of a blob of `n` bytes. -/
def Within (n : ℕ) : Prop := r.place ≤ r.stop ∧ r.stop ≤ n

variable {content r count} {n : ℕ} {s : BlobRange}

theorem Within.rest (h : r.Within n) (count : ℕ) : (r.rest count).Within n :=
  ⟨min_le_right _ _, h.2⟩

theorem designated_isSome {pos length : ℤ} :
    (designated n pos length).isSome = true ↔ 1 ≤ pos ∧ pos ≤ n + 1 ∧ 0 ≤ length := by
  unfold designated
  split
  · next h => exact iff_of_true rfl h
  · next h => exact iff_of_false (by decide) h

theorem designated_within {pos length : ℤ} (h : designated n pos length = some r) :
    r.Within n := by
  unfold designated at h
  split at h <;> cases h
  exact ⟨by simp only; omega, min_le_left _ _⟩

theorem next_of_lt (h : r.place < r.stop) : r.next content count =
    .bytes ((content.drop r.place).take (min count (r.stop - r.place))) := if_pos h

theorem next_of_end (h : r.place = r.stop) : r.next content count = .endOfStream :=
  if_neg (by omega)

theorem next_of_agrees (h : r.Agrees count s) : r.next content count = s.next content count := by
  obtain ⟨hr, hs⟩ | ⟨hr, hs, hcount, hplace | hzero⟩ := h
  · rw [next_of_end hr, next_of_end hs]
  · rw [next_of_lt hr, next_of_lt hs, hplace, ← hcount, hplace]
  · rw [next_of_lt hr, next_of_lt hs, hzero, Nat.zero_min, Nat.zero_min, List.take_zero,
      List.take_zero]

/-- The number of bytes that are read. -/
theorem length_next (hr : r.Within n) (hn : content.length = n) :
    ((content.drop r.place).take (min count (r.stop - r.place))).length =
      min count (r.stop - r.place) := by
  obtain ⟨hplace, hstop⟩ := hr
  rw [List.length_take, List.length_drop]
  omega

/-- The first byte that is read. -/
theorem head_next {m : ℕ} (hm : 0 < m) (place : ℕ) :
    ((content.drop place).take m)[0]? = content[place]? := by
  rw [List.getElem?_take_of_lt hm, List.getElem?_drop, Nat.add_zero]

/-- For two streams at different places there is a blob that has different bytes there. -/
theorem agrees_of_next (hr : r.Within n) (hs : s.Within n)
    (h : ∀ content : Vector UInt8 n, r.next content.toList count = s.next content.toList count) :
    r.Agrees count s := by
  replace h : ∀ content : List UInt8, content.length = n →
      r.next content count = s.next content count := by
    rintro content rfl
    exact h content.toArray.toVector
  have hzeros := h (List.replicate n 0) List.length_replicate
  by_cases hend : r.place = r.stop
  · refine .inl ⟨hend, ?_⟩
    by_contra hs'
    rw [next_of_end hend, next_of_lt (lt_of_le_of_ne hs.1 hs')] at hzeros
    cases hzeros
  · have hlt := lt_of_le_of_ne hr.1 hend
    have hslt : s.place < s.stop := by
      refine lt_of_le_of_ne hs.1 fun hs' => ?_
      rw [next_of_lt hlt, next_of_end hs'] at hzeros
      cases hzeros
    rw [next_of_lt hlt, next_of_lt hslt, BlobOutcome.bytes.injEq] at hzeros
    have hcount := congrArg List.length hzeros
    rw [length_next hr List.length_replicate, length_next hs List.length_replicate] at hcount
    refine .inr ⟨hlt, hslt, hcount, ?_⟩
    by_contra hne
    obtain ⟨hplace, hpos⟩ := not_or.1 hne
    -- a blob of zeros but for the byte at the place of the first stream
    have hone := h ((List.replicate n 0).set r.place 1) (by simp)
    rw [next_of_lt hlt, next_of_lt hslt, BlobOutcome.bytes.injEq] at hone
    have hhead := congrArg (·[0]?) hone
    obtain ⟨hrs, hrn⟩ := hr
    obtain ⟨hss, hsn⟩ := hs
    rw [head_next (by omega), head_next (by omega), List.getElem?_set_self (by simp; omega),
      List.getElem?_set_ne hplace, List.getElem?_replicate, if_pos (by omega)] at hhead
    exact absurd hhead (by decide)

end BlobRange

/-! ## Sequences of calls -/

/-- The position of the buffer; and for every stream that has been handed out, what it would have
    left to read if it had a place and a range of its own. -/
structure BlobState where
  position : ℕ
  streams : List BlobRange

namespace DuckDBBlobResult

open BlobRange

/-- A new blob. -/
def start : BlobState := ⟨0, []⟩

/-- The call is one of the blob or of a stream that has been handed out. -/
def Possible (streams : List BlobRange) : BlobCall → Prop
  | .read i | .readArray i .. => i < streams.length
  | _ => True

instance (streams : List BlobRange) : DecidablePred (Possible streams)
  | .read i | .readArray i .. => inferInstanceAs (Decidable (i < streams.length))
  | .getBytes .. | .getBinaryStream | .getBinaryStreamOf .. | .length => .isTrue trivial

/-- The streams after a call, in a blob of `n` bytes. -/
def streamsAfter (n : ℕ) (streams : List BlobRange) : BlobCall → List BlobRange
  | .getBinaryStream => streams ++ [⟨0, n⟩]
  | .getBinaryStreamOf pos length =>
    streams ++ [(designated n pos.toInt length.toInt).getD ⟨0, 0⟩]
  | .read i => streams.modify i (·.rest 1)
  | .readArray i _ _ len => streams.modify i (·.rest len.toInt.toNat)
  | _ => streams

variable {n : ℕ} (content : Vector UInt8 n)

/-- The state after a call. -/
def step (s : BlobState) (c : BlobCall) : BlobState :=
  if Possible s.streams c then
    ⟨(call content.toList s.position c).2, streamsAfter n s.streams c⟩
  else s

/-- A call returns what its arguments and the place of its stream designate, and throws an
    `SQLException` where they are out of range. -/
def AsClaimed (s : BlobState) (c : BlobCall) : Prop :=
  let outcome := (call content.toList s.position c).1
  match c with
  | .getBytes pos length => outcome = match designated n pos.toInt length.toInt with
    | some r => .bytes (r.bytes content.toList)
    | none => .sqlException
  | .getBinaryStream => outcome = .stream
  | .getBinaryStreamOf pos length =>
    outcome = if (designated n pos.toInt length.toInt).isSome then .stream else .sqlException
  | .length => outcome = .number n
  | .read i => ∀ r, s.streams[i]? = some r → outcome = r.next content.toList 1
  | .readArray i size off len => ∀ r, s.streams[i]? = some r →
    outcome = if 0 ≤ off.toInt ∧ 0 ≤ len.toInt ∧ off.toInt + len.toInt ≤ size then
      r.next content.toList len.toInt.toNat else .sqlException

/-- The condition for it: `getBytes` does not reach over the end of the blob, streams are opened on
    ranges that begin in the blob, arrays have room for what is read, and the rest of the buffer
    agrees with the rest of the stream. -/
def Meets (n : ℕ) (s : BlobState) : BlobCall → Prop
  | .getBytes pos length => pos.toInt < 1 ∨ length.toInt < 0 ∨ pos.toInt - 1 + length.toInt ≤ n
  | .getBinaryStreamOf pos length =>
    1 ≤ pos.toInt ∧ pos.toInt ≤ n + 1 ∧ 0 ≤ length.toInt
  | .read i => ∀ r, s.streams[i]? = some r → Agrees ⟨s.position, n⟩ 1 r
  | .readArray i size off len => ∀ r, s.streams[i]? = some r →
    (0 ≤ off.toInt ∧ 0 ≤ len.toInt ∧ off.toInt + len.toInt ≤ size) ∧
      Agrees ⟨s.position, n⟩ len.toInt.toNat r
  | _ => True

/-- The position is in the buffer, and the streams are streams of the blob. -/
def Inv (n : ℕ) (s : BlobState) : Prop := s.position ≤ n ∧ ∀ r ∈ s.streams, r.Within n

variable {content} {s : BlobState}

theorem streams_modify_within {streams : List BlobRange} (h : ∀ r ∈ streams, r.Within n) (i : ℕ)
    (count : ℕ) : ∀ r ∈ streams.modify i (·.rest count), r.Within n := by
  intro r hr
  obtain ⟨j, hj⟩ := List.mem_iff_getElem?.1 hr
  rw [List.getElem?_modify] at hj
  obtain ⟨q, hq, rfl⟩ := Option.map_eq_some_iff.1 hj
  have hq := h q (List.mem_of_getElem? hq)
  split
  · exact hq.rest count
  · exact hq

theorem streamsAfter_within {streams : List BlobRange} (h : ∀ r ∈ streams, r.Within n)
    (c : BlobCall) : ∀ r ∈ streamsAfter n streams c, r.Within n := by
  cases c with
  | getBytes | length => exact h
  | getBinaryStream =>
    refine List.forall_mem_append.2 ⟨h, fun r hr => ?_⟩
    rw [List.mem_singleton.1 hr]
    exact ⟨Nat.zero_le _, le_rfl⟩
  | getBinaryStreamOf pos length =>
    refine List.forall_mem_append.2 ⟨h, fun r hr => ?_⟩
    rw [List.mem_singleton.1 hr]
    cases hrange : designated n pos.toInt length.toInt with
    | none => exact ⟨le_rfl, Nat.zero_le _⟩
    | some r => exact designated_within hrange
  | read i => exact streams_modify_within h i 1
  | readArray i size off len => exact streams_modify_within h i _

/-- No call moves the position out of the buffer. -/
theorem call_position_le {content : List UInt8} {position : ℕ} (h : position ≤ content.length)
    (c : BlobCall) : (call content position c).2 ≤ content.length := by
  cases c with
  | getBytes pos length =>
    simp only [call, getBytes]
    split_ifs <;> simp only <;> omega
  | read i =>
    simp only [call, read]
    split_ifs <;> simp only <;> omega
  | readArray i size off len =>
    simp only [call, readArray]
    split_ifs <;> simp only <;> omega
  | _ => exact h

theorem step_inv (c : BlobCall) (h : Inv n s) : Inv n (step content s c) := by
  obtain ⟨hposition, hstreams⟩ := h
  unfold step
  split_ifs
  · have hle := call_position_le (hposition.trans_eq content.length_toList.symm) c
    exact ⟨hle.trans_eq content.length_toList, streamsAfter_within hstreams c⟩
  · exact ⟨hposition, hstreams⟩

/-- The position depends on the length of the blob only. -/
theorem call_position_same (content content' : Vector UInt8 n) (position : ℕ) (c : BlobCall) :
    (call content.toList position c).2 = (call content'.toList position c).2 := by
  cases c with
  | getBytes pos length =>
    simp only [call, getBytes, Vector.length_toList]
    split_ifs <;> rfl
  | read i =>
    simp only [call, read, Vector.length_toList]
    split_ifs <;> rfl
  | readArray i size off len =>
    simp only [call, readArray, Vector.length_toList]
    split_ifs <;> rfl
  | _ => rfl

theorem step_same (content content' : Vector UInt8 n) (s : BlobState) (c : BlobCall) :
    step content s c = step content' s c := by
  unfold step
  rw [call_position_same content content']

/-! ## One call -/

/-- `read()` is a read of one byte on what is left of the buffer. -/
theorem read_eq (content : Vector UInt8 n) (position : ℕ) :
    (read content.toList position).1 = BlobRange.next content.toList ⟨position, n⟩ 1 := by
  unfold read BlobRange.next
  rw [content.length_toList]
  split_ifs with h
  · rw [min_eq_left (by simp only; omega)]
  · rfl

theorem readArray_eq (content : Vector UInt8 n) (position : ℕ) {size : ℕ} {off len : ℤ}
    (h : 0 ≤ off ∧ 0 ≤ len ∧ off + len ≤ size) :
    (readArray content.toList position size off len).1 =
      BlobRange.next content.toList ⟨position, n⟩ len.toNat := by
  have hcount : (min len ((n - position : ℕ) : ℤ)).toNat = min len.toNat (n - position) := by omega
  simp only [readArray, BlobRange.next, content.length_toList]
  split_ifs with hlt hrange
  · omega
  · rw [hcount]
  · rfl

theorem readArray_ne_sqlException (content : List UInt8) (position size : ℕ) (off len : ℤ) :
    (readArray content position size off len).1 ≠ .sqlException := by
  simp only [readArray]
  split_ifs <;> exact fun h => by cases h

/-- The position of an index in the buffer is computed without overflow. -/
theorem toInt_position {pos : ℤ} (hn : n < 2 ^ 31) (hpos : 1 ≤ pos) (hle : pos ≤ n + 1) :
    toInt (toInt pos - 1) = pos - 1 := by
  rw [toInt, toInt, Int.bmod_sub_bmod]
  exact toInt_of_lt (by omega) (by omega)

theorem getBytes_ne_sqlException {content : List UInt8} {position : ℕ} {pos length : ℤ}
    (h : ¬ (pos < 1 ∨ length < 0)) :
    (getBytes content position pos length).1 ≠ .sqlException := by
  simp only [getBytes, if_neg h]
  split_ifs <;> exact fun h => by cases h

/-- `getBytes` of a range of the blob. -/
theorem getBytes_of_le (hn : n < 2 ^ 31) (content : Vector UInt8 n) (position : ℕ) {pos length : ℤ}
    (hpos : 1 ≤ pos) (hlen : 0 ≤ length) (hle : pos ≤ n + 1) :
    (getBytes content.toList position pos length).1 =
      if pos - 1 + length ≤ n then
        .bytes ((content.toList.drop (pos - 1).toNat).take length.toNat)
      else .bufferUnderflow := by
  simp only [getBytes, toInt_position hn hpos hle, content.length_toList]
  rw [if_neg (by omega), if_neg (by omega)]
  split_ifs <;> first | rfl | omega

theorem getBytes_iff (hn : n < 2 ^ 31) (content : Vector UInt8 n) (position : ℕ) (pos length : ℤ) :
    ((getBytes content.toList position pos length).1 = match designated n pos length with
      | some r => .bytes (r.bytes content.toList)
      | none => .sqlException) ↔ pos < 1 ∨ length < 0 ∨ pos - 1 + length ≤ n := by
  by_cases hbad : pos < 1 ∨ length < 0
  · have hnone : designated n pos length = none := if_neg (by omega)
    rw [hnone, getBytes, if_pos hbad]
    exact iff_of_true rfl (by omega)
  · by_cases hle : pos ≤ n + 1
    · have hsome : designated n pos length =
          some ⟨(pos - 1).toNat, min n (pos - 1 + length).toNat⟩ := if_pos (by omega)
      rw [hsome, getBytes_of_le hn content position (by omega) (by omega) hle]
      by_cases hrange : pos - 1 + length ≤ n
      · have hcount : min n (pos - 1 + length).toNat - (pos - 1).toNat = length.toNat := by omega
        rw [if_pos hrange]
        refine iff_of_true ?_ (.inr (.inr hrange))
        simp only [BlobRange.bytes, hcount]
      · rw [if_neg hrange]
        exact iff_of_false (fun h => by cases h) (by omega)
    · have hnone : designated n pos length = none := if_neg (by omega)
      rw [hnone]
      exact iff_of_false (getBytes_ne_sqlException hbad) (by omega)

theorem claimed_iff (hn : n < 2 ^ 31) (c : BlobCall) (h : Inv n s) :
    (∀ content : Vector UInt8 n, AsClaimed content s c) ↔
      ∀ _ : Vector UInt8 n, Meets n s c := by
  obtain ⟨hposition, hstreams⟩ := h
  have hbuffer : BlobRange.Within ⟨s.position, n⟩ n := ⟨hposition, le_rfl⟩
  cases c with
  | getBytes pos length => exact forall_congr' fun content => getBytes_iff hn content _ _ _
  | getBinaryStream => exact iff_of_true (fun _ => rfl) fun _ => trivial
  | length =>
    exact iff_of_true (fun content => congrArg _ (congrArg _ content.length_toList))
      fun _ => trivial
  | getBinaryStreamOf pos length =>
    refine forall_congr' fun content => Iff.trans ?_ designated_isSome
    show BlobOutcome.stream = ite _ _ _ ↔ _
    split
    · next hsome => exact iff_of_true rfl hsome
    · next hnone => exact iff_of_false (fun h => by cases h) hnone
  | read i =>
    constructor
    · intro hall content r hr
      refine agrees_of_next hbuffer (hstreams r (List.mem_of_getElem? hr)) fun content => ?_
      exact (read_eq content s.position).symm.trans (hall content r hr)
    · intro hagrees content r hr
      exact (read_eq content s.position).trans (next_of_agrees (hagrees content r hr))
  | readArray i size off len =>
    by_cases hrange : 0 ≤ off.toInt ∧ 0 ≤ len.toInt ∧ off.toInt + len.toInt ≤ size
    · constructor
      · intro hall content r hr
        refine ⟨hrange, agrees_of_next hbuffer (hstreams r (List.mem_of_getElem? hr)) ?_⟩
        intro content
        have hclaimed := (hall content r hr).trans (if_pos hrange)
        exact (readArray_eq content s.position hrange).symm.trans hclaimed
      · intro hagrees content r hr
        refine Eq.trans ?_ (if_pos hrange).symm
        exact (readArray_eq content s.position hrange).trans
          (next_of_agrees (hagrees content r hr).2)
    · refine forall_congr' fun content => forall_congr' fun r => imp_congr_right fun _ => ?_
      rw [if_neg hrange]
      exact iff_of_false (readArray_ne_sqlException _ _ _ _ _) fun h => hrange h.1

/-- **Blob reads.**  Over every sequence of calls on a blob and its streams: all blobs of `n` bytes
    are read as claimed, if and only if `getBytes` stays within the blob, streams are opened on
    ranges that begin in it, and every read on a stream finds the position of the shared buffer at
    the place of the stream, with as much left. -/
theorem blob_reads_iff (hn : n < 2 ^ 31) (calls : List BlobCall) :
    (∀ content : Vector UInt8 n, Every (step content) (AsClaimed content) start calls) ↔
      ∀ content : Vector UInt8 n, Every (step content) (Meets n) start calls := by
  have : Nonempty (Vector UInt8 n) := ⟨.replicate n 0⟩
  exact forall_every_iff (P := AsClaimed) (Q := fun _ => Meets n) step_same
    (fun _ _ c h => step_inv c h) (fun _ c h => claimed_iff hn c h)
    ⟨Nat.zero_le _, fun _ h => absurd h List.not_mem_nil⟩

theorem blob_reads_two_bytes :
    Every (step #v[7, 8]) (AsClaimed #v[7, 8]) start [.getBinaryStream, .read 0, .getBytes 2 1] :=
  (blob_reads_iff (by decide) [.getBinaryStream, .read 0, .getBytes 2 1]).2 (fun _ =>
    ⟨trivial, fun r hr => by
      cases hr
      exact .inr (show (0 < 2 ∧ 0 < 2 ∧ min 1 (2 - 0) = min 1 (2 - 0) ∧ (0 = 0 ∨ 1 = 0)) by decide),
      .inr (.inr (by decide)), trivial⟩) #v[7, 8]

/-- After `getBytes(1, 1)` on a blob of one byte, a new stream is at its end. -/
theorem blob_reads_shared_position : ¬ ∀ n < 2 ^ 31, ∀ (content : Vector UInt8 n)
    (calls : List BlobCall), Every (step content) (AsClaimed content) start calls := by
  intro h
  have hread := (h 1 (by decide) #v[7] [.getBytes 1 1, .getBinaryStream, .read 0]).2.2.1 _ rfl
  exact absurd hread (by decide)

end DuckDBBlobResult

end DuckDBJava
