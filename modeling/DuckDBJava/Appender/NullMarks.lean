/-
  NULL marking: which validity bits `Column.setNull` clears.

  `Covers t k` are the slots below slot `k` in DuckDB's layout, and `Marks` those the code
  clears.  They differ at an `ARRAY`: its own slot is multiplied by `arraySize` and
  `parentArraySize` although it already counts elements, and what is below its elements is
  not visited.
-/
import DuckDBJava.Appender.Cursor
import Mathlib.Tactic.Ring

namespace DuckDBJava

open Exec PathTree

/-- Slots of a vector and of the vectors below it: a path, root first, and a slot. -/
abbrev Slots := List ℕ → ℕ → Prop

namespace Slots

/-- No slots. -/
def none : Slots := fun _ _ => False

/-- One slot of the vector itself. -/
def own (k : ℕ) : Slots := fun p j => p = [] ∧ j = k

/-- Slots of the `i`-th child. -/
def child (i : ℕ) (M : Slots) : Slots := fun p j => ∃ q, p = i :: q ∧ M q j

def union (M N : Slots) : Slots := fun p j => M p j ∨ N p j

end Slots

/-- The slots below slot `k` of a column of type `t`, that slot included. -/
def Covers (t : LogicalType) (k : ℕ) : Slots
  | [], j => j = k
  | i :: p, j => ∃ u, t.children[i]? = some u ∧
      match t.kind with
      | .list | .map => False
      | .array n => ∃ e < n, Covers u (k * n + e) p j
      | _ => Covers u k p j

/-- The slot of the bit that `setNullOnVectorIdx` clears, after its cast to `int`. -/
def slotOf (w : ℕ) : ℕ := w % 2 ^ 38

/-- The slots whose bits `setNull` clears, for a column with these array sizes. -/
def Marks (arraySize parentArraySize : ℕ) (t : LogicalType) (k : ℕ) : Slots
  | [], j =>
    match t.kind with
    | .array _ => j = slotOf (k * arraySize * parentArraySize)
    | _ => j = slotOf k
  | i :: p, j => ∃ u, t.children[i]? = some u ∧
      match t.kind with
      | .list | .map => False
      | .array n => p = [] ∧ ∃ e < n, j = slotOf (k * n * arraySize + e)
      | _ => Marks 1 arraySize u k p j

/-! ## Clearing bits -/

/-- Exactly the bits in `M` are cleared, and nothing else is changed. -/
def Marked (M : Slots) (v v' : Vec) : Prop :=
  ∀ p, ∃ valid, v' p = { v p with valid := valid } ∧
    ∀ j, valid j = true ↔ (v p).valid j = true ∧ ¬ M p j

/-- A direct buffer over the present memory; its capacity is that of a Java buffer. -/
structure ColState.Live (c : ColState) : Prop where
  alloc : c.buf.alloc = c.alloc
  cap : c.buf.cap < 2 ^ 34

/-- The buffers of the vectors with slots in `M` are live. -/
def LiveOn (M : Slots) (v : Vec) : Prop := ∀ p j, M p j → (v p).Live

/-- The bits of the slots in `M` are within the validity buffers. -/
def BitsIn (M : Slots) (v : Vec) : Prop := ∀ p j, M p j → j < ((v p).buf.cap + 63) / 64 * 64

/-- The computation clears the bits in `M`; it throws if and only if one of them is outside its
    buffer. -/
def ClearsBits (x : PutM Unit) (M : Slots) : Prop := ∀ v, LiveOn M v →
  (BitsIn M v ∧ ∃ v', x v = .ok () v' ∧ Marked M v v') ∨
    (¬ BitsIn M v ∧ ∃ e v', x v = .error e v')

namespace Marked

variable {M N : Slots} {v v' v'' : Vec}

theorem buf (h : Marked M v v') (p : List ℕ) : (v' p).buf = (v p).buf := by
  obtain ⟨b, hb, _⟩ := h p; rw [hb]

theorem alloc (h : Marked M v v') (p : List ℕ) : (v' p).alloc = (v p).alloc := by
  obtain ⟨b, hb, _⟩ := h p; rw [hb]

theorem valid (h : Marked M v v') (p : List ℕ) (j : ℕ) :
    (v' p).valid j = true ↔ (v p).valid j = true ∧ ¬ M p j := by
  obtain ⟨b, hb, hv⟩ := h p; rw [hb]; exact hv j

theorem trans (h : Marked M v v') (h' : Marked N v' v'') : Marked (M.union N) v v'' := by
  intro p
  obtain ⟨b', hb', hv'⟩ := h' p
  refine ⟨b', ?_, fun j => ?_⟩
  · obtain ⟨b, hb, _⟩ := h p
    rw [hb', hb]
  · rw [hv', h.valid]
    simp only [Slots.union]
    tauto

theorem congr (h : Marked M v v') (hMN : ∀ p j, M p j ↔ N p j) : Marked N v v' := by
  intro p
  obtain ⟨b, hb, hv⟩ := h p
  exact ⟨b, hb, fun j => by rw [hv, hMN]⟩

theorem live (h : Marked M v v') (hl : LiveOn N v) : LiveOn N v' := fun p j hN =>
  ⟨by rw [h.buf, h.alloc]; exact (hl p j hN).alloc, by rw [h.buf]; exact (hl p j hN).cap⟩

theorem bitsIn_iff (h : Marked M v v') : BitsIn N v' ↔ BitsIn N v := by
  simp only [BitsIn, h.buf]

end Marked

namespace ClearsBits

theorem congr {x : PutM Unit} {M N : Slots} (h : ClearsBits x M) (hMN : ∀ p j, M p j ↔ N p j) :
    ClearsBits x N := by
  have : M = N := by funext p j; exact propext (hMN p j)
  exact this ▸ h

theorem pure : ClearsBits (pure ()) Slots.none := fun v _ =>
  .inl ⟨fun _ _ h => h.elim, v, rfl, fun p => ⟨(v p).valid, rfl, fun j => by simp [Slots.none]⟩⟩

theorem bind {x y : PutM Unit} {M N : Slots} (hx : ClearsBits x M) (hy : ClearsBits y N) :
    ClearsBits (x >>= fun _ => y) (M.union N) := by
  intro v hl
  have hbits : BitsIn (M.union N) v ↔ BitsIn M v ∧ BitsIn N v :=
    ⟨fun h => ⟨fun p j hm => h p j (.inl hm), fun p j hn => h p j (.inr hn)⟩,
      fun h p j hmn => hmn.elim (h.1 p j) (h.2 p j)⟩
  rcases hx v fun p j hm => hl p j (.inl hm) with ⟨hM, v', hv', hm⟩ | ⟨hM, e, v', hv'⟩
  · rw [bind_ok hv']
    rcases hy v' (hm.live fun p j hn => hl p j (.inr hn)) with
      ⟨hN, v'', hv'', hn⟩ | ⟨hN, e, v'', hv''⟩
    · exact .inl ⟨hbits.2 ⟨hM, hm.bitsIn_iff.1 hN⟩, v'', hv'', hm.trans hn⟩
    · exact .inr ⟨fun h => hN (hm.bitsIn_iff.2 (hbits.1 h).2), e, v'', hv''⟩
  · rw [bind_error hv']
    exact .inr ⟨fun h => hM (hbits.1 h).1, e, v', rfl⟩

theorem onChild {x : PutM Unit} {M : Slots} (i : ℕ) (h : ClearsBits x M) :
    ClearsBits (onChild i x) (M.child i) := by
  intro v hl
  have hbits : BitsIn (M.child i) v ↔ BitsIn M (v.child i) :=
    ⟨fun h p j hm => h (i :: p) j ⟨p, rfl, hm⟩, fun h p j ⟨q, hp, hm⟩ => hp ▸ h q j hm⟩
  rcases h (v.child i) fun p j hm => hl (i :: p) j ⟨p, rfl, hm⟩ with
    ⟨hM, c, hc, hm⟩ | ⟨hM, e, c, hc⟩
  · refine .inl ⟨hbits.2 hM, _, onChild_eq_ok.2 ⟨c, hc, rfl⟩, fun p => ?_⟩
    rcases p with _ | ⟨n, p⟩
    · exact ⟨_, rfl, fun j => by simp [Slots.child]⟩
    · by_cases hn : n = i
      · subst hn
        obtain ⟨b, hb, hv⟩ := hm p
        refine ⟨b, by simp only [setChild, ↓reduceIte, hb]; rfl, fun j => ?_⟩
        rw [hv]
        simp [Slots.child, PathTree.child]
      · exact ⟨(v (n :: p)).valid, by simp [setChild, hn], fun j => by simp [Slots.child, hn]⟩
  · exact .inr ⟨fun h => hM (hbits.1 h), e, _, onChild_eq_error.2 ⟨c, hc, rfl⟩⟩

theorem forRange {f : ℕ → PutM Unit} {M : ℕ → Slots} (h : ∀ e, ClearsBits (f e) (M e)) :
    ∀ n i, ClearsBits (forRange i n f) (fun p j => ∃ e < n, M (i + e) p j)
  | 0, i => pure.congr fun p j => by simp [Slots.none]
  | n + 1, i => ((h i).bind (forRange h n (i + 1))).congr fun p j => by
    constructor
    · rintro (hm | ⟨e, he, hm⟩)
      · exact ⟨0, by omega, hm⟩
      · exact ⟨e + 1, by omega, by rwa [show i + (e + 1) = i + 1 + e by omega]⟩
    · rintro ⟨e, he, hm⟩
      rcases e with _ | e
      · exact .inl hm
      · exact .inr ⟨e, by omega, by rwa [show i + 1 + e = i + (e + 1) by omega]⟩

end ClearsBits

/-! ## What `setNull` clears -/

theorem toInt_natCast_eq {n : ℕ} (h : n % 2 ^ 32 < 2 ^ 31) : toInt n = (n % 2 ^ 32 : ℕ) := by
  unfold toInt
  rw [Int.bmod_def]
  split <;> omega

theorem toInt_natCast_neg {n : ℕ} (h : ¬ n % 2 ^ 32 < 2 ^ 31) : toInt n < 0 := by
  unfold toInt
  rw [Int.bmod_def]
  split <;> omega

theorem slotOf_eq (w : ℕ) : slotOf w = w / 64 % 2 ^ 32 * 64 + w % 64 := by
  unfold slotOf; omega

theorem slotOf_of_lt {w : ℕ} (h : w < 2 ^ 38) : slotOf w = w := Nat.mod_eq_of_lt h

/-- Clearing one bit through a live buffer. -/
theorem marked_clearValid {v : Vec} (hl : v.root.Live) (k : ℕ) :
    Marked (.own k) v (v.setRoot (v.root.clearValid k)) := by
  intro p
  rcases p with _ | ⟨n, p⟩
  · refine ⟨fun i => if i = k then false else (v []).valid i, ?_, fun j => ?_⟩
    · exact if_pos hl.alloc
    · by_cases hj : j = k <;> simp [Slots.own, hj]
  · exact ⟨(v (n :: p)).valid, rfl, fun j => by simp [Slots.own]⟩

theorem bitsIn_own {v : Vec} {k : ℕ} :
    BitsIn (.own k) v ↔ k < (v.root.buf.cap + 63) / 64 * 64 :=
  ⟨fun h => h [] _ ⟨rfl, rfl⟩, fun h p j ⟨hp, hj⟩ => by subst hp hj; exact h⟩

theorem setNullOnVectorIdx_clears (w : ℕ) :
    ClearsBits (setNullOnVectorIdx w) (.own (slotOf w)) := by
  intro v hl
  have hlive : v.root.Live := hl [] _ ⟨rfl, rfl⟩
  have hcap := hlive.cap
  rw [bitsIn_own, slotOf_eq]
  have hdiv : (w : ℤ).tdiv 64 = (w / 64 : ℕ) := by
    rw [Int.tdiv_eq_ediv_of_nonneg (by omega)]; omega
  have hmod : ((w : ℤ).tmod 64 % 64).toNat = w % 64 := by
    rw [Int.tmod_eq_emod_of_nonneg (by omega)]; omega
  generalize hlim : (v.root.buf.cap + 63) / 64 = limit at *
  rw [setNullOnVectorIdx, getRoot_bind]
  simp only [require_bind, hlim, hdiv, hmod]
  by_cases hpos : w / 64 % 2 ^ 32 < 2 ^ 31
  · rw [toInt_natCast_eq hpos]
    by_cases hin : w / 64 % 2 ^ 32 < limit
    · rw [if_pos (by omega), if_pos (by omega)]
      exact .inl ⟨by omega, _, rfl, marked_clearValid hlive _⟩
    · refine .inr ⟨by omega, ?_⟩
      split
      · rw [if_neg (by omega)]; exact ⟨_, _, rfl⟩
      · exact ⟨_, _, rfl⟩
  · have hneg := toInt_natCast_neg hpos
    rw [if_neg (by omega)]
    exact .inr ⟨by omega, _, _, rfl⟩

theorem setNullOnArrayIdx_clears (a b k i : ℕ) :
    ClearsBits (setNullOnArrayIdx a b k i) (.own (slotOf (k * a * b + i))) := by
  have := setNullOnVectorIdx_clears (k * a * b + i)
  rw [setNullOnArrayIdx]
  exact_mod_cast this

theorem setNullOnElements_clears (a n k : ℕ) : ∀ (ts : List LogicalType) (i : ℕ),
    ClearsBits (setNullOnElements a n k i ts) fun p j =>
      ∃ m < ts.length, p = [i + m] ∧ ∃ e < n, j = slotOf (k * n * a + e)
  | [], i => ClearsBits.pure.congr fun p j => by simp [Slots.none]
  | _ :: ts, i => by
    rw [setNullOnElements]
    refine ((ClearsBits.onChild i (ClearsBits.forRange (fun e => setNullOnArrayIdx_clears n a k e)
      n 0)).bind (setNullOnElements_clears a n k ts (i + 1))).congr fun p j => ?_
    constructor
    · rintro (⟨q, rfl, e, he, rfl, rfl⟩ | ⟨m, hm, rfl, e, he, rfl⟩)
      · exact ⟨0, by simp, rfl, e, he, by simp⟩
      · exact ⟨m + 1, by simpa using hm, by congr 1; omega, e, he, rfl⟩
    · rintro ⟨m, hm, rfl, e, he, rfl⟩
      rcases m with _ | m
      · exact .inl ⟨[], rfl, e, he, rfl, by simp⟩
      · exact .inr ⟨m, by simpa using hm, by congr 1; omega, e, he, rfl⟩

mutual

/-- `setNull` clears `Marks`. -/
theorem setNullAt_clears : ∀ (t : LogicalType) (a b k : ℕ),
    ClearsBits (setNullAt a b t k) (Marks a b t k)
  | .node kind cs, a, b, k => by
    cases kind with
    | array n =>
      have h0 := setNullOnArrayIdx_clears a b k 0
      rw [Int.natCast_zero] at h0
      rw [setNullAt_array]
      refine (h0.bind (setNullOnElements_clears a n k cs 0)).congr fun p j => ?_
      cases p with
      | nil => simp [Slots.union, Slots.own, Marks]
      | cons i p =>
        simp only [Slots.union, Slots.own, Marks, reduceCtorEq, false_and, false_or, Nat.zero_add,
          List.cons.injEq, LogicalType.children_node, LogicalType.kind_node]
        constructor
        · rintro ⟨m, hm, ⟨rfl, rfl⟩, he⟩
          exact ⟨cs[i], List.getElem?_eq_getElem hm, rfl, he⟩
        · rintro ⟨u, hu, rfl, he⟩
          exact ⟨i, (List.getElem?_eq_some_iff.1 hu).1, ⟨rfl, rfl⟩, he⟩
    | list | map =>
      rw [setNullAt_listOrMap rfl]
      refine (setNullOnVectorIdx_clears k).congr fun p j => ?_
      cases p <;> simp [Slots.own, Marks]
    | scalar _ _ | decimal _ _ _ | enum _ _ | struct _ | union _ | unlisted _ =>
      rw [setNullAt_sharesSlots rfl]
      refine ((setNullOnVectorIdx_clears k).bind (setNullChildren_clears cs a k 0)).congr
        fun p j => ?_
      cases p with
      | nil => simp [Slots.union, Slots.own, Marks]
      | cons i p =>
        simp only [Slots.union, Slots.own, Marks, reduceCtorEq, false_and, false_or, Nat.zero_add,
          List.cons.injEq, LogicalType.children_node, LogicalType.kind_node]
        constructor
        · rintro ⟨m, u, q, hu, ⟨rfl, rfl⟩, hm⟩; exact ⟨u, hu, hm⟩
        · rintro ⟨u, hu, hm⟩; exact ⟨i, u, p, hu, ⟨rfl, rfl⟩, hm⟩

theorem setNullChildren_clears : ∀ (ts : List LogicalType) (a k i : ℕ),
    ClearsBits (setNullChildren a k i ts) fun p j =>
      ∃ m u q, ts[m]? = some u ∧ p = (i + m) :: q ∧ Marks 1 a u k q j
  | [], a, k, i => ClearsBits.pure.congr fun p j => by simp [Slots.none]
  | t :: ts, a, k, i => by
    rw [setNullChildren]
    refine ((ClearsBits.onChild i (setNullAt_clears t 1 a k)).bind
      (setNullChildren_clears ts a k (i + 1))).congr fun p j => ?_
    constructor
    · rintro (⟨q, rfl, hm⟩ | ⟨m, u, q, hu, rfl, hm⟩)
      · exact ⟨0, t, q, rfl, rfl, hm⟩
      · exact ⟨m + 1, u, q, hu, by congr 1; omega, hm⟩
    · rintro ⟨m, u, q, hu, rfl, hm⟩
      rcases m with _ | m
      · cases hu; exact .inl ⟨q, rfl, hm⟩
      · exact .inr ⟨m, u, q, hu, by congr 1; omega, hm⟩

end

/-! ## When that is what `setNull` should clear -/

/-- No slots below: not `STRUCT`, `UNION` or `ARRAY`. -/
def TypeKind.isFlat : TypeKind → Bool
  | .struct _ | .union _ | .array _ => false
  | _ => true

mutual

/-- Every `ARRAY` that is marked has its own slot and those of its elements in the right place, and
    nothing below its elements. -/
def NullExact (arraySize parentArraySize k : ℕ) : LogicalType → Prop
  | .node kind cs =>
    match kind with
    | .array n => slotOf (k * arraySize * parentArraySize) = k ∧
        slotOf (k * n * arraySize) = k * n ∧ ∀ u ∈ cs, u.kind.isFlat
    | .list | .map => True
    | _ => NullExactChildren arraySize k cs

def NullExactChildren (arraySize k : ℕ) : List LogicalType → Prop
  | [] => True
  | t :: ts => NullExact 1 arraySize k t ∧ NullExactChildren arraySize k ts

end

theorem nullExactChildren_iff {a k : ℕ} : ∀ {ts : List LogicalType},
    NullExactChildren a k ts ↔ ∀ t ∈ ts, NullExact 1 a k t
  | [] => by simp [NullExactChildren]
  | t :: ts => by simp [NullExactChildren, nullExactChildren_iff]

/-- Every slot below slot `k` is within the range of a Java buffer. -/
def Legal (t : LogicalType) (k : ℕ) : Prop := ∀ p j, Covers t k p j → j < 2 ^ 34 - 1

/-- The bits cleared are those below the slot. -/
def Exact (a b : ℕ) (t : LogicalType) (k : ℕ) : Prop := ∀ p j, Marks a b t k p j ↔ Covers t k p j

/-- Two runs of consecutive slots, one of them after the cast. -/
theorem shifted_run_iff {s t n : ℕ} (hn : 0 < n) (ht : t + n ≤ 2 ^ 35) :
    (∀ j, (∃ e < n, j = slotOf (s + e)) ↔ ∃ e < n, j = t + e) ↔ slotOf s = t := by
  simp only [slotOf]
  constructor
  · intro h
    obtain ⟨e₁, he₁, h₁⟩ := (h (s % 2 ^ 38)).1 ⟨0, hn, rfl⟩
    obtain ⟨e₂, he₂, h₂⟩ := (h ((s + (n - 1)) % 2 ^ 38)).1 ⟨n - 1, by omega, rfl⟩
    omega
  · rintro rfl j
    constructor
    · rintro ⟨e, he, rfl⟩; exact ⟨e, he, by omega⟩
    · rintro ⟨e, he, rfl⟩; exact ⟨e, he, by omega⟩

theorem covers_self (t : LogicalType) (k : ℕ) : Covers t k [] k := rfl

theorem LogicalType.Wf.exists_child {t : LogicalType} (h : t.Wf) (hf : t.kind.isFlat = false) :
    ∃ u, t.children[0]? = some u := by
  obtain ⟨kind, cs⟩ := t
  have hs := h.shape
  cases kind with
  | struct ns =>
    obtain ⟨u, us, hcs⟩ := List.exists_cons_of_ne_nil hs.1
    exact ⟨u, by rw [hcs]; rfl⟩
  | union ns =>
    obtain ⟨⟨u, us, hcs⟩, _⟩ := hs
    exact ⟨_, by rw [hcs]; rfl⟩
  | array n =>
    obtain ⟨_, u, hcs⟩ := hs
    exact ⟨u, by rw [hcs]; rfl⟩
  | _ => cases hf

/-- A type with slots below has one in its first child. -/
theorem covers_first {t : LogicalType} (h : t.Wf) (hf : t.kind.isFlat = false) (k : ℕ) :
    ∃ j, Covers t k [0] j := by
  obtain ⟨u, hu⟩ := h.exists_child hf
  obtain ⟨kind, cs⟩ := t
  cases kind with
  | struct ns | union ns => exact ⟨k, u, hu, covers_self u k⟩
  | array n =>
    have hn : 0 < n := h.shape.1
    exact ⟨k * n + 0, u, hu, 0, hn, covers_self u _⟩
  | _ => cases hf

theorem not_covers_of_flat {t : LogicalType} (h : t.Wf) (hf : t.kind.isFlat = true) {k i j : ℕ}
    {p : List ℕ} : ¬ Covers t k (i :: p) j := by
  rintro ⟨u, hu, hc⟩
  obtain ⟨kind, cs⟩ := t
  have hs := h.shape
  cases kind with
  | list | map => exact hc
  | scalar | decimal _ _ _ | enum _ _ | unlisted _ =>
    have hcs : cs = [] := by first | exact hs | exact hs.1
    subst hcs; simp at hu
  | _ => cases hf

theorem exact_array {a b k n : ℕ} {u : LogicalType} (h : (LogicalType.node (.array n) [u]).Wf)
    (hl : Legal (.node (.array n) [u]) k) :
    Exact a b (.node (.array n) [u]) k ↔
      slotOf (k * a * b) = k ∧ slotOf (k * n * a) = k * n ∧ u.kind.isFlat = true := by
  have hn : 0 < n := h.shape.1
  have hu : u.Wf := h.child (List.mem_singleton.2 rfl)
  have hfit : k * n + n ≤ 2 ^ 35 := by
    have := hl [0] (k * n + (n - 1)) ⟨u, rfl, n - 1, by omega, covers_self u _⟩
    have := hl [0] (k * n + 0) ⟨u, rfl, 0, hn, covers_self u _⟩
    omega
  have hown : (∀ j, Marks a b (.node (.array n) [u]) k [] j ↔
      Covers (.node (.array n) [u]) k [] j) ↔ slotOf (k * a * b) = k := by
    simp only [Marks, Covers, LogicalType.kind_node]
    exact ⟨fun h => (h _).1 rfl, fun h j => by rw [h]⟩
  have hfirst : (∀ j, Marks a b (.node (.array n) [u]) k [0] j ↔
      Covers (.node (.array n) [u]) k [0] j) ↔ slotOf (k * n * a) = k * n := by
    rw [← shifted_run_iff hn hfit]
    simp [Marks, Covers]
  constructor
  · intro hx
    refine ⟨hown.1 (hx []), hfirst.1 (hx [0]), ?_⟩
    by_contra hf
    obtain ⟨j, hj⟩ := covers_first hu (by simpa using hf) (k * n + 0)
    obtain ⟨_, _, hm⟩ := (hx [0, 0] j).2 ⟨u, rfl, 0, hn, hj⟩
    cases hm.1
  · rintro ⟨h1, h2, h3⟩ p j
    rcases p with _ | ⟨i, p⟩
    · exact hown.2 h1 j
    · rcases i with _ | i
      · rcases p with _ | ⟨i, p⟩
        · exact hfirst.2 h2 j
        · constructor
          · rintro ⟨_, _, hm⟩; cases hm.1
          · rintro ⟨u', hu', e, _, hc⟩
            cases hu'
            exact absurd hc (not_covers_of_flat hu h3)
      · constructor <;> rintro ⟨_, hu', _⟩ <;> simp at hu'

theorem covers_cons_shared {kind : TypeKind} (hs : kind.sharesSlots = true) {cs : List LogicalType}
    {k i j : ℕ} {p : List ℕ} :
    Covers (.node kind cs) k (i :: p) j ↔ ∃ u, cs[i]? = some u ∧ Covers u k p j :=
  match kind, hs with
  | .scalar .., _ | .decimal .., _ | .enum .., _ | .struct _, _ | .union _, _ | .unlisted _, _ =>
    Iff.rfl

theorem marks_nil_shared {kind : TypeKind} (hs : kind.sharesSlots = true) {cs : List LogicalType}
    {a b k j : ℕ} : Marks a b (.node kind cs) k [] j ↔ j = slotOf k :=
  match kind, hs with
  | .scalar .., _ | .decimal .., _ | .enum .., _ | .struct _, _ | .union _, _ | .unlisted _, _ =>
    Iff.rfl

theorem marks_cons_shared {kind : TypeKind} (hs : kind.sharesSlots = true) {cs : List LogicalType}
    {a b k i j : ℕ} {p : List ℕ} :
    Marks a b (.node kind cs) k (i :: p) j ↔ ∃ u, cs[i]? = some u ∧ Marks 1 a u k p j :=
  match kind, hs with
  | .scalar .., _ | .decimal .., _ | .enum .., _ | .struct _, _ | .union _, _ | .unlisted _, _ =>
    Iff.rfl

/-- Where the children share the slots of their parent, exactness is that of the children. -/
theorem exact_shared {kind : TypeKind} (hs : kind.sharesSlots = true) {cs : List LogicalType}
    {a b k : ℕ} (hk : slotOf k = k) :
    Exact a b (.node kind cs) k ↔ ∀ u ∈ cs, Exact 1 a u k := by
  constructor
  · intro hx u hu p j
    obtain ⟨i, hi, rfl⟩ := List.mem_iff_getElem.1 hu
    have := hx (i :: p) j
    rw [marks_cons_shared hs, covers_cons_shared hs, List.getElem?_eq_getElem hi] at this
    simpa using this
  · intro hx p j
    rcases p with _ | ⟨i, p⟩
    · rw [marks_nil_shared hs, hk]; exact Iff.rfl
    · rw [marks_cons_shared hs, covers_cons_shared hs]
      exact exists_congr fun u => and_congr_right fun hu => hx u (List.mem_of_getElem? hu) p j

/-- `setNull` clears exactly the bits below the slot if and only if `NullExact`. -/
theorem exact_iff {t : LogicalType} (h : t.Wf) : ∀ {a b k : ℕ}, Legal t k →
    (Exact a b t k ↔ NullExact a b k t) := by
  induction t using LogicalType.ind with
  | h kind cs ih =>
    intro a b k hl
    have hk : slotOf k = k := slotOf_of_lt (lt_trans (hl [] k rfl) (by decide))
    have hchildren : kind.sharesSlots = true → ∀ u ∈ cs, Legal u k := by
      intro hs u hu p j hc
      obtain ⟨i, hi, rfl⟩ := List.mem_iff_getElem.1 hu
      exact hl (i :: p) j ((covers_cons_shared hs).2 ⟨_, List.getElem?_eq_getElem hi, hc⟩)
    cases kind with
    | array n =>
      obtain ⟨_, u, hcs⟩ := h.shape
      subst hcs
      rw [exact_array h hl]
      simp [NullExact]
    | list | map =>
      simp only [NullExact, iff_true]
      intro p j
      rcases p with _ | ⟨i, p⟩
      · simp [Marks, Covers, hk]
      · simp [Marks, Covers]
    | scalar _ _ | decimal _ _ _ | enum _ _ | struct _ | union _ | unlisted _ =>
      rw [exact_shared rfl hk]
      simp only [NullExact]
      rw [nullExactChildren_iff]
      exact forall₂_congr fun u hu => ih u hu (h.child hu) (hchildren rfl u hu)

/-! ## On the chunk -/

/-- Live buffers that hold the slots in `M`. -/
def InRange (M : Slots) (v : Vec) : Prop := ∀ p j, M p j → (v p).Live ∧ j < (v p).buf.cap

/-- Run on the vector of `col` in any chunk whose buffers hold the slots below slot `k`, `x` returns
    normally and clears the validity bits of these slots and no other bit of the chunk. -/
def ClearsExactly (x : PutM Unit) (col : Column) (k : ℕ) : Prop :=
  ∀ chunk : Vec, InRange (Covers col.type k) (chunk.sub col.path) →
    ∃ chunk', onPath col.path x chunk = .ok () chunk' ∧
      ∀ q j, (chunk' q).valid j = true ↔
        (chunk q).valid j = true ∧ ¬ ∃ p, q = col.path.reverse ++ p ∧ Covers col.type k p j

/-- A vector with every bit set and live buffers of the largest size. -/
def wideVector : Vec := fun _ =>
  { valid := fun _ => true, data := fun _ => none, size := 0, alloc := 0, listSize := 0,
    buf := ⟨0, 2 ^ 34 - 1, 0⟩ }

theorem clearsExactly_iff {x : PutM Unit} {M : Slots} {col : Column} {k : ℕ} (hx : ClearsBits x M)
    (hM : ∀ p j, M p j → ∃ j', Covers col.type k p j') (hl : Legal col.type k) :
    ClearsExactly x col k ↔ ∀ p j, M p j ↔ Covers col.type k p j := by
  constructor
  · intro h p j
    have hwide : InRange (Covers col.type k) (wideVector.sub col.path) := fun p j hc => by
      rw [sub_apply]
      exact ⟨⟨rfl, by simp [wideVector]⟩, hl p j hc⟩
    obtain ⟨chunk', hok, hv⟩ := h wideVector hwide
    obtain ⟨c, hc, rfl⟩ := onPath_eq_ok.1 hok
    have hlive : LiveOn M (wideVector.sub col.path) := fun p j hm => by
      obtain ⟨j', hj'⟩ := hM p j hm
      exact (hwide p j' hj').1
    rcases hx _ hlive with ⟨_, c', hc', hm⟩ | ⟨_, e, c', hc'⟩
    · rw [hc] at hc'; cases hc'
      have h1 := hm.valid p j
      have h2 := hv (col.path.reverse ++ p) j
      rw [setSub_apply] at h2
      rw [sub_apply] at h1
      have h3 : (∃ p', col.path.reverse ++ p = col.path.reverse ++ p' ∧ Covers col.type k p' j) ↔
          Covers col.type k p j :=
        ⟨fun ⟨p', hp, hc⟩ => (List.append_cancel_left hp) ▸ hc, fun hc => ⟨p, rfl, hc⟩⟩
      rw [h3] at h2
      have h4 : (wideVector (col.path.reverse ++ p)).valid j = true := rfl
      rw [h1] at h2
      simp only [h4, true_and] at h2
      exact not_iff_not.1 h2
    · rw [hc] at hc'; cases hc'
  · intro h chunk hr
    have hMr : InRange M (chunk.sub col.path) := fun p j hm => hr p j ((h p j).1 hm)
    rcases hx _ fun p j hm => (hMr p j hm).1 with ⟨_, c, hc, hm⟩ | ⟨hb, _⟩
    · refine ⟨_, onPath_eq_ok.2 ⟨c, hc, rfl⟩, fun q j => ?_⟩
      by_cases hq : col.path.reverse <+: q
      · obtain ⟨p, rfl⟩ := hq
        rw [setSub_apply, hm.valid, h, sub_apply]
        refine and_congr_right fun _ => not_congr ⟨fun hc => ⟨p, rfl, hc⟩, ?_⟩
        rintro ⟨p', hp, hc⟩
        exact (List.append_cancel_left hp) ▸ hc
      · rw [setSub_apply_of_not _ _ hq]
        refine ⟨fun hv => ⟨hv, ?_⟩, And.left⟩
        rintro ⟨p, rfl, _⟩
        exact hq ⟨p, rfl⟩
    · refine absurd (fun p j hm => ?_) hb
      have := (hMr p j hm).2
      omega

/-- What is marked is on the paths of what is covered. -/
theorem marks_path {t : LogicalType} {a b k j : ℕ} {p : List ℕ} (h : Marks a b t k p j) :
    ∃ j', Covers t k p j' := by
  induction p generalizing t a b j with
  | nil => exact ⟨k, rfl⟩
  | cons i p ih =>
    obtain ⟨kind, cs⟩ := t
    cases hs : kind.sharesSlots with
    | true =>
      rw [marks_cons_shared hs] at h
      obtain ⟨u, hu, hm⟩ := h
      obtain ⟨j', hj'⟩ := ih hm
      exact ⟨j', (covers_cons_shared hs).2 ⟨u, hu, hj'⟩⟩
    | false =>
      cases kind with
      | array n =>
        obtain ⟨u, hu, rfl, e, he, _⟩ := h
        exact ⟨_, u, hu, e, he, covers_self u _⟩
      | list | map => obtain ⟨_, _, hf⟩ := h; exact hf.elim
      | _ => cases hs

theorem setNull_clearsExactly_iff {col : Column} (hw : col.type.Wf) {k : ℕ}
    (hl : Legal col.type k) : ClearsExactly (col.setNull k) col k ↔
      NullExact col.arraySize col.parentArraySize k col.type :=
  (clearsExactly_iff (setNullAt_clears col.type _ _ k) (fun _ _ => marks_path) hl).trans
    (exact_iff hw hl)

theorem setNullOnArrayIdx_clearsExactly_iff {col : Column} (hw : col.type.Wf) {k i j : ℕ}
    (hl : Legal col.type j) : ClearsExactly (col.setNullOnArrayIdx k i) col j ↔
      slotOf (k * col.arraySize * col.parentArraySize + i) = j ∧ col.kind.isFlat = true := by
  refine (clearsExactly_iff (setNullOnArrayIdx_clears col.arraySize col.parentArraySize k i)
    (fun p _ hm => ⟨j, by rw [hm.1]; exact covers_self _ _⟩) hl).trans ⟨fun h => ⟨?_, ?_⟩, ?_⟩
  · exact (h [] _).1 ⟨rfl, rfl⟩
  · by_contra hf
    obtain ⟨j', hj'⟩ := covers_first hw (by simpa [Column.kind] using hf) j
    cases ((h [0] j').2 hj').1
  · rintro ⟨h, hf⟩ p j'
    rcases p with _ | ⟨n, p⟩
    · simp [Slots.own, Covers, h]
    · exact iff_of_false (fun hm => by cases hm.1) (not_covers_of_flat hw hf)

/-- The element `i` of the inner array `p` of a two-dimensional array in slot `k` is always in its
    place. -/
theorem setNullOnArrayIdx_inner_iff {col : Column} (hw : col.type.Wf) {k p i : ℕ}
    (hl : Legal col.type ((k * col.parentArraySize + p) * col.arraySize + i)) :
    ClearsExactly (col.setNullOnArrayIdx k (i + col.arraySize * p : ℕ)) col
      ((k * col.parentArraySize + p) * col.arraySize + i) ↔ col.kind.isFlat = true := by
  have hslot : k * col.arraySize * col.parentArraySize + (i + col.arraySize * p) =
      (k * col.parentArraySize + p) * col.arraySize + i := by ring
  rw [setNullOnArrayIdx_clearsExactly_iff hw hl, hslot,
    slotOf_of_lt (lt_trans (hl [] _ (covers_self _ _)) (by decide))]
  exact and_iff_right rfl

/-- **NULL marking is exact if and only if every `ARRAY` it marks is in its place**: for `setNull`,
    `NullExact`; for an element of an array marked by its index, the index after the cast is the
    element's slot and nothing lies below the element; for an element of an inner array, only
    the latter. -/
theorem null_marks_exact_iff {col : Column} (hw : col.type.Wf) :
    (∀ k, Legal col.type k → (ClearsExactly (col.setNull k) col k ↔
      NullExact col.arraySize col.parentArraySize k col.type)) ∧
    (∀ k i : ℕ, Legal col.type (k * col.arraySize + i) →
      (ClearsExactly (col.setNullOnArrayIdx k i) col (k * col.arraySize + i) ↔
        slotOf (k * col.arraySize * col.parentArraySize + i) = k * col.arraySize + i ∧
          col.kind.isFlat = true)) ∧
    (∀ k p i : ℕ, Legal col.type ((k * col.parentArraySize + p) * col.arraySize + i) →
      (ClearsExactly (col.setNullOnArrayIdx k (i + col.arraySize * p : ℕ)) col
        ((k * col.parentArraySize + p) * col.arraySize + i) ↔ col.kind.isFlat = true)) :=
  ⟨fun _ => setNull_clearsExactly_iff hw, fun _ _ => setNullOnArrayIdx_clearsExactly_iff hw,
    fun _ _ _ => setNullOnArrayIdx_inner_iff hw⟩

theorem covers_arrayOf_integer {n k j : ℕ} {p : List ℕ}
    (h : Covers (.arrayOf n .integer) k p j) : j = k ∨ j < k * n + n := by
  rcases p with _ | ⟨i, p⟩
  · exact .inl h
  · obtain ⟨u, hu, e, he, hc⟩ := h
    obtain ⟨rfl, rfl⟩ : i = 0 ∧ u = .integer := by
      rcases i with _ | i
      · exact ⟨rfl, (Option.some.inj hu).symm⟩
      · cases hu
    rcases p with _ | ⟨i, p⟩
    · cases hc; omega
    · exact absurd hc (not_covers_of_flat LogicalType.integer_wf rfl)

theorem legal_arrayOf_integer {n k : ℕ} (hk : k < 2 ^ 34 - 1) (h : k * n + n < 2 ^ 34) :
    Legal (.arrayOf n .integer) k := fun p j hc => by
  rcases covers_arrayOf_integer hc with hj | hj <;> omega

theorem null_marks_exact_iff_array :
    ClearsExactly ((Column.top 0 (.arrayOf 2 .integer)).setNull 3)
        (.top 0 (.arrayOf 2 .integer)) 3 ↔
      NullExact 1 1 3 (.arrayOf 2 .integer) :=
  (@null_marks_exact_iff (.top 0 (.arrayOf 2 .integer))
    (LogicalType.arrayOf_wf (by decide) LogicalType.integer_wf)).1 3
    (legal_arrayOf_integer (by decide) (by decide))

/-- The inner arrays of `ARRAY(ARRAY(INTEGER, 2), 2)`: the mark of the second goes to the third. -/
theorem setNull_inner_array : ¬ ∀ (col : Column) (k : ℕ), col.type.Wf → Legal col.type k →
    ClearsExactly (col.setNull k) col k := by
  intro h
  let inner : LogicalType := .arrayOf 2 .integer
  have hw : inner.Wf := LogicalType.arrayOf_wf (by decide) LogicalType.integer_wf
  have hl : Legal inner 1 := legal_arrayOf_integer (by decide) (by decide)
  let col : Column := .child (.top 0 (.arrayOf 2 inner)) 0 inner
  have := (@setNull_clearsExactly_iff col hw 1 hl).1 (h col 1 hw hl)
  exact absurd this.1 (by decide)

end DuckDBJava
