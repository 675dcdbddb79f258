/-
  Sources of items that are read in blocks.

  `read len` takes up to `len` of the items that are left, at least one while there are any, and
  answers `none` at the end; how many it takes is left open.  `drain` reads blocks until the end:
  `Holds.drain` shows that it comes to the end and collects what the source holds.
-/
import DuckDBJava.Lib.Exec

namespace Sources

open Exec

variable {ε ε' σ α : Type}

/-- Something to read items of `α` from, with the state `σ`. -/
structure Source (ε σ α : Type) where
  /-- up to so many items; `none` at the end -/
  read : ℕ → M ε σ (Option (List α))
  readOne : M ε σ (Option α)

/-- Read blocks of up to `len` items until the end, after those in `out`; `none` when the steps do
    not suffice. -/
def drain (src : Source ε σ α) (len : ℕ) : ℕ → List α → M ε σ (Option (List α))
  | 0, _ => pure none
  | steps + 1, out => do
    match ← src.read len with
    | none => return some out
    | some chunk => drain src len steps (out ++ chunk)

/-- The exceptions of a computation as others. -/
def rethrow (f : ε → ε') (x : M ε σ α) : M ε' σ α := fun s =>
  match x s with
  | .ok a t => .ok a t
  | .error e t => .error (f e) t

/-- A computation on the first of two states. -/
def onFst {τ : Type} (x : M ε σ α) : M ε (σ × τ) α := fun s =>
  match x s.1 with
  | .ok a t => .ok a (t, s.2)
  | .error e t => .error e (t, s.2)

theorem onFst_ok {τ : Type} {x : M ε σ α} {s t : σ} {a : α} (h : x s = .ok a t) (n : τ) :
    onFst x (s, n) = .ok a (t, n) := by
  rw [onFst, h]

/-- A length of a block: that of a Java array that is not empty. -/
def IsLength (len : ℕ) : Prop := 0 < len ∧ len < 2 ^ 31

/-- In the states that satisfy `I`, the source gives `content`, item by item or in blocks. -/
structure Source.Holds (src : Source ε σ α) (I : σ → Prop) (content : σ → List α) : Prop where
  atEnd : ∀ {s len}, I s → content s = [] → IsLength len →
    ∃ t, src.read len s = .ok none t ∧ I t ∧ content t = []
  block : ∀ {s len}, I s → content s ≠ [] → IsLength len →
    ∃ chunk t, src.read len s = .ok (some chunk) t ∧ I t ∧ chunk ≠ [] ∧ chunk.length ≤ len ∧
      content s = chunk ++ content t
  oneAtEnd : ∀ {s}, I s → content s = [] →
    ∃ t, src.readOne s = .ok none t ∧ I t ∧ content t = []
  one : ∀ {s a l}, I s → content s = a :: l →
    ∃ t, src.readOne s = .ok (some a) t ∧ I t ∧ content t = l

namespace Source.Holds

variable {src : Source ε σ α} {I : σ → Prop} {content : σ → List α}

/-- The loop ends after as many blocks as there are items, at the latest. -/
theorem drain (h : src.Holds I content) {len : ℕ} (hlen : IsLength len) :
    ∀ (steps : ℕ) {s : σ} (out : List α), I s → (content s).length < steps →
      ∃ t, Sources.drain src len steps out s = .ok (some (out ++ content s)) t ∧ I t ∧
        content t = []
  | 0, _, _, _, hsteps => absurd hsteps (Nat.not_lt_zero _)
  | steps + 1, s, out, hs, hsteps => by
    rw [Sources.drain]
    by_cases hend : content s = []
    · obtain ⟨t, hread, ht, hcontent⟩ := h.atEnd hs hend hlen
      refine ⟨t, ?_, ht, hcontent⟩
      rw [bind_ok hread, hend, List.append_nil]
      rfl
    · obtain ⟨chunk, t, hread, ht, hne, -, hcontent⟩ := h.block hs hend hlen
      have hpos := List.length_pos_iff.2 hne
      have hlength := congrArg List.length hcontent
      rw [List.length_append] at hlength
      obtain ⟨u, hu, hIu, hnil⟩ := h.drain hlen steps (out ++ chunk) ht (by omega)
      refine ⟨u, ?_, hIu, hnil⟩
      rw [bind_ok hread, hcontent, ← List.append_assoc]
      exact hu

/-- However many blocks are read, the source stays in its states. -/
theorem drain_final (h : src.Holds I content) {len : ℕ} (hlen : IsLength len) :
    ∀ (steps : ℕ) {s : σ} (out : List α), I s → I (final (Sources.drain src len steps out s))
  | 0, _, _, hs => hs
  | steps + 1, s, out, hs => by
    rw [Sources.drain]
    by_cases hend : content s = []
    · obtain ⟨t, hread, ht, -⟩ := h.atEnd hs hend hlen
      rw [bind_ok hread]
      exact ht
    · obtain ⟨chunk, t, hread, ht, -⟩ := h.block hs hend hlen
      rw [bind_ok hread]
      exact h.drain_final hlen steps (out ++ chunk) ht

/-- What is left is the end of what there was. -/
theorem suffix (h : src.Holds I content) (all : List α) :
    src.Holds (fun s => I s ∧ content s <:+ all) content where
  atEnd hs hend hlen := by
    obtain ⟨t, hread, ht, hcontent⟩ := h.atEnd hs.1 hend hlen
    exact ⟨t, hread, ⟨ht, hcontent ▸ List.nil_suffix⟩, hcontent⟩
  block hs hend hlen := by
    obtain ⟨chunk, t, hread, ht, hne, hle, hcontent⟩ := h.block hs.1 hend hlen
    have hrest : content t <:+ content _ := ⟨chunk, hcontent.symm⟩
    exact ⟨chunk, t, hread, ⟨ht, hrest.trans hs.2⟩, hne, hle, hcontent⟩
  oneAtEnd hs hend := by
    obtain ⟨t, hread, ht, hcontent⟩ := h.oneAtEnd hs.1 hend
    exact ⟨t, hread, ⟨ht, hcontent ▸ List.nil_suffix⟩, hcontent⟩
  one hs hcons := by
    obtain ⟨t, hread, ht, hcontent⟩ := h.one hs.1 hcons
    have hrest : content t <:+ content _ := ⟨[_], by rw [hcons, hcontent]; rfl⟩
    exact ⟨t, hread, ⟨ht, hrest.trans hs.2⟩, hcontent⟩

end Source.Holds

theorem final_rethrow (f : ε → ε') (x : M ε σ α) (s : σ) :
    final (rethrow f x s) = final (x s) := by
  unfold rethrow
  cases x s <;> rfl

theorem rethrow_ok {f : ε → ε'} {x : M ε σ α} {s t : σ} {a : α} (h : x s = .ok a t) :
    rethrow f x s = .ok a t := by
  rw [rethrow, h]

/-- A source of the items of a list, which come in blocks of up to `n`. -/
def ofList (ε α : Type) (n : ℕ) : Source ε (List α) α where
  read len := do
    match ← get with
    | [] => return none
    | a :: l => do
      set ((a :: l).drop (min len (n + 1)))
      return some ((a :: l).take (min len (n + 1)))
  readOne := do
    match ← get with
    | [] => return none
    | a :: l => do
      set l
      return some a

theorem ofList_holds (ε α : Type) (n : ℕ) : (ofList ε α n).Holds (fun _ => True) id where
  atEnd := by
    rintro s len - hend -
    obtain rfl : s = [] := hend
    exact ⟨[], rfl, trivial, rfl⟩
  block := by
    rintro s len - hsome hlen
    cases s with
    | nil => exact absurd rfl hsome
    | cons a l =>
      have hpos := hlen.1
      refine ⟨_, _, rfl, trivial, ?_, ?_, (List.take_append_drop _ _).symm⟩
      · rw [ne_eq, List.take_eq_nil_iff, not_or]
        exact ⟨by omega, List.cons_ne_nil _ _⟩
      · rw [List.length_take]
        omega
  oneAtEnd := by
    rintro s - hend
    obtain rfl : s = [] := hend
    exact ⟨[], rfl, trivial, rfl⟩
  one := by
    rintro s a l - hcons
    obtain rfl : s = a :: l := hcons
    exact ⟨l, rfl, trivial, rfl⟩

end Sources
