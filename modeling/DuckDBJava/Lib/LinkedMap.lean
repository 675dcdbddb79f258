/-
  Maps in insertion order, as lists of entries, over any equality test of keys.

  `put` replaces the value of the first key that the new key equals, or appends an entry.  Entries
  put one after the other leave each key once, in the order of its first occurrence and with the
  last value put for it (`ofEntries_eq_lastWins`).
-/
import Mathlib.Algebra.Order.Ring.Int
import Mathlib.Tactic.Common

namespace LinkedMap

variable {κ ν : Type} (eq : κ → κ → Bool)

/-- Put a value for a key; `eq k k'` compares the new key `k` with a key `k'` of the map. -/
def put : List (κ × ν) → κ → ν → List (κ × ν)
  | [], k, v => [(k, v)]
  | (k', v') :: m, k, v => if eq k k' then (k', v) :: m else (k', v') :: put m k v

/-- Put entries into a map, in order. -/
def putAll (m : List (κ × ν)) (es : List (κ × ν)) : List (κ × ν) :=
  es.foldl (fun m e => put eq m e.1 e.2) m

/-- The map that the entries make. -/
def ofEntries (es : List (κ × ν)) : List (κ × ν) := putAll eq [] es

/-- The entries whose keys equal `k`. -/
def matching (k : κ) (es : List (κ × ν)) : List (κ × ν) := es.filter fun e => eq e.1 k

/-- The other entries. -/
def others (k : κ) (es : List (κ × ν)) : List (κ × ν) := es.filter fun e => !eq e.1 k

/-- The value of the last entry whose key equals `k`, or `v`. -/
def lastValue (k : κ) (v : ν) (es : List (κ × ν)) : ν :=
  ((matching eq k es).getLast?.map Prod.snd).getD v

/-- Each key once, at its first occurrence, with the last value of the keys that equal it. -/
def lastWins : List (κ × ν) → List (κ × ν)
  | [] => []
  | (k, v) :: es => (k, lastValue eq k v es) :: lastWins (others eq k es)
termination_by es => es.length
decreasing_by exact Nat.lt_succ_of_le (List.length_filter_le _ _)

variable {eq}

theorem matching_cons (k : κ) (e : κ × ν) (es : List (κ × ν)) :
    matching eq k (e :: es) = if eq e.1 k then e :: matching eq k es else matching eq k es :=
  List.filter_cons

theorem others_cons (k : κ) (e : κ × ν) (es : List (κ × ν)) :
    others eq k (e :: es) = if eq e.1 k then others eq k es else e :: others eq k es := by
  unfold others
  rw [List.filter_cons]
  cases eq e.1 k <;> rfl

theorem lastValue_cons (k : κ) (v : ν) (e : κ × ν) (es : List (κ × ν)) :
    lastValue eq k v (e :: es) = lastValue eq k (if eq e.1 k then e.2 else v) es := by
  unfold lastValue
  rw [matching_cons]
  split
  · rw [List.getLast?_cons]
    cases (matching eq k es).getLast? <;> rfl
  · rfl

/-- What is put for the first key stays in the first entry; the rest goes past it. -/
theorem putAll_cons (k : κ) (v : ν) (m es : List (κ × ν)) :
    putAll eq ((k, v) :: m) es = (k, lastValue eq k v es) :: putAll eq m (others eq k es) := by
  induction es generalizing v m with
  | nil => rfl
  | cons e es ih =>
    show putAll eq (put eq ((k, v) :: m) e.1 e.2) es = _
    rw [lastValue_cons, others_cons, put]
    by_cases h : eq e.1 k = true
    · simp only [if_pos h]
      exact ih e.2 m
    · simp only [if_neg h]
      exact ih v (put eq m e.1 e.2)

theorem ofEntries_eq_lastWins : ∀ es : List (κ × ν), ofEntries eq es = lastWins eq es
  | [] => by rw [lastWins]; rfl
  | (k, v) :: es => by
    rw [lastWins, ← ofEntries_eq_lastWins (others eq k es)]
    exact putAll_cons k v [] es
termination_by es => es.length
decreasing_by exact Nat.lt_succ_of_le (List.length_filter_le _ _)

/-! ## Keys and values of a kind -/

section
variable {P : κ → Prop} {Q : ν → Prop} {m es : List (κ × ν)} {k : κ} {v : ν}

theorem forall_put (hm : ∀ e ∈ m, P e.1 ∧ Q e.2) (hk : P k) (hv : Q v) :
    ∀ e ∈ put eq m k v, P e.1 ∧ Q e.2 := by
  induction m with
  | nil => exact List.forall_mem_singleton.2 ⟨hk, hv⟩
  | cons e m ih =>
    obtain ⟨he, hm⟩ := List.forall_mem_cons.1 hm
    unfold put
    split
    · exact List.forall_mem_cons.2 ⟨⟨he.1, hv⟩, hm⟩
    · exact List.forall_mem_cons.2 ⟨he, ih hm⟩

theorem forall_putAll (hm : ∀ e ∈ m, P e.1 ∧ Q e.2) (hes : ∀ e ∈ es, P e.1 ∧ Q e.2) :
    ∀ e ∈ putAll eq m es, P e.1 ∧ Q e.2 := by
  induction es generalizing m with
  | nil => exact hm
  | cons e es ih =>
    obtain ⟨he, hes⟩ := List.forall_mem_cons.1 hes
    exact ih (forall_put hm he.1 he.2) hes

theorem forall_ofEntries (h : ∀ e ∈ es, P e.1 ∧ Q e.2) : ∀ e ∈ ofEntries eq es, P e.1 ∧ Q e.2 :=
  forall_putAll (fun _ he => absurd he List.not_mem_nil) h

end

end LinkedMap
