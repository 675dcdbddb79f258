/-
  Texts split at separators.

  The separators are a set of words, no one a prefix of another, that a `Matcher` takes off the
  front of a text.  `find` goes to the first separator and `split` from one to the next.
-/
import Mathlib.Algebra.Order.Ring.Int
import Mathlib.Data.List.DropRight

namespace Splitting

variable {α : Type}

/-- A function that takes a word of `L` off the front of a text. -/
structure Matcher (L : List α → Prop) where
  rest : List α → Option (List α)
  rest_eq_some : ∀ {text r}, rest text = some r ↔ ∃ w, L w ∧ text = w ++ r
  ne_nil : ∀ {w}, L w → w ≠ []

/-- A word of `L` in a text. -/
def Occurs (L : List α → Prop) (text : List α) : Prop := ∃ a w b, L w ∧ text = a ++ w ++ b

/-- What is before the first word of `L` in a text, and what is behind it. -/
def First (L : List α → Prop) (text a b : List α) : Prop :=
  (∃ w, L w ∧ text = a ++ w ++ b) ∧
    ∀ a' w b', L w → text = a' ++ w ++ b' → a.length ≤ a'.length

/-- A text of words of `L` only. -/
def OnlyWords (L : List α → Prop) (text : List α) : Prop :=
  ∃ ws : List (List α), (∀ w ∈ ws, L w) ∧ text = ws.flatten

/-- Two words of `L` behind each other in a text. -/
def OccursTwice (L : List α → Prop) (text : List α) : Prop :=
  ∃ a w b w' c, L w ∧ L w' ∧ text = a ++ w ++ b ++ w' ++ c

/-- A word that begins later in a text also ends later, or at the same place. -/
def EndsInOrder (L : List α → Prop) : Prop :=
  ∀ {a w b a' w' b'}, L w → L w' → a ++ w ++ b = a' ++ w' ++ b' → a.length ≤ a'.length →
    a.length + w.length ≤ a'.length + w'.length

variable {L : List α → Prop} {text a b r : List α}

theorem First.occurs (h : First L text a b) : Occurs L text := by
  obtain ⟨⟨w, hw, rfl⟩, -⟩ := h
  exact ⟨a, w, b, hw, rfl⟩

theorem OccursTwice.occurs (h : OccursTwice L text) : Occurs L text := by
  obtain ⟨a, w, b, w', c, hw, -, rfl⟩ := h
  exact ⟨a, w, b ++ w' ++ c, hw, by simp only [List.append_assoc]⟩

/-- There are two words if there is one behind the first. -/
theorem occursTwice_iff (hends : EndsInOrder L) (h : First L text a b) :
    OccursTwice L text ↔ Occurs L b := by
  obtain ⟨⟨w, hw, htext⟩, hmin⟩ := h
  constructor
  · rintro ⟨a₁, w₁, b₁, w₂, c, hw₁, hw₂, htwice⟩
    have hfirst : text = a₁ ++ w₁ ++ (b₁ ++ w₂ ++ c) := by
      rw [htwice]
      simp only [List.append_assoc]
    have hend := hends hw hw₁ (htext.symm.trans hfirst) (hmin _ _ _ hw₁ hfirst)
    have hle : (a ++ w).length ≤ (a₁ ++ w₁ ++ b₁).length := by
      simp only [List.length_append]
      omega
    -- what is behind the first word begins before the second one
    have hsplit : (a ++ w) ++ b = (a₁ ++ w₁ ++ b₁) ++ (w₂ ++ c) := by
      rw [← htext, htwice, List.append_assoc]
    obtain ⟨gap, hgap⟩ : (a ++ w) <+: (a₁ ++ w₁ ++ b₁) :=
      List.prefix_of_prefix_length_le ⟨b, hsplit⟩ ⟨w₂ ++ c, rfl⟩ hle
    rw [← hgap, List.append_assoc (a ++ w)] at hsplit
    have hb := List.append_cancel_left hsplit
    exact ⟨gap, w₂, c, hw₂, by rw [hb, List.append_assoc]⟩
  · rintro ⟨gap, w₂, c, hw₂, rfl⟩
    exact ⟨a, w, gap, w₂, c, hw, hw₂, by rw [htext]; simp only [List.append_assoc]⟩

section
variable {p : α → Bool} (l : List α) {l' : List α}

/-- What is dropped at the end of a list is not looked at before it. -/
theorem rdropWhile_append_of_all (h : ∀ x ∈ l', p x = true) :
    (l ++ l').rdropWhile p = l.rdropWhile p := by
  rw [List.rdropWhile, List.reverse_append, List.dropWhile_append_of_pos, List.rdropWhile]
  exact fun x hx => h x (List.mem_reverse.1 hx)

theorem rdropWhile_append_of_not_all (h : ¬ ∀ x ∈ l', p x = true) :
    ∃ x xs, (l ++ l').rdropWhile p = l ++ x :: xs := by
  have hne : l'.rdropWhile p ≠ [] := fun hnil => h (List.rdropWhile_eq_nil_iff.1 hnil)
  obtain ⟨x, xs, hx⟩ := List.exists_cons_of_ne_nil hne
  refine ⟨x, xs, ?_⟩
  have hdrop : (l'.reverse.dropWhile p).isEmpty = false := by
    rw [List.isEmpty_eq_false_iff]
    exact fun hnil => hne (by rw [List.rdropWhile, hnil]; rfl)
  rw [← hx, List.rdropWhile, List.reverse_append, List.dropWhile_append, hdrop,
    if_neg (by decide), List.reverse_append, List.reverse_reverse]
  rfl

end

namespace Matcher

variable (m : Matcher L)

/-- The text before the first separator, and the text behind it. -/
def find : List α → Option (List α × List α)
  | [] => none
  | c :: cs => match m.rest (c :: cs) with
    | some r => some ([], r)
    | none => (find cs).map fun (a, b) => (c :: a, b)

/-- The pieces between the separators, for texts of at most so many characters. -/
def splitWithin : ℕ → List α → List (List α)
  | 0, text => [text]
  | fuel + 1, text => match m.find text with
    | none => [text]
    | some (a, b) => a :: splitWithin fuel b

/-- The pieces between the separators. -/
def split (text : List α) : List (List α) := m.splitWithin text.length text

variable {m}

/-- What is behind a word at the front of a text is unique. -/
theorem rest_unique (m : Matcher L) {w w' r' : List α} (hw : L w) (hw' : L w')
    (h : w ++ r = w' ++ r') : r = r' := by
  have hr : m.rest (w ++ r) = some r := m.rest_eq_some.2 ⟨w, hw, rfl⟩
  have hr' : m.rest (w ++ r) = some r' := m.rest_eq_some.2 ⟨w', hw', h⟩
  exact Option.some.inj (hr.symm.trans hr')

theorem first_of_find (h : m.find text = some (a, b)) : First L text a b := by
  induction text generalizing a with
  | nil => cases h
  | cons c cs ih =>
    rw [find] at h
    cases hrest : m.rest (c :: cs) with
    | some r =>
      rw [hrest] at h
      cases h
      obtain ⟨w, hw, htext⟩ := m.rest_eq_some.1 hrest
      exact ⟨⟨w, hw, htext⟩, fun _ _ _ _ _ => Nat.zero_le _⟩
    | none =>
      rw [hrest] at h
      obtain ⟨⟨a₀, b₀⟩, hfind, hab⟩ := Option.map_eq_some_iff.1 h
      cases hab
      obtain ⟨⟨w, hw, rfl⟩, hmin⟩ := ih hfind
      refine ⟨⟨w, hw, rfl⟩, fun a' w' b' hw' htext => ?_⟩
      cases a' with
      | nil =>
        rw [m.rest_eq_some.2 ⟨w', hw', htext⟩] at hrest
        cases hrest
      | cons c' a' =>
        obtain ⟨-, htext⟩ := List.cons.inj htext
        exact Nat.succ_le_succ (hmin a' w' b' hw' htext)

theorem occurs_of_find_none (h : m.find text = none) : ¬ Occurs L text := by
  induction text with
  | nil =>
    rintro ⟨a, w, b, hw, htext⟩
    obtain ⟨htext, -⟩ := List.append_eq_nil_iff.1 htext.symm
    exact m.ne_nil hw (List.append_eq_nil_iff.1 htext).2
  | cons c cs ih =>
    rw [find] at h
    cases hrest : m.rest (c :: cs) with
    | some r =>
      rw [hrest] at h
      cases h
    | none =>
      rw [hrest] at h
      rintro ⟨a, w, b, hw, htext⟩
      cases a with
      | nil =>
        rw [m.rest_eq_some.2 ⟨w, hw, htext⟩] at hrest
        cases hrest
      | cons c' a =>
        obtain ⟨-, htext⟩ := List.cons.inj htext
        exact ih (Option.map_eq_none_iff.1 h) ⟨a, w, b, hw, htext⟩

theorem find_eq_none : m.find text = none ↔ ¬ Occurs L text := by
  refine ⟨occurs_of_find_none, fun h => ?_⟩
  by_contra hne
  obtain ⟨⟨a, b⟩, hfind⟩ := Option.ne_none_iff_exists'.1 hne
  exact h (first_of_find hfind).occurs

/-- The first word is unique. -/
theorem first_unique {a' b' : List α} (m : Matcher L) (h : First L text a b)
    (h' : First L text a' b') : a = a' ∧ b = b' := by
  obtain ⟨⟨w, hw, rfl⟩, hmin⟩ := h
  obtain ⟨⟨w', hw', htext⟩, hmin'⟩ := h'
  have hlength : a.length = a'.length :=
    le_antisymm (hmin _ _ _ hw' htext) (hmin' _ _ _ hw rfl)
  rw [List.append_assoc, List.append_assoc] at htext
  obtain ⟨ha, hrest⟩ := List.append_inj htext hlength
  exact ⟨ha, m.rest_unique hw hw' hrest⟩

theorem find_eq_some : m.find text = some (a, b) ↔ First L text a b := by
  refine ⟨first_of_find, fun h => ?_⟩
  cases hfind : m.find text with
  | none => exact absurd h.occurs (find_eq_none.1 hfind)
  | some p =>
    obtain ⟨a', b'⟩ := p
    obtain ⟨rfl, rfl⟩ := first_unique m (first_of_find hfind) h
    rfl

theorem length_lt_of_first (m : Matcher L) (h : First L text a b) : b.length < text.length := by
  obtain ⟨⟨w, hw, rfl⟩, -⟩ := h
  have hpos := List.length_pos_iff.2 (m.ne_nil hw)
  rw [List.length_append, List.length_append]
  omega

theorem splitWithin_eq {fuel fuel' : ℕ} (h : text.length ≤ fuel) (h' : text.length ≤ fuel') :
    m.splitWithin fuel text = m.splitWithin fuel' text := by
  induction fuel generalizing fuel' text with
  | zero =>
    cases List.length_eq_zero_iff.1 (Nat.le_zero.1 h)
    cases fuel' <;> rfl
  | succ fuel ih =>
    cases fuel' with
    | zero =>
      cases List.length_eq_zero_iff.1 (Nat.le_zero.1 h')
      rfl
    | succ fuel' =>
      rw [splitWithin, splitWithin]
      cases hfind : m.find text with
      | none => rfl
      | some p =>
        have hlt := m.length_lt_of_first (first_of_find hfind)
        exact congrArg (p.1 :: ·) (ih (by omega) (by omega))

/-- A text without separators is one piece. -/
theorem split_of_not_occurs (h : ¬ Occurs L text) : m.split text = [text] := by
  rw [split]
  cases text.length with
  | zero => rfl
  | succ fuel => rw [splitWithin, find_eq_none.2 h]

/-- At the first separator a text is split into a piece and the pieces of the rest. -/
theorem split_of_first (h : First L text a b) : m.split text = a :: m.split b := by
  have hlt := m.length_lt_of_first h
  rw [split, ← Nat.succ_pred_eq_of_pos (Nat.zero_lt_of_lt hlt), splitWithin, find_eq_some.2 h]
  exact congrArg (a :: ·) (splitWithin_eq (by rw [Nat.pred_eq_sub_one]; omega) le_rfl)

theorem first_or_not_occurs (m : Matcher L) (text : List α) :
    (∃ a b, First L text a b) ∨ ¬ Occurs L text := by
  cases hfind : m.find text with
  | none => exact .inr (find_eq_none.1 hfind)
  | some p => exact .inl ⟨p.1, p.2, first_of_find hfind⟩

/-- All pieces are empty exactly if there is nothing but separators. -/
theorem split_all_nil : (∀ p ∈ m.split text, p = []) ↔ OnlyWords L text := by
  induction hn : text.length using Nat.strong_induction_on generalizing text with
  | _ n ih =>
    subst hn
    obtain ⟨a, b, hfirst⟩ | hnone := m.first_or_not_occurs text
    · rw [split_of_first hfirst, List.forall_mem_cons,
        ih b.length (m.length_lt_of_first hfirst) rfl]
      obtain ⟨⟨w, hw, htext⟩, hmin⟩ := id hfirst
      constructor
      · rintro ⟨rfl, ws, hws, rfl⟩
        exact ⟨w :: ws, List.forall_mem_cons.2 ⟨hw, hws⟩, htext⟩
      · rintro ⟨ws, hws, rfl⟩
        cases ws with
        | nil => exact absurd (m.length_lt_of_first hfirst) (Nat.not_lt_zero _)
        | cons w' ws =>
          obtain ⟨hw', hws⟩ := List.forall_mem_cons.1 hws
          have ha : a = [] := List.length_eq_zero_iff.1 (Nat.le_zero.1 (hmin [] w' _ hw' rfl))
          subst ha
          exact ⟨rfl, ws, hws, m.rest_unique hw hw' htext.symm⟩
    · rw [split_of_not_occurs hnone, List.forall_mem_singleton]
      constructor
      · rintro rfl
        exact ⟨[], fun w hw => absurd hw List.not_mem_nil, rfl⟩
      · rintro ⟨ws, hws, rfl⟩
        cases ws with
        | nil => rfl
        | cons w ws =>
          exact absurd ⟨[], w, ws.flatten, hws w List.mem_cons_self, rfl⟩ hnone

end Matcher

end Splitting
