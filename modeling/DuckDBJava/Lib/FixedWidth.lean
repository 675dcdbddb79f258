/-
  Numbers written with a fixed number of digits, most significant first, and the order of the
  texts.

  `text_lt_iff`: where the digits are in order, the texts of one width are ordered as the numbers.
-/
import Mathlib.Algebra.Order.Ring.Int
import Mathlib.Algebra.Order.Ring.Nat
import Mathlib.Data.List.Lex

namespace FixedWidth

/-! ## Lexicographic order -/

section
variable {α : Type} [LinearOrder α] {as bs cs ds : List α}

/-- Texts of one length side by side are compared from the left. -/
theorem append_lt_append_iff (h : as.length = bs.length) :
    as ++ cs < bs ++ ds ↔ as < bs ∨ (as = bs ∧ cs < ds) := by
  induction as generalizing bs with
  | nil =>
    obtain rfl := List.length_eq_zero_iff.1 h.symm
    simp
  | cons a as ih =>
    cases bs with
    | nil => cases h
    | cons b bs =>
      rw [List.cons_append, List.cons_append, List.cons_lt_cons_iff, List.cons_lt_cons_iff,
        ih (Nat.succ.inj h), List.cons.injEq]
      tauto

end

/-! ## Digits -/

/-- The `w` low digits of `n` in base `b`. -/
def text {α : Type} (b : ℕ) (digit : ℕ → α) : ℕ → ℕ → List α
  | 0, _ => []
  | w + 1, n => digit (n / b ^ w % b) :: text b digit w n

section
variable {α : Type} {b : ℕ} {digit : ℕ → α}

@[simp] theorem length_text (w n : ℕ) : (text b digit w n).length = w := by
  induction w with
  | zero => rfl
  | succ w ih => rw [text, List.length_cons, ih]

/-- The digit characters are in order. -/
def Ordered [LT α] (b : ℕ) (digit : ℕ → α) : Prop := ∀ d e, d < e → e < b → digit d < digit e

variable [LinearOrder α]

theorem Ordered.lt_iff (h : Ordered b digit) {d e : ℕ} (hd : d < b) (he : e < b) :
    digit d < digit e ↔ d < e := by
  refine ⟨fun hlt => ?_, fun hlt => h d e hlt he⟩
  rcases lt_trichotomy d e with hde | hde | hde
  · exact hde
  · rw [hde] at hlt
    exact absurd hlt (lt_irrefl _)
  · exact absurd hlt (h e d hde hd).not_gt

theorem Ordered.eq_iff (h : Ordered b digit) {d e : ℕ} (hd : d < b) (he : e < b) :
    digit d = digit e ↔ d = e := by
  refine ⟨fun heq => ?_, congrArg digit⟩
  rcases lt_trichotomy d e with hde | hde | hde
  · exact absurd heq (h d e hde he).ne
  · exact hde
  · exact absurd heq (h e d hde hd).ne'

/-- A leading digit outweighs the rest. -/
theorem add_mul_lt_iff {p r s d e : ℕ} (hr : r < p) (hs : s < p) :
    r + p * d < s + p * e ↔ d < e ∨ (d = e ∧ r < s) := by
  constructor
  · intro h
    rcases lt_trichotomy d e with hde | hde | hde
    · exact .inl hde
    · subst hde
      exact .inr ⟨rfl, by omega⟩
    · have := Nat.mul_le_mul_left p hde
      rw [Nat.mul_succ] at this
      omega
  · rintro (hde | ⟨rfl, hlt⟩)
    · have := Nat.mul_le_mul_left p hde
      rw [Nat.mul_succ] at this
      omega
    · omega

/-- **The texts of one width** are ordered as the numbers. -/
theorem text_lt_iff (h : Ordered b digit) (hb : 0 < b) (w m n : ℕ) :
    text b digit w m < text b digit w n ↔ m % b ^ w < n % b ^ w := by
  induction w with
  | zero => simp [text, Nat.mod_one]
  | succ w ih =>
    have hpow : 0 < b ^ w := Nat.pow_pos hb
    rw [text, text, List.cons_lt_cons_iff, h.lt_iff (Nat.mod_lt _ hb) (Nat.mod_lt _ hb),
      h.eq_iff (Nat.mod_lt _ hb) (Nat.mod_lt _ hb), ih, Nat.mod_pow_succ, Nat.mod_pow_succ,
      add_mul_lt_iff (Nat.mod_lt _ hpow) (Nat.mod_lt _ hpow)]

theorem text_eq_iff (h : Ordered b digit) (hb : 0 < b) (w m n : ℕ) :
    text b digit w m = text b digit w n ↔ m % b ^ w = n % b ^ w := by
  have hlt := text_lt_iff h hb w
  constructor
  · intro heq
    have hmn : ¬ m % b ^ w < n % b ^ w := fun hc => absurd heq ((hlt m n).2 hc).ne
    have hnm : ¬ n % b ^ w < m % b ^ w := fun hc => absurd heq ((hlt n m).2 hc).ne'
    omega
  · intro heq
    refine le_antisymm (not_lt.1 fun hc => ?_) (not_lt.1 fun hc => ?_)
    · exact absurd ((hlt n m).1 hc) (by omega)
    · exact absurd ((hlt m n).1 hc) (by omega)

end

end FixedWidth
