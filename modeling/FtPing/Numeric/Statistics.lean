import Mathlib.Algebra.BigOperators.Group.List.Lemmas
import Mathlib.Algebra.Order.Field.Basic
import Mathlib.Tactic.FieldSimp
import Mathlib.Tactic.Linarith
import Mathlib.Tactic.Positivity
import Mathlib.Tactic.Ring

namespace Numeric

variable {K : Type} [Field K] [LinearOrder K] [IsStrictOrderedRing K]

section Definitions

variable {K : Type} [Field K]

def mean (xs : List K) : K := xs.sum / xs.length

-- The squared distances from `center`, together.
def deviation (center : K) (xs : List K) : K :=
  (xs.map fun x => (x - center) * (x - center)).sum

def variance (xs : List K) : K := deviation (mean xs) xs / xs.length

@[simp] theorem deviation_nil (center : K) : deviation center [] = 0 := rfl

@[simp] theorem deviation_cons (center x : K) (xs : List K) :
    deviation center (x :: xs) = (x - center) * (x - center) + deviation center xs := by
  simp [deviation]

theorem deviation_eq (center : K) (xs : List K) :
    deviation center xs =
      (xs.map fun x => x * x).sum - 2 * center * xs.sum + xs.length * (center * center) := by
  induction xs with
  | nil => simp
  | cons x xs ih =>
      rw [deviation_cons, ih, List.map_cons, List.sum_cons, List.sum_cons, List.length_cons,
        Nat.cast_add, Nat.cast_one]
      ring

end Definitions

theorem length_cast_pos {xs : List K} (hne : xs ≠ []) : (0 : K) < xs.length :=
  Nat.cast_pos.mpr (List.length_pos_iff.mpr hne)

-- The form with the running sums.
theorem variance_eq {xs : List K} (hne : xs ≠ []) :
    (xs.map fun x => x * x).sum / xs.length - mean xs * mean xs = variance xs := by
  have hlen := (length_cast_pos hne).ne'
  rw [variance, deviation_eq, mean]
  field_simp
  ring

-- About any other center the deviation is larger.
theorem deviation_about {xs : List K} (hne : xs ≠ []) (center : K) :
    deviation center xs =
      xs.length * (variance xs + (mean xs - center) * (mean xs - center)) := by
  have hlen := (length_cast_pos hne).ne'
  rw [← variance_eq hne, deviation_eq, mean]
  field_simp
  ring

theorem deviation_nonneg (center : K) (xs : List K) : 0 ≤ deviation center xs := by
  induction xs with
  | nil => exact le_rfl
  | cons x xs ih =>
      rw [deviation_cons]
      exact add_nonneg (mul_self_nonneg _) ih

theorem deviation_eq_zero_iff (center : K) (xs : List K) :
    deviation center xs = 0 ↔ ∀ x ∈ xs, x = center := by
  induction xs with
  | nil => simp
  | cons x xs ih =>
      rw [deviation_cons, add_eq_zero_iff_of_nonneg (mul_self_nonneg _) (deviation_nonneg _ _),
        mul_self_eq_zero, sub_eq_zero, ih, List.forall_mem_cons]

theorem deviation_le {center radius : K} {xs : List K}
    (h : ∀ x ∈ xs, center - radius ≤ x ∧ x ≤ center + radius) :
    deviation center xs ≤ xs.length * (radius * radius) := by
  induction xs with
  | nil => simp
  | cons x xs ih =>
      obtain ⟨hlow, hhigh⟩ := h x List.mem_cons_self
      have hrest := ih fun y hy => h y (List.mem_cons_of_mem _ hy)
      have hfirst : (x - center) * (x - center) ≤ radius * radius := by nlinarith
      rw [deviation_cons, List.length_cons, Nat.cast_add, Nat.cast_one]
      linarith

theorem variance_nonneg (xs : List K) : 0 ≤ variance xs :=
  div_nonneg (deviation_nonneg _ _) (Nat.cast_nonneg _)

theorem variance_eq_zero_iff {xs : List K} (hne : xs ≠ []) :
    variance xs = 0 ↔ ∀ x ∈ xs, ∀ y ∈ xs, x = y := by
  have hlen := (length_cast_pos hne).ne'
  rw [variance, div_eq_zero_iff, or_iff_left hlen, deviation_eq_zero_iff]
  constructor
  · intro h x hx y hy
    rw [h x hx, h y hy]
  · intro h x hx
    have hsame : xs = List.replicate xs.length x :=
      List.eq_replicate_of_mem fun y hy => h y hy x hx
    have hsum : xs.sum = xs.length * x := by
      conv_lhs => rw [hsame]
      rw [List.sum_replicate, nsmul_eq_mul]
    rw [mean, hsum, mul_div_cancel_left₀ _ hlen]

section Bounds

variable {xs : List K} {low high : K} (hne : xs ≠ [])

include hne

theorem le_mean (h : ∀ x ∈ xs, low ≤ x) : low ≤ mean xs := by
  rw [mean, le_div_iff₀ (length_cast_pos hne), mul_comm]
  have := List.card_nsmul_le_sum xs low h
  rwa [nsmul_eq_mul] at this

theorem mean_le (h : ∀ x ∈ xs, x ≤ high) : mean xs ≤ high := by
  rw [mean, div_le_iff₀ (length_cast_pos hne), mul_comm]
  have := List.sum_le_card_nsmul xs high h
  rwa [nsmul_eq_mul] at this

-- Numbers between two bounds spread the most when half of them are at either bound.
theorem variance_le (h : ∀ x ∈ xs, low ≤ x ∧ x ≤ high) :
    variance xs ≤ (high - low) * (high - low) / 4 := by
  have hlen := length_cast_pos hne
  have hnear : ∀ x ∈ xs, (low + high) / 2 - (high - low) / 2 ≤ x ∧
      x ≤ (low + high) / 2 + (high - low) / 2 := fun x hx => by
    obtain ⟨hlow, hhigh⟩ := h x hx
    constructor <;> linarith
  have hmiddle := deviation_le hnear
  rw [deviation_about hne, mul_le_mul_iff_right₀ hlen] at hmiddle
  have hsquare := mul_self_nonneg (mean xs - (low + high) / 2)
  linarith

end Bounds

end Numeric
