import Mathlib.Data.Nat.ModEq

namespace OnesComplement

-- One's complement addition in words of `b` values carries the overflow around into the low
-- end. `carry` does it once and `value` is where carrying ends: zero for zero only, and
-- otherwise the representative of the sum modulo `b - 1` among `1, ..., b - 1`.
def carry (b x : Nat) : Nat := x % b + x / b

def value (b x : Nat) : Nat := if x = 0 then 0 else (x - 1) % (b - 1) + 1

variable {b : Nat}

@[simp] theorem value_zero : value b 0 = 0 := rfl

theorem value_pos {x : Nat} (hx : x ≠ 0) : value b x = (x - 1) % (b - 1) + 1 := by
  rw [value, if_neg hx]

theorem value_eq_zero_iff {x : Nat} : value b x = 0 ↔ x = 0 := by
  constructor
  · intro h
    by_contra hx
    rw [value_pos hx] at h
    omega
  · rintro rfl
    rfl

theorem value_le (hb : 2 ≤ b) (x : Nat) : value b x ≤ b - 1 := by
  by_cases hx : x = 0
  · simp [hx]
  · rw [value_pos hx]
    have := Nat.mod_lt (x - 1) (show 0 < b - 1 by omega)
    omega

theorem value_modEq (x : Nat) : value b x ≡ x [MOD b - 1] := by
  by_cases hx : x = 0
  · rw [hx, value_zero]
  · rw [value_pos hx]
    have h : (x - 1) % (b - 1) + 1 ≡ (x - 1) + 1 [MOD b - 1] :=
      (Nat.mod_modEq (x - 1) (b - 1)).add_right 1
    rwa [Nat.sub_add_cancel (by omega)] at h

theorem value_of_lt {x : Nat} (hx : x < b) : value b x = x := by
  by_cases hz : x = 0
  · simp [hz]
  · rw [value_pos hz, Nat.mod_eq_of_lt (by omega)]
    omega

-- Two sums carry to the same word if they agree modulo `b - 1` and only vanish together.
theorem value_eq_iff {x y : Nat} :
    value b x = value b y ↔ x ≡ y [MOD b - 1] ∧ (x = 0 ↔ y = 0) := by
  constructor
  · intro h
    refine ⟨(value_modEq x).symm.trans (h ▸ value_modEq y), ?_⟩
    rw [← value_eq_zero_iff (b := b), ← value_eq_zero_iff (b := b) (x := y), h]
  · rintro ⟨hmod, hzero⟩
    by_cases hx : x = 0
    · rw [hx, hzero.mp hx]
    · have hy : y ≠ 0 := fun hy => hx (hzero.mpr hy)
      have hpred : x - 1 ≡ y - 1 [MOD b - 1] := by
        apply Nat.ModEq.add_right_cancel' 1
        rwa [Nat.sub_add_cancel (by omega), Nat.sub_add_cancel (by omega)]
      rw [value_pos hx, value_pos hy, show (x - 1) % (b - 1) = (y - 1) % (b - 1) from hpred]

theorem carry_modEq (hb : 2 ≤ b) (x : Nat) : carry b x ≡ x [MOD b - 1] := by
  have hbase : b ≡ 1 [MOD b - 1] :=
    ((Nat.modEq_iff_dvd' (show 1 ≤ b by omega)).mpr (dvd_refl _)).symm
  calc carry b x = x % b + 1 * (x / b) := by rw [carry, Nat.one_mul]
    _ ≡ x % b + b * (x / b) [MOD b - 1] := (hbase.symm.mul_right _).add_left _
    _ = x := Nat.mod_add_div x b

theorem carry_eq_zero_iff {x : Nat} : carry b x = 0 ↔ x = 0 := by
  constructor
  · intro h
    obtain ⟨hlow, hhigh⟩ := Nat.add_eq_zero_iff.mp h
    rw [← Nat.mod_add_div x b, hlow, hhigh, Nat.mul_zero]
  · rintro rfl
    simp [carry]

-- Carrying never changes the word the sum ends in.
theorem value_carry (hb : 2 ≤ b) (x : Nat) : value b (carry b x) = value b x :=
  value_eq_iff.mpr ⟨carry_modEq hb x, carry_eq_zero_iff⟩

-- Two carries always suffice for a sum of less than `b * b`.
theorem carry_carry_lt (hb : 2 ≤ b) {x : Nat} (hx : x < b * b) : carry b (carry b x) < b := by
  have hhigh : x / b < b := Nat.div_lt_of_lt_mul hx
  have hlow := Nat.mod_lt x (show 0 < b by omega)
  have honce : carry b x ≤ 2 * (b - 1) := by
    unfold carry
    omega
  by_cases hlt : carry b x < b
  · rw [carry, Nat.mod_eq_of_lt hlt, Nat.div_eq_of_lt hlt]
    exact hlt
  · have hdiv : carry b x / b = 1 := by
      rw [Nat.div_eq_of_lt_le] <;> omega
    have hsplit := Nat.mod_add_div (carry b x) b
    rw [hdiv, Nat.mul_one] at hsplit
    rw [show carry b (carry b x) = carry b x % b + carry b x / b from rfl, hdiv]
    omega

-- The all-ones word: a sum that is a multiple of `b - 1` without being zero.
theorem value_eq_top_iff (hb : 2 ≤ b) {x : Nat} :
    value b x = b - 1 ↔ x ≠ 0 ∧ (b - 1) ∣ x := by
  have htop : value b (b - 1) = b - 1 := value_of_lt (by omega)
  have heq : value b x = b - 1 ↔ value b x = value b (b - 1) := by rw [htop]
  rw [heq, value_eq_iff, Nat.modEq_zero_iff_dvd.symm]
  have hself : b - 1 ≡ 0 [MOD b - 1] := (Nat.modEq_zero_iff_dvd).mpr (dvd_refl _)
  constructor
  · rintro ⟨hmod, hzero⟩
    exact ⟨fun hx => by have := hzero.mp hx; omega, hmod.trans hself⟩
  · rintro ⟨hx, hmod⟩
    exact ⟨hmod.trans hself.symm, by omega⟩

-- A further summand leaves the word alone exactly when it is a multiple of `b - 1`, and is
-- nothing at all where the sum so far is zero.
theorem value_add_eq_iff (x y : Nat) :
    value b (x + y) = value b x ↔ (b - 1) ∣ y ∧ (x = 0 → y = 0) := by
  rw [value_eq_iff]
  constructor
  · rintro ⟨hmod, hzero⟩
    refine ⟨?_, fun hx => by omega⟩
    have h : x + y ≡ x + 0 [MOD b - 1] := by simpa using hmod
    exact Nat.modEq_zero_iff_dvd.mp (Nat.ModEq.add_left_cancel' x h)
  · rintro ⟨hdvd, hx⟩
    refine ⟨?_, by omega⟩
    simpa using (Nat.modEq_zero_iff_dvd.mpr hdvd).add_left x

-- The word that complements a sum turns it into all ones.
theorem complement_iff (hb : 2 ≤ b) (x c : Nat) (hc : c < b) :
    b - 1 - value b x = c ↔ value b (x + c) = b - 1 ∧ ¬(c = b - 1 ∧ x ≠ 0) := by
  have hle := value_le hb x
  rw [value_eq_top_iff hb]
  have hsum : (b - 1) ∣ x + c ↔ (b - 1) ∣ value b x + c := by
    rw [← Nat.modEq_zero_iff_dvd, ← Nat.modEq_zero_iff_dvd]
    have h : value b x + c ≡ x + c [MOD b - 1] := (value_modEq x).add_right c
    exact ⟨h.trans, h.symm.trans⟩
  rw [hsum]
  constructor
  · intro h
    have hx : value b x + c = b - 1 := by omega
    refine ⟨⟨?_, hx ▸ dvd_refl _⟩, ?_⟩
    · intro hz
      have hzero : x = 0 := by omega
      rw [hzero, value_zero] at hx
      omega
    · rintro ⟨rfl, hx'⟩
      exact hx' (value_eq_zero_iff.mp (by omega : value b x = 0))
  · rintro ⟨⟨hz, k, hk⟩, hnot⟩
    -- `value + c` lies strictly between zero and `2 * (b - 1)`, so it is `b - 1`.
    have hpos : 0 < value b x + c := by
      by_contra h
      exact hz (by
        have := value_eq_zero_iff.mp (show value b x = 0 by omega)
        omega)
    have hlt : value b x + c < 2 * (b - 1) := by
      by_contra h
      have hxne : x ≠ 0 := fun hx => by
        rw [hx, value_zero] at h
        omega
      exact hnot ⟨by omega, hxne⟩
    have hk1 : k = 1 := by
      have h0 : k ≠ 0 := by
        rintro rfl
        omega
      have h2 : k < 2 := by
        by_contra h
        have := Nat.mul_le_mul_left (b - 1) (show 2 ≤ k by omega)
        omega
      omega
    rw [hk1, Nat.mul_one] at hk
    omega

end OnesComplement
