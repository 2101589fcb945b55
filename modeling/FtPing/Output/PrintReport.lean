import FtPing.CLib.Int
import FtPing.Types

namespace FtPing

open CLib

-- Truncated, in int arithmetic.
def loss_percent (stats : Stats) : Int :=
  if stats.n_sent ≤ 0 then 0
  else (int (int (stats.n_sent - stats.n_recv) * 100)).tdiv stats.n_sent

def print_counts (stats : Stats) : String :=
  toString stats.n_sent ++ " packets transmitted, " ++ toString stats.n_recv ++
    " packets received, " ++
    (if 0 < stats.n_sent ∧ stats.n_sent < stats.n_recv then
      "-- somebody is printing forged packets!"
    else toString (loss_percent stats) ++ "% packet loss") ++ "\n"

-- The figures of the closing line: minimum, mean, maximum, and what the deviation is the square
-- root of. There is no such line without a reply.
def print_stats (stats : Stats) : Option (ℚ × ℚ × ℚ × ℚ) :=
  if stats.n_recv = 0 then none
  else
    let mean := stats.sum / stats.n_recv
    let variance := stats.sum_sq / stats.n_recv - mean * mean
    some (stats.rtt_min, mean, stats.rtt_max, if variance < 0 then 0 else variance)

section Loss

theorem isInt_product_iff {lost : Int} (h : 0 ≤ lost) : IsInt (lost * 100) ↔ lost ≤ 21474836 := by
  simp only [IsInt, INT_MIN, INT_MAX]
  omega

variable {stats : Stats} (hrecv : 0 ≤ stats.n_recv) (hle : stats.n_recv ≤ stats.n_sent)
  (hsent : 0 < stats.n_sent) (hmax : stats.n_sent ≤ INT_MAX)

include hrecv hle hsent hmax

theorem loss_percent_eq :
    loss_percent stats = (int ((stats.n_sent - stats.n_recv) * 100)).tdiv stats.n_sent := by
  have hlost : IsInt (stats.n_sent - stats.n_recv) := by
    simp only [IsInt, INT_MIN, INT_MAX] at hmax ⊢
    omega
  rw [loss_percent, if_neg (by omega), int_of_isInt hlost]

-- The share of the lost rounded down, as long as the product is an int.
theorem loss_percent_floor (h : stats.n_sent - stats.n_recv ≤ 21474836) :
    loss_percent stats = 100 * (stats.n_sent - stats.n_recv) / stats.n_sent := by
  have hproduct := (isInt_product_iff (by omega)).mpr h
  rw [loss_percent_eq hrecv hle hsent hmax, int_of_isInt hproduct,
    Int.tdiv_eq_ediv_of_nonneg (by omega), Int.mul_comm]

-- Otherwise it comes out too small, whatever the counters are.
theorem loss_percent_lt_floor (h : 21474836 < stats.n_sent - stats.n_recv) :
    loss_percent stats < 100 * (stats.n_sent - stats.n_recv) / stats.n_sent := by
  have hwrapped : int ((stats.n_sent - stats.n_recv) * 100) ≤
      (stats.n_sent - stats.n_recv) * 100 - 4294967296 := by
    apply int_of_gt
    simp only [INT_MAX]
    omega
  have htruncated := Int.mul_tdiv_add_tmod (int ((stats.n_sent - stats.n_recv) * 100)) stats.n_sent
  have hremainder := Int.lt_tmod_of_pos (int ((stats.n_sent - stats.n_recv) * 100)) hsent
  have hfloor := Int.lt_mul_ediv_self_add (x := 100 * (stats.n_sent - stats.n_recv)) hsent
  rw [loss_percent_eq hrecv hle hsent hmax]
  simp only [INT_MAX] at hmax
  -- Both quotients times `n_sent`, where the two differ by more than the rounding.
  by_contra hge
  have hmul := Int.mul_le_mul_of_nonneg_left (not_lt.mp hge) hsent.le
  omega

theorem loss_percent_floor_iff :
    loss_percent stats = 100 * (stats.n_sent - stats.n_recv) / stats.n_sent ↔
      stats.n_sent - stats.n_recv ≤ 21474836 := by
  constructor
  · intro h
    by_contra hlost
    have hlt := loss_percent_lt_floor hrecv hle hsent hmax (not_le.mp hlost)
    omega
  · exact loss_percent_floor hrecv hle hsent hmax

end Loss

-- Exact as long as no more than 21474836 packets are lost.
theorem loss_percent_exact_iff (stats : Stats) (hrecv : 0 ≤ stats.n_recv)
    (hle : stats.n_recv ≤ stats.n_sent) (hsent : 0 < stats.n_sent)
    (hmax : stats.n_sent ≤ INT_MAX) :
    (IsInt (stats.n_sent - stats.n_recv) ∧ IsInt ((stats.n_sent - stats.n_recv) * 100) ∧
      loss_percent stats = 100 * (stats.n_sent - stats.n_recv) / stats.n_sent ∧
      0 ≤ loss_percent stats ∧ loss_percent stats ≤ 100 ∧
      (stats.n_recv = 0 → loss_percent stats = 100) ∧
      (loss_percent stats = 0 → 100 * (stats.n_sent - stats.n_recv) < stats.n_sent) ∧
      ∀ n_recv, stats.n_recv ≤ n_recv → n_recv ≤ stats.n_sent →
        loss_percent { stats with n_recv := n_recv } ≤ loss_percent stats) ↔
    stats.n_sent - stats.n_recv ≤ 21474836 := by
  constructor
  · rintro ⟨-, -, hfloor, -⟩
    exact (loss_percent_floor_iff hrecv hle hsent hmax).mp hfloor
  · intro hlost
    have hfloor := loss_percent_floor hrecv hle hsent hmax hlost
    have hdifference : IsInt (stats.n_sent - stats.n_recv) := by
      simp only [IsInt, INT_MIN, INT_MAX]
      omega
    refine ⟨hdifference, (isInt_product_iff (by omega)).mpr hlost, hfloor, ?_, ?_, ?_,
      ?_, fun n_recv hmore hno_more => ?_⟩
    · rw [hfloor]
      exact Int.ediv_nonneg (by omega) hsent.le
    · rw [hfloor]
      apply Int.ediv_le_of_le_mul hsent
      omega
    · intro hnone
      rw [hfloor, hnone, Int.sub_zero]
      exact Int.mul_ediv_cancel _ (by omega)
    · intro hzero
      rw [hfloor] at hzero
      have hrest := Int.lt_mul_ediv_self_add (x := 100 * (stats.n_sent - stats.n_recv)) hsent
      rw [hzero, Int.mul_zero] at hrest
      omega
    · have hfewer : stats.n_sent - n_recv ≤ 21474836 := by omega
      have hfloor' := @loss_percent_floor { stats with n_recv := n_recv } (hrecv.trans hmore)
        hno_more hsent hmax hfewer
      rw [hfloor', hfloor]
      apply Int.ediv_le_ediv hsent
      dsimp only
      omega

-- The first number of lost packets at which it goes wrong: all of them are lost, and the line
-- says "-99% packet loss".
theorem loss_percent_overflow :
    ¬ IsInt ((21474837 - 0) * 100) ∧
      loss_percent ⟨21474837, 0, 0, 0, 0, 0⟩ = -99 ∧
      loss_percent ⟨21474837, 0, 0, 0, 0, 0⟩ ≠ 100 * (21474837 - 0) / 21474837 := by
  decide

theorem loss_percent_exact_two_of_three :
    loss_percent ⟨3, 1, 0, 0, 0, 0⟩ = 66 := by
  have h := (loss_percent_exact_iff ⟨3, 1, 0, 0, 0, 0⟩ (by decide) (by decide) (by decide)
    (by decide)).mpr (by decide)
  exact h.2.2.1

end FtPing
