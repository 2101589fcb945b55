import FtPing.Net.ChecksumValue

namespace FtPing

open Bytes OnesComplement

-- A word read in the other byte order is 256 times as much but for whole turns.
theorem word_sum_order (buf : List UInt8) :
    ∃ turns, 256 * word_sum .little buf = word_sum .big buf + 65535 * turns := by
  induction buf using word_sum.induct with
  | case1 first second rest ih =>
      obtain ⟨turns, hrest⟩ := ih
      refine ⟨second.toNat + turns, ?_⟩
      simp only [word_sum, load16_toNat]
      omega
  | case2 last =>
      refine ⟨0, ?_⟩
      simp only [word_sum, load16_toNat, UInt8.toNat_zero]
      omega
  | case3 => exact ⟨0, rfl⟩

theorem word_sum_order_zero (buf : List UInt8) :
    word_sum .little buf = 0 ↔ word_sum .big buf = 0 := by
  induction buf using word_sum.induct with
  | case1 first second rest ih =>
      simp only [word_sum, load16_toNat]
      omega
  | case2 last =>
      simp only [word_sum, load16_toNat, UInt8.toNat_zero]
      omega
  | case3 => exact Iff.rfl

theorem word_sum_order_modEq (buf : List UInt8) :
    256 * word_sum .little buf ≡ word_sum .big buf [MOD 65535] := by
  obtain ⟨turns, hturns⟩ := word_sum_order buf
  rw [hturns]
  exact Nat.add_mul_mod_self_left _ _ _

-- Exchanging the bytes of a word is a multiplication by 256 in one's complement.
theorem value_swap {word : Nat} (h : word < 65536) :
    256 * (word % 256) + word / 256 = value 65536 (256 * word) := by
  have hswapped : 256 * (word % 256) + word / 256 < 65536 := by omega
  rw [← value_of_lt hswapped, value_eq_iff]
  refine ⟨?_, by omega⟩
  have hturns : 256 * word = 256 * (word % 256) + word / 256 + 65535 * (word / 256) := by omega
  rw [hturns]
  exact (Nat.add_mul_mod_self_left _ _ _).symm

theorem value_order (buf : List UInt8) :
    256 * (value 65536 (word_sum .little buf) % 256) + value 65536 (word_sum .little buf) / 256 =
      value 65536 (word_sum .big buf) := by
  have hle := value_le (by omega : 2 ≤ 65536) (word_sum .little buf)
  rw [value_swap (by omega), value_eq_iff]
  refine ⟨?_, ?_⟩
  · exact ((value_modEq (word_sum .little buf)).mul_left 256).trans (word_sum_order_modEq buf)
  · rw [Nat.mul_eq_zero, value_eq_zero_iff, ← word_sum_order_zero]
    omega

-- The two bytes of the checksum in memory are the same on either host.
theorem checksum_bytes_on_any_host (buf : List UInt8) (hlen : buf.length ≤ 131074) :
    swap16 (ft_checksum .little buf) = ft_checksum .big buf ∧
      store16 .little (ft_checksum .little buf) = store16 .big (ft_checksum .big buf) := by
  have hswap : swap16 (ft_checksum .little buf) = ft_checksum .big buf := by
    have hle := value_le (by omega : 2 ≤ 65536) (word_sum .little buf)
    apply UInt16.toNat_inj.mp
    rw [swap16_toNat, ft_checksum_toNat .little buf hlen, ft_checksum_toNat .big buf hlen,
      ← value_order]
    omega
  refine ⟨hswap, ?_⟩
  rw [← hswap, store16_swap16]

theorem checksum_bytes_on_any_host_odd :
    store16 .little (ft_checksum .little [8, 0, 255]) =
      store16 .big (ft_checksum .big [8, 0, 255]) :=
  (checksum_bytes_on_any_host [8, 0, 255] (by decide)).2

end FtPing
