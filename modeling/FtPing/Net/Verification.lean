import FtPing.Net.ChecksumValue
import FtPing.Net.Replies

namespace FtPing

open Bytes Interaction OnesComplement

variable (host : Endian)

theorem blank_cons (a b c d : UInt8) (rest : List UInt8) :
    blank host (a :: b :: c :: d :: rest) = a :: b :: 0 :: 0 :: rest := by
  rw [blank, store16_zero, overwrite_eq _ _ _ (by simp [IcmpHdr.checksum])]
  rfl

-- The checksum field is one of the words that are summed.
theorem word_sum_blank (message : List UInt8) (h : IcmpHdr.size ≤ message.length) :
    word_sum host message =
      word_sum host (blank host message) + (word host message IcmpHdr.checksum).toNat := by
  match message, h with
  | a :: b :: c :: d :: rest, _ =>
      have hfield : word host (a :: b :: c :: d :: rest) IcmpHdr.checksum = load16 host c d := rfl
      rw [blank_cons, hfield]
      simp only [word_sum, load16_zero, UInt16.toNat_zero]
      omega

theorem blank_length (message : List UInt8) : (blank host message).length = message.length :=
  overwrite_length _ _ _

-- Comparing with the recomputed checksum accepts what sums to all ones, unless the field holds
-- all ones itself next to something that is not zero.
theorem checksum_matches_iff (message : List UInt8) (hmin : IcmpHdr.size ≤ message.length)
    (hmax : message.length ≤ 131074) :
    checksum_matches host message = true ↔ ft_checksum host message = 0 ∧
      ¬ (word host message IcmpHdr.checksum = 0xFFFF ∧ word_sum host (blank host message) ≠ 0) := by
  have hfield := (word host message IcmpHdr.checksum).toNat_lt
  have hcomplement := complement_iff (by omega : 2 ≤ 65536) (word_sum host (blank host message))
    (word host message IcmpHdr.checksum).toNat hfield
  have hvalue := value_le (by omega : 2 ≤ 65536) (word_sum host message)
  have hall : ft_checksum host message = 0 ↔ value 65536 (word_sum host message) = 65535 := by
    rw [← UInt16.toNat_inj, ft_checksum_toNat host message hmax, UInt16.toNat_zero]
    omega
  have htop : word host message IcmpHdr.checksum = 0xFFFF ↔
      (word host message IcmpHdr.checksum).toNat = 65535 := by
    rw [← UInt16.toNat_inj]
    rfl
  rw [checksum_matches, decide_eq_true_iff, ← UInt16.toNat_inj,
    ft_checksum_toNat host _ (by rw [blank_length]; exact hmax), hall, htop,
    word_sum_blank host message hmin]
  exact hcomplement

-- checksum_ok() on a message at any place of the receive buffer.
theorem exec_checksum_ok {s : State Unit} {k : Answers} {fuel : Nat} {front message : List UInt8}
    (hheld : s.holds (front ++ message)) (hmin : IcmpHdr.size ≤ message.length) :
    exec (play false) fuel (checksum_ok host front.length message.length) (k, s) =
      some (checksum_matches host message, k, s) := by
  have hlength : (front ++ message).length - front.length = message.length := by
    rw [List.length_append]
    omega
  have h := within_checksum_ok (N := Unit) host (front ++ message) front.length
    (by rw [List.length_append]; omega)
  rw [hlength, List.drop_left] at h
  exact exec_of_within hheld h

-- On a message at any place of the receive buffer checksum_ok() follows the rule that the sum
-- with the checksum in it is all ones, except for one kind of message: the field is all ones
-- and the other words make a nonzero multiple of 65535.
theorem checksum_ok_follows_rfc1071_iff (s : State Unit) (k : Answers) (fuel : Nat)
    (front message : List UInt8) (hheld : s.holds (front ++ message))
    (hmin : IcmpHdr.size ≤ message.length) (hmax : message.length ≤ 65635) :
    ∃ accepted,
      exec (play false) fuel (checksum_ok host front.length message.length) (k, s) =
        some (accepted, k, s) ∧
      ((accepted = true ↔ ft_checksum host message = 0) ↔
        ¬ (word host message IcmpHdr.checksum = 0xFFFF ∧
          word_sum host (blank host message) ≠ 0 ∧
          65535 ∣ word_sum host (blank host message))) := by
  refine ⟨checksum_matches host message, exec_checksum_ok host hheld hmin, ?_⟩
  · rw [checksum_matches_iff host message hmin (by omega)]
    have hzero : word host message IcmpHdr.checksum = 0xFFFF →
        word_sum host (blank host message) ≠ 0 →
        (ft_checksum host message = 0 ↔ 65535 ∣ word_sum host (blank host message)) := by
      intro hfield hsum
      have hfield' : (word host message IcmpHdr.checksum).toNat = 65535 := by
        rw [hfield]
        rfl
      have hvalue := value_le (by omega : 2 ≤ 65536) (word_sum host message)
      have hall : ft_checksum host message = 0 ↔
          value 65536 (word_sum host message) = 65536 - 1 := by
        rw [← UInt16.toNat_inj, ft_checksum_toNat host message (by omega), UInt16.toNat_zero]
        omega
      rw [hall, value_eq_top_iff (by omega), word_sum_blank host message hmin, hfield']
      omega
    tauto

-- Type, code and sequence are zero; the id is all ones, and so is the checksum.
def all_ones : List UInt8 := [0, 0, 255, 255, 255, 255, 0, 0]

theorem checksum_ok_rejects_all_ones :
    exec (play false) 1 (checksum_ok .little 0 8)
        (⟨[], [], [], []⟩, delivered (loopback Flags.zero) all_ones) =
      some (false, ⟨[], [], [], []⟩, delivered (loopback Flags.zero) all_ones) ∧
    ft_checksum .little all_ones = 0 := by
  have hmatches : checksum_matches .little all_ones = false := by decide
  have h := within_checksum_ok (N := Unit) .little all_ones 0 (by decide)
  rw [List.drop_zero, hmatches] at h
  exact ⟨exec_of_within (delivered_holds (loopback Flags.zero) all_ones) h, by decide⟩

theorem checksum_ok_follows_rfc1071_all_ones :
    ∃ accepted,
      exec (play false) 1 (checksum_ok .little 0 8)
          (⟨[], [], [], []⟩, delivered (loopback Flags.zero) all_ones) =
        some (accepted, ⟨[], [], [], []⟩, delivered (loopback Flags.zero) all_ones) ∧
      ¬ (accepted = true ↔ ft_checksum .little all_ones = 0) := by
  obtain ⟨accepted, hexec, hiff⟩ := checksum_ok_follows_rfc1071_iff .little
    (delivered (loopback Flags.zero) all_ones) ⟨[], [], [], []⟩ 1 [] all_ones
    (delivered_holds (loopback Flags.zero) all_ones) (by decide) (by decide)
  exact ⟨accepted, hexec, fun h => hiff.mp h (by decide)⟩

end FtPing
