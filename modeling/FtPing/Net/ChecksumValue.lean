import FtPing.Net.Datagram
import FtPing.OnesComplement

namespace FtPing

open Bytes OnesComplement

variable (host : Endian)

-- The sum that ft_checksum() takes, without any width.
def word_sum : List UInt8 → Nat
  | first :: second :: rest => (load16 host first second).toNat + word_sum rest
  | [last] => (load16 host last 0).toNat
  | [] => 0

theorem word_sum_le (buf : List UInt8) : word_sum host buf ≤ 65535 * ((buf.length + 1) / 2) := by
  induction buf using word_sum.induct with
  | case1 first second rest ih =>
      have hword := (load16 host first second).toNat_lt
      simp only [word_sum, List.length_cons]
      omega
  | case2 last =>
      have hword := (load16 host last 0).toNat_lt
      simp only [word_sum, List.length_cons, List.length_nil]
      omega
  | case3 => simp [word_sum]

-- The words of a message that are lost when only `kept` of it arrives. After an odd number of
-- bytes the next byte belongs to a word whose first byte is still there.
def lost_sum (kept lost : List UInt8) : Nat :=
  word_sum host (if kept.length % 2 = 0 then lost else 0 :: lost)

theorem word_sum_append (kept lost : List UInt8) :
    word_sum host (kept ++ lost) = word_sum host kept + lost_sum host kept lost := by
  induction kept using word_sum.induct with
  | case1 first second rest ih =>
      have hparity : lost_sum host (first :: second :: rest) lost = lost_sum host rest lost := by
        simp only [lost_sum, List.length_cons]
        congr 2
        simp only [eq_iff_iff]
        omega
      rw [List.cons_append, List.cons_append, word_sum, ih, word_sum, hparity, Nat.add_assoc]
  | case2 last =>
      cases lost with
      | nil => simp [lost_sum, word_sum, load16_zero]
      | cons next lost =>
          have h := load16_add host last next
          simp only [lost_sum, List.cons_append, List.nil_append, List.length_singleton, word_sum,
            Nat.one_mod, Nat.one_ne_zero, ite_false]
          omega
  | case3 => simp [lost_sum, word_sum]

theorem word_sum_append_even (front back : List UInt8) (h : front.length % 2 = 0) :
    word_sum host (front ++ back) = word_sum host front + word_sum host back := by
  rw [word_sum_append, lost_sum, if_pos h]

-- The accumulator does not wrap as long as the sum has room in it.
theorem sum_words_toNat (sum : UInt32) (buf : List UInt8)
    (h : sum.toNat + word_sum host buf < 2 ^ 32) :
    (sum_words host sum buf).toNat = sum.toNat + word_sum host buf := by
  induction buf using word_sum.induct generalizing sum with
  | case1 first second rest ih =>
      simp only [word_sum] at h
      have hsum : (sum + (load16 host first second).toUInt32).toNat =
          sum.toNat + (load16 host first second).toNat := by
        rw [UInt32.toNat_add, UInt16.toNat_toUInt32, Nat.mod_eq_of_lt (by omega)]
      rw [sum_words, ih _ (by omega), hsum, word_sum]
      omega
  | case2 last =>
      simp only [word_sum] at h
      rw [sum_words, word_sum, UInt32.toNat_add, UInt16.toNat_toUInt32,
        Nat.mod_eq_of_lt (by omega)]
  | case3 => simp [sum_words, word_sum]

theorem fold_toNat (sum : UInt32) :
    ((sum &&& (0xFFFF : UInt32)) + (sum >>> 16)).toNat = carry 65536 sum.toNat := by
  have hsum := sum.toNat_lt
  have hlow : (sum &&& (0xFFFF : UInt32)).toNat = sum.toNat % 65536 := by
    rw [UInt32.toNat_and]
    exact Nat.and_two_pow_sub_one_eq_mod _ 16
  have hhigh : (sum >>> 16).toNat = sum.toNat / 65536 := by
    rw [UInt32.toNat_shiftRight]
    exact Nat.shiftRight_eq_div_pow _ 16
  rw [UInt32.toNat_add, hlow, hhigh, carry, Nat.mod_eq_of_lt (by omega)]

theorem shift_eq_zero_iff (sum : UInt32) : sum >>> 16 = 0 ↔ sum.toNat < 65536 := by
  have hhigh : (sum >>> 16).toNat = sum.toNat / 65536 := by
    rw [UInt32.toNat_shiftRight]
    exact Nat.shiftRight_eq_div_pow _ 16
  rw [← UInt32.toNat_inj, hhigh, UInt32.toNat_zero]
  omega

theorem carry_of_lt {x : Nat} (h : x < 65536) : carry 65536 x = x := by
  rw [carry, Nat.mod_eq_of_lt h, Nat.div_eq_of_lt h, Nat.add_zero]

theorem fold_carries_toNat (sum : UInt32) :
    (fold_carries 2 sum).toNat = carry 65536 (carry 65536 sum.toNat) := by
  rw [fold_carries]
  split_ifs with hsum
  · rw [shift_eq_zero_iff] at hsum
    rw [carry_of_lt hsum, carry_of_lt hsum]
  · rw [fold_carries]
    split_ifs with honce
    · rw [shift_eq_zero_iff, fold_toNat] at honce
      rw [fold_toNat, carry_of_lt honce]
    · rw [fold_carries, fold_toNat, fold_toNat]

-- The loop condition is false after two rounds, whatever the sum was.
theorem fold_carries_ends (sum : UInt32) : fold_carries 2 sum >>> 16 = 0 := by
  rw [shift_eq_zero_iff, fold_carries_toNat]
  exact carry_carry_lt (by omega) (by have := sum.toNat_lt; omega)

theorem value_carry_carry (x : Nat) (h : x < 65536 * 65536) :
    carry 65536 (carry 65536 x) = value 65536 x := by
  have hlt := carry_carry_lt (by omega : 2 ≤ 65536) h
  rw [← value_of_lt hlt, value_carry (by omega), value_carry (by omega)]

theorem ft_checksum_toNat (buf : List UInt8) (h : buf.length ≤ 131074) :
    (ft_checksum host buf).toNat = 65535 - value 65536 (word_sum host buf) := by
  have hle := word_sum_le host buf
  have hsum := sum_words_toNat host 0 buf (by rw [UInt32.toNat_zero]; omega)
  rw [UInt32.toNat_zero, Nat.zero_add] at hsum
  have hfold : (fold_carries 2 (sum_words host 0 buf)).toNat =
      value 65536 (word_sum host buf) := by
    rw [fold_carries_toNat, hsum, value_carry_carry _ (by omega)]
  have hvalue := value_le (by omega : 2 ≤ 65536) (word_sum host buf)
  rw [ft_checksum, UInt32.toNat_toUInt16, UInt32.toNat_not, hfold]
  simp only [UInt32.size]
  omega

end FtPing
