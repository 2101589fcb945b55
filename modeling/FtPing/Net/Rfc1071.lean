import FtPing.CLib.Int
import FtPing.Net.ChecksumValue

namespace FtPing

open Bytes CLib OnesComplement

variable (host : Endian)

-- The reference's checksum, whose sum is an int and whose fold has two steps.
section Reference

def icmp_sum : Int → List UInt8 → Int
  | sum, first :: second :: rest =>
      icmp_sum (int (sum + ((load16 host first second).toNat : Int))) rest
  | sum, [last] => int (sum + ((load16 host last 0).toNat : Int))
  | sum, [] => sum

-- `sum & 0xffff` is the remainder, of a negative sum as well.
def icmp_fold (sum : Int) : UInt16 :=
  let sum := int ((sum >>> (16 : Nat)) + sum % 65536)
  let sum := int (sum + (sum >>> (16 : Nat)))
  UInt16.ofInt (~~~ sum)

def icmp_cksum (addr : List UInt8) : UInt16 := icmp_fold (icmp_sum host 0 addr)

theorem icmp_sum_eq (sum : Int) (buf : List UInt8) :
    icmp_sum host (int sum) buf = int (sum + word_sum host buf) := by
  induction buf using word_sum.induct generalizing sum with
  | case1 first second rest ih =>
      have hstep : int (int sum + ((load16 host first second).toNat : Int)) =
          int (sum + ((load16 host first second).toNat : Int)) := by
        simp only [int]
        omega
      rw [icmp_sum, hstep, ih, word_sum, Nat.cast_add, Int.add_assoc]
  | case2 last =>
      simp only [icmp_sum, word_sum, int]
      omega
  | case3 => simp [icmp_sum, word_sum]

theorem shiftRight_sixteen (x : Int) : x >>> (16 : Nat) = x / 65536 := by
  rw [Int.shiftRight_eq_div_pow]
  rfl

theorem ofInt_not_toNat (x : Int) : (UInt16.ofInt (~~~ x)).toNat = 65535 - (x % 65536).toNat := by
  have hnot : ~~~ x = -x - 1 := by
    change Int.not x = _
    cases x with
    | ofNat n =>
        rw [Int.not, Int.negSucc_eq, Int.ofNat_eq_natCast]
        omega
    | negSucc n =>
        rw [Int.not, Int.negSucc_eq, Int.ofNat_eq_natCast]
        omega
  rw [UInt16.ofInt, UInt16.toNat_ofNat', hnot]
  omega

-- The fold of a sum that an int holds makes the two carries.
theorem icmp_fold_toNat (sum : Nat) (h : sum ≤ 2147483647) :
    (icmp_fold sum).toNat = 65535 - carry 65536 (carry 65536 sum) := by
  have hlt := carry_carry_lt (b := 65536) (x := sum) (by omega) (by omega)
  have honce : int (((sum : Int) >>> (16 : Nat)) + (sum : Int) % 65536) = (carry 65536 sum : Nat) := by
    rw [shiftRight_sixteen, int_of_isInt (by simp only [IsInt, INT_MIN, INT_MAX]; omega), carry]
    omega
  have hsmall : carry 65536 sum ≤ 131070 := by
    rw [carry]
    omega
  generalize carry 65536 sum = folded at honce hlt hsmall
  rw [carry] at hlt ⊢
  simp only [icmp_fold]
  rw [honce, ofInt_not_toNat, shiftRight_sixteen,
    int_of_isInt (by simp only [IsInt, INT_MIN, INT_MAX]; omega)]
  omega

theorem icmp_cksum_eq (buf : List UInt8) (hlen : buf.length ≤ 131074)
    (h : word_sum host buf ≤ 2147483647) : icmp_cksum host buf = ft_checksum host buf := by
  have hint : IsInt (word_sum host buf : Int) := by
    simp only [IsInt, INT_MIN, INT_MAX]
    omega
  have hsum := icmp_sum_eq host 0 buf
  rw [Int.zero_add, int_of_isInt hint] at hsum
  apply UInt16.toNat_inj.mp
  rw [icmp_cksum, show (0 : Int) = int 0 from rfl, hsum, icmp_fold_toNat _ h,
    ft_checksum_toNat host buf hlen, value_carry_carry _ (by omega)]

end Reference

section Sum

theorem sum_words_append (sum : UInt32) (front back : List UInt8) (h : front.length % 2 = 0) :
    sum_words host sum (front ++ back) = sum_words host (sum_words host sum front) back := by
  induction front using word_sum.induct generalizing sum with
  | case1 first second rest ih =>
      have hrest : rest.length % 2 = 0 := by
        simp only [List.length_cons] at h
        omega
      simp only [List.cons_append, sum_words, ih _ hrest]
  | case2 last => simp at h
  | case3 => rfl

-- The accumulator after the first words is what the loop goes on from.
theorem sum_words_resumed (sum : UInt32) (buf : List UInt8) {n : Nat} (h : n % 2 = 0) :
    sum_words host sum buf = sum_words host (sum_words host sum (buf.take n)) (buf.drop n) := by
  by_cases hle : n ≤ buf.length
  · rw [← sum_words_append host sum _ _ (by rw [List.length_take, Nat.min_eq_left hle]; exact h),
      List.take_append_drop]
  · rw [List.take_of_length_le (by omega), List.drop_of_length_le (by omega), sum_words]

-- On a little-endian host a trailing byte is the low one of its word.
theorem word_sum_le_little (buf : List UInt8) :
    word_sum .little buf ≤ 65535 * (buf.length / 2) + 255 * (buf.length % 2) := by
  induction buf using word_sum.induct with
  | case1 first second rest ih =>
      have hword := (load16 .little first second).toNat_lt
      simp only [word_sum, List.length_cons]
      omega
  | case2 last =>
      have hlast := last.toNat_lt
      simp only [word_sum, load16_toNat, List.length_cons, List.length_nil]
      simp
      omega
  | case3 => simp [word_sum]

theorem fold_carries_done {sum : UInt32} (h : sum >>> 16 = 0) (rounds : Nat) :
    fold_carries rounds sum = sum := by
  cases rounds with
  | zero => rfl
  | succ rounds => rw [fold_carries, if_pos h]

theorem fold_carries_add (rounds more : Nat) (sum : UInt32) :
    fold_carries (rounds + more) sum = fold_carries more (fold_carries rounds sum) := by
  induction rounds generalizing sum with
  | zero => rw [Nat.zero_add, fold_carries]
  | succ rounds ih =>
      rw [Nat.add_right_comm, fold_carries, fold_carries]
      by_cases h : sum >>> 16 = 0
      · rw [if_pos h, if_pos h, fold_carries_done h]
      · rw [if_neg h, if_neg h, ih]

-- More than two rounds change nothing.
theorem fold_carries_of_le {rounds : Nat} (h : 2 ≤ rounds) (sum : UInt32) :
    fold_carries rounds sum = fold_carries 2 sum := by
  obtain ⟨more, rfl⟩ := Nat.exists_eq_add_of_le h
  rw [fold_carries_add, fold_carries_done (fold_carries_ends sum)]

end Sum

section Field

variable {message : List UInt8} {offset : Nat} (heven : offset % 2 = 0)
  (hfit : offset + 2 ≤ message.length)

include heven hfit

theorem word_sum_field (word : UInt16) :
    word_sum host (overwrite message offset (store16 host word)) =
      word_sum host (message.take offset) + word.toNat +
        word_sum host (message.drop (offset + 2)) := by
  have hfront : (message.take offset).length % 2 = 0 := by
    rw [List.length_take, Nat.min_eq_left (by omega)]
    exact heven
  obtain ⟨first, second, hstore, hload⟩ := load16_store16 host word
  rw [overwrite_eq _ _ _ (by rw [store16_length]; exact hfit), store16_length, hstore,
    List.append_assoc, word_sum_append_even host _ _ hfront]
  simp only [List.cons_append, List.nil_append, word_sum, hload]
  omega

-- With its own checksum in the field the message sums to all ones.
theorem ft_checksum_inserted (hlen : message.length ≤ 131074) :
    ft_checksum host (overwrite message offset
      (store16 host (ft_checksum host (overwrite message offset (store16 host 0))))) = 0 := by
  have hzero := word_sum_field host heven hfit 0
  rw [UInt16.toNat_zero, Nat.add_zero] at hzero
  have hchecksum := ft_checksum_toNat host (overwrite message offset (store16 host 0))
    (by rw [overwrite_length]; exact hlen)
  have hsum := word_sum_field host heven hfit
    (ft_checksum host (overwrite message offset (store16 host 0)))
  have hall := ((complement_iff (by omega : 2 ≤ 65536)
    (word_sum host (overwrite message offset (store16 host 0))) _
    (UInt16.toNat_lt _)).mp hchecksum.symm).1
  apply UInt16.toNat_inj.mp
  rw [ft_checksum_toNat host _ (by rw [overwrite_length]; exact hlen), hsum, Nat.add_right_comm,
    ← hzero, hall]
  rfl

end Field

theorem word_sum_replicate (words : Nat) :
    word_sum .big (List.replicate (2 * words + 1) 255) = 65535 * words + 65280 := by
  induction words with
  | zero => rfl
  | succ words ih =>
      rw [show 2 * (words + 1) + 1 = 2 * words + 1 + 1 + 1 by omega, List.replicate_succ,
        List.replicate_succ, word_sum, ih, load16_toNat]
      simp
      omega

-- 65537 bytes of ones on a big-endian host, where the int of the reference overflows.
theorem ft_checksum_differs_from_icmp_cksum :
    (List.replicate 65537 (255 : UInt8)).length ≤ 65537 ∧
      ¬ IsInt (word_sum .big (List.replicate 65537 255)) ∧
      icmp_cksum .big (List.replicate 65537 255) ≠ ft_checksum .big (List.replicate 65537 255) := by
  have hsum : word_sum .big (List.replicate 65537 255) = 2147516160 := word_sum_replicate 32768
  have hlen : (List.replicate 65537 (255 : UInt8)).length = 65537 := List.length_replicate
  refine ⟨hlen.le, by rw [hsum]; decide, fun h => ?_⟩
  have hours := ft_checksum_toNat .big (List.replicate 65537 255) (by omega)
  have htheirs : icmp_cksum .big (List.replicate 65537 255) = icmp_fold (int 2147516160) := by
    rw [icmp_cksum, show (0 : Int) = int 0 from rfl, icmp_sum_eq, hsum]
    rfl
  rw [← h, htheirs, hsum] at hours
  exact absurd hours (by decide)

-- The checksum is the complement of the sum of all words with the carries brought around, and
-- the one that the reference computes as long as the reference's int holds the sum.
theorem ft_checksum_is_rfc1071 (buf : List UInt8) (hlen : buf.length ≤ 131074) :
    (∀ n, (sum_words host 0 (buf.take n)).toNat = word_sum host (buf.take n) ∧
      (n % 2 = 0 →
        sum_words host 0 buf = sum_words host (sum_words host 0 (buf.take n)) (buf.drop n))) ∧
    (ft_checksum host buf).toNat = 0xFFFF -
      (if word_sum host buf = 0 then 0 else (word_sum host buf - 1) % 65535 + 1) ∧
    (∀ rounds, 2 ≤ rounds →
      fold_carries rounds (sum_words host 0 buf) = fold_carries 2 (sum_words host 0 buf) ∧
      fold_carries rounds (sum_words host 0 buf) >>> 16 = 0) ∧
    (buf.length ≤ 65536 ∨ host = .little ∧ buf.length ≤ 65537 →
      icmp_cksum host buf = ft_checksum host buf) ∧
    ∀ offset, offset % 2 = 0 → offset + 2 ≤ buf.length →
      ft_checksum host (overwrite buf offset
        (store16 host (ft_checksum host (overwrite buf offset (store16 host 0))))) = 0 := by
  refine ⟨fun n => ?_, ft_checksum_toNat host buf hlen, fun rounds hrounds => ?_, fun hshort => ?_,
    fun offset heven hfit => ft_checksum_inserted host heven hfit hlen⟩
  · have hle := word_sum_le host (buf.take n)
    have hfewer := List.length_take_le' n buf
    refine ⟨?_, sum_words_resumed host 0 buf⟩
    rw [sum_words_toNat host 0 _ (by rw [UInt32.toNat_zero]; omega), UInt32.toNat_zero,
      Nat.zero_add]
  · rw [fold_carries_of_le hrounds]
    exact ⟨rfl, fold_carries_ends _⟩
  · apply icmp_cksum_eq host buf hlen
    rcases hshort with hshort | ⟨rfl, hshort⟩
    · have hle := word_sum_le host buf
      omega
    · have hle := word_sum_le_little buf
      omega

theorem ft_checksum_is_rfc1071_odd :
    fold_carries 3 (sum_words .little 0 [8, 0, 0, 0, 255]) >>> 16 = 0 ∧
      icmp_cksum .little [8, 0, 0, 0, 255] = ft_checksum .little [8, 0, 0, 0, 255] ∧
      ft_checksum .little (overwrite [8, 0, 0, 0, 255] 2
        (store16 .little (ft_checksum .little (overwrite [8, 0, 0, 0, 255] 2 [0, 0])))) = 0 := by
  obtain ⟨-, -, hfold, hreference, hinserted⟩ :=
    ft_checksum_is_rfc1071 .little [8, 0, 0, 0, 255] (by decide)
  exact ⟨(hfold 3 (by decide)).2, hreference (Or.inl (by decide)),
    hinserted 2 (by decide) (by decide)⟩

end FtPing
