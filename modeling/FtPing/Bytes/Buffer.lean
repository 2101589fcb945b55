import Mathlib.Data.List.GetD

namespace Bytes

variable {α : Type}

-- Writes `values` over `cells` from `offset` on. What would fall outside is dropped.
def overwrite (cells : List α) (offset : Nat) (values : List α) : List α :=
  cells.take offset ++ values.take (cells.length - offset) ++ cells.drop (offset + values.length)

@[simp] theorem overwrite_length (cells : List α) (offset : Nat) (values : List α) :
    (overwrite cells offset values).length = cells.length := by
  simp only [overwrite, List.length_append, List.length_take, List.length_drop]
  omega

theorem overwrite_eq (cells : List α) (offset : Nat) (values : List α)
    (h : offset + values.length ≤ cells.length) :
    overwrite cells offset values =
      cells.take offset ++ values ++ cells.drop (offset + values.length) := by
  rw [overwrite, List.take_of_length_le (l := values) (by omega)]

theorem overwrite_nil (cells : List α) (offset : Nat) : overwrite cells offset [] = cells := by
  rw [overwrite, List.take_nil, List.append_nil, List.length_nil, Nat.add_zero,
    List.take_append_drop]

def slice (cells : List α) (offset length : Nat) : List α :=
  (cells.drop offset).take length

theorem slice_length (cells : List α) (offset length : Nat) (h : offset + length ≤ cells.length) :
    (slice cells offset length).length = length := by
  simp only [slice, List.length_take, List.length_drop]
  omega

theorem getD_slice (cells : List α) (offset length i : Nat) (default : α) (h : i < length) :
    (slice cells offset length).getD i default = cells.getD (offset + i) default := by
  simp only [slice, List.getD_eq_getElem?_getD, List.getElem?_take_of_lt h, List.getElem?_drop]

theorem getD_drop (cells : List α) (offset i : Nat) (default : α) :
    (cells.drop offset).getD i default = cells.getD (offset + i) default := by
  simp only [List.getD_eq_getElem?_getD, List.getElem?_drop]

theorem slice_append_left (front back : List α) (offset length : Nat)
    (h : offset + length ≤ front.length) :
    slice (front ++ back) offset length = slice front offset length := by
  rw [slice, slice, List.drop_append_of_le_length (by omega),
    List.take_append_of_le_length (by simp only [List.length_drop]; omega)]

-- Of two writes to the same cells the second one counts.
theorem overwrite_overwrite (cells : List α) (offset : Nat) (first second : List α)
    (hlen : first.length = second.length) (h : offset + first.length ≤ cells.length) :
    overwrite (overwrite cells offset first) offset second = overwrite cells offset second := by
  have htake : (overwrite cells offset first).take offset = cells.take offset := by
    rw [overwrite_eq cells offset first h, List.append_assoc,
      List.take_append_of_le_length (by simp only [List.length_take]; omega), List.take_take,
      Nat.min_self]
  have hdrop : (overwrite cells offset first).drop (offset + first.length) =
      cells.drop (offset + first.length) := by
    rw [overwrite_eq cells offset first h]
    exact List.drop_left' (by simp only [List.length_append, List.length_take]; omega)
  rw [overwrite_eq _ _ second (by rw [overwrite_length]; omega),
    overwrite_eq cells _ second (by omega), htake, ← hlen, hdrop]

theorem overwrite_slice (cells : List α) (offset length : Nat)
    (h : offset + length ≤ cells.length) :
    overwrite cells offset (slice cells offset length) = cells := by
  have hlen := slice_length cells offset length h
  rw [overwrite_eq _ _ _ (by rw [hlen]; exact h), hlen, slice, List.append_assoc,
    ← List.drop_drop, List.take_append_drop, List.take_append_drop]

-- Writing back the bytes that were there undoes a write of the same length.
theorem overwrite_restore (cells : List α) (offset : Nat) (values : List α)
    (h : offset + values.length ≤ cells.length) :
    overwrite (overwrite cells offset values) offset (slice cells offset values.length) =
      cells := by
  rw [overwrite_overwrite _ _ _ _ (slice_length _ _ _ h).symm h, overwrite_slice _ _ _ h]

theorem getD_overwrite (cells : List α) (offset : Nat) (values : List α) (i : Nat) (default : α)
    (h : offset + values.length ≤ cells.length) :
    (overwrite cells offset values).getD i default =
      if offset ≤ i ∧ i < offset + values.length then values.getD (i - offset) default
      else cells.getD i default := by
  have hfront : (cells.take offset).length = offset := by
    rw [List.length_take]
    omega
  rw [overwrite_eq _ _ _ h]
  simp only [List.getD_eq_getElem?_getD]
  by_cases hin : offset ≤ i ∧ i < offset + values.length
  · rw [if_pos hin, List.getElem?_append_left (by rw [List.length_append]; omega),
      List.getElem?_append_right (by omega), hfront]
  · rw [if_neg hin]
    by_cases hlow : i < offset
    · rw [List.getElem?_append_left (by rw [List.length_append]; omega),
        List.getElem?_append_left (by omega), List.getElem?_take_of_lt hlow]
    · rw [List.getElem?_append_right (by rw [List.length_append]; omega), List.length_append,
        hfront, List.getElem?_drop]
      congr 2
      omega

theorem overwrite_append_left (front back : List α) (offset : Nat) (values : List α)
    (h : offset + values.length ≤ front.length) :
    overwrite (front ++ back) offset values = overwrite front offset values ++ back := by
  rw [overwrite_eq _ _ _ (by simp only [List.length_append]; omega), overwrite_eq _ _ _ h,
    List.take_append_of_le_length (by omega), List.drop_append_of_le_length h,
    List.append_assoc _ _ back]

-- The cells before a write stay.
theorem take_overwrite (cells : List α) (count offset : Nat) (values : List α)
    (h : count ≤ offset) : (overwrite cells offset values).take count = cells.take count := by
  by_cases hlen : count ≤ cells.length
  · rw [overwrite, List.append_assoc,
      List.take_append_of_le_length (by simp only [List.length_take]; omega), List.take_take,
      Nat.min_eq_left h]
  · have hall : overwrite cells offset values = cells := by
      rw [overwrite, List.take_of_length_le (by omega), show cells.length - offset = 0 by omega,
        List.take_zero, List.drop_of_length_le (by omega), List.append_nil, List.append_nil]
    rw [hall]

-- Writing behind the first `start` cells, seen from there.
theorem drop_overwrite (cells : List α) (start offset : Nat) (values : List α)
    (h : start + offset + values.length ≤ cells.length) :
    (overwrite cells (start + offset) values).drop start =
      overwrite (cells.drop start) offset values := by
  have htake : (cells.take (start + offset)).length = start + offset := by
    simp only [List.length_take]
    omega
  rw [overwrite_eq _ _ _ h,
    overwrite_eq _ _ _ (by simp only [List.length_drop]; omega), List.append_assoc,
    List.drop_append_of_le_length (by omega), List.drop_take, List.drop_drop, List.append_assoc]
  congr 3
  all_goals omega

-- The cells behind a write stay as well.
theorem drop_overwrite_of_le (cells : List α) (count offset : Nat) (values : List α)
    (hfit : offset + values.length ≤ cells.length) (h : offset + values.length ≤ count) :
    (overwrite cells offset values).drop count = cells.drop count := by
  have hfront : (cells.take offset ++ values).length = offset + values.length := by
    rw [List.length_append, List.length_take, Nat.min_eq_left (by omega)]
  rw [overwrite_eq _ _ _ hfit, List.drop_append, hfront, List.drop_of_length_le (by omega),
    List.nil_append, List.drop_drop, Nat.add_sub_cancel' h]

-- Writing on where the last write ended.
theorem overwrite_append (cells : List α) (offset : Nat) (first second : List α)
    (h : offset + first.length + second.length ≤ cells.length) :
    overwrite (overwrite cells offset first) (offset + first.length) second =
      overwrite cells offset (first ++ second) := by
  have hfront : (cells.take offset ++ first).length = offset + first.length := by
    rw [List.length_append, List.length_take, Nat.min_eq_left (by omega)]
  have htake : (overwrite cells offset first).take (offset + first.length) =
      cells.take offset ++ first := by
    rw [overwrite_eq _ _ _ (by omega), List.take_left' hfront]
  have hdrop : (overwrite cells offset first).drop (offset + first.length + second.length) =
      cells.drop (offset + first.length + second.length) :=
    drop_overwrite_of_le _ _ _ _ (by omega) (by omega)
  rw [overwrite_eq _ _ _ (by rw [overwrite_length]; omega), htake, hdrop,
    overwrite_eq _ _ _ (by rw [List.length_append]; omega), List.length_append, ← Nat.add_assoc,
    List.append_assoc (cells.take offset) first second]

theorem drop_overwrite_self (cells : List α) (offset : Nat) (values : List α)
    (h : offset + values.length = cells.length) :
    (overwrite cells offset values).drop offset = values := by
  have hfront : (cells.take offset).length = offset := by
    rw [List.length_take]
    omega
  rw [overwrite_eq _ _ _ (Nat.le_of_eq h), List.drop_of_length_le (l := cells) (by omega),
    List.append_nil, List.drop_left' hfront]

-- A block of memory of a fixed capacity.
structure Buffer (capacity : Nat) where
  bytes : List UInt8
  length_bytes : bytes.length = capacity

namespace Buffer

variable {capacity : Nat}

def zeroed (capacity : Nat) : Buffer capacity :=
  ⟨List.replicate capacity 0, List.length_replicate⟩

def byte (buffer : Buffer capacity) (index : Nat) : UInt8 := buffer.bytes.getD index 0

def load (buffer : Buffer capacity) (offset length : Nat) : List UInt8 :=
  slice buffer.bytes offset length

def store (buffer : Buffer capacity) (offset : Nat) (values : List UInt8) : Buffer capacity :=
  ⟨overwrite buffer.bytes offset values, by rw [overwrite_length, buffer.length_bytes]⟩

@[ext] theorem ext {left right : Buffer capacity} (h : left.bytes = right.bytes) :
    left = right := by
  cases left
  cases right
  cases h
  rfl

end Buffer

end Bytes
