import Mathlib.Data.Int.Basic

namespace CLib

def INT_MAX : Int := 2147483647

def INT_MIN : Int := -2147483648

-- What an int can hold.
def IsInt (x : Int) : Prop := INT_MIN ≤ x ∧ x ≤ INT_MAX

instance (x : Int) : Decidable (IsInt x) := inferInstanceAs (Decidable (_ ∧ _))

-- The result of an int operation. The language leaves one that is out of range undefined;
-- this is what the two's complement operations of the machine make of it.
def int (x : Int) : Int := (x + 2147483648) % 4294967296 - 2147483648

theorem int_of_isInt {x : Int} (h : IsInt x) : int x = x := by
  simp only [IsInt, INT_MIN, INT_MAX] at h
  simp only [int]
  omega

-- A product or sum that has left the range comes out at least a whole turn away.
theorem int_of_gt {x : Int} (h : INT_MAX < x) : int x ≤ x - 4294967296 := by
  simp only [INT_MAX] at h
  simp only [int]
  omega

end CLib
