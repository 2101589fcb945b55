import FtPing.CLib.Strtol
import Mathlib.Algebra.Order.Round
import Mathlib.Data.Rat.Floor
import Mathlib.Tactic.Linarith

namespace CLib

-- %u and %zu, and %d of a number that is not negative.
def decimal (n : Nat) : CString := Nat.toDigits 10 n

-- Digits with zeros before them to a width, as in %04x.
def padded (width base n : Nat) : CString :=
  List.replicate (width - (Nat.toDigits base n).length) '0' ++ Nat.toDigits base n

-- The nearest integer, of two the even one.
def roundEven (x : ℚ) : Int :=
  let k := ⌊x⌋
  if x - k < 1 / 2 then k else if 1 / 2 < x - k then k + 1 else k + k % 2

-- A number of thousandths as it stands behind %.3f.
def thousandths (n : Nat) : CString := decimal (n / 1000) ++ '.' :: padded 3 10 (n % 1000)

-- %.3f
def fixed3 (x : ℚ) : CString :=
  if x < 0 then '-' :: thousandths (roundEven (1000 * -x)).toNat
  else thousandths (roundEven (1000 * x)).toNat

section Digits

section Base

variable {base : Nat} (hbase : 1 < base) (hmax : base ≤ 16) (n : Nat)

include hbase hmax

end Base

end Digits

section Rounding

end Rounding

-- The value that %.3f shows.
def rounded3 (x : ℚ) : ℚ := roundEven (1000 * x) / 1000

end CLib
