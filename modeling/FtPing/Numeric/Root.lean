import Mathlib.Analysis.Real.Sqrt
import Mathlib.Data.Rat.Floor
import Mathlib.Data.Rat.Cast.Order

namespace Numeric

-- The integer nearest to the square root, of two the even one.
def rootEven (x : ℚ) : Nat :=
  let k := Nat.sqrt ⌊x⌋₊
  if x < (k + 1 / 2) * (k + 1 / 2) then k
  else if (k + 1 / 2) * (k + 1 / 2) < x then k + 1
  else k + k % 2

section Root

variable {x : ℚ} (h : 0 ≤ x)

include h

end Root

end Numeric
