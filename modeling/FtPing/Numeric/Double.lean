import Mathlib.Data.Rat.Floor
import Mathlib.Tactic.Linarith

namespace Numeric

-- A C double, except that finite values are exact: arithmetic does not round. Infinities and
-- NaN behave as IEEE 754 has it; in particular every ordered comparison with NaN is false.
inductive Double
  | finite (value : ℚ)
  | posInf
  | negInf
  | nan
  deriving DecidableEq

namespace Double

def lt : Double → Double → Bool
  | .nan, _ => false
  | _, .nan => false
  | .finite a, .finite b => a < b
  | .finite _, .posInf => true
  | .finite _, .negInf => false
  | .negInf, .negInf => false
  | .negInf, _ => true
  | .posInf, _ => false

def le : Double → Double → Bool
  | .nan, _ => false
  | _, .nan => false
  | .finite a, .finite b => a ≤ b
  | .finite _, .posInf => true
  | .finite _, .negInf => false
  | .negInf, _ => true
  | .posInf, .posInf => true
  | .posInf, _ => false

def gt (a b : Double) : Bool := lt b a

def ge (a b : Double) : Bool := le b a

def neg : Double → Double
  | .finite a => .finite (-a)
  | .posInf => .negInf
  | .negInf => .posInf
  | .nan => .nan

def add : Double → Double → Double
  | .nan, _ => .nan
  | _, .nan => .nan
  | .finite a, .finite b => .finite (a + b)
  | .finite _, b => b
  | .posInf, .negInf => .nan
  | .posInf, _ => .posInf
  | .negInf, .posInf => .nan
  | .negInf, _ => .negInf

def sub (a b : Double) : Double := add a (neg b)

-- `scale q a` is the product of the finite `q` and `a`.
def scale (q : ℚ) : Double → Double
  | .finite a => .finite (q * a)
  | .nan => .nan
  | .posInf => if 0 < q then .posInf else if q < 0 then .negInf else .nan
  | .negInf => if 0 < q then .negInf else if q < 0 then .posInf else .nan

-- fmin() gives back the other operand when one is NaN.
def fmin : Double → Double → Double
  | .nan, b => b
  | a, .nan => a
  | a, b => if lt a b then a else b

@[simp] theorem lt_finite (a b : ℚ) : lt (.finite a) (.finite b) = decide (a < b) := rfl

@[simp] theorem le_finite (a b : ℚ) : le (.finite a) (.finite b) = decide (a ≤ b) := rfl

@[simp] theorem add_finite (a b : ℚ) : add (.finite a) (.finite b) = .finite (a + b) := rfl

@[simp] theorem scale_finite (q a : ℚ) : scale q (.finite a) = .finite (q * a) := rfl

theorem ge_finite_mono (a b : ℚ) (d : Double) (h : ge (.finite a) d = true) (hab : a ≤ b) :
    ge (.finite b) d = true := by
  cases d with
  | finite d =>
      simp only [ge, le_finite, decide_eq_true_eq] at h ⊢
      exact h.trans hab
  | posInf => exact h
  | negInf => rfl
  | nan => exact h

-- A clock that is not before `last + interval` is at least as far from `last` as any lower
-- bound on the interval. NaN is the one interval that every clock is past.
theorem finite_of_not_before (now last : ℚ) (interval : Double) (low : ℚ)
    (hnan : interval ≠ .nan) (hlow : le (.finite low) interval = true)
    (h : lt (.finite now) (add (.finite last) interval) = false) : last + low ≤ now := by
  cases interval with
  | finite interval =>
      simp only [add_finite, lt_finite, decide_eq_false_iff_not, not_lt] at h
      simp only [le_finite, decide_eq_true_eq] at hlow
      linarith
  | posInf => simp [add, lt] at h
  | negInf => simp [le] at hlow
  | nan => exact absurd rfl hnan

end Double

end Numeric
