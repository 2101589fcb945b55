import FtPing.Types

namespace FtPing

open Numeric

-- A clock reading of `ns` nanoseconds, normalised as clock_gettime() gives it.
def timespec (ns : Nat) : Timespec :=
  ⟨(ns / 1000000000 : Nat), (ns % 1000000000 : Nat)⟩

-- The same reading in milliseconds.
def ms (ns : Nat) : ℚ := (ns : ℚ) / 1000000

def elapsed_ms (start finish : Timespec) : ℚ :=
  let start_ns := start.tv_sec * 1000000000 + start.tv_nsec
  let end_ns := finish.tv_sec * 1000000000 + finish.tv_nsec
  ((end_ns - start_ns : Int) : ℚ) / 1000000

-- What now_ms() makes of the reading that clock_gettime() has just taken.
def now_ms (ts : Timespec) : Double :=
  .finite ((ts.tv_sec : ℚ) * 1000 + (ts.tv_nsec : ℚ) / 1000000)

-- The conversion of ceil(d) to int: what does not fit gives INT_MIN, as x86 does.
def intOfCeil : Double → Int
  | .finite d => ⌈d⌉
  | _ => -2147483648

def ms_until (target now : Double) : Int :=
  let d := target.sub now
  if d.lt (.finite 0) then 0
  else if d.gt (.finite PING_POLL_MAX_MS) then 3600000
  else intOfCeil d

theorem timespec_ns (ns : Nat) :
    (timespec ns).tv_sec * 1000000000 + (timespec ns).tv_nsec = ns := by
  simp only [timespec]
  omega

theorem elapsed_ms_timespec (start finish : Nat) :
    elapsed_ms (timespec start) (timespec finish) = ms finish - ms start := by
  simp only [elapsed_ms, timespec_ns, ms]
  push_cast
  ring

@[simp] theorem now_ms_timespec (ns : Nat) : now_ms (timespec ns) = .finite (ms ns) := by
  have h : (ns : ℚ) = ((timespec ns).tv_sec : ℚ) * 1000000000 + ((timespec ns).tv_nsec : ℚ) := by
    exact_mod_cast (timespec_ns ns).symm
  simp only [now_ms, ms, Double.finite.injEq]
  rw [h]
  ring

theorem ms_le_ms {first second : Nat} (h : first ≤ second) : ms first ≤ ms second := by
  have hq : (first : ℚ) ≤ second := by exact_mod_cast h
  unfold ms
  linarith

end FtPing
