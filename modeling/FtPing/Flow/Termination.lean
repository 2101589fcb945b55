import FtPing.Cli.Privilege
import FtPing.Flow.Haste

namespace FtPing

open Bytes CLib History Interaction Numeric

-- The check of -i lets no interval through that is not positive.
def Positive (flags : Flags) : Prop :=
  flags.has_interval = true → flags.interval.le (.finite 0) = false

theorem Positive.parse_opt {euid : Nat} {opt : Opt} {flags flags' : Flags} (h : Positive flags)
    (hparse : parse_opt euid opt flags = .ok flags') : Positive flags' := by
  cases parse_opt_parsed hparse with
  | interval s d hnum hpositive hroot => exact fun _ => hpositive
  | _ => exact h

theorem Positive.parse_opts {euid : Nat} (opts : List Opt) {flags flags' : Flags}
    (h : Positive flags) (hparse : parse_opts euid opts flags = .ok flags') : Positive flags' := by
  induction opts generalizing flags with
  | nil =>
      cases hparse
      exact h
  | cons opt rest ih =>
      obtain ⟨between, hopt, hrest⟩ := bind_eq_ok.mp hparse
      exact ih (h.parse_opt hopt) hrest

-- So the pace is positive, never ending, or not a number.
theorem Positive.pace {flags : Flags} (h : Positive flags) :
    (∃ interval, pace flags = .finite interval ∧ 0 < interval) ∨ pace flags = .posInf ∨
      pace flags = .nan := by
  unfold FtPing.pace
  by_cases hflood : flags.flood = true
  · rw [if_pos hflood]
    exact Or.inl ⟨_, rfl, by decide +kernel⟩
  · rw [if_neg hflood]
    by_cases hhas : flags.has_interval = true
    · rw [if_pos hhas]
      have hpositive := h hhas
      cases hinterval : flags.interval with
      | finite d =>
          rw [hinterval, Double.le_finite, decide_eq_false_iff_not, not_le] at hpositive
          exact Or.inl ⟨_, rfl, by linarith⟩
      | posInf => exact Or.inr (Or.inl rfl)
      | negInf =>
          rw [hinterval] at hpositive
          cases hpositive
      | nan => exact Or.inr (Or.inr rfl)
    · rw [if_neg hhas]
      exact Or.inl ⟨_, rfl, by decide +kernel⟩

section Bounded

variable {N : Type} {host : Endian} {net : Network N} {s t : State N} {q : Flow.Point}
  {most : Nat}

end Bounded

end FtPing
