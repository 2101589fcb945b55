import FtPing.CLib.Printf
import FtPing.Cli.LongOptions
import FtPing.Cli.Order

namespace FtPing

open Bytes CLib Numeric

-- What every option keeps of the flags besides: an int, an interval that could be read and that
-- is allowed, an address.
structure Stored (euid : Nat) (flags : Flags) : Prop where
  preload_fits : -2147483648 ≤ flags.preload ∧ flags.preload < 2147483648
  timeout_fits : -2147483648 ≤ flags.timeout ∧ flags.timeout < 2147483648
  interval_read : flags.has_interval = true →
    (∃ s, test_strton strtod s = some flags.interval) ∧ flags.interval.le (.finite 0) = false ∧
      (flags.interval.lt (.finite (1 / 500)) = false ∨ euid = 0)
  source_named : flags.has_source_addr = true → flags.source_addr ≠ none

theorem Stored.zero (euid : Nat) : Stored euid Flags.zero :=
  ⟨by decide, by decide, fun hset => (by cases hset), fun hset => (by cases hset)⟩

section Tokens

-- One option with its argument as it can stand on the command line. An argument directly follows
-- its letter, so that it is not taken for a long option, unless it is empty.
def written (c : Char) : Option CString → List CString
  | none => [['-', c]]
  | some [] => [['-', c], []]
  | some (first :: rest) => ['-' :: c :: first :: rest]

abbrev Setting := Char × Option CString

def Setting.opt (setting : Setting) : Opt := .option setting.1 setting.2

variable {c : Char} {arg : Option CString}

end Tokens

section Options

variable {euid : Nat} {flags s t u : Flags}

-- Options that lead from the one set of flags to the other.
def Leads (euid : Nat) (s t : Flags) : Prop :=
  ∃ opts : List Setting, (∀ setting ∈ opts, takesArg optstring setting.1 = some setting.2.isSome) ∧
    parse_opts euid (opts.map Setting.opt) s = .ok t

theorem Leads.trans (h : Leads euid s t) (h' : Leads euid t u) : Leads euid s u := by
  obtain ⟨opts, hopts, hst⟩ := h
  obtain ⟨opts', hopts', htu⟩ := h'
  refine ⟨opts ++ opts', fun setting hsetting => ?_, ?_⟩
  · rcases List.mem_append.mp hsetting with hsetting | hsetting
    · exact hopts setting hsetting
    · exact hopts' setting hsetting
  · rw [List.map_append, parse_opts, List.foldlM_append]
    exact bind_eq_ok.mpr ⟨t, hst, htu⟩

end Options

section Accepted

variable {euid : Nat} {flags flags' : Flags}

theorem int_of_long_fits (v : Int) :
    -2147483648 ≤ int_of_long v ∧ int_of_long v < 2147483648 := by
  rw [int_of_long, Int.bmod_def]
  split_ifs <;> omega

theorem Stored.parse_opt {opt : Opt} (h : Stored euid flags) (hopt : Delivered opt)
    (hparse : parse_opt euid opt flags = .ok flags') : Stored euid flags' := by
  cases parse_opt_parsed hparse with
  | preload s v hnum hlo hhi hroot => exact { h with preload_fits := int_of_long_fits v }
  | timeout s v hnum hlo hhi => exact { h with timeout_fits := int_of_long_fits v }
  | interval s d hnum hpositive hroot =>
      exact { h with interval_read := fun _ => ⟨⟨s, hnum⟩, hpositive, hroot⟩ }
  | source_addr optarg =>
      have harg : some true = some optarg.isSome := hopt
      refine { h with source_named := fun _ hnone => ?_ }
      change optarg = none at hnone
      rw [hnone] at harg
      cases harg
  | nothing letter optarg hletter => exact h
  | _ => exact { h with }

theorem Stored.parse_opts (opts : List Opt) (h : Stored euid flags)
    (hopts : ∀ opt ∈ opts, Delivered opt) (hparse : parse_opts euid opts flags = .ok flags') :
    Stored euid flags' := by
  induction opts generalizing flags with
  | nil =>
      cases hparse
      exact h
  | cons opt rest ih =>
      obtain ⟨between, hopt, hrest⟩ := bind_eq_ok.mp hparse
      exact ih (h.parse_opt (hopts opt List.mem_cons_self) hopt)
        (fun other hother => hopts other (List.mem_cons_of_mem _ hother)) hrest

end Accepted

end FtPing
