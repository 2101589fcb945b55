import FtPing.Cli.Parsed

namespace FtPing

open CLib

-- The options that take an integer, with their letters, the ranges that are checked and the
-- fields that keep them.
inductive NumericOpt
  | preload
  | ttl
  | packet_size
  | multicast_ttl
  | timeout
  deriving DecidableEq

namespace NumericOpt

def letter : NumericOpt → Char
  | .preload => 'l'
  | .ttl => 'm'
  | .packet_size => 's'
  | .multicast_ttl => 'T'
  | .timeout => 't'

def lo : NumericOpt → Int
  | .timeout => 1
  | _ => 0

def hi : NumericOpt → Int
  | .preload => LONG_MAX
  | .ttl => 255
  | .packet_size => 65507
  | .multicast_ttl => 255
  | .timeout => LONG_MAX

def field : NumericOpt → Flags → Int
  | .preload => Flags.preload
  | .ttl => Flags.ttl
  | .packet_size => Flags.packet_size
  | .multicast_ttl => Flags.multicast_ttl
  | .timeout => Flags.timeout

end NumericOpt

-- The common case: what is in the range is stored, as far as an int can hold it. `extra` is
-- a condition that other options have.
theorem stored_number {s : CString} {opt : Char} {lo hi x : Int} (set : Int → Flags)
    (field : Flags → Int) (hset : ∀ w, field (set w) = w) {extra : Prop} (hextra : extra) :
    (∃ flags, (opt_long s opt lo hi >>= fun tmp =>
        (pure (set (int_of_long tmp)) : Except Refusal Flags)) = .ok flags ∧ field flags = x) ↔
      ∃ v, test_strton strtol s = some v ∧ lo ≤ v ∧ v ≤ hi ∧ extra ∧ int_of_long v = x := by
  constructor
  · rintro ⟨flags, h, rfl⟩
    obtain ⟨v, hv, hflags⟩ := bind_eq_ok.mp h
    cases hflags
    obtain ⟨hnum, hlo, hhi⟩ := opt_long_eq_ok.mp hv
    exact ⟨v, hnum, hlo, hhi, hextra, (hset _).symm⟩
  · rintro ⟨v, hnum, hlo, hhi, -, rfl⟩
    exact ⟨_, bind_eq_ok.mpr ⟨v, opt_long_eq_ok.mpr ⟨hnum, hlo, hhi⟩, rfl⟩, hset _⟩

-- A numeric option is accepted for the numbers in its range, -l only of root; its field then
-- has what an int keeps of the number.
theorem parse_numeric {o : NumericOpt} {euid : Nat} {s : CString} {flags : Flags} {x : Int} :
    (∃ flags', parse_opt euid (.option o.letter (some s)) flags = .ok flags' ∧
        o.field flags' = x) ↔
      ∃ v, test_strton strtol s = some v ∧ o.lo ≤ v ∧ v ≤ o.hi ∧ (o = .preload → euid = 0) ∧
        int_of_long v = x := by
  cases o with
  | preload =>
      constructor
      · rintro ⟨flags', h, rfl⟩
        obtain ⟨v, hv, h⟩ := bind_eq_ok.mp h
        obtain ⟨⟨⟩, hroot, hflags⟩ := bind_eq_ok.mp h
        cases hflags
        obtain ⟨hnum, hlo, hhi⟩ := opt_long_eq_ok.mp hv
        exact ⟨v, hnum, hlo, hhi, fun _ => require_root_eq_ok.mp hroot, rfl⟩
      · rintro ⟨v, hnum, hlo, hhi, hroot, rfl⟩
        exact ⟨_, bind_eq_ok.mpr ⟨v, opt_long_eq_ok.mpr ⟨hnum, hlo, hhi⟩,
          bind_eq_ok.mpr ⟨(), require_root_eq_ok.mpr (hroot rfl), rfl⟩⟩, rfl⟩
  | ttl =>
      exact stored_number (fun w => { flags with has_ttl := true, ttl := w }) Flags.ttl
        (fun _ => rfl) nofun
  | packet_size =>
      exact stored_number (fun w => { flags with has_packet_size := true, packet_size := w })
        Flags.packet_size (fun _ => rfl) nofun
  | multicast_ttl =>
      exact stored_number (fun w => { flags with has_multicast_ttl := true, multicast_ttl := w })
        Flags.multicast_ttl (fun _ => rfl) nofun
  | timeout =>
      exact stored_number (fun w => { flags with has_timeout := true, timeout := w })
        Flags.timeout (fun _ => rfl) nofun

theorem int_of_long_eq_iff {v : Int} (hlo : 0 ≤ v) : int_of_long v = v ↔ v ≤ 2147483647 := by
  rw [int_of_long, Int.bmod_def]
  split_ifs <;> omega

-- What parse_info() stores for a numeric option that it accepts is the number that its
-- argument denotes, and in range: for -m, -s and -T always, for -l and -t unless the argument is
-- accepted and denotes a number that is past what an int can hold.
theorem numeric_option_stored_iff (o : NumericOpt) (euid : Nat) (s : CString) (flags : Flags) :
    (∀ flags', parse_opt euid (.option o.letter (some s)) flags = .ok flags' →
      Denotes s (o.field flags') ∧ o.lo ≤ o.field flags' ∧ o.field flags' ≤ o.hi) ↔
    (o ≠ .preload ∧ o ≠ .timeout) ∨ (o = .preload ∧ euid ≠ 0) ∨
      ∀ v, Denotes s v → v ≤ 2147483647 ∨ LONG_MAX < v := by
  constructor
  · intro h
    by_contra hcond
    simp only [not_or, not_forall, not_and_or, not_not, not_le, not_lt, exists_prop] at hcond
    obtain ⟨hletter, hroot, v, hdenotes, hbig, hlong⟩ := hcond
    have hlo : o.lo ≤ v := by
      cases o <;> simp only [NumericOpt.lo] <;> omega
    have hhi : v ≤ o.hi := by
      rcases hletter with rfl | rfl
      · exact hlong
      · exact hlong
    have hnum := test_strton_of_denotes hdenotes (by simp only [LONG_MIN]; omega) hlong
    obtain ⟨flags', haccepted, hstored⟩ := (@parse_numeric o euid s flags _).mpr
      ⟨v, hnum, hlo, hhi, fun ho => hroot.resolve_left (fun hne => hne ho), rfl⟩
    have hsame := (h flags' haccepted).1.unique hdenotes
    rw [hstored, int_of_long_eq_iff (by omega)] at hsame
    omega
  · intro hcond flags' haccepted
    obtain ⟨v, hnum, hlo, hhi, hroot, hstored⟩ := parse_numeric.mp ⟨flags', haccepted, rfl⟩
    have hdenotes := test_strton_denotes hnum
    have hlo0 : 0 ≤ v := by
      cases o <;> simp only [NumericOpt.lo] at hlo <;> omega
    have hfits : v ≤ 2147483647 := by
      rcases hcond with ⟨hl, ht⟩ | ⟨rfl, hne⟩ | hcond
      · cases o <;>
          simp only [NumericOpt.hi, ne_eq, not_true_eq_false, reduceCtorEq] at hhi hl ht <;>
          omega
      · exact absurd (hroot rfl) hne
      · rcases hcond v hdenotes with hle | hlong
        · exact hle
        · cases o <;> simp only [NumericOpt.hi, LONG_MAX] at hhi hlong <;> omega
    rw [← hstored, (int_of_long_eq_iff hlo0).mpr hfits]
    exact ⟨hdenotes, hlo, hhi⟩

-- ft_ping -t 4294967296 h
def long_timeout : Argv :=
  [some ['f', 't', '_', 'p', 'i', 'n', 'g'], some ['-', 't'],
    some ['4', '2', '9', '4', '9', '6', '7', '2', '9', '6'], some ['h'], none]

theorem long_timeout_stored_as_zero :
    ∃ flags, parse_info true 1000 4 long_timeout Flags.zero = .ok flags ∧ flags.timeout = 0 ∧
      Denotes (argAt long_timeout 2) 4294967296 ∧ ¬ Denotes (argAt long_timeout 2) 0 := by
  have hrun :
      (parse_info true 1000 4 long_timeout Flags.zero).toOption.map Flags.timeout = some 0 := by
    decide +kernel
  obtain ⟨flags, hflags, htimeout⟩ := Option.map_eq_some_iff.mp hrun
  have hdenotes : Denotes (argAt long_timeout 2) 4294967296 :=
    strtol_denotes (argAt long_timeout 2) (by decide +kernel) (by decide +kernel)
      (by decide +kernel)
  exact ⟨flags, eq_ok_of_toOption hflags, htimeout, hdenotes,
    fun hzero => absurd (hzero.unique hdenotes) (by decide)⟩

end FtPing
