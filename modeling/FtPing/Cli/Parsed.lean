import FtPing.Cli.ParseArgs

namespace FtPing

open CLib Numeric

theorem opt_long_eq_ok {arg : CString} {opt : Char} {lo hi v : Int} :
    opt_long arg opt lo hi = .ok v ↔ test_strton strtol arg = some v ∧ lo ≤ v ∧ v ≤ hi := by
  unfold opt_long
  cases test_strton strtol arg with
  | none => simp
  | some w =>
      dsimp only
      split_ifs with hrange
      · simp only [Option.some.injEq, false_iff, not_and, not_le]
        omega
      · simp only [Except.ok.injEq, Option.some.injEq]
        constructor
        · rintro rfl
          omega
        · exact fun h => h.1

theorem require_root_eq_ok {euid : Nat} {opt : Char} {what : String} :
    require_root euid opt what = .ok () ↔ euid = 0 := by
  unfold require_root
  split_ifs with h <;> simp [h]

theorem bind_eq_ok {ε α β : Type} {x : Except ε α} {f : α → Except ε β} {b : β} :
    (x >>= f) = .ok b ↔ ∃ a, x = .ok a ∧ f a = .ok b := by
  cases x with
  | error e => exact ⟨nofun, fun ⟨_, h, _⟩ => nomatch h⟩
  | ok a => exact ⟨fun h => ⟨a, rfl, h⟩, fun ⟨_, ha, h⟩ => by cases ha; exact h⟩

theorem eq_ok_of_toOption {ε α : Type} {x : Except ε α} {a : α} (h : x.toOption = some a) :
    x = .ok a := by
  cases x with
  | error e => cases h
  | ok b =>
      cases h
      rfl

-- What a turn of parse_info()'s loop can do, one rule for each option it accepts.
inductive Parsed (euid : Nat) (flags : Flags) : Opt → Flags → Prop
  | flood (optarg : Option CString) (hroot : euid = 0) :
      Parsed euid flags (.option 'f' optarg) { flags with flood := true }
  | preload (s : CString) (v : Int) (hnum : test_strton strtol s = some v) (hlo : 0 ≤ v)
      (hhi : v ≤ LONG_MAX) (hroot : euid = 0) :
      Parsed euid flags (.option 'l' (some s))
        { flags with has_preload := true, preload := int_of_long v }
  | interval (s : CString) (d : Double) (hnum : test_strton strtod s = some d)
      (hpositive : d.le (.finite 0) = false)
      (hroot : d.lt (.finite (1 / 500)) = false ∨ euid = 0) :
      Parsed euid flags (.option 'i' (some s))
        { flags with has_interval := true, interval := d }
  | ttl (s : CString) (v : Int) (hnum : test_strton strtol s = some v) (hlo : 0 ≤ v)
      (hhi : v ≤ 255) :
      Parsed euid flags (.option 'm' (some s)) { flags with has_ttl := true, ttl := int_of_long v }
  | exit_on_reply (optarg : Option CString) :
      Parsed euid flags (.option 'o' optarg) { flags with exit_on_reply := true }
  | quiet_errors (optarg : Option CString) :
      Parsed euid flags (.option 'Q' optarg) { flags with quiet_errors := true }
  | quiet (optarg : Option CString) :
      Parsed euid flags (.option 'q' optarg) { flags with quiet := true }
  | bypass_routing (optarg : Option CString) :
      Parsed euid flags (.option 'r' optarg) { flags with bypass_routing := true }
  | pattern (s : CString) (out : Bytes.Buffer PING_PATTERN_MAX) (out_len : Nat)
      (hdecode : decode_pattern s flags.pattern flags.pattern_len = (true, out, out_len)) :
      Parsed euid flags (.option 'p' (some s))
        { flags with has_pattern := true, pattern := out, pattern_len := out_len }
  | source_addr (optarg : Option CString) :
      Parsed euid flags (.option 'S' optarg)
        { flags with has_source_addr := true, source_addr := optarg }
  | packet_size (s : CString) (v : Int) (hnum : test_strton strtol s = some v) (hlo : 0 ≤ v)
      (hhi : v ≤ 65507) :
      Parsed euid flags (.option 's' (some s))
        { flags with has_packet_size := true, packet_size := int_of_long v }
  | multicast_ttl (s : CString) (v : Int) (hnum : test_strton strtol s = some v) (hlo : 0 ≤ v)
      (hhi : v ≤ 255) :
      Parsed euid flags (.option 'T' (some s))
        { flags with has_multicast_ttl := true, multicast_ttl := int_of_long v }
  | timeout (s : CString) (v : Int) (hnum : test_strton strtol s = some v) (hlo : 1 ≤ v)
      (hhi : v ≤ LONG_MAX) :
      Parsed euid flags (.option 't' (some s))
        { flags with has_timeout := true, timeout := int_of_long v }
  | verbose (optarg : Option CString) :
      Parsed euid flags (.option 'v' optarg) { flags with verbose := true }
  -- getopt() does not return what falls under no case of the switch.
  | nothing (letter : Char) (optarg : Option CString)
      (hletter : takesArg optstring letter ≠ some optarg.isSome) :
      Parsed euid flags (.option letter optarg) flags

theorem parse_opt_parsed {euid : Nat} {opt : Opt} {flags flags' : Flags}
    (h : parse_opt euid opt flags = .ok flags') : Parsed euid flags opt flags' := by
  unfold parse_opt at h
  split at h
  · obtain ⟨⟨⟩, hroot, h⟩ := bind_eq_ok.mp h
    cases h
    exact .flood _ (require_root_eq_ok.mp hroot)
  · obtain ⟨v, hv, h⟩ := bind_eq_ok.mp h
    obtain ⟨⟨⟩, hroot, h⟩ := bind_eq_ok.mp h
    cases h
    obtain ⟨hnum, hlo, hhi⟩ := opt_long_eq_ok.mp hv
    exact .preload _ v hnum hlo hhi (require_root_eq_ok.mp hroot)
  · split at h
    · cases h
    · rename_i d hnum
      split_ifs at h with hpositive hroot
      cases h
      refine .interval _ d hnum (Bool.not_eq_true _ ▸ hpositive) ?_
      rw [not_and_or, Bool.not_eq_true, not_not] at hroot
      exact hroot
  · obtain ⟨v, hv, h⟩ := bind_eq_ok.mp h
    cases h
    obtain ⟨hnum, hlo, hhi⟩ := opt_long_eq_ok.mp hv
    exact .ttl _ v hnum hlo hhi
  · cases h
    exact .exit_on_reply _
  · cases h
    exact .quiet_errors _
  · cases h
    exact .quiet _
  · cases h
    exact .bypass_routing _
  · split at h
    · rename_i hdecode
      cases h
      exact .pattern _ _ _ hdecode
    · cases h
  · cases h
    exact .source_addr _
  · obtain ⟨v, hv, h⟩ := bind_eq_ok.mp h
    cases h
    obtain ⟨hnum, hlo, hhi⟩ := opt_long_eq_ok.mp hv
    exact .packet_size _ v hnum hlo hhi
  · obtain ⟨v, hv, h⟩ := bind_eq_ok.mp h
    cases h
    obtain ⟨hnum, hlo, hhi⟩ := opt_long_eq_ok.mp hv
    exact .multicast_ttl _ v hnum hlo hhi
  · obtain ⟨v, hv, h⟩ := bind_eq_ok.mp h
    cases h
    obtain ⟨hnum, hlo, hhi⟩ := opt_long_eq_ok.mp hv
    exact .timeout _ v hnum hlo hhi
  · cases h
    exact .verbose _
  · split_ifs at h
  · cases h
  · rename_i letter optarg _ _ _ _ _ _ _ _ _ _ _ _ _ _
    cases h
    refine .nothing letter optarg fun hletter => ?_
    have hmem := takesArg_mem hletter
    simp only [optstring, List.mem_cons, List.not_mem_nil, or_false] at hmem
    -- A colon is no option; the other letters, with an argument if they take one, have a case.
    rcases hmem with rfl | rfl | rfl | rfl | rfl | rfl | rfl | rfl | rfl | rfl | rfl | rfl | rfl |
      rfl | rfl | rfl | rfl | rfl | rfl | rfl | rfl | rfl | rfl
    all_goals first
      | exact absurd hletter (by decide)
      | contradiction
      | (cases optarg with
        | none => exact absurd hletter (by decide)
        | some s => simp_all)

end FtPing
