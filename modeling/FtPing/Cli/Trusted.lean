import FtPing.Cli.HexPattern
import FtPing.Cli.Numeric
import FtPing.Cli.Privilege

namespace FtPing

open Bytes CLib Numeric

-- A field that an option sets is as the option's check asks if the option was given, and
-- otherwise as it was at the start.
def Optional {α : Type} (given : Bool) (value start : α) (check : α → Prop) : Prop :=
  (given = true → check value) ∧ (given = false → value = start)

-- What every option keeps of the flags.
structure Checked (euid : Nat) (flags : Flags) : Prop where
  flood : flags.flood = true → euid = 0
  preload : Optional flags.has_preload flags.preload 0 fun _ => euid = 0
  interval : Optional flags.has_interval flags.interval (.finite 0) fun _ => True
  ttl : Optional flags.has_ttl flags.ttl 0 fun ttl => 0 ≤ ttl ∧ ttl ≤ 255
  pattern : Optional flags.has_pattern (flags.pattern, flags.pattern_len)
    (.zeroed PING_PATTERN_MAX, 0) fun decoded => 1 ≤ decoded.2 ∧ decoded.2 ≤ PING_PATTERN_MAX
  source_addr : Optional flags.has_source_addr flags.source_addr none fun _ => True
  packet_size : Optional flags.has_packet_size flags.packet_size 0
    fun size => 0 ≤ size ∧ size ≤ 65507
  multicast_ttl : Optional flags.has_multicast_ttl flags.multicast_ttl 0
    fun ttl => 0 ≤ ttl ∧ ttl ≤ 255
  timeout : Optional flags.has_timeout flags.timeout 0 fun _ => True

theorem Optional.unset {α : Type} (value : α) (check : α → Prop) :
    Optional false value value check :=
  ⟨nofun, fun _ => rfl⟩

theorem Optional.set {α : Type} {value start : α} {check : α → Prop} (h : check value) :
    Optional true value start check :=
  ⟨fun _ => h, nofun⟩

theorem Checked.zero (euid : Nat) : Checked euid Flags.zero :=
  ⟨nofun, .unset _ _, .unset _ _, .unset _ _, .unset _ _, .unset _ _, .unset _ _, .unset _ _,
    .unset _ _⟩

-- A pattern that is accepted fills at least one byte and at most the array.
theorem decode_pattern_len {hex : CString} {out out' : Buffer PING_PATTERN_MAX} {n n' : Nat}
    (h : decode_pattern hex out n = (true, out', n')) : 1 ≤ n' ∧ n' ≤ PING_PATTERN_MAX := by
  obtain ⟨hlow, hhigh, -⟩ := hexText_of_decode_pattern out h
  exact ⟨hlow, hhigh⟩

theorem int_of_long_range {v hi : Int} (hlo : 0 ≤ v) (hhi : v ≤ hi) (hfits : hi ≤ 2147483647) :
    0 ≤ int_of_long v ∧ int_of_long v ≤ hi := by
  rw [(int_of_long_eq_iff hlo).mpr (hhi.trans hfits)]
  exact ⟨hlo, hhi⟩

theorem Checked.parse_opt {euid : Nat} {opt : Opt} {flags flags' : Flags}
    (h : Checked euid flags) (hparse : parse_opt euid opt flags = .ok flags') :
    Checked euid flags' := by
  cases parse_opt_parsed hparse with
  | flood optarg hroot => exact { h with flood := fun _ => hroot }
  | preload s v hnum hlo hhi hroot => exact { h with preload := .set hroot }
  | interval s d hnum hpositive hroot => exact { h with interval := .set trivial }
  | ttl s v hnum hlo hhi =>
      exact { h with ttl := .set (int_of_long_range hlo hhi (by decide)) }
  | pattern s out out_len hdecode =>
      exact { h with pattern := .set (decode_pattern_len hdecode) }
  | source_addr optarg => exact { h with source_addr := .set trivial }
  | packet_size s v hnum hlo hhi =>
      exact { h with packet_size := .set (int_of_long_range hlo hhi (by decide)) }
  | multicast_ttl s v hnum hlo hhi =>
      exact { h with multicast_ttl := .set (int_of_long_range hlo hhi (by decide)) }
  | timeout s v hnum hlo hhi => exact { h with timeout := .set trivial }
  | nothing letter optarg hletter => exact h
  | _ => exact { h with }

theorem Checked.parse_opts {euid : Nat} (opts : List Opt) {flags flags' : Flags}
    (h : Checked euid flags) (hparse : parse_opts euid opts flags = .ok flags') :
    Checked euid flags' := by
  induction opts generalizing flags with
  | nil =>
      cases hparse
      exact h
  | cons opt rest ih =>
      obtain ⟨between, hopt, hrest⟩ := bind_eq_ok.mp hparse
      exact ih (h.parse_opt hopt) hrest

section Operands

-- What is left of the command line behind the options.
def operands (permutes : Bool) (ac : Nat) (av : Argv) : List CString :=
  match extract_long_opts ac av Flags.zero with
  | .ok (ac, av, _) => (getopt permutes (takesArg optstring) (arguments ac av)).2
  | .error _ => []

theorem getopt_operand {permutes : Bool} {takesArg : Char → Option Bool} {args : List CString}
    {s : CString} (h : s ∈ (getopt permutes takesArg args).2) : s ∈ args := by
  fun_induction getopt permutes takesArg args with
  | case1 => exact h
  | case2 rest => exact List.mem_cons_of_mem _ h
  | case3 =>
      rename_i ih
      exact List.mem_cons_of_mem _ (ih h)
  | case4 => cases h
  | case5 =>
      rename_i ih
      exact List.mem_cons_of_mem _ (List.mem_cons_of_mem _ (ih h))
  | case6 =>
      rename_i ih
      rcases List.mem_cons.mp h with rfl | h
      · exact List.mem_cons_self
      · exact List.mem_cons_of_mem _ (ih h)
  | case7 => exact h

theorem getD_set_none (av : Argv) (i k : Nat) (x : Option CString) :
    (av.set i x).getD k none = if k = i ∧ i < av.length then x else av.getD k none := by
  simp only [List.getD_eq_getElem?_getD, List.getElem?_set]
  split_ifs with heq hlt hboth
  · rfl
  · omega
  · omega
  · subst heq
    rw [List.getElem?_eq_none (by omega)]
  · omega
  · rfl

theorem shift_args_getD (rounds i k : Nat) (av : Argv) :
    (shift_args rounds i av).getD k none =
      if i ≤ k ∧ k < i + rounds then av.getD (k + 1) none else av.getD k none := by
  induction rounds generalizing i av with
  | zero => rw [shift_args, if_neg (by omega)]
  | succ rounds ih =>
      rw [shift_args, ih]
      by_cases hk : k = i
      · subst hk
        rw [if_neg (by omega), if_pos (by omega), getD_set_none]
        split_ifs with hlt
        · rfl
        · rw [List.getD_eq_default _ _ (by omega), List.getD_eq_default _ _ (by omega)]
      · rw [getD_set_none, getD_set_none, if_neg (show ¬ (k = i ∧ i < av.length) by omega)]
        by_cases hin : i ≤ k ∧ k < i + (rounds + 1)
        · rw [if_pos hin, if_pos (show i + 1 ≤ k ∧ k < i + 1 + rounds by omega),
            if_neg (by omega)]
        · rw [if_neg hin, if_neg (show ¬ (i + 1 ≤ k ∧ k < i + 1 + rounds) by omega)]

-- What drop_arg() leaves was there before, not at an earlier place.
theorem drop_arg_getD {ac i k : Nat} {av : Argv} (h : k < (drop_arg ac av i).1) :
    ∃ j, k ≤ j ∧ j < ac ∧ (drop_arg ac av i).2.getD k none = av.getD j none := by
  have hk : k < ac - 1 := h
  rw [drop_arg, getD_set_none, if_neg (by omega), shift_args_getD]
  split_ifs with hin
  · exact ⟨k + 1, Nat.le_succ k, by omega, rfl⟩
  · exact ⟨k, Nat.le_refl k, by omega, rfl⟩

theorem extract_rounds_getD {rounds i ac ac' : Nat} {av av' : Argv} {flags flags' : Flags}
    (h : extract_rounds rounds i ac av flags = .ok (ac', av', flags')) {k : Nat} (hk : k < ac') :
    ∃ j, k ≤ j ∧ j < ac ∧ av'.getD k none = av.getD j none := by
  induction rounds generalizing i ac av flags with
  | zero =>
      cases h
      exact ⟨k, Nat.le_refl k, hk, rfl⟩
  | succ rounds ih =>
      rcases extract_round_cases h with hend | hnext | htaken
      · cases hend
        exact ⟨k, Nat.le_refl k, hk, rfl⟩
      · exact ih hnext
      · obtain ⟨j, hkj, hj, hget⟩ := ih htaken
        obtain ⟨l, hjl, hl, hget'⟩ := drop_arg_getD hj
        exact ⟨l, hkj.trans hjl, hl, hget.trans hget'⟩

theorem mem_arguments {ac : Nat} {av : Argv} {s : CString} (h : s ∈ arguments ac av) :
    ∃ k, 0 < k ∧ k < ac ∧ av.getD k none = some s := by
  obtain ⟨x, hx, hs⟩ := List.mem_filterMap.mp h
  obtain ⟨k, hk, hget⟩ := List.mem_iff_getElem.mp hx
  rw [List.length_drop, List.length_take] at hk
  rw [List.getElem_drop, List.getElem_take] at hget
  refine ⟨1 + k, by omega, by omega, ?_⟩
  rw [List.getD_eq_getElem _ _ (by omega), hget]
  exact hs

-- An operand is one of the strings of argv behind argv[0].
theorem mem_operands {permutes : Bool} {ac : Nat} {av : Argv} {s : CString}
    (h : s ∈ operands permutes ac av) : ∃ k, 0 < k ∧ k < ac ∧ av.getD k none = some s := by
  unfold operands at h
  split at h
  · rename_i ac' av' flags hextract
    obtain ⟨k, hpos, hk, hget⟩ := mem_arguments (getopt_operand h)
    obtain ⟨j, hkj, hj, hget'⟩ := extract_rounds_getD hextract hk
    exact ⟨j, hpos.trans_le hkj, hj, hget'.symm.trans hget⟩
  · cases h

end Operands

-- What the rest of the program may rely on.
structure Trusted (euid : Nat) (flags : Flags) : Prop extends Checked euid flags where
  exclusive : ¬ (flags.flood = true ∧ flags.has_interval = true)
  bsd_flood : flags.bsd_flood = true → flags.flood = true
  quiet : flags.quiet = true → flags.verbose = false ∧ flags.quiet_errors = false

theorem finalise_trusted {euid : Nat} {rest : List CString} {flags flags' : Flags}
    (h : Checked euid flags) (hfinal : finalise_flags rest flags = .ok flags') :
    Trusted euid flags' ∧ flags'.host = rest.head? := by
  unfold finalise_flags at hfinal
  split_ifs at hfinal with hboth hbsd hquiet
  all_goals
    have hexclusive : ¬ (flags.flood = true ∧ flags.has_interval = true) := fun hset =>
      hboth ⟨hset.2, hset.1⟩
    have hflood : flags.bsd_flood = true → flags.flood = true := fun hset =>
      not_not.mp fun hnone => hbsd ⟨hset, hnone⟩
  · cases rest with
    | nil => cases hfinal
    | cons host rest =>
        cases hfinal
        exact ⟨{ h with
          exclusive := hexclusive
          bsd_flood := hflood
          quiet := fun _ => ⟨rfl, rfl⟩ }, rfl⟩
  · cases rest with
    | nil => cases hfinal
    | cons host rest =>
        cases hfinal
        exact ⟨{ h with
          exclusive := hexclusive, bsd_flood := hflood, quiet := fun hset => absurd hset hquiet },
          rfl⟩

-- What fill_pattern() indexes with lies within the array.
theorem Checked.pattern_index {euid : Nat} {flags : Flags} (h : Checked euid flags)
    (hpattern : flags.has_pattern = true) (i : Nat) :
    flags.pattern_len ≠ 0 ∧ i % flags.pattern_len < PING_PATTERN_MAX := by
  obtain ⟨hlo, hhi⟩ := h.pattern.1 hpattern
  exact ⟨by omega, (Nat.mod_lt i hlo).trans_le hhi⟩

theorem accepted_flags_trusted (permutes : Bool) (euid ac : Nat) (av : Argv) (flags : Flags)
    (h : parse_info permutes euid ac av Flags.zero = .ok flags) :
    Trusted euid flags ∧
      (flags.has_pattern = true → ∀ i, flags.pattern_len ≠ 0 ∧
        i % flags.pattern_len < PING_PATTERN_MAX) ∧
      ∃ host, flags.host = some host ∧ (operands permutes ac av).head? = some host ∧
        ∃ k, 0 < k ∧ k < ac ∧ av.getD k none = some host := by
  obtain ⟨⟨ac', av', between⟩, hextract, h⟩ := bind_eq_ok.mp h
  obtain ⟨parsed, hopts, hfinal⟩ := bind_eq_ok.mp h
  have hbetween : Checked euid between := by
    rw [extract_rounds_flags hextract]
    exact { Checked.zero euid with }
  obtain ⟨htrusted, hhost⟩ := finalise_trusted (hbetween.parse_opts _ hopts) hfinal
  have hoperands : operands permutes ac av =
      (getopt permutes (takesArg optstring) (arguments ac' av')).2 := by
    rw [operands, hextract]
  rw [← hoperands] at hhost
  refine ⟨htrusted, fun hpattern i => htrusted.pattern_index hpattern i, ?_⟩
  cases hleft : operands permutes ac av with
  | nil =>
      rw [← hoperands, hleft] at hfinal
      unfold finalise_flags at hfinal
      split_ifs at hfinal
  | cons host rest =>
      rw [hleft] at hhost
      exact ⟨host, hhost, rfl, mem_operands (by rw [hleft]; exact List.mem_cons_self)⟩

-- ft_ping --bsd-flood -v -q -p c0ffee -f h, as root
def flooding : Argv :=
  [some ['f', 't', '_', 'p', 'i', 'n', 'g'],
    some ['-', '-', 'b', 's', 'd', '-', 'f', 'l', 'o', 'o', 'd'], some ['-', 'v'], some ['-', 'q'],
    some ['-', 'p'], some ['c', '0', 'f', 'f', 'e', 'e'], some ['-', 'f'], some ['h'], none]

theorem accepted_flags_trusted_flooding :
    ∃ flags, parse_info true 0 8 flooding Flags.zero = .ok flags ∧ Trusted 0 flags ∧
      flags.pattern_len = 3 ∧ flags.verbose = false := by
  have hrun : (parse_info true 0 8 flooding Flags.zero).toOption.map
      (fun flags => (flags.pattern_len, flags.verbose)) = some (3, false) := by
    decide +kernel
  obtain ⟨flags, hflags, hfields⟩ := Option.map_eq_some_iff.mp hrun
  obtain ⟨hlen, hverbose⟩ := Prod.ext_iff.mp hfields
  have haccepted := eq_ok_of_toOption hflags
  exact ⟨flags, haccepted, (accepted_flags_trusted true 0 8 flooding flags haccepted).1, hlen,
    hverbose⟩

end FtPing
