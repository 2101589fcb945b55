import FtPing.Cli.Parsed
import FtPing.Core.Loop

namespace FtPing

open CLib Numeric

-- The arguments of -i, in the order in which getopt() delivers them.
def interval_args (opts : List Opt) : List CString :=
  opts.filterMap fun opt =>
    match opt with
    | .option letter optarg => if letter = 'i' then optarg else none
    | _ => none

-- An interval that the checks let pass without privilege.
def Allowed (d : Double) : Prop := d.le (.finite 0) = false ∧ d.lt (.finite (1 / 500)) = false

-- What the options that were read can have made of the flags for a user who is not root.
structure Unprivileged (seen : List Opt) (flags : Flags) : Prop where
  flood : flags.flood = false
  preload : flags.preload = 0
  interval : flags.has_interval = true → ∃ arg, (interval_args seen).getLast? = some arg ∧
    (strtod arg).value = flags.interval ∧ Allowed flags.interval

theorem Unprivileged.other {seen : List Opt} {opt : Opt} {flags flags' : Flags}
    (h : Unprivileged seen flags) (hopt : interval_args [opt] = [])
    (hflood : flags'.flood = flags.flood) (hpreload : flags'.preload = flags.preload)
    (hhas : flags'.has_interval = flags.has_interval)
    (hinterval : flags'.interval = flags.interval) : Unprivileged (seen ++ [opt]) flags' := by
  have hargs : interval_args (seen ++ [opt]) = interval_args seen := by
    rw [interval_args, List.filterMap_append, ← interval_args, ← interval_args, hopt,
      List.append_nil]
  refine ⟨hflood.trans h.flood, hpreload.trans h.preload, ?_⟩
  rw [hargs, hhas, hinterval]
  exact h.interval

theorem Unprivileged.parse_opt {euid : Nat} (heuid : euid ≠ 0) {seen : List Opt} {opt : Opt}
    {flags flags' : Flags} (h : Unprivileged seen flags)
    (hparse : parse_opt euid opt flags = .ok flags') : Unprivileged (seen ++ [opt]) flags' := by
  cases parse_opt_parsed hparse with
  | flood optarg hroot => exact absurd hroot heuid
  | preload s v _ _ _ hroot => exact absurd hroot heuid
  | interval s d hnum hpositive hroot =>
      have hvalue : (strtod s).value = d := by
        unfold test_strton at hnum
        dsimp only at hnum
        split_ifs at hnum
        exact Option.some.inj hnum
      refine ⟨h.flood, h.preload, fun _ => ⟨s, ?_, hvalue, hpositive, hroot.resolve_right heuid⟩⟩
      simp [interval_args]
  | nothing letter optarg hletter =>
      refine h.other ?_ rfl rfl rfl rfl
      by_cases hi : letter = 'i'
      · subst hi
        cases optarg with
        | none => rfl
        | some s => exact absurd rfl hletter
      · simp [interval_args, hi]
  | _ => exact h.other rfl rfl rfl rfl rfl

theorem Unprivileged.parse_opts {euid : Nat} (heuid : euid ≠ 0) (opts : List Opt)
    {seen : List Opt} {flags flags' : Flags} (h : Unprivileged seen flags)
    (hparse : parse_opts euid opts flags = .ok flags') : Unprivileged (seen ++ opts) flags' := by
  induction opts generalizing seen flags with
  | nil =>
      cases hparse
      rwa [List.append_nil]
  | cons opt rest ih =>
      obtain ⟨between, hopt, hrest⟩ := bind_eq_ok.mp hparse
      have hall := ih (h.parse_opt heuid hopt) hrest
      rwa [List.append_assoc] at hall

theorem apply_long_opt_flags {token : CString} {flags flags' : Flags}
    (h : apply_long_opt token flags = .ok (some flags')) :
    flags' = { flags with bsd_flood := true } := by
  unfold apply_long_opt at h
  split_ifs at h
  · cases h
    rfl
  · cases h

-- A round that is not refused ends the walk, goes on to the next string or takes one out.
theorem extract_round_cases {rounds i ac : Nat} {av : Argv} {flags : Flags}
    {left : Nat × Argv × Flags} (h : extract_rounds (rounds + 1) i ac av flags = .ok left) :
    left = (ac, av, flags) ∨ extract_rounds rounds (i + 1) ac av flags = .ok left ∨
      extract_rounds rounds i (drop_arg ac av i).1 (drop_arg ac av i).2
        { flags with bsd_flood := true } = .ok left := by
  rw [extract_rounds] at h
  split_ifs at h
  · cases h
    exact Or.inl rfl
  · exact Or.inr (Or.inl h)
  · cases hopt : apply_long_opt (argAt av i) flags with
    | error refusal =>
        rw [hopt] at h
        cases h
    | ok applied =>
        rw [hopt] at h
        cases applied with
        | none => cases h
        | some between =>
            rw [apply_long_opt_flags hopt] at h
            exact Or.inr (Or.inr h)
  · cases h
    exact Or.inl rfl

-- Long options have no other effect on the flags.
theorem extract_rounds_flags {rounds i ac ac' : Nat} {av av' : Argv} {flags flags' : Flags}
    (h : extract_rounds rounds i ac av flags = .ok (ac', av', flags')) :
    flags' = { flags with bsd_flood := flags'.bsd_flood } := by
  induction rounds generalizing i ac av flags with
  | zero =>
      cases h
      rfl
  | succ rounds ih =>
      rcases extract_round_cases h with hend | hnext | htaken
      · cases hend
        rfl
      · exact ih hnext
      · have hflags := ih htaken
        exact hflags

-- What getopt() delivers once the long options are gone.
def short_options (permutes : Bool) (ac : Nat) (av : Argv) : List Opt :=
  match extract_long_opts ac av Flags.zero with
  | .ok (ac, av, _) => (getopt permutes (takesArg optstring) (arguments ac av)).1
  | .error _ => []

theorem finalise_unprivileged {seen : List Opt} {operands : List CString} {flags flags' : Flags}
    (h : Unprivileged seen flags) (hfinal : finalise_flags operands flags = .ok flags') :
    Unprivileged seen flags' ∧ flags'.bsd_flood = false := by
  unfold finalise_flags at hfinal
  split_ifs at hfinal with hboth hbsd hquiet
  all_goals
    have hbsd' : flags.bsd_flood = false := by
      simp only [h.flood, Bool.false_eq_true, not_false_eq_true, and_true,
        Bool.not_eq_true] at hbsd
      exact hbsd
    cases operands with
    | nil => cases hfinal
    | cons host rest =>
        cases hfinal
        exact ⟨⟨h.flood, h.preload, h.interval⟩, hbsd'⟩

-- What an accepted command line of a user who is not root amounts to.
theorem parse_info_unprivileged {permutes : Bool} {euid ac : Nat} {av : Argv} {flags : Flags}
    (heuid : euid ≠ 0) (h : parse_info permutes euid ac av Flags.zero = .ok flags) :
    Unprivileged (short_options permutes ac av) flags ∧ flags.bsd_flood = false := by
  obtain ⟨⟨ac', av', between⟩, hextract, h⟩ := bind_eq_ok.mp h
  obtain ⟨parsed, hopts, hfinal⟩ := bind_eq_ok.mp h
  have hbetween := extract_rounds_flags hextract
  have hstart : Unprivileged [] between := by
    rw [hbetween]
    exact ⟨rfl, rfl, fun hhas => Bool.noConfusion hhas⟩
  have hparsed := hstart.parse_opts heuid _ hopts
  rw [short_options, hextract]
  exact finalise_unprivileged hparsed hfinal

theorem scaled_ge {d : Double} (hnan : d ≠ .nan) (hallowed : Allowed d) :
    d.scale 1000 ≠ .nan ∧ Double.le (.finite 2) (d.scale 1000) = true := by
  cases d with
  | finite q =>
      have hlow : 1 / 500 ≤ q := by simpa using hallowed.2
      refine ⟨nofun, ?_⟩
      rw [Double.scale_finite, Double.le_finite, decide_eq_true_eq]
      linarith
  | posInf => exact ⟨by decide, by decide⟩
  | negInf => exact absurd hallowed.1 (by decide)
  | nan => exact absurd rfl hnan

-- The pace is no faster than the checks mean it to be, unless -i was given something that is
-- not a number.
theorem Unprivileged.pace_ge {opts : List Opt} {flags : Flags} (h : Unprivileged opts flags)
    (hnan : ∀ arg, (interval_args opts).getLast? = some arg → (strtod arg).value ≠ .nan) :
    pace flags ≠ .nan ∧ Double.le (.finite 2) (pace flags) = true := by
  unfold pace
  simp only [h.flood, Bool.false_eq_true, ite_false]
  by_cases hhas : flags.has_interval = true
  · obtain ⟨arg, hlast, hvalue, hallowed⟩ := h.interval hhas
    have hnumber := hnan arg hlast
    rw [hvalue] at hnumber
    simp only [hhas, ite_true]
    exact scaled_ge hnumber hallowed
  · rw [if_neg hhas]
    exact ⟨nofun, by decide +kernel⟩

end FtPing
