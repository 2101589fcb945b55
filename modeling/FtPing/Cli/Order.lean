import FtPing.Cli.Trusted
import FtPing.Updates

namespace FtPing

open Bytes CLib Numeric Updates

-- What getopt() returns: the letters of the option string that take an argument come with one,
-- the others without.
def Delivered : Opt → Prop
  | .option letter optarg => takesArg optstring letter = some optarg.isSome
  | _ => True

theorem getoptLetters_delivered {letters : CString} {opt : Opt}
    (h : opt ∈ (getoptLetters (takesArg optstring) letters).1) : Delivered opt := by
  fun_induction getoptLetters (takesArg optstring) letters with
  | case1 => cases h
  | case2 c rest hnone ih =>
      rcases List.mem_cons.mp h with rfl | h
      · trivial
      · exact ih h
  | case3 c rest hno ih =>
      rcases List.mem_cons.mp h with rfl | h
      · exact hno
      · exact ih h
  | case4 c hyes => cases h
  | case5 c hyes =>
      rw [List.mem_singleton] at h
      subst h
      exact hyes

theorem getoptLetters_waiting {letters : CString} {c : Char}
    (h : (getoptLetters (takesArg optstring) letters).2 = some c) :
    takesArg optstring c = some true := by
  fun_induction getoptLetters (takesArg optstring) letters with
  | case1 => cases h
  | case2 c rest hnone ih => exact ih h
  | case3 c rest hno ih => exact ih h
  | case4 c hyes =>
      cases h
      exact hyes
  | case5 c hyes => cases h

theorem getopt_delivered {permutes : Bool} {args : List CString} {opt : Opt}
    (h : opt ∈ (getopt permutes (takesArg optstring) args).1) : Delivered opt := by
  fun_induction getopt permutes (takesArg optstring) args with
  | case1 => cases h
  | case2 => cases h
  | case3 =>
      rename_i hletters ih
      rcases List.mem_append.mp h with h | h
      · exact getoptLetters_delivered (by rw [hletters]; exact h)
      · exact ih h
  | case4 =>
      rename_i hletters
      rcases List.mem_append.mp h with h | h
      · exact getoptLetters_delivered (by rw [hletters]; exact h)
      · rw [List.mem_singleton] at h
        subst h
        trivial
  | case5 =>
      rename_i hletters _ _ ih
      rcases List.mem_append.mp h with h | h
      · exact getoptLetters_delivered (by rw [hletters]; exact h)
      · rcases List.mem_cons.mp h with rfl | h
        · exact getoptLetters_waiting (by rw [hletters])
        · exact ih h
  | case6 =>
      rename_i ih
      exact ih h
  | case7 => cases h

def letterOf : Opt → Char
  | .option letter _ => letter
  | .unknown optopt => optopt
  | .missing optopt => optopt

-- The fields that belong to an option, with all others at their start. A letter that is no
-- option stands for the fields that no option sets.
def part (letter : Char) (flags : Flags) : Flags :=
  match letter with
  | 'f' => { Flags.zero with flood := flags.flood }
  | 'l' => { Flags.zero with has_preload := flags.has_preload, preload := flags.preload }
  | 'i' => { Flags.zero with has_interval := flags.has_interval, interval := flags.interval }
  | 'm' => { Flags.zero with has_ttl := flags.has_ttl, ttl := flags.ttl }
  | 'o' => { Flags.zero with exit_on_reply := flags.exit_on_reply }
  | 'Q' => { Flags.zero with quiet_errors := flags.quiet_errors }
  | 'q' => { Flags.zero with quiet := flags.quiet }
  | 'r' => { Flags.zero with bypass_routing := flags.bypass_routing }
  | 'p' =>
      { Flags.zero with
        has_pattern := flags.has_pattern, pattern := flags.pattern,
        pattern_len := flags.pattern_len }
  | 'S' =>
      { Flags.zero with
        has_source_addr := flags.has_source_addr, source_addr := flags.source_addr }
  | 's' =>
      { Flags.zero with
        has_packet_size := flags.has_packet_size, packet_size := flags.packet_size }
  | 'T' =>
      { Flags.zero with
        has_multicast_ttl := flags.has_multicast_ttl, multicast_ttl := flags.multicast_ttl }
  | 't' => { Flags.zero with has_timeout := flags.has_timeout, timeout := flags.timeout }
  | 'v' => { Flags.zero with verbose := flags.verbose }
  | _ => { Flags.zero with bsd_flood := flags.bsd_flood, host := flags.host }

-- The pattern as far as it counts.
def pattern_bytes (flags : Flags) : List UInt8 := flags.pattern.bytes.take flags.pattern_len

-- Two sets of flags that differ in bytes behind the pattern only.
def Alike (flags flags' : Flags) : Prop :=
  { flags with pattern := .zeroed _ } = { flags' with pattern := .zeroed _ } ∧
    pattern_bytes flags = pattern_bytes flags'

theorem Alike.refl (flags : Flags) : Alike flags flags := ⟨rfl, rfl⟩

theorem Alike.eq_with {flags flags' : Flags} (h : Alike flags flags') :
    flags' = { flags with pattern := flags'.pattern } := by
  have hfields := h.1
  simp only [Flags.mk.injEq] at hfields
  cases flags
  cases flags'
  simp only [Flags.mk.injEq, true_and]
  tauto

-- The parts are all there is.
theorem Alike.of_parts {flags flags' : Flags}
    (h : ∀ letter, Alike (part letter flags) (part letter flags')) : Alike flags flags' := by
  have hbytes : pattern_bytes flags = pattern_bytes flags' := (h 'p').2
  have hpart : ∀ letter, { part letter flags with pattern := .zeroed _ } =
      { part letter flags' with pattern := .zeroed _ } := fun letter => (h letter).1
  refine ⟨?_, hbytes⟩
  have hf := hpart 'f'
  have hl := hpart 'l'
  have hi := hpart 'i'
  have hm := hpart 'm'
  have ho := hpart 'o'
  have hQ := hpart 'Q'
  have hq := hpart 'q'
  have hr := hpart 'r'
  have hp := hpart 'p'
  have hS := hpart 'S'
  have hs := hpart 's'
  have hT := hpart 'T'
  have ht := hpart 't'
  have hv := hpart 'v'
  have hothers : flags.bsd_flood = flags'.bsd_flood ∧ flags.host = flags'.host := by
    simpa [part] using hpart '-'
  clear h hpart hbytes
  simp only [part, Flags.mk.injEq, true_and, and_true] at *
  simp only [hf, hl, hi, hm, ho, hQ, hq, hr, hp, hS, hs, hT, ht, hv, hothers, and_self]

-- An option leaves the fields of all others alone.
theorem Parsed.frame {euid : Nat} {opt : Opt} {flags flags' : Flags} {letter : Char}
    (h : Parsed euid flags opt flags') (hne : letterOf opt ≠ letter) :
    part letter flags' = part letter flags := by
  unfold part
  cases h <;> split <;> first | rfl | exact absurd rfl hne

-- The bytes that are decoded do not depend on those that were there.
theorem decode_pattern_alike {hex : CString} {out out' p p' : Buffer PING_PATTERN_MAX}
    {n n' len len' : Nat} (h : decode_pattern hex out n = (true, p, len))
    (h' : decode_pattern hex out' n' = (true, p', len')) :
    len = len' ∧ p.bytes.take len = p'.bytes.take len' := by
  obtain ⟨hlow, hhigh, upper, bytes, rfl, rfl, rfl⟩ := hexText_of_decode_pattern out h
  rw [decode_pattern_hexText upper bytes out' n' hlow hhigh] at h'
  cases h'
  refine ⟨rfl, ?_⟩
  rw [store_bytes bytes out hhigh, store_bytes bytes out' hhigh, List.take_left, List.take_left]

-- An option sets all of its fields, whatever they were.
theorem Parsed.sets {euid : Nat} {opt : Opt} {s s' t t' : Flags} (hopt : Delivered opt)
    (h : Parsed euid s opt t) (h' : Parsed euid s' opt t') :
    Alike (part (letterOf opt) t) (part (letterOf opt) t') := by
  cases h with
  | nothing letter optarg hletter => exact absurd hopt hletter
  | pattern arg p len hdecode =>
      cases h' with
      | pattern _ p' len' hdecode' =>
          obtain ⟨rfl, hbytes⟩ := decode_pattern_alike hdecode hdecode'
          exact ⟨rfl, hbytes⟩
      | nothing _ _ hletter => exact absurd hopt hletter
  | _ =>
      cases h' with
      | nothing _ _ hletter => exact absurd hopt hletter
      | _ =>
          -- The two readings of a number are the same.
          first
            | exact .refl _
            | simp_all only [Option.some.injEq]
              exact .refl _

-- Whether an option is accepted does not depend on the flags so far.
theorem parse_opt_isOk (euid : Nat) (opt : Opt) (s s' : Flags) :
    (parse_opt euid opt s).isOk = (parse_opt euid opt s').isOk := by
  have hbind : ∀ {α : Type} (x : Except Refusal α) (f g : α → Flags),
      (x >>= fun a => (pure (f a) : Except Refusal Flags)).isOk =
        (x >>= fun a => (pure (g a) : Except Refusal Flags)).isOk := by
    intro α x f g
    cases x <;> rfl
  unfold parse_opt
  split
  case h_1 => exact hbind _ _ _
  case h_2 =>
    rename_i optarg
    cases opt_long optarg 'l' 0 LONG_MAX with
    | error refusal => rfl
    | ok v => exact hbind _ _ _
  case h_3 =>
    split
    · rfl
    · split_ifs <;> rfl
  case h_9 =>
    unfold decode_pattern
    split_ifs <;> rfl
  all_goals first
    | rfl
    | exact hbind _ _ _

-- A turn of parse_info()'s loop with an option that getopt() has returned.
def Turn (euid : Nat) (opt : Opt) (s t : Flags) : Prop :=
  Delivered opt ∧ parse_opt euid opt s = .ok t

theorem turn_keyed (euid : Nat) : Keyed (Turn euid) letterOf part Alike where
  enabled := by
    intro opt s t s' h
    have hok := parse_opt_isOk euid opt s s'
    rw [h.2] at hok
    cases hparse : parse_opt euid opt s' with
    | error refusal =>
        rw [hparse] at hok
        cases hok
    | ok t' => exact ⟨t', h.1, hparse⟩
  frame opt s t letter h hne := (parse_opt_parsed h.2).frame hne
  sets opt s t s' t' h h' := Parsed.sets h.1 (parse_opt_parsed h.2) (parse_opt_parsed h'.2)

theorem parse_opts_runs {euid : Nat} {opts : List Opt} {s t : Flags}
    (hdelivered : ∀ opt ∈ opts, Delivered opt) :
    parse_opts euid opts s = .ok t ↔ Runs (Turn euid) opts s t := by
  induction opts generalizing s with
  | nil =>
      constructor
      · intro h
        cases h
        exact .nil _
      · intro h
        cases h
        rfl
  | cons opt rest ih =>
      rw [List.forall_mem_cons] at hdelivered
      constructor
      · intro h
        obtain ⟨between, hopt, hrest⟩ := bind_eq_ok.mp h
        exact .cons ⟨hdelivered.1, hopt⟩ ((ih hdelivered.2).mp hrest)
      · intro h
        cases h with
        | cons hturn hrest =>
            exact bind_eq_ok.mpr ⟨_, hturn.2, (ih hdelivered.2).mpr hrest⟩

-- The cross-option rules see no difference either.
theorem finalise_alike {rest rest' : List CString} {s s' t : Flags} (h : Alike s s')
    (hhead : rest.head? = rest'.head?) (hfinal : finalise_flags rest s = .ok t) :
    ∃ t', finalise_flags rest' s' = .ok t' ∧ Alike t t' := by
  have hbytes : pattern_bytes s = pattern_bytes s' := h.2
  have hs' := h.eq_with
  have hlen : s'.pattern_len = s.pattern_len := by rw [hs']
  generalize s'.pattern = pattern at hs'
  subst hs'
  unfold finalise_flags at hfinal ⊢
  split_ifs at hfinal ⊢ with hboth hbsd hquiet
  all_goals
    cases rest with
    | nil => cases hfinal
    | cons host rest =>
        cases rest' with
        | nil => cases hhead
        | cons host' rest' =>
            cases hhead
            cases hfinal
            exact ⟨_, rfl, rfl, hbytes⟩

section Lines

variable {permutes : Bool} {euid ac ac' : Nat} {av av' : Argv}

-- Whether --bsd-flood is given, if the long options are all known.
def bsd_flood_given (ac : Nat) (av : Argv) : Option Bool :=
  (extract_long_opts ac av Flags.zero).toOption.map fun left => left.2.2.bsd_flood

theorem short_options_delivered {opt : Opt} (h : opt ∈ short_options permutes ac av) :
    Delivered opt := by
  unfold short_options at h
  split at h
  · exact getopt_delivered h
  · cases h

-- What parse_info() makes of a command line, in terms of what it delivers.
theorem parse_info_eq_ok {flags : Flags} :
    parse_info permutes euid ac av Flags.zero = .ok flags ↔
      ∃ bsd parsed, bsd_flood_given ac av = some bsd ∧
        Runs (Turn euid) (short_options permutes ac av)
          { Flags.zero with bsd_flood := bsd } parsed ∧
        finalise_flags (operands permutes ac av) parsed = .ok flags := by
  have hdelivered : ∀ opt ∈ short_options permutes ac av, Delivered opt := fun _ h =>
    short_options_delivered h
  simp only [← parse_opts_runs hdelivered]
  rw [bsd_flood_given, short_options, operands]
  unfold parse_info
  cases hextract : extract_long_opts ac av Flags.zero with
  | error refusal =>
      constructor
      · intro h
        cases h
      · rintro ⟨bsd, parsed, hnone, -⟩
        cases hnone
  | ok left =>
      obtain ⟨ac', av', between⟩ := left
      have hbetween : between = { Flags.zero with bsd_flood := between.bsd_flood } :=
        extract_rounds_flags hextract
      constructor
      · intro h
        obtain ⟨_, hleft, h⟩ := bind_eq_ok.mp h
        cases hleft
        obtain ⟨parsed, hopts, hfinal⟩ := bind_eq_ok.mp h
        exact ⟨_, parsed, rfl, hbetween ▸ hopts, hfinal⟩
      · rintro ⟨bsd, parsed, hbsd, hopts, hfinal⟩
        cases hbsd
        rw [← hbetween] at hopts
        exact bind_eq_ok.mpr ⟨_, rfl, bind_eq_ok.mpr ⟨parsed, hopts, hfinal⟩⟩

-- A line whose options all occur on an accepted one, and of each letter the same last, is
-- accepted with flags alike.
theorem accepted_alike {flags : Flags} (hlong : bsd_flood_given ac av = bsd_flood_given ac' av')
    (hoperand : (operands permutes ac av).head? = (operands permutes ac' av').head?)
    (hsub : ∀ opt ∈ short_options permutes ac' av', opt ∈ short_options permutes ac av)
    (hlast : ∀ letter, (occurrences letterOf letter (short_options permutes ac av)).getLast? =
      (occurrences letterOf letter (short_options permutes ac' av')).getLast?)
    (h : parse_info permutes euid ac av Flags.zero = .ok flags) :
    ∃ flags', parse_info permutes euid ac' av' Flags.zero = .ok flags' ∧ Alike flags flags' := by
  obtain ⟨bsd, parsed, hbsd, hrun, hfinal⟩ := parse_info_eq_ok.mp h
  have hkeyed := turn_keyed euid
  have hall := (hkeyed.runs_iff _ _).mp ⟨parsed, hrun⟩
  obtain ⟨parsed', hrun'⟩ := (hkeyed.runs_iff _ _).mpr fun opt hopt => hall opt (hsub opt hopt)
  have halike : Alike parsed parsed' := .of_parts fun letter =>
    hkeyed.part_alike Alike.refl hrun hrun' rfl (hlast letter)
  obtain ⟨flags', hfinal', hflags⟩ := finalise_alike halike hoperand hfinal
  exact ⟨flags', parse_info_eq_ok.mpr ⟨bsd, parsed', hlong ▸ hbsd, hrun', hfinal'⟩, hflags⟩

-- The order of the options does not matter, and the last of a repeated option wins.
theorem option_order_irrelevant (permutes : Bool) (euid ac ac' : Nat) (av av' : Argv)
    (hlong : bsd_flood_given ac av = bsd_flood_given ac' av')
    (hoperand : (operands permutes ac av).head? = (operands permutes ac' av').head?) :
    ((∀ letter, occurrences letterOf letter (short_options permutes ac av) =
        occurrences letterOf letter (short_options permutes ac' av')) →
      ((∃ flags, parse_info permutes euid ac av Flags.zero = .ok flags) ↔
        ∃ flags, parse_info permutes euid ac' av' Flags.zero = .ok flags) ∧
      ∀ flags flags', parse_info permutes euid ac av Flags.zero = .ok flags →
        parse_info permutes euid ac' av' Flags.zero = .ok flags' → Alike flags flags') ∧
    (short_options permutes ac' av' = last_of_each letterOf (short_options permutes ac av) →
      ∀ flags, parse_info permutes euid ac av Flags.zero = .ok flags →
        ∃ flags', parse_info permutes euid ac' av' Flags.zero = .ok flags' ∧
          Alike flags flags') := by
  constructor
  · intro hsame
    have hmem : ∀ opt, opt ∈ short_options permutes ac av ↔
        opt ∈ short_options permutes ac' av' := fun opt => by
      rw [← mem_occurrences letterOf, hsame, mem_occurrences letterOf]
    have hforth : ∀ flags, parse_info permutes euid ac av Flags.zero = .ok flags →
        ∃ flags', parse_info permutes euid ac' av' Flags.zero = .ok flags' ∧
          Alike flags flags' := fun flags =>
      accepted_alike hlong hoperand (fun opt => (hmem opt).mpr) fun letter => by rw [hsame]
    have hback : ∀ flags, parse_info permutes euid ac' av' Flags.zero = .ok flags →
        ∃ flags', parse_info permutes euid ac av Flags.zero = .ok flags' ∧
          Alike flags flags' := fun flags =>
      accepted_alike hlong.symm hoperand.symm (fun opt => (hmem opt).mp)
        fun letter => by rw [hsame]
    refine ⟨⟨fun ⟨flags, h⟩ => ?_, fun ⟨flags, h⟩ => ?_⟩, fun flags flags' h h' => ?_⟩
    · obtain ⟨flags', h', -⟩ := hforth flags h
      exact ⟨flags', h'⟩
    · obtain ⟨flags', h', -⟩ := hback flags h
      exact ⟨flags', h'⟩
    · obtain ⟨other, hother, halike⟩ := hforth flags h
      cases h'.symm.trans hother
      exact halike
  · intro hkept flags
    have hocc := fun letter => occurrences_last_of_each letterOf letter
      (short_options permutes ac av)
    rw [← hkept] at hocc
    refine accepted_alike hlong hoperand (fun opt hopt => ?_) fun letter => ?_
    · rw [← mem_occurrences letterOf, hocc, Option.mem_toList] at hopt
      exact (mem_occurrences letterOf).mp (List.mem_of_getLast? hopt)
    · rw [hocc]
      cases (occurrences letterOf letter (short_options permutes ac av)).getLast? <;> rfl

-- ft_ping -p c0ffee -v -p ff h, ft_ping -v -p c0ffee -pff h and ft_ping -vp ff h
def pattern_twice : Argv :=
  [some ['f', 't', '_', 'p', 'i', 'n', 'g'], some ['-', 'p'], some ['c', '0', 'f', 'f', 'e', 'e'],
    some ['-', 'v'], some ['-', 'p'], some ['f', 'f'], some ['h'], none]

def pattern_twice_verbose : Argv :=
  [some ['f', 't', '_', 'p', 'i', 'n', 'g'], some ['-', 'v'], some ['-', 'p'],
    some ['c', '0', 'f', 'f', 'e', 'e'], some ['-', 'p', 'f', 'f'], some ['h'], none]

def pattern_once : Argv :=
  [some ['f', 't', '_', 'p', 'i', 'n', 'g'], some ['-', 'v', 'p'], some ['f', 'f'], some ['h'],
    none]

theorem option_order_irrelevant_pattern_twice :
    ∃ flags flags' flags'', parse_info true 1000 7 pattern_twice Flags.zero = .ok flags ∧
      parse_info true 1000 6 pattern_twice_verbose Flags.zero = .ok flags' ∧
      parse_info true 1000 4 pattern_once Flags.zero = .ok flags'' ∧
      flags.pattern ≠ flags''.pattern ∧ Alike flags flags' ∧ Alike flags flags'' := by
  have hrun : (parse_info true 1000 7 pattern_twice Flags.zero).toOption.bind (fun flags =>
      (parse_info true 1000 4 pattern_once Flags.zero).toOption.map fun flags'' =>
        decide (flags.pattern.bytes = flags''.pattern.bytes)) = some false := by
    decide +kernel
  obtain ⟨flags, hflags, hrun⟩ := Option.bind_eq_some_iff.mp hrun
  obtain ⟨flags'', hflags'', hdiffer⟩ := Option.map_eq_some_iff.mp hrun
  have haccepted := eq_ok_of_toOption hflags
  have haccepted'' := eq_ok_of_toOption hflags''
  have hopts : short_options true 7 pattern_twice =
      [.option 'p' (some ['c', '0', 'f', 'f', 'e', 'e']), .option 'v' none,
        .option 'p' (some ['f', 'f'])] := by
    decide +kernel
  have hopts' : short_options true 6 pattern_twice_verbose = [.option 'v' none,
      .option 'p' (some ['c', '0', 'f', 'f', 'e', 'e']), .option 'p' (some ['f', 'f'])] := by
    decide +kernel
  obtain ⟨hsame, halike⟩ := (option_order_irrelevant true 1000 7 6 pattern_twice
    pattern_twice_verbose (by decide +kernel) (by decide +kernel)).1 fun letter => by
      rw [hopts, hopts']
      by_cases hv : 'v' = letter
      · subst hv
        rfl
      · by_cases hp : 'p' = letter
        · subst hp
          rfl
        · simp [occurrences, letterOf, hv, hp]
  obtain ⟨flags', haccepted'⟩ := hsame.mp ⟨flags, haccepted⟩
  obtain ⟨other, hother, hlast⟩ := (option_order_irrelevant true 1000 7 4 pattern_twice
    pattern_once (by decide +kernel) (by decide +kernel)).2 (by decide +kernel) flags haccepted
  cases haccepted''.symm.trans hother
  refine ⟨flags, flags', flags'', haccepted, haccepted', haccepted'', ?_,
    halike flags flags' haccepted haccepted', hlast⟩
  intro heq
  rw [heq, decide_eq_true rfl] at hdiffer
  cases hdiffer

end Lines

end FtPing
