import FtPing.Cli.ParseLong

namespace FtPing

open CLib

section Entries

-- The walk over the entries of argv alone. An access outside of them, a NULL where a string
-- is read, and rounds that run out before the loop has ended leave no result.
def load_entry (av : Argv) (i : Nat) : Option (Option CString) := av[i]?

def store_entry (av : Argv) (i : Nat) (entry : Option CString) : Option Argv :=
  if i < av.length then some (av.set i entry) else none

def shift_entries : Nat → Nat → Argv → Option Argv
  | 0, _, av => some av
  | rounds + 1, i, av =>
      (load_entry av (i + 1)).bind fun next =>
        (store_entry av i next).bind (shift_entries rounds (i + 1))

def drop_entry (ac : Nat) (av : Argv) (i : Nat) : Option (Nat × Argv) :=
  (shift_entries (ac - 1 - i) i av).bind fun av =>
    (store_entry av (ac - 1) none).map (ac - 1, ·)

def extract_entries :
    Nat → Nat → Nat → Argv → Flags → Option (Except Refusal (Nat × Argv × Flags))
  | 0, _, _, _, _ => none
  | rounds + 1, i, ac, av, flags =>
      if i < ac then
        (load_entry av i).join.bind fun token =>
          if token = ['-', '-'] then some (.ok (ac, av, flags))
          else if token.take 2 ≠ ['-', '-'] then extract_entries rounds (i + 1) ac av flags
          else
            match apply_long_opt token flags with
            | .error refusal => some (.error refusal)
            | .ok none => some (.error (.hinted
                ("ft_ping: unrecognized option '" ++ String.ofList token ++ "'\n")))
            | .ok (some flags) =>
                (drop_entry ac av i).bind fun left => extract_entries rounds i left.1 left.2 flags
      else some (.ok (ac, av, flags))

-- What stands behind the entries comes out as it went in.
def followed (behind : Argv) : Except Refusal (Nat × Argv × Flags) →
    Except Refusal (Nat × Argv × Flags) :=
  Except.map fun left => (left.1, left.2.1 ++ behind, left.2.2)

variable {rounds i ac : Nat} {av av' : Argv} (behind : Argv)

theorem load_entry_append {entry : Option CString} (h : load_entry av i = some entry) :
    (av ++ behind).getD i none = entry := by
  have hlt : i < av.length := (List.getElem?_eq_some_iff.mp h).1
  rw [List.getD_eq_getElem?_getD, List.getElem?_append_left hlt]
  exact congrArg (Option.getD · none) h

theorem store_entry_append {entry : Option CString} (h : store_entry av i entry = some av') :
    (av ++ behind).set i entry = av' ++ behind := by
  rw [store_entry] at h
  split_ifs at h with hlt
  cases h
  exact List.set_append_left i entry hlt

theorem shift_entries_append (h : shift_entries rounds i av = some av') :
    shift_args rounds i (av ++ behind) = av' ++ behind := by
  induction rounds generalizing i av with
  | zero =>
      cases h
      rfl
  | succ rounds ih =>
      obtain ⟨next, hnext, h⟩ := Option.bind_eq_some_iff.mp h
      obtain ⟨between, hstore, h⟩ := Option.bind_eq_some_iff.mp h
      rw [shift_args, load_entry_append behind hnext, store_entry_append behind hstore]
      exact ih h

theorem drop_entry_append {left : Nat × Argv} (h : drop_entry ac av i = some left) :
    drop_arg ac (av ++ behind) i = (left.1, left.2 ++ behind) := by
  obtain ⟨between, hshift, h⟩ := Option.bind_eq_some_iff.mp h
  obtain ⟨av', hstore, rfl⟩ := Option.map_eq_some_iff.mp h
  rw [drop_arg, shift_entries_append behind hshift, store_entry_append behind hstore]

-- A walk that stays on the entries is the walk, whatever stands behind them.
theorem extract_entries_append {flags : Flags} {outcome : Except Refusal (Nat × Argv × Flags)}
    (h : extract_entries rounds i ac av flags = some outcome) :
    extract_rounds rounds i ac (av ++ behind) flags = followed behind outcome := by
  induction rounds generalizing i ac av flags with
  | zero => cases h
  | succ rounds ih =>
      rw [extract_entries] at h
      rw [extract_rounds]
      by_cases hi : i < ac
      · rw [if_pos hi] at h ⊢
        obtain ⟨token, htoken, h⟩ := Option.bind_eq_some_iff.mp h
        have harg : argAt (av ++ behind) i = token := by
          rw [argAt, load_entry_append behind (Option.join_eq_some_iff.mp htoken)]
          rfl
        rw [harg]
        split_ifs at h ⊢ with hmark hlong
        · cases h
          rfl
        · exact ih h
        · cases hopt : apply_long_opt token flags with
          | error refusal =>
              rw [hopt] at h
              cases h
              rfl
          | ok applied =>
              rw [hopt] at h
              cases applied with
              | none =>
                  cases h
                  rfl
              | some flags =>
                  obtain ⟨left, hdrop, h⟩ := Option.bind_eq_some_iff.mp h
                  dsimp only
                  rw [drop_entry_append behind hdrop]
                  exact ih h
      · rw [if_neg hi] at h ⊢
        cases h
        rfl

end Entries

section Compaction

variable (front : Argv) (entry : Option CString) (back nulls : Argv)

-- The entries behind the removed one move down; the last of them then stands twice.
theorem shift_entries_eq :
    ∃ last, shift_entries back.length front.length (front ++ entry :: (back ++ nulls)) =
      some (front ++ (back ++ last :: nulls)) := by
  induction back generalizing front entry with
  | nil => exact ⟨entry, rfl⟩
  | cons next back ih =>
      obtain ⟨last, hlast⟩ := ih (front ++ [next]) next
      refine ⟨last, ?_⟩
      rw [List.length_append, List.length_singleton] at hlast
      have hload : load_entry (front ++ entry :: (next :: back ++ nulls)) (front.length + 1) =
          some next := by
        rw [load_entry, List.getElem?_append_right (by omega), Nat.add_sub_cancel_left]
        rfl
      have hstore : store_entry (front ++ entry :: (next :: back ++ nulls)) front.length next =
          some (front ++ [next] ++ next :: (back ++ nulls)) := by
        rw [store_entry, if_pos (by simp), List.set_append_right _ _ (Nat.le_refl _)]
        simp
      rw [List.length_cons, shift_entries, hload, Option.bind_some, hstore, Option.bind_some,
        hlast, List.append_assoc]
      rfl

theorem drop_entry_eq :
    drop_entry (front.length + (back.length + 1)) (front ++ entry :: (back ++ nulls))
        front.length =
      some (front.length + back.length, front ++ (back ++ none :: nulls)) := by
  obtain ⟨last, hshift⟩ := shift_entries_eq front entry back nulls
  have hstore : store_entry (front ++ (back ++ last :: nulls)) (front.length + back.length)
      none = some (front ++ (back ++ none :: nulls)) := by
    rw [store_entry, if_pos (by simp), List.set_append_right _ _ (by omega),
      List.set_append_right _ _ (by omega)]
    simp
  rw [drop_entry, show front.length + (back.length + 1) - 1 - front.length = back.length by omega,
    show front.length + (back.length + 1) - 1 = front.length + back.length by omega, hshift,
    Option.bind_some, hstore, Option.map_some]

end Compaction

-- "--", "--bsd-flood" and "--help".
def end_mark : CString := ['-', '-']

def bsd_flood_opt : CString := ['-', '-', 'b', 's', 'd', '-', 'f', 'l', 'o', 'o', 'd']

def help_opt : CString := ['-', '-', 'h', 'e', 'l', 'p']

def is_long_opt (token : CString) : Bool := token.take 2 = end_mark

-- A long option that is not lifted out.
def is_foreign (token : CString) : Bool := is_long_opt token && token ≠ bsd_flood_opt

section Lifting

-- What is scanned of the tokens, how many of it are lifted out, and what is left of all.
def scanned (tokens : List CString) : List CString := tokens.takeWhile (· ≠ end_mark)

def lifted (tokens : List CString) : Nat := (scanned tokens).count bsd_flood_opt

def left_over (tokens : List CString) : List CString :=
  (scanned tokens).filter (· ≠ bsd_flood_opt) ++ tokens.dropWhile (· ≠ end_mark)

def lift_flags (flags : Flags) (lifted : Nat) : Flags :=
  { flags with bsd_flood := if 0 < lifted then true else flags.bsd_flood }

def refusal_of (token : CString) : Refusal :=
  if token = help_opt then .usage
  else .hinted ("ft_ping: unrecognized option '" ++ String.ofList token ++ "'\n")

-- Where the walk ends that has kept the tokens `done` and cleared `nulls` entries.
def walked (done tokens : List CString) (nulls : Nat) (flags : Flags) :
    Except Refusal (Nat × Argv × Flags) :=
  match (scanned tokens).find? is_foreign with
  | some token => .error (refusal_of token)
  | none => .ok (done.length + (left_over tokens).length,
      (done ++ left_over tokens).map some ++ List.replicate (nulls + lifted tokens) none,
      lift_flags flags (lifted tokens))

variable (done rest : List CString) (token : CString) (nulls : Nat) (flags : Flags)

theorem walked_mark (h : token = end_mark) :
    walked done (token :: rest) nulls flags =
      .ok (done.length + (rest.length + 1),
        (done ++ token :: rest).map some ++ List.replicate nulls none, flags) := by
  simp [walked, scanned, left_over, lifted, lift_flags, h]

theorem walked_kept (h : is_long_opt token = false) :
    walked done (token :: rest) nulls flags = walked (done ++ [token]) rest nulls flags := by
  have hmark : token ≠ end_mark := by
    intro heq
    subst heq
    simp [is_long_opt, end_mark] at h
  have hflood : token ≠ bsd_flood_opt := by
    intro heq
    subst heq
    simp [is_long_opt, end_mark, bsd_flood_opt] at h
  simp [walked, scanned, left_over, lifted, is_foreign, h, hmark, hflood, Nat.add_assoc,
    Nat.add_comm]

theorem walked_lifted :
    walked done (bsd_flood_opt :: rest) nulls flags =
      walked done rest (nulls + 1) { flags with bsd_flood := true } := by
  have hmark : bsd_flood_opt ≠ end_mark := by decide
  simp [walked, scanned, left_over, lifted, is_foreign, lift_flags, hmark, Nat.add_assoc,
    Nat.add_comm]

theorem walked_foreign (hmark : token ≠ end_mark) (h : is_foreign token = true) :
    walked done (token :: rest) nulls flags = .error (refusal_of token) := by
  simp [walked, scanned, hmark, h]

theorem load_entry_front :
    load_entry ((done ++ token :: rest).map some ++ List.replicate nulls none) done.length =
      some (some token) := by
  simp [load_entry]

theorem drop_entry_front :
    drop_entry (done.length + (token :: rest).length)
        ((done ++ token :: rest).map some ++ List.replicate nulls none) done.length =
      some (done.length + rest.length,
        (done ++ rest).map some ++ List.replicate (nulls + 1) none) := by
  have h := drop_entry_eq (done.map some) (some token) (rest.map some)
    (List.replicate nulls none)
  simpa [List.replicate_succ] using h

theorem apply_long_opt_eq :
    apply_long_opt token flags =
      if token = help_opt then .error .usage
      else if token = bsd_flood_opt then .ok (some { flags with bsd_flood := true })
      else .ok none :=
  rfl

-- The induction is on the tokens ahead: each round keeps the first of them, lifts it out or
-- is the last one.
theorem extract_entries_walked (tokens : List CString) {rounds : Nat}
    (h : tokens.length < rounds) :
    extract_entries rounds done.length (done.length + tokens.length)
        ((done ++ tokens).map some ++ List.replicate nulls none) flags =
      some (walked done tokens nulls flags) := by
  induction tokens generalizing done nulls flags rounds with
  | nil =>
      cases rounds with
      | zero => cases h
      | succ rounds =>
          rw [extract_entries, if_neg (by simp)]
          simp [walked, scanned, left_over, lifted, lift_flags]
  | cons token rest ih =>
      cases rounds with
      | zero => cases h
      | succ rounds =>
          have hrounds : rest.length < rounds := Nat.lt_of_succ_lt_succ h
          rw [extract_entries, if_pos (by simp), load_entry_front, Option.join_some,
            Option.bind_some]
          by_cases hmark : token = ['-', '-']
          · rw [if_pos hmark, walked_mark done rest token nulls flags hmark]
            rfl
          rw [if_neg hmark]
          by_cases hlong : token.take 2 = ['-', '-']
          · rw [if_neg (not_not.mpr hlong), apply_long_opt_eq]
            by_cases hhelp : token = help_opt
            · have hforeign : is_foreign token = true := by
                subst hhelp
                decide
              rw [if_pos hhelp, walked_foreign done rest token nulls flags hmark hforeign,
                refusal_of, if_pos hhelp]
            rw [if_neg hhelp]
            by_cases hflood : token = bsd_flood_opt
            · rw [if_pos hflood, hflood, walked_lifted, ← ih done (nulls + 1) _ hrounds]
              dsimp only
              rw [drop_entry_front, Option.bind_some]
            · have hforeign : is_foreign token = true := by
                simp only [is_foreign, is_long_opt, Bool.and_eq_true, decide_eq_true_eq]
                exact ⟨hlong, hflood⟩
              rw [if_neg hflood, walked_foreign done rest token nulls flags hmark hforeign,
                refusal_of, if_neg hhelp]
          · have hkept : is_long_opt token = false := decide_eq_false hlong
            have hwalk := ih (done ++ [token]) nulls flags hrounds
            rw [if_pos hlong, walked_kept done rest token nulls flags hkept, ← hwalk]
            simp [Nat.add_assoc, Nat.add_comm 1]

theorem left_over_length (tokens : List CString) :
    (left_over tokens).length + lifted tokens = tokens.length := by
  have hsplit : (scanned tokens).length + (tokens.dropWhile (· ≠ end_mark)).length =
      tokens.length := by
    rw [scanned, ← List.length_append, List.takeWhile_append_dropWhile]
  have hcount := List.length_eq_countP_add_countP (· == bsd_flood_opt) (l := scanned tokens)
  have hkept : ((scanned tokens).filter (· ≠ bsd_flood_opt)).length =
      (scanned tokens).countP fun token => ¬ (token == bsd_flood_opt) = true := by
    rw [List.countP_eq_length_filter]
    simp
  have hlifted : lifted tokens = (scanned tokens).countP (· == bsd_flood_opt) := rfl
  rw [left_over, List.length_append]
  omega

end Lifting

section LongOpts

variable (av : List CString) (behind : Argv) (flags : Flags)

-- The index of the first "--" behind argv[0], or argc, and the strings ahead of it.
def end_of_options : Nat := 1 + (av.drop 1).findIdx (· = end_mark)

def ahead : List CString := (av.take (end_of_options av)).drop 1

theorem extract_long_opts_walked (prog : CString) (tokens : List CString) :
    extract_entries (prog :: tokens).length 1 (prog :: tokens).length
        ((prog :: tokens).map some) flags = some (walked [prog] tokens 0 flags) ∧
      extract_long_opts (prog :: tokens).length ((prog :: tokens).map some ++ behind) flags =
        followed behind (walked [prog] tokens 0 flags) := by
  have hwalk := extract_entries_walked [prog] 0 flags tokens (Nat.lt_succ_self _)
  rw [List.replicate_zero, List.append_nil, List.length_singleton, Nat.add_comm 1] at hwalk
  exact ⟨hwalk, extract_entries_append behind hwalk⟩

theorem ahead_eq (prog : CString) (tokens : List CString) :
    ahead (prog :: tokens) = scanned tokens := by
  rw [ahead, end_of_options, Nat.add_comm, List.take_succ_cons, List.drop_one, List.tail_cons,
    List.drop_one, List.tail_cons, scanned, List.takeWhile_eq_take_findIdx_not]
  simp

theorem unscanned_eq (prog : CString) (tokens : List CString) :
    (prog :: tokens).drop (end_of_options (prog :: tokens)) =
      tokens.dropWhile (· ≠ end_mark) := by
  rw [end_of_options, Nat.add_comm, List.drop_succ_cons, List.drop_one, List.tail_cons,
    List.dropWhile_eq_drop_findIdx_not]
  simp

theorem walked_known (prog : CString) (tokens : List CString)
    (h : ∀ token ∈ scanned tokens, is_long_opt token = true → token = bsd_flood_opt) :
    walked [prog] tokens 0 flags =
      .ok ((prog :: tokens).length - lifted tokens,
        ([prog] ++ (scanned tokens).filter (· ≠ bsd_flood_opt) ++
            tokens.dropWhile (· ≠ end_mark)).map some ++ List.replicate (lifted tokens) none,
        lift_flags flags (lifted tokens)) := by
  have hnone : (scanned tokens).find? is_foreign = none := by
    rw [List.find?_eq_none]
    intro token htoken hforeign
    rw [is_foreign, Bool.and_eq_true, decide_eq_true_eq] at hforeign
    exact hforeign.2 (h token htoken hforeign.1)
  have hlength : (prog :: tokens).length - lifted tokens =
      [prog].length + (left_over tokens).length := by
    have := left_over_length tokens
    simp only [List.length_cons, List.length_nil]
    omega
  rw [walked, hnone, hlength, List.append_assoc [prog], ← left_over]
  dsimp only
  rw [Nat.zero_add]

theorem walked_refused (done tokens : List CString) (nulls : Nat) {token : CString}
    (h : (scanned tokens).find? is_foreign = some token) (hhelp : token ≠ help_opt) :
    walked done tokens nulls flags = .error (.hinted
      ("ft_ping: unrecognized option '" ++ String.ofList token ++ "'\n")) := by
  rw [walked, h]
  dsimp only
  rw [refusal_of, if_neg hhelp]

-- The long options ahead of the first "--" are lifted out of argv and nothing else is: they
-- set their flag, the other strings close up in their order with NULL behind them, and a long
-- option of no known name is refused. Whatever stands behind the argc entries is neither read
-- nor written, and the loop ends.
theorem long_options_are_lifted (hargc : 1 ≤ av.length) :
    ((∀ token ∈ ahead av, is_long_opt token = true → token = bsd_flood_opt) →
      extract_long_opts av.length (av.map some ++ behind) flags =
        .ok (av.length - (ahead av).count bsd_flood_opt,
          (av.take 1 ++ (ahead av).filter (· ≠ bsd_flood_opt) ++
              av.drop (end_of_options av)).map some ++
            List.replicate ((ahead av).count bsd_flood_opt) none ++ behind,
          { flags with
            bsd_flood := if 0 < (ahead av).count bsd_flood_opt then true else flags.bsd_flood })) ∧
    (∀ token, (ahead av).find? is_foreign = some token → token ≠ help_opt →
      extract_long_opts av.length (av.map some ++ behind) flags =
        .error (.hinted ("ft_ping: unrecognized option '" ++ String.ofList token ++ "'\n"))) ∧
    ∃ outcome, extract_entries av.length 1 av.length (av.map some) flags = some outcome ∧
      extract_long_opts av.length (av.map some ++ behind) flags = followed behind outcome := by
  cases av with
  | nil => cases hargc
  | cons prog tokens =>
      obtain ⟨hentries, hopts⟩ := extract_long_opts_walked behind flags prog tokens
      rw [ahead_eq, unscanned_eq]
      refine ⟨fun hknown => ?_, fun token hfound hhelp => ?_, _, hentries, hopts⟩
      · rw [hopts, walked_known flags prog tokens hknown]
        rfl
      · rw [hopts, walked_refused flags [prog] tokens 0 hfound hhelp]
        rfl

theorem long_options_are_lifted_between :
    1 ≤ [['p'], bsd_flood_opt, ['-', 'q'], bsd_flood_opt, end_mark, bsd_flood_opt].length ∧
      extract_long_opts 6 ([['p'], bsd_flood_opt, ['-', 'q'], bsd_flood_opt, end_mark,
          bsd_flood_opt].map some ++ [none]) Flags.zero =
        .ok (4, [['p'], ['-', 'q'], end_mark, bsd_flood_opt].map some ++ [none, none] ++ [none],
          { Flags.zero with bsd_flood := true }) :=
  ⟨by decide, (long_options_are_lifted [['p'], bsd_flood_opt, ['-', 'q'], bsd_flood_opt, end_mark,
    bsd_flood_opt] [none] Flags.zero (by decide)).1 (by decide)⟩

end LongOpts

end FtPing
