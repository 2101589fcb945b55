import FtPing.Types

namespace FtPing

open CLib

-- How the command line is refused: a message on stderr, for some with the hint behind it, or
-- the help text on stdout and exit().
inductive Refusal
  | rejected (message : String)
  | hinted (message : String)
  | usage
  deriving DecidableEq

-- An argument vector with its NULL pointers.
abbrev Argv := List (Option CString)

def argAt (av : Argv) (i : Nat) : CString := (av.getD i none).getD []

-- The loop of drop_arg(), with the rounds that remain.
def shift_args : Nat → Nat → Argv → Argv
  | 0, _, av => av
  | rounds + 1, i, av => shift_args rounds (i + 1) (av.set i (av.getD (i + 1) none))

def drop_arg (ac : Nat) (av : Argv) (i : Nat) : Nat × Argv :=
  (ac - 1, (shift_args (ac - 1 - i) i av).set (ac - 1) none)

def apply_long_opt (token : CString) (flags : Flags) : Except Refusal (Option Flags) :=
  if token = ['-', '-', 'h', 'e', 'l', 'p'] then .error .usage
  else if token = ['-', '-', 'b', 's', 'd', '-', 'f', 'l', 'o', 'o', 'd'] then
    .ok (some { flags with bsd_flood := true })
  else .ok none

-- The loop of extract_long_opts(); each round leaves one argument less ahead.
def extract_rounds : Nat → Nat → Nat → Argv → Flags → Except Refusal (Nat × Argv × Flags)
  | 0, _, ac, av, flags => .ok (ac, av, flags)
  | rounds + 1, i, ac, av, flags =>
      if i < ac then
        if argAt av i = ['-', '-'] then .ok (ac, av, flags)
        else if (argAt av i).take 2 ≠ ['-', '-'] then extract_rounds rounds (i + 1) ac av flags
        else
          match apply_long_opt (argAt av i) flags with
          | .error refusal => .error refusal
          | .ok none => .error (.hinted
              ("ft_ping: unrecognized option '" ++ String.ofList (argAt av i) ++ "'\n"))
          | .ok (some flags) =>
              extract_rounds rounds i (drop_arg ac av i).1 (drop_arg ac av i).2 flags
      else .ok (ac, av, flags)

def extract_long_opts (ac : Nat) (av : Argv) (flags : Flags) :
    Except Refusal (Nat × Argv × Flags) :=
  extract_rounds ac 1 ac av flags

end FtPing
