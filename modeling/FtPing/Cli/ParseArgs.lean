import FtPing.CLib.Getopt
import FtPing.Cli.ParseLong
import FtPing.Cli.ParseNum
import FtPing.Cli.ParsePattern

namespace FtPing

open Bytes CLib Numeric

def invalid_value (arg : CString) (opt : Char) : Refusal :=
  .rejected ("ft_ping: invalid value '" ++ String.ofList arg ++ "' for -" ++ opt.toString ++ "\n")

def opt_long (arg : CString) (opt : Char) (lo hi : Int) : Except Refusal Int :=
  match test_strton strtol arg with
  | none => .error (invalid_value arg opt)
  | some val => if val < lo ∨ hi < val then .error (invalid_value arg opt) else .ok val

def require_root (euid : Nat) (opt : Char) (what : String) : Except Refusal Unit :=
  if euid = 0 then .ok ()
  else .error (.rejected ("ft_ping: -" ++ opt.toString ++ ": only root may use " ++ what ++ "\n"))

-- The conversion of a long to a 32-bit int keeps the low half.
def int_of_long (value : Int) : Int := value.bmod 4294967296

-- The option string of getopt(): ":fl:i:m:oQqrp:S:s:T:t:v".
def optstring : CString :=
  [':', 'f', 'l', ':', 'i', ':', 'm', ':', 'o', 'Q', 'q', 'r', 'p', ':', 'S', ':', 's', ':', 'T',
    ':', 't', ':', 'v']

-- The switch of parse_info(), one case for each option. Nothing falls under the last case.
def parse_opt (euid : Nat) (opt : Opt) (flags : Flags) : Except Refusal Flags :=
  match opt with
  | .option 'f' _ => do
      require_root euid 'f' "flood ping"
      pure { flags with flood := true }
  | .option 'l' (some optarg) => do
      let tmp ← opt_long optarg 'l' 0 LONG_MAX
      require_root euid 'l' "preload"
      pure { flags with has_preload := true, preload := int_of_long tmp }
  | .option 'i' (some optarg) =>
      match test_strton strtod optarg with
      | none => .error (invalid_value optarg 'i')
      | some d_tmp =>
          if d_tmp.le (.finite 0) then .error (invalid_value optarg 'i')
          else if d_tmp.lt (.finite (1 / 500)) ∧ euid ≠ 0 then
            .error (.rejected "ft_ping: -i: intervals below 2ms require root\n")
          else pure { flags with has_interval := true, interval := d_tmp }
  | .option 'm' (some optarg) => do
      let tmp ← opt_long optarg 'm' 0 255
      pure { flags with has_ttl := true, ttl := int_of_long tmp }
  | .option 'o' _ => pure { flags with exit_on_reply := true }
  | .option 'Q' _ => pure { flags with quiet_errors := true }
  | .option 'q' _ => pure { flags with quiet := true }
  | .option 'r' _ => pure { flags with bypass_routing := true }
  | .option 'p' (some optarg) =>
      match decode_pattern optarg flags.pattern flags.pattern_len with
      | (true, pattern, pattern_len) =>
          pure { flags with has_pattern := true, pattern := pattern, pattern_len := pattern_len }
      | _ => .error (.rejected ("ft_ping: patterns must be specified as hex " ++
          "digits (max 32 hex chars / 16 bytes)\n"))
  | .option 'S' optarg => pure { flags with has_source_addr := true, source_addr := optarg }
  | .option 's' (some optarg) => do
      let tmp ← opt_long optarg 's' 0 65507
      pure { flags with has_packet_size := true, packet_size := int_of_long tmp }
  | .option 'T' (some optarg) => do
      let tmp ← opt_long optarg 'T' 0 255
      pure { flags with has_multicast_ttl := true, multicast_ttl := int_of_long tmp }
  | .option 't' (some optarg) => do
      let tmp ← opt_long optarg 't' 1 LONG_MAX
      pure { flags with has_timeout := true, timeout := int_of_long tmp }
  | .option 'v' _ => pure { flags with verbose := true }
  | .unknown optopt =>
      if optopt = '?' then .error .usage
      else .error (.hinted ("unknown option: -" ++ optopt.toString ++ "\n"))
  | .missing optopt => .error (.hinted ("-" ++ optopt.toString ++ " needs an argument\n"))
  | .option _ _ => pure flags

def finalise_flags (operands : List CString) (flags : Flags) : Except Refusal Flags :=
  if flags.has_interval ∧ flags.flood then .error (.rejected "invalid combination: -f + -i\n")
  else if flags.bsd_flood ∧ ¬ flags.flood then
    .error (.rejected "ft_ping: --bsd-flood only means anything with -f\n")
  else
    let flags :=
      if flags.quiet then { flags with quiet_errors := false, verbose := false } else flags
    match operands with
    | [] => .error (.rejected "ft_ping: missing host operand\n")
    | host :: _ => .ok { flags with host := some host }

-- The strings that getopt() sees behind argv[0].
def arguments (ac : Nat) (av : Argv) : List CString := ((av.take ac).drop 1).filterMap id

def parse_opts (euid : Nat) (opts : List Opt) (flags : Flags) : Except Refusal Flags :=
  opts.foldlM (fun flags opt => parse_opt euid opt flags) flags

def parse_info (permutes : Bool) (euid ac : Nat) (av : Argv) (flags : Flags) :
    Except Refusal Flags := do
  let (ac, av, flags) ← extract_long_opts ac av flags
  let (opts, operands) := getopt permutes (takesArg optstring) (arguments ac av)
  let flags ← parse_opts euid opts flags
  finalise_flags operands flags

end FtPing
