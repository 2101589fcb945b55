import FtPing.Numeric.Root
import FtPing.Output.PrintPacket
import FtPing.Output.PrintReport

namespace FtPing

open Bytes CLib Numeric

-- The name that the user gave, as the context has it.
def Flags.name (flags : Flags) : CString := flags.host.getD []

-- ctx->ipstr is what inet_ntop() makes of ctx->dst.
def print_ping_banner (host : Endian) (ctx : Ctx) : CString :=
  let id := (ntohs host ctx.id).toNat
  "PING ".toList ++ (ctx.flags.name ++ (" (".toList ++ (inet_ntop ctx.dst ++ ("): ".toList ++
    (decimal ctx.payload_len ++ (" data bytes".toList ++
      ((if ctx.flags.verbose then
        ", id 0x".toList ++ (padded 4 16 id ++ (" = ".toList ++ decimal id))
      else []) ++ ['\n'])))))))

-- "round-trip min/avg/max/stddev = "
def figures_label : CString :=
  ['r', 'o', 'u', 'n', 'd', '-', 't', 'r', 'i', 'p', ' ', 'm', 'i', 'n', '/', 'a', 'v', 'g', '/',
    'm', 'a', 'x', '/', 's', 't', 'd', 'd', 'e', 'v', ' ', '=', ' ']

-- The closing line of print_stats(), with a deviation that is the square root of the variance.
def print_figures : Option (ℚ × ℚ × ℚ × ℚ) → CString
  | none => []
  | some (rtt_min, mean, rtt_max, variance) =>
      figures_label ++ (fixed3 rtt_min ++ ('/' :: (fixed3 mean ++
        ('/' :: (fixed3 rtt_max ++ ('/' :: (thousandths (rootEven (1000000 * variance)) ++
          " ms\n".toList)))))))

-- All that print_stats() prints.
def print_stats_text (name : CString) (stats : Stats) : CString :=
  "--- ".toList ++ (name ++ (" ping statistics ---\n".toList ++
    ((print_counts stats).toList ++ print_figures (print_stats stats))))

example : print_stats_text ['h'] ⟨3, 0, 0, 0, 0, 0⟩ =
    ("--- h ping statistics ---\n" ++
      "3 packets transmitted, 0 packets received, 100% packet loss\n").toList := by
  decide +kernel

end FtPing
