import FtPing.Types

namespace FtPing

open Bytes CLib

def is_valid_hex (hex : CString) : Bool :=
  if hex.length = 0 ∨ hex.length % 2 ≠ 0 ∨ hex.length > PING_PATTERN_MAX * 2 then false
  else hex.all isxdigit

-- The loop over the digits, two at a time; `i` counts bytes.
def decode_digits : CString → Nat → Buffer PING_PATTERN_MAX → Buffer PING_PATTERN_MAX
  | high :: low :: rest, i, out =>
      decode_digits rest (i + 1) (out.store i [UInt8.ofNat (strtol16 [high, low]).toNat])
  | _, _, out => out

def decode_pattern (hex : CString) (out : Buffer PING_PATTERN_MAX) (out_len : Nat) :
    Bool × Buffer PING_PATTERN_MAX × Nat :=
  if ¬ is_valid_hex hex then (false, out, out_len)
  else (true, decode_digits hex 0 out, hex.length / 2)

end FtPing
