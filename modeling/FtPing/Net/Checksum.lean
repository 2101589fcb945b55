import FtPing.Bytes.Order

namespace FtPing

open Bytes

variable (host : Endian)

-- The summing loop. A trailing byte goes into the first byte of a zeroed word.
def sum_words : UInt32 → List UInt8 → UInt32
  | sum, first :: second :: rest => sum_words (sum + (load16 host first second).toUInt32) rest
  | sum, [last] => sum + (load16 host last 0).toUInt32
  | sum, [] => sum

-- `while (sum >> 16)`. Two rounds end it for every sum, see `fold_carries_ends`.
def fold_carries : Nat → UInt32 → UInt32
  | 0, sum => sum
  | rounds + 1, sum =>
      if sum >>> 16 = 0 then sum
      else fold_carries rounds ((sum &&& (0xFFFF : UInt32)) + (sum >>> 16))

def ft_checksum (buf : List UInt8) : UInt16 :=
  (~~~ fold_carries 2 (sum_words host 0 buf)).toUInt16

end FtPing
