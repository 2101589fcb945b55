import FtPing.Output.Bracket
import FtPing.Output.Reading

namespace FtPing

open Bytes CLib Numeric

-- What stands on stdout of a run that has come to its end.
structure Opening where
  dst : List UInt8
  payload_len : Nat
  id : Option Nat
  deriving DecidableEq

section Scanning

end Scanning

section Reading

variable (host : Endian) (ctx : Ctx) (stats : Stats)

end Reading

end FtPing
