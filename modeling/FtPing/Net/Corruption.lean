import FtPing.Bytes.Bits
import FtPing.Net.ByteOrder
import FtPing.Net.Verification

namespace FtPing

open Bytes Interaction OnesComplement

variable (host : Endian)

end FtPing
