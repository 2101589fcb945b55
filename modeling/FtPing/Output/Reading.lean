import FtPing.CLib.Scan
import FtPing.Output.PrintPacket

namespace FtPing

open CLib

-- What a reader gets to know from a line on stdout: the time to three places, and of the type
-- and code of an error their description.
inductive Displayed
  | reply (icmp_bytes : Nat) (src : List UInt8) (seq : UInt16) (ttl : UInt8) (rtt : ℚ)
  | icmp_error (src : List UInt8) (seq : UInt16) (desc : CString)
  | flood_send
  | flood_recv
  deriving DecidableEq

def Line.shown : Line → Option Displayed
  | .reply icmp_bytes src seq ttl rtt => some (.reply icmp_bytes src seq ttl (rounded3 rtt))
  | .icmp_error src seq type code => some (.icmp_error src seq (icmp_error_desc type code))
  | .flood_send => some .flood_send
  | .flood_recv => some .flood_recv
  | .checksum_mismatch _ => none
  | .perror _ => none

-- An address has four bytes.
def Line.addressed : Line → Prop
  | .reply _ src _ _ _ => src.length = 4
  | .icmp_error src _ _ _ => src.length = 4
  | .checksum_mismatch src => src.length = 4
  | _ => True

end FtPing
