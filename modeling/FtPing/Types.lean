import FtPing.Bytes.Buffer
import FtPing.Bytes.Order
import FtPing.CLib.Strtol
import FtPing.Numeric.Double

namespace FtPing

open Bytes CLib Numeric

def PING_PAYLOAD_SIZE : Nat := 56

def PING_INTERVAL_SEC : ℚ := 1

def PING_FLOOD_INTERVAL_MS : ℚ := 10

def PING_TS_RING : Nat := 65536

def PING_POLL_MAX_MS : ℚ := 3600000

def PING_RECVBUF_MIN : Nat := 1024

def PING_RECVBUF_SLACK : Nat := 128

def PING_PATTERN_MAX : Nat := 16

-- The ICMP echo header: type, code, checksum, id and sequence in eight bytes.
namespace IcmpHdr

def size : Nat := 8

def type : Nat := 0

def code : Nat := 1

def checksum : Nat := 2

def id : Nat := 4

def sequence : Nat := 6

end IcmpHdr

-- The fixed part of `struct ip`, and the offsets of the fields the program reads. `ip_hl` is
-- the low half of the first byte.
namespace IpHdr

def size : Nat := 20

def ip_hl (first : UInt8) : Nat := first.toNat % 16

def ip_ttl : Nat := 8

def ip_p : Nat := 9

def ip_src : Nat := 12

end IpHdr

structure Timespec where
  tv_sec : Int
  tv_nsec : Int
  deriving DecidableEq

def Timespec.size : Nat := 16

@[ext]
structure Stats where
  n_sent : Int
  n_recv : Int
  sum : ℚ
  sum_sq : ℚ
  rtt_min : ℚ
  rtt_max : ℚ
  deriving DecidableEq

structure Flags where
  flood : Bool
  bsd_flood : Bool
  has_preload : Bool
  preload : Int
  has_interval : Bool
  interval : Double
  has_ttl : Bool
  ttl : Int
  exit_on_reply : Bool
  quiet_errors : Bool
  quiet : Bool
  bypass_routing : Bool
  has_pattern : Bool
  pattern : Buffer PING_PATTERN_MAX
  pattern_len : Nat
  has_source_addr : Bool
  source_addr : Option CString
  has_packet_size : Bool
  packet_size : Int
  has_multicast_ttl : Bool
  multicast_ttl : Int
  has_timeout : Bool
  timeout : Int
  verbose : Bool
  host : Option CString

-- The context's buffers have the capacities that its size fields state.
structure Ctx where
  flags : Flags
  dst : List UInt8
  id : UInt16
  payload_len : Nat
  pkt : Buffer (IcmpHdr.size + payload_len)
  send_ts : Fin PING_TS_RING → Timespec
  recvbuf_len : Nat
  recvbuf : Buffer recvbuf_len

structure Sched where
  interval : Double
  deadline : Double
  last_send : Double
  seq : UInt16

def Stats.zero : Stats := ⟨0, 0, 0, 0, 0, 0⟩

def Flags.zero : Flags where
  flood := false
  bsd_flood := false
  has_preload := false
  preload := 0
  has_interval := false
  interval := .finite 0
  has_ttl := false
  ttl := 0
  exit_on_reply := false
  quiet_errors := false
  quiet := false
  bypass_routing := false
  has_pattern := false
  pattern := .zeroed PING_PATTERN_MAX
  pattern_len := 0
  has_source_addr := false
  source_addr := none
  has_packet_size := false
  packet_size := 0
  has_multicast_ttl := false
  multicast_ttl := 0
  has_timeout := false
  timeout := 0
  verbose := false
  host := none

-- seq % PING_TS_RING
def slot (seq : UInt16) : Fin PING_TS_RING :=
  ⟨seq.toNat % PING_TS_RING, Nat.mod_lt _ (by decide)⟩

end FtPing
