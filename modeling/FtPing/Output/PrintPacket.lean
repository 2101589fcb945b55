import FtPing.CLib.Printf
import FtPing.System

namespace FtPing

open CLib

-- inet_ntop(AF_INET, ...)
def inet_ntop (addr : List UInt8) : CString :=
  ['.'].intercalate (addr.map fun byte => decimal byte.toNat)

def icmp_error_desc (type code : UInt8) : CString :=
  if type = 3 then
    if code = 0 then "Destination Network Unreachable".toList
    else if code = 1 then "Destination Host Unreachable".toList
    else if code = 2 then "Destination Protocol Unreachable".toList
    else if code = 3 then "Destination Port Unreachable".toList
    else if code = 4 then "Frag needed and DF set".toList
    else if code = 13 then "Communication Administratively Prohibited".toList
    else "Destination Unreachable".toList
  else if type = 4 then "Source Quench".toList
  else if type = 5 then "Redirect".toList
  else if type = 11 then
    if code = 0 then "Time to live exceeded".toList else "Frag reassembly time exceeded".toList
  else "Parameter problem".toList

def print_reply (icmp_bytes : Nat) (src : CString) (seq : UInt16) (ttl : UInt8) (rtt : ℚ) :
    CString :=
  decimal icmp_bytes ++ (" bytes from ".toList ++ (src ++ (": icmp_seq=".toList ++
    (decimal seq.toNat ++ (" ttl=".toList ++ (decimal ttl.toNat ++ (" time=".toList ++
      (fixed3 rtt ++ " ms\n".toList))))))))

def print_icmp_error (src : CString) (seq : UInt16) (type code : UInt8) : CString :=
  "From ".toList ++ (src ++ (" icmp_seq=".toList ++ (decimal seq.toNat ++
    (' ' :: (icmp_error_desc type code ++ ['\n'])))))

def backspace : Char := Char.ofNat 8

def print_flood_send : CString := ['.']

def print_flood_recv : CString := [backspace]

-- What a call of an output function puts on stdout. The other two write to stderr.
def Line.text : Line → CString
  | .reply icmp_bytes src seq ttl rtt => print_reply icmp_bytes (inet_ntop src) seq ttl rtt
  | .icmp_error src seq type code => print_icmp_error (inet_ntop src) seq type code
  | .flood_send => print_flood_send
  | .flood_recv => print_flood_recv
  | .checksum_mismatch _ => []
  | .perror _ => []

end FtPing
