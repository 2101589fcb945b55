import FtPing.System

namespace FtPing

open Bytes Interaction

variable {N : Type} (host : Endian)

def is_icmp_error_type (type : UInt8) : Bool :=
  type = 3 || type = 4 || type = 5 || type = 11 || type = 12

-- Pointers into the receive buffer are offsets from its start.
def quoted_probe (reply ihl n : Nat) : Ping N (Option Nat) :=
  let quote_off := ihl + IcmpHdr.size
  if n < quote_off + IpHdr.size then pure none
  else do
    let inner_ip := reply + IcmpHdr.size
    let inner_ihl := IpHdr.ip_hl (← load_uint8 inner_ip) * 4
    if inner_ihl < IpHdr.size then pure none
    else if n < quote_off + inner_ihl + IcmpHdr.size then pure none
    else pure (some (inner_ip + inner_ihl))

def handle_icmp_error (ctx : Ctx) (ip ihl reply n : Nat) : Ping N Unit := do
  let type ← load_uint8 (reply + IcmpHdr.type)
  if ¬ is_icmp_error_type type then pure ()
  else
    match ← quoted_probe reply ihl n with
    | none => pure ()
    | some inner_icmp => do
        let id ← load_uint16 host (inner_icmp + IcmpHdr.id)
        if id ≠ ctx.id ∧ ¬ ctx.flags.verbose then pure ()
        else if ctx.flags.quiet ∨ ctx.flags.quiet_errors then pure ()
        else do
          let src ← load (ip + IpHdr.ip_src) 4
          let sequence ← load_uint16 host (inner_icmp + IcmpHdr.sequence)
          let code ← load_uint8 (reply + IcmpHdr.code)
          print (.icmp_error src (ntohs host sequence) type code)

end FtPing
