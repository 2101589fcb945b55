import FtPing.Net.Checksum
import FtPing.Net.IcmpError

namespace FtPing

open Bytes Interaction

variable {N : Type} (host : Endian)

def classify_recv_error (errno : Errno) : Ping N Int :=
  if errno = .EAGAIN ∨ errno = .EWOULDBLOCK then pure 0
  else if errno = .EINTR then pure 0
  else do
    print (.perror "recvfrom")
    pure (-1)

def locate_icmp (n : Nat) : Ping N (Option Nat) :=
  if n < IpHdr.size then pure none
  else do
    let ihl := IpHdr.ip_hl (← load_uint8 0) * 4
    if ihl < IpHdr.size then pure none
    else if n < ihl + IcmpHdr.size then pure none
    else pure (some ihl)

def checksum_ok (reply icmp_bytes : Nat) : Ping N Bool := do
  let claimed ← load_uint16 host (reply + IcmpHdr.checksum)
  store_uint16 host (reply + IcmpHdr.checksum) 0
  let message ← load reply icmp_bytes
  let computed := ft_checksum host message
  store_uint16 host (reply + IcmpHdr.checksum) claimed
  pure (computed = claimed)

def record_rtt (ctx : Ctx) (seq : UInt16) : Ping N ℚ := do
  let now ← clock_gettime .record_rtt
  let rtt := elapsed_ms (ctx.send_ts (slot seq)) now
  count_reply rtt
  pure rtt

def report_reply (ctx : Ctx) (ip icmp_bytes : Nat) (seq : UInt16) (rtt : ℚ) : Ping N Unit := do
  entered (.report_reply icmp_bytes seq rtt)
  if ctx.flags.quiet then pure ()
  else if ctx.flags.flood then print .flood_recv
  else do
    let src ← load (ip + IpHdr.ip_src) 4
    let ttl ← load_uint8 (ip + IpHdr.ip_ttl)
    print (.reply icmp_bytes src seq ttl rtt)

-- The body of `while (1)`: the loop goes on with `.inl` and returns with `.inr`.
def receive_round : Ping N (Unit ⊕ Int) := do
  let s ← Prog.get
  match ← recvfrom s.ctx.recvbuf_len with
  | .error errno => do
      let rc ← classify_recv_error errno
      pure (.inr rc)
  | .ok n => do
      match ← locate_icmp n with
      | none => pure (.inl ())
      | some ihl => do
          if ¬ (← checksum_ok host ihl (n - ihl)) then
            let src ← load IpHdr.ip_src 4
            print (.checksum_mismatch src)
            pure (.inl ())
          else
            let type ← load_uint8 (ihl + IcmpHdr.type)
            let code ← load_uint8 (ihl + IcmpHdr.code)
            if type ≠ 0 ∨ code ≠ 0 then
              handle_icmp_error host s.ctx 0 ihl ihl n
              pure (.inl ())
            else
              let id ← load_uint16 host (ihl + IcmpHdr.id)
              if id ≠ s.ctx.id then pure (.inl ())
              else
                let sequence ← load_uint16 host (ihl + IcmpHdr.sequence)
                let seq := ntohs host sequence
                let rtt ← record_rtt s.ctx seq
                report_reply s.ctx 0 (n - ihl) seq rtt
                pure (.inl ())

def ping_receive : Ping N Int := Prog.iterate (fun _ : Unit => receive_round host) ()

end FtPing
