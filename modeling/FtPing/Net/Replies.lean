import FtPing.Core.Context
import FtPing.Net.Drain

namespace FtPing

open Bytes Interaction

variable (host : Endian)

theorem printed_ctx (s : State Unit) (line : Option Line) : (printed s line).ctx = s.ctx := by
  cases line <;> rfl

theorem printed_stats (s : State Unit) (line : Option Line) :
    (printed s line).stats = s.stats := by
  cases line <;> rfl

theorem recorded_stats (s : State Unit) (d : Datagram) (now : Nat) :
    (recorded host s d now).stats = fold_rtt s.stats
      (elapsed_ms (s.ctx.send_ts (slot (d.sequence host))) (timespec now)) := printed_stats _ _

theorem digest_reply {s : State Unit} {d : Datagram} (now : Nat) (clock : List Nat)
    (hfit : d.length ≤ s.ctx.recvbuf_len) (h : is_reply host s.ctx.id d = true) :
    digest host (now :: clock) s d = some (clock, recorded host (delivered s d) d now) := by
  simp only [digest, List.take_of_length_le hfit, verdict_of_is_reply host h]

theorem Ctx.agrees.delivered {ctx : Ctx} {s : State Unit} (h : ctx.agrees s.ctx) (d : Datagram) :
    ctx.agrees (delivered s d).ctx :=
  h.withRecvbuf _

-- Two bytes of noise, and a reply with the id 0x1234 and sequence number 0.
def noise : Datagram := [0x45, 0]

def bare_reply : Datagram :=
  0x45 :: List.replicate 19 0 ++ [0, 0, 0xCB, 0xED, 0x34, 0x12, 0, 0]

end FtPing
