import FtPing.System

namespace FtPing

open Bytes

-- payload_len and recvbuf_len.
def ctx_size_buffers (flags : Flags) : Nat × Nat :=
  let payload_len := if flags.has_packet_size then flags.packet_size.toNat else PING_PAYLOAD_SIZE
  let recvbuf_len := payload_len + PING_RECVBUF_SLACK
  (payload_len, if recvbuf_len < PING_RECVBUF_MIN then PING_RECVBUF_MIN else recvbuf_len)

def Ctx.sized (ctx : Ctx) : Prop :=
  (ctx.payload_len, ctx.recvbuf_len) = ctx_size_buffers ctx.flags

-- What ctx_init() builds. malloc() leaves the contents of pkt and recvbuf open; they are
-- zero here.
def ctx_alloc_buffers (flags : Flags) (dst : List UInt8) (id : UInt16) : Ctx where
  flags := flags
  dst := dst
  id := id
  payload_len := (ctx_size_buffers flags).1
  pkt := .zeroed _
  send_ts _ := ⟨0, 0⟩
  recvbuf_len := (ctx_size_buffers flags).2
  recvbuf := .zeroed _

theorem ctx_alloc_buffers_sized (flags : Flags) (dst : List UInt8) (id : UInt16) :
    (ctx_alloc_buffers flags dst id).sized := rfl

theorem Ctx.sized.recvbuf_len_eq {ctx : Ctx} (h : ctx.sized) :
    ctx.recvbuf_len = max (ctx.payload_len + PING_RECVBUF_SLACK) PING_RECVBUF_MIN := by
  have hboth := Prod.ext_iff.mp h
  have hpayload : ctx.payload_len = (ctx_size_buffers ctx.flags).1 := hboth.1
  have hrecvbuf : ctx.recvbuf_len = (ctx_size_buffers ctx.flags).2 := hboth.2
  rw [hrecvbuf, hpayload, ctx_size_buffers]
  dsimp only
  split_ifs <;> omega

-- The program before ping_run(): nothing is scheduled or counted yet.
def State.initial {N : Type} (ctx : Ctx) (net : N) : State N where
  ctx := ctx
  sched := ⟨.finite 0, .finite 0, .finite 0, 0⟩
  stats := Stats.zero
  now := 0
  stop := false
  net := net
  log := []

-- A run with the id 0x1234 that pings 127.0.0.1, for examples.
def loopback (flags : Flags) : State Unit :=
  .initial (ctx_alloc_buffers flags [127, 0, 0, 1] 0x1234) ()

end FtPing
