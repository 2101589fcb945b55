import FtPing.System
import FtPing.Net.Checksum

namespace FtPing

open Bytes Interaction

variable {N : Type} (host : Endian)

-- `while (i < ctx->payload_len) payload[i] = byte i, i++`, with the rounds that remain.
def fill {capacity : Nat} (byte : Nat → UInt8) : Nat → Nat → Buffer capacity → Buffer capacity
  | 0, _, pkt => pkt
  | rounds + 1, i, pkt => fill byte rounds (i + 1) (pkt.store (IcmpHdr.size + i) [byte i])

def fill_pattern (ctx : Ctx) : Ctx :=
  { ctx with
    pkt := fill (fun i => ctx.flags.pattern.byte (i % ctx.flags.pattern_len)) ctx.payload_len 0
      ctx.pkt }

-- A struct timespec as it lies in memory.
def Timespec.bytes (ts : Timespec) : List UInt8 :=
  store64 host ts.tv_sec ++ store64 host ts.tv_nsec

def fill_default (seq : UInt16) (ctx : Ctx) : Ctx :=
  if Timespec.size ≤ ctx.payload_len then
    { ctx with
      pkt := fill UInt8.ofNat (ctx.payload_len - Timespec.size) Timespec.size
        (ctx.pkt.store IcmpHdr.size ((ctx.send_ts (slot seq)).bytes host)) }
  else { ctx with pkt := fill UInt8.ofNat ctx.payload_len 0 ctx.pkt }

def write_timestamp (seq : UInt16) (now : Timespec) (ctx : Ctx) : Ctx :=
  { ctx with send_ts := Function.update ctx.send_ts (slot seq) now }

-- What fill_payload() does with the clock reading `now` that it has taken.
def write_payload (seq : UInt16) (now : Timespec) (ctx : Ctx) : Ctx :=
  if ctx.flags.has_pattern then fill_pattern (write_timestamp seq now ctx)
  else fill_default host seq (write_timestamp seq now ctx)

def write_header (seq : UInt16) (ctx : Ctx) : Ctx :=
  { ctx with
    pkt := (((ctx.pkt.store IcmpHdr.type [8]).store IcmpHdr.code [0]).store IcmpHdr.id
      (store16 host ctx.id)).store IcmpHdr.sequence (store16 host (htons host seq)) }

-- The checksum is taken while its field reads zero.
def write_checksum (ctx : Ctx) : Ctx :=
  let pkt := ctx.pkt.store IcmpHdr.checksum (store16 host 0)
  { ctx with
    pkt := pkt.store IcmpHdr.checksum (store16 host (ft_checksum host pkt.bytes)) }

def State.onCtx (s : State N) (write : Ctx → Ctx) : State N := { s with ctx := write s.ctx }

def fill_payload (seq : UInt16) : Ping N Unit := do
  let now ← clock_gettime .fill_payload
  Prog.modify fun s => s.onCtx (write_payload host seq now)

def send_one (site : SendSite) (seq : UInt16) : Ping N Int := do
  entered (.send_one site seq)
  Prog.modify fun s => s.onCtx (write_header host seq)
  fill_payload host seq
  Prog.modify fun s => s.onCtx (write_checksum host)
  let s ← Prog.get
  match ← sendto s.ctx.pkt.bytes s.ctx.dst with
  | some _ => do
      print (.perror "Send")
      pure (-1)
  | none => do
      count_sent
      if s.ctx.flags.flood ∧ ¬ s.ctx.flags.quiet then do
        print .flood_send
        pure 0
      else pure 0

end FtPing
