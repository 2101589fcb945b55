import FtPing.Cli.ParseArgs
import FtPing.Core.Loop
import FtPing.Flow.Display
import FtPing.Output.Bracket
import FtPing.Process.Libc

namespace FtPing.Process

open Bytes CLib Interaction

-- What a run of main() depends on: the byte order of the machine and the getopt() of its C
-- library, who the process is, and its arguments.
structure Invocation where
  host : Endian
  permutes : Bool
  euid : Nat
  pid : Nat
  ac : Nat
  av : Argv

variable {N : Type}

def perror (what : String) : Main N Unit := call (.complain (.perror what))

def resolve_host (host : CString) : Main N (Option (List UInt8)) := do
  match ← call (.getaddrinfo host) with
  | .error rc =>
      call (.complain (.unresolved host rc))
      pure none
  | .ok (res, addr) =>
      call (.freeaddrinfo res)
      pure (some addr)

-- parse_info() prints what it has to say before it returns or exits.
def refuse : Refusal → Main N Unit
  | .rejected message => call (.complain (.message message))
  | .hinted message => do
      call (.complain (.message message))
      call (.complain .hint)
  | .usage => call (.printf print_usage)

def setPtrs (ptrs : Pointers) : Main N Unit :=
  Prog.modify fun t => { t with ledger := { t.ledger with ptrs := ptrs } }

def setCtx (ctx : Ctx) : Main N Unit :=
  Prog.modify fun t => { t with run := { t.run with ctx := ctx } }

-- The contents that malloc() has left in pkt and recvbuf.
def ctx_alloc_buffers (payload_len recvbuf_len : Nat) :
    Main N (Option (Buffer (IcmpHdr.size + payload_len) × Buffer recvbuf_len)) := do
  let pkt ← call (.malloc (IcmpHdr.size + payload_len))
  let send_ts ← call (.calloc PING_TS_RING Timespec.size)
  let recvbuf ← call (.malloc recvbuf_len)
  setPtrs ⟨pkt.map Prod.fst, send_ts, recvbuf.map Prod.fst⟩
  match pkt, send_ts, recvbuf with
  | some (_, pkt), some _, some (_, recvbuf) => pure (some (pkt, recvbuf))
  | _, _, _ =>
      perror "malloc"
      pure none

def ctx_destroy : Main N Unit := do
  let t ← Prog.get
  call (.free t.ledger.ptrs.pkt)
  call (.free t.ledger.ptrs.send_ts)
  call (.free t.ledger.ptrs.recvbuf)
  setPtrs .null

-- How ctx_init() comes back, if it does: for the help text the process exits inside of it.
inductive Init
  | ready
  | failed
  | exited

-- The context that ctx_init() has built of its parts.
def built (host : Endian) (pid : Nat) (flags : Flags) (dst : List UInt8)
    (pkt : Buffer (IcmpHdr.size + (ctx_size_buffers flags).1))
    (recvbuf : Buffer (ctx_size_buffers flags).2) : Ctx where
  flags := flags
  dst := dst
  id := htons host (UInt16.ofNat pid)
  payload_len := (ctx_size_buffers flags).1
  pkt := pkt
  send_ts _ := ⟨0, 0⟩
  recvbuf_len := (ctx_size_buffers flags).2
  recvbuf := recvbuf

def ctx_init (m : Invocation) : Main N Init := do
  setPtrs .null
  match parse_info m.permutes m.euid m.ac m.av Flags.zero with
  | .error refusal =>
      refuse refusal
      pure (if refusal = .usage then .exited else .failed)
  | .ok flags =>
      match ← resolve_host flags.name with
      | none => pure .failed
      | some dst =>
          match ← ctx_alloc_buffers (ctx_size_buffers flags).1 (ctx_size_buffers flags).2 with
          | none =>
              ctx_destroy
              pure .failed
          | some (pkt, recvbuf) =>
              setCtx (built m.host m.pid flags dst pkt recvbuf)
              pure .ready

-- An option of the socket, where it was asked for.
def set_if (asked : Bool) (sockfd : Nat) (option : SockOpt) (value : Int) (what : String) :
    Main N Int := do
  if asked then
    match ← call (.setsockopt sockfd option value) with
    | some _ =>
        perror what
        pure (-1)
    | none => pure 0
  else pure 0

def bind_source (sockfd : Nat) (f : Flags) : Main N Int := do
  if f.has_source_addr then
    match ← resolve_host (f.source_addr.getD []) with
    | none => pure (-1)
    | some src =>
        match ← call (.bind sockfd src) with
        | some _ =>
            perror "bind"
            pure (-1)
        | none => pure 0
  else pure 0

def configure_socket (sockfd : Nat) (f : Flags) : Main N Int := do
  let rc ← set_if f.has_ttl sockfd .IP_TTL f.ttl "setsockopt IP_TTL"
  if rc = -1 then pure (-1)
  else
    let rc ← set_if f.has_multicast_ttl sockfd .IP_MULTICAST_TTL f.multicast_ttl
      "setsockopt IP_MULTICAST_TTL"
    if rc = -1 then pure (-1)
    else
      let rc ← set_if f.bypass_routing sockfd .SO_DONTROUTE 1 "setsockopt SO_DONTROUTE"
      if rc = -1 then pure (-1)
      else bind_source sockfd f

def socket_open (flags : Flags) : Main N (Option Nat) := do
  match ← call .socket with
  | .error _ =>
      perror "socket"
      pure none
  | .ok sockfd =>
      let rc ← configure_socket sockfd flags
      if rc = -1 then
        call (.close sockfd)
        pure none
      else pure (some sockfd)

def signal_install : Main N Int := do
  match ← call .sigaction with
  | some _ =>
      perror "sigaction"
      pure (-1)
  | none => pure 0

-- What main() does once everything is set up.
def session (host : Endian) (sockfd : Nat) : Main N Int := do
  inside (ping_run host)
  let t ← Prog.get
  call (.printf (print_stats_text t.run.ctx.flags.name t.run.stats))
  call (.close sockfd)
  ctx_destroy
  pure (exit_status t.run.stats)

def main (m : Invocation) : Main N Int := do
  match ← ctx_init m with
  | .exited => pure EXIT_SUCCESS
  | .failed => pure EXIT_FAILURE
  | .ready =>
      let t ← Prog.get
      call (.printf (print_ping_banner m.host t.run.ctx))
      match ← socket_open t.run.ctx.flags with
      | none =>
          ctx_destroy
          pure EXIT_FAILURE
      | some sockfd =>
          let rc ← signal_install
          if rc = -1 then
            call (.close sockfd)
            ctx_destroy
            pure EXIT_FAILURE
          else session m.host sockfd

end FtPing.Process
