import FtPing.Cli.ParseLong
import FtPing.Core.Context
import FtPing.Interaction.Embedding
import FtPing.Output.PrintPacket
import FtPing.Output.PrintUsage

namespace FtPing

open Bytes CLib Interaction

-- The options of setsockopt() that the program sets.
inductive SockOpt
  | IP_TTL
  | IP_MULTICAST_TTL
  | SO_DONTROUTE
  deriving DecidableEq

-- What getaddrinfo() returns other than 0. EAI_SYSTEM leaves the reason in errno.
inductive Gai
  | EAI_SYSTEM (errno : Errno)
  | code (rc : Int)
  deriving DecidableEq

-- What the program writes to stderr, with the arguments of the call.
inductive Complaint
  | message (text : String)
  | hint
  | unresolved (host : CString) (rc : Gai)
  | perror (what : String)
  | line (line : Line)
  deriving DecidableEq

-- The calls of the program outside of ping_run().
inductive Libc
  | getaddrinfo (host : CString)
  | freeaddrinfo (res : Nat)
  | malloc (size : Nat)
  | calloc (count size : Nat)
  | free (ptr : Option Nat)
  | socket
  | setsockopt (sockfd : Nat) (option : SockOpt) (value : Int)
  | bind (sockfd : Nat) (src : List UInt8)
  | sigaction
  | close (sockfd : Nat)
  | printf (text : CString)
  | complain (complaint : Complaint)

-- A list of addresses is known by its head, and by the address that stands first in it.
@[reducible] def LibcAns : Libc → Type
  | .getaddrinfo _ => Except Gai (Nat × List UInt8)
  | .freeaddrinfo _ => Unit
  | .malloc size => Option (Nat × Buffer size)
  | .calloc _ _ => Option Nat
  | .free _ => Unit
  | .socket => Except Errno Nat
  | .setsockopt _ _ _ => Option Errno
  | .bind _ _ => Option Errno
  | .sigaction => Option Errno
  | .close _ => Unit
  | .printf _ => Unit
  | .complain _ => Unit

-- What has been done about addresses, the socket and SIGINT, where it has succeeded.
inductive Deed
  | resolved (host : CString) (addr : List UInt8)
  | opened (sockfd : Nat)
  | set (sockfd : Nat) (option : SockOpt) (value : Int)
  | bound (sockfd : Nat) (src : List UInt8)
  | handled
  deriving DecidableEq

-- ctx->pkt, ctx->send_ts and ctx->recvbuf
structure Pointers where
  pkt : Option Nat
  send_ts : Option Nat
  recvbuf : Option Nat
  deriving DecidableEq

def Pointers.null : Pointers := ⟨none, none, none⟩

-- The blocks that the context points to, the latest first.
def Pointers.blocks (p : Pointers) : List Nat :=
  (p.recvbuf.toList ++ p.send_ts.toList) ++ p.pkt.toList

-- What the process holds and has done: the pointers of the context to its buffers, the blocks
-- and address lists that are allocated, the descriptors that are open, and what has been
-- written to stdout and to stderr.
structure Ledger where
  ptrs : Pointers
  heap : List Nat
  lists : List Nat
  fds : List Nat
  deeds : List Deed
  stdout : CString
  stderr : List Complaint

namespace Ledger

def empty : Ledger := ⟨.null, [], [], [], [], [], []⟩

-- A new block, list or descriptor is one that is not in use.
def possible (k : Ledger) : (e : Libc) → LibcAns e → Prop
  | .getaddrinfo _, .ok (res, addr) => res ∉ k.lists ∧ addr.length = 4
  | .malloc _, some (ptr, _) => ptr ∉ k.heap
  | .calloc _ _, some ptr => ptr ∉ k.heap
  | .socket, .ok sockfd => sockfd ∉ k.fds
  | _, _ => True

def after (k : Ledger) : (e : Libc) → LibcAns e → Ledger
  | .getaddrinfo host, .ok (res, addr) =>
      { k with lists := res :: k.lists, deeds := k.deeds ++ [.resolved host addr] }
  | .freeaddrinfo res, _ => { k with lists := k.lists.erase res }
  | .malloc _, some (ptr, _) => { k with heap := ptr :: k.heap }
  | .calloc _ _, some ptr => { k with heap := ptr :: k.heap }
  | .free (some ptr), _ => { k with heap := k.heap.erase ptr }
  | .socket, .ok sockfd =>
      { k with fds := sockfd :: k.fds, deeds := k.deeds ++ [.opened sockfd] }
  | .setsockopt sockfd option value, none =>
      { k with deeds := k.deeds ++ [.set sockfd option value] }
  | .bind sockfd src, none => { k with deeds := k.deeds ++ [.bound sockfd src] }
  | .sigaction, none => { k with deeds := k.deeds ++ [.handled] }
  | .close sockfd, _ => { k with fds := k.fds.erase sockfd }
  | .printf text, _ => { k with stdout := k.stdout ++ text }
  | .complain complaint, _ => { k with stderr := k.stderr ++ [complaint] }
  | _, _ => k

-- Two of the lines that ping_run() prints go to stderr.
def complaints : Line → List Complaint
  | .checksum_mismatch src => [.line (.checksum_mismatch src)]
  | .perror what => [.line (.perror what)]
  | _ => []

def echo (k : Ledger) : Sys → Ledger
  | .print line => { k with stdout := k.stdout ++ line.text, stderr := k.stderr ++ complaints line }
  | _ => k

end Ledger

-- The process: what ping_run() works on, and the rest.
structure Process (N : Type) where
  run : State N
  ledger : Ledger

namespace Process

variable {N : Type}

-- Nothing is allocated yet, and the context holds nothing of meaning.
def start (n : N) : Process N :=
  ⟨.initial (ctx_alloc_buffers Flags.zero [] 0) n, .empty⟩

def view : View (Process N) (State N) where
  get t := t.run
  put s t := { t with run := s }
  get_put _ _ := rfl

section World

variable (net : Network N) (monotone : Prop)

-- What happens to the state of ping_run() by itself. Before it is handled SIGINT does not set
-- the stop flag; it ends the process, and the run goes no further.
structure Idle (deeds : List Deed) (s r : State N) : Prop where
  rely : FtPing.Rely net monotone s r
  sigint : r.stop = true → s.stop = true ∨ Deed.handled ∈ deeds

inductive Rely : Process N → Process N → Prop
  | intro (t : Process N) (r : State N) (h : Idle net monotone t.ledger.deeds t.run r) :
      Rely t { t with run := r }

inductive Perform : (e : Libc ⊕ Sys) → Process N → Either LibcAns Ans e → Process N → Prop
  | libc (e : Libc) (t : Process N) (a : LibcAns e) (h : t.ledger.possible e a) :
      Perform (.inl e) t a { t with ledger := t.ledger.after e a }
  | ping (e : Sys) (t : Process N) (a : Ans e) (s : State N)
      (h : FtPing.Perform net e t.run a s) :
      Perform (.inr e) t a ⟨s, t.ledger.echo e⟩

variable {net monotone} in
theorem Idle.trans {deeds : List Deed} {s r u : State N} (h : Idle net monotone deeds s r)
    (h' : Idle net monotone deeds r u) : Idle net monotone deeds s u :=
  ⟨.trans net monotone s r u h.rely h'.rely, fun hu => (h'.sigint hu).elim h.sigint Or.inr⟩

def world : World (Process N) (Libc ⊕ Sys) (Either LibcAns Ans) where
  rely := Rely net monotone
  sys := Perform net
  rely_refl t := .intro t t.run ⟨.refl net monotone t.run, Or.inl⟩
  rely_trans t u v h h' := by
    cases h with
    | intro r hr =>
        cases h' with
        | intro r' hr' => exact .intro t r' (hr.trans hr')

-- ping_run() lives in it as in its own world.
theorem extends_world :
    Extends (view (N := N)) (FtPing.world net monotone) (world net monotone) where
  rely t u h := by
    cases h with
    | intro r hr => exact hr.rely
  sys e t a u h := by
    cases h with
    | ping _ _ _ s hs => exact hs

end World

end Process

-- Programs of the whole process.
abbrev Main (N : Type) := Prog (Process N) (Libc ⊕ Sys) (Either LibcAns Ans)

namespace Process

variable {N : Type}

def call (e : Libc) : Main N (LibcAns e) := .call (.inl e) .ret

-- A program that ping_run() consists of, as a part of the process.
def inside {α : Type} (p : Ping N α) : Main N α := p.embed view

end Process

end FtPing
