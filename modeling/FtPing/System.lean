import FtPing.Interaction.Safety
import FtPing.Utils.Time

namespace FtPing

open Bytes Interaction

inductive Errno
  | EAGAIN
  | EWOULDBLOCK
  | EINTR
  | other (code : Nat)
  deriving DecidableEq

inductive PollResult
  | readable
  | timedOut
  | failed (errno : Errno)
  deriving DecidableEq

-- The lines and characters of the output functions, with the arguments they are called with.
-- An address stands for the text that inet_ntop() makes of it.
inductive Line
  | reply (icmp_bytes : Nat) (src : List UInt8) (seq : UInt16) (ttl : UInt8) (rtt : ℚ)
  | icmp_error (src : List UInt8) (seq : UInt16) (type code : UInt8)
  | flood_send
  | flood_recv
  | checksum_mismatch (src : List UInt8)
  | perror (what : String)
  deriving DecidableEq

-- Where a clock reading is taken, and which function calls send_one(). The names tell the
-- entries of the log apart; the program does not see them.
inductive ClockSite
  | sched_init
  | fill_payload
  | ping_run
  | loop_once
  | send_if_due
  | send_if_due_sent
  | send_per_reply
  | send_per_reply_sent
  | record_rtt
  deriving DecidableEq

inductive SendSite
  | send_preload
  | ping_run
  | send_if_due
  | send_per_reply
  deriving DecidableEq

-- The entry of a function, with the arguments it is called with.
inductive Entered
  | send_one (site : SendSite) (seq : UInt16)
  | report_reply (icmp_bytes : Nat) (seq : UInt16) (rtt : ℚ)
  deriving DecidableEq

-- What the program does that its surroundings take part in or that the log keeps: system
-- calls, the stop flag of the signal module, accesses to the receive buffer, output, and the
-- updates of the counters. `entered` marks the entry of a function and does nothing.
inductive Sys
  | clock_gettime (site : ClockSite)
  | sendto (buf : List UInt8) (dst : List UInt8)
  | recvfrom (len : Nat)
  | poll (timeout : Int)
  | ping_should_stop
  | ping_request_stop
  | load (offset length : Nat)
  | store (offset : Nat) (bytes : List UInt8)
  | print (line : Line)
  | entered (what : Entered)
  | count_sent
  | count_reply (rtt : ℚ)

@[reducible] def Ans : Sys → Type
  | .clock_gettime _ => Timespec
  | .sendto _ _ => Option Errno
  | .recvfrom _ => Except Errno Nat
  | .poll _ => PollResult
  | .ping_should_stop => Bool
  | .ping_request_stop => Unit
  | .load _ _ => List UInt8
  | .store _ _ => Unit
  | .print _ => Unit
  | .entered _ => Unit
  | .count_sent => Unit
  | .count_reply _ => Unit

inductive Event
  | clock (site : ClockSite)
  | sent (buf : List UInt8)
  | sendFailed (buf : List UInt8)
  | received (datagram : List UInt8)
  | receiveFailed (errno : Errno)
  | polled (timeout : Int) (result : PollResult)
  | stopTested
  | stopRequested
  | printed (line : Line)
  | entered (what : Entered)
  | countedSent
  | countedReply (rtt : ℚ)
  deriving DecidableEq

-- An event with the clock and the stop flag at that moment.
structure Entry where
  now : Nat
  stop : Bool
  event : Event
  deriving DecidableEq

-- The program's memory, the clock in nanoseconds, the stop flag, the network, and the history
-- of the run with its latest entry first.
structure State (N : Type) where
  ctx : Ctx
  sched : Sched
  stats : Stats
  now : Nat
  stop : Bool
  net : N
  log : List Entry

-- A network says how it changes by itself, what sending a datagram does to it, and which
-- datagrams it may deliver.
structure Network (N : Type) where
  evolve : N → N → Prop
  transmit : N → List UInt8 → N → Prop
  deliver : N → List UInt8 → N → Prop

-- The network that anything may come from at any time.
def Network.free : Network Unit where
  evolve _ _ := True
  transmit _ _ _ := True
  deliver _ _ _ := True

namespace State

variable {N : Type}

def record (s : State N) (event : Event) : State N :=
  { s with log := ⟨s.now, s.stop, event⟩ :: s.log }

def withRecvbuf (s : State N) (recvbuf : Buffer s.ctx.recvbuf_len) : State N :=
  { s with ctx := { s.ctx with recvbuf := recvbuf } }

-- The moment of a call, with the history beginning here.
def fresh (s : State N) : State N := { s with log := [] }

-- recvfrom() copies what fits of the datagram and discards the rest.
def receive (s : State N) (len : Nat) (datagram : List UInt8) : State N :=
  s.withRecvbuf (s.ctx.recvbuf.store 0 (datagram.take len))

end State

def fold_rtt (stats : Stats) (rtt : ℚ) : Stats :=
  let n_recv := stats.n_recv + 1
  { stats with
    n_recv := n_recv
    sum := stats.sum + rtt
    sum_sq := stats.sum_sq + rtt * rtt
    rtt_min := if n_recv = 1 ∨ rtt < stats.rtt_min then rtt else stats.rtt_min
    rtt_max := if n_recv = 1 ∨ stats.rtt_max < rtt then rtt else stats.rtt_max }

section World

variable {N : Type} (net : Network N)

inductive Perform : (e : Sys) → State N → Ans e → State N → Prop
  | clock_gettime (site : ClockSite) (s : State N) :
      Perform (Sys.clock_gettime site) s (timespec s.now) (s.record (.clock site))
  | sent (buf dst : List UInt8) (s : State N) (n : N) (h : net.transmit s.net buf n) :
      Perform (Sys.sendto buf dst) s none { s.record (.sent buf) with net := n }
  | sendFailed (buf dst : List UInt8) (s : State N) (errno : Errno) :
      Perform (Sys.sendto buf dst) s (some errno) (s.record (.sendFailed buf))
  | received (len : Nat) (s : State N) (datagram : List UInt8) (n : N)
      (h : net.deliver s.net datagram n) :
      Perform (Sys.recvfrom len) s (.ok (min datagram.length len))
        { (s.receive len datagram).record (.received datagram) with net := n }
  | receiveFailed (len : Nat) (s : State N) (errno : Errno) :
      Perform (Sys.recvfrom len) s (.error errno) (s.record (.receiveFailed errno))
  | poll (timeout : Int) (s : State N) (result : PollResult) :
      Perform (Sys.poll timeout) s result (s.record (.polled timeout result))
  | ping_should_stop (s : State N) :
      Perform Sys.ping_should_stop s s.stop (s.record .stopTested)
  | ping_request_stop (s : State N) :
      Perform Sys.ping_request_stop s () { s.record .stopRequested with stop := true }
  | load (offset length : Nat) (s : State N) :
      Perform (Sys.load offset length) s (s.ctx.recvbuf.load offset length) s
  | store (offset : Nat) (bytes : List UInt8) (s : State N) :
      Perform (Sys.store offset bytes) s () (s.withRecvbuf (s.ctx.recvbuf.store offset bytes))
  | print (line : Line) (s : State N) : Perform (Sys.print line) s () (s.record (.printed line))
  | entered (what : Entered) (s : State N) :
      Perform (Sys.entered what) s () (s.record (.entered what))
  | count_sent (s : State N) :
      Perform Sys.count_sent s ()
        { s.record .countedSent with stats := { s.stats with n_sent := s.stats.n_sent + 1 } }
  | count_reply (rtt : ℚ) (s : State N) :
      Perform (Sys.count_reply rtt) s ()
        { s.record (.countedReply rtt) with stats := fold_rtt s.stats rtt }

-- Between two steps of the program time passes, SIGINT may set the stop flag, and the network
-- goes on. `monotone` says whether the clock is known not to go back.
inductive Rely (monotone : Prop) : State N → State N → Prop
  | intro (s : State N) (now : Nat) (stop : Bool) (n : N) (hnow : monotone → s.now ≤ now)
      (hstop : s.stop = true → stop = true) (hnet : Relation.ReflTransGen net.evolve s.net n) :
      Rely monotone s { s with now := now, stop := stop, net := n }

theorem Rely.refl (monotone : Prop) (s : State N) : Rely net monotone s s :=
  .intro s s.now s.stop s.net (fun _ => Nat.le_refl _) id .refl

theorem Rely.trans (monotone : Prop) (s t u : State N) (h : Rely net monotone s t)
    (h' : Rely net monotone t u) : Rely net monotone s u := by
  cases h with
  | intro now stop n hnow hstop hnet =>
      cases h' with
      | intro now' stop' n' hnow' hstop' hnet' =>
          exact .intro s now' stop' n' (fun hm => (hnow hm).trans (hnow' hm))
            (fun hs => hstop' (hstop hs)) (hnet.trans hnet')

def world (monotone : Prop) : World (State N) Sys Ans where
  rely := Rely net monotone
  sys := Perform net
  rely_refl := Rely.refl net monotone
  rely_trans := Rely.trans net monotone

end World

-- Programs over the state, and one function for each call they make.
abbrev Ping (N : Type) := Prog (State N) Sys Ans

section Calls

variable {N : Type}

def clock_gettime (site : ClockSite) : Ping N Timespec := .perform (Sys.clock_gettime site)

def sendto (buf dst : List UInt8) : Ping N (Option Errno) := .perform (Sys.sendto buf dst)

def recvfrom (len : Nat) : Ping N (Except Errno Nat) := .perform (Sys.recvfrom len)

def poll (timeout : Int) : Ping N PollResult := .perform (Sys.poll timeout)

def ping_should_stop : Ping N Bool := .perform Sys.ping_should_stop

def ping_request_stop : Ping N Unit := .perform Sys.ping_request_stop

def load (offset length : Nat) : Ping N (List UInt8) := .perform (Sys.load offset length)

def store (offset : Nat) (bytes : List UInt8) : Ping N Unit := .perform (Sys.store offset bytes)

def print (line : Line) : Ping N Unit := .perform (Sys.print line)

def entered (what : Entered) : Ping N Unit := .perform (Sys.entered what)

def count_sent : Ping N Unit := .perform Sys.count_sent

def count_reply (rtt : ℚ) : Ping N Unit := .perform (Sys.count_reply rtt)

-- Reads and writes of integers in the receive buffer.
def load_uint8 (offset : Nat) : Ping N UInt8 := do
  let bytes ← load offset 1
  pure (bytes.getD 0 0)

def load_uint16 (host : Endian) (offset : Nat) : Ping N UInt16 := do
  let bytes ← load offset 2
  pure (load16 host (bytes.getD 0 0) (bytes.getD 1 0))

def store_uint16 (host : Endian) (offset : Nat) (word : UInt16) : Ping N Unit :=
  store offset (store16 host word)

end Calls

end FtPing
