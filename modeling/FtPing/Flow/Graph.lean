import FtPing.Core.Loop
import FtPing.Net.Judgement

namespace FtPing.Flow

open Bytes Numeric

-- The control flow of ping_run() as a graph. Its points are the places where the program is
-- about to make a call or to change its memory, with the local variables that are live there.

-- The calls of send_one() after which last_send is set, and all of them.
inductive Paced
  | ping_run
  | send_if_due
  | send_per_reply (replies : Int)

inductive Caller
  | send_preload (i : Int)
  | paced (p : Paced)

inductive Point
  | start
  | setup
  | limiting (now : Nat)
  | preload (i : Int)
  | first
  | calling (c : Caller)
  | called (c : Caller) (seq : UInt16)
  | opened (c : Caller) (seq : UInt16)
  | headed (c : Caller) (seq : UInt16)
  | filling (c : Caller) (seq : UInt16) (now : Nat)
  | filled (c : Caller) (seq : UInt16)
  | sealed (c : Caller)
  | ready (c : Caller) (buf : List UInt8)
  | accepted (c : Caller)
  | counted (c : Caller)
  | sent (c : Caller)
  | refused (c : Caller)
  | failed (c : Caller)
  | stamping (p : Paced)
  | stamped (p : Paced) (now : Nat)
  | head
  | waking
  | woken (now : Nat)
  | waiting (timeout : Int)
  | pollFailed
  | readable
  | draining (before : Int)
  | judging (before : Int) (d : Datagram)
  | timing (before : Int) (d : Datagram) (now : Nat)
  | recorded (before : Int) (d : Datagram) (rtt : ℚ)
  | reporting (before : Int) (d : Datagram) (rtt : ℚ)
  | recvFailed
  | drained (before : Int)
  | burst (replies : Int)
  | bursting (replies : Int)
  | burstTimed (replies : Int) (now : Nat)
  | due
  | dueTimed (now : Nat)
  | finished

def Paced.site : Paced → SendSite
  | .ping_run => .ping_run
  | .send_if_due => .send_if_due
  | .send_per_reply _ => .send_per_reply

def Caller.site : Caller → SendSite
  | .send_preload _ => .send_preload
  | .paced p => p.site

def Paced.stampSite : Paced → ClockSite
  | .ping_run => .ping_run
  | .send_if_due => .send_if_due_sent
  | .send_per_reply _ => .send_per_reply_sent

-- Where the program goes on once last_send is set.
def Paced.next : Paced → Point
  | .ping_run => .head
  | .send_if_due => .head
  | .send_per_reply replies => .burst (replies - 1)

variable {N : Type} (host : Endian) (net : Network N) (monotone : Prop)

def late (now : Nat) (s : State N) : Bool := (now_ms (timespec now)).ge s.sched.deadline

def early (now : Nat) (s : State N) : Bool :=
  (now_ms (timespec now)).lt (s.sched.last_send.add s.sched.interval)

def pollTimeout (now : Nat) (s : State N) : Int :=
  ms_until (Double.fmin (s.sched.last_send.add s.sched.interval) s.sched.deadline)
    (now_ms (timespec now))

def rtt (s : State N) (d : Datagram) (now : Nat) : ℚ :=
  elapsed_ms (s.ctx.send_ts (slot (d.sequence host))) (timespec now)

inductive Edge : Point → State N → Point → State N → Prop
  | env (p : Point) (s t : State N) (h : Rely net monotone s t) : Edge p s p t
  -- The receive buffer may change anywhere; what it holds is never needed.
  | scratch (p : Point) (s : State N) (buf : Buffer s.ctx.recvbuf_len) :
      Edge p s p (s.withRecvbuf buf)
  -- ping_run() and sched_init()
  | zero (s : State N) : Edge .start s .setup { s with stats := Stats.zero }
  | read_limit (s : State N) (h : s.ctx.flags.has_timeout = true) :
      Edge .setup s (.limiting s.now) (s.record (.clock .sched_init))
  | limited (now : Nat) (s : State N) :
      Edge (.limiting now) s (.preload 0)
        (s.setSched ⟨pace s.ctx.flags, limit s.ctx.flags (timespec now), .finite 0, 0⟩)
  | unlimited (s : State N) (h : s.ctx.flags.has_timeout = false) :
      Edge .setup s (.preload 0) (s.setSched ⟨pace s.ctx.flags, .posInf, .finite 0, 0⟩)
  -- send_preload() and send_first()
  | preload_go (i : Int) (s : State N) (h : i < s.ctx.flags.preload) (hgo : s.stop = false) :
      Edge (.preload i) s (.calling (.send_preload i)) (s.record .stopTested)
  | preload_stop (i : Int) (s : State N) (hstop : s.stop = true) :
      Edge (.preload i) s .first (s.record .stopTested)
  | preload_done (i : Int) (s : State N) (h : ¬ i < s.ctx.flags.preload) :
      Edge (.preload i) s .first s
  | first_go (s : State N) (hgo : s.stop = false) :
      Edge .first s (.calling (.paced .ping_run)) (s.record .stopTested)
  | first_stop (s : State N) (hstop : s.stop = true) :
      Edge .first s (.stamping .ping_run) (s.record .stopTested)
  -- send_one()
  | take_seq (c : Caller) (s : State N) :
      Edge (.calling c) s (.called c s.sched.seq)
        (s.setSched { s.sched with seq := s.sched.seq + 1 })
  | enter (c : Caller) (seq : UInt16) (s : State N) :
      Edge (.called c seq) s (.opened c seq) (s.record (.entered (.send_one c.site seq)))
  | header (c : Caller) (seq : UInt16) (s : State N) :
      Edge (.opened c seq) s (.headed c seq) (s.onCtx (write_header host seq))
  | read_sent (c : Caller) (seq : UInt16) (s : State N) :
      Edge (.headed c seq) s (.filling c seq s.now) (s.record (.clock .fill_payload))
  | payload (c : Caller) (seq : UInt16) (now : Nat) (s : State N) :
      Edge (.filling c seq now) s (.filled c seq) (s.onCtx (write_payload host seq (timespec now)))
  | checksum (c : Caller) (seq : UInt16) (s : State N) :
      Edge (.filled c seq) s (.sealed c) (s.onCtx (write_checksum host))
  | pass (c : Caller) (s : State N) : Edge (.sealed c) s (.ready c s.ctx.pkt.bytes) s
  | transmit (c : Caller) (buf : List UInt8) (s : State N) (n : N)
      (h : net.transmit s.net buf n) :
      Edge (.ready c buf) s (.accepted c) { s.record (.sent buf) with net := n }
  | refuse (c : Caller) (buf : List UInt8) (s : State N) :
      Edge (.ready c buf) s (.refused c) (s.record (.sendFailed buf))
  | complain_send (c : Caller) (s : State N) :
      Edge (.refused c) s (.failed c) (s.record (.printed (.perror "Send")))
  | count_sent (c : Caller) (s : State N) :
      Edge (.accepted c) s (.counted c)
        { s.record .countedSent with stats := { s.stats with n_sent := s.stats.n_sent + 1 } }
  | dot (c : Caller) (s : State N) (h : s.ctx.flags.flood ∧ ¬ s.ctx.flags.quiet) :
      Edge (.counted c) s (.sent c) (s.record (.printed .flood_send))
  | no_dot (c : Caller) (s : State N) (h : ¬ (s.ctx.flags.flood ∧ ¬ s.ctx.flags.quiet)) :
      Edge (.counted c) s (.sent c) s
  -- What the callers of send_one() do next
  | preload_sent (i : Int) (s : State N) :
      Edge (.sent (.send_preload i)) s (.preload (i + 1)) s
  | paced_sent (p : Paced) (s : State N) : Edge (.sent (.paced p)) s (.stamping p) s
  | preload_failed (i : Int) (s : State N) :
      Edge (.failed (.send_preload i)) s (.preload (i + 1))
        { s.record .stopRequested with stop := true }
  | first_failed (s : State N) :
      Edge (.failed (.paced .ping_run)) s (.stamping .ping_run)
        { s.record .stopRequested with stop := true }
  | due_failed (s : State N) : Edge (.failed (.paced .send_if_due)) s .finished s
  | burst_failed (replies : Int) (s : State N) :
      Edge (.failed (.paced (.send_per_reply replies))) s .finished s
  | read_stamp (p : Paced) (s : State N) :
      Edge (.stamping p) s (.stamped p s.now) (s.record (.clock p.stampSite))
  | stamp (p : Paced) (now : Nat) (s : State N) :
      Edge (.stamped p now) s p.next (s.stamp (timespec now))
  -- The loop and loop_once()
  | head_go (s : State N) (hgo : s.stop = false) : Edge .head s .waking (s.record .stopTested)
  | head_stop (s : State N) (hstop : s.stop = true) :
      Edge .head s .finished (s.record .stopTested)
  | read_wake (s : State N) : Edge .waking s (.woken s.now) (s.record (.clock .loop_once))
  | wake_late (now : Nat) (s : State N) (h : late now s = true) : Edge (.woken now) s .finished s
  | wait (now : Nat) (s : State N) (h : late now s = false) :
      Edge (.woken now) s (.waiting (pollTimeout now s)) s
  | poll_readable (timeout : Int) (s : State N) :
      Edge (.waiting timeout) s .readable (s.record (.polled timeout .readable))
  | poll_timedOut (timeout : Int) (s : State N) :
      Edge (.waiting timeout) s .due (s.record (.polled timeout .timedOut))
  | poll_interrupted (timeout : Int) (s : State N) :
      Edge (.waiting timeout) s .head (s.record (.polled timeout (.failed .EINTR)))
  | poll_failed (timeout : Int) (errno : Errno) (s : State N) (h : errno ≠ .EINTR) :
      Edge (.waiting timeout) s .pollFailed (s.record (.polled timeout (.failed errno)))
  | complain_poll (s : State N) :
      Edge .pollFailed s .finished (s.record (.printed (.perror "poll")))
  -- ping_receive()
  | drain (s : State N) : Edge .readable s (.draining s.stats.n_recv) s
  | receive (before : Int) (d : Datagram) (s : State N) (n : N) (h : net.deliver s.net d n) :
      Edge (.draining before) s (.judging before (d.take s.ctx.recvbuf_len))
        { (s.receive s.ctx.recvbuf_len d).record (.received d) with net := n }
  | recv_dry (before : Int) (errno : Errno) (s : State N) (h : FtPing.drained errno = true) :
      Edge (.draining before) s (.drained before) (s.record (.receiveFailed errno))
  | recv_failed (before : Int) (errno : Errno) (s : State N) (h : FtPing.drained errno = false) :
      Edge (.draining before) s .recvFailed (s.record (.receiveFailed errno))
  | complain_recv (s : State N) :
      Edge .recvFailed s .finished (s.record (.printed (.perror "recvfrom")))
  | ignore (before : Int) (d : Datagram) (s : State N)
      (h : verdict host s.ctx.flags s.ctx.id d = .ignored) :
      Edge (.judging before d) s (.draining before) s
  | fault (before : Int) (d : Datagram) (line : Line) (s : State N)
      (h : verdict host s.ctx.flags s.ctx.id d = .fault line) :
      Edge (.judging before d) s (.draining before) (s.record (.printed line))
  | read_receipt (before : Int) (d : Datagram) (s : State N)
      (h : is_reply host s.ctx.id d = true) :
      Edge (.judging before d) s (.timing before d s.now) (s.record (.clock .record_rtt))
  | count_reply (before : Int) (d : Datagram) (now : Nat) (s : State N) :
      Edge (.timing before d now) s (.recorded before d (rtt host s d now))
        { s.record (.countedReply (rtt host s d now)) with
          stats := fold_rtt s.stats (rtt host s d now) }
  | enter_report (before : Int) (d : Datagram) (rtt : ℚ) (s : State N) :
      Edge (.recorded before d rtt) s (.reporting before d rtt)
        (s.record (.entered (.report_reply d.message.length (d.sequence host) rtt)))
  | report (before : Int) (d : Datagram) (rtt : ℚ) (line : Line) (s : State N)
      (h : reply_line host s.ctx.flags d rtt = some line) :
      Edge (.reporting before d rtt) s (.draining before) (s.record (.printed line))
  | no_report (before : Int) (d : Datagram) (rtt : ℚ) (s : State N)
      (h : reply_line host s.ctx.flags d rtt = none) :
      Edge (.reporting before d rtt) s (.draining before) s
  -- After the drain
  | first_reply (before : Int) (s : State N)
      (h : s.ctx.flags.exit_on_reply ∧ 0 < s.stats.n_recv) : Edge (.drained before) s .finished s
  | burst_start (before : Int) (s : State N)
      (h : ¬ (s.ctx.flags.exit_on_reply ∧ 0 < s.stats.n_recv))
      (hflood : s.ctx.flags.bsd_flood = true) :
      Edge (.drained before) s (.burst (s.stats.n_recv - before)) s
  | burst_skip (before : Int) (s : State N)
      (h : ¬ (s.ctx.flags.exit_on_reply ∧ 0 < s.stats.n_recv))
      (hflood : s.ctx.flags.bsd_flood = false) : Edge (.drained before) s .due s
  -- send_per_reply() and send_if_due()
  | burst_done (replies : Int) (s : State N) (h : ¬ 0 < replies) : Edge (.burst replies) s .due s
  | burst_stop (replies : Int) (s : State N) (h : 0 < replies) (hstop : s.stop = true) :
      Edge (.burst replies) s .due (s.record .stopTested)
  | burst_go (replies : Int) (s : State N) (h : 0 < replies) (hgo : s.stop = false) :
      Edge (.burst replies) s (.bursting replies) (s.record .stopTested)
  | read_burst (replies : Int) (s : State N) :
      Edge (.bursting replies) s (.burstTimed replies s.now) (s.record (.clock .send_per_reply))
  | burst_late (replies : Int) (now : Nat) (s : State N) (h : late now s = true) :
      Edge (.burstTimed replies now) s .finished s
  | burst_call (replies : Int) (now : Nat) (s : State N) (h : late now s = false) :
      Edge (.burstTimed replies now) s (.calling (.paced (.send_per_reply replies))) s
  | read_due (s : State N) : Edge .due s (.dueTimed s.now) (s.record (.clock .send_if_due))
  | due_late (now : Nat) (s : State N) (h : late now s = true) :
      Edge (.dueTimed now) s .finished s
  | due_early (now : Nat) (s : State N) (hlate : late now s = false) (h : early now s = true) :
      Edge (.dueTimed now) s .head s
  | due_call (now : Nat) (s : State N) (hlate : late now s = false) (h : early now s = false) :
      Edge (.dueTimed now) s (.calling (.paced .send_if_due)) s

-- A walk through the graph.
inductive Path (p : Point) (s : State N) : Point → State N → Prop
  | here : Path p s p s
  | step {q r : Point} {t u : State N} (h : Path p s q t) (he : Edge host net monotone q t r u) :
      Path p s r u

variable {host net monotone}

-- What holds at the start of a walk and is kept by every edge of it holds at its end.
theorem Path.invariant {p q : Point} {s t : State N} (h : Path host net monotone p s q t)
    (inv : Point → State N → Prop) (hstart : inv p s)
    (hedge : ∀ q t r u, Path host net monotone p s q t → inv q t →
      Edge host net monotone q t r u → inv r u) : inv q t := by
  induction h with
  | here => exact hstart
  | step h he ih => exact hedge _ _ _ _ h ih he

theorem write_payload_kept (seq : UInt16) (now : Timespec) (ctx : Ctx) :
    (write_payload host seq now ctx).flags = ctx.flags ∧
      (write_payload host seq now ctx).id = ctx.id ∧
      (write_payload host seq now ctx).recvbuf_len = ctx.recvbuf_len := by
  unfold write_payload fill_default
  split_ifs <;> exact ⟨rfl, rfl, rfl⟩

-- No edge changes the options, the id or the size of the receive buffer.
theorem Edge.ctx_kept {p q : Point} {s t : State N} (he : Edge host net monotone p s q t) :
    t.ctx.flags = s.ctx.flags ∧ t.ctx.id = s.ctx.id ∧ t.ctx.recvbuf_len = s.ctx.recvbuf_len := by
  cases he with
  | env _ _ _ h =>
      cases h
      exact ⟨rfl, rfl, rfl⟩
  | payload c seq now s => exact write_payload_kept seq _ s.ctx
  | _ => exact ⟨rfl, rfl, rfl⟩

theorem Path.ctx_kept {p q : Point} {s t : State N} (h : Path host net monotone p s q t) :
    t.ctx.flags = s.ctx.flags ∧ t.ctx.id = s.ctx.id ∧ t.ctx.recvbuf_len = s.ctx.recvbuf_len := by
  induction h with
  | here => exact ⟨rfl, rfl, rfl⟩
  | step _ he ih =>
      obtain ⟨hflags, hid, hlen⟩ := he.ctx_kept
      exact ⟨hflags.trans ih.1, hid.trans ih.2.1, hlen.trans ih.2.2⟩

end FtPing.Flow
