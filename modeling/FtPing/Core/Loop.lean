import FtPing.Net.Receive
import FtPing.Net.Send

namespace FtPing

open Bytes Interaction Numeric

variable {N : Type} (host : Endian)

def pace (f : Flags) : Double :=
  let interval := .finite (1000 * PING_INTERVAL_SEC)
  let interval := if f.has_interval then f.interval.scale 1000 else interval
  if f.flood then .finite PING_FLOOD_INTERVAL_MS else interval

-- The deadline of a run with -t, from the clock reading `now`.
def limit (f : Flags) (now : Timespec) : Double :=
  (now_ms now).add (.finite (1000 * f.timeout))

def State.setSched (s : State N) (sched : Sched) : State N := { s with sched := sched }

def sched_init : Ping N Unit := do
  let s ← Prog.get
  if s.ctx.flags.has_timeout then
    let now ← clock_gettime .sched_init
    Prog.modify fun s =>
      s.setSched ⟨pace s.ctx.flags, limit s.ctx.flags now, .finite 0, 0⟩
  else
    Prog.modify fun s => s.setSched ⟨pace s.ctx.flags, .posInf, .finite 0, 0⟩

-- sched->seq++
def next_seq : Ping N UInt16 :=
  .act (fun s => (s.sched.seq, s.setSched { s.sched with seq := s.sched.seq + 1 })) .ret

-- sched->last_send = now_ms()
def State.stamp (s : State N) (now : Timespec) : State N :=
  s.setSched { s.sched with last_send := now_ms now }

def stamp_last_send (site : ClockSite) : Ping N Unit := do
  let now ← clock_gettime site
  Prog.modify fun s => s.stamp now

def send_preload : Ping N Unit :=
  Prog.iterate (fun i : Int => do
    let s ← Prog.get
    if i < s.ctx.flags.preload then
      if ← ping_should_stop then pure (.inr ())
      else
        let seq ← next_seq
        let rc ← send_one host .send_preload seq
        if rc = -1 then
          ping_request_stop
          pure (.inl (i + 1))
        else pure (.inl (i + 1))
    else pure (.inr ())) 0

def send_if_due : Ping N Int := do
  let reading ← clock_gettime .send_if_due
  let now := now_ms reading
  let s ← Prog.get
  if now.ge s.sched.deadline then pure (-1)
  else if now.lt (s.sched.last_send.add s.sched.interval) then pure 0
  else
    let seq ← next_seq
    let rc ← send_one host .send_if_due seq
    if rc = -1 then pure (-1)
    else
      stamp_last_send .send_if_due_sent
      pure 0

-- `replies` counts down to zero.
def send_per_reply (replies : Int) : Ping N Int :=
  Prog.iterate (fun replies : Int => do
    if 0 < replies then
      if ← ping_should_stop then pure (.inr 0)
      else
        let reading ← clock_gettime .send_per_reply
        let s ← Prog.get
        if (now_ms reading).ge s.sched.deadline then pure (.inr (-1))
        else
          let seq ← next_seq
          let rc ← send_one host .send_per_reply seq
          if rc = -1 then pure (.inr (-1))
          else
            stamp_last_send .send_per_reply_sent
            pure (.inl (replies - 1))
    else pure (.inr 0)) replies

-- What loop_once() does once the socket is readable.
def loop_readable : Ping N Int := do
  let s ← Prog.get
  let before := s.stats.n_recv
  let rc ← ping_receive host
  if rc = -1 then pure (-1)
  else
    let s ← Prog.get
    if s.ctx.flags.exit_on_reply ∧ 0 < s.stats.n_recv then pure (-1)
    else if s.ctx.flags.bsd_flood then
      let rc ← send_per_reply host (s.stats.n_recv - before)
      if rc = -1 then pure (-1) else send_if_due host
    else send_if_due host

def loop_once : Ping N Int := do
  let reading ← clock_gettime .loop_once
  let now := now_ms reading
  let s ← Prog.get
  if now.ge s.sched.deadline then pure (-1)
  else
    let target := Double.fmin (s.sched.last_send.add s.sched.interval) s.sched.deadline
    match ← poll (ms_until target now) with
    | .failed errno =>
        if errno = .EINTR then pure 0
        else
          print (.perror "poll")
          pure (-1)
    | .readable => loop_readable host
    | .timedOut => send_if_due host

-- The first paced packet.
def send_first : Ping N Unit := do
  if ← ping_should_stop then pure ()
  else
    let seq ← next_seq
    let rc ← send_one host .ping_run seq
    if rc = -1 then ping_request_stop else pure ()

def ping_run : Ping N Unit := do
  Prog.modify fun s => { s with stats := Stats.zero }
  sched_init
  send_preload host
  send_first host
  stamp_last_send .ping_run
  Prog.iterate (fun _ : Unit => do
    if ← ping_should_stop then pure (.inr ())
    else
      let rc ← loop_once host
      if rc = -1 then pure (.inr ()) else pure (.inl ())) ()

end FtPing
