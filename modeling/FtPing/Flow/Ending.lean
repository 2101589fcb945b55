import FtPing.Flow.Dated

namespace FtPing

open Bytes History Interaction Numeric

-- Why ping_run() has come back, as the latest entries tell.
inductive Reason (flags : Flags) (stats : Stats) : List Entry → Prop
  | stopped (now : Nat) (earlier : List Entry) :
      Reason flags stats (⟨now, true, .stopTested⟩ :: earlier)
  | expired (now : Nat) (stop : Bool) (site : ClockSite) (earlier : List Entry)
      (htimeout : flags.has_timeout = true)
      (hsite : site = .loop_once ∨ site = .send_if_due ∨ site = .send_per_reply)
      (hlate : ms (origin (⟨now, stop, .clock site⟩ :: earlier)) + 1000 * flags.timeout ≤ ms now) :
      Reason flags stats (⟨now, stop, .clock site⟩ :: earlier)
  | answered (now : Nat) (stop : Bool) (errno : Errno) (earlier : List Entry)
      (hdrained : drained errno = true) (hflag : flags.exit_on_reply = true)
      (hrecv : 0 < stats.n_recv) :
      Reason flags stats (⟨now, stop, .receiveFailed errno⟩ :: earlier)
  | sendFailed (now now' : Nat) (stop stop' : Bool) (buf : List UInt8) (earlier : List Entry) :
      Reason flags stats
        (⟨now, stop, .printed (.perror "Send")⟩ :: ⟨now', stop', .sendFailed buf⟩ :: earlier)
  | pollFailed (now now' : Nat) (stop stop' : Bool) (timeout : Int) (errno : Errno)
      (earlier : List Entry) (herrno : errno ≠ .EINTR) :
      Reason flags stats (⟨now, stop, .printed (.perror "poll")⟩ ::
        ⟨now', stop', .polled timeout (.failed errno)⟩ :: earlier)
  | recvFailed (now now' : Nat) (stop stop' : Bool) (errno : Errno) (earlier : List Entry)
      (herrno : drained errno = false) :
      Reason flags stats (⟨now, stop, .printed (.perror "recvfrom")⟩ ::
        ⟨now', stop', .receiveFailed errno⟩ :: earlier)

namespace Flow

variable {N : Type} {host : Endian} {net : Network N} {monotone : Prop} {s t u : State N}
  {p q : Point}

-- Without -t nothing is too late.
def Open : Point → State N → Prop
  | .start, _ => True
  | .setup, _ => True
  | .limiting _, _ => False
  | _, t => t.sched.deadline = .posInf

theorem Path.open (h : Path host net monotone .start s q t)
    (htimeout : s.ctx.flags.has_timeout = false) : Open q t := by
  refine h.invariant Open trivial fun p t q u hwalk ht he => ?_
  cases he with
  | env p t _ hr =>
      cases hr
      cases p <;> exact ht
  | scratch p t buf => cases p <;> exact ht
  | read_limit t hset =>
      rw [hwalk.ctx_kept.1, htimeout] at hset
      cases hset
  | limited now t => exact ht.elim
  | stamp p now t => cases p <;> exact ht
  | _ => first
      | exact ht
      | exact rfl

-- A reading that was too late was taken in time for the deadline of -t.
theorem Path.past_deadline (h : Path host net monotone .start s p t) (hlog : s.log = []) {now : Nat}
    (hopen : Open p t → t.sched.deadline = .posInf)
    (hdated : ∀ timeout, Dated timeout p t →
      t.sched.deadline = .finite (ms (origin t.log) + 1000 * timeout))
    (hlate : Flow.late now t = true) :
    s.ctx.flags.has_timeout = true ∧
      ms (origin t.log) + 1000 * s.ctx.flags.timeout ≤ ms now := by
  rw [Flow.late, now_ms_timespec] at hlate
  cases htimeout : s.ctx.flags.has_timeout with
  | false =>
      rw [hopen (h.open htimeout)] at hlate
      cases hlate
  | true =>
      rw [hdated _ (h.dated hlog htimeout), Double.ge, Double.le_finite, decide_eq_true_eq] at hlate
      exact ⟨rfl, hlate⟩

-- What the latest entries are on the ways out of the loop.
def Departing (flags : Flags) : Point → State N → Prop
  | .refused _, t => ∃ now stop buf earlier, t.log = ⟨now, stop, .sendFailed buf⟩ :: earlier
  | .failed _, t => ∃ now stop now' stop' buf earlier,
      t.log = ⟨now, stop, .printed (.perror "Send")⟩ :: ⟨now', stop', .sendFailed buf⟩ :: earlier
  | .woken now, t => ∃ stop earlier, t.log = ⟨now, stop, .clock .loop_once⟩ :: earlier
  | .dueTimed now, t => ∃ stop earlier, t.log = ⟨now, stop, .clock .send_if_due⟩ :: earlier
  | .burstTimed _ now, t => ∃ stop earlier,
      t.log = ⟨now, stop, .clock .send_per_reply⟩ :: earlier
  | .pollFailed, t => ∃ now stop timeout errno earlier, errno ≠ .EINTR ∧
      t.log = ⟨now, stop, .polled timeout (.failed errno)⟩ :: earlier
  | .recvFailed, t => ∃ now stop errno earlier, FtPing.drained errno = false ∧
      t.log = ⟨now, stop, .receiveFailed errno⟩ :: earlier
  | .drained _, t => ∃ now stop errno earlier, FtPing.drained errno = true ∧
      t.log = ⟨now, stop, .receiveFailed errno⟩ :: earlier
  | .finished, t => Reason flags t.stats t.log
  | _, _ => True

theorem Path.departing (h : Path host net monotone .start s q t) (hlog : s.log = []) :
    Departing s.ctx.flags q t := by
  refine h.invariant (Departing s.ctx.flags) trivial fun p t q u hwalk ht he => ?_
  have hflags := hwalk.ctx_kept.1
  cases he with
  | env p t _ hr =>
      cases hr
      cases p <;> exact ht
  | scratch p t buf => cases p <;> exact ht
  | stamp p now t => cases p <;> trivial
  | refuse c buf t => exact ⟨t.now, t.stop, buf, t.log, rfl⟩
  | complain_send c t =>
      obtain ⟨now, stop, buf, earlier, hhead⟩ := ht
      exact ⟨t.now, t.stop, now, stop, buf, earlier, congrArg (_ :: ·) hhead⟩
  | due_failed t =>
      obtain ⟨now, stop, now', stop', buf, earlier, hhead⟩ := ht
      change Reason _ _ t.log
      rw [hhead]
      exact .sendFailed now now' stop stop' buf earlier
  | burst_failed replies t =>
      obtain ⟨now, stop, now', stop', buf, earlier, hhead⟩ := ht
      change Reason _ _ t.log
      rw [hhead]
      exact .sendFailed now now' stop stop' buf earlier
  | head_stop t hstop =>
      change Reason _ _ (⟨t.now, t.stop, .stopTested⟩ :: t.log)
      rw [hstop]
      exact .stopped t.now t.log
  | read_wake t => exact ⟨t.stop, t.log, rfl⟩
  | read_due t => exact ⟨t.stop, t.log, rfl⟩
  | read_burst replies t => exact ⟨t.stop, t.log, rfl⟩
  | wake_late now t hlate =>
      obtain ⟨stop, earlier, hhead⟩ := ht
      obtain ⟨htimeout, hpast⟩ := hwalk.past_deadline hlog id (fun _ hdated => hdated.2) hlate
      change Reason _ _ t.log
      rw [hhead] at hpast ⊢
      exact .expired now stop _ earlier htimeout (Or.inl rfl) hpast
  | due_late now t hlate =>
      obtain ⟨stop, earlier, hhead⟩ := ht
      obtain ⟨htimeout, hpast⟩ := hwalk.past_deadline hlog id (fun _ hdated => hdated.2) hlate
      change Reason _ _ t.log
      rw [hhead] at hpast ⊢
      exact .expired now stop _ earlier htimeout (Or.inr (Or.inl rfl)) hpast
  | burst_late replies now t hlate =>
      obtain ⟨stop, earlier, hhead⟩ := ht
      obtain ⟨htimeout, hpast⟩ := hwalk.past_deadline hlog id (fun _ hdated => hdated.2) hlate
      change Reason _ _ t.log
      rw [hhead] at hpast ⊢
      exact .expired now stop _ earlier htimeout (Or.inr (Or.inr rfl)) hpast
  | poll_failed timeout errno t herrno => exact ⟨t.now, t.stop, timeout, errno, t.log, herrno, rfl⟩
  | complain_poll t =>
      obtain ⟨now, stop, timeout, errno, earlier, herrno, hhead⟩ := ht
      change Reason _ _ (_ :: t.log)
      rw [hhead]
      exact .pollFailed t.now now t.stop stop timeout errno earlier herrno
  | recv_failed before errno t herrno => exact ⟨t.now, t.stop, errno, t.log, herrno, rfl⟩
  | recv_dry before errno t herrno => exact ⟨t.now, t.stop, errno, t.log, herrno, rfl⟩
  | complain_recv t =>
      obtain ⟨now, stop, errno, earlier, herrno, hhead⟩ := ht
      change Reason _ _ (_ :: t.log)
      rw [hhead]
      exact .recvFailed t.now now t.stop stop errno earlier herrno
  | first_reply before t hflag =>
      obtain ⟨now, stop, errno, earlier, herrno, hhead⟩ := ht
      rw [hflags] at hflag
      change Reason _ _ t.log
      rw [hhead]
      exact .answered now stop errno earlier herrno hflag.1 hflag.2
  | _ => trivial

end Flow

-- A run that has come back was asked to stop, has run out of time, has got its reply, or was
-- let down by the system, and then it has said so.
theorem every_ending_has_a_reason {N : Type} (host : Endian) (net : Network N) (monotone : Prop)
    (ctx : Ctx) (n : N) :
    Safe (world net monotone) (fun _ => True) (fun _ _ => True) (ping_run host)
      (fun _ t => Reason ctx.flags t.stats t.log) (.initial ctx n) := by
  intro q t h
  have hfollows : Flow.Follows host net monotone .start (.initial ctx n) False (ping_run host)
      (fun _ u => Flow.Path host net monotone .start (.initial ctx n) .finished u)
      (.initial ctx n) := Flow.ping_run_follows .here
  cases q with
  | ret value => exact ⟨trivial, (hfollows _ t h).2.departing rfl⟩
  | act update next => trivial
  | call e next => exact ⟨trivial, trivial⟩
  | loop body index next => trivial

end FtPing
