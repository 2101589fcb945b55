import FtPing.Flow.Deadline
import FtPing.Flow.Sequence

namespace FtPing

open Bytes History Interaction Numeric

def calledFrom (site : SendSite) (event : Event) : Bool := sendSite event = some site

-- The latest reading of the clock, and the one that is stored after the priming send.
def reading : List Entry → Option Nat
  | [] => none
  | entry :: log =>
      match entry.event with
      | .clock _ => some entry.now
      | _ => reading log

def primed : List Entry → Option Nat
  | [] => none
  | entry :: log =>
      match entry.event with
      | .clock .ping_run => some entry.now
      | _ => primed log

-- The calls of send_one() that send_if_due() and send_per_reply() make.
def timer_calls (log : List Entry) : Nat := tally (calledFrom .send_if_due) log

def reply_calls (log : List Entry) : Nat := tally (calledFrom .send_per_reply) log

namespace Flow

variable {N : Type} {host : Endian} {net : Network N} {monotone : Prop} {p q : Point}
  {t u : State N}

def unscheduled : Point → Bool
  | .start => true
  | .setup => true
  | .limiting _ => true
  | _ => false

section Timer

variable (interval : ℚ)

inductive Beat
  | unprimed
  | stamped (p : Paced) (now : Nat)
  | steady
  | timed (now : Nat)
  | due
  | sending

def Caller.dueBeat : Caller → Beat
  | .send_preload _ => .unprimed
  | .paced .ping_run => .unprimed
  | .paced .send_if_due => .due
  | .paced (.send_per_reply _) => .steady

def Caller.beat : Caller → Beat
  | .send_preload _ => .unprimed
  | .paced .ping_run => .unprimed
  | .paced .send_if_due => .sending
  | .paced (.send_per_reply _) => .steady

def beat : Point → Beat
  | .start => .unprimed
  | .setup => .unprimed
  | .limiting _ => .unprimed
  | .preload _ => .unprimed
  | .first => .unprimed
  | .calling c => c.dueBeat
  | .called c _ => c.dueBeat
  | .opened c _ => c.beat
  | .headed c _ => c.beat
  | .filling c _ _ => c.beat
  | .filled c _ => c.beat
  | .sealed c => c.beat
  | .ready c _ => c.beat
  | .accepted c => c.beat
  | .counted c => c.beat
  | .sent c => c.beat
  | .refused c => c.beat
  | .failed c => c.beat
  | .stamping p => Caller.beat (.paced p)
  | .stamped p now => .stamped p now
  | .dueTimed now => .timed now
  | .finished => .sending
  | _ => .steady

-- The calls of send_if_due() fit, one interval each, between the first stamp and `bound`.
def Fits (bound : ℚ) (log : List Entry) : Prop :=
  ∃ start, primed log = some start ∧ timer_calls log * interval ≤ bound - ms start

-- They fit before the latest reading, and before what is in last_send.
def FitsRead (t : State N) : Prop :=
  ∃ now, reading t.log = some now ∧ now ≤ t.now ∧ Fits interval (ms now) t.log

def FitsSent (t : State N) : Prop :=
  ∃ last, t.sched.last_send = .finite last ∧ Fits interval last t.log

def Metered : Beat → State N → Prop
  | .unprimed, t => primed t.log = none ∧ timer_calls t.log = 0 ∧ reply_calls t.log = 0
  | .stamped _ now, t => reading t.log = some now ∧ FitsRead interval t
  | .steady, t => FitsRead interval t ∧ FitsSent interval t
  | .timed now, t => reading t.log = some now ∧ FitsRead interval t ∧ FitsSent interval t
  | .due, t => ∃ now, reading t.log = some now ∧ now ≤ t.now ∧
      Fits interval (ms now - interval) t.log
  | .sending, t => FitsRead interval t

-- Entries that are neither a reading of the clock nor a call of send_one().
def unmetered : Event → Bool
  | .clock _ => false
  | .entered (.send_one _ _) => false
  | _ => true

theorem unmetered_kept {entry : Entry} (h : unmetered entry.event = true) (log : List Entry) :
    reading (entry :: log) = reading log ∧ primed (entry :: log) = primed log ∧
      timer_calls (entry :: log) = timer_calls log ∧
      reply_calls (entry :: log) = reply_calls log := by
  obtain ⟨now, stop, event⟩ := entry
  cases event with
  | clock site => cases h
  | entered what =>
      cases what with
      | send_one site seq => cases h
      | report_reply icmp_bytes seq rtt => exact ⟨rfl, rfl, rfl, rfl⟩
  | _ => exact ⟨rfl, rfl, rfl, rfl⟩

structure Idle (t u : State N) : Prop where
  last_send : u.sched.last_send = t.sched.last_send
  now : t.now ≤ u.now
  log : u.log = t.log ∨ ∃ entry, u.log = entry :: t.log ∧ unmetered entry.event = true

theorem Idle.kept (h : Idle t u) : reading u.log = reading t.log ∧ primed u.log = primed t.log ∧
    timer_calls u.log = timer_calls t.log ∧ reply_calls u.log = reply_calls t.log := by
  rcases h.log with hlog | ⟨entry, hlog, hentry⟩
  · rw [hlog]
    exact ⟨rfl, rfl, rfl, rfl⟩
  · rw [hlog]
    exact unmetered_kept hentry t.log

variable {interval}

theorem Idle.fits (h : Idle t u) {bound : ℚ} (ht : Fits interval bound t.log) :
    Fits interval bound u.log := by
  obtain ⟨-, hprimed, htimer, -⟩ := h.kept
  rw [Fits, hprimed, htimer]
  exact ht

theorem Idle.fitsRead (h : Idle t u) (ht : FitsRead interval t) : FitsRead interval u := by
  obtain ⟨now, hreading, hle, hfits⟩ := ht
  exact ⟨now, h.kept.1.trans hreading, hle.trans h.now, h.fits hfits⟩

theorem FitsRead.record {event : Event} (h : FitsRead interval t)
    (hevent : unmetered event = true) : FitsRead interval (t.record event) := by
  have hidle : Idle t (t.record event) :=
    ⟨rfl, Nat.le_refl _, Or.inr ⟨⟨t.now, t.stop, event⟩, rfl, hevent⟩⟩
  exact hidle.fitsRead h

theorem Idle.fitsSent (h : Idle t u) (ht : FitsSent interval t) : FitsSent interval u := by
  obtain ⟨last, hlast, hfits⟩ := ht
  exact ⟨last, h.last_send.trans hlast, h.fits hfits⟩

theorem Metered.idle {b : Beat} (h : Metered interval b t) (hu : Idle t u) :
    Metered interval b u := by
  obtain ⟨hreading, hprimed, htimer, hreply⟩ := hu.kept
  cases b with
  | unprimed => exact ⟨hprimed.trans h.1, htimer.trans h.2.1, hreply.trans h.2.2⟩
  | stamped p now => exact ⟨hreading.trans h.1, hu.fitsRead h.2⟩
  | steady => exact ⟨hu.fitsRead h.1, hu.fitsSent h.2⟩
  | timed now => exact ⟨hreading.trans h.1, hu.fitsRead h.2.1, hu.fitsSent h.2.2⟩
  | due =>
      obtain ⟨now, hnow, hle, hfits⟩ := h
      exact ⟨now, hreading.trans hnow, hle.trans hu.now, hu.fits hfits⟩
  | sending => exact hu.fitsRead h

-- A reading of the clock other than the first stamp.
theorem Fits.read {site : ClockSite} {bound : ℚ} (h : Fits interval bound t.log)
    (hsite : site ≠ .ping_run) : Fits interval bound (t.record (.clock site)).log := by
  have hprimed : primed (t.record (.clock site)).log = primed t.log := by
    cases site <;> first | rfl | exact absurd rfl hsite
  rw [Fits, hprimed]
  exact h

theorem FitsRead.read {site : ClockSite} (h : FitsRead interval t) (hsite : site ≠ .ping_run) :
    FitsRead interval (t.record (.clock site)) := by
  obtain ⟨now, -, hle, start, hstart, hfits⟩ := h
  refine ⟨t.now, rfl, Nat.le_refl _, Fits.read ⟨start, hstart, hfits.trans ?_⟩ hsite⟩
  have := ms_le_ms hle
  linarith

theorem FitsSent.read {site : ClockSite} (h : FitsSent interval t) (hsite : site ≠ .ping_run) :
    FitsSent interval (t.record (.clock site)) := by
  obtain ⟨last, hlast, hfits⟩ := h
  exact ⟨last, hlast, hfits.read hsite⟩

theorem Metered.read {site : ClockSite} {c : Caller} (h : Metered interval c.beat t)
    (hsite : site ≠ .ping_run) : Metered interval c.beat (t.record (.clock site)) := by
  have hprimed : primed (t.record (.clock site)).log = primed t.log := by
    cases site <;> first | rfl | exact absurd rfl hsite
  cases c with
  | send_preload i => exact ⟨hprimed.trans h.1, h.2⟩
  | paced p =>
      cases p with
      | ping_run => exact ⟨hprimed.trans h.1, h.2⟩
      | send_if_due => exact FitsRead.read h hsite
      | send_per_reply replies => exact ⟨h.1.read hsite, h.2.read hsite⟩

-- A call of send_one() that is not the timer's.
theorem Fits.other {bound : ℚ} {site : SendSite} {seq : UInt16} (h : Fits interval bound t.log)
    (hsite : site ≠ .send_if_due) :
    Fits interval bound (t.record (.entered (.send_one site seq))).log := by
  have htimer : timer_calls (t.record (.entered (.send_one site seq))).log = timer_calls t.log :=
    tally_miss (by cases site <;> first | rfl | exact absurd rfl hsite) t.log
  rw [Fits, htimer]
  exact h

theorem Metered.enter {c : Caller} {seq : UInt16} (h : Metered interval c.dueBeat t) :
    Metered interval c.beat (t.record (.entered (.send_one c.site seq))) := by
  cases c with
  | send_preload i => exact ⟨h.1, h.2.1, h.2.2⟩
  | paced p =>
      cases p with
      | ping_run => exact ⟨h.1, h.2.1, h.2.2⟩
      | send_if_due =>
          -- The interval that the call takes up is over.
          obtain ⟨now, hnow, hle, start, hstart, hfits⟩ := h
          refine ⟨now, hnow, hle, start, hstart, ?_⟩
          have htimer : timer_calls (t.record (.entered (.send_one .send_if_due seq))).log =
              timer_calls t.log + 1 := tally_hit rfl t.log
          change (timer_calls (t.record (.entered (.send_one .send_if_due seq))).log : ℚ) * _ ≤ _
          rw [htimer]
          push_cast
          linarith
      | send_per_reply replies =>
          obtain ⟨⟨now, hnow, hle, hread⟩, last, hlast, hsent⟩ := h
          exact ⟨⟨now, hnow, hle, hread.other nofun⟩, last, hlast, hsent.other nofun⟩

theorem Metered.read_stamp {p : Paced} (h : Metered interval (Caller.beat (.paced p)) t) :
    Metered interval (.stamped p t.now) (t.record (.clock p.stampSite)) := by
  cases p with
  | ping_run =>
      refine ⟨rfl, t.now, rfl, Nat.le_refl _, t.now, rfl, ?_⟩
      have htimer : timer_calls (t.record (.clock .ping_run)).log = 0 := h.2.1
      rw [Paced.stampSite, htimer]
      simp
  | send_if_due => exact ⟨rfl, FitsRead.read h nofun⟩
  | send_per_reply replies => exact ⟨rfl, h.1.read nofun⟩

theorem Metered.stamp {p : Paced} {now : Nat} (h : Metered interval (.stamped p now) t) :
    Metered interval .steady (t.stamp (timespec now)) := by
  obtain ⟨hreading, latest, hlatest, hle, hfits⟩ := h
  cases hreading.symm.trans hlatest
  exact ⟨⟨now, hreading, hle, hfits⟩, ms now, now_ms_timespec now, hfits⟩

theorem Metered.due_call {now : Nat} (h : Metered interval (.timed now) t)
    (hset : t.sched.interval = .finite interval) (hearly : early now t = false) :
    Metered interval .due t := by
  obtain ⟨hreading, ⟨latest, hlatest, hle, -⟩, last, hlast, start, hstart, hfits⟩ := h
  cases hreading.symm.trans hlatest
  refine ⟨now, hreading, hle, start, hstart, ?_⟩
  rw [early, hset, hlast, now_ms_timespec, Double.add_finite, Double.lt_finite,
    decide_eq_false_iff_not, not_lt] at hearly
  linarith

theorem Metered.before {b : Beat} (h : Metered interval b t) (hnone : primed t.log = none) :
    timer_calls t.log = 0 ∧ reply_calls t.log = 0 := by
  have hread : ¬ FitsRead interval t := by
    rintro ⟨now, -, -, start, hstart, -⟩
    exact Option.some_ne_none start (hstart.symm.trans hnone)
  cases b with
  | unprimed => exact h.2
  | stamped p now => exact absurd h.2 hread
  | steady => exact absurd h.1 hread
  | timed now => exact absurd h.2.1 hread
  | due =>
      obtain ⟨now, -, -, start, hstart, -⟩ := h
      exact absurd (hstart.symm.trans hnone) (Option.some_ne_none start)
  | sending => exact absurd h hread

theorem Metered.after {b : Beat} {start : Nat} (h : Metered interval b t) (hpos : 0 ≤ interval)
    (hstart : primed t.log = some start) : FitsRead interval t := by
  cases b with
  | unprimed => exact absurd (hstart.symm.trans h.1) (Option.some_ne_none start)
  | stamped p now => exact h.2
  | steady => exact h.1
  | timed now => exact h.2.1
  | due =>
      obtain ⟨now, hnow, hle, first, hfirst, hfits⟩ := h
      exact ⟨now, hnow, hle, first, hfirst, by linarith⟩
  | sending => exact h

theorem Metered.edge (hset : unscheduled p = true ∨ t.sched.interval = .finite interval)
    (h : Metered interval (beat p) t) (he : Edge host net True p t q u) :
    Metered interval (beat q) u := by
  cases he with
  | env _ _ _ hr =>
      cases hr with
      | intro now stop n hnow hstop hnet => exact h.idle ⟨rfl, hnow trivial, Or.inl rfl⟩
  | read_limit t _ => exact ⟨h.1, h.2⟩
  | limited now t => exact ⟨h.1, h.2⟩
  | unlimited t _ => exact ⟨h.1, h.2⟩
  | enter c seq t => exact h.enter
  | read_sent c seq t => exact h.read nofun
  | read_stamp p t => exact h.read_stamp
  | stamp p now t => cases p <;> exact h.stamp
  | paced_sent p t => cases p <;> exact h
  | read_wake t => exact ⟨h.1.read nofun, h.2.read nofun⟩
  | read_receipt before d t _ => exact ⟨h.1.read nofun, h.2.read nofun⟩
  | read_burst replies t => exact ⟨h.1.read nofun, h.2.read nofun⟩
  | read_due t => exact ⟨rfl, h.1.read nofun, h.2.read nofun⟩
  | due_late now t _ => exact h.2.1
  | due_early now t _ _ => exact h.2
  | due_call now t _ hearly => exact h.due_call (hset.resolve_left Bool.false_ne_true) hearly
  | wake_late now t _ => exact h.1
  | first_reply before t _ => exact h.1
  | burst_late replies now t _ => exact h.1
  | burst_failed replies t => exact h.1
  | head_stop t _ => exact h.1.record rfl
  | complain_poll t => exact h.1.record rfl
  | complain_recv t => exact h.1.record rfl
  | _ => first
      | exact h.idle ⟨rfl, Nat.le_refl _, Or.inl rfl⟩
      | exact h.idle ⟨rfl, Nat.le_refl _, Or.inr ⟨_, rfl, rfl⟩⟩

end Timer

end Flow

end FtPing
