import FtPing.Flow.Dated
import FtPing.Flow.Stopping

namespace FtPing

open Bytes History Interaction Numeric

-- poll() was to wake the loop up for the next packet or the deadline, and has timed out.
def isWakeup : Event → Bool
  | .polled timeout .timedOut => timeout < 3600000
  | _ => false

theorem target_near_of_ms_until {target now : ℚ}
    (h : ms_until (.finite target) (.finite now) < 3600000) : target - now ≤ 3600000 := by
  rw [ms_until_finite] at h
  split_ifs at h with hpast hlong
  · linarith
  · exact absurd h (lt_irrefl _)
  · simpa [PING_POLL_MAX_MS] using not_lt.mp hlong

theorem lt_of_not_ge {now : ℚ} {deadline : Double} (hdeadline : deadline ≠ .nan)
    (h : Double.ge (.finite now) deadline = false) : Double.lt (.finite now) deadline = true := by
  cases deadline with
  | finite d =>
      rw [Double.ge, Double.le_finite, decide_eq_false_iff_not, not_le] at h
      exact decide_eq_true h
  | posInf => rfl
  | negInf => cases h
  | nan => exact absurd rfl hdeadline

theorem ms_add_millis (now wait : Nat) : ms (now + wait * 1000000) = ms now + wait := by
  unfold ms
  push_cast
  ring

namespace Flow

variable {N : Type} {host : Endian} {net : Network N} {s t u : State N} {p q : Point}

-- Whether a poll() has returned since the last packet of send_if_due().
def Paced.prompted : Paced → Nat
  | .send_per_reply _ => 1
  | _ => 0

def Caller.prompted : Caller → Nat
  | .paced p => p.prompted
  | .send_preload _ => 0

def Caller.prompting : Caller → Nat
  | .paced .send_if_due => 1
  | c => c.prompted

def prompted : Point → Nat
  | .calling c => c.prompting
  | .called c _ => c.prompting
  | .opened c _ => c.prompted
  | .headed c _ => c.prompted
  | .filling c _ _ => c.prompted
  | .filled c _ => c.prompted
  | .sealed c => c.prompted
  | .ready c _ => c.prompted
  | .accepted c => c.prompted
  | .counted c => c.prompted
  | .sent c => c.prompted
  | .refused c => c.prompted
  | .failed c => c.prompted
  | .stamping p => p.prompted
  | .stamped p _ => p.prompted
  | .readable => 1
  | .draining _ => 1
  | .judging _ _ => 1
  | .timing _ _ _ => 1
  | .recorded _ _ _ => 1
  | .reporting _ _ _ => 1
  | .drained _ => 1
  | .burst _ => 1
  | .bursting _ => 1
  | .burstTimed _ _ => 1
  | .due => 1
  | .dueTimed _ => 1
  | _ => 0

def Prompted (p : Point) (t : State N) : Prop :=
  timer_calls t.log + prompted p ≤ tally isPolled t.log

theorem Prompted.same (h : Prompted p t) (hq : prompted q ≤ prompted p) (hlog : u.log = t.log) :
    Prompted q u := by
  rw [Prompted, hlog]
  exact (Nat.add_le_add_left hq _).trans h

theorem Prompted.more {event : Event} (h : Prompted p t)
    (hq : prompted q ≤ prompted p + if isPolled event then 1 else 0)
    (hevent : calledFrom .send_if_due event = false) : Prompted q (t.record event) := by
  rw [Prompted] at h ⊢
  rw [State.record, timer_calls, tally_miss hevent, tally_cons, ← timer_calls]
  dsimp only
  omega

theorem Path.prompted (h : Path host net True .start s q t) (hlog : s.log = []) :
    Prompted q t := by
  refine h.invariant Prompted (by rw [Prompted, hlog]; exact Nat.le_refl _) fun p t q u _ ht he => ?_
  cases he with
  | env p _ _ hr =>
      cases hr
      exact ht
  | scratch p t buf => exact ht
  | enter c seq t =>
      cases c with
      | send_preload i => exact ht.more (Nat.le_refl _) rfl
      | paced p =>
          cases p with
          | send_if_due =>
              rw [Prompted] at ht ⊢
              rw [State.record, timer_calls, tally_hit rfl, tally_miss rfl]
              exact ht
          | _ => exact ht.more (Nat.le_refl _) rfl
  | stamp p now t => cases p <;> exact ht.same (Nat.le_refl _) rfl
  | _ => first
      | exact ht.same (Nat.le_of_ble_eq_true rfl) rfl
      | exact ht.same (Nat.le_refl _) rfl
      | exact ht.same (Nat.zero_le _) rfl
      | exact ht.more (Nat.le_of_ble_eq_true rfl) rfl
      | exact ht.more (Nat.le_add_right _ _) rfl

-- From then on the test of the deadline or that of the interval lets a packet through.
def Ripe (now : Nat) (t : State N) : Prop :=
  ∀ later, now ≤ later → late later t = true ∨ early later t = false

-- The time that poll() is given is long enough, unless it is the longest there is.
theorem reached_of_wait {target : ℚ} {now later : Nat}
    (h : ms_until (.finite target) (.finite (ms now)) < 3600000)
    (hlater : now + (ms_until (.finite target) (.finite (ms now))).toNat * 1000000 ≤ later) :
    target ≤ ms later := by
  have hlong := le_ms_until (target_near_of_ms_until h)
  have hpassed := ms_le_ms hlater
  rw [ms_add_millis] at hpassed
  have hwhole : (((ms_until (.finite target) (.finite (ms now))).toNat : ℤ) : ℚ) =
      ms_until (.finite target) (.finite (ms now)) := by
    rw [Int.toNat_of_nonneg (ms_until_nonneg target (ms now))]
  rw [Int.cast_natCast] at hwhole
  linarith

theorem ripe_of_pollTimeout {now : Nat} (hdeadline : t.sched.deadline ≠ .nan)
    (hlate : late now t = false) (h : pollTimeout now t < 3600000) :
    Ripe (now + (pollTimeout now t).toNat * 1000000) t := by
  have hbefore : Double.lt (.finite (ms now)) t.sched.deadline = true := by
    rw [late, now_ms_timespec] at hlate
    exact lt_of_not_ge hdeadline hlate
  rw [pollTimeout, now_ms_timespec] at h ⊢
  intro later hlater
  rw [late, early, now_ms_timespec]
  cases hdue : t.sched.last_send.add t.sched.interval with
  | finite due =>
      obtain ⟨target, hmin, hwhich, -⟩ := fmin_target due hbefore
      rw [hdue, hmin] at h hlater
      cases hgone : Double.ge (.finite (ms later)) t.sched.deadline with
      | true => exact Or.inl rfl
      | false => exact Or.inr (due_of_target hwhich (reached_of_wait h hlater) hgone)
  | posInf =>
      -- Only the deadline is waited for.
      rw [hdue] at h hlater
      cases hend : t.sched.deadline with
      | finite deadline =>
          rw [hend] at h hlater
          exact Or.inl (decide_eq_true (reached_of_wait h hlater))
      | posInf =>
          rw [hend] at h
          have hlongest : ms_until (Double.fmin .posInf .posInf) (.finite (ms now)) = 3600000 := rfl
          rw [hlongest] at h
          exact absurd h (by decide)
      | negInf => exact Or.inl rfl
      | nan => exact absurd hend hdeadline
  | negInf => exact Or.inr rfl
  | nan => exact Or.inr rfl

inductive Haste
  | calm
  | asking (timeout : Int)
  | owing
  | timed (now : Nat)
  | paying

def Caller.haste : Caller → Haste
  | .paced .send_if_due => .paying
  | _ => .calm

def haste : Point → Haste
  | .calling c => c.haste
  | .called c _ => c.haste
  | .waiting timeout => .asking timeout
  | .due => .owing
  | .dueTimed now => .timed now
  | .finished => .paying
  | _ => .calm

-- Each timeout is followed by a packet, but for the last one.
def Hasty : Haste → State N → Prop
  | .calm, t => tally isWakeup t.log ≤ timer_calls t.log
  | .asking timeout, t => tally isWakeup t.log ≤ timer_calls t.log ∧
      ∃ now stop rest, t.log = ⟨now, stop, .clock .loop_once⟩ :: rest ∧
        (timeout < 3600000 → Ripe (now + timeout.toNat * 1000000) t)
  | .owing, t => tally isWakeup t.log ≤ timer_calls t.log ∨
      tally isWakeup t.log ≤ timer_calls t.log + 1 ∧ Ripe t.now t
  | .timed now, t => tally isWakeup t.log ≤ timer_calls t.log ∨
      tally isWakeup t.log ≤ timer_calls t.log + 1 ∧ (late now t = true ∨ early now t = false)
  | .paying, t => tally isWakeup t.log ≤ timer_calls t.log + 1

-- A step on which neither a poll() times out nor send_if_due() sends.
structure Resting (t u : State N) : Prop where
  sched : u.sched = t.sched
  now : t.now ≤ u.now
  log : u.log = t.log ∨ ∃ entry, u.log = entry :: t.log ∧ isWakeup entry.event = false ∧
    calledFrom .send_if_due entry.event = false

theorem Resting.counts (h : Resting t u) :
    tally isWakeup u.log = tally isWakeup t.log ∧ timer_calls u.log = timer_calls t.log := by
  rcases h.log with hlog | ⟨entry, hlog, hwakeup, hcall⟩
  · rw [hlog]
    exact ⟨rfl, rfl⟩
  · rw [hlog]
    exact ⟨tally_miss hwakeup t.log, tally_miss hcall t.log⟩

theorem Resting.ripe {now later : Nat} (h : Resting t u) (ht : Ripe now t) (hle : now ≤ later) :
    Ripe later u := by
  intro instant hinstant
  simpa only [late, early, h.sched] using ht instant (hle.trans hinstant)

theorem Hasty.rest {b : Haste} (h : Hasty b t) (hu : Resting t u)
    (hsame : (∀ timeout, b ≠ .asking timeout) ∨ u.log = t.log) : Hasty b u := by
  obtain ⟨hwakeup, hcalls⟩ := hu.counts
  cases b with
  | calm => simpa only [Hasty, hwakeup, hcalls] using h
  | asking timeout =>
      obtain ⟨hle, now, stop, rest, hhead, hripe⟩ := h
      have hlog := hsame.resolve_left fun hnone => hnone timeout rfl
      rw [Hasty, hwakeup, hcalls, hlog]
      exact ⟨hle, now, stop, rest, hhead, fun hshort => hu.ripe (hripe hshort) (Nat.le_refl _)⟩
  | owing =>
      rw [Hasty, hwakeup, hcalls]
      exact h.imp id fun hlast => ⟨hlast.1, hu.ripe hlast.2 hu.now⟩
  | timed now => simpa only [Hasty, hwakeup, hcalls, late, early, hu.sched] using h
  | paying => simpa only [Hasty, hwakeup, hcalls] using h

theorem Hasty.bound {b : Haste} (h : Hasty b t) :
    tally isWakeup t.log ≤ timer_calls t.log + 1 := by
  cases b with
  | calm => exact h.trans (Nat.le_succ _)
  | asking timeout => exact h.1.trans (Nat.le_succ _)
  | owing => exact h.elim (fun hle => hle.trans (Nat.le_succ _)) fun hlast => hlast.1
  | timed now => exact h.elim (fun hle => hle.trans (Nat.le_succ _)) fun hlast => hlast.1
  | paying => exact h

theorem Hasty.record {b : Haste} {event : Event} (h : Hasty b t)
    (hb : ∀ timeout, b ≠ .asking timeout) (hwakeup : isWakeup event = false)
    (hcall : calledFrom .send_if_due event = false) : Hasty b (t.record event) :=
  h.rest ⟨rfl, Nat.le_refl _, Or.inr ⟨_, rfl, hwakeup, hcall⟩⟩ (Or.inl hb)

theorem Hasty.enter {c : Caller} {seq : UInt16} (h : Hasty c.haste t) :
    Hasty .calm (t.record (.entered (.send_one c.site seq))) := by
  cases c with
  | send_preload i => exact Hasty.record h nofun rfl rfl
  | paced p =>
      cases p with
      | send_if_due =>
          change tally isWakeup (⟨_, _, _⟩ :: t.log) ≤ timer_calls (⟨_, _, _⟩ :: t.log)
          rw [tally_miss rfl, timer_calls, tally_hit rfl]
          exact h
      | _ => exact Hasty.record h nofun rfl rfl

-- It has waited for as long as it was told to, so now there is something to do.
theorem Hasty.timedOut {timeout : Int} (h : Hasty (.asking timeout) t)
    (hwaited : Waited ⟨t.now, t.stop, .polled timeout .timedOut⟩ t.log) :
    Hasty .owing (t.record (.polled timeout .timedOut)) := by
  obtain ⟨hle, now, stop, rest, hhead, hripe⟩ := h
  have hcalls : timer_calls (t.record (.polled timeout .timedOut)).log = timer_calls t.log :=
    tally_miss rfl t.log
  by_cases hshort : timeout < 3600000
  · have hwakeup : tally isWakeup (t.record (.polled timeout .timedOut)).log =
        tally isWakeup t.log + 1 := tally_hit (decide_eq_true hshort) t.log
    have hlong := hwaited timeout _ rest rfl hhead
    refine Or.inr ⟨?_, fun later hlater => hripe hshort later (hlong.trans hlater)⟩
    rw [hwakeup, hcalls]
    exact Nat.succ_le_succ hle
  · have hwakeup : tally isWakeup (t.record (.polled timeout .timedOut)).log =
        tally isWakeup t.log := tally_miss (decide_eq_false hshort) t.log
    refine Or.inl ?_
    rw [hwakeup, hcalls]
    exact hle

theorem Hasty.read_due (h : Hasty .owing t) :
    Hasty (.timed t.now) (t.record (.clock .send_if_due)) := by
  have hread : Hasty .owing (t.record (.clock .send_if_due)) := Hasty.record h nofun rfl rfl
  rcases hread with hle | ⟨hle, hripe⟩
  · exact Or.inl hle
  · exact Or.inr ⟨hle, hripe t.now (Nat.le_refl _)⟩

theorem Edge.log_suffix (he : Edge host net True p t q u) : t.log <:+ u.log := by
  rcases he.log_cases with hlog | ⟨event, hlog⟩
  · exact ⟨[], hlog.symm⟩
  · exact ⟨[_], hlog.symm⟩

theorem Path.hasty (h : Path host net True .start s q t) (hlog : s.log = [])
    (hwaited : Every Waited t.log) : Hasty (haste q) t := by
  refine h.invariant (fun p t => Every Waited t.log → Hasty (haste p) t)
    (fun _ => by rw [show haste .start = .calm from rfl, Hasty, hlog]; exact Nat.zero_le _)
    (fun p t q u hwalk ht he hwaited => ?_) hwaited
  have ht := ht (hwaited.suffix he.log_suffix)
  cases he with
  | env p t u hr =>
      cases hr with
      | intro now stop n hnow hstop hnet =>
          exact ht.rest ⟨rfl, hnow trivial, Or.inl rfl⟩ (Or.inr rfl)
  | scratch p t buf => exact ht.rest ⟨rfl, Nat.le_refl _, Or.inl rfl⟩ (Or.inr rfl)
  | enter c seq t => exact ht.enter
  | wait now t hlate =>
      obtain ⟨stop, rest, hhead⟩ := (hwalk.asking hlog).looking
      have hdeadline := hwalk.deadline_ne_nan rfl
      exact ⟨ht, now, stop, rest, hhead,
        fun hshort => ripe_of_pollTimeout hdeadline hlate hshort⟩
  | poll_timedOut timeout t => exact ht.timedOut (hwaited _ _ (List.suffix_refl _))
  | poll_readable timeout t => exact Hasty.record (b := .calm) ht.1 nofun rfl rfl
  | poll_interrupted timeout t => exact Hasty.record (b := .calm) ht.1 nofun rfl rfl
  | poll_failed timeout errno t _ => exact Hasty.record (b := .calm) ht.1 nofun rfl rfl
  | read_due t => exact ht.read_due
  | due_late now t _ => exact ht.bound
  | due_early now t hlate hearly =>
      rcases ht with hle | ⟨-, hgone | hdue⟩
      · exact hle
      · rw [hlate] at hgone
        cases hgone
      · rw [hearly] at hdue
        cases hdue
  | due_call now t _ _ => exact ht.bound
  | limited now t => exact ht
  | unlimited t _ => exact ht
  | take_seq c t =>
      cases c with
      | send_preload i => exact ht
      | paced p => cases p <;> exact ht
  | burst_skip before t _ _ => exact Or.inl ht
  | burst_done replies t _ => exact Or.inl ht
  | burst_stop replies t _ _ => exact Or.inl (Hasty.record (b := .calm) ht nofun rfl rfl)
  | stamp p now t => cases p <;> exact ht
  | head_stop t _ => exact (ht.record nofun rfl rfl).bound
  | complain_poll t => exact (ht.record nofun rfl rfl).bound
  | complain_recv t => exact (ht.record nofun rfl rfl).bound
  | _ => first
      | exact ht.rest ⟨rfl, Nat.le_refl _, Or.inl rfl⟩ (Or.inr rfl)
      | exact ht.rest ⟨rfl, Nat.le_refl _, Or.inr ⟨_, rfl, rfl, rfl⟩⟩ (Or.inl nofun)
      | exact ht.bound

def nextTimeout : Point → Int
  | .waiting timeout => timeout
  | _ => 1

structure Unhurried (p : Point) (t : State N) : Prop where
  next : 0 < nextTimeout p
  past : tally isRush t.log = 0

theorem Unhurried.more {entry : Entry} (h : Unhurried p t) (hq : nextTimeout q = 1)
    (hlog : u.log = entry :: t.log) (hentry : isRush entry.event = false) : Unhurried q u :=
  ⟨hq ▸ Int.one_pos, by rw [hlog, tally_miss hentry]; exact h.past⟩

theorem Unhurried.same (h : Unhurried p t) (hq : nextTimeout q = 1) (hlog : u.log = t.log) :
    Unhurried q u :=
  ⟨hq ▸ Int.one_pos, hlog ▸ h.past⟩

section Timer

variable {interval : ℚ}

-- The calls of send_if_due() fit, one interval each, before the deadline.
def Capped (interval : ℚ) (timeout : Int) (t : State N) : Prop :=
  timer_calls t.log = 0 ∨ Fits interval (ms (origin t.log) + 1000 * timeout) t.log

variable {timeout : Int}

theorem Capped.more {entry : Entry} (h : Capped interval timeout t)
    (hlog : u.log = entry :: t.log) (hprimed : primed u.log = primed t.log)
    (hcalls : timer_calls u.log = timer_calls t.log) : Capped interval timeout u := by
  rcases h with hnone | ⟨start, hstart, hfits⟩
  · exact Or.inl (hcalls.trans hnone)
  · have hsome : t.log ≠ [] := fun hnil => by
      rw [hnil] at hstart
      cases hstart
    refine Or.inr ⟨start, hprimed.trans hstart, ?_⟩
    rw [hlog, origin_cons hsome, ← hlog, hcalls]
    exact hfits

theorem Capped.unmetered {event : Event} (h : Capped interval timeout t)
    (hevent : unmetered event = true) : Capped interval timeout (t.record event) := by
  obtain ⟨-, hprimed, hcalls, -⟩ := @unmetered_kept ⟨t.now, t.stop, event⟩ hevent t.log
  exact h.more rfl hprimed hcalls

theorem Capped.read {site : ClockSite} (h : Capped interval timeout t) (hsite : site ≠ .ping_run) :
    Capped interval timeout (t.record (.clock site)) := by
  refine h.more rfl ?_ rfl
  cases site <;> first | rfl | exact absurd rfl hsite

end Timer

end Flow

-- Over a whole run the loop neither spins nor wakes up too early: where a poll() that times out
-- has waited for as long as it was told to, each timeout is followed by a packet of
-- send_if_due(), but for the last one. The waits of a full hour do not count.
theorem every_wakeup_sends {N : Type} (host : Endian) (net : Network N) (most : Nat) (ctx : Ctx)
    (n : N) :
    Safe (patient net most) (fun t => tally isWakeup t.log ≤ timer_calls t.log + 1)
      (fun _ _ => True) (ping_run host) (fun _ _ => True) (.initial ctx n) := by
  refine safe_of_reach fun q t hr => ?_
  obtain ⟨p, hpath⟩ := Flow.ping_run_path host net True (.initial ctx n) t q (patient_reach hr)
  exact (hpath.hasty rfl (patient_timely rfl hr).credible.waited).bound

end FtPing
