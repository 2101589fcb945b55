import FtPing.Cli.Privilege
import FtPing.Flow.Attempts
import FtPing.Flow.Deadline

namespace FtPing

open Bytes CLib History Interaction Numeric

-- The reading that has gone into last_send since the latest call of send_one().
def stored : List Entry → Option Nat
  | [] => none
  | entry :: log =>
      match entry.event with
      | .entered (.send_one _ _) => none
      | .clock .ping_run => some entry.now
      | .clock .send_if_due_sent => some entry.now
      | .clock .send_per_reply_sent => some entry.now
      | _ => stored log

-- A call of send_one() that is not the first of the run directly follows a reading of the clock
-- in send_if_due(), and that is two milliseconds past what was stored after the call before.
def Spaced (entry : Entry) (earlier : List Entry) : Prop :=
  ∀ site, sendSite entry.event = some site → attempts earlier ≠ [] →
    site = .send_if_due ∧ ∃ reading stop rest last,
      earlier = ⟨reading, stop, .clock .send_if_due⟩ :: rest ∧ stored rest = some last ∧
        ms last + 2 ≤ ms reading

namespace Flow

variable {N : Type}

inductive Leg
  | unset
  | burst (i : Int)
  | unsent
  | sending
  | stamped (now : Nat)
  | paced
  | reading (now : Nat)
  | due
  | never

def Paced.leg : Paced → Leg → Leg
  | .send_per_reply _, _ => .never
  | _, leg => leg

def Caller.about : Caller → Leg
  | .send_preload _ => .never
  | .paced .ping_run => .unsent
  | .paced .send_if_due => .due
  | .paced (.send_per_reply _) => .never

def Caller.within : Caller → Leg
  | .send_preload _ => .never
  | .paced p => p.leg .sending

def leg : Point → Leg
  | .start => .unset
  | .setup => .unset
  | .limiting _ => .unset
  | .preload i => .burst i
  | .first => .unsent
  | .calling c => c.about
  | .called c _ => c.about
  | .opened c _ => c.within
  | .headed c _ => c.within
  | .filling c _ _ => c.within
  | .filled c _ => c.within
  | .sealed c => c.within
  | .ready c _ => c.within
  | .accepted c => c.within
  | .counted c => c.within
  | .sent c => c.within
  | .refused c => c.within
  | .failed c => c.within
  | .stamping p => p.leg .sending
  | .stamped p now => p.leg (.stamped now)
  | .burst _ => .never
  | .bursting _ => .never
  | .burstTimed _ _ => .never
  | .dueTimed now => .reading now
  | .finished => .sending
  | _ => .paced

variable (interval : Double)

-- last_send has what was stored last.
def Current (t : State N) (log : List Entry) : Prop :=
  ∃ last, stored log = some last ∧ t.sched.last_send = .finite (ms last)

def Spacious : Leg → State N → Prop
  | .unset, t => attempts t.log = []
  | .burst i, t => t.sched.interval = interval ∧ attempts t.log = [] ∧ 0 ≤ i
  | .unsent, t => t.sched.interval = interval ∧ attempts t.log = []
  | .sending, t => t.sched.interval = interval
  | .stamped now, t => t.sched.interval = interval ∧ stored t.log = some now
  | .paced, t => t.sched.interval = interval ∧ Current t t.log
  | .reading now, t => t.sched.interval = interval ∧
      ∃ stop rest, t.log = ⟨now, stop, .clock .send_if_due⟩ :: rest ∧ Current t rest
  | .due, t => t.sched.interval = interval ∧ ∃ reading stop rest last,
      t.log = ⟨reading, stop, .clock .send_if_due⟩ :: rest ∧ stored rest = some last ∧
        ms last + 2 ≤ ms reading
  | .never, _ => False

structure Spacing (p : Point) (t : State N) : Prop where
  spacious : Spacious interval (leg p) t
  spaced : Every Spaced t.log

-- The log stays as it is, or takes an entry that is not a call and leaves what `keeps` sees.
def Grows {β : Type} (keeps : List Entry → β) (t u : State N) : Prop :=
  u.log = t.log ∨ ∃ entry, u.log = entry :: t.log ∧ sendSite entry.event = none ∧
    keeps (entry :: t.log) = keeps t.log

variable {interval} {p q : Point} {t u : State N}

theorem Grows.spaced {β : Type} {keeps : List Entry → β} (h : Grows keeps t u)
    (ht : Every Spaced t.log) : Every Spaced u.log := by
  refine ht.grows (Or.imp_right ?_ h)
  rintro ⟨entry, hlog, hnone, -⟩
  refine ⟨entry, hlog, fun site hsite => ?_⟩
  rw [hnone] at hsite
  cases hsite

theorem Grows.keeps_eq {β : Type} {keeps : List Entry → β} (h : Grows keeps t u) :
    keeps u.log = keeps t.log := by
  rcases h with hlog | ⟨entry, hlog, -, hkeeps⟩
  · rw [hlog]
  · rw [hlog, hkeeps]

theorem Spacing.same (h : Spacing interval p t) (hq : leg q = leg p) (hsched : u.sched = t.sched)
    (hlog : u.log = t.log) : Spacing interval q u := by
  refine ⟨?_, by rw [hlog]; exact h.spaced⟩
  have hspacious := h.spacious
  rw [hq]
  generalize leg p = current at hspacious
  cases current with
  | never => exact hspacious
  | _ =>
      simp only [Spacious, Current, hsched, hlog]
      exact hspacious

theorem Spacing.unset (h : Spacing interval p t) (hp : leg p = .unset) (hq : leg q = .unset)
    (hlog : Grows attempts t u) : Spacing interval q u := by
  have hspacious := h.spacious
  rw [hp] at hspacious
  exact ⟨by rw [hq]; exact hlog.keeps_eq.trans hspacious, hlog.spaced h.spaced⟩

theorem Spacing.unsent (h : Spacing interval p t) (hp : leg p = .unsent) (hq : leg q = .unsent)
    (hsched : u.sched = t.sched) (hlog : Grows attempts t u) : Spacing interval q u := by
  have hspacious := h.spacious
  rw [hp] at hspacious
  refine ⟨?_, hlog.spaced h.spaced⟩
  rw [hq, Spacious, hsched, hlog.keeps_eq]
  exact hspacious

theorem Spacing.sending (h : Spacing interval p t) (hset : t.sched.interval = interval)
    (hq : leg q = .sending) (hsched : u.sched = t.sched)
    (hlog : Grows (fun _ => ()) t u) : Spacing interval q u := by
  refine ⟨?_, hlog.spaced h.spaced⟩
  rw [hq, Spacious, hsched]
  exact hset

theorem Spacing.paced (h : Spacing interval p t) (hp : leg p = .paced) (hq : leg q = .paced)
    (hsched : u.sched = t.sched) (hlog : Grows stored t u) : Spacing interval q u := by
  have hspacious := h.spacious
  rw [hp] at hspacious
  refine ⟨?_, hlog.spaced h.spaced⟩
  rw [hq, Spacious, Current, hsched, hlog.keeps_eq]
  exact hspacious

theorem Spacing.within {c : Caller} (h : Spacing interval p t) (hp : leg p = c.within)
    (hq : leg q = c.within) (hsched : u.sched = t.sched) (hlog : Grows (fun _ => ()) t u) :
    Spacing interval q u := by
  have hspacious := h.spacious
  rw [hp] at hspacious
  cases c with
  | send_preload i => exact hspacious.elim
  | paced p =>
      cases p with
      | ping_run => exact h.sending hspacious hq hsched hlog
      | send_if_due => exact h.sending hspacious hq hsched hlog
      | send_per_reply replies => exact hspacious.elim

-- Where the run ends.
theorem Spacing.finish (h : Spacing interval p t) (hp : leg p = .paced) (hsched : u.sched = t.sched)
    (hlog : Grows (fun _ => ()) t u) : Spacing interval .finished u := by
  have hspacious := h.spacious
  rw [hp] at hspacious
  exact h.sending hspacious.1 rfl hsched hlog

theorem Spacing.take_seq {c : Caller} (h : Spacing interval (.calling c) t) :
    Spacing interval (.called c t.sched.seq)
      (t.setSched { t.sched with seq := t.sched.seq + 1 }) := by
  have hspacious := h.spacious
  refine ⟨?_, h.spaced⟩
  cases c with
  | send_preload i => exact hspacious
  | paced p => cases p <;> exact hspacious

-- The call that begins now is the first, or it is authorised.
theorem Spacing.enter {c : Caller} {seq : UInt16} (h : Spacing interval (.called c seq) t) :
    Spacing interval (.opened c seq) (t.record (.entered (.send_one c.site seq))) := by
  have hspacious := h.spacious
  cases c with
  | send_preload i => exact hspacious.elim
  | paced p =>
      cases p with
      | ping_run =>
          exact ⟨hspacious.1, h.spaced.cons fun site _ hearlier => absurd hspacious.2 hearlier⟩
      | send_if_due =>
          refine ⟨hspacious.1, h.spaced.cons fun site hsite _ => ?_⟩
          cases hsite
          exact ⟨rfl, hspacious.2⟩
      | send_per_reply replies => exact hspacious.elim

theorem Spacing.read_stamp {p : Paced} (h : Spacing interval (.stamping p) t) :
    Spacing interval (.stamped p t.now) (t.record (.clock p.stampSite)) := by
  have hspacious := h.spacious
  have hlog : Grows (fun _ => ()) t (t.record (.clock p.stampSite)) :=
    Or.inr ⟨_, rfl, rfl, rfl⟩
  refine ⟨?_, hlog.spaced h.spaced⟩
  cases p with
  | ping_run => exact ⟨hspacious, rfl⟩
  | send_if_due => exact ⟨hspacious, rfl⟩
  | send_per_reply replies => exact hspacious

theorem Spacing.stamp {p : Paced} {now : Nat} (h : Spacing interval (.stamped p now) t) :
    Spacing interval p.next (t.stamp (timespec now)) := by
  have hspacious := h.spacious
  refine ⟨?_, h.spaced⟩
  cases p with
  | ping_run => exact ⟨hspacious.1, now, hspacious.2, now_ms_timespec now⟩
  | send_if_due => exact ⟨hspacious.1, now, hspacious.2, now_ms_timespec now⟩
  | send_per_reply replies => exact hspacious.elim

theorem Spacing.due_call {now : Nat} (h : Spacing interval (.dueTimed now) t)
    (hnan : interval ≠ .nan) (hlow : Double.le (.finite 2) interval = true)
    (hearly : early now t = false) : Spacing interval (.calling (.paced .send_if_due)) t := by
  obtain ⟨hset, stop, rest, hlog, last, hlast, hsent⟩ := h.spacious
  refine ⟨⟨hset, now, stop, rest, last, hlog, hlast, ?_⟩, h.spaced⟩
  rw [early, hset, hsent, now_ms_timespec] at hearly
  exact Double.finite_of_not_before _ _ interval 2 hnan hlow hearly

theorem Spacing.due_early {now : Nat} (h : Spacing interval (.dueTimed now) t) :
    Spacing interval .head t := by
  obtain ⟨hset, stop, rest, hlog, hcurrent⟩ := h.spacious
  refine ⟨⟨hset, ?_⟩, h.spaced⟩
  rw [Current, hlog]
  exact hcurrent

variable {host : Endian} {net : Network N} {monotone : Prop}

theorem Spacing.edge (hpreload : t.ctx.flags.preload = 0) (hflood : t.ctx.flags.bsd_flood = false)
    (hpace : pace t.ctx.flags = interval) (hnan : interval ≠ .nan)
    (hlow : Double.le (.finite 2) interval = true) (h : Spacing interval p t)
    (he : Edge host net monotone p t q u) : Spacing interval q u := by
  cases he with
  | env p t u hr =>
      cases hr
      exact h.same rfl rfl rfl
  | read_limit t _ => exact h.unset rfl rfl (Or.inr ⟨_, rfl, rfl, rfl⟩)
  | limited now t => exact ⟨⟨hpace, h.spacious, Int.le_refl 0⟩, h.spaced⟩
  | unlimited t _ => exact ⟨⟨hpace, h.spacious, Int.le_refl 0⟩, h.spaced⟩
  | preload_go i t hmore _ =>
      have hi := h.spacious.2.2
      omega
  | preload_stop i t _ =>
      obtain ⟨hset, hnone, -⟩ := h.spacious
      have hlog : Grows attempts t (t.record .stopTested) := Or.inr ⟨_, rfl, rfl, rfl⟩
      exact ⟨⟨hset, hlog.keeps_eq.trans hnone⟩, hlog.spaced h.spaced⟩
  | preload_done i t _ => exact ⟨⟨h.spacious.1, h.spacious.2.1⟩, h.spaced⟩
  | first_go t _ => exact h.unsent rfl rfl rfl (Or.inr ⟨_, rfl, rfl, rfl⟩)
  | first_stop t _ =>
      exact h.sending h.spacious.1 rfl rfl (Or.inr ⟨_, rfl, rfl, rfl⟩)
  | take_seq c t => exact h.take_seq
  | enter c seq t => exact h.enter
  | preload_sent i t => exact h.spacious.elim
  | preload_failed i t => exact h.spacious.elim
  | paced_sent p t => exact h.same rfl rfl rfl
  | first_failed t => exact h.sending h.spacious rfl rfl (Or.inr ⟨_, rfl, rfl, rfl⟩)
  | burst_failed replies t => exact h.spacious.elim
  | read_stamp p t => exact h.read_stamp
  | stamp p now t => exact h.stamp
  | head_stop t _ => exact h.finish rfl rfl (Or.inr ⟨_, rfl, rfl, rfl⟩)
  | wake_late now t _ => exact h.finish rfl rfl (Or.inl rfl)
  | complain_poll t => exact h.finish rfl rfl (Or.inr ⟨_, rfl, rfl, rfl⟩)
  | complain_recv t => exact h.finish rfl rfl (Or.inr ⟨_, rfl, rfl, rfl⟩)
  | first_reply before t _ => exact h.finish rfl rfl (Or.inl rfl)
  | burst_start before t _ hbsd => exact absurd (hbsd.symm.trans hflood) (by decide)
  | burst_done replies t _ => exact h.spacious.elim
  | burst_stop replies t _ _ => exact h.spacious.elim
  | burst_go replies t _ _ => exact h.spacious.elim
  | read_burst replies t => exact h.spacious.elim
  | burst_late replies now t _ => exact h.spacious.elim
  | burst_call replies now t _ => exact h.spacious.elim
  | read_due t =>
      have hlog : Grows stored t (t.record (.clock .send_if_due)) := Or.inr ⟨_, rfl, rfl, rfl⟩
      exact ⟨⟨h.spacious.1, t.stop, t.log, rfl, h.spacious.2⟩, hlog.spaced h.spaced⟩
  | due_late now t _ => exact h.sending h.spacious.1 rfl rfl (Or.inl rfl)
  | due_early now t _ _ => exact h.due_early
  | due_call now t _ hearly => exact h.due_call hnan hlow hearly
  | _ => first
      | exact h.same rfl rfl rfl
      | exact h.paced rfl rfl rfl (Or.inl rfl)
      | exact h.paced rfl rfl rfl (Or.inr ⟨_, rfl, rfl, rfl⟩)
      | exact h.within rfl rfl rfl (Or.inr ⟨_, rfl, rfl, rfl⟩)

end Flow

-- With an accepted command line of a user who is not root every call of send_one() but the first
-- is authorised by a reading of the clock two milliseconds past last_send, unless the last -i
-- has been given something that is not a number.
theorem unprivileged_sends_spaced {N : Type} (host : Endian) (net : Network N) (monotone : Prop)
    (permutes : Bool) (euid ac : Nat) (av : Argv) (s t : State N) (q : Ping N Unit)
    (heuid : euid ≠ 0) (haccepted : parse_info permutes euid ac av Flags.zero = .ok s.ctx.flags)
    (hnan : ∀ arg, (interval_args (short_options permutes ac av)).getLast? = some arg →
      (strtod arg).value ≠ .nan)
    (h : Reach (world net monotone) (ping_run host, s.fresh) (q, t)) : Every Spaced t.log := by
  obtain ⟨p, hpath⟩ := Flow.ping_run_path host net monotone s.fresh t q h
  obtain ⟨hflags, hflood⟩ := parse_info_unprivileged heuid haccepted
  obtain ⟨hnumber, hlow⟩ := hflags.pace_ge hnan
  have hstart : Flow.Spacing (pace s.ctx.flags) .start s.fresh := ⟨rfl, every_nil _⟩
  have hinv := hpath.invariant (Flow.Spacing (pace s.ctx.flags)) hstart
    fun q t r u hwalk ht he => by
      have hkept : t.ctx.flags = s.ctx.flags := hwalk.ctx_kept.1
      rw [← hkept] at hflood hnumber hlow ht ⊢
      exact ht.edge (by rw [hkept]; exact hflags.preload) hflood rfl hnumber hlow he
  exact hinv.spaced

-- ft_ping -i arg h
def with_interval (arg : CString) : Argv :=
  [some ['f', 't', '_', 'p', 'i', 'n', 'g'], some ['-', 'i'], some arg, some ['h'], none]

theorem unprivileged_sends_spaced_half_second :
    ∃ flags t, parse_info true 1000 4 (with_interval ['0', '.', '5']) Flags.zero = .ok flags ∧
      Reach (world Network.free True) (ping_run .little, (loopback flags).fresh) (.ret (), t) ∧
      (attempts t.log).length = 2 ∧ Every Spaced t.log := by
  have hrun : ((parse_info true 1000 4 (with_interval ['0', '.', '5']) Flags.zero).toOption.bind
      fun flags => (exec (play true) 4 (ping_run .little)
        (⟨[0, 0, 0, 500000000, 500000000, 500000000], [none, none], [(true, .timedOut)], []⟩,
          (loopback flags).fresh)).map fun r => (attempts r.2.2.log).length) = some 2 := by
    decide +kernel
  obtain ⟨flags, hflags, hrun⟩ := Option.bind_eq_some_iff.mp hrun
  obtain ⟨⟨value, k, t⟩, hexec, hcalls⟩ := Option.map_eq_some_iff.mp hrun
  have haccepted := eq_ok_of_toOption hflags
  have hreach := exec_reach (play_plays true True fun _ => rfl) 4 _ _ _ hexec
  have hlast : (interval_args (short_options true 4 (with_interval ['0', '.', '5']))).getLast? =
      some ['0', '.', '5'] := by
    decide +kernel
  refine ⟨flags, t, haccepted, hreach, hcalls, ?_⟩
  refine unprivileged_sends_spaced .little Network.free True true 1000 4 _ (loopback flags) t _
    (by decide) haccepted (fun arg harg => ?_) hreach
  rw [hlast] at harg
  cases harg
  decide +kernel

-- A call directly after a reading that is no later than what was stored after the call before.
def tooSoon : List Entry → Bool
  | entry :: reading :: rest =>
      (sendSite entry.event).isSome && !(attempts (reading :: rest)).isEmpty &&
        stored rest = some reading.now
  | _ => false

theorem not_spaced_of_tooSoon {log : List Entry} {n : Nat} (h : tooSoon (log.drop n) = true) :
    ¬ Every Spaced log := by
  intro hspaced
  have hsuffix := List.drop_suffix n log
  unfold tooSoon at h
  split at h
  · rename_i entry reading rest hlog
    rw [hlog] at hsuffix
    simp only [Bool.and_eq_true, Option.isSome_iff_exists, Bool.not_eq_true',
      List.isEmpty_eq_false_iff, decide_eq_true_eq] at h
    obtain ⟨⟨⟨site, hsite⟩, hearlier⟩, hstored⟩ := h
    obtain ⟨-, now, stop, before, last, hhead, hlast, hgap⟩ :=
      hspaced entry (reading :: rest) hsuffix site hsite hearlier
    cases hhead
    rw [hlast] at hstored
    cases hstored
    linarith
  · cases h

-- -i nan is accepted of anyone, and two datagrams go out at one instant.
theorem nan_interval_unspaced :
    ∃ flags t, parse_info true 1000 4 (with_interval ['n', 'a', 'n']) Flags.zero = .ok flags ∧
      Reach (world Network.free True) (ping_run .little, (loopback flags).fresh) (.ret (), t) ∧
      ¬ Every Spaced t.log := by
  have hrun : ((parse_info true 1000 4 (with_interval ['n', 'a', 'n']) Flags.zero).toOption.bind
      fun flags => (exec (play true) 4 (ping_run .little)
        (⟨[0, 0, 0, 0, 0, 0], [none, none], [(true, .readable)], [.error .EAGAIN]⟩,
          (loopback flags).fresh)).map fun r => tooSoon (r.2.2.log.drop 5)) = some true := by
    decide +kernel
  obtain ⟨flags, hflags, hrun⟩ := Option.bind_eq_some_iff.mp hrun
  obtain ⟨⟨value, k, t⟩, hexec, hsoon⟩ := Option.map_eq_some_iff.mp hrun
  have hreach := exec_reach (play_plays true True fun _ => rfl) 4 _ _ _ hexec
  exact ⟨flags, t, eq_ok_of_toOption hflags, hreach, not_spaced_of_tooSoon hsoon⟩

end FtPing
