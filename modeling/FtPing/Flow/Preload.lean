import FtPing.Flow.Balance
import FtPing.History

namespace FtPing

open Bytes History Interaction

def isRefused : Event → Bool
  | .sendFailed _ => true
  | _ => false

def isPolled : Event → Bool
  | .polled _ _ => true
  | _ => false

-- So many datagrams have gone out, and none was refused.
def Sent (count : Nat) (log : List Entry) : Prop :=
  tally isSent log = count ∧ tally isRefused log = 0

theorem Sent.more {count : Nat} {entry : Entry} {log : List Entry} (h : Sent count log)
    (hentry : isSent entry.event = true) (hrefused : isRefused entry.event = false) :
    Sent (count + 1) (entry :: log) :=
  ⟨by rw [tally_hit hentry, h.1], by rw [tally_miss hrefused, h.2]⟩

-- When poll() is called for the first time, so many datagrams have gone out.
def FirstPoll (count : Nat) (entry : Entry) (earlier : List Entry) : Prop :=
  isPolled entry.event = true → tally isPolled earlier = 0 → Sent count earlier

namespace Flow

variable {N : Type}

inductive Course
  | fresh
  | burst (i : Int)
  | before (i : Int)
  | after (i : Int)
  | refused (i : Int)
  | primed
  | priming
  | gone
  | head
  | about
  | past
  | done

def Caller.unsent : Caller → Course
  | .send_preload i => .before i
  | .paced .ping_run => .priming
  | .paced _ => .past

def Caller.passed : Caller → Course
  | .send_preload i => .after i
  | .paced .ping_run => .gone
  | .paced _ => .past

def Caller.denied : Caller → Course
  | .send_preload i => .refused i
  | .paced .ping_run => .done
  | .paced _ => .past

def Paced.stamping : Paced → Course
  | .ping_run => .head
  | _ => .past

def course : Point → Course
  | .start => .fresh
  | .setup => .fresh
  | .limiting _ => .fresh
  | .preload i => .burst i
  | .first => .primed
  | .calling c => c.unsent
  | .called c _ => c.unsent
  | .opened c _ => c.unsent
  | .headed c _ => c.unsent
  | .filling c _ _ => c.unsent
  | .filled c _ => c.unsent
  | .sealed c => c.unsent
  | .ready c _ => c.unsent
  | .accepted c => c.passed
  | .counted c => c.passed
  | .sent c => c.passed
  | .refused c => c.denied
  | .failed c => c.denied
  | .stamping p => p.stamping
  | .stamped p _ => p.stamping
  | .head => .head
  | .waking => .about
  | .woken _ => .about
  | .waiting _ => .about
  | .finished => .done
  | _ => .past

-- How many packets send_preload() sends if nothing stops it.
def burst_size (t : State N) : Nat := t.ctx.flags.preload.toNat

-- The index of the preload loop when a round is about to begin.
def InBurst (i : Int) (t : State N) : Prop := 0 ≤ i ∧ i < t.ctx.flags.preload

def OnCourse : Course → State N → Prop
  | .fresh, t => Sent 0 t.log
  | .burst i, t => 0 ≤ i ∧ i.toNat ≤ burst_size t ∧ (Sent i.toNat t.log ∨ t.stop = true)
  | .before i, t => InBurst i t ∧ Sent i.toNat t.log
  | .after i, t => InBurst i t ∧ Sent (i.toNat + 1) t.log
  | .refused i, t => InBurst i t
  | .primed, t => Sent (burst_size t) t.log ∨ t.stop = true
  | .priming, t => Sent (burst_size t) t.log
  | .gone, t => Sent (burst_size t + 1) t.log
  | .head, t => tally isPolled t.log = 0 → Sent (burst_size t + 1) t.log ∨ t.stop = true
  | .about, t => tally isPolled t.log = 0 → Sent (burst_size t + 1) t.log
  | .past, t => tally isPolled t.log ≠ 0
  | .done, _ => True

structure Opening (p : Point) (t : State N) : Prop where
  onCourse : OnCourse (course p) t
  first : Every (FirstPoll (burst_size t + 1)) t.log

-- A step on which nothing is sent or polled.
structure Still (t u : State N) : Prop where
  flags : u.ctx.flags = t.ctx.flags
  stop : t.stop = true → u.stop = true
  log : u.log = t.log ∨ ∃ entry, u.log = entry :: t.log ∧ isSent entry.event = false ∧
    isRefused entry.event = false ∧ isPolled entry.event = false

variable {p q : Point} {t u : State N}

theorem Still.sent (h : Still t u) (count : Nat) : Sent count u.log ↔ Sent count t.log := by
  rcases h.log with hlog | ⟨entry, hlog, hsent, hrefused, -⟩
  · rw [hlog]
  · rw [hlog, Sent, tally_miss hsent, tally_miss hrefused, Sent]

theorem Still.polled (h : Still t u) : tally isPolled u.log = tally isPolled t.log := by
  rcases h.log with hlog | ⟨entry, hlog, -, -, hpolled⟩
  · rw [hlog]
  · rw [hlog, tally_miss hpolled]

theorem Still.first (h : Still t u) (ht : Every (FirstPoll (burst_size t + 1)) t.log) :
    Every (FirstPoll (burst_size u + 1)) u.log := by
  rw [burst_size, h.flags, ← burst_size]
  refine ht.grows (h.log.imp_right ?_)
  rintro ⟨entry, hlog, -, -, hpolled⟩
  refine ⟨entry, hlog, fun hentry => ?_⟩
  rw [hpolled] at hentry
  cases hentry

theorem Still.onCourse (h : Still t u) {c : Course} (ht : OnCourse c t) : OnCourse c u := by
  cases c with
  | burst i =>
      obtain ⟨hlo, hhi, hsent⟩ := ht
      refine ⟨hlo, by rw [burst_size, h.flags]; exact hhi, ?_⟩
      exact hsent.imp (h.sent _).mpr h.stop
  | primed =>
      rw [OnCourse, burst_size, h.flags]
      exact ht.imp (h.sent _).mpr h.stop
  | head =>
      rw [OnCourse, burst_size, h.flags, h.polled]
      exact fun hnone => (ht hnone).imp (h.sent _).mpr h.stop
  | done => trivial
  | _ => simpa only [OnCourse, InBurst, burst_size, h.flags, h.sent, h.polled] using ht

theorem Opening.still (h : Opening p t) (hq : course q = course p) (hu : Still t u) :
    Opening q u :=
  ⟨by rw [hq]; exact hu.onCourse h.onCourse, hu.first h.first⟩

theorem Opening.into (h : Opening p t) (hu : Still t u) (hcourse : OnCourse (course q) u) :
    Opening q u :=
  ⟨hcourse, hu.first h.first⟩

-- A datagram that goes out, or is refused, after the first poll.
theorem Opening.past {entry : Entry} (h : Opening p t) (hp : course p = .past)
    (hq : course q = .past) (hflags : u.ctx.flags = t.ctx.flags) (hlog : u.log = entry :: t.log)
    (hentry : isPolled entry.event = false) : Opening q u := by
  have hpolled := h.onCourse
  rw [hp] at hpolled
  refine ⟨?_, ?_⟩
  · rw [hq, OnCourse, hlog, tally_miss hentry]
    exact hpolled
  · rw [burst_size, hflags, ← burst_size, hlog]
    refine h.first.cons fun htrue => ?_
    rw [hentry] at htrue
    cases htrue

theorem Opening.transmit {c : Caller} {buf : List UInt8} {n : N} (h : Opening (.ready c buf) t) :
    Opening (.accepted c) { t.record (.sent buf) with net := n } := by
  have hcourse := h.onCourse
  have hfirst : Every (FirstPoll (burst_size t + 1)) (t.record (.sent buf)).log :=
    h.first.cons fun hpolled => by cases hpolled
  cases c with
  | send_preload i => exact ⟨⟨hcourse.1, hcourse.2.more rfl rfl⟩, hfirst⟩
  | paced p =>
      cases p with
      | ping_run => exact ⟨Sent.more hcourse rfl rfl, hfirst⟩
      | send_if_due => exact h.past rfl rfl rfl rfl rfl
      | send_per_reply replies => exact h.past rfl rfl rfl rfl rfl

theorem Opening.refuse {c : Caller} {buf : List UInt8} (h : Opening (.ready c buf) t) :
    Opening (.refused c) (t.record (.sendFailed buf)) := by
  have hcourse := h.onCourse
  have hfirst : Every (FirstPoll (burst_size t + 1)) (t.record (.sendFailed buf)).log :=
    h.first.cons fun hpolled => by cases hpolled
  cases c with
  | send_preload i => exact ⟨hcourse.1, hfirst⟩
  | paced p =>
      cases p with
      | ping_run => exact ⟨trivial, hfirst⟩
      | send_if_due => exact h.past rfl rfl rfl rfl rfl
      | send_per_reply replies => exact h.past rfl rfl rfl rfl rfl

theorem Opening.polled {timeout : Int} {result : PollResult} (h : Opening (.waiting timeout) t)
    (hq : course q = .past ∨ course q = .head) : Opening q (t.record (.polled timeout result)) := by
  have hmore : tally isPolled (t.record (.polled timeout result)).log ≠ 0 := by
    rw [State.record, tally_hit rfl]
    exact Nat.succ_ne_zero _
  refine ⟨?_, h.first.cons fun _ => h.onCourse⟩
  rcases hq with hq | hq
  · rw [hq]
    exact hmore
  · rw [hq]
    exact fun hnone => absurd hnone hmore

theorem Still.refl (t : State N) : Still t t := ⟨rfl, id, Or.inl rfl⟩

-- The preload loop goes into its next round.
theorem Opening.next_round {i : Int} (h : Opening p t) (hround : InBurst i t) (hu : Still t u)
    (hsent : Sent (i.toNat + 1) u.log ∨ u.stop = true) : Opening (.preload (i + 1)) u := by
  obtain ⟨hlo, hhi⟩ := hround
  have hnext : (i + 1).toNat = i.toNat + 1 := by omega
  refine h.into hu ⟨by omega, ?_, by rw [hnext]; exact hsent⟩
  rw [burst_size, hu.flags]
  omega

variable {host : Endian} {net : Network N} {monotone : Prop}

theorem Opening.edge (h : Opening p t) (he : Edge host net monotone p t q u) : Opening q u := by
  have hcourse := h.onCourse
  cases he with
  | env _ _ _ hr =>
      cases hr with
      | intro now stop n hnow hstop hnet => exact h.still rfl ⟨rfl, hstop, Or.inl rfl⟩
  | limited now t =>
      have hu : Still t (t.setSched ⟨pace t.ctx.flags, limit t.ctx.flags (timespec now),
        .finite 0, 0⟩) := ⟨rfl, id, Or.inl rfl⟩
      exact h.into hu ⟨Int.le_refl 0, Nat.zero_le _, Or.inl hcourse⟩
  | unlimited t _ =>
      have hu : Still t (t.setSched ⟨pace t.ctx.flags, .posInf, .finite 0, 0⟩) :=
        ⟨rfl, id, Or.inl rfl⟩
      exact h.into hu ⟨Int.le_refl 0, Nat.zero_le _, Or.inl hcourse⟩
  | preload_go i t hmore hgo =>
      obtain ⟨hlo, hhi, hsent⟩ := hcourse
      have hu : Still t (t.record .stopTested) := ⟨rfl, id, Or.inr ⟨_, rfl, rfl, rfl, rfl⟩⟩
      have hready := hsent.resolve_right (by rw [hgo]; exact Bool.false_ne_true)
      exact h.into hu ⟨⟨hlo, hmore⟩, (hu.sent _).mpr hready⟩
  | preload_stop i t hstop =>
      exact h.into ⟨rfl, id, Or.inr ⟨_, rfl, rfl, rfl, rfl⟩⟩ (Or.inr hstop)
  | preload_done i t hdone =>
      obtain ⟨hlo, hhi, hsent⟩ := hcourse
      have hall : i.toNat = burst_size t := by
        rw [burst_size] at hhi ⊢
        omega
      exact h.into (.refl t) (by rw [hall] at hsent; exact hsent)
  | first_go t hgo =>
      have hu : Still t (t.record .stopTested) := ⟨rfl, id, Or.inr ⟨_, rfl, rfl, rfl, rfl⟩⟩
      have hready := Or.resolve_right hcourse (by rw [hgo]; exact Bool.false_ne_true)
      exact h.into hu ((hu.sent _).mpr hready)
  | first_stop t hstop =>
      exact h.into ⟨rfl, id, Or.inr ⟨_, rfl, rfl, rfl, rfl⟩⟩ fun _ => Or.inr hstop
  | transmit c buf t n _ => exact h.transmit
  | refuse c buf t => exact h.refuse
  | preload_sent i t => exact h.next_round hcourse.1 (.refl t) (Or.inl hcourse.2)
  | preload_failed i t =>
      exact h.next_round hcourse ⟨rfl, fun _ => rfl, Or.inr ⟨_, rfl, rfl, rfl, rfl⟩⟩ (Or.inr rfl)
  | paced_sent p t =>
      cases p with
      | ping_run => exact h.into (.refl t) fun _ => Or.inl hcourse
      | send_if_due => exact h.still rfl (.refl t)
      | send_per_reply replies => exact h.still rfl (.refl t)
  | first_failed t =>
      exact h.into ⟨rfl, fun _ => rfl, Or.inr ⟨_, rfl, rfl, rfl, rfl⟩⟩ fun _ => Or.inr rfl
  | stamp p now t =>
      have hu : Still t (t.stamp (timespec now)) := ⟨rfl, id, Or.inl rfl⟩
      cases p with
      | ping_run => exact h.still rfl hu
      | send_if_due => exact h.into hu fun hnone => absurd hnone hcourse
      | send_per_reply replies => exact h.still rfl hu
  | head_go t hgo =>
      have hu : Still t (t.record .stopTested) := ⟨rfl, id, Or.inr ⟨_, rfl, rfl, rfl, rfl⟩⟩
      refine h.into hu fun hnone => (hu.sent _).mpr ?_
      rw [hu.polled] at hnone
      exact (hcourse hnone).resolve_right (by rw [hgo]; exact Bool.false_ne_true)
  | poll_readable timeout t => exact h.polled (Or.inl rfl)
  | poll_timedOut timeout t => exact h.polled (Or.inl rfl)
  | poll_interrupted timeout t => exact h.polled (Or.inr rfl)
  | poll_failed timeout errno t _ => exact h.polled (Or.inl rfl)
  | due_early now t _ _ => exact h.into (.refl t) fun hnone => absurd hnone hcourse
  | payload c seq now t =>
      exact h.still rfl ⟨(write_payload_kept seq _ t.ctx).1, id, Or.inl rfl⟩
  | fault before d line t _ =>
      exact h.still rfl ⟨rfl, id, Or.inr ⟨_, rfl, rfl, rfl, rfl⟩⟩
  | head_stop t _ => exact h.into ⟨rfl, id, Or.inr ⟨_, rfl, rfl, rfl, rfl⟩⟩ trivial
  | _ => first
      | exact h.still rfl ⟨rfl, id, Or.inl rfl⟩
      | exact h.still rfl ⟨rfl, id, Or.inr ⟨_, rfl, rfl, rfl, rfl⟩⟩
      | exact h.into ⟨rfl, id, Or.inl rfl⟩ trivial
      | exact h.into ⟨rfl, id, Or.inr ⟨_, rfl, rfl, rfl, rfl⟩⟩ trivial

end Flow

end FtPing
