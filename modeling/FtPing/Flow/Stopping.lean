import FtPing.Flow.Preload
import FtPing.Script

namespace FtPing

open Bytes History Interaction

def isSendto (event : Event) : Bool := isSent event || isRefused event

-- The calls of sendto() at which the stop flag is set.
def late_sends (log : List Entry) : Nat :=
  log.countP fun entry => entry.stop && isSendto entry.event

-- A test that finds the flag set.
def finds_stop (entry : Entry) : Bool :=
  match entry.event with
  | .stopTested => entry.stop
  | _ => false

def stop_found (log : List Entry) : Bool := log.any finds_stop

-- Nothing is sent once a packet was refused, and nothing is polled once the flag was found set.
def Final (entry : Entry) (earlier : List Entry) : Prop :=
  (isSendto entry.event = true → tally isRefused earlier = 0) ∧
    (isPolled entry.event = true → stop_found earlier = false)

theorem stop_found_cons (entry : Entry) (log : List Entry) :
    stop_found (entry :: log) = (finds_stop entry || stop_found log) :=
  List.any_cons

theorem stop_found_lasting (entry : Entry) (log : List Entry) (h : stop_found log = true) :
    stop_found (entry :: log) = true := by
  rw [stop_found_cons, h, Bool.or_true]

theorem late_sends_cons (entry : Entry) (log : List Entry) :
    late_sends (entry :: log) =
      late_sends log + if entry.stop && isSendto entry.event then 1 else 0 :=
  List.countP_cons

theorem late_sends_miss {entry : Entry} (h : isSendto entry.event = false) (log : List Entry) :
    late_sends (entry :: log) = late_sends log := by
  rw [late_sends_cons, h, Bool.and_false]
  rfl

namespace Flow

variable {N : Type} {host : Endian} {net : Network N} {monotone : Prop} {p q : Point}
  {t u : State N}

-- The log stays as it is or takes one entry, with the clock and the flag of that moment.
theorem Edge.log_cases (he : Edge host net monotone p t q u) :
    u.log = t.log ∨ ∃ event, u.log = ⟨t.now, t.stop, event⟩ :: t.log := by
  cases he with
  | env _ _ _ hr =>
      cases hr
      exact Or.inl rfl
  | _ => first
      | exact Or.inl rfl
      | exact Or.inr ⟨_, rfl⟩

theorem Edge.stop_kept (he : Edge host net monotone p t q u) (h : t.stop = true) :
    u.stop = true := by
  cases he with
  | env _ _ _ hr =>
      cases hr with
      | intro now stop n hnow hstop hnet => exact hstop h
  | _ => first
      | exact h
      | rfl

-- The flag is never cleared, so while it is not set it was never seen set.
theorem Path.unflagged {s : State N} (h : Path host net monotone .start s q t)
    (hlog : s.log = []) (hgo : t.stop = false) : ∀ entry ∈ t.log, entry.stop = false := by
  have hflagged : ∀ entry ∈ t.log, entry.stop = true → t.stop = true := by
    refine h.invariant (fun _ t => ∀ entry ∈ t.log, entry.stop = true → t.stop = true)
      (by rw [hlog]; nofun) fun p t q u _ ht he entry hentry hset => ?_
    rcases he.log_cases with hsame | ⟨event, hgrown⟩
    · rw [hsame] at hentry
      exact he.stop_kept (ht entry hentry hset)
    · rw [hgrown] at hentry
      rcases List.mem_cons.mp hentry with rfl | hentry
      · exact he.stop_kept hset
      · exact he.stop_kept (ht entry hentry hset)
  intro entry hentry
  cases hset : entry.stop with
  | false => rfl
  | true => exact absurd (hgo.symm.trans (hflagged entry hentry hset)) Bool.false_ne_true

theorem late_sends_unflagged {log : List Entry} (h : ∀ entry ∈ log, entry.stop = false) :
    late_sends log = 0 := by
  refine List.countP_eq_zero.mpr fun entry hentry => ?_
  rw [h entry hentry]
  exact Bool.false_ne_true

theorem unfound_unflagged {log : List Entry} (h : ∀ entry ∈ log, entry.stop = false) :
    stop_found log = false := by
  refine List.any_eq_false.mpr fun entry hentry => ?_
  have hclear := h entry hentry
  unfold finds_stop
  split
  · rw [hclear]
    exact Bool.false_ne_true
  · exact Bool.false_ne_true

-- send_per_reply() is only come to with --bsd-flood.
def Caller.replying : Caller → Bool
  | .paced (.send_per_reply _) => true
  | _ => false

def replying : Point → Bool
  | .calling c => c.replying
  | .called c _ => c.replying
  | .opened c _ => c.replying
  | .headed c _ => c.replying
  | .filling c _ _ => c.replying
  | .filled c _ => c.replying
  | .sealed c => c.replying
  | .ready c _ => c.replying
  | .accepted c => c.replying
  | .counted c => c.replying
  | .sent c => c.replying
  | .refused c => c.replying
  | .failed c => c.replying
  | .stamping p => Caller.replying (.paced p)
  | .stamped p _ => Caller.replying (.paced p)
  | .burst _ => true
  | .bursting _ => true
  | .burstTimed _ _ => true
  | _ => false

theorem Path.opted {s : State N} (h : Path host net monotone .start s q t)
    (hq : replying q = true) : s.ctx.flags.bsd_flood = true := by
  refine h.invariant (fun p _ => replying p = true → s.ctx.flags.bsd_flood = true) nofun
    (fun p t q u hwalk ht he => ?_) hq
  have hflags := hwalk.ctx_kept.1
  cases he with
  | burst_start before t _ hflood => exact fun _ => hflags ▸ hflood
  | stamp p now t =>
      cases p with
      | send_per_reply replies => exact fun _ => ht rfl
      | _ => nofun
  | _ => first
      | exact ht
      | exact fun _ => ht rfl

section Refusal

inductive Halt
  | clear
  | halting
  | any

def Paced.halt : Paced → Halt
  | .ping_run => .halting
  | _ => .clear

def halt : Point → Halt
  | .preload _ => .halting
  | .first => .halting
  | .refused _ => .any
  | .failed _ => .any
  | .stamping p => p.halt
  | .stamped p _ => p.halt
  | .head => .halting
  | .finished => .any
  | _ => .clear

def Unrefused : Halt → State N → Prop
  | .clear, t => tally isRefused t.log = 0
  | .halting, t => tally isRefused t.log = 0 ∨ t.stop = true
  | .any, _ => True

structure Refusing (p : Point) (t : State N) : Prop where
  unrefused : Unrefused (halt p) t
  last : Every (fun entry earlier => isSendto entry.event = true → tally isRefused earlier = 0)
    t.log

-- A step on which nothing goes to sendto().
structure Unsent (t u : State N) : Prop where
  stop : t.stop = true → u.stop = true
  log : u.log = t.log ∨ ∃ entry, u.log = entry :: t.log ∧ isSendto entry.event = false

theorem Unsent.refused_eq (h : Unsent t u) : tally isRefused u.log = tally isRefused t.log := by
  rcases h.log with hlog | ⟨entry, hlog, hnone⟩
  · rw [hlog]
  · rw [isSendto, Bool.or_eq_false_iff] at hnone
    rw [hlog, tally_miss hnone.2]

theorem Refusing.into (h : Refusing p t) (hu : Unsent t u)
    (hunrefused : Unrefused (halt q) u) : Refusing q u := by
  refine ⟨hunrefused, h.last.grows (hu.log.imp_right ?_)⟩
  rintro ⟨entry, hlog, hnone⟩
  refine ⟨entry, hlog, fun htrue => ?_⟩
  rw [hnone] at htrue
  cases htrue

theorem Unrefused.unsent {s : Halt} (h : Unrefused s t) (hu : Unsent t u) : Unrefused s u := by
  cases s with
  | clear => exact hu.refused_eq.trans h
  | halting => exact h.imp hu.refused_eq.trans hu.stop
  | any => trivial

theorem Refusing.unsent (h : Refusing p t) (hq : halt q = halt p) (hu : Unsent t u) :
    Refusing q u :=
  h.into hu (by rw [hq]; exact h.unrefused.unsent hu)

-- A test that finds the flag clear shows that nothing was refused.
theorem Refusing.test (h : Refusing p t) (hp : halt p = .halting) (hq : halt q = .clear)
    (hgo : t.stop = false) : Refusing q (t.record .stopTested) := by
  have hu : Unsent t (t.record .stopTested) := ⟨id, Or.inr ⟨_, rfl, rfl⟩⟩
  have hunrefused := h.unrefused
  rw [hp] at hunrefused
  refine h.into hu ?_
  rw [hq]
  exact hu.refused_eq.trans (hunrefused.resolve_right (by rw [hgo]; exact Bool.false_ne_true))

theorem Refusing.edge (h : Refusing p t) (he : Edge host net monotone p t q u) :
    Refusing q u := by
  have hunrefused := h.unrefused
  cases he with
  | env _ _ _ hr =>
      cases hr with
      | intro now stop n hnow hstop hnet => exact h.unsent rfl ⟨hstop, Or.inl rfl⟩
  | limited now t => exact h.into ⟨id, Or.inl rfl⟩ (Or.inl hunrefused)
  | unlimited t _ => exact h.into ⟨id, Or.inl rfl⟩ (Or.inl hunrefused)
  | preload_go i t _ hgo => exact h.test rfl rfl hgo
  | first_go t hgo => exact h.test rfl rfl hgo
  | head_go t hgo => exact h.test rfl rfl hgo
  | transmit c buf t n _ => exact ⟨hunrefused, h.last.cons fun _ => hunrefused⟩
  | refuse c buf t => exact ⟨trivial, h.last.cons fun _ => hunrefused⟩
  | preload_sent i t => exact h.into ⟨id, Or.inl rfl⟩ (Or.inl hunrefused)
  | preload_failed i t => exact h.into ⟨fun _ => rfl, Or.inr ⟨_, rfl, rfl⟩⟩ (Or.inr rfl)
  | first_failed t => exact h.into ⟨fun _ => rfl, Or.inr ⟨_, rfl, rfl⟩⟩ (Or.inr rfl)
  | paced_sent p t =>
      cases p with
      | ping_run => exact h.into ⟨id, Or.inl rfl⟩ (Or.inl hunrefused)
      | _ => exact h.unsent rfl ⟨id, Or.inl rfl⟩
  | stamp p now t =>
      cases p with
      | send_if_due => exact h.into ⟨id, Or.inl rfl⟩ (Or.inl hunrefused)
      | _ => exact h.unsent rfl ⟨id, Or.inl rfl⟩
  | poll_interrupted timeout t =>
      exact h.into ⟨id, Or.inr ⟨_, rfl, rfl⟩⟩ (Or.inl ((tally_miss rfl t.log).trans hunrefused))
  | due_early now t _ _ => exact h.into ⟨id, Or.inl rfl⟩ (Or.inl hunrefused)
  | _ => first
      | exact h.unsent rfl ⟨id, Or.inl rfl⟩
      | exact h.unsent rfl ⟨id, Or.inr ⟨_, rfl, rfl⟩⟩
      | exact h.into ⟨id, Or.inl rfl⟩ trivial
      | exact h.into ⟨id, Or.inr ⟨_, rfl, rfl⟩⟩ trivial

end Refusal

section Lateness

-- How many calls of sendto() may have found the flag set by a point: one that was on its way
-- when it was set, and with --bsd-flood one more, of send_if_due() after send_per_reply().
inductive Lateness
  | none
  | once
  | extra
  | all

def Lateness.most (extra : Nat) : Lateness → Nat
  | .none => 0
  | .once => 1
  | .extra => extra
  | .all => extra + 1

def Caller.lateBefore : Caller → Lateness
  | .paced .send_if_due => .extra
  | _ => .none

def Caller.lateAfter : Caller → Lateness
  | .paced .send_if_due => .all
  | _ => .once

def lateness : Point → Lateness
  | .preload _ => .once
  | .first => .once
  | .calling c => c.lateBefore
  | .called c _ => c.lateBefore
  | .opened c _ => c.lateBefore
  | .headed c _ => c.lateBefore
  | .filling c _ _ => c.lateBefore
  | .filled c _ => c.lateBefore
  | .sealed c => c.lateBefore
  | .ready c _ => c.lateBefore
  | .accepted c => c.lateAfter
  | .counted c => c.lateAfter
  | .sent c => c.lateAfter
  | .refused c => c.lateAfter
  | .failed c => c.lateAfter
  | .stamping p => Caller.lateAfter (.paced p)
  | .stamped p _ => Caller.lateAfter (.paced p)
  | .head => .all
  | .burst _ => .once
  | .due => .extra
  | .dueTimed _ => .extra
  | .finished => .all
  | _ => .none

-- The second one needs --bsd-flood.
def spare (f : Flags) : Nat := if f.bsd_flood then 1 else 0

def Late (p : Point) (t : State N) : Prop :=
  late_sends t.log ≤ (lateness p).most (spare t.ctx.flags)

theorem Late.into (h : Late p t) (hflags : u.ctx.flags = t.ctx.flags) (hu : Unsent t u)
    (hmost : (lateness p).most (spare t.ctx.flags) ≤ (lateness q).most (spare t.ctx.flags)) :
    Late q u := by
  have hsame : late_sends u.log = late_sends t.log := by
    rcases hu.log with hlog | ⟨entry, hlog, hnone⟩
    · rw [hlog]
    · rw [hlog, late_sends_miss hnone]
  rw [Late, hsame, hflags]
  exact Nat.le_trans h hmost

-- Where the flag was just found clear no call has found it set.
theorem Late.test (hnone : ∀ entry ∈ t.log, entry.stop = false) :
    Late q (t.record .stopTested) := by
  rw [Late, State.record, late_sends_miss rfl, late_sends_unflagged hnone]
  exact Nat.zero_le _

theorem Late.send {c : Caller} {event : Event} (h : late_sends t.log ≤
      c.lateBefore.most (spare t.ctx.flags)) :
    late_sends (⟨t.now, t.stop, event⟩ :: t.log) ≤ c.lateAfter.most (spare t.ctx.flags) := by
  have hmore : c.lateBefore.most (spare t.ctx.flags) + 1 ≤
      c.lateAfter.most (spare t.ctx.flags) := by
    cases c with
    | send_preload i => exact Nat.le_refl _
    | paced p => cases p <;> exact Nat.le_refl _
  rw [late_sends_cons]
  split_ifs <;> omega

theorem Late.edge (h : Late p t) (hopted : replying p = true → t.ctx.flags.bsd_flood = true)
    (hunflagged : t.stop = false → ∀ entry ∈ t.log, entry.stop = false)
    (he : Edge host net monotone p t q u) : Late q u := by
  have hspare : replying p = true → spare t.ctx.flags = 1 := fun hp => by
    rw [spare, hopted hp]
    rfl
  cases he with
  | env _ _ _ hr =>
      cases hr with
      | intro now stop n hnow hstop hnet => exact h.into rfl ⟨hstop, Or.inl rfl⟩ (Nat.le_refl _)
  | preload_go i t _ hgo => exact Late.test (hunflagged hgo)
  | first_go t hgo => exact Late.test (hunflagged hgo)
  | head_go t hgo => exact Late.test (hunflagged hgo)
  | burst_go replies t _ hgo => exact Late.test (hunflagged hgo)
  | burst_done replies t _ =>
      exact h.into rfl ⟨id, Or.inl rfl⟩ (by rw [hspare rfl]; exact Nat.le_refl _)
  | burst_stop replies t _ _ =>
      exact h.into rfl ⟨id, Or.inr ⟨_, rfl, rfl⟩⟩ (by rw [hspare rfl]; exact Nat.le_refl _)
  | transmit c buf t n _ => exact Late.send h
  | refuse c buf t => exact Late.send h
  | payload c seq now t =>
      exact h.into (write_payload_kept seq _ t.ctx).1 ⟨id, Or.inl rfl⟩ (Nat.le_refl _)
  | preload_failed i t =>
      exact h.into rfl ⟨fun _ => rfl, Or.inr ⟨_, rfl, rfl⟩⟩ (Nat.le_refl _)
  | first_failed t => exact h.into rfl ⟨fun _ => rfl, Or.inr ⟨_, rfl, rfl⟩⟩ (Nat.le_refl _)
  | stamp p now t =>
      cases p with
      | ping_run => exact h.into rfl ⟨id, Or.inl rfl⟩ (Nat.le_add_left 1 _)
      | _ => exact h.into rfl ⟨id, Or.inl rfl⟩ (Nat.le_refl _)
  | burst_failed replies t => exact h.into rfl ⟨id, Or.inl rfl⟩ (Nat.le_add_left 1 _)
  | due_late now t _ => exact h.into rfl ⟨id, Or.inl rfl⟩ (Nat.le_succ _)
  | due_early now t _ _ => exact h.into rfl ⟨id, Or.inl rfl⟩ (Nat.le_succ _)
  | _ => first
      | exact h.into rfl ⟨id, Or.inl rfl⟩ (Nat.le_refl _)
      | exact h.into rfl ⟨id, Or.inr ⟨_, rfl, rfl⟩⟩ (Nat.le_refl _)
      | exact h.into rfl ⟨id, Or.inl rfl⟩ (Nat.zero_le _)
      | exact h.into rfl ⟨id, Or.inr ⟨_, rfl, rfl⟩⟩ (Nat.zero_le _)

end Lateness

section Return

-- How much may have happened since a test found the flag set; at most points none has.
def Caller.sinceFound : Caller → Nat → Option Nat
  | .paced .send_if_due, count => some count
  | _, _ => none

def Paced.sinceFound : Paced → Nat → Nat → Option Nat
  | .ping_run, first, _ => some first
  | .send_if_due, _, due => some due
  | .send_per_reply _, _, _ => none

def sinceFound : Point → Option Nat
  | .first => some 0
  | .due => some 0
  | .dueTimed _ => some 1
  | .calling c => c.sinceFound 1
  | .called c _ => c.sinceFound 1
  | .opened c _ => c.sinceFound 2
  | .headed c _ => c.sinceFound 2
  | .filling c _ _ => c.sinceFound 3
  | .filled c _ => c.sinceFound 3
  | .sealed c => c.sinceFound 3
  | .ready c _ => c.sinceFound 3
  | .accepted c => c.sinceFound 4
  | .counted c => c.sinceFound 5
  | .sent c => c.sinceFound 6
  | .refused c => c.sinceFound 4
  | .failed c => c.sinceFound 5
  | .stamping p => p.sinceFound 1 6
  | .stamped p _ => p.sinceFound 2 7
  | .head => some 7
  | .finished => some 8
  | _ => none

def Since : Option Nat → State N → Prop
  | none, t => stop_found t.log = false
  | some most, t => since stop_found t.log ≤ most

structure Returning (p : Point) (t : State N) : Prop where
  since : Since (sinceFound p) t
  last : Every (fun entry earlier => isPolled entry.event = true →
    stop_found earlier = false) t.log

-- A step that does not test the flag, and does not poll either.
def Untested (t u : State N) : Prop :=
  u.log = t.log ∨ ∃ entry, u.log = entry :: t.log ∧ finds_stop entry = false ∧
    isPolled entry.event = false

theorem Since.untested (h : Since none t) (hu : Untested t u) : Since none u := by
  rcases hu with hlog | ⟨entry, hlog, hclear, -⟩
  · rw [Since, hlog]
    exact h
  · rw [Since, hlog, stop_found_cons, hclear, Bool.false_or]
    exact h

theorem Since.more {most : Nat} (h : Since (some most) t)
    (hlog : u.log = t.log ∨ ∃ entry, u.log = entry :: t.log) : Since (some (most + 1)) u := by
  rcases hlog with hlog | ⟨entry, hlog⟩
  · rw [Since, hlog]
    exact Nat.le_succ_of_le h
  · rw [Since, hlog]
    exact (since_cons entry t.log).trans (Nat.succ_le_succ h)

-- Nothing has happened yet since the first test that finds the flag set.
theorem Since.found (h : Since none t)
    (hlog : u.log = t.log ∨ ∃ entry, u.log = entry :: t.log) (most : Nat) :
    Since (some most) u := by
  rcases hlog with hlog | ⟨entry, hlog⟩
  · rw [Since, hlog, since_none stop_found_lasting h]
    exact Nat.zero_le _
  · rw [Since, hlog, since_first h]
    exact Nat.zero_le _

theorem Since.weaken {most more : Nat} (h : Since (some most) t) (hle : most ≤ more) :
    Since (some more) t :=
  Nat.le_trans h hle

theorem Since.caller {c : Caller} {count : Nat} (h : Since (c.sinceFound count) t)
    (hu : Untested t u) : Since (c.sinceFound (count + 1)) u := by
  have hlog : u.log = t.log ∨ ∃ entry, u.log = entry :: t.log :=
    hu.imp id fun ⟨entry, hlog, _⟩ => ⟨entry, hlog⟩
  cases c with
  | send_preload i => exact Since.untested h hu
  | paced p =>
      cases p with
      | send_if_due => exact Since.more h hlog
      | _ => exact Since.untested h hu

theorem Returning.into (h : Returning p t)
    (hlog : u.log = t.log ∨ ∃ entry, u.log = entry :: t.log ∧ isPolled entry.event = false)
    (hsince : Since (sinceFound q) u) : Returning q u := by
  refine ⟨hsince, h.last.grows (hlog.imp_right ?_)⟩
  rintro ⟨entry, hlog, hnone⟩
  refine ⟨entry, hlog, fun htrue => ?_⟩
  rw [hnone] at htrue
  cases htrue

theorem Returning.same (h : Returning p t) (hq : sinceFound q = sinceFound p)
    (hlog : u.log = t.log) : Returning q u := by
  refine h.into (Or.inl hlog) ?_
  rw [hq]
  have hsince := h.since
  generalize sinceFound p = most at hsince
  cases most <;> simpa only [Since, hlog] using hsince

theorem Returning.untested (h : Returning p t) (hp : sinceFound p = none)
    (hq : sinceFound q = none) (hu : Untested t u) : Returning q u := by
  have hsince := h.since
  rw [hp] at hsince
  refine h.into (hu.imp id fun ⟨entry, hlog, _, hpolled⟩ => ⟨entry, hlog, hpolled⟩) ?_
  rw [hq]
  exact hsince.untested hu

theorem Returning.found {most : Nat} (h : Returning p t) (hp : sinceFound p = none)
    (hq : sinceFound q = some most)
    (hlog : u.log = t.log ∨ ∃ entry, u.log = entry :: t.log ∧ isPolled entry.event = false) :
    Returning q u := by
  have hsince := h.since
  rw [hp] at hsince
  refine h.into hlog ?_
  rw [hq]
  exact hsince.found (hlog.imp id fun ⟨entry, hlog, _⟩ => ⟨entry, hlog⟩) most

theorem Returning.more {most more : Nat} (h : Returning p t) (hp : sinceFound p = some most)
    (hq : sinceFound q = some more) (hle : most + 1 ≤ more)
    (hlog : u.log = t.log ∨ ∃ entry, u.log = entry :: t.log ∧ isPolled entry.event = false) :
    Returning q u := by
  have hsince := h.since
  rw [hp] at hsince
  refine h.into hlog ?_
  rw [hq]
  exact (hsince.more (hlog.imp id fun ⟨entry, hlog, _⟩ => ⟨entry, hlog⟩)).weaken hle

theorem Returning.polled {timeout : Int} {result : PollResult}
    (h : Returning (.waiting timeout) t)
    (hq : sinceFound q = none ∨ ∃ most, sinceFound q = some most) :
    Returning q (t.record (.polled timeout result)) := by
  have hnone : Since none t := h.since
  refine ⟨?_, h.last.cons fun _ => hnone⟩
  rcases hq with hq | ⟨most, hq⟩
  · rw [hq, Since, State.record, stop_found_cons]
    exact hnone
  · rw [hq]
    exact hnone.found (Or.inr ⟨_, rfl⟩) most

theorem Returning.edge (h : Returning p t)
    (hunflagged : t.stop = false → ∀ entry ∈ t.log, entry.stop = false)
    (he : Edge host net monotone p t q u) : Returning q u := by
  have hgo : t.stop = false → Since none (t.record .stopTested) := fun hclear => by
    rw [Since, State.record, stop_found_cons, unfound_unflagged (hunflagged hclear), Bool.or_false]
    exact hclear
  cases he with
  | env _ _ _ hr =>
      cases hr
      exact h.same rfl rfl
  | preload_go i t _ hclear => exact h.into (Or.inr ⟨_, rfl, rfl⟩) (hgo hclear)
  | preload_stop i t _ => exact h.found rfl rfl (Or.inr ⟨_, rfl, rfl⟩)
  | preload_done i t _ => exact h.found rfl rfl (Or.inl rfl)
  | first_go t hclear => exact h.into (Or.inr ⟨_, rfl, rfl⟩) (hgo hclear)
  | first_stop t _ => exact h.more rfl rfl (Nat.le_refl _) (Or.inr ⟨_, rfl, rfl⟩)
  | enter c seq t =>
      exact h.into (Or.inr ⟨_, rfl, rfl⟩) (h.since.caller (Or.inr ⟨_, rfl, rfl, rfl⟩))
  | read_sent c seq t =>
      exact h.into (Or.inr ⟨_, rfl, rfl⟩) (h.since.caller (Or.inr ⟨_, rfl, rfl, rfl⟩))
  | transmit c buf t n _ =>
      exact h.into (Or.inr ⟨_, rfl, rfl⟩) (h.since.caller (Or.inr ⟨_, rfl, rfl, rfl⟩))
  | refuse c buf t =>
      exact h.into (Or.inr ⟨_, rfl, rfl⟩) (h.since.caller (Or.inr ⟨_, rfl, rfl, rfl⟩))
  | complain_send c t =>
      exact h.into (Or.inr ⟨_, rfl, rfl⟩) (h.since.caller (Or.inr ⟨_, rfl, rfl, rfl⟩))
  | count_sent c t =>
      exact h.into (Or.inr ⟨_, rfl, rfl⟩) (h.since.caller (Or.inr ⟨_, rfl, rfl, rfl⟩))
  | dot c t _ =>
      exact h.into (Or.inr ⟨_, rfl, rfl⟩) (h.since.caller (Or.inr ⟨_, rfl, rfl, rfl⟩))
  | no_dot c t _ => exact h.into (Or.inl rfl) (h.since.caller (Or.inl rfl))
  | paced_sent p t =>
      cases p with
      | ping_run => exact h.found rfl rfl (Or.inl rfl)
      | send_if_due => exact h.same rfl rfl
      | send_per_reply replies => exact h.same rfl rfl
  | first_failed t => exact h.found rfl rfl (Or.inr ⟨_, rfl, rfl⟩)
  | due_failed t => exact h.more rfl rfl (by decide) (Or.inl rfl)
  | read_stamp p t =>
      cases p with
      | ping_run => exact h.more rfl rfl (Nat.le_refl _) (Or.inr ⟨_, rfl, rfl⟩)
      | send_if_due => exact h.more rfl rfl (Nat.le_refl _) (Or.inr ⟨_, rfl, rfl⟩)
      | send_per_reply replies => exact h.untested rfl rfl (Or.inr ⟨_, rfl, rfl, rfl⟩)
  | stamp p now t =>
      cases p with
      | ping_run => exact h.more rfl rfl (by decide) (Or.inl rfl)
      | send_if_due => exact h.same rfl rfl
      | send_per_reply replies => exact h.same rfl rfl
  | head_go t hclear => exact h.into (Or.inr ⟨_, rfl, rfl⟩) (hgo hclear)
  | head_stop t _ => exact h.more rfl rfl (Nat.le_refl _) (Or.inr ⟨_, rfl, rfl⟩)
  | poll_readable timeout t => exact h.polled (Or.inl rfl)
  | poll_timedOut timeout t => exact h.polled (Or.inr ⟨_, rfl⟩)
  | poll_interrupted timeout t => exact h.polled (Or.inr ⟨_, rfl⟩)
  | poll_failed timeout errno t _ => exact h.polled (Or.inl rfl)
  | burst_go replies t _ hclear => exact h.into (Or.inr ⟨_, rfl, rfl⟩) (hgo hclear)
  | burst_stop replies t _ _ => exact h.found rfl rfl (Or.inr ⟨_, rfl, rfl⟩)
  | read_due t => exact h.more rfl rfl (Nat.le_refl _) (Or.inr ⟨_, rfl, rfl⟩)
  | due_late now t _ => exact h.more rfl rfl (by decide) (Or.inl rfl)
  | due_early now t _ _ => exact h.more rfl rfl (by decide) (Or.inl rfl)
  | _ => first
      | exact h.same rfl rfl
      | exact h.untested rfl rfl (Or.inr ⟨_, rfl, rfl, rfl⟩)
      | exact h.found rfl rfl (Or.inl rfl)
      | exact h.found rfl rfl (Or.inr ⟨_, rfl, rfl⟩)

end Return

end Flow

end FtPing
