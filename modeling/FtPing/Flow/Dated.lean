import FtPing.Flow.Honest
import FtPing.Flow.Measure
import FtPing.Flow.Polling

namespace FtPing

open Bytes History Interaction Numeric

theorem origin_cons {entry : Entry} {log : List Entry} (h : log ≠ []) :
    origin (entry :: log) = origin log := by
  cases log with
  | nil => exact absurd rfl h
  | cons before rest => rfl

namespace Flow

variable {N : Type} {host : Endian} {net : Network N} {monotone : Prop} {s t u : State N}
  {p q : Point}

-- The deadline counts from the first reading of the run.
def Dated (timeout : Int) : Point → State N → Prop
  | .start, t => t.log = []
  | .setup, t => t.log = []
  | .limiting now, t => ∃ stop, t.log = [⟨now, stop, .clock .sched_init⟩]
  | _, t => t.log ≠ [] ∧ t.sched.deadline = .finite (ms (origin t.log) + 1000 * timeout)

theorem Path.dated (h : Path host net monotone .start s q t) (hlog : s.log = [])
    (htimeout : s.ctx.flags.has_timeout = true) : Dated s.ctx.flags.timeout q t := by
  refine h.invariant (Dated s.ctx.flags.timeout) hlog fun p t q u hwalk ht he => ?_
  have hflags := hwalk.ctx_kept.1
  have hmore : ∀ {t : State N} (event : Event), (t.log ≠ [] ∧ t.sched.deadline =
      .finite (ms (origin t.log) + 1000 * s.ctx.flags.timeout)) → (t.record event).log ≠ [] ∧
      (t.record event).sched.deadline =
        .finite (ms (origin (t.record event).log) + 1000 * s.ctx.flags.timeout) :=
    fun event ht => by
      refine ⟨List.cons_ne_nil _ _, ?_⟩
      rw [State.record, origin_cons ht.1]
      exact ht.2
  cases he with
  | env p t _ hr =>
      cases hr
      cases p <;> exact ht
  | scratch p t buf => cases p <;> exact ht
  | read_limit t _ =>
      have hnone : t.log = [] := ht
      exact ⟨t.stop, congrArg (_ :: ·) hnone⟩
  | limited now t =>
      obtain ⟨stop, hone⟩ := ht
      refine ⟨?_, ?_⟩
      · change t.log ≠ []
        rw [hone]
        exact List.cons_ne_nil _ _
      · change limit t.ctx.flags (timespec now) = .finite (ms (origin t.log) + _)
        rw [hone, limit, now_ms_timespec, hflags]
        rfl
  | unlimited t hnone =>
      rw [hflags, htimeout] at hnone
      cases hnone
  | stamp p now t => cases p <;> exact ht
  | _ => first
      | exact ht
      | exact hmore _ ht

-- A call of poll() directly follows a reading of the clock that is before the deadline.
def Asked (flags : Flags) (entry : Entry) (earlier : List Entry) : Prop :=
  ∀ wait result, entry.event = .polled wait result →
    ∃ now stop rest, earlier = ⟨now, stop, .clock .loop_once⟩ :: rest ∧
      (flags.has_timeout = true → ms now < ms (origin earlier) + 1000 * flags.timeout)

def Looking (flags : Flags) : Point → State N → Prop
  | .woken now, t => ∃ stop rest, t.log = ⟨now, stop, .clock .loop_once⟩ :: rest
  | .waiting _, t => ∃ now stop rest, t.log = ⟨now, stop, .clock .loop_once⟩ :: rest ∧
      (flags.has_timeout = true → ms now < ms (origin t.log) + 1000 * flags.timeout)
  | _, _ => True

structure Asking (flags : Flags) (p : Point) (t : State N) : Prop where
  looking : Looking flags p t
  asked : Every (Asked flags) t.log

variable {flags : Flags}

theorem Asking.same (h : Asking flags p t) (hq : ∀ v : State N, Looking flags q v)
    (hlog : u.log = t.log) : Asking flags q u :=
  ⟨hq u, by rw [hlog]; exact h.asked⟩

theorem Asking.more {event : Event} (h : Asking flags p t)
    (hq : Looking flags q u) (hlog : u.log = ⟨t.now, t.stop, event⟩ :: t.log)
    (hevent : ∀ wait result, event ≠ .polled wait result) : Asking flags q u := by
  refine ⟨hq, ?_⟩
  rw [hlog]
  exact h.asked.cons fun wait result hpolled => absurd hpolled (hevent wait result)

theorem Asking.polled {wait : Int} {result : PollResult} (h : Asking flags (.waiting wait) t)
    (hq : Looking flags q (t.record (.polled wait result))) :
    Asking flags q (t.record (.polled wait result)) :=
  ⟨hq, h.asked.cons fun _ _ _ => h.looking⟩

theorem Path.asking (h : Path host net monotone .start s q t) (hlog : s.log = []) :
    Asking s.ctx.flags q t := by
  refine h.invariant (Asking s.ctx.flags) ⟨trivial, by rw [hlog]; exact every_nil _⟩
    fun p t q u hwalk ht he => ?_
  cases he with
  | env p t _ hr =>
      cases hr
      exact ⟨by cases p <;> exact ht.looking, ht.asked⟩
  | scratch p t buf => exact ⟨by cases p <;> exact ht.looking, ht.asked⟩
  | stamp p now t => exact ht.same (fun _ => by cases p <;> trivial) rfl
  | read_wake t => exact ht.more ⟨t.stop, t.log, rfl⟩ rfl fun _ _ h => by cases h
  | wait now t hlate =>
      obtain ⟨stop, rest, hhead⟩ := ht.looking
      refine ⟨⟨now, stop, rest, hhead, fun htimeout => ?_⟩, ht.asked⟩
      obtain ⟨-, hdeadline⟩ := hwalk.dated hlog htimeout
      rw [Flow.late, now_ms_timespec, hdeadline, Double.ge, Double.le_finite,
        decide_eq_false_iff_not, not_le] at hlate
      exact hlate
  | poll_readable wait t => exact ht.polled trivial
  | poll_timedOut wait t => exact ht.polled trivial
  | poll_interrupted wait t => exact ht.polled trivial
  | poll_failed wait errno t _ => exact ht.polled trivial
  | _ => first
      | exact ht.same (fun _ => trivial) rfl
      | exact ht.more trivial rfl fun _ _ h => by cases h

end Flow

end FtPing
