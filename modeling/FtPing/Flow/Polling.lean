import FtPing.Flow.Loop
import FtPing.Flow.Waking

namespace FtPing

open Bytes Interaction Numeric

-- Where one of two times is a number, or an infinity, the earlier of them is not NaN.
theorem fmin_ne_nan {due deadline : Double} (h : deadline ≠ .nan) : Double.fmin due deadline ≠ .nan := by
  cases due with
  | nan => exact h
  | finite due =>
      cases deadline with
      | nan => exact absurd rfl h
      | finite deadline =>
          simp only [Double.fmin]
          split_ifs <;> exact fun hnan => by cases hnan
      | _ => exact fun hnan => by cases hnan
  | _ => cases deadline <;> first | exact absurd rfl h | exact fun hnan => by cases hnan

-- So the difference is converted to int only where it fits.
theorem ms_until_range {target : Double} (h : target ≠ .nan) (now : ℚ) :
    0 ≤ ms_until target (.finite now) ∧ ms_until target (.finite now) ≤ 3600000 := by
  cases target with
  | finite target => exact ⟨ms_until_nonneg target now, ms_until_le target now⟩
  | posInf =>
      have hlate : ms_until .posInf (.finite now) = 3600000 := rfl
      rw [hlate]
      decide
  | negInf =>
      have hpast : ms_until .negInf (.finite now) = 0 := rfl
      rw [hpast]
      decide
  | nan => exact absurd rfl h

def InRange (timeout : Int) : Prop := 0 ≤ timeout ∧ timeout ≤ 3600000

namespace Flow

variable {N : Type} {host : Endian} {net : Network N} {monotone : Prop} {s t u : State N}
  {p q : Point}

def scheduled : Point → Bool
  | .start => false
  | .setup => false
  | .limiting _ => false
  | _ => true

-- However the interval came out, the deadline is a number or infinite.
theorem Path.deadline_ne_nan (h : Path host net monotone .start s q t)
    (hq : scheduled q = true) : t.sched.deadline ≠ .nan := by
  refine h.invariant (fun p t => scheduled p = true → t.sched.deadline ≠ .nan) nofun
    (fun p t q u _ ht he => ?_) hq
  cases he with
  | env p _ _ hr =>
      cases hr
      exact ht
  | limited now t =>
      intro _
      rw [State.setSched, limit, now_ms_timespec]
      nofun
  | unlimited t _ => nofun
  | stamp p now t => exact fun _ => ht rfl
  | _ => exact ht

theorem pollTimeout_range (now : Nat) (h : t.sched.deadline ≠ .nan) :
    InRange (pollTimeout now t) := by
  rw [pollTimeout, now_ms_timespec]
  exact ms_until_range (fmin_ne_nan h) _

-- The one timeout that is not in the log yet is that of the call to come.
def about : Point → Int
  | .waiting timeout => timeout
  | _ => 0

structure Polling (p : Point) (t : State N) : Prop where
  about : InRange (about p)
  past : ∀ entry ∈ t.log, ∀ timeout result, entry.event = .polled timeout result → InRange timeout

theorem Polling.same (h : Polling p t) (hq : Flow.about q = 0) (hlog : u.log = t.log) :
    Polling q u := by
  refine ⟨?_, by rw [hlog]; exact h.past⟩
  rw [hq]
  exact ⟨by decide, by decide⟩

theorem Polling.record {entry : Entry} (h : Polling p t) (hq : Flow.about q = 0)
    (hlog : u.log = entry :: t.log)
    (hentry : ∀ timeout result, entry.event = .polled timeout result → timeout = Flow.about p) :
    Polling q u := by
  refine ⟨?_, fun other hother timeout result heq => ?_⟩
  · rw [hq]
    exact ⟨by decide, by decide⟩
  · rw [hlog] at hother
    rcases List.mem_cons.mp hother with rfl | hother
    · rw [hentry timeout result heq]
      exact h.about
    · exact h.past other hother timeout result heq

theorem Path.polling (h : Path host net monotone .start s q t) (hlog : s.log = []) :
    Polling q t := by
  refine h.invariant Polling ⟨⟨by decide, by decide⟩, by rw [hlog]; nofun⟩
    fun p t q u hwalk ht he => ?_
  cases he with
  | env p _ _ hr =>
      cases hr
      exact ⟨ht.about, ht.past⟩
  | scratch p _ buf => exact ⟨ht.about, ht.past⟩
  | wait now t _ => exact ⟨pollTimeout_range now (hwalk.deadline_ne_nan rfl), ht.past⟩
  | poll_readable timeout t => exact ht.record rfl rfl fun _ _ h => by cases h; rfl
  | poll_timedOut timeout t => exact ht.record rfl rfl fun _ _ h => by cases h; rfl
  | poll_interrupted timeout t => exact ht.record rfl rfl fun _ _ h => by cases h; rfl
  | poll_failed timeout errno t _ => exact ht.record rfl rfl fun _ _ h => by cases h; rfl
  | stamp p now t => exact ht.same (by cases p <;> rfl) rfl
  | _ => first
      | exact ht.same rfl rfl
      | exact ht.record rfl rfl nofun

end Flow

-- Whatever the interval and the deadline are, poll() is never told to wait forever, and never
-- for more than an hour.
theorem poll_timeouts_in_range {N : Type} (host : Endian) (net : Network N) (monotone : Prop)
    (ctx : Ctx) (n : N) :
    Safe (world net monotone) (fun t => ∀ entry ∈ t.log, ∀ timeout result,
        entry.event = .polled timeout result → 0 ≤ timeout ∧ timeout ≤ 3600000)
      (fun _ _ => True) (ping_run host) (fun _ _ => True) (.initial ctx n) := by
  refine safe_of_reach fun q t hr => ?_
  obtain ⟨p, hpath⟩ := Flow.ping_run_path host net monotone (.initial ctx n) t q hr
  exact (hpath.polling rfl).past

end FtPing
