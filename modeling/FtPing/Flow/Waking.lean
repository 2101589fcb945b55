import FtPing.Core.Context
import FtPing.Core.Loop
import FtPing.Net.WireImage

namespace FtPing

open Bytes Interaction Numeric

section Timeout

variable {target now : ℚ}

theorem ms_until_finite (target now : ℚ) :
    ms_until (.finite target) (.finite now) =
      if target - now < 0 then 0
      else if PING_POLL_MAX_MS < target - now then 3600000 else ⌈target - now⌉ := by
  simp [ms_until, Double.sub, Double.neg, Double.gt, intOfCeil, sub_eq_add_neg]

theorem ms_until_nonneg (target now : ℚ) : 0 ≤ ms_until (.finite target) (.finite now) := by
  rw [ms_until_finite]
  split_ifs with hpast hlong
  · exact le_rfl
  · decide
  · exact Int.ceil_nonneg (not_lt.mp hpast)

theorem ms_until_le (target now : ℚ) : ms_until (.finite target) (.finite now) ≤ 3600000 := by
  rw [ms_until_finite]
  split_ifs with hpast hlong
  · decide
  · exact le_rfl
  · apply Int.ceil_le.mpr
    have hshort := not_lt.mp hlong
    simpa [PING_POLL_MAX_MS] using hshort

-- poll() returns at once only for a target that is not in the future.
theorem target_le_of_ms_until (h : ms_until (.finite target) (.finite now) = 0) :
    target ≤ now := by
  rw [ms_until_finite] at h
  split_ifs at h with hpast hlong
  · linarith
  · exact absurd h (by decide)
  · have hceil := Int.le_ceil (target - now)
    rw [h, Int.cast_zero] at hceil
    linarith

theorem ms_until_lt (h : now ≤ target) :
    (ms_until (.finite target) (.finite now) : ℚ) < target - now + 1 := by
  rw [ms_until_finite, if_neg (by linarith)]
  split_ifs with hlong
  · simp only [PING_POLL_MAX_MS] at hlong
    push_cast
    linarith
  · exact Int.ceil_lt_add_one _

-- Waiting for so long is long enough, up to the clamp.
theorem le_ms_until (h : target - now ≤ 3600000) :
    target - now ≤ ms_until (.finite target) (.finite now) := by
  rw [ms_until_finite]
  split_ifs with hpast hlong
  · push_cast
    exact hpast.le
  · push_cast
    exact h
  · exact Int.le_ceil _

end Timeout

-- The instant that loop_once() waits for, of a schedule with a finite interval.
theorem fmin_target (due : ℚ) {deadline : Double} {now : ℚ}
    (h : Double.lt (.finite now) deadline = true) :
    ∃ target, Double.fmin (.finite due) deadline = .finite target ∧
      (target = due ∨ deadline = .finite target) ∧ target ≤ due ∧
      Double.le (.finite target) deadline = true := by
  cases deadline with
  | finite d =>
      by_cases hless : due < d
      · refine ⟨due, by simp [Double.fmin, hless], Or.inl rfl, le_rfl, ?_⟩
        simpa using hless.le
      · exact ⟨d, by simp [Double.fmin, hless], Or.inr rfl, not_lt.mp hless, by simp⟩
  | posInf => exact ⟨due, rfl, Or.inl rfl, le_rfl, rfl⟩
  | negInf => cases h
  | nan => cases h

-- loop_once() has waited for `timeout`, and nothing has come.
def waited (s : State Unit) (now : Nat) (timeout : Int) (sigint : Bool) : State Unit :=
  { { s with now := now }.record (.clock .loop_once) with stop := s.stop || sigint }.record
    (.polled timeout .timedOut)

section Exec

variable (host : Endian) (s : State Unit) (now later sent_at stamped : Nat)
  (outcome : Option Errno) (clock : List Nat) (sends : List (Option Errno)) (sigint : Bool)
  (polls : List (Bool × PollResult)) (recvs : List (Except Errno Datagram)) (fuel : Nat)

theorem exec_loop_once_timedOut {target : Double}
    (htarget : Double.fmin (s.sched.last_send.add s.sched.interval) s.sched.deadline = target)
    (h : Double.ge (.finite (ms now)) s.sched.deadline = false) :
    exec (play false) fuel (loop_once host)
        (⟨now :: clock, sends, (sigint, .timedOut) :: polls, recvs⟩, s) =
      exec (play false) fuel (send_if_due host)
        (⟨clock, sends, polls, recvs⟩,
          waited s now (ms_until target (.finite (ms now))) sigint) := by
  simp only [loop_once, clock_gettime, poll, Prog.get, Prog.bind_eq, Prog.act_bind, Prog.ret_bind,
    exec_bind, exec_perform, exec_act, play, Bool.false_eq_true, false_and, ite_false,
    Option.bind_some, now_ms_timespec, State.record, h, htarget]
  rfl

theorem exec_send_if_due_late
    (h : Double.ge (.finite (ms later)) s.sched.deadline = true) :
    exec (play false) fuel (send_if_due host) (⟨later :: clock, sends, polls, recvs⟩, s) =
      some (-1, ⟨clock, sends, polls, recvs⟩,
        { s with now := later }.record (.clock .send_if_due)) := by
  simp only [send_if_due, clock_gettime, Prog.get, Prog.bind_eq, Prog.act_bind, Prog.ret_bind,
    Prog.pure_eq, exec_bind, exec_perform, exec_act, play, Bool.false_eq_true, false_and, ite_false,
    Option.bind_some, now_ms_timespec, State.record, h, ite_true, exec_ret]

theorem exec_send_if_due_due
    (hlate : Double.ge (.finite (ms later)) s.sched.deadline = false)
    (hdue : Double.lt (.finite (ms later)) (s.sched.last_send.add s.sched.interval) = false) :
    ∃ rc k u wire, exec (play false) fuel (send_if_due host)
        (⟨later :: sent_at :: stamped :: clock, outcome :: sends, polls, recvs⟩, s) =
        some (rc, k, u) ∧ handed u.log = wire :: handed s.log := by
  obtain ⟨rc, t, hexec, -, hhanded⟩ := exec_send_one_handed host
    (({ s with now := later }.record (.clock .send_if_due)).setSched
      { s.sched with seq := s.sched.seq + 1 }) .send_if_due s.sched.seq sent_at outcome
      (stamped :: clock) sends polls recvs fuel
  have hsent : ∃ k u, exec (play false) fuel
      (if rc = -1 then .ret (-1) else (stamp_last_send .send_if_due_sent).bind fun _ => .ret 0 :
        Ping Unit Int) (⟨stamped :: clock, sends, polls, recvs⟩, t) =
      some (if rc = -1 then -1 else 0, k, u) ∧ handed u.log = handed t.log := by
    split_ifs
    · exact ⟨_, t, rfl, rfl⟩
    · exact ⟨_, _, rfl, rfl⟩
  obtain ⟨k, u, hrest, hsame⟩ := hsent
  have hstep : exec (play false) fuel (send_if_due host)
      (⟨later :: sent_at :: stamped :: clock, outcome :: sends, polls, recvs⟩, s) =
      (exec (play false) fuel (send_one host .send_if_due s.sched.seq)
        (⟨sent_at :: stamped :: clock, outcome :: sends, polls, recvs⟩,
          ({ s with now := later }.record (.clock .send_if_due)).setSched
            { s.sched with seq := s.sched.seq + 1 })).bind fun r =>
        exec (play false) fuel (if r.1 = -1 then .ret (-1)
          else (stamp_last_send .send_if_due_sent).bind fun _ => .ret 0 : Ping Unit Int) r.2 := by
    simp only [send_if_due, next_seq, clock_gettime, Prog.get, Prog.bind_eq, Prog.act_bind,
      Prog.ret_bind, Prog.pure_eq, exec_bind, exec_perform, exec_act, play, Bool.false_eq_true,
      false_and, ite_false, Option.bind_some, now_ms_timespec, State.record, hlate, hdue]
  rw [hexec, Option.bind_some, hrest] at hstep
  exact ⟨_, k, u, _, hstep, hsame.trans hhanded⟩

end Exec

-- Between two instants before and at the deadline.
theorem not_ge_of_lt {now : ℚ} {deadline : Double} (h : Double.lt (.finite now) deadline = true) :
    Double.ge (.finite now) deadline = false := by
  cases deadline with
  | finite d => simpa [Double.ge] using h
  | posInf => rfl
  | negInf => cases h
  | nan => cases h

-- Once the target has come, either the deadline has or the next packet is due.
theorem due_of_target {due target later : ℚ} {deadline : Double}
    (htarget : target = due ∨ deadline = .finite target) (h : target ≤ later)
    (hlate : Double.ge (.finite later) deadline = false) :
    Double.lt (.finite later) (.finite due) = false := by
  rcases htarget with rfl | rfl
  · simpa using h
  · rw [Double.ge, Double.le_finite, decide_eq_false_iff_not] at hlate
    exact absurd h hlate

-- The time that poll() is given is neither zero before the target nor a whole millisecond more
-- than what is left; and a loop_once() in which it runs out sends a packet, or ends the run at
-- the deadline.
theorem loop_neither_spins_nor_oversleeps (host : Endian) (interval last : ℚ)
    (deadline : Double) :
    (∀ now : ℚ, Double.lt (.finite now) deadline = true →
      ∃ target, Double.fmin (.finite (last + interval)) deadline = .finite target ∧
        target ≤ last + interval ∧ Double.le (.finite target) deadline = true ∧
        0 ≤ ms_until (.finite target) (.finite now) ∧
        ms_until (.finite target) (.finite now) ≤ 3600000 ∧
        (ms_until (.finite target) (.finite now) = 0 → target ≤ now) ∧
        (now ≤ target → (ms_until (.finite target) (.finite now) : ℚ) < target - now + 1)) ∧
    ∀ (s : State Unit) (now later sent_at stamped : Nat) (outcome : Option Errno)
      (clock : List Nat) (sends : List (Option Errno)) (sigint : Bool)
      (polls : List (Bool × PollResult)) (recvs : List (Except Errno Datagram)) (fuel : Nat)
      (target : ℚ) (t : Int),
      s.sched.interval = .finite interval → s.sched.last_send = .finite last →
      s.sched.deadline = deadline → Double.lt (.finite (ms now)) deadline = true →
      Double.fmin (.finite (last + interval)) deadline = .finite target →
      t = ms_until (.finite target) (.finite (ms now)) →
      ms now + t ≤ ms later → target - ms now ≤ 3600000 →
      exec (play false) fuel (loop_once host) (⟨now :: later :: sent_at :: stamped :: clock,
          outcome :: sends, (sigint, .timedOut) :: polls, recvs⟩, s) =
        exec (play false) fuel (send_if_due host) (⟨later :: sent_at :: stamped :: clock,
          outcome :: sends, polls, recvs⟩, waited s now t sigint) ∧
      ∃ rc k u, exec (play false) fuel (loop_once host) (⟨now :: later :: sent_at :: stamped ::
          clock, outcome :: sends, (sigint, .timedOut) :: polls, recvs⟩, s) = some (rc, k, u) ∧
        (rc = -1 ∧ Double.ge (.finite (ms later)) deadline = true ∧ handed u.log = handed s.log ∨
          Double.ge (.finite (ms later)) deadline = false ∧
            ∃ wire, handed u.log = wire :: handed s.log) := by
  refine ⟨fun now hnow => ?_, ?_⟩
  · obtain ⟨target, hmin, -, hdue, hdeadline⟩ := fmin_target (last + interval) hnow
    exact ⟨target, hmin, hdue, hdeadline, ms_until_nonneg target now, ms_until_le target now,
      target_le_of_ms_until, ms_until_lt⟩
  · intro s now later sent_at stamped outcome clock sends sigint polls recvs fuel target t
      hinterval hlast hdeadline hnow hmin ht hslept hshort
    have htarget : Double.fmin (s.sched.last_send.add s.sched.interval) s.sched.deadline =
        .finite target := by
      rw [hinterval, hlast, hdeadline, Double.add_finite, hmin]
    have hwait := exec_loop_once_timedOut host s now (later :: sent_at :: stamped :: clock)
      (outcome :: sends) sigint polls recvs fuel htarget
      (by rw [hdeadline]; exact not_ge_of_lt hnow)
    rw [← ht] at hwait
    refine ⟨hwait, ?_⟩
    rw [hwait]
    have hreached : target ≤ ms later := by
      have hlong := le_ms_until hshort
      rw [← ht] at hlong
      linarith
    cases hlate : Double.ge (.finite (ms later)) deadline with
    | true => exact ⟨-1, _, _, exec_send_if_due_late host (waited s now t sigint) later _ _ polls
        recvs fuel (by rw [← hlate, ← hdeadline]; rfl), Or.inl ⟨rfl, rfl, rfl⟩⟩
    | false =>
        obtain ⟨target', hmin', hwhich, -⟩ := fmin_target (last + interval) hnow
        cases hmin'.symm.trans hmin
        have hdue := due_of_target hwhich hreached hlate
        obtain ⟨rc, k, u, wire, hexec, hhanded⟩ := exec_send_if_due_due host
          (waited s now t sigint) later sent_at stamped outcome clock sends polls recvs fuel
          (by rw [← hlate, ← hdeadline]; rfl)
          (by rw [← hdue, ← Double.add_finite, ← hlast, ← hinterval]; rfl)
        exact ⟨rc, k, u, hexec, Or.inr ⟨rfl, wire, hhanded⟩⟩

-- A probe a second: 0.4 ms before the next one is due, poll() is given a millisecond.
theorem loop_neither_spins_nor_oversleeps_rounded :
    ∃ rc k u wire, exec (play false) 0 (loop_once .little)
        (⟨[999600000, 1000600000, 1000600000, 1000700000], [none], [(false, .timedOut)], []⟩,
          (loopback Flags.zero).setSched ⟨.finite 1000, .posInf, .finite 0, 1⟩) =
        some (rc, k, u) ∧ handed u.log = [wire] := by
  obtain ⟨-, rc, k, u, hexec, hcases⟩ := (loop_neither_spins_nor_oversleeps .little 1000 0
    .posInf).2 ((loopback Flags.zero).setSched ⟨.finite 1000, .posInf, .finite 0, 1⟩) 999600000
    1000600000 1000600000 1000700000 none [] [] false [] [] 0 1000 1 rfl rfl rfl rfl
    (by decide +kernel) (by decide +kernel) (by decide +kernel) (by decide +kernel)
  rcases hcases with ⟨-, hlate, -⟩ | ⟨-, wire, hhanded⟩
  · cases hlate
  · exact ⟨rc, k, u, wire, hexec, hhanded⟩

end FtPing
