import FtPing.Core.Context
import FtPing.Flow.Graph
import FtPing.Flow.Progress

namespace FtPing

open Bytes Interaction Numeric

-- poll() is entered with the stop flag set and time to wait.
def asleep (entry : Entry) : Bool :=
  match entry.event with
  | .polled timeout _ => entry.stop && decide (0 < timeout)
  | _ => false

-- What a pass of the loop, or what comes before the first one, ends with.
def passEnd : Event → Bool
  | .clock .ping_run => true
  | .clock .send_if_due => true
  | .clock .send_if_due_sent => true
  | .polled _ (.failed .EINTR) => true
  | _ => false

def at_head : List Entry → Bool
  | [] => false
  | entry :: _ => passEnd entry.event

-- Between the test at the head of the loop that finds the flag clear, and poll().
def in_window : List Entry → Bool
  | ⟨_, stop, .stopTested⟩ :: earlier => !stop && at_head earlier
  | ⟨_, _, .clock .loop_once⟩ :: _ => true
  | _ => false

-- What loop_once() takes for the present: its reading, if it has taken it.
def present : List Entry → Nat → Nat
  | ⟨reading, _, .clock .loop_once⟩ :: _, _ => reading
  | _, now => now

-- What is over by one reading of the clock is over by any later one.
theorem ms_until_mono (target : Numeric.Double) {first second : ℚ} (h : first ≤ second)
    (hover : ms_until target (.finite first) ≤ 0) : ms_until target (.finite second) ≤ 0 := by
  cases target with
  | finite target =>
      have hdiff : ∀ now, (Double.finite target).sub (.finite now) = .finite (target - now) :=
        fun now => by rw [sub_eq_add_neg]; rfl
      simp only [ms_until, hdiff, Double.gt, Double.lt_finite, decide_eq_true_eq,
        PING_POLL_MAX_MS] at hover ⊢
      by_cases hpast : target - second < 0
      · rw [if_pos hpast]
      · rw [if_neg (by linarith)] at hover
        split_ifs at hover with hmax
        · cases hover
        · have hzero : target - first ≤ 0 := by
            simpa only [intOfCeil, Int.ceil_le, Int.cast_zero] using hover
          rw [if_neg hpast, if_neg (by linarith), intOfCeil, Int.ceil_le, Int.cast_zero]
          linarith
  | posInf => exact hover
  | negInf => exact hover
  | nan => exact hover

namespace Flow

variable {N : Type} {net : Network N} {s t u : State N}

theorem pollTimeout_mono {first second : Nat} (h : first ≤ second)
    (hover : pollTimeout first s ≤ 0) : pollTimeout second s ≤ 0 := by
  rw [pollTimeout, now_ms_timespec] at hover ⊢
  exact ms_until_mono _ (ms_le_ms h) hover

end Flow

section Attentive

variable {N : Type} (net : Network N)

-- SIGINT does not come in the window while there is time to wait.
def Prompt (s t : State N) : Prop :=
  s.stop = false → t.stop = true → in_window s.log = true →
    Flow.pollTimeout (present s.log t.now) s ≤ 0

variable {net} {s t u : State N}

theorem present_mono {log : List Entry} {first second : Nat} (h : first ≤ second) :
    present log first ≤ present log second := by
  unfold present
  split
  · exact Nat.le_refl _
  · exact h

theorem present_le {log : List Entry} {first second : Nat} (h : first ≤ second)
    (hpast : present log first ≤ first) : present log second ≤ second := by
  unfold present at hpast ⊢
  split at hpast
  · exact hpast.trans h
  · exact Nat.le_refl _

theorem Prompt.refl (s : State N) : Prompt s s := by
  intro hclear hset
  rw [hclear] at hset
  cases hset

theorem Prompt.trans (h : Prompt s t) (h' : Prompt t u) (hst : Rely net True s t)
    (htu : Rely net True t u) : Prompt s u := by
  intro hclear hset hwindow
  cases hst with
  | intro now stop n hnow hstop hnet =>
      cases htu with
      | intro now' stop' n' hnow' hstop' hnet' =>
          cases hmid : stop with
          | true =>
              exact Flow.pollTimeout_mono (present_mono (hnow' trivial)) (h hclear hmid hwindow)
          | false => exact h' hmid hset hwindow

-- The world in which every step meets that.
def attentive (net : Network N) : World (State N) Sys Ans where
  rely s t := Rely net True s t ∧ Prompt s t
  sys := Perform net
  rely_refl s := ⟨.refl net True s, .refl s⟩
  rely_trans _ _ _ h h' := ⟨.trans net True _ _ _ h.1 h'.1, h.2.trans h'.2 h.1 h'.1⟩

-- No poll() has been slept through yet.
def Awake (t : State N) : Prop := t.log.any asleep = false

theorem Awake.stable (h : Awake s) (hr : (attentive net).rely s t) : Awake t := by
  cases hr.1
  exact h

theorem Awake.kept (h : Awake s) (hk : Kept s t) : Awake t := by
  rw [Awake, hk.log]
  exact h

theorem Awake.record {event : Event} (h : Awake s)
    (hlog : t.log = ⟨s.now, s.stop, event⟩ :: s.log)
    (hevent : asleep ⟨s.now, s.stop, event⟩ = false) : Awake t := by
  rw [Awake, hlog, List.any_cons, hevent, Bool.false_or]
  exact h

theorem Awake.unpolled {e : Sys} {a : Ans e} (h : Awake s) (he : polls e = false)
    (hsys : Perform net e s a t) : Awake t := by
  cases hsys with
  | poll timeout => cases he
  | load offset length => exact h
  | store offset bytes => exact h
  | _ => exact h.record rfl rfl

-- Nothing but poll() can be slept through.
theorem Unpolled.awake {α : Type} {p : Ping N α} (h : Unpolled p) (hs : Awake s) :
    Safe (attentive net) Awake (fun _ _ => True) p (fun _ t => Awake t) s :=
  Disciplined.safe Awake (fun _ _ ht hr => ht.stable hr) (fun _ _ ht hk => ht.kept hk)
    (fun _ _ _ _ ht he hsys => ht.unpolled he hsys) (fun _ ht => ht) h hs

section Rules

variable {α β : Type} {post : α → State N → Prop}

theorem awake_ret {value : α} (hs : Awake s) (hpost : ∀ t, Awake t → post value t) :
    Safe (attentive net) Awake (fun _ _ => True) (.ret value : Ping N α) post s :=
  safe_ret (fun _ _ ht hr => Awake.stable ht hr) (fun _ ht => ht) hs hpost

theorem awake_bind {p : Ping N β} {f : β → Ping N α} (h : Unpolled p) (hs : Awake s)
    (hnext : ∀ b t, Awake t → Safe (attentive net) Awake (fun _ _ => True) (f b) post t) :
    Safe (attentive net) Awake (fun _ _ => True) (p.bind f) post s :=
  safe_bind ((h.awake hs).mono hnext)

end Rules

-- A pass has ended, or the loop with `rc`.
def Passed (rc : Int) (t : State N) : Prop := Awake t ∧ (rc = -1 ∨ at_head t.log = true)

theorem Passed.stable {rc : Int} (h : Passed rc s) (hr : (attentive net).rely s t) :
    Passed rc t := by
  refine ⟨h.1.stable hr, ?_⟩
  cases hr.1
  exact h.2

theorem passed_ret {rc : Int} (hs : Passed 0 s) :
    Safe (attentive net) Awake (fun _ _ => True) (.ret rc : Ping N Int) Passed s := by
  refine safe_ret (fun _ _ ht hr => Passed.stable ht hr) (fun _ ht => ht.1) hs fun t ht => ?_
  exact ⟨ht.1, Or.inr (ht.2.resolve_left (by decide))⟩

theorem ended (hs : Awake s) :
    Safe (attentive net) Awake (fun _ _ => True) (.ret (-1) : Ping N Int) Passed s :=
  awake_ret hs fun _ ht => ⟨ht, Or.inl rfl⟩

theorem passed_clock {site : ClockSite} (hsite : passEnd (.clock site) = true) (hs : Awake s) :
    Passed 0 (s.record (.clock site)) :=
  ⟨hs.record rfl rfl, Or.inr hsite⟩

variable (host : Endian)

theorem stamp_passes {site : ClockSite} (hsite : passEnd (.clock site) = true) (hs : Awake s) :
    Safe (attentive net) Awake (fun _ _ => True) (stamp_last_send site)
      (fun _ t => Passed 0 t) s := by
  refine safe_call (fun _ _ ht hr => Awake.stable ht hr) (fun _ ht => ht) hs (fun _ _ => trivial)
    fun t _ u ht hsys => ?_
  cases hsys
  refine safe_act (fun _ _ hu hr => Passed.stable hu hr) (fun _ hu => hu.1)
    (passed_clock hsite ht) fun u hu => ?_
  exact safe_ret (fun _ _ hv hr => Passed.stable hv hr) (fun _ hv => hv.1)
    (show Passed 0 (u.stamp _) from hu) fun _ hv => hv

theorem send_if_due_passes (hs : Awake s) :
    Safe (attentive net) Awake (fun _ _ => True) (send_if_due host) Passed s := by
  refine safe_call (fun _ _ ht hr => Awake.stable ht hr) (fun _ ht => ht) hs (fun _ _ => trivial)
    fun t _ u ht hsys => ?_
  cases hsys
  refine safe_act (fun _ _ hu hr => Passed.stable hu hr) (fun _ hu => hu.1)
    (passed_clock rfl ht) fun u hu => ?_
  simp only [Prog.ret_bind]
  split_ifs
  · exact ended hu.1
  · exact passed_ret hu
  · refine awake_bind unpolled_next_seq hu.1 fun seq v hv => ?_
    refine awake_bind (unpolled_send_one host _ _) hv fun rc w hw => ?_
    split_ifs
    · exact ended hw
    · exact safe_bind ((stamp_passes rfl hw).mono fun _ x hx => passed_ret hx)

theorem loop_readable_passes (hs : Awake s) :
    Safe (attentive net) Awake (fun _ _ => True) (loop_readable host) Passed s := by
  refine awake_bind orderly_get hs fun before t ht => ?_
  refine awake_bind (unpolled_ping_receive host) ht fun rc u hu => ?_
  split_ifs
  · exact ended hu
  · refine awake_bind orderly_get hu fun after v hv => ?_
    split_ifs
    · exact ended hv
    · refine awake_bind (unpolled_send_per_reply host _) hv fun rc w hw => ?_
      split_ifs
      · exact ended hw
      · exact send_if_due_passes host hw
    · exact send_if_due_passes host hv

-- In the window, with the flag set only if there is no time to wait.
structure Watched (t : State N) : Prop where
  awake : Awake t
  window : in_window t.log = true
  past : present t.log t.now ≤ t.now
  elapsed : t.stop = true → Flow.pollTimeout (present t.log t.now) t ≤ 0

theorem Watched.stable (h : Watched s) (hr : (attentive net).rely s t) : Watched t := by
  obtain ⟨hrely, hprompt⟩ := hr
  have hawake := h.awake.stable ⟨hrely, hprompt⟩
  cases hrely with
  | intro now stop n hnow hstop hnet =>
      have hle : s.now ≤ now := hnow trivial
      refine ⟨hawake, h.window, ?_, fun hset => ?_⟩
      · exact present_le hle h.past
      · cases hclear : s.stop with
        | true => exact Flow.pollTimeout_mono (present_mono hle) (h.elapsed hclear)
        | false => exact hprompt hclear hset h.window

-- The test at the head of the loop has found the flag clear.
theorem watched_test (hs : Passed 0 s) (hgo : s.stop = false) :
    Watched (s.record .stopTested) := by
  have hhead := hs.2.resolve_left (by decide)
  refine ⟨hs.1.record rfl rfl, ?_, Nat.le_refl _, fun hset => ?_⟩
  · rw [State.record, in_window, hgo, hhead]
    rfl
  · exact absurd (hgo.symm.trans hset) Bool.false_ne_true

-- loop_once() has read the clock.
theorem watched_read (hs : Watched s) : Watched (s.record (.clock .loop_once)) :=
  ⟨hs.awake.record rfl rfl, rfl, Nat.le_refl _, fun hset =>
    Flow.pollTimeout_mono hs.past (hs.elapsed hset)⟩

-- It is about to poll() by that reading and by the schedule that it has looked at.
def Reading (reading : Nat) (sched : Sched) (t : State N) : Prop :=
  Watched t ∧ (∃ stop rest, t.log = ⟨reading, stop, .clock .loop_once⟩ :: rest) ∧
    t.sched = sched

theorem Reading.stable {reading : Nat} {sched : Sched} (h : Reading reading sched s)
    (hr : (attentive net).rely s t) : Reading reading sched t := by
  refine ⟨h.1.stable hr, ?_⟩
  cases hr.1
  exact h.2

theorem Reading.polled {reading : Nat} {r : State N} (h : Reading reading r.sched s)
    (result : PollResult) : Awake (s.record (.polled (Flow.pollTimeout reading r) result)) := by
  obtain ⟨hwatched, ⟨stop, rest, hlog⟩, hsched⟩ := h
  refine hwatched.awake.record rfl ?_
  cases hset : s.stop with
  | false => rfl
  | true =>
      have hover := hwatched.elapsed hset
      rw [hlog, present, Flow.pollTimeout, hsched] at hover
      have hnone : ¬ 0 < Flow.pollTimeout reading r := not_lt.mpr hover
      simp [asleep, hnone]

theorem loop_once_passes (hs : Watched s) :
    Safe (attentive net) Awake (fun _ _ => True) (loop_once host) Passed s := by
  refine safe_call (fun _ _ ht hr => Watched.stable ht hr) (fun _ ht => ht.awake) hs
    (fun _ _ => trivial) fun t _ u ht hsys => ?_
  cases hsys
  have hread : Reading t.now t.sched (t.record (.clock .loop_once)) :=
    ⟨watched_read ht, ⟨_, _, rfl⟩, rfl⟩
  refine safe_act (fun _ _ hu hr => Reading.stable hu hr) (fun _ hu => hu.1.awake) hread
    fun u hu => ?_
  simp only [Prog.ret_bind]
  split_ifs
  · exact ended hu.1.awake
  · have hu' : Reading t.now u.sched u := ⟨hu.1, hu.2.1, rfl⟩
    refine safe_call (fun _ _ hv hr => Reading.stable hv hr) (fun _ hv => hv.1.awake) hu'
      (fun _ _ => trivial) fun v result w hv hsys => ?_
    cases hsys
    have hpolled := hv.polled result
    simp only [Prog.ret_bind]
    cases result with
    | readable => exact loop_readable_passes host hpolled
    | timedOut => exact send_if_due_passes host hpolled
    | failed errno =>
        dsimp only
        split_ifs with hintr
        · subst hintr
          exact passed_ret ⟨hpolled, Or.inr rfl⟩
        · exact awake_bind (unpolled_perform rfl) hpolled fun _ x hx => ended hx

-- A run never waits with the stop flag set in which SIGINT never comes in the window.
theorem ping_run_attentive (hs : Awake s) :
    Safe (attentive net) Awake (fun _ _ => True) (ping_run host) (fun _ _ => True) s := by
  refine awake_bind (orderly_modify Kept.zeroed) hs fun _ t ht => ?_
  refine awake_bind unpolled_sched_init ht fun _ t ht => ?_
  refine awake_bind (unpolled_send_preload host) ht fun _ t ht => ?_
  refine awake_bind (unpolled_send_first host) ht fun _ t ht => ?_
  refine safe_bind ((stamp_passes rfl ht).mono fun _ t ht => ?_)
  refine safe_loop (fun _ t => Passed 0 t) ht fun _ t ht => ?_
  refine safe_call (fun _ _ hu hr => Passed.stable hu hr) (fun _ hu => hu.1) ht
    (fun _ _ => trivial) fun u _ v hu hsys => ?_
  cases hsys
  simp only [Prog.ret_bind]
  have hend : ∀ v : State N, Awake v → Safe (attentive net) Awake (fun _ _ => True)
      (.ret () : Ping N Unit) (fun _ _ => True) v := fun v hv => awake_ret hv fun _ _ => trivial
  cases hstop : u.stop with
  | true => exact awake_ret (hu.1.record rfl rfl) fun v hv => hend v hv
  | false =>
      refine safe_bind ((loop_once_passes host (watched_test hu hstop)).mono fun rc v hv => ?_)
      split_ifs with hrc
      · exact awake_ret hv.1 fun w hw => hend w hw
      · have hpassed : Passed 0 v := ⟨hv.1, Or.inr (hv.2.resolve_left hrc)⟩
        exact safe_ret (fun _ _ hw hr => Passed.stable hw hr) (fun _ hw => hw.1) hpassed
          fun _ hw => hw

end Attentive

-- If no step of a run delivers SIGINT between the test of the flag at the head of the loop and
-- poll() while there is time to wait, poll() is never entered with the flag set and time to wait.
theorem never_asleep {N : Type} (host : Endian) (net : Network N) (ctx : Ctx) (n : N)
    (q : Ping N Unit) (t : State N)
    (h : Reach (attentive net) (ping_run host, .initial ctx n) (q, t)) :
    ∀ entry ∈ t.log, asleep entry = false := by
  have hawake : Awake t := (ping_run_attentive host (s := .initial ctx n) rfl q t h).inv
  intro entry hentry
  exact Bool.not_eq_true _ ▸ List.any_eq_false.mp hawake entry hentry

-- SIGINT in the window: the reading is taken, and poll() is to come.
theorem asleep_after_sigint :
    ∃ t, Reach (world Network.free True) (ping_run .little, loopback Flags.zero) (.ret (), t) ∧
      ∃ entry ∈ t.log, asleep entry = true := by
  have hrun : (exec (play true) 3 (ping_run .little) (⟨[0, 0, 0, 1000000000, 1000000000,
      1000000000], [none, none], [(true, .timedOut)], []⟩, loopback Flags.zero)).map
      (fun r => r.2.2.log.any asleep) = some true := by
    decide +kernel
  obtain ⟨⟨value, k, t⟩, hexec, hasleep⟩ := Option.map_eq_some_iff.mp hrun
  exact ⟨t, exec_reach (play_plays true True fun _ => rfl) 3 _ _ _ hexec,
    List.any_eq_true.mp hasleep⟩

-- A script without SIGINT.
def calm : Script Answers (State Unit) Sys Ans := fun e c =>
  (play true e c).filter fun r => r.2.2.stop == c.2.stop

theorem perform_stop {N : Type} {net : Network N} {e : Sys} {s t : State N} {a : Ans e}
    (h : Perform net e s a t) (hset : s.stop = true) : t.stop = true := by
  cases h with
  | ping_request_stop => rfl
  | _ => exact hset

theorem calm_plays : Plays calm (attentive Network.free) := by
  intro e c a d h
  obtain ⟨hplay, hsame⟩ := Option.filter_eq_some_iff.mp h
  obtain ⟨s, hrely, hsys⟩ := play_plays true True (fun _ => rfl) e c a d hplay
  refine ⟨s, ⟨hrely, fun hclear hset => ?_⟩, hsys⟩
  have hlater := perform_stop hsys hset
  rw [beq_iff_eq] at hsame
  rw [← hsame, hlater] at hclear
  cases hclear

-- A run of one second.
theorem never_asleep_one_second :
    ∃ t, Reach (attentive Network.free) (ping_run .little,
        loopback { Flags.zero with has_timeout := true, timeout := 1 }) (.ret (), t) ∧
      t.log.any (fun entry => entry.event = .polled 1000 .timedOut) = true ∧
      ∀ entry ∈ t.log, asleep entry = false := by
  have hrun : (exec calm 3 (ping_run .little) (⟨[0, 0, 0, 0, 1000000000],
      [none], [(false, .timedOut)], []⟩,
      loopback { Flags.zero with has_timeout := true, timeout := 1 })).map
      (fun r => r.2.2.log.any fun entry => entry.event = .polled 1000 .timedOut) = some true := by
    decide +kernel
  obtain ⟨⟨value, k, t⟩, hexec, hpolled⟩ := Option.map_eq_some_iff.mp hrun
  have hreach := exec_reach calm_plays 3 _ _ _ hexec
  exact ⟨t, hreach, hpolled, never_asleep .little Network.free
    (ctx_alloc_buffers { Flags.zero with has_timeout := true, timeout := 1 } [127, 0, 0, 1] 0x1234)
    () (.ret ()) t hreach⟩

end FtPing
