import FtPing.Core.Context
import FtPing.Flow.Loop
import FtPing.History

namespace FtPing

open Bytes History Interaction Numeric

-- Whether the clock reading `now` is at or past the deadline.
def expired (deadline : Double) (now : Nat) : Bool := (now_ms (timespec now)).ge deadline

def sendSite : Event → Option SendSite
  | .entered (.send_one site _) => some site
  | _ => none

-- The calls of send_one() that begin at or past the deadline, and those outside of the preload
-- burst.
def begunLate (deadline : Double) (entry : Entry) : Bool :=
  (sendSite entry.event).isSome && expired deadline entry.now

def belated (deadline : Double) (entry : Entry) : Bool :=
  begunLate deadline entry && sendSite entry.event ≠ some .send_preload

-- The call directly follows a reading of the clock that is not past the deadline.
def TestedAt (deadline : Double) (site : ClockSite) (earlier : List Entry) : Prop :=
  ∃ reading stop rest, earlier = ⟨reading, stop, .clock site⟩ :: rest ∧
    expired deadline reading = false

def Tested (deadline : Double) (entry : Entry) (earlier : List Entry) : Prop :=
  match sendSite entry.event with
  | some .send_if_due => TestedAt deadline .send_if_due earlier
  | some .send_per_reply => TestedAt deadline .send_per_reply earlier
  | _ => True

theorem expired_mono {deadline : Double} {first second : Nat} (h : expired deadline first = true)
    (hle : first ≤ second) : expired deadline second = true := by
  rw [expired, now_ms_timespec] at h ⊢
  exact Double.ge_finite_mono _ _ deadline h (ms_le_ms hle)

namespace Flow

variable {N : Type}

inductive Stage
  | unset
  | clean
  | fair
  | reading (site : ClockSite) (now : Nat)
  | cleared (site : ClockSite)

def Caller.before : Caller → Stage
  | .send_preload _ => .clean
  | .paced .ping_run => .clean
  | .paced .send_if_due => .cleared .send_if_due
  | .paced (.send_per_reply _) => .cleared .send_per_reply

def Caller.inside : Caller → Stage
  | .send_preload _ => .clean
  | .paced _ => .fair

def stage : Point → Stage
  | .start => .unset
  | .setup => .unset
  | .limiting _ => .unset
  | .preload _ => .clean
  | .first => .clean
  | .calling c => c.before
  | .called c _ => c.before
  | .opened c _ => c.inside
  | .headed c _ => c.inside
  | .filling c _ _ => c.inside
  | .filled c _ => c.inside
  | .sealed c => c.inside
  | .ready c _ => c.inside
  | .accepted c => c.inside
  | .counted c => c.inside
  | .sent c => c.inside
  | .refused c => c.inside
  | .failed c => c.inside
  | .dueTimed now => .reading .send_if_due now
  | .burstTimed _ now => .reading .send_per_reply now
  | _ => .fair

def belatedCalls (t : State N) : Nat := t.log.countP (belated t.sched.deadline)

-- Once a call is belated, the deadline is past.
def Fair (t : State N) : Prop :=
  belatedCalls t = 0 ∨ belatedCalls t = 1 ∧ expired t.sched.deadline t.now = true

def Keeps : Stage → State N → Prop
  | .unset, t => ∀ entry ∈ t.log, sendSite entry.event = none
  | .clean, t => belatedCalls t = 0
  | .fair, t => Fair t
  | .reading site now, t => Fair t ∧ (belatedCalls t = 0 ∨ expired t.sched.deadline now = true) ∧
      ∃ stop rest, t.log = ⟨now, stop, .clock site⟩ :: rest
  | .cleared site, t => belatedCalls t = 0 ∧ TestedAt t.sched.deadline site t.log

structure Punctual (p : Point) (t : State N) : Prop where
  keeps : Keeps (stage p) t
  tested : Every (Tested t.sched.deadline) t.log

-- A step that calls no send_one().
structure Passes (t u : State N) : Prop where
  deadline : u.sched.deadline = t.sched.deadline
  now : t.now ≤ u.now
  log : u.log = t.log ∨ ∃ entry, u.log = entry :: t.log ∧ sendSite entry.event = none

variable {p q : Point} {t u : State N}

theorem Passes.calls_eq (h : Passes t u) : belatedCalls u = belatedCalls t := by
  rw [belatedCalls, h.deadline]
  rcases h.log with hlog | ⟨entry, hlog, hnone⟩
  · rw [hlog]
    rfl
  · rw [hlog, List.countP_cons_of_neg (by simp [belated, begunLate, hnone])]
    rfl

theorem Passes.tested (h : Passes t u) (ht : Every (Tested t.sched.deadline) t.log) :
    Every (Tested u.sched.deadline) u.log := by
  rw [h.deadline]
  rcases h.log with hlog | ⟨entry, hlog, hnone⟩
  · rw [hlog]
    exact ht
  · rw [hlog]
    refine ht.cons ?_
    rw [Tested, hnone]
    trivial

theorem Passes.fair (h : Passes t u) (ht : Fair t) : Fair u := by
  rw [Fair, h.calls_eq, h.deadline]
  rcases ht with hzero | ⟨hone, hlate⟩
  · exact Or.inl hzero
  · exact Or.inr ⟨hone, expired_mono hlate h.now⟩

theorem Keeps.same {st : Stage} (h : Keeps st t) (hu : Passes t u) (hlog : u.log = t.log) :
    Keeps st u := by
  cases st with
  | unset => exact fun entry hentry => h entry (by rwa [hlog] at hentry)
  | clean => exact hu.calls_eq.trans h
  | fair => exact hu.fair h
  | reading site now =>
      obtain ⟨hfair, hcalls, hhead⟩ := h
      refine ⟨hu.fair hfair, ?_, by rw [hlog]; exact hhead⟩
      rw [hu.calls_eq, hu.deadline]
      exact hcalls
  | cleared site =>
      obtain ⟨hcalls, hhead⟩ := h
      refine ⟨hu.calls_eq.trans hcalls, ?_⟩
      rw [hlog, hu.deadline]
      exact hhead

-- The stages that do not say what the latest entry is.
def Stage.steady : Stage → Prop
  | .reading _ _ => False
  | .cleared _ => False
  | _ => True

theorem Caller.inside_steady (c : Caller) : c.inside.steady := by
  cases c <;> trivial

theorem Keeps.grow {st : Stage} (hst : st.steady) (h : Keeps st t) (hu : Passes t u) :
    Keeps st u := by
  cases st with
  | unset =>
      intro entry hentry
      rcases hu.log with hlog | ⟨added, hlog, hnone⟩
      · exact h entry (by rwa [hlog] at hentry)
      · rw [hlog] at hentry
        rcases List.mem_cons.mp hentry with rfl | hentry
        · exact hnone
        · exact h entry hentry
  | clean => exact hu.calls_eq.trans h
  | fair => exact hu.fair h
  | reading site now => cases hst
  | cleared site => cases hst

theorem Punctual.grow (h : Punctual p t) (hst : (stage p).steady) (hq : stage q = stage p)
    (hu : Passes t u) : Punctual q u :=
  ⟨by rw [hq]; exact h.keeps.grow hst hu, hu.tested h.tested⟩

theorem Punctual.same (h : Punctual p t) (hq : stage q = stage p) (hu : Passes t u)
    (hlog : u.log = t.log) : Punctual q u :=
  ⟨by rw [hq]; exact h.keeps.same hu hlog, hu.tested h.tested⟩

theorem Punctual.into (h : Punctual p t) (hu : Passes t u) (hkeeps : Keeps (stage q) u) :
    Punctual q u :=
  ⟨hkeeps, hu.tested h.tested⟩

-- No call is belated yet when one is about to begin, and where there is a test it was passed.
theorem Punctual.about {c : Caller} {seq : UInt16} (h : Punctual (.called c seq) t) :
    belatedCalls t = 0 ∧
      Tested t.sched.deadline ⟨t.now, t.stop, .entered (.send_one c.site seq)⟩ t.log := by
  have hkeeps := h.keeps
  cases c with
  | send_preload i => exact ⟨hkeeps, trivial⟩
  | paced p =>
      cases p with
      | ping_run => exact ⟨hkeeps, trivial⟩
      | send_if_due => exact hkeeps
      | send_per_reply replies => exact hkeeps

theorem Punctual.enter {c : Caller} {seq : UInt16} (h : Punctual (.called c seq) t) :
    Punctual (.opened c seq) (t.record (.entered (.send_one c.site seq))) := by
  obtain ⟨hzero, htested⟩ := h.about
  refine ⟨?_, h.tested.cons htested⟩
  have hcount : belatedCalls (t.record (.entered (.send_one c.site seq))) =
      belatedCalls t + if belated t.sched.deadline
        ⟨t.now, t.stop, .entered (.send_one c.site seq)⟩ then 1 else 0 := List.countP_cons
  rw [hzero, Nat.zero_add] at hcount
  cases c with
  | send_preload i =>
      rw [if_neg (by simp [belated, sendSite, Caller.site])] at hcount
      exact hcount
  | paced p =>
      split_ifs at hcount with hlate
      · refine Or.inr ⟨hcount, ?_⟩
        simp only [belated, begunLate, Bool.and_eq_true] at hlate
        exact hlate.1.2
      · exact Or.inl hcount

theorem Punctual.read {site : ClockSite} (h : Punctual p t) (hp : stage p = .fair)
    (hq : stage q = .reading site t.now) : Punctual q (t.record (.clock site)) := by
  have hpasses : Passes t (t.record (.clock site)) :=
    ⟨rfl, Nat.le_refl _, Or.inr ⟨_, rfl, rfl⟩⟩
  have hfair := h.keeps
  rw [hp] at hfair
  refine h.into hpasses ?_
  rw [hq]
  refine ⟨hpasses.fair hfair, ?_, t.stop, t.log, rfl⟩
  rcases hpasses.fair hfair with hzero | ⟨-, hlate⟩
  · exact Or.inl hzero
  · exact Or.inr hlate

-- The deadline test has passed; had a call been belated, it would not have.
theorem Punctual.clear {site : ClockSite} {now : Nat} (h : Punctual p t)
    (hp : stage p = .reading site now) (hq : stage q = .cleared site)
    (hlate : late now t = false) : Punctual q t := by
  have hkeeps := h.keeps
  rw [hp] at hkeeps
  obtain ⟨-, hcalls, stop, rest, hlog⟩ := hkeeps
  refine ⟨?_, h.tested⟩
  rw [hq]
  refine ⟨?_, now, stop, rest, hlog, hlate⟩
  rcases hcalls with hzero | hexpired
  · exact hzero
  · exact absurd (hlate.symm.trans hexpired) Bool.false_ne_true

theorem Punctual.leave {site : ClockSite} {now : Nat} (h : Punctual p t)
    (hp : stage p = .reading site now) (hq : stage q = .fair) : Punctual q t := by
  have hkeeps := h.keeps
  rw [hp] at hkeeps
  exact ⟨by rw [hq]; exact hkeeps.1, h.tested⟩

theorem unset_calls (h : Keeps .unset t) : belatedCalls t = 0 := by
  refine List.countP_eq_zero.mpr fun entry hentry => ?_
  simp [belated, begunLate, h entry hentry]

theorem Punctual.schedule {sched : Sched} (h : Punctual p t) (hp : stage p = .unset)
    (hq : stage q = .clean) : Punctual q (t.setSched sched) := by
  have hnone := h.keeps
  rw [hp] at hnone
  refine ⟨?_, ?_⟩
  · rw [hq]
    exact unset_calls (t := t.setSched sched) hnone
  · intro entry earlier hsuffix
    have hentry : entry ∈ t.log := hsuffix.subset List.mem_cons_self
    rw [Tested, hnone entry hentry]
    trivial

theorem Keeps.fair {st : Stage} (h : Keeps st t) : Fair t := by
  cases st with
  | unset => exact Or.inl (unset_calls h)
  | clean => exact Or.inl h
  | fair => exact h
  | reading site now => exact h.1
  | cleared site => exact Or.inl h.1

variable {host : Endian} {net : Network N}

theorem Punctual.edge (h : Punctual p t) (he : Edge host net True p t q u) : Punctual q u := by
  cases he with
  | env p t u hr =>
      cases hr with
      | intro now stop n hnow hstop hnet =>
          exact h.same rfl ⟨rfl, hnow trivial, Or.inl rfl⟩ rfl
  | limited now t => exact h.schedule rfl rfl
  | unlimited t _ => exact h.schedule rfl rfl
  | first_stop t _ => exact h.into ⟨rfl, Nat.le_refl _, Or.inr ⟨_, rfl, rfl⟩⟩ (Or.inl h.keeps)
  | enter c seq t => exact h.enter
  | stamp p now t =>
      exact h.grow trivial (by cases p <;> rfl) ⟨rfl, Nat.le_refl _, Or.inl rfl⟩
  | read_burst replies t => exact h.read rfl rfl
  | burst_late replies now t _ => exact h.leave rfl rfl
  | burst_call replies now t hlate => exact h.clear rfl rfl hlate
  | read_due t => exact h.read rfl rfl
  | due_late now t _ => exact h.leave rfl rfl
  | due_early now t _ _ => exact h.leave rfl rfl
  | due_call now t hlate _ => exact h.clear rfl rfl hlate
  | _ => first
      | exact h.same rfl ⟨rfl, Nat.le_refl _, Or.inl rfl⟩ rfl
      | exact h.grow trivial rfl ⟨rfl, Nat.le_refl _, Or.inr ⟨_, rfl, rfl⟩⟩
      | exact h.grow (Caller.inside_steady _) rfl ⟨rfl, Nat.le_refl _, Or.inr ⟨_, rfl, rfl⟩⟩

end Flow

-- In a run of ping_run() at most one call of send_one() outside of the preload burst begins at
-- or past the deadline, and each call that has a deadline test directly follows the reading of
-- the clock that has passed it.
theorem one_call_past_deadline {N : Type} (host : Endian) (net : Network N) (s t : State N)
    (q : Ping N Unit) (h : Reach (world net True) (ping_run host, s.fresh) (q, t)) :
    t.log.countP (belated t.sched.deadline) ≤ 1 ∧ Every (Tested t.sched.deadline) t.log := by
  obtain ⟨p, hpath⟩ := Flow.ping_run_path host net True s.fresh t q h
  have hstart : Flow.Punctual .start s.fresh := ⟨nofun, every_nil _⟩
  have hinv := hpath.invariant Flow.Punctual hstart fun q t r u _ ht he => ht.edge he
  refine ⟨?_, hinv.tested⟩
  rcases hinv.keeps.fair with hzero | ⟨hone, -⟩
  · exact hzero.trans_le (Nat.zero_le 1)
  · exact hone.le

-- -l 2 -t 1, with two seconds gone when the first datagram is sent.
def late_burst : State Unit :=
  (loopback { Flags.zero with
    has_preload := true, preload := 2, has_timeout := true, timeout := 1 }).fresh

def late_burst_answers : Answers :=
  ⟨[0, 2000000000, 2000000000, 2000000000, 2000000000, 2000000000], [none, none, none], [], []⟩

theorem one_call_past_deadline_late_burst :
    ∃ t, Reach (world Network.free True) (ping_run .little, late_burst) (.ret (), t) ∧
      t.log.countP (belated t.sched.deadline) ≤ 1 ∧ Every (Tested t.sched.deadline) t.log := by
  have hrun : (exec (play true) 3 (ping_run .little) (late_burst_answers, late_burst)).isSome =
      true := by
    decide +kernel
  obtain ⟨⟨value, k, t⟩, hexec⟩ := Option.isSome_iff_exists.mp hrun
  have hreach := exec_reach (play_plays true True fun _ => rfl) 3 _ _ _ hexec
  exact ⟨t, hreach, one_call_past_deadline .little Network.free late_burst t _ hreach⟩

-- No send fails, and two calls begin past the deadline.
theorem preload_burst_past_deadline :
    ∃ t, Reach (world Network.free True) (ping_run .little, late_burst) (.ret (), t) ∧
      (∀ entry ∈ t.log, ∀ buf, entry.event ≠ .sendFailed buf) ∧
      1 < t.log.countP (begunLate t.sched.deadline) := by
  have hrun : (exec (play true) 3 (ping_run .little) (late_burst_answers, late_burst)).map
      (fun r => (r.2.2.log.all fun entry =>
          match entry.event with
          | .sendFailed _ => false
          | _ => true,
        decide (1 < r.2.2.log.countP (begunLate r.2.2.sched.deadline)))) = some (true, true) := by
    decide +kernel
  obtain ⟨⟨value, k, t⟩, hexec, hchecks⟩ := Option.map_eq_some_iff.mp hrun
  have hreach := exec_reach (play_plays true True fun _ => rfl) 3 _ _ _ hexec
  obtain ⟨hsends, hcount⟩ := Prod.ext_iff.mp hchecks
  refine ⟨t, hreach, fun entry hentry buf hfailed => ?_, of_decide_eq_true hcount⟩
  have hentry := List.all_eq_true.mp hsends entry hentry
  rw [hfailed] at hentry
  cases hentry

end FtPing
