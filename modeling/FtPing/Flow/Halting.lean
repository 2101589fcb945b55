import FtPing.Flow.Patience

namespace FtPing

open Bytes History Interaction

def isArrival : Event → Bool
  | .received _ => true
  | _ => false

-- What has been done with the stop flag set.
def aftermath (log : List Entry) : List Entry := log.filter fun entry => entry.stop

theorem aftermath_go {now : Nat} {event : Event} (log : List Entry) :
    aftermath (⟨now, false, event⟩ :: log) = aftermath log := rfl

theorem aftermath_stop {now : Nat} {event : Event} (log : List Entry) :
    aftermath (⟨now, true, event⟩ :: log) = ⟨now, true, event⟩ :: aftermath log := rfl

namespace Flow

variable {N : Type} {host : Endian} {net : Network N} {monotone : Prop} {s t u : State N}
  {p q : Point}

-- How many entries there can be after a call of send_one() if the stop flag is set.
def leftAfter : Caller → Nat
  | .send_preload _ => 5
  | .paced .ping_run => 3
  | .paced .send_if_due => 2
  | .paced (.send_per_reply _) => 10

-- And how many from a point on, apart from those about datagrams that are still to be received.
def left : Point → Nat
  | .start => 5
  | .setup => 5
  | .limiting _ => 4
  | .preload _ => 4
  | .first => 3
  | .calling c => leftAfter c + 5
  | .called c _ => leftAfter c + 5
  | .opened c _ => leftAfter c + 4
  | .headed c _ => leftAfter c + 4
  | .filling c _ _ => leftAfter c + 3
  | .filled c _ => leftAfter c + 3
  | .sealed c => leftAfter c + 3
  | .ready c _ => leftAfter c + 3
  | .accepted c => leftAfter c + 2
  | .counted c => leftAfter c + 1
  | .sent c => leftAfter c
  | .refused c => leftAfter c + 1
  | .failed c => leftAfter c
  | .stamping (.send_per_reply _) => 10
  | .stamping _ => 2
  | .stamped (.send_per_reply _) _ => 9
  | .stamped _ _ => 1
  | .head => 1
  | .waking => 12
  | .woken _ => 11
  | .waiting _ => 11
  | .pollFailed => 1
  | .readable => 10
  | .draining _ => 10
  | .judging _ _ => 14
  | .timing _ _ _ => 13
  | .recorded _ _ _ => 12
  | .reporting _ _ _ => 11
  | .recvFailed => 1
  | .drained _ => 9
  | .burst _ => 9
  | .bursting _ => 16
  | .burstTimed _ _ => 15
  | .due => 8
  | .dueTimed _ => 7
  | .finished => 0

theorem leftAfter_le (c : Caller) : leftAfter c ≤ 10 := by
  cases c with
  | send_preload i => exact Nat.le_of_ble_eq_true rfl
  | paced p => cases p <;> exact Nat.le_of_ble_eq_true rfl

theorem left_le (p : Point) : left p ≤ 16 := by
  have hafter := leftAfter_le
  cases p with
  | calling c => exact (Nat.add_le_add_right (hafter c) 5).trans (by decide)
  | called c seq => exact (Nat.add_le_add_right (hafter c) 5).trans (by decide)
  | opened c seq => exact (Nat.add_le_add_right (hafter c) 4).trans (by decide)
  | headed c seq => exact (Nat.add_le_add_right (hafter c) 4).trans (by decide)
  | filling c seq now => exact (Nat.add_le_add_right (hafter c) 3).trans (by decide)
  | filled c seq => exact (Nat.add_le_add_right (hafter c) 3).trans (by decide)
  | sealed c => exact (Nat.add_le_add_right (hafter c) 3).trans (by decide)
  | ready c buf => exact (Nat.add_le_add_right (hafter c) 3).trans (by decide)
  | accepted c => exact (Nat.add_le_add_right (hafter c) 2).trans (by decide)
  | counted c => exact (Nat.add_le_add_right (hafter c) 1).trans (by decide)
  | sent c => exact (hafter c).trans (by decide)
  | refused c => exact (Nat.add_le_add_right (hafter c) 1).trans (by decide)
  | failed c => exact (hafter c).trans (by decide)
  | stamping p => cases p <;> exact Nat.le_of_ble_eq_true rfl
  | stamped p now => cases p <;> exact Nat.le_of_ble_eq_true rfl
  | _ => exact Nat.le_of_ble_eq_true rfl

-- With the flag set each entry takes one of those that are left, and a datagram brings five.
structure Halting (p : Point) (t : State N) : Prop where
  before : t.stop = false → aftermath t.log = []
  after : t.stop = true →
    (aftermath t.log).length + left p ≤ 16 + 5 * tally isArrival (aftermath t.log)

theorem Halting.same (h : Halting p t) (hq : left q ≤ left p) (hlog : u.log = t.log)
    (hstop : u.stop = t.stop) : Halting q u where
  before hgo := by
    rw [hlog]
    exact h.before (hstop ▸ hgo)
  after hset := by
    rw [hlog]
    exact (Nat.add_le_add_left hq _).trans (h.after (hstop ▸ hset))

theorem Halting.more {event : Event} (h : Halting p t)
    (hq : t.stop = true → left q < left p ∨ isArrival event = true ∧ left q < left p + 5)
    (hlog : u.log = ⟨t.now, t.stop, event⟩ :: t.log) (hstop : u.stop = t.stop) : Halting q u where
  before hgo := by
    rw [hstop] at hgo
    rw [hlog, hgo, aftermath_go]
    exact h.before hgo
  after hset := by
    rw [hstop] at hset
    have hleft := h.after hset
    rw [hlog, hset, aftermath_stop, List.length_cons, tally_cons]
    rcases hq hset with hq | ⟨harrival, hq⟩
    · split_ifs <;> omega
    · rw [if_pos harrival]
      omega

-- The flag is set in this step.
theorem Halting.set (h : Halting p t) (hq : left q ≤ left p)
    (hlog : aftermath u.log = aftermath t.log) : Halting q { u with stop := true } := by
  refine ⟨nofun, fun _ => ?_⟩
  change (aftermath u.log).length + left q ≤ 16 + 5 * tally isArrival (aftermath u.log)
  rw [hlog]
  cases hstop : t.stop with
  | false =>
      rw [h.before hstop]
      exact (Nat.zero_add _).trans_le ((left_le q).trans (Nat.le_add_right _ _))
  | true => exact (Nat.add_le_add_left hq _).trans (h.after hstop)

-- It is set by the program itself.
theorem Halting.request (h : Halting p t) (hq : left q < left p) :
    Halting q { t.record .stopRequested with stop := true } := by
  cases hstop : t.stop with
  | false =>
      refine h.set (u := t.record .stopRequested) hq.le ?_
      rw [State.record, hstop]
      rfl
  | true =>
      have hlog : { t.record .stopRequested with stop := true }.log =
          ⟨t.now, t.stop, .stopRequested⟩ :: t.log := rfl
      exact h.more (fun _ => Or.inl hq) hlog hstop.symm

theorem Path.halting (h : Path host net monotone .start s q t) (hlog : s.log = []) :
    Halting q t := by
  refine h.invariant Halting ⟨fun _ => by rw [hlog]; rfl, fun _ => by rw [hlog]; decide⟩
    fun p t q u _ ht he => ?_
  cases he with
  | env p t _ hr =>
      cases hr with
      | intro now stop n hnow hstop hnet =>
          cases stop with
          | false =>
              have hgo : t.stop = false := Bool.eq_false_iff.mpr fun h => by cases hstop h
              exact ⟨fun _ => ht.before hgo, nofun⟩
          | true => exact ht.set (u := { t with now := now, net := n }) (Nat.le_refl _) rfl
  | preload_go i t hgo hstop => exact ht.more (fun h => by rw [hstop] at h; cases h) rfl rfl
  | first_go t hstop => exact ht.more (fun h => by rw [hstop] at h; cases h) rfl rfl
  | head_go t hstop => exact ht.more (fun h => by rw [hstop] at h; cases h) rfl rfl
  | burst_go replies t hpositive hstop =>
      exact ht.more (fun h => by rw [hstop] at h; cases h) rfl rfl
  | preload_failed i t => exact ht.request (Nat.le_of_ble_eq_true rfl)
  | first_failed t => exact ht.request (Nat.le_of_ble_eq_true rfl)
  | paced_sent p t => cases p <;> exact ht.same (Nat.le_of_ble_eq_true rfl) rfl rfl
  | stamp p now t => cases p <;> exact ht.same (Nat.le_of_ble_eq_true rfl) rfl rfl
  | read_stamp p t => cases p <;> exact ht.more (fun _ => Or.inl (Nat.le_of_ble_eq_true rfl)) rfl rfl
  | _ => first
      | exact ht.same (Nat.le_refl _) rfl rfl
      | exact ht.same (Nat.le_succ _) rfl rfl
      | exact ht.same (Nat.le_of_ble_eq_true rfl) rfl rfl
      | exact ht.more (fun _ => Or.inl (Nat.lt_succ_self _)) rfl rfl
      | exact ht.more (fun _ => Or.inl (Nat.lt_succ_of_lt (Nat.lt_succ_self _))) rfl rfl
      | exact ht.more (fun _ => Or.inl (Nat.le_of_ble_eq_true rfl)) rfl rfl
      | exact ht.more (fun _ => Or.inr ⟨rfl, Nat.le_of_ble_eq_true rfl⟩) rfl rfl

end Flow

section Scarce

variable {N α : Type}

-- A world in which only so many datagrams come in.
def scarce (net : Network N) (monotone : Prop) (most : Nat) : World (State N) Sys Ans where
  rely := Rely net monotone
  sys e s a t := Perform net e s a t ∧ tally isArrival t.log ≤ max most (tally isArrival s.log)
  rely_refl := Rely.refl net monotone
  rely_trans := Rely.trans net monotone

variable {net : Network N} {monotone : Prop} {most : Nat}

theorem scarce_reach {c d : Ping N α × State N} (h : Reach (scarce net monotone most) c d) :
    Reach (world net monotone) c d := by
  have hrely : ∀ s t, (scarce net monotone most).rely s t → (world net monotone).rely s t :=
    fun _ _ hr => hr
  have hidle : ∀ s, Rely net monotone s s := fun s => .refl net monotone s
  exact h.coarsen hrely fun e s a t hsys => ⟨s, hidle s, hsys.1⟩

theorem scarce_grows : Grows (scarce net monotone most) (fun e => logged e = true) Kept
    fun s => s.log.length := by
  have hgrows : Grows (world net monotone) (fun e => logged e = true) Kept
      fun s => s.log.length := log_grows
  exact ⟨hgrows.rely, hgrows.act, fun e s a t h => hgrows.call e s a t h.1,
    fun e s a t h hloud => hgrows.loud e s a t h.1 hloud⟩

theorem scarce_answers (e : Sys) (s : State N) :
    ∃ a t, (scarce net monotone most).sys e s a t := by
  have hquiet : ∀ entry : Entry, isArrival entry.event = false →
      tally isArrival (entry :: s.log) ≤ max most (tally isArrival s.log) :=
    fun entry hentry => (tally_miss hentry s.log).trans_le (le_max_right _ _)
  cases e with
  | clock_gettime site => exact ⟨_, _, .clock_gettime site s, hquiet _ rfl⟩
  | sendto buf dst => exact ⟨_, _, .sendFailed buf dst s .EAGAIN, hquiet _ rfl⟩
  | recvfrom len => exact ⟨_, _, .receiveFailed len s .EAGAIN, hquiet _ rfl⟩
  | poll timeout => exact ⟨_, _, .poll timeout s .timedOut, hquiet _ rfl⟩
  | ping_should_stop => exact ⟨_, _, .ping_should_stop s, hquiet _ rfl⟩
  | ping_request_stop => exact ⟨_, _, .ping_request_stop s, hquiet _ rfl⟩
  | load offset length => exact ⟨_, _, .load offset length s, le_max_right _ _⟩
  | store offset bytes => exact ⟨_, _, .store offset bytes s, le_max_right _ _⟩
  | print line => exact ⟨_, _, .print line s, hquiet _ rfl⟩
  | entered what => exact ⟨_, _, .entered what s, hquiet _ rfl⟩
  | count_sent => exact ⟨_, _, .count_sent s, hquiet _ rfl⟩
  | count_reply rtt => exact ⟨_, _, .count_reply rtt s, hquiet _ rfl⟩

-- Once the flag is set all that is added to the log is of the aftermath.
structure Stopped (most before : Nat) (t : State N) : Prop where
  stop : t.stop = true
  length : t.log.length = (aftermath t.log).length + before
  arrivals : tally isArrival t.log ≤ most

theorem Stopped.call {bound before : Nat} {e : Sys} {s t : State N} {a : Ans e}
    (h : Stopped bound before s) (hmost : most ≤ bound)
    (hsys : (scarce net monotone most).sys e s a t) : Stopped bound before t := by
  obtain ⟨hcall, hfew⟩ := hsys
  have harrivals := hfew.trans (max_le hmost h.arrivals)
  have hstop : t.stop = true := by
    cases hcall with
    | ping_request_stop => rfl
    | _ => exact h.stop
  rcases perform_log hcall with ⟨hsame, -⟩ | ⟨event, hmore, -⟩
  · exact ⟨hstop, by rw [hsame]; exact h.length, harrivals⟩
  · refine ⟨hstop, ?_, harrivals⟩
    have hlength := h.length
    rw [hmore, h.stop, aftermath_stop, List.length_cons, List.length_cons]
    omega

theorem Stopped.rely {bound before : Nat} {s t : State N} (h : Stopped bound before s)
    (hr : Rely net monotone s t) : Stopped bound before t := by
  cases hr with
  | intro now stop n hnow hstop hnet => exact ⟨hstop h.stop, h.length, h.arrivals⟩

theorem Stopped.kept {bound before : Nat} {s t : State N} (h : Stopped bound before s)
    (hk : Kept s t) : Stopped bound before t :=
  ⟨hk.stop.trans h.stop, by rw [hk.log]; exact h.length, by rw [hk.log]; exact h.arrivals⟩

end Scarce

-- After SIGINT, or after a first packet that could not be sent, ping_run() has sixteen more
-- things to do, and five more for each datagram that it still finds. So it returns, unless they
-- never end.
theorem stop_bounds_the_rest {N : Type} (host : Endian) (net : Network N) (monotone : Prop)
    (ctx : Ctx) (n : N) :
    (∀ q t, Reach (world net monotone) (ping_run host, .initial ctx n) (q, t) →
      (aftermath t.log).length ≤ 16 + 5 * tally isArrival (aftermath t.log)) ∧
    ∀ most q s, Reach (scarce net monotone most) (ping_run host, .initial ctx n) (q, s) →
      s.stop = true → Returns (scarce net monotone most) (q, s) := by
  have hbound : ∀ q t, Reach (world net monotone) (ping_run host, .initial ctx n) (q, t) →
      (aftermath t.log).length ≤ 16 + 5 * tally isArrival (aftermath t.log) := by
    intro q t h
    obtain ⟨p, hpath⟩ := Flow.ping_run_path host net monotone _ t q h
    have hhalting := hpath.halting rfl
    cases hstop : t.stop with
    | false =>
        rw [hhalting.before hstop]
        exact Nat.zero_le _
    | true => exact (Nat.le_add_right _ _).trans (hhalting.after hstop)
  refine ⟨hbound, fun most q s hs hstop => ?_⟩
  let bound := max most (tally isArrival s.log)
  let before := s.log.length - (aftermath s.log).length
  have hrunning := (Disciplined.reach (fun _ => True) (fun _ _ _ _ => trivial)
    (fun _ _ _ _ => trivial) (fun _ _ _ _ _ _ _ => trivial) (running_ping_run host) hs trivial).1
  have hshort : (aftermath s.log).length ≤ s.log.length := List.length_filter_le _ _
  have hstopped : Stopped bound before s :=
    ⟨hstop, (Nat.add_sub_cancel' hshort).symm, le_max_right _ _⟩
  suffices hmost : ∀ d, Reach (scarce net monotone most) (q, s) d →
      d.2.log.length ≤ 16 + 5 * bound + before from
    returns_of_bounded scarce_grows scarce_answers hrunning hmost
  intro d hd
  have hlater := (Disciplined.reach (Stopped bound before) (fun _ _ hu hr => hu.rely hr)
    (fun _ _ hu hk => hu.kept hk) (fun _ _ _ _ hu _ hsys => hu.call (le_max_left _ _) hsys)
    hrunning hd hstopped).2
  have hlength := hlater.length
  have hfew := hbound d.1 d.2 (scarce_reach (hs.trans hd))
  have hsub : tally isArrival (aftermath d.2.log) ≤ tally isArrival d.2.log :=
    List.Sublist.countP_le List.filter_sublist
  have harrivals := hlater.arrivals
  omega

-- The signal is there before the first step.
theorem stop_bounds_the_rest_early :
    Returns (scarce Network.free True 3)
      (ping_run .little, { loopback Flags.zero with stop := true }) := by
  have hsignal : Reach (scarce Network.free True 3) (ping_run .little, loopback Flags.zero)
      (ping_run .little, { loopback Flags.zero with stop := true }) :=
    .of_step (.env (.intro _ 0 true () (fun _ => Nat.le_refl 0) (fun _ => rfl) .refl))
  exact (stop_bounds_the_rest .little Network.free True
    (ctx_alloc_buffers Flags.zero [127, 0, 0, 1] 0x1234) ()).2 3 _ _ hsignal rfl

end FtPing
