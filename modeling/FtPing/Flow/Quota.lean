import FtPing.Flow.Rate

namespace FtPing

open Bytes History Interaction Numeric

-- The calls of send_one() in the preload burst, and the first one outside of it.
def preload_calls (log : List Entry) : Nat := tally (calledFrom .send_preload) log

def first_calls (log : List Entry) : Nat := tally (calledFrom .ping_run) log

namespace Flow

variable {N : Type} {host : Endian} {net : Network N} {monotone : Prop} {p q : Point}
  {t u : State N}

-- A step on which no send_one() is called.
structure Uncalled (t u : State N) : Prop where
  flags : u.ctx.flags = t.ctx.flags
  log : u.log = t.log ∨ ∃ entry, u.log = entry :: t.log ∧ sendSite entry.event = none

theorem Uncalled.tally_eq (h : Uncalled t u) (site : SendSite) :
    tally (calledFrom site) u.log = tally (calledFrom site) t.log := by
  rcases h.log with hlog | ⟨entry, hlog, hnone⟩
  · rw [hlog]
  · rw [hlog, tally_miss (by rw [calledFrom, hnone]; rfl)]

section Burst

inductive Allowance
  | burst (i : Int)
  | called (i : Int)
  | inside (i : Int)
  | unprimed
  | primed

def Caller.allowed : Caller → Allowance
  | .send_preload i => .called i
  | .paced .ping_run => .unprimed
  | .paced _ => .primed

def Caller.used : Caller → Allowance
  | .send_preload i => .inside i
  | .paced _ => .primed

def allowance : Point → Allowance
  | .start => .burst 0
  | .setup => .burst 0
  | .limiting _ => .burst 0
  | .preload i => .burst i
  | .first => .unprimed
  | .calling c => c.allowed
  | .called c _ => c.allowed
  | .opened c _ => c.used
  | .headed c _ => c.used
  | .filling c _ _ => c.used
  | .filled c _ => c.used
  | .sealed c => c.used
  | .ready c _ => c.used
  | .accepted c => c.used
  | .counted c => c.used
  | .sent c => c.used
  | .refused c => c.used
  | .failed c => c.used
  | _ => .primed

def Spent : Allowance → State N → Prop
  | .burst i, t => 0 ≤ i ∧ i.toNat ≤ burst_size t ∧ preload_calls t.log = i.toNat ∧
      first_calls t.log = 0
  | .called i, t => InBurst i t ∧ preload_calls t.log = i.toNat ∧ first_calls t.log = 0
  | .inside i, t => InBurst i t ∧ preload_calls t.log = i.toNat + 1 ∧ first_calls t.log = 0
  | .unprimed, t => preload_calls t.log ≤ burst_size t ∧ first_calls t.log = 0
  | .primed, t => preload_calls t.log ≤ burst_size t ∧ first_calls t.log ≤ 1

theorem Spent.uncalled {a : Allowance} (h : Spent a t) (hu : Uncalled t u) : Spent a u := by
  cases a <;> simpa only [Spent, InBurst, burst_size, preload_calls, first_calls, hu.flags,
    hu.tally_eq] using h

theorem Spent.enter {c : Caller} {seq : UInt16} (h : Spent c.allowed t) :
    Spent c.used (t.record (.entered (.send_one c.site seq))) := by
  cases c with
  | send_preload i =>
      exact ⟨h.1, (tally_hit rfl t.log).trans (congrArg Nat.succ h.2.1),
        (tally_miss rfl t.log).trans h.2.2⟩
  | paced p =>
      have hpreload : ∀ seq, preload_calls
          (t.record (.entered (.send_one (Caller.paced p).site seq))).log = preload_calls t.log :=
        fun seq => tally_miss (by cases p <;> rfl) t.log
      cases p with
      | ping_run =>
          exact ⟨(hpreload seq).trans_le h.1,
            ((tally_hit rfl t.log).trans (congrArg Nat.succ h.2)).le⟩
      | send_if_due => exact ⟨(hpreload seq).trans_le h.1, (tally_miss rfl t.log).trans_le h.2⟩
      | send_per_reply replies =>
          exact ⟨(hpreload seq).trans_le h.1, (tally_miss rfl t.log).trans_le h.2⟩

theorem Spent.next_round {i : Int} (h : Spent (.inside i) t) : Spent (.burst (i + 1)) t := by
  obtain ⟨⟨hlo, hhi⟩, hcalls, hfirst⟩ := h
  have hnext : (i + 1).toNat = i.toNat + 1 := by omega
  refine ⟨by omega, ?_, by rw [hnext]; exact hcalls, hfirst⟩
  rw [burst_size]
  omega

theorem Spent.primed (h : Spent .unprimed t) : Spent .primed t :=
  ⟨h.1, h.2.trans_le (Nat.zero_le 1)⟩

theorem Spent.edge (h : Spent (allowance p) t) (he : Edge host net monotone p t q u) :
    Spent (allowance q) u := by
  cases he with
  | env _ _ _ hr =>
      cases hr
      exact h.uncalled ⟨rfl, Or.inl rfl⟩
  | preload_go i t hmore _ =>
      exact Spent.uncalled (t := t) ⟨⟨h.1, hmore⟩, h.2.2⟩ ⟨rfl, Or.inr ⟨_, rfl, rfl⟩⟩
  | preload_stop i t _ =>
      exact Spent.uncalled (t := t) ⟨h.2.2.1.trans_le h.2.1, h.2.2.2⟩
        ⟨rfl, Or.inr ⟨_, rfl, rfl⟩⟩
  | preload_done i t _ => exact ⟨h.2.2.1.trans_le h.2.1, h.2.2.2⟩
  | first_stop t _ => exact h.primed.uncalled ⟨rfl, Or.inr ⟨_, rfl, rfl⟩⟩
  | enter c seq t => exact h.enter
  | payload c seq now t =>
      exact h.uncalled ⟨(write_payload_kept seq _ t.ctx).1, Or.inl rfl⟩
  | preload_sent i t => exact h.next_round
  | preload_failed i t => exact h.next_round.uncalled ⟨rfl, Or.inr ⟨_, rfl, rfl⟩⟩
  | stamp p now t => cases p <;> exact h.uncalled ⟨rfl, Or.inl rfl⟩
  | _ => first
      | exact h.uncalled ⟨rfl, Or.inl rfl⟩
      | exact h.uncalled ⟨rfl, Or.inr ⟨_, rfl, rfl⟩⟩

end Burst

section Replies

inductive Purse
  | fresh
  | plain
  | draining (before : Int)
  | burst (replies : Int)
  | calling (replies : Int)
  | spent (replies : Int)

def Caller.owning : Caller → Purse
  | .paced (.send_per_reply replies) => .calling replies
  | _ => .plain

def Caller.owned : Caller → Purse
  | .paced (.send_per_reply replies) => .spent replies
  | _ => .plain

def purse : Point → Purse
  | .start => .fresh
  | .calling c => c.owning
  | .called c _ => c.owning
  | .opened c _ => c.owned
  | .headed c _ => c.owned
  | .filling c _ _ => c.owned
  | .filled c _ => c.owned
  | .sealed c => c.owned
  | .ready c _ => c.owned
  | .accepted c => c.owned
  | .counted c => c.owned
  | .sent c => c.owned
  | .refused c => c.owned
  | .failed c => c.owned
  | .stamping p => Caller.owned (.paced p)
  | .stamped p _ => Caller.owned (.paced p)
  | .draining before => .draining before
  | .judging before _ => .draining before
  | .timing before _ _ => .draining before
  | .recorded before _ _ => .draining before
  | .reporting before _ _ => .draining before
  | .drained before => .draining before
  | .burst replies => .burst replies
  | .bursting replies => .calling replies
  | .burstTimed replies _ => .calling replies
  | _ => .plain

-- What send_per_reply() may still send is covered by the replies of the last drain.
def Covered : Purse → State N → Prop
  | .fresh, t => reply_calls t.log = 0 ∧ 0 ≤ t.stats.n_recv
  | .plain, t => (reply_calls t.log : ℤ) ≤ t.stats.n_recv
  | .draining before, t => (reply_calls t.log : ℤ) ≤ before ∧ before ≤ t.stats.n_recv
  | .burst replies, t => t.ctx.flags.bsd_flood = true ∧
      reply_calls t.log + max replies 0 ≤ t.stats.n_recv
  | .calling replies, t => t.ctx.flags.bsd_flood = true ∧ 0 < replies ∧
      reply_calls t.log + replies ≤ t.stats.n_recv
  | .spent replies, t => t.ctx.flags.bsd_flood = true ∧ 0 < replies ∧
      reply_calls t.log + replies ≤ t.stats.n_recv + 1

structure Earned (p : Point) (t : State N) : Prop where
  covered : Covered (purse p) t
  opted : t.ctx.flags.bsd_flood = false → reply_calls t.log = 0

theorem Covered.plain {b : Purse} (h : Covered b t) :
    (reply_calls t.log : ℤ) ≤ t.stats.n_recv := by
  cases b with
  | fresh =>
      rw [h.1]
      exact h.2
  | plain => exact h
  | draining before => exact h.1.trans h.2
  | burst replies =>
      have hcover := h.2
      have := le_max_right replies 0
      omega
  | calling replies =>
      obtain ⟨-, hpos, hcover⟩ := h
      omega
  | spent replies =>
      obtain ⟨-, hpos, hcover⟩ := h
      omega

theorem Earned.uncalled (h : Earned p t) (hq : purse q = purse p) (hu : Uncalled t u)
    (hstats : u.stats.n_recv = t.stats.n_recv) : Earned q u := by
  have hcalls : reply_calls u.log = reply_calls t.log := hu.tally_eq .send_per_reply
  refine ⟨?_, by rw [hu.flags, hcalls]; exact h.opted⟩
  have hcovered := h.covered
  rw [hq]
  generalize purse p = b at hcovered
  cases b <;> simpa only [Covered, hu.flags, hcalls, hstats] using hcovered

theorem Earned.into (h : Earned p t) (hu : Uncalled t u) (hcovered : Covered (purse q) u) :
    Earned q u := by
  have hcalls : reply_calls u.log = reply_calls t.log := hu.tally_eq .send_per_reply
  exact ⟨hcovered, by rw [hu.flags, hcalls]; exact h.opted⟩

theorem Earned.leave (h : Earned p t) (hq : purse q = .plain) (hu : Uncalled t u)
    (hstats : u.stats.n_recv = t.stats.n_recv) : Earned q u := by
  have hcalls : reply_calls u.log = reply_calls t.log := hu.tally_eq .send_per_reply
  refine h.into hu ?_
  rw [hq, Covered, hcalls, hstats]
  exact h.covered.plain

theorem Earned.enter {c : Caller} {seq : UInt16} (h : Earned (.called c seq) t) :
    Earned (.opened c seq) (t.record (.entered (.send_one c.site seq))) := by
  have hrest : c.site ≠ .send_per_reply → purse (.called c seq) = .plain →
      purse (.opened c seq) = .plain →
      Earned (.opened c seq) (t.record (.entered (.send_one c.site seq))) := by
    intro hsite hp hq
    have hcovered := h.covered
    have hcalls : reply_calls (t.record (.entered (.send_one c.site seq))).log =
        reply_calls t.log := tally_miss (by simp [calledFrom, sendSite, hsite]) t.log
    rw [hp] at hcovered
    refine ⟨?_, fun hflood => hcalls.trans (h.opted hflood)⟩
    rw [hq, Covered, hcalls]
    exact hcovered
  cases c with
  | send_preload i => exact hrest (fun hsite => by cases hsite) rfl rfl
  | paced p =>
      cases p with
      | ping_run => exact hrest (fun hsite => by cases hsite) rfl rfl
      | send_if_due => exact hrest (fun hsite => by cases hsite) rfl rfl
      | send_per_reply replies =>
          obtain ⟨hflood, hpos, hcover⟩ := h.covered
          have hmore : reply_calls (t.record (.entered (.send_one .send_per_reply seq))).log =
              reply_calls t.log + 1 := tally_hit rfl t.log
          refine ⟨⟨hflood, hpos, ?_⟩, fun hnone => ?_⟩
          · change (reply_calls (t.record (.entered (.send_one .send_per_reply seq))).log : ℤ) +
              replies ≤ t.stats.n_recv + 1
            rw [hmore]
            omega
          · exact absurd (hflood.symm.trans hnone) (by decide)

-- The next packet of the burst has the next reply to cover it.
theorem Earned.stamp {p : Paced} {now : Nat} (h : Earned (.stamped p now) t) :
    Earned p.next (t.stamp (timespec now)) := by
  have hu : Uncalled t (t.stamp (timespec now)) := ⟨rfl, Or.inl rfl⟩
  cases p with
  | ping_run => exact h.uncalled rfl hu rfl
  | send_if_due => exact h.uncalled rfl hu rfl
  | send_per_reply replies =>
      obtain ⟨hflood, hpos, hcover⟩ := h.covered
      refine h.into hu ⟨hflood, ?_⟩
      rw [max_eq_left (by omega)]
      change (reply_calls t.log : ℤ) + (replies - 1) ≤ t.stats.n_recv
      omega

theorem Earned.edge (h : Earned p t) (he : Edge host net monotone p t q u) : Earned q u := by
  have hcovered := h.covered
  cases he with
  | env _ _ _ hr =>
      cases hr
      exact h.uncalled rfl ⟨rfl, Or.inl rfl⟩ rfl
  | zero t =>
      refine h.into ⟨rfl, Or.inl rfl⟩ ?_
      change (reply_calls t.log : ℤ) ≤ 0
      rw [show reply_calls t.log = 0 from hcovered.1]
      rfl
  | enter c seq t => exact h.enter
  | payload c seq now t =>
      exact h.uncalled rfl ⟨(write_payload_kept seq _ t.ctx).1, Or.inl rfl⟩ rfl
  | stamp p now t => exact h.stamp
  | drain t => exact h.into ⟨rfl, Or.inl rfl⟩ ⟨hcovered, Int.le_refl _⟩
  | count_reply before d now t =>
      refine h.into ⟨rfl, Or.inr ⟨_, rfl, rfl⟩⟩ ⟨hcovered.1, ?_⟩
      change before ≤ t.stats.n_recv + 1
      have := hcovered.2
      omega
  | burst_start before t _ hflood =>
      obtain ⟨hcalls, hbefore⟩ := hcovered
      refine h.into ⟨rfl, Or.inl rfl⟩ ⟨hflood, ?_⟩
      rw [max_eq_left (by omega)]
      omega
  | burst_go replies t hpos _ =>
      refine h.into ⟨rfl, Or.inr ⟨_, rfl, rfl⟩⟩ ⟨hcovered.1, hpos, ?_⟩
      have hcover := hcovered.2
      rw [max_eq_left (by omega)] at hcover
      exact hcover
  | burst_call replies now t _ => exact h.uncalled rfl ⟨rfl, Or.inl rfl⟩ rfl
  | _ => first
      | exact h.uncalled rfl ⟨rfl, Or.inl rfl⟩ rfl
      | exact h.uncalled rfl ⟨rfl, Or.inr ⟨_, rfl, rfl⟩⟩ rfl
      | exact h.leave rfl ⟨rfl, Or.inl rfl⟩ rfl
      | exact h.leave rfl ⟨rfl, Or.inr ⟨_, rfl, rfl⟩⟩ rfl

end Replies

end Flow

end FtPing
