import FtPing.Flow.Preload
import FtPing.Net.Replies

namespace FtPing

open Bytes History Interaction

def isCounted : Event → Bool
  | .countedReply _ => true
  | _ => false

def isDry : Event → Bool
  | .receiveFailed _ => true
  | _ => false

-- Whether a drain has ended with a reply counted.
def answered : List Entry → Bool
  | [] => false
  | entry :: log => answered log || (isDry entry.event && decide (0 < tally isCounted log))

theorem answered_lasting (entry : Entry) (log : List Entry) (h : answered log = true) :
    answered (entry :: log) = true := by
  rw [answered, h, Bool.true_or]

-- How many of our replies have come in since the latest poll().
def drained_replies (host : Endian) (id : UInt16) (len : Nat) : List Entry → Nat
  | [] => 0
  | entry :: log =>
      if isPolled entry.event then 0
      else drained_replies host id len log + if answers host id len entry.event then 1 else 0

theorem drained_replies_le (host : Endian) (id : UInt16) (len : Nat) (log : List Entry) :
    drained_replies host id len log ≤ tally (answers host id len) log := by
  induction log with
  | nil => exact Nat.le_refl _
  | cons entry log ih =>
      rw [drained_replies, tally_cons]
      split_ifs <;> omega

theorem tally_suffix (what : Event → Bool) {log longer : List Entry} (h : log <:+ longer) :
    tally what log ≤ tally what longer :=
  h.sublist.countP_le

namespace Flow

variable {N : Type} {host : Endian} {net : Network N} {monotone : Prop} {s t u : State N}
  {p q : Point}

theorem Path.n_recv_counted (h : Path host net monotone .start s q t)
    (hs : s.stats = Stats.zero) (hlog : s.log = []) :
    t.stats.n_recv = tally isCounted t.log := by
  have hsum := h.conserved hs (fun t => t.stats.n_recv - tally isCounted t.log) (fun _ => 0)
    fun p t q u _ hzero he => by
      cases he with
      | env _ _ _ hr =>
          cases hr
          rfl
      | zero t =>
          rw [hzero rfl]
      | count_reply before d now t =>
          change t.stats.n_recv + 1 - (tally isCounted
            (⟨t.now, t.stop, .countedReply (rtt host t d now)⟩ :: t.log) : ℤ) + 0 =
              t.stats.n_recv - tally isCounted t.log + 0
          rw [tally_hit rfl]
          omega
      | _ => rfl
  rw [hs, hlog] at hsum
  simp only [tally, Stats.zero, List.countP_nil] at hsum ⊢
  omega

section FirstReply

-- Where the program may be once a drain has ended with a reply counted.
def leaving : Point → Bool
  | .recvFailed => true
  | .drained _ => true
  | .finished => true
  | _ => false

-- At most the line about recvfrom() comes after that.
def complaints : Point → Nat
  | .finished => 1
  | _ => 0

structure Leaving (p : Point) (t : State N) : Prop where
  unanswered : leaving p = true ∧ since answered t.log ≤ complaints p ∨ answered t.log = false
  last : Every (fun entry earlier => answered earlier = true →
    entry.event = .printed (.perror "recvfrom")) t.log

theorem Leaving.none (h : Leaving p t) (hp : leaving p = false) : answered t.log = false :=
  h.unanswered.resolve_left fun hleaving => by
    rw [hp] at hleaving
    cases hleaving.1

theorem Leaving.same (h : Leaving p t) (hq : leaving q = leaving p)
    (hle : complaints p ≤ complaints q) (hlog : u.log = t.log) : Leaving q u := by
  refine ⟨?_, by rw [hlog]; exact h.last⟩
  rw [hq, hlog]
  exact h.unanswered.imp_left fun hleaving => ⟨hleaving.1, hleaving.2.trans hle⟩

-- An entry where no drain has left a reply yet, and that ends none itself.
theorem Leaving.record {entry : Entry} (h : Leaving p t) (hp : leaving p = false)
    (hlog : u.log = entry :: t.log) (hentry : isDry entry.event = false) : Leaving q u := by
  have hnone := h.none hp
  refine ⟨Or.inr ?_, ?_⟩
  · rw [hlog, answered, hnone, hentry]
    rfl
  · rw [hlog]
    refine h.last.cons fun htrue => ?_
    rw [hnone] at htrue
    cases htrue

theorem Leaving.onward (h : Leaving p t) (hp : leaving p = false) (hlog : u.log = t.log) :
    Leaving q u :=
  ⟨Or.inr (by rw [hlog]; exact h.none hp), by rw [hlog]; exact h.last⟩

theorem Leaving.dry {before : Int} {errno : Errno} (h : Leaving (.draining before) t)
    (hq : leaving q = true) : Leaving q (t.record (.receiveFailed errno)) := by
  have hnone := h.none rfl
  refine ⟨Or.inl ⟨hq, (since_first hnone).trans_le (Nat.zero_le _)⟩, h.last.cons fun htrue => ?_⟩
  rw [hnone] at htrue
  cases htrue

theorem Leaving.complain (h : Leaving .recvFailed t) :
    Leaving .finished (t.record (.printed (.perror "recvfrom"))) := by
  refine ⟨Or.inl ⟨rfl, (since_cons _ _).trans ?_⟩, h.last.cons fun _ => rfl⟩
  have hnone : since answered t.log ≤ 0 := by
    rcases h.unanswered with hleaving | hnone
    · exact hleaving.2
    · exact (since_none answered_lasting hnone).le
  exact Nat.succ_le_succ hnone

theorem unanswered_of_uncounted {log : List Entry} (h : tally isCounted log = 0) :
    answered log = false := by
  induction log with
  | nil => rfl
  | cons entry log ih =>
      rw [tally_cons] at h
      have hnone : tally isCounted log = 0 := by omega
      rw [answered, ih hnone, hnone]
      simp

-- What stays in the loop has no reply counted.
theorem Leaving.stay {before : Int} (h : Leaving (.drained before) t)
    (hcounted : t.stats.n_recv = tally isCounted t.log) (hreply : ¬ 0 < t.stats.n_recv)
    (hlog : u.log = t.log) : Leaving q u := by
  have hnone : answered t.log = false := unanswered_of_uncounted (by omega)
  exact ⟨Or.inr (by rw [hlog]; exact hnone), by rw [hlog]; exact h.last⟩

theorem Leaving.edge (h : Leaving p t) (hopted : t.ctx.flags.exit_on_reply = true)
    (hcounted : t.stats.n_recv = tally isCounted t.log) (he : Edge host net monotone p t q u) :
    Leaving q u := by
  cases he with
  | env _ _ _ hr =>
      cases hr
      exact h.same rfl (Nat.le_refl _) rfl
  | recv_dry before errno t _ => exact h.dry rfl
  | recv_failed before errno t _ => exact h.dry rfl
  | complain_recv t => exact h.complain
  | burst_start before t hnone _ =>
      exact h.stay hcounted (fun hpos => hnone ⟨hopted, hpos⟩) rfl
  | burst_skip before t hnone _ =>
      exact h.stay hcounted (fun hpos => hnone ⟨hopted, hpos⟩) rfl
  | _ => first
      | exact h.same rfl (Nat.le_refl _) rfl
      | exact h.same rfl (Nat.zero_le _) rfl
      | exact h.onward rfl rfl
      | exact h.record rfl rfl rfl

end FirstReply

section OneDrain

variable (host) (id : UInt16) (len : Nat)

-- Where a drain may have brought something in.
def collecting : Point → Bool
  | .readable => true
  | .draining _ => true
  | .judging _ _ => true
  | .timing _ _ _ => true
  | .recorded _ _ _ => true
  | .reporting _ _ _ => true
  | .recvFailed => true
  | .drained _ => true
  | .finished => true
  | _ => false

-- With -o all replies are those of the latest drain.
def OneDrain (p : Point) (t : State N) : Prop :=
  drained_replies host id len t.log = tally (answers host id len) t.log ∧
    (collecting p = true ∨ tally (answers host id len) t.log = 0)

variable {host id len}

-- A step on which no datagram comes in; if there is an entry it may be that of a poll().
theorem OneDrain.quiet (h : OneDrain host id len p t) (hq : collecting q = collecting p)
    (hlog : u.log = t.log ∨ ∃ entry, u.log = entry :: t.log ∧
      isPolled entry.event = false ∧ answers host id len entry.event = false) :
    OneDrain host id len q u := by
  rcases hlog with hlog | ⟨entry, hlog, hpolled, hanswer⟩
  · rw [OneDrain, hq, hlog]
    exact h
  · rw [OneDrain, hq, hlog, drained_replies, tally_miss hanswer, hpolled, hanswer]
    exact h

theorem OneDrain.none (h : OneDrain host id len p t) (hp : collecting p = false) :
    tally (answers host id len) t.log = 0 :=
  h.2.resolve_left (by rw [hp]; exact Bool.false_ne_true)

theorem OneDrain.of_none (hnone : tally (answers host id len) u.log = 0) :
    OneDrain host id len q u := by
  have hle := drained_replies_le host id len u.log
  exact ⟨by omega, Or.inr hnone⟩

theorem OneDrain.onward (h : OneDrain host id len p t) (hp : collecting p = false)
    (hlog : u.log = t.log ∨ ∃ entry, u.log = entry :: t.log ∧
      answers host id len entry.event = false) : OneDrain host id len q u := by
  refine .of_none ?_
  rcases hlog with hlog | ⟨entry, hlog, hanswer⟩
  · rw [hlog]
    exact h.none hp
  · rw [hlog, tally_miss hanswer]
    exact h.none hp

theorem OneDrain.receive {before : Int} {d : Datagram} {v : State N}
    (h : OneDrain host id len (.draining before) t)
    (hlog : v.log = ⟨t.now, t.stop, .received d⟩ :: t.log) (hq : collecting q = true) :
    OneDrain host id len q v := by
  refine ⟨?_, Or.inl hq⟩
  rw [hlog, drained_replies, tally_cons, h.1]
  rfl

theorem OneDrain.edge (h : OneDrain host id len p t) (hopted : t.ctx.flags.exit_on_reply = true)
    (hreplies : t.stats.n_recv + unrecorded host id p = tally (answers host id len) t.log)
    (he : Edge host net monotone p t q u) : OneDrain host id len q u := by
  have hstay : ∀ before, p = .drained before →
      ¬ (t.ctx.flags.exit_on_reply = true ∧ 0 < t.stats.n_recv) →
      tally (answers host id len) t.log = 0 := by
    rintro before rfl hnone
    have hzero : ¬ 0 < t.stats.n_recv := fun hpos => hnone ⟨hopted, hpos⟩
    simp only [unrecorded] at hreplies
    omega
  cases he with
  | env _ _ _ hr =>
      cases hr
      exact h.quiet rfl (Or.inl rfl)
  | receive before d t n _ => exact h.receive rfl rfl
  | burst_start before t hnone _ => exact .of_none (hstay before rfl hnone)
  | burst_skip before t hnone _ => exact .of_none (hstay before rfl hnone)
  | stamp p now t => cases p <;> exact h.quiet rfl (Or.inl rfl)
  | _ => first
      | exact h.quiet rfl (Or.inl rfl)
      | exact h.quiet rfl (Or.inr ⟨_, rfl, rfl, rfl⟩)
      | exact h.onward rfl (Or.inl rfl)
      | exact h.onward rfl (Or.inr ⟨_, rfl, rfl⟩)

end OneDrain

end Flow

-- No more than one of our replies has come in since the latest poll().
def SingleReply (host : Endian) (ctx : Ctx) (entry : Entry) (earlier : List Entry) : Prop :=
  drained_replies host ctx.id ctx.recvbuf_len (entry :: earlier) ≤ 1

-- A run with -o ends with at most one reply counted if, and only if, no drain brings in a
-- second one.
theorem one_reply_iff {N : Type} (host : Endian) (net : Network N) (monotone : Prop) (ctx : Ctx)
    (n : N) (t : State N) (hopted : ctx.flags.exit_on_reply = true)
    (h : Reach (world net monotone) (ping_run host, .initial ctx n) (.ret (), t)) :
    t.stats.n_recv ≤ 1 ↔ Every (SingleReply host ctx) t.log := by
  have hpath := (Flow.ping_run_follows .here (.ret ()) t h).2
  have hdrain := hpath.invariant (Flow.OneDrain host ctx.id ctx.recvbuf_len) ⟨rfl, Or.inr rfl⟩
    fun q t r u hwalk ht he =>
      ht.edge (by rw [hwalk.ctx_kept.1]; exact hopted) (hwalk.n_recv rfl rfl) he
  have hreplies : t.stats.n_recv + 0 = tally (answers host ctx.id ctx.recvbuf_len) t.log :=
    hpath.n_recv rfl rfl
  have hall := hdrain.1
  constructor
  · intro hone entry earlier hsuffix
    have hle := drained_replies_le host ctx.id ctx.recvbuf_len (entry :: earlier)
    have hmono := tally_suffix (answers host ctx.id ctx.recvbuf_len) hsuffix
    rw [SingleReply]
    omega
  · intro hsingle
    cases hlog : t.log with
    | nil =>
        rw [hlog] at hreplies
        have hzero : tally (answers host ctx.id ctx.recvbuf_len) [] = 0 := rfl
        omega
    | cons entry earlier =>
        have hlatest := hsingle entry earlier ⟨[], hlog.symm⟩
        rw [SingleReply, ← hlog] at hlatest
        omega

-- -o -l 1, and a reply to each of the two probes.
def two_probes : State Unit :=
  loopback { Flags.zero with exit_on_reply := true, has_preload := true, preload := 1 }

def second_reply : Datagram :=
  0x45 :: List.replicate 19 0 ++ [0, 0, 0xCB, 0xEC, 0x34, 0x12, 0, 1]

def two_probes_answers (recvs : List (Except Errno (List UInt8))) : Answers :=
  ⟨[0, 0, 0, 0, 0, 0], [none, none], [(false, .readable)], recvs⟩

-- Both are there when the first drain begins.
theorem two_replies_in_one_drain :
    ∃ t, Reach (world Network.free True) (ping_run .little, two_probes) (.ret (), t) ∧
      t.stats.n_recv = 2 := by
  have hrun : (exec (play true) 3 (ping_run .little) (two_probes_answers
      [.ok bare_reply, .ok second_reply, .error .EAGAIN], two_probes)).map
      (fun r => r.2.2.stats.n_recv) = some 2 := by
    decide +kernel
  obtain ⟨⟨value, k, t⟩, hexec, hcount⟩ := Option.map_eq_some_iff.mp hrun
  exact ⟨t, exec_reach (play_plays true True fun _ => rfl) 3 _ _ _ hexec, hcount⟩

-- Only the first one is.
theorem one_reply_iff_first_only :
    ∃ t, Reach (world Network.free True) (ping_run .little, two_probes) (.ret (), t) ∧
      t.stats.n_recv = 1 ∧ Every (SingleReply .little two_probes.ctx) t.log := by
  have hrun : (exec (play true) 3 (ping_run .little) (two_probes_answers
      [.ok bare_reply, .error .EAGAIN], two_probes)).map
      (fun r => r.2.2.stats.n_recv) = some 1 := by
    decide +kernel
  obtain ⟨⟨value, k, t⟩, hexec, hcount⟩ := Option.map_eq_some_iff.mp hrun
  have hreach := exec_reach (play_plays true True fun _ => rfl) 3 _ _ _ hexec
  refine ⟨t, hreach, hcount, ?_⟩
  exact (one_reply_iff .little Network.free True two_probes.ctx () t rfl hreach).mp
    (by rw [hcount])

end FtPing
