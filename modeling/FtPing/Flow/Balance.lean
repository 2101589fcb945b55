import FtPing.Core.Context
import FtPing.Flow.Loop

namespace FtPing

open Bytes Interaction

-- How often something has happened.
def tally (what : Event → Bool) (log : List Entry) : Nat :=
  log.countP fun entry => what entry.event

theorem tally_cons (what : Event → Bool) (entry : Entry) (log : List Entry) :
    tally what (entry :: log) = tally what log + if what entry.event then 1 else 0 :=
  List.countP_cons

theorem tally_hit {what : Event → Bool} {entry : Entry} (h : what entry.event = true)
    (log : List Entry) : tally what (entry :: log) = tally what log + 1 := by
  rw [tally_cons, if_pos h]

theorem tally_miss {what : Event → Bool} {entry : Entry} (h : what entry.event = false)
    (log : List Entry) : tally what (entry :: log) = tally what log := by
  rw [tally_cons, h]
  rfl

def isSent : Event → Bool
  | .sent _ => true
  | _ => false

-- The receipt of a datagram that is one of our replies, as far as it fits the buffer.
def answers (host : Endian) (id : UInt16) (len : Nat) : Event → Bool
  | .received d => is_reply host id (d.take len)
  | _ => false

theorem not_reply {host : Endian} {flags : Flags} {id : UInt16} {d : Datagram}
    (h : ∀ ihl seq, verdict host flags id d ≠ .reply ihl seq) : is_reply host id d = false := by
  cases hreply : is_reply host id d with
  | false => rfl
  | true => exact absurd (verdict_of_is_reply host hreply) (h _ _)

namespace Flow

variable {N : Type} {host : Endian} {net : Network N} {monotone : Prop} {s t : State N}
  {q : Point}

-- Between the point `p` and the next one outside of send_one() and of the reply step there is
-- still this much to be done: to count and to show a datagram that has gone out, and to record
-- and to erase a reply that has come in.
def uncounted : Point → ℤ
  | .accepted _ => 1
  | _ => 0

def undotted : Point → ℤ
  | .counted _ => 1
  | _ => 0

def unrecorded (host : Endian) (id : UInt16) : Point → ℤ
  | .judging _ d => if is_reply host id d then 1 else 0
  | .timing _ _ _ => 1
  | _ => 0

theorem unrecorded_other {id : UInt16} {flags : Flags} {before : Int} {d : Datagram}
    (h : ∀ ihl seq, verdict host flags id d ≠ .reply ihl seq) :
    unrecorded host id (.judging before d) = 0 := by
  rw [unrecorded, not_reply h]
  rfl

theorem Edge.into_start {p : Point} (he : Edge host net monotone p s q t) (hq : q = .start) :
    p = .start ∧ t.stats = s.stats := by
  cases he with
  | env _ _ _ hr =>
      cases hr
      exact ⟨hq, rfl⟩
  | scratch _ _ buf => exact ⟨hq, rfl⟩
  | stamp p now _ => cases p <;> cases hq
  | _ => cases hq

-- What every step of a run keeps, up to what is owed at the point it has come to, is the same
-- in the end as at the start, where nothing is counted yet.
theorem Path.conserved (h : Path host net monotone .start s q t) (hs : s.stats = Stats.zero)
    (amount : State N → ℤ) (owed : Point → ℤ)
    (hedge : ∀ p t q u, Path host net monotone .start s p t →
      (p = .start → t.stats = Stats.zero) → Edge host net monotone p t q u →
      amount u + owed q = amount t + owed p) :
    amount t + owed q = amount s + owed .start := by
  have hstart : (q = .start → t.stats = Stats.zero) ∧
      amount t + owed q = amount s + owed .start :=
    h.invariant (fun p t => (p = .start → t.stats = Stats.zero) ∧
      amount t + owed p = amount s + owed .start) ⟨fun _ => hs, rfl⟩
      fun p t q u hwalk ht he => by
        refine ⟨fun hq => ?_, (hedge p t q u hwalk ht.1 he).trans ht.2⟩
        obtain ⟨hp, hstats⟩ := he.into_start hq
        exact hstats.trans (ht.1 hp)
  exact hstart.2

theorem Path.n_sent (h : Path host net monotone .start s q t) (hs : s.stats = Stats.zero)
    (hlog : s.log = []) : t.stats.n_sent + uncounted q = tally isSent t.log := by
  have hsum := h.conserved hs (fun t => t.stats.n_sent - tally isSent t.log) uncounted
    fun p t q u _ hzero he => by
      cases he with
      | env _ _ _ hr =>
          cases hr
          rfl
      | zero t =>
          rw [hzero rfl]
          rfl
      | transmit c buf t n h =>
          change t.stats.n_sent - tally isSent (⟨t.now, t.stop, .sent buf⟩ :: t.log) + 1 =
            t.stats.n_sent - tally isSent t.log + 0
          rw [tally_hit rfl]
          omega
      | count_sent c t =>
          change t.stats.n_sent + 1 - tally isSent t.log + 0 =
            t.stats.n_sent - tally isSent t.log + 1
          ring
      | stamp p now t => cases p <;> rfl
      | _ => rfl
  rw [hs, hlog] at hsum
  simp only [uncounted, tally, Stats.zero, List.countP_nil] at hsum ⊢
  omega

theorem Path.n_recv (h : Path host net monotone .start s q t) (hs : s.stats = Stats.zero)
    (hlog : s.log = []) : t.stats.n_recv + unrecorded host s.ctx.id q =
      tally (answers host s.ctx.id s.ctx.recvbuf_len) t.log := by
  have hsum := h.conserved hs
    (fun t => t.stats.n_recv - tally (answers host s.ctx.id s.ctx.recvbuf_len) t.log)
    (unrecorded host s.ctx.id)
    fun p t q u hwalk hzero he => by
      obtain ⟨-, hid, hlen⟩ := hwalk.ctx_kept
      cases he with
      | env _ _ _ hr =>
          cases hr
          rfl
      | zero t =>
          rw [hzero rfl]
          rfl
      | receive before d t n hdeliver =>
          change t.stats.n_recv - tally (answers host s.ctx.id s.ctx.recvbuf_len)
            (⟨t.now, t.stop, .received d⟩ :: t.log) +
            (if is_reply host s.ctx.id (d.take t.ctx.recvbuf_len) then 1 else 0) = _
          rw [tally_cons, answers, hlen]
          split_ifs
          · simp only [unrecorded]
            omega
          · rfl
      | ignore before d t hverdict =>
          rw [hid] at hverdict
          rw [unrecorded_other fun ihl seq => by rw [hverdict]; nofun]
          rfl
      | fault before d line t hverdict =>
          rw [hid] at hverdict
          rw [unrecorded_other fun ihl seq => by rw [hverdict]; nofun]
          rfl
      | read_receipt before d t hreply =>
          rw [hid] at hreply
          simp only [unrecorded, hreply]
          rfl
      | count_reply before d now t =>
          change t.stats.n_recv + 1 - tally _ t.log + 0 = t.stats.n_recv - tally _ t.log + 1
          ring
      | stamp p now t => cases p <;> rfl
      | _ => rfl
  rw [hs, hlog] at hsum
  simp only [unrecorded, tally, Stats.zero, List.countP_nil] at hsum ⊢
  omega

section Display

variable (hflood : s.ctx.flags.flood = true) (hquiet : s.ctx.flags.quiet = false)

include hflood hquiet

end Display

end Flow

end FtPing
