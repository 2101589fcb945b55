import FtPing.Flow.Attempts
import FtPing.Net.Replies

namespace FtPing

open Bytes History Interaction

-- The reading that the latest call with this number has taken, if there has been one.
def last_reading (seq : UInt16) (calls : List Attempt) : Option Nat :=
  (calls.find? fun call => call.seq = seq).bind Attempt.reading

theorem last_reading_cons (seq : UInt16) (call : Attempt) (calls : List Attempt) :
    last_reading seq (call :: calls) =
      if call.seq = seq then call.reading else last_reading seq calls := by
  rw [last_reading, List.find?_cons]
  by_cases h : call.seq = seq
  · rw [decide_eq_true h, if_pos h]
    rfl
  · rw [decide_eq_false h, if_neg h]
    rfl

theorem slot_injective {seq seq' : UInt16} (h : slot seq = slot seq') : seq = seq' := by
  have hval := congrArg Fin.val h
  simp only [slot, PING_TS_RING] at hval
  have hlt := seq.toNat_lt
  have hlt' := seq'.toNat_lt
  exact UInt16.toNat_inj.mp (by omega)

namespace Flow

variable {N : Type} {host : Endian} {net : Network N} {monotone : Prop} {s t u : State N}
  {p q : Point} {id : UInt16} {len : Nat}

-- What the ring has for each number: the latest reading, and zero where there is none.
def Recalls (t : State N) (calls : List Attempt) : Prop :=
  ∀ seq, t.ctx.send_ts (slot seq) = timespec ((last_reading seq calls).getD 0)

-- The calls that the ring knows of. The latest one is not among them from its entry to the
-- storing of its reading.
def known : Phase → List Attempt → List Attempt
  | .pending _, calls => calls.tail
  | .read _ _, calls => calls.tail
  | _, calls => calls

-- Whatever number a reply has, the time that is recorded for it is that since the latest call
-- with this number; a number that has not been used counts as sent at the origin of the clock.
def TimedByLatest (host : Endian) (id : UInt16) (len : Nat) (entry : Entry)
    (earlier : List Entry) : Prop :=
  ∀ rtt, entry.event = .countedReply rtt →
    ∃ receipt stop before whole, earlier = ⟨receipt, stop, .clock .record_rtt⟩ :: before ∧
      latest before = some whole ∧ is_reply host id (whole.take len) = true ∧
      rtt = ms receipt -
        ms ((last_reading (Datagram.sequence host (whole.take len)) (attempts before)).getD 0)

structure Recalling (host : Endian) (id : UInt16) (len : Nat) (p : Point) (t : State N) : Prop where
  ring : Recalls t (known (phase p) (attempts t.log))
  timed : Every (TimedByLatest host id len) t.log

-- A step that neither stores a reading nor records a reply.
theorem Recalling.grow {entry : Entry} (h : Recalling host id len p t)
    (hring : u.ctx.send_ts = t.ctx.send_ts) (hlog : u.log = entry :: t.log)
    (hknown : known (phase q) (attempts (entry :: t.log)) = known (phase p) (attempts t.log))
    (hentry : ∀ rtt, entry.event ≠ .countedReply rtt) : Recalling host id len q u := by
  refine ⟨?_, ?_⟩
  · rw [Recalls, hlog, hknown, hring]
    exact h.ring
  · rw [hlog]
    exact h.timed.cons fun rtt hrtt => absurd hrtt (hentry rtt)

theorem Recalls.push {calls : List Attempt} (h : Recalls t calls) (seq : UInt16) (now : Nat)
    (hring : u.ctx.send_ts = Function.update t.ctx.send_ts (slot seq) (timespec now)) :
    Recalls u (⟨seq, some now⟩ :: calls) := by
  intro other
  rw [last_reading_cons, hring]
  by_cases hsame : seq = other
  · rw [hsame, if_pos rfl, Function.update_self]
    rfl
  · rw [if_neg hsame, Function.update_of_ne fun hslot => hsame (slot_injective hslot).symm]
    exact h other

theorem Recalling.count_reply {before : Int} {d : Datagram} {now : Nat}
    (h : Recalling host id len (.timing before d now) t)
    (hinv : Inv host id len monotone (.timing before d now) t) :
    Recalling host id len (.recorded before d (rtt host t d now))
      { t.record (.countedReply (rtt host t d now)) with
        stats := fold_rtt t.stats (rtt host t d now) } := by
  obtain ⟨-, hreply, stop, earlier, whole, hlog, hlatest, rfl, -⟩ := hinv.holds
  refine ⟨h.ring, h.timed.cons fun time htime => ?_⟩
  cases htime
  refine ⟨now, stop, earlier, whole, hlog, hlatest, hreply, ?_⟩
  have hring : Recalls t (attempts t.log) := h.ring
  have hcalls : attempts t.log = attempts earlier := by
    rw [hlog]
    exact attempts_silent rfl earlier
  rw [rtt, hring, elapsed_ms_timespec, hcalls]

theorem Path.recalling (h : Path host net monotone .start s q t) (hlog : s.log = [])
    (hzero : ∀ seq, s.ctx.send_ts (slot seq) = ⟨0, 0⟩) :
    Recalling host s.ctx.id s.ctx.recvbuf_len q t := by
  refine h.invariant (Recalling host s.ctx.id s.ctx.recvbuf_len) ⟨?_, ?_⟩
    fun p t q u hwalk ht he => ?_
  · have horigin : timespec 0 = ⟨0, 0⟩ := rfl
    rw [hlog]
    exact fun seq => (hzero seq).trans horigin.symm
  · rw [hlog]
    exact every_nil _
  have hinv := hwalk.inv hlog
  cases he with
  | env p _ _ hr =>
      cases hr
      exact ⟨ht.ring, ht.timed⟩
  | scratch p _ buf => exact ⟨ht.ring, ht.timed⟩
  | limited now t => exact ⟨ht.ring, ht.timed⟩
  | unlimited t _ => exact ⟨ht.ring, ht.timed⟩
  | enter c seq t => exact ht.grow rfl rfl rfl fun _ h => by cases h
  | read_sent c seq t =>
      obtain ⟨earlier, hcalls, -⟩ := hinv.holds
      refine ht.grow rfl rfl ?_ fun _ h => by cases h
      simp only [attempts, hcalls]
      rfl
  | payload c seq now t =>
      obtain ⟨earlier, hcalls, -⟩ := hinv.holds
      have hring := ht.ring
      refine ⟨?_, ht.timed⟩
      change Recalls _ (attempts t.log)
      rw [hcalls] at hring ⊢
      exact Recalls.push hring seq now (write_payload_send_ts host _ (timespec now) t.ctx)
  | count_reply before d now t => exact ht.count_reply hinv
  | read_stamp p t => exact ht.grow rfl rfl (by cases p <;> rfl) fun _ h => by cases h
  | stamp p now t => exact ⟨by cases p <;> exact ht.ring, ht.timed⟩
  | _ => first
      | exact ⟨ht.ring, ht.timed⟩
      | exact ht.grow rfl rfl rfl fun _ h => by cases h

end Flow

-- In every run, whatever replies come in, each of them is timed by the latest probe that bore its
-- number, a duplicate as the first one was, and one that nothing was sent for by the zeroed ring.
theorem replies_timed_by_latest {N : Type} (host : Endian) (net : Network N) (monotone : Prop)
    (flags : Flags) (dst : List UInt8) (id : UInt16) (n : N) :
    let ctx := ctx_alloc_buffers flags dst id
    Safe (world net monotone)
      (fun t => Every (Flow.TimedByLatest host id ctx.recvbuf_len) t.log)
      (fun _ _ => True) (ping_run host) (fun _ _ => True) (.initial ctx n) := by
  intro ctx
  refine safe_of_reach fun q t hr => ?_
  obtain ⟨p, hpath⟩ := Flow.ping_run_path host net monotone (.initial ctx n) t q hr
  exact (hpath.recalling rfl fun _ => rfl).timed

end FtPing
