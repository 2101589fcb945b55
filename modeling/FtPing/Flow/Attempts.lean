import FtPing.Flow.Loop
import FtPing.History

namespace FtPing

open Bytes History Interaction

-- A call of send_one(): the sequence number it was given, and its reading of the clock.
structure Attempt where
  seq : UInt16
  reading : Option Nat

-- The calls that a history shows, the latest first. A reading belongs to the latest call.
def attempts : List Entry → List Attempt
  | [] => []
  | entry :: log =>
      match entry.event, attempts log with
      | .entered (.send_one _ seq), calls => ⟨seq, none⟩ :: calls
      | .clock .fill_payload, call :: calls => ⟨call.seq, some entry.now⟩ :: calls
      | _, calls => calls

def Attempt.stamp (call : Attempt) : Option Timespec := call.reading.map timespec

theorem ring_pos : 0 < PING_TS_RING := by decide

theorem slot_ofNat (k : Nat) : slot (UInt16.ofNat k) = cell ring_pos k := by
  apply Fin.ext
  simp only [slot, cell, PING_TS_RING, UInt16.toNat_ofNat']
  omega

theorem slot_of_mod {seq : UInt16} {k : Nat} (h : seq.toNat = k % PING_TS_RING) :
    slot seq = cell ring_pos k := by
  apply Fin.ext
  simp only [slot, cell, h, Nat.mod_mod]

-- The timestamp ring has the readings of the latest of these calls.
def Ring {N : Type} (t : State N) (calls : List Attempt) : Prop :=
  Tracks ring_pos (some ∘ t.ctx.send_ts) (calls.map Attempt.stamp)

theorem write_payload_send_ts (host : Endian) (seq : UInt16) (now : Timespec) (ctx : Ctx) :
    (write_payload host seq now ctx).send_ts = Function.update ctx.send_ts (slot seq) now := by
  unfold write_payload fill_default
  split_ifs <;> rfl

-- fill_payload() puts its reading into the ring.
theorem Ring.push {N : Type} {t u : State N} {calls : List Attempt} (h : Ring t calls)
    (now : Nat) (hring : u.ctx.send_ts =
      Function.update t.ctx.send_ts (slot (UInt16.ofNat calls.length)) (timespec now)) :
    Ring u (⟨UInt16.ofNat calls.length, some now⟩ :: calls) := by
  have hpush := Tracks.push ring_pos h (some (timespec now))
  rw [List.length_map, ← Function.comp_update, ← slot_ofNat, ← hring] at hpush
  exact hpush

-- What a reply's sequence number finds there.
theorem Ring.lookup {N : Type} {t : State N} {calls : List Attempt} (h : Ring t calls)
    {seq : UInt16} {k : Nat} (hk : k < calls.length) (hwindow : calls.length ≤ k + PING_TS_RING)
    (hmod : seq.toNat = k % PING_TS_RING) :
    ∃ own sent, nth calls k = some ⟨own, some sent⟩ ∧
      t.ctx.send_ts (slot seq) = timespec sent := by
  obtain ⟨⟨own, reading⟩, hcall⟩ := exists_nth hk
  have hstamp : nth (calls.map Attempt.stamp) k = some (reading.map timespec) := by
    rw [nth_map, hcall]
    rfl
  have hcell : some (t.ctx.send_ts (cell ring_pos k)) = reading.map timespec :=
    h k _ hstamp (by rw [List.length_map]; exact hwindow)
  cases reading with
  | none => cases hcell
  | some sent => exact ⟨own, sent, hcall, by rw [slot_of_mod hmod]; exact Option.some.inj hcell⟩

namespace Flow

variable {N : Type}

-- Entries that do not bear on the calls of send_one() and the replies.
def silent : Event → Bool
  | .clock .fill_payload => false
  | .entered (.send_one _ _) => false
  | .received _ => false
  | .countedReply _ => false
  | _ => true

theorem attempts_silent {entry : Entry} (h : silent entry.event = true) (log : List Entry) :
    attempts (entry :: log) = attempts log := by
  obtain ⟨now, stop, event⟩ := entry
  cases event with
  | clock site => cases site <;> first | rfl | cases h
  | entered what => cases what <;> first | rfl | cases h
  | _ => rfl

-- What the timestamp ring is needed for: every recorded time is that between the receipt of a
-- reply and the call of send_one() that the reply answers, as long as the ring has its reading.
def Timed (host : Endian) (id : UInt16) (len : Nat) (monotone : Prop) (entry : Entry)
    (earlier : List Entry) : Prop :=
  ∀ rtt, entry.event = .countedReply rtt →
    ∃ receipt stop before whole, earlier = ⟨receipt, stop, .clock .record_rtt⟩ :: before ∧
      latest before = some whole ∧ is_reply host id (whole.take len) = true ∧
      ∀ k, k < (attempts before).length → (attempts before).length ≤ k + PING_TS_RING →
        (Datagram.sequence host (whole.take len)).toNat = k % PING_TS_RING →
        ∃ seq sent, nth (attempts before) k = some ⟨seq, some sent⟩ ∧
          rtt = ms receipt - ms sent ∧ (monotone → 0 ≤ rtt)

inductive Phase
  | setup
  | idle
  | called (seq : UInt16)
  | pending (seq : UInt16)
  | read (seq : UInt16) (now : Nat)
  | judging (d : Datagram)
  | timing (d : Datagram) (now : Nat)

def phase : Point → Phase
  | .start => .setup
  | .setup => .setup
  | .limiting _ => .setup
  | .called _ seq => .called seq
  | .opened _ seq => .pending seq
  | .headed _ seq => .pending seq
  | .filling _ seq now => .read seq now
  | .judging _ d => .judging d
  | .timing _ d now => .timing d now
  | _ => .idle

variable (host : Endian) (id : UInt16) (len : Nat) (monotone : Prop)

-- The next sequence number is the number of calls so far, and the ring knows them all.
def Level (t : State N) : Prop :=
  t.sched.seq = UInt16.ofNat (attempts t.log).length ∧ Ring t (attempts t.log)

-- The same inside the latest call, which the ring does not know yet.
def Behind (t : State N) (seq : UInt16) (reading : Option Nat) : Prop :=
  ∃ earlier, attempts t.log = ⟨seq, reading⟩ :: earlier ∧
    seq = UInt16.ofNat earlier.length ∧ t.sched.seq = seq + 1 ∧ Ring t earlier

def Holds : Phase → State N → Prop
  | .setup, t => attempts t.log = []
  | .idle, t => Level t
  | .called seq, t => seq = UInt16.ofNat (attempts t.log).length ∧ t.sched.seq = seq + 1 ∧
      Ring t (attempts t.log)
  | .pending seq, t => Behind t seq none
  | .read seq now, t => Behind t seq (some now)
  | .judging d, t => Level t ∧ ∃ whole, latest t.log = some whole ∧ d = whole.take len
  | .timing d now, t => Level t ∧ is_reply host id d = true ∧
      ∃ stop before whole, t.log = ⟨now, stop, .clock .record_rtt⟩ :: before ∧
        latest before = some whole ∧ d = whole.take len ∧
        (monotone → ∀ call ∈ attempts before, ∀ sent, call.reading = some sent → sent ≤ now)

structure Inv (p : Point) (t : State N) : Prop where
  holds : Holds host id len monotone (phase p) t
  numbered : ∀ k call, nth (attempts t.log) k = some call → call.seq = UInt16.ofNat k
  past : monotone → ∀ call ∈ attempts t.log, ∀ sent, call.reading = some sent → sent ≤ t.now
  timed : Every (Timed host id len monotone) t.log

-- A step that has nothing to do with calls and replies.
structure Quiet (t u : State N) : Prop where
  seq : u.sched.seq = t.sched.seq
  ring : u.ctx.send_ts = t.ctx.send_ts
  now : monotone → t.now ≤ u.now
  log : u.log = t.log ∨ ∃ entry, u.log = entry :: t.log ∧ silent entry.event = true

variable {host id len monotone}

theorem Quiet.attempts_eq {t u : State N} (h : Quiet monotone t u) :
    attempts u.log = attempts t.log := by
  rcases h.log with hlog | ⟨entry, hlog, hsilent⟩
  · rw [hlog]
  · rw [hlog, attempts_silent hsilent]

theorem Quiet.level {t u : State N} (h : Quiet monotone t u) (ht : Level t) : Level u := by
  rw [Level, Ring, h.seq, h.ring, h.attempts_eq]
  exact ht

theorem Quiet.behind {t u : State N} {seq : UInt16} {reading : Option Nat}
    (h : Quiet monotone t u) (ht : Behind t seq reading) : Behind u seq reading := by
  simp only [Behind, Ring, h.seq, h.ring, h.attempts_eq]
  exact ht

-- Only the phase has to be looked at after a quiet step.
theorem Inv.quiet {p q : Point} {t u : State N} (h : Inv host id len monotone p t)
    (hu : Quiet monotone t u) (hholds : Holds host id len monotone (phase q) u) :
    Inv host id len monotone q u := by
  refine ⟨hholds, ?_, ?_, ?_⟩
  · rw [hu.attempts_eq]
    exact h.numbered
  · rw [hu.attempts_eq]
    exact fun hm call hcall sent hsent => (h.past hm call hcall sent hsent).trans (hu.now hm)
  · rcases hu.log with hlog | ⟨entry, hlog, hsilent⟩
    · rw [hlog]
      exact h.timed
    · rw [hlog]
      refine h.timed.cons fun rtt hrtt => ?_
      rw [hrtt] at hsilent
      cases hsilent

theorem Holds.stable {ph : Phase} {t u : State N} (h : Holds host id len monotone ph t)
    (hu : Quiet monotone t u) (hlog : u.log = t.log) : Holds host id len monotone ph u := by
  cases ph with
  | setup => exact hu.attempts_eq.trans h
  | idle => exact hu.level h
  | called seq => simpa only [Holds, Ring, hu.seq, hu.ring, hu.attempts_eq] using h
  | pending seq => exact hu.behind h
  | read seq now => exact hu.behind h
  | judging d => exact ⟨hu.level h.1, by rw [hlog]; exact h.2⟩
  | timing d now => exact ⟨hu.level h.1, h.2.1, by rw [hlog]; exact h.2.2⟩

variable {net : Network N} {p q : Point} {t u : State N}

theorem Inv.enter {c : Caller} {seq : UInt16} (h : Inv host id len monotone (.called c seq) t) :
    Inv host id len monotone (.opened c seq) (t.record (.entered (.send_one c.site seq))) := by
  obtain ⟨hseq, hnext, hring⟩ := h.holds
  refine ⟨⟨attempts t.log, rfl, hseq, hnext, hring⟩, ?_, ?_, h.timed.cons fun rtt => nofun⟩
  · intro k call hk
    change nth (⟨seq, none⟩ :: attempts t.log) k = some call at hk
    rw [nth_cons] at hk
    split_ifs at hk with heq
    · cases hk
      rw [heq]
      exact hseq
    · exact h.numbered k call hk
  · intro hm call hcall sent hsent
    rcases List.mem_cons.mp hcall with rfl | hcall
    · cases hsent
    · exact h.past hm call hcall sent hsent

theorem Inv.read_sent {c : Caller} {seq : UInt16}
    (h : Inv host id len monotone (.headed c seq) t) :
    Inv host id len monotone (.filling c seq t.now) (t.record (.clock .fill_payload)) := by
  obtain ⟨earlier, hcalls, hseq, hnext, hring⟩ := h.holds
  have hnow : attempts (t.record (.clock .fill_payload)).log =
      ⟨seq, some t.now⟩ :: earlier := by
    simp only [State.record, attempts, hcalls]
  have hnumbered := h.numbered
  rw [hcalls] at hnumbered
  refine ⟨⟨earlier, hnow, hseq, hnext, hring⟩, ?_, ?_, h.timed.cons fun rtt => nofun⟩
  · intro k call hk
    rw [hnow, nth_cons] at hk
    split_ifs at hk with heq
    · cases hk
      rw [heq]
      exact hseq
    · exact hnumbered k call (by rw [nth_cons, if_neg heq]; exact hk)
  · intro hm call hcall sent hsent
    rw [hnow] at hcall
    rcases List.mem_cons.mp hcall with rfl | hcall
    · cases hsent
      exact Nat.le_refl _
    · exact h.past hm call (by rw [hcalls]; exact List.mem_cons_of_mem _ hcall) sent hsent

theorem Inv.payload {c : Caller} {seq : UInt16} {now : Nat}
    (h : Inv host id len monotone (.filling c seq now) t) :
    Inv host id len monotone (.filled c seq)
      (t.onCtx (write_payload host seq (timespec now))) := by
  obtain ⟨earlier, hcalls, rfl, hnext, hring⟩ := h.holds
  refine ⟨⟨?_, ?_⟩, h.numbered, h.past, h.timed⟩
  · have hlength : (attempts t.log).length = earlier.length + 1 := by rw [hcalls]; rfl
    rw [State.onCtx, hnext, hlength]
    exact UInt16.ofNat_add earlier.length 1 |>.symm
  · have hpush := hring.push (u := t.onCtx (write_payload host _ (timespec now))) now
      (write_payload_send_ts host _ (timespec now) t.ctx)
    change Ring _ (attempts t.log)
    rw [hcalls]
    exact hpush

theorem Inv.count_reply {before : Int} {d : Datagram} {now : Nat}
    (h : Inv host id len monotone (.timing before d now) t) :
    Inv host id len monotone (.recorded before d (rtt host t d now))
      { t.record (.countedReply (rtt host t d now)) with
        stats := fold_rtt t.stats (rtt host t d now) } := by
  obtain ⟨hlevel, hreply, stop, earlier, whole, hlog, hlatest, rfl, hpast⟩ := h.holds
  refine ⟨hlevel, h.numbered, h.past, h.timed.cons fun time htime => ?_⟩
  cases htime
  refine ⟨now, stop, earlier, whole, hlog, hlatest, hreply, fun k hk hwindow hmod => ?_⟩
  have hcalls : attempts t.log = attempts earlier := by
    rw [hlog]
    exact attempts_silent rfl earlier
  have hring := hlevel.2
  rw [hcalls] at hring
  obtain ⟨seq, sent, hcall, hslot⟩ := hring.lookup hk hwindow hmod
  have hrtt : rtt host t (whole.take len) now = ms now - ms sent := by
    rw [rtt, hslot, elapsed_ms_timespec]
  refine ⟨seq, sent, hcall, hrtt, fun hm => ?_⟩
  have hle := ms_le_ms (hpast hm _ (List.mem_reverse.mp (List.mem_of_getElem? hcall)) sent rfl)
  rw [hrtt]
  linarith

theorem Inv.idle (h : Inv host id len monotone p t) (hp : phase p = .idle) (hq : phase q = .idle)
    (hu : Quiet monotone t u) : Inv host id len monotone q u := by
  have hlevel := h.holds
  rw [hp] at hlevel
  exact h.quiet hu (by rw [hq]; exact hu.level hlevel)

theorem Inv.start {interval deadline : Numeric.Double} (h : Inv host id len monotone p t)
    (hp : phase p = .setup) :
    Inv host id len monotone (.preload 0) (t.setSched ⟨interval, deadline, .finite 0, 0⟩) := by
  have hnone := h.holds
  rw [hp] at hnone
  refine ⟨⟨?_, ?_⟩, h.numbered, h.past, h.timed⟩
  · change 0 = UInt16.ofNat (attempts t.log).length
    rw [show attempts t.log = [] from hnone]
    rfl
  · change Ring _ (attempts t.log)
    rw [show attempts t.log = [] from hnone]
    exact tracks_nil ring_pos _

theorem Inv.edge (hid : t.ctx.id = id) (hlen : t.ctx.recvbuf_len = len)
    (h : Inv host id len monotone p t) (he : Edge host net monotone p t q u) :
    Inv host id len monotone q u := by
  cases he with
  | env p t u hr =>
      have hquiet : Quiet monotone t u := by
        cases hr with
        | intro now stop n hnow hstop hnet => exact ⟨rfl, rfl, hnow, Or.inl rfl⟩
      exact h.quiet hquiet (h.holds.stable hquiet (by cases hr; rfl))
  | scratch p t buf =>
      have hquiet : Quiet monotone t (t.withRecvbuf buf) :=
        ⟨rfl, rfl, fun _ => Nat.le_refl _, Or.inl rfl⟩
      exact h.quiet hquiet (h.holds.stable hquiet rfl)
  | limited now t => exact h.start rfl
  | unlimited t _ => exact h.start rfl
  | take_seq c t =>
      obtain ⟨hseq, hring⟩ := h.holds
      exact ⟨⟨hseq, rfl, hring⟩, h.numbered, h.past, h.timed⟩
  | enter c seq t => exact h.enter
  | read_sent c seq t => exact h.read_sent
  | payload c seq now t => exact h.payload
  | header c seq t =>
      have hquiet : Quiet monotone t (t.onCtx (write_header host seq)) :=
        ⟨rfl, rfl, fun _ => Nat.le_refl _, Or.inl rfl⟩
      exact h.quiet hquiet (hquiet.behind h.holds)
  | stamp p now t =>
      exact h.idle rfl (by cases p <;> rfl) ⟨rfl, rfl, fun _ => Nat.le_refl _, Or.inl rfl⟩
  | read_stamp p t =>
      exact h.idle rfl rfl
        ⟨rfl, rfl, fun _ => Nat.le_refl _, Or.inr ⟨_, rfl, by cases p <;> rfl⟩⟩
  | receive before d t n hdeliver =>
      obtain ⟨hseq, hring⟩ := h.holds
      refine ⟨⟨⟨hseq, hring⟩, d, rfl, by rw [hlen]⟩, h.numbered, h.past, ?_⟩
      exact h.timed.cons fun rtt => nofun
  | ignore before d t hverdict =>
      have hquiet : Quiet monotone t t := ⟨rfl, rfl, fun _ => Nat.le_refl _, Or.inl rfl⟩
      exact h.quiet hquiet h.holds.1
  | fault before d line t hverdict =>
      have hquiet : Quiet monotone t (t.record (.printed line)) :=
        ⟨rfl, rfl, fun _ => Nat.le_refl _, Or.inr ⟨_, rfl, rfl⟩⟩
      exact h.quiet hquiet (hquiet.level h.holds.1)
  | read_receipt before d t hreply =>
      have hquiet : Quiet monotone t (t.record (.clock .record_rtt)) :=
        ⟨rfl, rfl, fun _ => Nat.le_refl _, Or.inr ⟨_, rfl, rfl⟩⟩
      obtain ⟨hlevel, whole, hlatest, hd⟩ := h.holds
      rw [hid] at hreply
      exact h.quiet hquiet ⟨hquiet.level hlevel, hreply, t.stop, t.log, whole, rfl, hlatest, hd,
        h.past⟩
  | count_reply before d now t => exact h.count_reply
  | zero t => exact h.quiet ⟨rfl, rfl, fun _ => Nat.le_refl _, Or.inl rfl⟩ h.holds
  | read_limit t _ => exact h.quiet ⟨rfl, rfl, fun _ => Nat.le_refl _, Or.inr ⟨_, rfl, rfl⟩⟩ h.holds
  | _ => first
      | exact h.idle rfl rfl ⟨rfl, rfl, fun _ => Nat.le_refl _, Or.inl rfl⟩
      | exact h.idle rfl rfl ⟨rfl, rfl, fun _ => Nat.le_refl _, Or.inr ⟨_, rfl, rfl⟩⟩

theorem Path.inv {s : State N} (h : Path host net monotone .start s q t) (hlog : s.log = []) :
    Inv host s.ctx.id s.ctx.recvbuf_len monotone q t := by
  have hstart : Inv host s.ctx.id s.ctx.recvbuf_len monotone .start s := by
    refine ⟨?_, ?_, ?_, ?_⟩
    · rw [phase, Holds, hlog]
      rfl
    · intro k call hk
      rw [hlog] at hk
      cases hk
    · intro _ call hcall
      rw [hlog] at hcall
      cases hcall
    · rw [hlog]
      exact every_nil _
  exact h.invariant (Inv host s.ctx.id s.ctx.recvbuf_len monotone) hstart
    fun q t r u hwalk ht he => ht.edge hwalk.ctx_kept.2.1 hwalk.ctx_kept.2.2 he

-- The calls of send_one() are given their numbers modulo the size of the ring.
theorem Inv.call_seq {id : UInt16} {len : Nat} (h : Inv host id len monotone p t) {k : Nat}
    {call : Attempt} (hk : nth (attempts t.log) k = some call) :
    call.seq.toNat = k % PING_TS_RING := by
  rw [h.numbered k call hk, UInt16.toNat_ofNat']
  rfl

end Flow

end FtPing
