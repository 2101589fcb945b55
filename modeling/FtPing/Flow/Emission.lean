import FtPing.Flow.Sequence
import FtPing.Net.WireImage

namespace FtPing

open Bytes History Interaction

section Probe

variable (host : Endian) (ctx : Ctx)

-- The echo request with the number `k`, of a call of send_one() that has read `sent`.
def probe (k sent : Nat) : List UInt8 :=
  echo_request host ctx (UInt16.ofNat k) (timespec sent)
    (ft_checksum host (echo_request host ctx (UInt16.ofNat k) (timespec sent) 0))

-- The header of such a request, whatever stands in the checksum field.
def Headed (seq : UInt16) (bytes : List UInt8) : Prop :=
  ∃ third fourth, bytes.take IcmpHdr.size =
    [8, 0, third, fourth] ++ store16 host ctx.id ++ store16 .big seq

variable {host ctx}

theorem blank_of_headed {seq : UInt16} {sent_at : Timespec} {bytes : List UInt8}
    (h : Headed host ctx seq bytes) (hdrop : bytes.drop IcmpHdr.size =
      (List.range ctx.payload_len).map (payload_byte host ctx.flags ctx.payload_len sent_at)) :
    blank host bytes = echo_request host ctx seq sent_at 0 := by
  obtain ⟨third, fourth, htake⟩ := h
  rw [← List.take_append_drop IcmpHdr.size bytes, htake, hdrop]
  simp only [List.cons_append, List.nil_append, List.append_assoc]
  rw [blank_cons, echo_request, store16_zero]
  simp only [List.cons_append, List.nil_append, List.append_assoc]

theorem sealed_of_blank {seq : UInt16} {sent_at : Timespec} {bytes : List UInt8}
    (h : blank host bytes = echo_request host ctx seq sent_at 0) :
    sealed host bytes = echo_request host ctx seq sent_at
      (ft_checksum host (echo_request host ctx seq sent_at 0)) := by
  rw [sealed, h, echo_request_overwrite]

end Probe

namespace Flow

variable {N : Type} {host : Endian} {net : Network N} {monotone : Prop} {s t u : State N}
  {p q : Point}

theorem Edge.payload_len_kept (he : Edge host net monotone p t q u) :
    u.ctx.payload_len = t.ctx.payload_len := by
  cases he with
  | env _ _ _ h =>
      cases h
      rfl
  | payload c seq now t =>
      change (write_payload host seq _ t.ctx).payload_len = t.ctx.payload_len
      unfold write_payload fill_default
      split_ifs <;> rfl
  | _ => rfl

theorem Path.payload_len_kept (h : Path host net monotone p s q t) :
    t.ctx.payload_len = s.ctx.payload_len :=
  h.invariant (fun _ t => t.ctx.payload_len = s.ctx.payload_len) rfl
    fun _ _ _ _ _ ht he => he.payload_len_kept.trans ht

-- How far the packet has come.
inductive Assembly
  | none
  | headed (seq : UInt16)
  | timed (seq : UInt16) (now : Nat)
  | filled (seq : UInt16)
  | complete
  | ready (buf : List UInt8)

def assembly : Point → Assembly
  | .headed _ seq => .headed seq
  | .filling _ seq now => .timed seq now
  | .filled _ seq => .filled seq
  | .sealed _ => .complete
  | .ready _ buf => .ready buf
  | _ => .none

-- The latest call has taken the number `seq` and the reading `sent`.
def Latest (t : State N) (seq : UInt16) (sent : Nat) : Prop :=
  ∃ earlier, attempts t.log = ⟨seq, some sent⟩ :: earlier

def Assembled (host : Endian) (ctx : Ctx) : Assembly → State N → Prop
  | .none, _ => True
  | .headed seq, t => Headed host ctx seq t.ctx.pkt.bytes
  | .timed seq now, t => Headed host ctx seq t.ctx.pkt.bytes ∧ Latest t seq now
  | .filled seq, t => ∃ sent, Latest t seq sent ∧
      blank host t.ctx.pkt.bytes = echo_request host ctx seq (timespec sent) 0
  | .complete, t => ∃ k sent, Latest t (UInt16.ofNat k) sent ∧ k + 1 = (attempts t.log).length ∧
      t.ctx.pkt.bytes = probe host ctx k sent
  | .ready buf, t => ∃ k sent, Latest t (UInt16.ofNat k) sent ∧ k + 1 = (attempts t.log).length ∧
      buf = probe host ctx k sent

-- What has been handed to sendto() is what the calls so far stand for, in their order.
def Emitted (host : Endian) (ctx : Ctx) (log : List Entry) : Prop :=
  ∀ k buf, nth (wire log) k = some buf →
    ∃ sent, nth (attempts log) k = some ⟨UInt16.ofNat k, some sent⟩ ∧ buf = probe host ctx k sent

structure Emission (host : Endian) (ctx : Ctx) (p : Point) (t : State N) : Prop where
  assembled : Assembled host ctx (assembly p) t
  emitted : Emitted host ctx t.log

theorem Emission.same {ctx : Ctx} (h : Emission host ctx p t) (hq : assembly q = .none)
    (hwire : wire u.log = wire t.log) (hcalls : attempts u.log = attempts t.log) :
    Emission host ctx q u := by
  refine ⟨by rw [hq]; trivial, ?_⟩
  rw [Emitted, hwire, hcalls]
  exact h.emitted

-- An unfinished call has handed nothing over yet, so its entry and its reading leave the earlier
-- calls as they are.
theorem Emitted.later {ctx : Ctx} {log log' : List Entry} {call : Attempt}
    {earlier : List Attempt} (h : Emitted host ctx log) (hwire : wire log' = wire log)
    (hcalls : attempts log = earlier ∨ ∃ seq, attempts log = ⟨seq, none⟩ :: earlier)
    (hnext : attempts log' = call :: earlier) : Emitted host ctx log' := by
  intro k buf hk
  rw [hwire] at hk
  obtain ⟨sent, hcall, hbuf⟩ := h k buf hk
  refine ⟨sent, ?_, hbuf⟩
  have hold : nth earlier k = some ⟨UInt16.ofNat k, some sent⟩ := by
    rcases hcalls with hcalls | ⟨seq, hcalls⟩
    · rw [hcalls] at hcall
      exact hcall
    · rw [hcalls, nth_cons] at hcall
      split_ifs at hcall
      · cases hcall
      · exact hcall
  rw [hnext, nth_cons, if_neg (Nat.ne_of_lt (nth_lt hold))]
  exact hold

theorem Emission.hand_over {ctx : Ctx} {c : Caller} {buf : List UInt8}
    (h : Emission host ctx (.ready c buf) t) (hcalls : (wire t.log).length + 1 = (attempts t.log).length)
    (hq : assembly q = .none) (hwire : wire u.log = buf :: wire t.log)
    (hsame : attempts u.log = attempts t.log) : Emission host ctx q u := by
  obtain ⟨k, sent, ⟨earlier, hlatest⟩, hk, hbuf⟩ := h.assembled
  refine ⟨by rw [hq]; trivial, fun l other hl => ?_⟩
  rw [hwire, nth_cons] at hl
  split_ifs at hl with heq
  · cases hl
    have hnumber : l = k := by omega
    refine ⟨sent, ?_, by rw [hnumber]; exact hbuf⟩
    rw [hsame, hlatest, nth_cons, hnumber, if_pos]
    rw [hlatest, List.length_cons] at hk
    omega
  · rw [hsame]
    exact h.emitted l other hl

theorem Path.emission (h : Path host net monotone .start s q t) (hs : s.stats = Stats.zero)
    (hlog : s.log = []) : Emission host s.ctx q t := by
  refine h.invariant (Emission host s.ctx) ⟨trivial, by rw [hlog]; nofun⟩
    fun p t q u hwalk ht he => ?_
  obtain ⟨hflags, hid, -⟩ := hwalk.ctx_kept
  have hlen := hwalk.payload_len_kept
  have hinv := hwalk.inv hlog
  have hcalls := hwalk.calls hs hlog
  cases he with
  | env p _ _ hr =>
      cases hr
      refine ⟨?_, ht.emitted⟩
      have hassembled := ht.assembled
      generalize assembly p = a at hassembled
      cases a <;> exact hassembled
  | scratch p _ buf =>
      refine ⟨?_, ht.emitted⟩
      have hassembled := ht.assembled
      generalize assembly p = a at hassembled
      cases a <;> exact hassembled
  | enter c seq t => exact ⟨trivial, ht.emitted.later rfl (Or.inl rfl) rfl⟩
  | header c seq t =>
      refine ⟨?_, ht.emitted⟩
      have hheader := write_header_take host seq t.ctx
      rw [hid] at hheader
      exact hheader
  | read_sent c seq t =>
      obtain ⟨earlier, hlatest, -⟩ := hinv.holds
      have hnext : attempts (t.record (.clock .fill_payload)).log = ⟨seq, some t.now⟩ :: earlier := by
        simp only [State.record, attempts, hlatest]
      exact ⟨⟨ht.assembled, earlier, hnext⟩,
        ht.emitted.later rfl (Or.inr ⟨seq, hlatest⟩) hnext⟩
  | payload c seq now t =>
      obtain ⟨hheaded, hlatest⟩ := ht.assembled
      refine ⟨⟨now, hlatest, blank_of_headed ?_ ?_⟩, ht.emitted⟩
      · change Headed host s.ctx seq (write_payload host seq (timespec now) t.ctx).pkt.bytes
        rw [Headed, write_payload_take]
        exact hheaded
      · have hdrop := write_payload_drop host seq (timespec now) t.ctx
        rw [hflags, hlen] at hdrop
        exact hdrop
  | checksum c seq t =>
      obtain ⟨sent, ⟨earlier, hlatest⟩, hblank⟩ := ht.assembled
      have hseq : seq = UInt16.ofNat earlier.length := by
        have hcall : nth (attempts t.log) earlier.length = some ⟨seq, some sent⟩ := by
          rw [hlatest, nth_cons, if_pos rfl]
        exact hinv.numbered _ _ hcall
      refine ⟨⟨earlier.length, sent, ⟨earlier, by rw [← hseq]; exact hlatest⟩, ?_, ?_⟩, ht.emitted⟩
      · change earlier.length + 1 = (attempts t.log).length
        rw [hlatest]
        rfl
      · have hsealed := sealed_of_blank hblank
        rw [hseq] at hsealed
        exact hsealed
  | pass c t => exact ⟨ht.assembled, ht.emitted⟩
  | transmit c buf t n _ =>
      refine ht.hand_over ?_ rfl rfl rfl
      simp only [unpassed] at hcalls
      omega
  | refuse c buf t =>
      refine ht.hand_over ?_ rfl rfl rfl
      simp only [unpassed] at hcalls
      omega
  | read_stamp p t => exact ht.same rfl rfl (by cases p <;> rfl)
  | stamp p now t => exact ht.same (by cases p <;> rfl) rfl rfl
  | _ => exact ht.same rfl rfl rfl

end Flow

-- In every run the datagrams that go to sendto() are a function of the readings of the clock: the
-- one with the number `k` is the echo request with this number and the k-th reading, and its
-- checksum is right.
theorem probes_follow_readings {N : Type} (host : Endian) (net : Network N) (monotone : Prop)
    (ctx : Ctx) (n : N) :
    Safe (world net monotone)
      (fun t => ∀ k buf, nth (wire t.log) k = some buf → ∃ sent,
        nth (attempts t.log) k = some ⟨UInt16.ofNat k, some sent⟩ ∧ buf = probe host ctx k sent ∧
        buf.length = IcmpHdr.size + ctx.payload_len ∧
        (ctx.payload_len ≤ 65507 → ft_checksum host buf = 0))
      (fun _ _ => True) (ping_run host) (fun _ _ => True) (.initial ctx n) := by
  refine safe_of_reach fun q t hr k buf hk => ?_
  obtain ⟨p, hpath⟩ := Flow.ping_run_path host net monotone (.initial ctx n) t q hr
  obtain ⟨sent, hcall, hbuf⟩ := (hpath.emission rfl rfl).emitted k buf hk
  refine ⟨sent, hcall, hbuf, ?_, fun hlen => ?_⟩
  · rw [hbuf]
    exact echo_request_length host _ _ ctx _
  · rw [hbuf]
    exact echo_request_verifies host _ _ ctx hlen

end FtPing
