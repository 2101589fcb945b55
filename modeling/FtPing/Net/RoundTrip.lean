import FtPing.Net.Packet
import FtPing.Net.Replies

namespace FtPing

open Bytes Interaction

variable (host : Endian)

-- The state after a send_one() whose clock reading is `now` and whose sendto() succeeds.
def transmitted (site : SendSite) (seq : UInt16) (now : Nat) (s : State Unit) : State Unit :=
  let timed := { s.record (.entered (.send_one site seq)) with now := now }.record
    (.clock .fill_payload)
  let built := timed.onCtx (build host seq (timespec now))
  let sent := built.record (.sent built.ctx.pkt.bytes)
  let counted :=
    { sent.record .countedSent with stats := { s.stats with n_sent := s.stats.n_sent + 1 } }
  printed counted
    (if built.ctx.flags.flood ∧ ¬ built.ctx.flags.quiet then some .flood_send else none)

theorem exec_send_one (site : SendSite) (seq : UInt16) (now : Nat) (clock : List Nat)
    (sends : List (Option Errno)) (polls : List (Bool × PollResult))
    (recvs : List (Except Errno Datagram)) (fuel : Nat) (s : State Unit) :
    exec (play false) fuel (send_one host site seq)
        (⟨now :: clock, none :: sends, polls, recvs⟩, s) =
      some (0, ⟨clock, sends, polls, recvs⟩, transmitted host site seq now s) := by
  have hdot : ∀ (flags : Flags) (k : Answers) (t : State Unit),
      exec (play false) fuel
        (if flags.flood = true ∧ ¬ flags.quiet = true then
          (print .flood_send).bind fun _ => .ret 0 else .ret 0 : Ping Unit Int) (k, t) =
      some (0, k, printed t
        (if flags.flood = true ∧ ¬ flags.quiet = true then some .flood_send else none)) := by
    intro flags k t
    split_ifs <;> rfl
  simp only [send_one, fill_payload, entered, clock_gettime, sendto, count_sent, Prog.modify,
    Prog.get, Prog.bind_eq, Prog.pure_eq, exec_bind, exec_perform, exec_act, exec_ret, play,
    Bool.false_eq_true, false_and, ite_false, Option.bind_some]
  exact hdot (build host seq (timespec now) s.ctx).flags _ _

-- The reply that a conforming host makes of an echo request.
def echo_reply (request : List UInt8) : List UInt8 :=
  let answer := blank host (overwrite request IcmpHdr.type [0])
  overwrite answer IcmpHdr.checksum (store16 host (ft_checksum host answer))

theorem echo_reply_length (request : List UInt8) :
    (echo_reply host request).length = request.length := by
  simp only [echo_reply, blank, overwrite_length]

theorem blank_overwrite (message : List UInt8) (w : UInt16) (h : IcmpHdr.size ≤ message.length) :
    blank host (overwrite message IcmpHdr.checksum (store16 host w)) = blank host message := by
  simp only [IcmpHdr.size] at h
  exact overwrite_overwrite _ _ _ _ (by rw [store16_length, store16_length])
    (by rw [store16_length]; simp only [IcmpHdr.checksum]; omega)

theorem blank_blank (message : List UInt8) (h : IcmpHdr.size ≤ message.length) :
    blank host (blank host message) = blank host message :=
  blank_overwrite host message 0 h

-- A message with its checksum written into the field.
def sealed (message : List UInt8) : List UInt8 :=
  overwrite (blank host message) IcmpHdr.checksum
    (store16 host (ft_checksum host (blank host message)))

section Sealed

variable (message : List UInt8)

theorem sealed_length : (sealed host message).length = message.length := by
  simp only [sealed, blank, overwrite_length]

theorem sealed_matches (h : IcmpHdr.size ≤ message.length) :
    checksum_matches host (sealed host message) = true := by
  have hblank : (blank host message).length = message.length := overwrite_length _ _ _
  simp only [IcmpHdr.size] at h
  rw [checksum_matches, sealed, blank_overwrite _ _ _ (by rw [hblank]; exact h),
    blank_blank _ _ h,
    word_overwrite _ _ _ _ (by rw [hblank]; simp only [IcmpHdr.checksum]; omega), decide_eq_true_eq]

-- What is not the checksum is as it was.
theorem sealed_getD (h : IcmpHdr.size ≤ message.length) {i : Nat} (hi : i < 2 ∨ 4 ≤ i) :
    (sealed host message).getD i 0 = message.getD i 0 := by
  have hword : ∀ w, (store16 host w).length = 2 := store16_length host
  simp only [IcmpHdr.size] at h
  rw [sealed, blank, getD_overwrite_ne _ _ _ _ (by simp [hword, IcmpHdr.checksum]; omega)
      (by rw [hword]; exact hi),
    getD_overwrite_ne _ _ _ _ (by simp [hword, IcmpHdr.checksum]; omega) (by rw [hword]; exact hi)]

theorem sealed_word (h : IcmpHdr.size ≤ message.length) {i : Nat} (hi : 4 ≤ i) :
    word host (sealed host message) i = word host message i := by
  rw [word, word, sealed_getD host message h (Or.inr hi),
    sealed_getD host message h (Or.inr (Nat.le_succ_of_le hi))]

theorem sealed_drop (h : IcmpHdr.size ≤ message.length) :
    (sealed host message).drop IcmpHdr.size = message.drop IcmpHdr.size := by
  have hword : ∀ w, (store16 host w).length = 2 := store16_length host
  simp only [IcmpHdr.size] at h ⊢
  rw [sealed, blank,
    drop_overwrite_of_le _ _ _ _ (by simp [hword, IcmpHdr.checksum]; omega)
      (by simp [hword, IcmpHdr.checksum]),
    drop_overwrite_of_le _ _ _ _ (by simp [hword, IcmpHdr.checksum]; omega)
      (by simp [hword, IcmpHdr.checksum])]

end Sealed

theorem echo_reply_eq (request : List UInt8) :
    echo_reply host request = sealed host (overwrite request IcmpHdr.type [0]) := rfl

theorem echo_reply_matches (request : List UInt8) (h : IcmpHdr.size ≤ request.length) :
    checksum_matches host (echo_reply host request) = true := by
  rw [echo_reply_eq]
  exact sealed_matches host _ (by rw [overwrite_length]; exact h)

-- Type 0, and the code, the id and the sequence number of the request.
theorem echo_reply_fields (request : List UInt8) (h : IcmpHdr.size ≤ request.length) :
    (echo_reply host request).getD IcmpHdr.type 0 = 0 ∧
      (echo_reply host request).getD IcmpHdr.code 0 = request.getD IcmpHdr.code 0 ∧
      word host (echo_reply host request) IcmpHdr.id = word host request IcmpHdr.id ∧
      word host (echo_reply host request) IcmpHdr.sequence =
        word host request IcmpHdr.sequence := by
  have hsize : IcmpHdr.size ≤ (overwrite request IcmpHdr.type [0]).length := by
    rw [overwrite_length]
    exact h
  simp only [IcmpHdr.size] at h
  rw [echo_reply_eq, sealed_getD host _ hsize (by decide), sealed_getD host _ hsize (by decide),
    sealed_word host _ hsize (by decide), sealed_word host _ hsize (by decide)]
  simp only [IcmpHdr.type, IcmpHdr.code, IcmpHdr.id, IcmpHdr.sequence]
  refine ⟨?_, ?_, ?_, ?_⟩
  · rw [getD_overwrite _ _ _ _ _ (by simp; omega)]
    rfl
  · rw [getD_overwrite_ne _ _ _ _ (by simp; omega) (by simp)]
  · rw [word_overwrite_ne _ _ _ _ _ (by simp; omega) (by simp)]
  · rw [word_overwrite_ne _ _ _ _ _ (by simp; omega) (by simp)]

-- A message behind an IP header of the length that the header states.
section Framed

variable (header message : List UInt8)
  (hheader : header.length = IpHdr.ip_hl (header.getD 0 0) * 4)
  (hmin : IpHdr.size ≤ header.length)

include hheader hmin

theorem framed_ihl : Datagram.ihl (header ++ message) = header.length := by
  simp only [IpHdr.size] at hmin
  rw [Datagram.ihl, List.getD_append _ _ _ _ (by omega), hheader]

theorem framed_message : Datagram.message (header ++ message) = message := by
  rw [Datagram.message, framed_ihl header message hheader hmin, List.drop_left]

theorem framed_complete (hmessage : IcmpHdr.size ≤ message.length) :
    Datagram.complete (header ++ message) = true := by
  rw [complete_iff, framed_ihl header message hheader hmin, List.length_append]
  omega

end Framed

def sent_datagrams (log : List Entry) : List (List UInt8) :=
  log.filterMap fun entry =>
    match entry.event with
    | .sent buf => some buf
    | _ => none

-- The arguments that report_reply() was called with: byte count, sequence number, time.
def reports (log : List Entry) : List (Nat × UInt16 × ℚ) :=
  log.filterMap fun entry =>
    match entry.event with
    | .entered (.report_reply icmp_bytes seq rtt) => some (icmp_bytes, seq, rtt)
    | _ => none

theorem sent_datagrams_printed (s : State Unit) (line : Option Line) :
    sent_datagrams (printed s line).log = sent_datagrams s.log := by
  cases line <;> rfl

theorem reports_printed (s : State Unit) (line : Option Line) :
    reports (printed s line).log = reports s.log := by
  cases line <;> rfl

theorem reports_recorded (s : State Unit) (d : Datagram) (now : Nat) :
    reports (recorded host s d now).log =
      (d.message.length, d.sequence host,
        elapsed_ms (s.ctx.send_ts (slot (d.sequence host))) (timespec now)) :: reports s.log :=
  reports_printed _ _

theorem transmitted_ctx (site : SendSite) (seq : UInt16) (now : Nat) (s : State Unit) :
    (transmitted host site seq now s).ctx = build host seq (timespec now) s.ctx :=
  printed_ctx _ _

-- The echo reply to a request with our id is one of our replies.
theorem echo_reply_is_reply (id seq : UInt16) (header request : List UInt8)
    (hheader : header.length = IpHdr.ip_hl (header.getD 0 0) * 4)
    (hmin : IpHdr.size ≤ header.length) (hrequest : IcmpHdr.size ≤ request.length)
    (hcode : request.getD IcmpHdr.code 0 = 0) (hid : word host request IcmpHdr.id = id)
    (hseq : word host request IcmpHdr.sequence = htons host seq) :
    is_reply host id (header ++ echo_reply host request) = true ∧
      Datagram.sequence host (header ++ echo_reply host request) = seq := by
  obtain ⟨htype', hcode', hid', hseq'⟩ := echo_reply_fields host request hrequest
  have hmessage := framed_message header (echo_reply host request) hheader hmin
  have hcomplete := framed_complete header (echo_reply host request) hheader hmin
    (by rw [echo_reply_length]; exact hrequest)
  constructor
  · rw [is_reply_iff, Datagram.type, Datagram.code, Datagram.id, hmessage]
    exact ⟨hcomplete, echo_reply_matches host request hrequest, htype', hcode'.trans hcode,
      hid'.trans hid⟩
  · rw [Datagram.sequence, hmessage, hseq', hseq, ntohs_htons]

theorem exec_ping_receive_reply (s : State Unit) (d : Datagram) (errno : Errno) (now : Nat)
    (clock : List Nat) (sends : List (Option Errno)) (polls : List (Bool × PollResult))
    (recvs : List (Except Errno Datagram)) (fuel : Nat) (hfit : d.length ≤ s.ctx.recvbuf_len)
    (h : is_reply host s.ctx.id d = true) :
    exec (play false) (fuel + 2) (ping_receive host)
        (⟨now :: clock, sends, polls, .ok d :: .error errno :: recvs⟩, s) =
      some (if drained errno then 0 else -1, ⟨clock, sends, polls, recvs⟩,
        refused (recorded host (delivered s d) d now) errno) := by
  have hexec := exec_ping_receive host (fuel + 2) sends polls recvs [d] errno (now :: clock) s
    (by simp)
  rw [drain, digest_reply host now clock hfit h] at hexec
  exact hexec

-- Whatever send_one() hands to sendto(), its echo reply fits into the receive buffer and is
-- recorded once, under its own sequence number and with the time of its sending.
theorem echo_reply_recorded (s : State Unit) (site : SendSite) (seq : UInt16)
    (sent_at received_at : Nat) (clock : List Nat) (sends : List (Option Errno))
    (polls : List (Bool × PollResult)) (recvs : List (Except Errno Datagram)) (errno : Errno)
    (header : List UInt8) (fuel : Nat) (hsized : s.ctx.sized)
    (hheader : header.length = IpHdr.ip_hl (header.getD 0 0) * 4)
    (hmin : IpHdr.size ≤ header.length) :
    ∃ wire t u,
      exec (play false) fuel (send_one host site seq)
          (⟨sent_at :: received_at :: clock, none :: sends, polls, recvs⟩, s) =
        some (0, ⟨received_at :: clock, sends, polls, recvs⟩, t) ∧
      sent_datagrams t.log = wire :: sent_datagrams s.log ∧
      wire.length = IcmpHdr.size + s.ctx.payload_len ∧
      (header ++ echo_reply host wire).length ≤ t.ctx.recvbuf_len ∧
      is_reply host t.ctx.id (header ++ echo_reply host wire) = true ∧
      exec (play false) (fuel + 2) (ping_receive host)
          (⟨received_at :: clock, sends, polls,
            .ok (header ++ echo_reply host wire) :: .error errno :: recvs⟩, t) =
        some (if drained errno then 0 else -1, ⟨clock, sends, polls, recvs⟩, u) ∧
      u.stats.n_recv = t.stats.n_recv + 1 ∧
      u.stats = fold_rtt t.stats (elapsed_ms (t.ctx.send_ts (slot seq)) (timespec received_at)) ∧
      reports u.log = (IcmpHdr.size + s.ctx.payload_len, seq,
        elapsed_ms (t.ctx.send_ts (slot seq)) (timespec received_at)) :: reports t.log ∧
      t.ctx.send_ts (slot seq) = timespec sent_at := by
  obtain ⟨-, hcode, hid, hseq⟩ := build_fields host seq (timespec sent_at) s.ctx
  have hwire := build_length host seq (timespec sent_at) s.ctx
  have hctx := transmitted_ctx host site seq sent_at s
  obtain ⟨pkt, hbuild⟩ := build_eq host seq (timespec sent_at) s.ctx
  obtain ⟨wire, hbytes⟩ : ∃ wire, (build host seq (timespec sent_at) s.ctx).pkt.bytes = wire :=
    ⟨_, rfl⟩
  rw [hbytes] at hcode hid hseq hwire
  have hid' : (transmitted host site seq sent_at s).ctx.id = s.ctx.id := by rw [hctx, hbuild]
  have hring : (transmitted host site seq sent_at s).ctx.send_ts (slot seq) = timespec sent_at := by
    rw [hctx, hbuild]
    exact Function.update_self _ _ _
  have hrecvbuf : (transmitted host site seq sent_at s).ctx.recvbuf_len = s.ctx.recvbuf_len := by
    rw [hctx, hbuild]
  obtain ⟨hreply, hsequence⟩ := echo_reply_is_reply host s.ctx.id seq header wire hheader hmin
    (by rw [hwire]; exact Nat.le_add_right _ _) hcode hid hseq
  have hmessage := framed_message header (echo_reply host wire) hheader hmin
  have hfit : (header ++ echo_reply host wire).length ≤
      (transmitted host site seq sent_at s).ctx.recvbuf_len := by
    have hihl := ihl_le (header ++ echo_reply host wire)
    rw [framed_ihl header _ hheader hmin] at hihl
    rw [hrecvbuf, hsized.recvbuf_len_eq, List.length_append, echo_reply_length, hwire]
    simp only [IcmpHdr.size, PING_RECVBUF_SLACK]
    omega
  rw [← hid'] at hreply
  have hstats : (refused (recorded host (delivered (transmitted host site seq sent_at s)
      (header ++ echo_reply host wire)) (header ++ echo_reply host wire) received_at) errno).stats =
      fold_rtt (transmitted host site seq sent_at s).stats
        (elapsed_ms ((transmitted host site seq sent_at s).ctx.send_ts (slot seq))
          (timespec received_at)) := by
    rw [refused, printed_stats, ← hsequence]
    exact recorded_stats host _ _ _
  refine ⟨wire, transmitted host site seq sent_at s, _,
    exec_send_one host site seq sent_at _ sends polls recvs fuel s, ?_, hwire, hfit, hreply,
    exec_ping_receive_reply host _ _ errno received_at clock sends polls recvs fuel hfit hreply,
    by rw [hstats, fold_rtt], hstats, ?_, hring⟩
  · rw [transmitted, sent_datagrams_printed, ← hbytes]
    rfl
  · have hreports := reports_recorded host (delivered (transmitted host site seq sent_at s)
      (header ++ echo_reply host wire)) (header ++ echo_reply host wire) received_at
    rw [hmessage, hsequence, echo_reply_length, hwire] at hreports
    rw [refused, reports_printed]
    exact hreports

theorem echo_reply_recorded_loopback :
    ∃ wire t u,
      exec (play false) 0 (send_one .little .ping_run 0)
          (⟨[1000000, 3000000], [none], [], []⟩, loopback Flags.zero) =
        some (0, ⟨[3000000], [], [], []⟩, t) ∧
      wire.length = 64 ∧
      exec (play false) 2 (ping_receive .little)
          (⟨[3000000], [], [],
            [.ok (0x45 :: List.replicate 19 0 ++ echo_reply .little wire), .error .EAGAIN]⟩, t) =
        some (0, ⟨[], [], [], []⟩, u) ∧
      u.stats.n_recv = t.stats.n_recv + 1 := by
  obtain ⟨wire, t, u, hsend, -, hwire, -, -, hreceive, hrecv, -⟩ := echo_reply_recorded .little
    (loopback Flags.zero) .ping_run 0 1000000 3000000 [] [] [] [] .EAGAIN
    (0x45 :: List.replicate 19 0) 0 rfl (by decide) (by decide)
  exact ⟨wire, t, u, hsend, hwire, hreceive, hrecv⟩

end FtPing
