import FtPing.Net.Rfc1071
import FtPing.Net.RoundTrip
import FtPing.Net.Verification

namespace FtPing

open Bytes Interaction

variable (host : Endian)

-- Byte i of the payload of an echo request.
def payload_byte (flags : Flags) (payload_len : Nat) (sent_at : Timespec) (i : Nat) : UInt8 :=
  if flags.has_pattern then flags.pattern.byte (i % flags.pattern_len)
  else if Timespec.size ≤ payload_len ∧ i < Timespec.size then (sent_at.bytes host).getD i 0
  else UInt8.ofNat i

-- An echo request with `checksum` in the field for it. Nothing in it comes from a buffer.
def echo_request (ctx : Ctx) (seq : UInt16) (sent_at : Timespec) (checksum : UInt16) :
    List UInt8 :=
  [8, 0] ++ store16 host checksum ++ store16 host ctx.id ++ store16 .big seq ++
    (List.range ctx.payload_len).map (payload_byte host ctx.flags ctx.payload_len sent_at)

theorem Timespec.bytes_length (ts : Timespec) : (ts.bytes host).length = Timespec.size := by
  simp [Timespec.bytes, Timespec.size]

-- The loop writes one block.
theorem fill_bytes {capacity : Nat} (byte : Nat → UInt8) (rounds i : Nat) (pkt : Buffer capacity)
    (h : IcmpHdr.size + i + rounds ≤ capacity) :
    (fill byte rounds i pkt).bytes =
      overwrite pkt.bytes (IcmpHdr.size + i) ((List.range' i rounds).map byte) := by
  induction rounds generalizing i pkt with
  | zero => exact (overwrite_nil pkt.bytes (IcmpHdr.size + i)).symm
  | succ rounds ih =>
      have hnext := overwrite_append pkt.bytes (IcmpHdr.size + i) [byte i]
        ((List.range' (i + 1) rounds).map byte)
        (by
          rw [List.length_map, List.length_range', pkt.length_bytes, List.length_singleton]
          omega)
      rw [fill, ih _ _ (by omega), List.range'_succ, List.map_cons]
      exact hnext

section Payload

variable (seq : UInt16) (now : Timespec) (ctx : Ctx)

theorem payload_pattern (h : ctx.flags.has_pattern = true) :
    (List.range' 0 ctx.payload_len).map
        (fun i => ctx.flags.pattern.byte (i % ctx.flags.pattern_len)) =
      (List.range ctx.payload_len).map (payload_byte host ctx.flags ctx.payload_len now) := by
  rw [List.range_eq_range']
  apply List.map_congr_left
  intro i _
  rw [payload_byte, if_pos h]

theorem payload_filler (h : ctx.flags.has_pattern = false)
    (hshort : ¬ Timespec.size ≤ ctx.payload_len) :
    (List.range' 0 ctx.payload_len).map UInt8.ofNat =
      (List.range ctx.payload_len).map (payload_byte host ctx.flags ctx.payload_len now) := by
  rw [List.range_eq_range']
  apply List.map_congr_left
  intro i _
  rw [payload_byte, if_neg (by rw [h]; exact Bool.false_ne_true), if_neg fun hlong =>
    hshort hlong.1]

theorem payload_timestamp (h : ctx.flags.has_pattern = false)
    (hlong : Timespec.size ≤ ctx.payload_len) :
    now.bytes host ++
        (List.range' Timespec.size (ctx.payload_len - Timespec.size)).map UInt8.ofNat =
      (List.range ctx.payload_len).map (payload_byte host ctx.flags ctx.payload_len now) := by
  have hbytes := now.bytes_length host
  have hnone : ¬ ctx.flags.has_pattern = true := by
    rw [h]
    exact Bool.false_ne_true
  apply List.ext_getElem
  · simp only [List.length_append, List.length_map, List.length_range', List.length_range, hbytes]
    omega
  · intro i hi _
    simp only [List.getElem_map, List.getElem_range, payload_byte, if_neg hnone]
    by_cases hstamp : i < Timespec.size
    · rw [if_pos ⟨hlong, hstamp⟩, List.getElem_append_left (by omega), List.getD_eq_getElem]
    · rw [if_neg fun hboth => hstamp hboth.2, List.getElem_append_right (by omega),
        List.getElem_map, List.getElem_range', hbytes]
      congr 1
      omega

-- The loop from the first byte of the payload on covers all of it.
theorem fill_drop (byte : Nat → UInt8) :
    (fill byte ctx.payload_len 0 ctx.pkt).bytes.drop IcmpHdr.size =
      (List.range' 0 ctx.payload_len).map byte := by
  rw [fill_bytes _ _ _ _ (by omega), Nat.add_zero]
  apply drop_overwrite_self
  rw [List.length_map, List.length_range', ctx.pkt.length_bytes]

theorem fill_timestamp_drop (stamp : List UInt8) (hstamp : stamp.length = Timespec.size)
    (hlong : Timespec.size ≤ ctx.payload_len) :
    (fill UInt8.ofNat (ctx.payload_len - Timespec.size) Timespec.size
      (ctx.pkt.store IcmpHdr.size stamp)).bytes.drop IcmpHdr.size =
      stamp ++ (List.range' Timespec.size (ctx.payload_len - Timespec.size)).map UInt8.ofNat := by
  have hpkt := ctx.pkt.length_bytes
  have hwritten := overwrite_append ctx.pkt.bytes IcmpHdr.size stamp
    ((List.range' Timespec.size (ctx.payload_len - Timespec.size)).map UInt8.ofNat)
    (by rw [List.length_map, List.length_range']; omega)
  rw [hstamp] at hwritten
  rw [fill_bytes _ _ _ _ (by omega), Buffer.store, hwritten]
  apply drop_overwrite_self
  rw [List.length_append, List.length_map, List.length_range']
  omega

-- Behind the header every byte of the packet is written.
theorem write_payload_drop :
    (write_payload host seq now ctx).pkt.bytes.drop IcmpHdr.size =
      (List.range ctx.payload_len).map (payload_byte host ctx.flags ctx.payload_len now) := by
  cases hpattern : ctx.flags.has_pattern with
  | true =>
      rw [write_payload, if_pos hpattern, ← payload_pattern host now ctx hpattern]
      exact fill_drop (write_timestamp seq now ctx) _
  | false =>
      have hring : (write_timestamp seq now ctx).send_ts (slot seq) = now :=
        Function.update_self _ _ _
      rw [write_payload, if_neg (by rw [hpattern]; exact Bool.false_ne_true), fill_default, hring]
      by_cases hlong : Timespec.size ≤ (write_timestamp seq now ctx).payload_len
      · rw [if_pos hlong, ← payload_timestamp host now ctx hpattern hlong]
        exact fill_timestamp_drop (write_timestamp seq now ctx) _ (now.bytes_length host) hlong
      · rw [if_neg hlong, ← payload_filler host now ctx hpattern hlong]
        exact fill_drop (write_timestamp seq now ctx) _

end Payload

section Image

variable (seq : UInt16) (now : Timespec) (ctx : Ctx)

-- Only the checksum field is not written yet.
theorem write_header_take :
    ∃ third fourth, (write_header host seq ctx).pkt.bytes.take IcmpHdr.size =
      [8, 0, third, fourth] ++ store16 host ctx.id ++ store16 .big seq := by
  have hlen : IcmpHdr.size ≤ ctx.pkt.bytes.length := by
    rw [ctx.pkt.length_bytes]
    exact Nat.le_add_right _ _
  obtain ⟨i, j, hid, -⟩ := load16_store16 host ctx.id
  obtain ⟨k, l, hseq, -⟩ := load16_store16 .big seq
  rw [write_header, store16_htons, hid, hseq]
  simp only [Buffer.store]
  generalize ctx.pkt.bytes = bytes at hlen ⊢
  rcases bytes with
    _ | ⟨_, _ | ⟨_, _ | ⟨third, _ | ⟨fourth, _ | ⟨_, _ | ⟨_, _ | ⟨_, _ | ⟨_, _⟩⟩⟩⟩⟩⟩⟩⟩
  any_goals simp [IcmpHdr.size] at hlen
  exact ⟨third, fourth, rfl⟩

theorem echo_request_overwrite (checksum checksum' : UInt16) :
    overwrite (echo_request host ctx seq now checksum) IcmpHdr.checksum (store16 host checksum') =
      echo_request host ctx seq now checksum' := by
  obtain ⟨c, d, hold, -⟩ := load16_store16 host checksum
  obtain ⟨c', d', hnew, -⟩ := load16_store16 host checksum'
  simp only [echo_request, hold, hnew, IcmpHdr.checksum]
  rw [overwrite_eq _ _ _ (by simp)]
  rfl

theorem echo_request_id_seq (checksum : UInt16) :
    slice (echo_request host ctx seq now checksum) IcmpHdr.id 2 = store16 host ctx.id ∧
      slice (echo_request host ctx seq now checksum) IcmpHdr.sequence 2 = store16 .big seq := by
  obtain ⟨c, d, hchecksum, -⟩ := load16_store16 host checksum
  obtain ⟨i, j, hid, -⟩ := load16_store16 host ctx.id
  obtain ⟨k, l, hseq, -⟩ := load16_store16 .big seq
  rw [echo_request, hchecksum, hid, hseq]
  exact ⟨rfl, rfl⟩

theorem echo_request_length (checksum : UInt16) :
    (echo_request host ctx seq now checksum).length = IcmpHdr.size + ctx.payload_len := by
  simp [echo_request, IcmpHdr.size]
  omega

theorem write_payload_blank :
    blank host (write_payload host seq now (write_header host seq ctx)).pkt.bytes =
      echo_request host ctx seq now 0 := by
  obtain ⟨third, fourth, hheader⟩ := write_header_take host seq ctx
  have htake := write_payload_take host seq now (write_header host seq ctx)
  have hdrop := write_payload_drop host seq now (write_header host seq ctx)
  rw [← List.take_append_drop IcmpHdr.size (write_payload host seq now
    (write_header host seq ctx)).pkt.bytes, htake, hdrop, hheader]
  simp only [List.cons_append, List.nil_append, List.append_assoc]
  rw [blank_cons, echo_request, store16_zero]
  simp only [List.cons_append, List.nil_append, List.append_assoc]
  rfl

-- The packet as a whole, whatever was in the buffer.
theorem build_bytes :
    (build host seq now ctx).pkt.bytes = echo_request host ctx seq now
      (ft_checksum host (echo_request host ctx seq now 0)) := by
  have hsealed : (build host seq now ctx).pkt.bytes =
      sealed host (write_payload host seq now (write_header host seq ctx)).pkt.bytes := rfl
  rw [hsealed, sealed, write_payload_blank, echo_request_overwrite]

-- It sums up, with the checksum in it.
theorem echo_request_verifies (hlen : ctx.payload_len ≤ 65507) :
    ft_checksum host (echo_request host ctx seq now
      (ft_checksum host (echo_request host ctx seq now 0))) = 0 := by
  have hlength := echo_request_length host seq now ctx 0
  have heven : IcmpHdr.checksum % 2 = 0 := rfl
  have hfit : IcmpHdr.checksum + 2 ≤ (echo_request host ctx seq now 0).length := by
    rw [hlength]
    simp only [IcmpHdr.size, IcmpHdr.checksum]
    omega
  have h := ft_checksum_inserted host heven hfit
    (by rw [hlength]; simp only [IcmpHdr.size]; omega)
  rwa [echo_request_overwrite, echo_request_overwrite] at h

theorem echo_request_drop (checksum : UInt16) :
    (echo_request host ctx seq now checksum).drop IcmpHdr.size =
      (List.range ctx.payload_len).map (payload_byte host ctx.flags ctx.payload_len now) := by
  rw [echo_request]
  apply List.drop_left'
  simp [IcmpHdr.size]

theorem echo_request_payload (checksum : UInt16) {i : Nat} (h : i < ctx.payload_len) :
    (echo_request host ctx seq now checksum).getD (IcmpHdr.size + i) 0 =
      payload_byte host ctx.flags ctx.payload_len now i := by
  rw [← getD_drop, echo_request_drop, List.getD_eq_getElem _ _ (by simpa using h), List.getElem_map,
    List.getElem_range]

end Image

-- What sendto() was called with, whether it took it or not.
def handed (log : List Entry) : List (List UInt8) :=
  log.filterMap fun entry =>
    match entry.event with
    | .sent buf => some buf
    | .sendFailed buf => some buf
    | _ => none

section Send

variable (s : State Unit) (site : SendSite) (seq : UInt16) (now : Nat) (outcome : Option Errno)
  (clock : List Nat) (sends : List (Option Errno)) (polls : List (Bool × PollResult))
  (recvs : List (Except Errno Datagram)) (fuel : Nat)

theorem handed_printed (line : Option Line) : handed (printed s line).log = handed s.log := by
  cases line <;> rfl

-- Once around send_one(), with either outcome of sendto().
theorem exec_send_one_handed :
    ∃ rc t, exec (play false) fuel (send_one host site seq)
        (⟨now :: clock, outcome :: sends, polls, recvs⟩, s) =
        some (rc, ⟨clock, sends, polls, recvs⟩, t) ∧
      t.ctx = build host seq (timespec now) s.ctx ∧
      handed t.log = (build host seq (timespec now) s.ctx).pkt.bytes :: handed s.log := by
  cases outcome with
  | none =>
      refine ⟨0, _, exec_send_one host site seq now clock sends polls recvs fuel s,
        transmitted_ctx host site seq now s, ?_⟩
      rw [transmitted, handed_printed]
      rfl
  | some errno => exact ⟨-1, _, rfl, rfl, rfl⟩

end Send

-- Every byte that goes out is one of these, whatever `pkt` held before; beside the packet only
-- the slot of the sequence number is written.
theorem send_one_wire_image (s : State Unit) (site : SendSite) (seq : UInt16) (now : Nat)
    (outcome : Option Errno) (clock : List Nat) (sends : List (Option Errno))
    (polls : List (Bool × PollResult)) (recvs : List (Except Errno Datagram)) (fuel : Nat)
    (hlen : s.ctx.payload_len ≤ 65507) :
    ∃ wire : List UInt8,
      (∀ pkt : Buffer (IcmpHdr.size + s.ctx.payload_len), ∃ rc t buf,
        exec (play false) fuel (send_one host site seq) (⟨now :: clock, outcome :: sends, polls,
            recvs⟩, { s with ctx := { s.ctx with pkt := pkt } }) =
          some (rc, ⟨clock, sends, polls, recvs⟩, t) ∧
        handed t.log = wire :: handed s.log ∧ buf.bytes = wire ∧
        t.ctx = { s.ctx with
          pkt := buf, send_ts := Function.update s.ctx.send_ts (slot seq) (timespec now) }) ∧
      wire.length = 8 + s.ctx.payload_len ∧
      wire.getD 0 0 = 8 ∧ wire.getD 1 0 = 0 ∧ ft_checksum host wire = 0 ∧
      slice wire 4 2 = store16 host s.ctx.id ∧
      slice wire 6 2 = [UInt8.ofNat (seq.toNat / 256), UInt8.ofNat (seq.toNat % 256)] ∧
      ∀ i, i < s.ctx.payload_len → wire.getD (8 + i) 0 =
        if s.ctx.flags.has_pattern then s.ctx.flags.pattern.byte (i % s.ctx.flags.pattern_len)
        else if 16 ≤ s.ctx.payload_len ∧ i < 16 then ((timespec now).bytes host).getD i 0
        else UInt8.ofNat i := by
  refine ⟨echo_request host s.ctx seq (timespec now)
    (ft_checksum host (echo_request host s.ctx seq (timespec now) 0)), fun pkt => ?_, ?_, rfl, rfl,
    echo_request_verifies host seq _ s.ctx hlen, ?_, ?_, fun i hi => ?_⟩
  · obtain ⟨rc, t, hexec, hctx, hhanded⟩ := exec_send_one_handed host
      { s with ctx := { s.ctx with pkt := pkt } } site seq now outcome clock sends polls recvs fuel
    obtain ⟨buf, hbuild⟩ := build_eq host seq (timespec now) { s.ctx with pkt := pkt }
    have hbytes := build_bytes host seq (timespec now) { s.ctx with pkt := pkt }
    rw [hbytes] at hhanded
    rw [hbuild] at hctx hbytes
    exact ⟨rc, t, buf, hexec, hhanded, hbytes, hctx⟩
  · exact echo_request_length host seq _ s.ctx _
  · exact (echo_request_id_seq host seq _ s.ctx _).1
  · exact (echo_request_id_seq host seq _ s.ctx _).2
  · exact echo_request_payload host seq _ s.ctx _ hi

theorem send_one_wire_image_default :
    ∃ wire : List UInt8, wire.length = 64 ∧ ft_checksum .little wire = 0 ∧
      wire.getD (8 + 20) 0 = 20 := by
  obtain ⟨wire, -, hlen, -, -, hsum, -, -, hpayload⟩ := send_one_wire_image .little
    (loopback Flags.zero) .ping_run 7 1000000 none [] [] [] [] 0 (by decide)
  exact ⟨wire, hlen, hsum, hpayload 20 (by decide)⟩

end FtPing
