import FtPing.Net.Lines
import FtPing.Net.RoundTrip

namespace FtPing

open Bytes Interaction

variable (host : Endian)

-- The ICMP error that a conforming host makes of what it quotes, with four bytes of its own.
def icmp_error (type code : UInt8) (unused quote : List UInt8) : List UInt8 :=
  sealed host (type :: code :: 0 :: 0 :: unused ++ quote)

section Error

variable (type code : UInt8) (unused quote : List UInt8) (hunused : unused.length = 4)

include hunused

theorem icmp_error_size :
    IcmpHdr.size ≤ (type :: code :: 0 :: 0 :: unused ++ quote).length := by
  simp only [IcmpHdr.size, List.cons_append, List.length_cons, List.length_append]
  omega

theorem icmp_error_length :
    (icmp_error host type code unused quote).length = IcmpHdr.size + quote.length := by
  rw [icmp_error, sealed_length]
  simp only [IcmpHdr.size, List.cons_append, List.length_cons, List.length_append]
  omega

theorem icmp_error_fields :
    (icmp_error host type code unused quote).getD IcmpHdr.type 0 = type ∧
      (icmp_error host type code unused quote).getD IcmpHdr.code 0 = code ∧
      (icmp_error host type code unused quote).drop IcmpHdr.size = quote := by
  have hsize := icmp_error_size type code unused quote hunused
  have hskip : unused.drop 4 = [] := List.drop_of_length_le (by omega)
  rw [icmp_error, sealed_getD host _ hsize (by decide), sealed_getD host _ hsize (by decide),
    sealed_drop host _ hsize]
  refine ⟨rfl, rfl, ?_⟩
  change (unused ++ quote).drop 4 = quote
  rw [← hunused, List.drop_left]

theorem icmp_error_matches :
    checksum_matches host (icmp_error host type code unused quote) = true :=
  sealed_matches host _ (icmp_error_size type code unused quote hunused)

end Error

theorem getD_take {i count : Nat} (cells : List UInt8) (h : i < count) :
    (cells.take count).getD i 0 = cells.getD i 0 := by
  rw [List.getD_eq_getElem?_getD, List.getElem?_take_of_lt h, ← List.getD_eq_getElem?_getD]

theorem word_take {i count : Nat} (cells : List UInt8) (h : i + 2 ≤ count) :
    word host (cells.take count) i = word host cells i := by
  rw [word, word, getD_take cells (by omega), getD_take cells (by omega)]

-- Of a quote with a proper IP header in front, as much as is `present`.
section Quote

variable (inner wire : List UInt8)
  (hinner : inner.length = IpHdr.ip_hl (inner.getD 0 0) * 4)
  (hmin : IpHdr.size ≤ inner.length) {present : Nat}

theorem quote_split (h : inner.length ≤ present) :
    (inner ++ wire).take present = inner ++ wire.take (present - inner.length) := by
  rw [List.take_append, List.take_of_length_le h]

include hinner hmin

theorem quote_complete_iff (hpresent : present ≤ (inner ++ wire).length) :
    Datagram.complete ((inner ++ wire).take present) = true ↔
      inner.length + IcmpHdr.size ≤ present := by
  have hlength : ((inner ++ wire).take present).length = present := by
    rw [List.length_take, Nat.min_eq_left hpresent]
  constructor
  · intro hcomplete
    obtain ⟨hip, -, hicmp⟩ := (complete_iff _).mp hcomplete
    have hihl : Datagram.ihl ((inner ++ wire).take present) = inner.length := by
      simp only [IpHdr.size, hlength] at hip hmin
      rw [Datagram.ihl, getD_take _ (by omega), List.getD_append _ _ _ _ (by omega), hinner]
    omega
  · intro hlong
    rw [quote_split inner wire (by omega)]
    refine framed_complete inner _ hinner hmin ?_
    rw [List.length_append] at hpresent
    rw [List.length_take]
    omega

-- The header of the probe that is quoted.
theorem quote_fields (hlong : inner.length + IcmpHdr.size ≤ present) :
    Datagram.id host ((inner ++ wire).take present) = word host wire IcmpHdr.id ∧
      Datagram.sequence host ((inner ++ wire).take present) =
        ntohs host (word host wire IcmpHdr.sequence) := by
  simp only [IcmpHdr.size] at hlong
  rw [quote_split inner wire (by omega), Datagram.id, Datagram.sequence,
    framed_message inner _ hinner hmin]
  simp only [IcmpHdr.id, IcmpHdr.sequence]
  rw [word_take host wire (by omega), word_take host wire (by omega)]
  exact ⟨rfl, rfl⟩

end Quote

theorem verdict_error (flags : Flags) (id : UInt16) {d : Datagram} (hcomplete : d.complete = true)
    (hsum : checksum_matches host d.message = true) (htype : d.type ≠ 0) :
    verdict host flags id d = (error_line host flags id d).elim .ignored .fault := by
  rw [verdict, if_neg (by simp [hcomplete]), if_neg (by simp [hsum]), if_pos (Or.inl htype)]
  cases error_line host flags id d with
  | none => rfl
  | some line => rfl

-- What a datagram that is no reply leaves behind: its delivery, and a line or none.
theorem exec_ping_receive_other (s : State Unit) (d : Datagram) (errno : Errno) (clock : List Nat)
    (sends : List (Option Errno)) (polls : List (Bool × PollResult))
    (recvs : List (Except Errno Datagram)) (fuel : Nat) (hfit : d.length ≤ s.ctx.recvbuf_len)
    (hcomplete : d.complete = true) (hsum : checksum_matches host d.message = true)
    (htype : d.type ≠ 0) :
    exec (play false) fuel (receive_round host) (⟨clock, sends, polls, .ok d :: recvs⟩, s) =
        some (.inl (), ⟨clock, sends, polls, recvs⟩,
          printed (delivered s d) (error_line host s.ctx.flags s.ctx.id d)) ∧
      exec (play false) (fuel + 2) (ping_receive host)
          (⟨clock, sends, polls, .ok d :: .error errno :: recvs⟩, s) =
        some (if drained errno then 0 else -1, ⟨clock, sends, polls, recvs⟩,
          refused (printed (delivered s d) (error_line host s.ctx.flags s.ctx.id d)) errno) := by
  have hdigest : digest host clock s d =
      some (clock, printed (delivered s d) (error_line host s.ctx.flags s.ctx.id d)) := by
    have hverdict := verdict_error host s.ctx.flags s.ctx.id hcomplete hsum htype
    cases hline : error_line host s.ctx.flags s.ctx.id d with
    | none =>
        rw [hline, Option.elim_none] at hverdict
        simp only [digest, List.take_of_length_le hfit, hverdict, printed]
    | some line =>
        rw [hline, Option.elim_some] at hverdict
        simp only [digest, List.take_of_length_le hfit, hverdict, printed]
  have hexec := exec_ping_receive host (fuel + 2) sends polls recvs [d] errno clock s (by simp)
  rw [drain, hdigest] at hexec
  refine ⟨?_, hexec⟩
  rw [exec_receive_round, hdigest]
  rfl

-- The line that a quote of our probe gets, if enough of it is present.
theorem quoted_error_line (flags : Flags) (id seq : UInt16)
    (header inner wire unused : List UInt8) (type code : UInt8) (present : Nat)
    (hheader : header.length = IpHdr.ip_hl (header.getD 0 0) * 4)
    (hmin : IpHdr.size ≤ header.length)
    (hinner : inner.length = IpHdr.ip_hl (inner.getD 0 0) * 4)
    (hinner_min : IpHdr.size ≤ inner.length) (hunused : unused.length = 4)
    (htype : is_icmp_error_type type = true) (hpresent : present ≤ (inner ++ wire).length)
    (hid : word host wire IcmpHdr.id = id)
    (hseq : word host wire IcmpHdr.sequence = htons host seq) :
    error_line host flags id
        (header ++ icmp_error host type code unused ((inner ++ wire).take present)) =
      if inner.length + IcmpHdr.size ≤ present ∧ ¬ flags.quiet ∧ ¬ flags.quiet_errors then
        some (.icmp_error (slice header IpHdr.ip_src 4) seq type code)
      else none := by
  obtain ⟨htype', hcode', hquote'⟩ :=
    icmp_error_fields host type code unused ((inner ++ wire).take present) hunused
  have hmessage := framed_message header
    (icmp_error host type code unused ((inner ++ wire).take present)) hheader hmin
  have hsrc : slice (header ++ icmp_error host type code unused ((inner ++ wire).take present))
      IpHdr.ip_src 4 = slice header IpHdr.ip_src 4 :=
    slice_append_left _ _ _ _ (by simp only [IpHdr.size, IpHdr.ip_src] at hmin ⊢; omega)
  have hcomplete := quote_complete_iff inner wire hinner hinner_min hpresent
  rw [error_line, Datagram.type, Datagram.code, Datagram.quote, Datagram.src, hmessage, htype',
    hcode', hquote', hsrc]
  by_cases hlong : inner.length + IcmpHdr.size ≤ present
  · obtain ⟨hid', hseq'⟩ := quote_fields host inner wire hinner hinner_min hlong
    rw [hid', hseq', hid, hseq, ntohs_htons]
    simp only [htype, hcomplete.mpr hlong, hlong, true_and, true_or]
  · rw [if_neg (fun h => hlong (hcomplete.mp h.2.1)), if_neg (fun h => hlong h.1)]

-- An ICMP error that quotes a probe of send_one() is reported under the probe's sequence number
-- if the quote reaches to the end of the probe's ICMP header, and changes nothing else.
theorem icmp_error_reported (s u : State Unit) (site : SendSite) (seq : UInt16) (sent_at : Nat)
    (clock : List Nat) (sends : List (Option Errno)) (polls : List (Bool × PollResult))
    (recvs : List (Except Errno Datagram)) (errno : Errno) (fuel : Nat)
    (header inner unused : List UInt8) (type code : UInt8) (present : Nat)
    (hid : u.ctx.id = s.ctx.id)
    (hheader : header.length = IpHdr.ip_hl (header.getD 0 0) * 4)
    (hmin : IpHdr.size ≤ header.length)
    (hinner : inner.length = IpHdr.ip_hl (inner.getD 0 0) * 4)
    (hinner_min : IpHdr.size ≤ inner.length) (hunused : unused.length = 4)
    (htype : type = 3 ∨ type = 4 ∨ type = 5 ∨ type = 11 ∨ type = 12)
    (hpresent : present ≤ inner.length + (IcmpHdr.size + s.ctx.payload_len))
    (hfit : header.length + (IcmpHdr.size + present) ≤ u.ctx.recvbuf_len) :
    ∃ wire t v w,
      exec (play false) fuel (send_one host site seq)
          (⟨sent_at :: clock, none :: sends, polls, recvs⟩, s) =
        some (0, ⟨clock, sends, polls, recvs⟩, t) ∧
      sent_datagrams t.log = wire :: sent_datagrams s.log ∧
      wire.length = IcmpHdr.size + s.ctx.payload_len ∧
      exec (play false) fuel (receive_round host)
          (⟨clock, sends, polls, .ok (header ++ icmp_error host type code unused
            ((inner ++ wire).take present)) :: recvs⟩, u) =
        some (.inl (), ⟨clock, sends, polls, recvs⟩, v) ∧
      v.stats = u.stats ∧
      lines v.log =
        (if inner.length + IcmpHdr.size ≤ present ∧ ¬ u.ctx.flags.quiet ∧
            ¬ u.ctx.flags.quiet_errors then
          [.icmp_error (slice header IpHdr.ip_src 4) seq type code] else []) ++ lines u.log ∧
      exec (play false) (fuel + 2) (ping_receive host)
          (⟨clock, sends, polls, .ok (header ++ icmp_error host type code unused
            ((inner ++ wire).take present)) :: .error errno :: recvs⟩, u) =
        some (if drained errno then 0 else -1, ⟨clock, sends, polls, recvs⟩, w) ∧
      w.stats = u.stats ∧ lines w.log = (complaint errno).toList ++ lines v.log := by
  obtain ⟨-, -, hwire_id, hwire_seq⟩ := build_fields host seq (timespec sent_at) s.ctx
  have hwire := build_length host seq (timespec sent_at) s.ctx
  obtain ⟨wire, hbytes⟩ : ∃ wire, (build host seq (timespec sent_at) s.ctx).pkt.bytes = wire :=
    ⟨_, rfl⟩
  rw [hbytes] at hwire_id hwire_seq hwire
  have hall : present ≤ (inner ++ wire).length := by
    rw [List.length_append, hwire]
    exact hpresent
  have htype' : is_icmp_error_type type = true ∧ type ≠ 0 := by
    rcases htype with rfl | rfl | rfl | rfl | rfl <;> decide
  obtain ⟨htype_field, -, -⟩ :=
    icmp_error_fields host type code unused ((inner ++ wire).take present) hunused
  have hlength := icmp_error_length host type code unused ((inner ++ wire).take present) hunused
  have hmatches := icmp_error_matches host type code unused ((inner ++ wire).take present) hunused
  have hline := quoted_error_line host u.ctx.flags s.ctx.id seq header inner wire unused type code
    present hheader hmin hinner hinner_min hunused htype'.1 hall hwire_id hwire_seq
  obtain ⟨error, herror⟩ :
      ∃ error, icmp_error host type code unused ((inner ++ wire).take present) = error := ⟨_, rfl⟩
  rw [herror] at htype_field hlength hmatches hline
  have hmessage := framed_message header error hheader hmin
  have hcomplete := framed_complete header error hheader hmin
    (by rw [hlength]; exact Nat.le_add_right _ _)
  have hshort : (header ++ error).length ≤ u.ctx.recvbuf_len := by
    rw [List.length_append, hlength, List.length_take, Nat.min_eq_left hall]
    exact hfit
  obtain ⟨hround, hreceive⟩ := exec_ping_receive_other host u (header ++ error) errno clock sends
    polls recvs fuel hshort hcomplete (by rw [hmessage]; exact hmatches)
    (by rw [Datagram.type, hmessage, htype_field]; exact htype'.2)
  rw [← hid] at hline
  obtain ⟨v, hv⟩ : ∃ v, printed (delivered u (header ++ error))
      (error_line host u.ctx.flags u.ctx.id (header ++ error)) = v := ⟨_, rfl⟩
  have hstats : v.stats = u.stats := by
    rw [← hv]
    exact printed_stats _ _
  rw [hv] at hround hreceive
  refine ⟨wire, transmitted host site seq sent_at s, v, refused v errno,
    exec_send_one host site seq sent_at clock sends polls recvs fuel s, ?_, hwire,
    by rw [herror]; exact hround, hstats, ?_, by rw [herror]; exact hreceive,
    (printed_stats _ _).trans hstats, lines_printed _ _⟩
  · rw [transmitted, sent_datagrams_printed, ← hbytes]
    rfl
  · rw [← hv, lines_printed, hline]
    split_ifs <;> rfl

-- The header of the probe quoted whole, and all but its last byte of it.
theorem icmp_error_reported_time_exceeded :
    ∃ wire t v w,
      exec (play false) 0 (send_one .little .ping_run 7)
          (⟨[1000000], [none], [], []⟩, loopback Flags.zero) =
        some (0, ⟨[], [], [], []⟩, t) ∧
      lines v.log = [.icmp_error [0, 0, 0, 0] 7 11 0] ∧
      lines w.log = [] ∧
      exec (play false) 0 (receive_round .little)
          (⟨[], [], [], [.ok (0x45 :: List.replicate 19 0 ++
            icmp_error .little 11 0 [0, 0, 0, 0] ((0x45 :: List.replicate 19 0 ++ wire).take 28))]⟩,
            loopback Flags.zero) = some (.inl (), ⟨[], [], [], []⟩, v) ∧
      exec (play false) 0 (receive_round .little)
          (⟨[], [], [], [.ok (0x45 :: List.replicate 19 0 ++
            icmp_error .little 11 0 [0, 0, 0, 0] ((0x45 :: List.replicate 19 0 ++ wire).take 27))]⟩,
            loopback Flags.zero) = some (.inl (), ⟨[], [], [], []⟩, w) := by
  obtain ⟨wire, t, v, -, hsend, hwire, -, hround, -, hlines, -⟩ := icmp_error_reported .little
    (loopback Flags.zero) (loopback Flags.zero) .ping_run 7 1000000 [] [] [] [] .EAGAIN 0
    (0x45 :: List.replicate 19 0) (0x45 :: List.replicate 19 0) [0, 0, 0, 0] 11 0 28 rfl
    (by decide) (by decide) (by decide) (by decide) rfl (by decide) (by decide +kernel)
    (by decide +kernel)
  obtain ⟨wire', t', w, -, hsend', hwire', -, hround', -, hlines', -⟩ := icmp_error_reported .little
    (loopback Flags.zero) (loopback Flags.zero) .ping_run 7 1000000 [] [] [] [] .EAGAIN 0
    (0x45 :: List.replicate 19 0) (0x45 :: List.replicate 19 0) [0, 0, 0, 0] 11 0 27 rfl
    (by decide) (by decide) (by decide) (by decide) rfl (by decide) (by decide +kernel)
    (by decide +kernel)
  rw [hsend] at hsend'
  cases hsend'
  rw [hwire] at hwire'
  cases hwire'
  exact ⟨wire, t, v, w, hsend, hlines, hlines', hround, hround'⟩

end FtPing
