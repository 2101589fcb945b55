import FtPing.Core.Context
import FtPing.Net.Lines

namespace FtPing

open Bytes Interaction

variable (host : Endian)

def is_error_line : Line → Bool
  | .icmp_error .. => true
  | _ => false

-- What an error has to quote to be about one of our probes.
def quotes_our_probe (id : UInt16) (d : Datagram) : Prop :=
  d.quote.protocol = 1 ∧ d.quote.type = 8 ∧ d.quote.id host = id

theorem response_is_error_line_iff (ctx : Ctx) (d : Datagram) (now : Nat)
    (hcomplete : d.complete = true) (hsum : checksum_matches host d.message = true) :
    (∃ line, response host ctx d now = some line ∧ is_error_line line = true) ↔
      (error_line host ctx.flags ctx.id d).isSome = true := by
  rw [response_of_match host now hcomplete hsum]
  constructor
  · rintro ⟨line, hline, herror⟩
    split_ifs at hline
    · rw [hline]
      rfl
    · rcases reply_line_eq_some host hline with rfl | rfl <;> cases herror
  · intro hsome
    obtain ⟨line, hline⟩ := Option.isSome_iff_exists.mp hsome
    have htype : d.type ≠ 0 ∨ d.code ≠ 0 := by
      left
      intro hzero
      rw [error_line, hzero] at hline
      simp [is_icmp_error_type] at hline
    refine ⟨line, by rw [if_pos htype, hline], ?_⟩
    rw [error_line_eq_some host hline]
    rfl

-- With -v, -q and -Q off, an error that quotes enough has its line exactly if the id fits. So
-- the line is about one of our probes if the quoted bytes that would be the id are another
-- value, or if the quoted datagram is an echo request in the first place.
theorem error_line_attributed_iff (s : State Unit) (d : Datagram) (errno : Errno) (now : Nat)
    (clock : List Nat) (sends : List (Option Errno)) (polls : List (Bool × PollResult))
    (recvs : List (Except Errno Datagram)) (fuel : Nat)
    (hfit : d.length ≤ s.ctx.recvbuf_len) (hcomplete : d.complete = true)
    (hsum : checksum_matches host d.message = true) (hquote : d.quote.complete = true)
    (hverbose : s.ctx.flags.verbose = false) (hquiet : s.ctx.flags.quiet = false)
    (hquiet_errors : s.ctx.flags.quiet_errors = false) :
    ∃ rc rest t,
      exec (play false) (fuel + 2) (ping_receive host)
          (⟨now :: clock, sends, polls, .ok d :: .error errno :: recvs⟩, s) =
        some (rc, ⟨rest, sends, polls, recvs⟩, t) ∧
      (((lines t.log).filter is_error_line ≠ (lines s.log).filter is_error_line →
          quotes_our_probe host s.ctx.id d) ↔
        ¬ is_icmp_error_type d.type ∨ d.quote.id host ≠ s.ctx.id ∨
          d.quote.protocol = 1 ∧ d.quote.type = 8) := by
  obtain ⟨rest, t, hexec, hlines⟩ :=
    ping_receive_lines host s d errno now clock sends polls recvs fuel
  refine ⟨if drained errno then 0 else -1, rest, t, hexec, ?_⟩
  have hprinted : (lines t.log).filter is_error_line ≠ (lines s.log).filter is_error_line ↔
      (error_line host s.ctx.flags s.ctx.id d).isSome = true := by
    have hcomplaint : (complaint errno).toList.filter is_error_line = [] := by
      unfold complaint
      split_ifs <;> rfl
    rw [← response_is_error_line_iff host s.ctx d now hcomplete hsum, hlines,
      List.take_of_length_le hfit, List.filter_append, List.filter_append, hcomplaint,
      List.nil_append]
    cases response host s.ctx d now with
    | none => simp
    | some line => cases hline : is_error_line line <;> simp [hline]
  have hsome : (error_line host s.ctx.flags s.ctx.id d).isSome = true ↔
      is_icmp_error_type d.type = true ∧ d.quote.id host = s.ctx.id := by
    simp [error_line, hquote, hverbose, hquiet, hquiet_errors]
  rw [hprinted, hsome]
  constructor
  · intro h
    by_cases htype : is_icmp_error_type d.type = true
    · by_cases hid : d.quote.id host = s.ctx.id
      · obtain ⟨hprotocol, hecho, -⟩ := h ⟨htype, hid⟩
        exact Or.inr (Or.inr ⟨hprotocol, hecho⟩)
      · exact Or.inr (Or.inl hid)
    · exact Or.inl htype
  · rintro (hother | hid | ⟨hprotocol, hecho⟩) ⟨htype, hours⟩
    · exact absurd htype hother
    · exact absurd hours hid
    · exact ⟨hprotocol, hecho, hours⟩

-- Port unreachable, for a UDP datagram whose length field reads like our id.
def port_unreachable : Datagram :=
  [0x45, 0, 0, 0, 0, 0, 0, 0, 64, 1, 0, 0, 10, 0, 0, 1, 10, 0, 0, 2] ++
    [3, 3, 0x43, 0x6F, 0, 0, 0, 0] ++
    [0x45, 0, 0, 0, 0, 0, 0, 0, 64, 17, 0, 0, 0, 0, 0, 0, 0, 0, 0, 0] ++
    [0, 53, 0, 53, 0x34, 0x12, 0, 0]

theorem port_unreachable_misattributed :
    port_unreachable.complete = true ∧ checksum_matches .little port_unreachable.message = true ∧
      port_unreachable.quote.complete = true ∧ port_unreachable.quote.protocol = 17 ∧
      ∃ rest t,
        exec (play false) 2 (ping_receive .little)
            (⟨[0], [], [], [.ok port_unreachable, .error .EAGAIN]⟩, loopback Flags.zero) =
          some (0, ⟨rest, [], [], []⟩, t) ∧
        lines t.log = [.icmp_error [10, 0, 0, 1] 0 3 3] := by
  obtain ⟨rest, t, hexec, hlines⟩ := ping_receive_lines .little (loopback Flags.zero)
    port_unreachable .EAGAIN 0 [] [] [] [] 0
  have hfit : port_unreachable.length ≤ (loopback Flags.zero).ctx.recvbuf_len := by decide +kernel
  have hresponse : response .little (loopback Flags.zero).ctx port_unreachable 0 =
      some (.icmp_error [10, 0, 0, 1] 0 3 3) := by
    rw [response_of_match .little 0 (by decide +kernel) (by decide +kernel)]
    decide +kernel
  rw [List.take_of_length_le hfit, hresponse] at hlines
  exact ⟨by decide +kernel, by decide +kernel, by decide +kernel, by decide +kernel, rest, t, hexec,
    hlines⟩

theorem error_line_attributed_port_unreachable :
    ∃ rc rest t,
      exec (play false) 2 (ping_receive .little)
          (⟨[0], [], [], [.ok port_unreachable, .error .EAGAIN]⟩, loopback Flags.zero) =
        some (rc, ⟨rest, [], [], []⟩, t) ∧
      (lines t.log).filter is_error_line ≠ [] := by
  obtain ⟨rc, rest, t, hexec, hiff⟩ := error_line_attributed_iff .little (loopback Flags.zero)
    port_unreachable .EAGAIN 0 [] [] [] [] 0 (by decide +kernel) (by decide +kernel)
    (by decide +kernel) (by decide +kernel) rfl rfl rfl
  refine ⟨rc, rest, t, hexec, fun hnone => ?_⟩
  have hcond := hiff.mp fun hlines => absurd hnone hlines
  revert hcond
  decide +kernel

end FtPing
