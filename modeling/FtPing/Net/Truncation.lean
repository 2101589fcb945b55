import FtPing.Net.Lines
import FtPing.Net.Verification

namespace FtPing

open Bytes Interaction OnesComplement

variable (host : Endian)

theorem blank_append (kept lost : List UInt8) (h : IcmpHdr.size ≤ kept.length) :
    blank host (kept ++ lost) = blank host kept ++ lost := by
  simp only [IcmpHdr.size] at h
  exact overwrite_append_left kept lost _ _
    (by rw [store16_length]; simp only [IcmpHdr.checksum]; omega)

theorem word_append (kept lost : List UInt8) (offset : Nat) (h : offset + 2 ≤ kept.length) :
    word host (kept ++ lost) offset = word host kept offset := by
  rw [word, word, List.getD_append _ _ _ _ (by omega), List.getD_append _ _ _ _ (by omega)]

-- The front of an intact message is intact if what is lost leaves the sum as it is.
theorem checksum_matches_front_iff (kept lost : List UInt8) (hmin : IcmpHdr.size ≤ kept.length)
    (hmax : (kept ++ lost).length ≤ 131074)
    (hsum : checksum_matches host (kept ++ lost) = true) :
    checksum_matches host kept = true ↔ 65535 ∣ lost_sum host kept lost ∧
      (word_sum host (blank host kept) = 0 → lost_sum host kept lost = 0) := by
  have hlength : (kept ++ lost).length = kept.length + lost.length := List.length_append
  have hparity : lost_sum host (blank host kept) lost = lost_sum host kept lost := by
    rw [lost_sum, lost_sum, blank_length]
  have hkept := value_le (by omega : 2 ≤ 65536) (word_sum host (blank host kept))
  have hall := value_le (by omega : 2 ≤ 65536)
    (word_sum host (blank host kept) + lost_sum host kept lost)
  have hvalue := value_add_eq_iff (b := 65536) (word_sum host (blank host kept))
    (lost_sum host kept lost)
  have hfield : word host (kept ++ lost) IcmpHdr.checksum = word host kept IcmpHdr.checksum :=
    word_append host kept lost _ (by simp only [IcmpHdr.size, IcmpHdr.checksum] at hmin ⊢; omega)
  rw [checksum_matches, decide_eq_true_iff, ← UInt16.toNat_inj, blank_append host kept lost hmin,
    ft_checksum_toNat host _ (by rw [List.length_append, blank_length]; omega), word_sum_append,
    hparity, hfield] at hsum
  rw [checksum_matches, decide_eq_true_iff, ← UInt16.toNat_inj,
    ft_checksum_toNat host _ (by rw [blank_length]; omega), ← hvalue]
  omega

def is_mismatch : Line → Bool
  | .checksum_mismatch _ => true
  | _ => false

-- A datagram with both headers is reported exactly when its message does not match.
theorem response_is_mismatch_iff (ctx : Ctx) (d : Datagram) (now : Nat)
    (hcomplete : d.complete = true) :
    (∃ line, response host ctx d now = some line ∧ is_mismatch line = true) ↔
      checksum_matches host d.message = false := by
  cases hsum : checksum_matches host d.message with
  | false =>
      rw [response_of_mismatch host now hcomplete hsum]
      exact ⟨fun _ => rfl, fun _ => ⟨_, rfl, rfl⟩⟩
  | true =>
      rw [response_of_match host now hcomplete hsum]
      simp only [reduceCtorEq, iff_false]
      rintro ⟨line, hline, hmismatch⟩
      split_ifs at hline
      · rw [error_line_eq_some host hline] at hmismatch
        cases hmismatch
      · rcases reply_line_eq_some host hline with rfl | rfl <;> cases hmismatch

-- What is left of a datagram that is longer than the receive buffer still has both headers.
theorem complete_take (d : Datagram) (length : Nat) (h : d.complete = true)
    (hlength : PING_RECVBUF_MIN ≤ length) :
    Datagram.complete (d.take length) = true ∧
      Datagram.message (d.take length) = d.message.take (length - d.ihl) := by
  rw [complete_iff] at h ⊢
  simp only [IpHdr.size, IcmpHdr.size, PING_RECVBUF_MIN] at h hlength ⊢
  have hihl : Datagram.ihl (d.take length) = d.ihl := by
    simp only [Datagram.ihl, List.getD_eq_getElem?_getD]
    rw [List.getElem?_take_of_lt (by omega)]
  have hbound := ihl_le d
  refine ⟨?_, ?_⟩
  · rw [hihl, List.length_take]
    omega
  · rw [Datagram.message, Datagram.message, hihl, List.drop_take]

theorem lost_sum_nil (kept : List UInt8) : lost_sum host kept [] = 0 := by
  unfold lost_sum
  split_ifs
  · rfl
  · simp only [word_sum, load16_zero, UInt16.toNat_zero]

-- A datagram whose message carries the right checksum goes unreported if it fits into the
-- receive buffer. If it does not, recvfrom() cuts it off, and it goes unreported only if the
-- words cut off happen to leave the one's complement sum of the message as it is.
theorem intact_datagram_unreported_iff (s : State Unit) (d : Datagram) (errno : Errno)
    (now : Nat) (clock : List Nat) (sends : List (Option Errno))
    (polls : List (Bool × PollResult)) (recvs : List (Except Errno Datagram)) (fuel : Nat)
    (hsized : s.ctx.sized) (hcomplete : d.complete = true) (hlength : d.length ≤ 65535)
    (hsum : checksum_matches host d.message = true) :
    ∃ rc rest t,
      exec (play false) (fuel + 2) (ping_receive host)
          (⟨now :: clock, sends, polls, .ok d :: .error errno :: recvs⟩, s) =
        some (rc, ⟨rest, sends, polls, recvs⟩, t) ∧
      ((lines t.log).filter is_mismatch = (lines s.log).filter is_mismatch ↔
        d.length ≤ s.ctx.recvbuf_len ∨
          65535 ∣ lost_sum host (d.message.take (s.ctx.recvbuf_len - d.ihl))
            (d.drop s.ctx.recvbuf_len) ∧
          (word_sum host (blank host (d.message.take (s.ctx.recvbuf_len - d.ihl))) = 0 →
            lost_sum host (d.message.take (s.ctx.recvbuf_len - d.ihl))
              (d.drop s.ctx.recvbuf_len) = 0)) := by
  have hmin : PING_RECVBUF_MIN ≤ s.ctx.recvbuf_len := by
    rw [hsized.recvbuf_len_eq]
    omega
  obtain ⟨hkept, hmessage⟩ := complete_take d s.ctx.recvbuf_len hcomplete hmin
  have hihl := ihl_le d
  simp only [PING_RECVBUF_MIN] at hmin
  have hsplit : d.message =
      d.message.take (s.ctx.recvbuf_len - d.ihl) ++ d.drop s.ctx.recvbuf_len := by
    have hdrop : d.message.drop (s.ctx.recvbuf_len - d.ihl) = d.drop s.ctx.recvbuf_len := by
      rw [Datagram.message, List.drop_drop, Nat.add_sub_cancel' (by omega)]
    rw [← hdrop, List.take_append_drop]
  have hlong : IcmpHdr.size ≤ (d.message.take (s.ctx.recvbuf_len - d.ihl)).length := by
    have hicmp := ((complete_iff d).mp hcomplete).2.2
    rw [List.length_take, Datagram.message, List.length_drop]
    simp only [IcmpHdr.size] at hicmp ⊢
    omega
  have hfront := checksum_matches_front_iff host (d.message.take (s.ctx.recvbuf_len - d.ihl))
    (d.drop s.ctx.recvbuf_len) hlong (by
      rw [← hsplit, Datagram.message, List.length_drop]
      omega) (by rwa [← hsplit])
  obtain ⟨rest, t, hexec, hlines⟩ :=
    ping_receive_lines host s d errno now clock sends polls recvs fuel
  refine ⟨if drained errno then 0 else -1, rest, t, hexec, ?_⟩
  have hreported := response_is_mismatch_iff host s.ctx _ now hkept
  rw [hmessage, ← Bool.not_eq_true, hfront] at hreported
  have hsilent : (lines t.log).filter is_mismatch = (lines s.log).filter is_mismatch ↔
      ¬ ∃ line, response host s.ctx (d.take s.ctx.recvbuf_len) now = some line ∧
        is_mismatch line = true := by
    have hcomplaint : (complaint errno).toList.filter is_mismatch = [] := by
      unfold complaint
      split_ifs <;> rfl
    rw [hlines, List.filter_append, List.filter_append, hcomplaint, List.nil_append]
    cases response host s.ctx (d.take s.ctx.recvbuf_len) now with
    | none => simp
    | some line => cases hline : is_mismatch line <;> simp [hline]
  rw [hsilent, hreported, not_not]
  constructor
  · exact Or.inr
  · rintro (hfits | hlost)
    · rw [List.drop_of_length_le hfits, lost_sum_nil]
      simp
    · exact hlost

-- An echo request of 1028 bytes, four more than a default run has room for. The last word that
-- is not zero is among them.
def long_request : Datagram :=
  0x45 :: List.replicate 19 0 ++ [8, 0, 0xF6, 0xFF, 0, 0, 0, 0] ++ List.replicate 996 0 ++
    [1, 0, 0, 0]

theorem long_request_intact :
    long_request.complete = true ∧ long_request.length = 1028 ∧
      checksum_matches .little long_request.message = true := by
  decide +kernel

theorem long_request_reported :
    long_request.complete = true ∧ long_request.length ≤ 65535 ∧
      checksum_matches .little long_request.message = true ∧
      (loopback Flags.zero).ctx.sized ∧
      ∃ rest t,
        exec (play false) 2 (ping_receive .little)
            (⟨[0], [], [], [.ok long_request, .error .EAGAIN]⟩, loopback Flags.zero) =
          some (0, ⟨rest, [], [], []⟩, t) ∧
        lines t.log = [.checksum_mismatch [0, 0, 0, 0]] := by
  have hkept : Datagram.complete (long_request.take (loopback Flags.zero).ctx.recvbuf_len) =
      true := by
    decide +kernel
  have hcut : checksum_matches .little (Datagram.message
      (long_request.take (loopback Flags.zero).ctx.recvbuf_len)) = false := by
    decide +kernel
  obtain ⟨rest, t, hexec, hlines⟩ := ping_receive_lines .little (loopback Flags.zero)
    long_request .EAGAIN 0 [] [] [] [] 0
  rw [response_of_mismatch .little 0 hkept hcut] at hlines
  exact ⟨long_request_intact.1, by rw [long_request_intact.2.1]; decide, long_request_intact.2.2,
    ctx_alloc_buffers_sized _ _ _, rest, t, hexec, hlines⟩

theorem intact_datagram_unreported_long_request :
    ∃ rc rest t,
      exec (play false) 2 (ping_receive .little)
          (⟨[0], [], [], [.ok long_request, .error .EAGAIN]⟩, loopback Flags.zero) =
        some (rc, ⟨rest, [], [], []⟩, t) ∧
      (lines t.log).filter is_mismatch ≠ [] := by
  obtain ⟨rc, rest, t, hexec, hiff⟩ := intact_datagram_unreported_iff .little
    (loopback Flags.zero) long_request .EAGAIN 0 [] [] [] [] 0 (ctx_alloc_buffers_sized _ _ _)
    long_request_intact.1
    (by rw [long_request_intact.2.1]; decide) long_request_intact.2.2
  refine ⟨rc, rest, t, hexec, fun hnone => ?_⟩
  have hcond := hiff.mp hnone
  revert hcond
  decide +kernel

end FtPing
