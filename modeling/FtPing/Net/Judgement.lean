import FtPing.Net.Access

namespace FtPing

open Bytes Interaction

variable {N : Type} (host : Endian) (ctx : Ctx)

-- Whether an errno of recvfrom() is one of those that end the drain quietly.
def drained (errno : Errno) : Bool :=
  errno = .EAGAIN || errno = .EWOULDBLOCK || errno = .EINTR

-- The part of a round of ping_receive() that only looks at the datagram.
def judge (n : Nat) : Ping N Verdict := do
  match ← locate_icmp n with
  | none => pure .ignored
  | some ihl => do
      if ¬ (← checksum_ok host ihl (n - ihl)) then
        let src ← load IpHdr.ip_src 4
        pure (.fault (.checksum_mismatch src))
      else
        let type ← load_uint8 (ihl + IcmpHdr.type)
        let code ← load_uint8 (ihl + IcmpHdr.code)
        if type ≠ 0 ∨ code ≠ 0 then
          let line ← icmp_error_line host ctx 0 ihl ihl n
          pure (match line with
            | none => .ignored
            | some line => .fault line)
        else
          let id ← load_uint16 host (ihl + IcmpHdr.id)
          if id ≠ ctx.id then pure .ignored
          else
            let sequence ← load_uint16 host (ihl + IcmpHdr.sequence)
            pure (.reply ihl (ntohs host sequence))

-- The rest of the round.
def settle (n : Nat) : Verdict → Ping N (Unit ⊕ Int)
  | .ignored => pure (.inl ())
  | .fault line => do
      print line
      pure (.inl ())
  | .reply ihl seq => do
      let rtt ← record_rtt ctx seq
      report_reply ctx 0 (n - ihl) seq rtt
      pure (.inl ())

theorem receive_round_eq :
    (receive_round host : Ping N (Unit ⊕ Int)) = (do
      let s ← Prog.get
      match ← recvfrom s.ctx.recvbuf_len with
      | .error errno => do
          let rc ← classify_recv_error errno
          pure (.inr rc)
      | .ok n => do
          let v ← judge host s.ctx n
          settle s.ctx n v) := by
  unfold receive_round judge
  simp only [Prog.bind_eq, Prog.bind_assoc]
  congr 1
  funext s
  congr 1
  funext answer
  cases answer with
  | error errno => rfl
  | ok n =>
      dsimp only
      congr 1
      funext ihl
      cases ihl with
      | none => rfl
      | some ihl =>
          simp only [Prog.bind_assoc]
          congr 1
          funext ok
          cases ok with
          | false => rfl
          | true =>
              simp only [not_true_eq_false, ite_false, Prog.bind_assoc]
              congr 1
              funext type
              congr 1
              funext code
              split_ifs
              · rw [handle_icmp_error_eq]
                simp only [Prog.bind_eq, Prog.bind_assoc]
                congr 1
                funext line
                cases line <;> rfl
              · simp only [Prog.bind_assoc]
                congr 1
                funext id
                split_ifs
                · rfl
                · rfl

theorem within_judge (d : Datagram) :
    within d.length (judge host ctx d.length : Ping N Verdict) d =
      some (verdict host ctx.flags ctx.id d, d) := by
  unfold judge verdict
  rw [within_then (within_locate_icmp d)]
  by_cases hcomplete : d.complete = true
  · obtain ⟨hip, -, hicmp⟩ := (complete_iff d).mp hcomplete
    simp only [IpHdr.size] at hip
    have hfield : ∀ offset, word host d (d.ihl + offset) = word host d.message offset :=
      fun offset => (word_drop host d _).symm
    rw [if_pos hcomplete, if_neg (by simp [hcomplete])]
    dsimp only
    rw [within_then (within_checksum_ok host d d.ihl hicmp), ← Datagram.message]
    simp only [IcmpHdr.size] at hicmp
    by_cases hsum : checksum_matches host d.message = true
    · rw [if_neg (by simp [hsum]), if_neg (by simp [hsum]),
        within_then (within_load_uint8 d (by simp only [IcmpHdr.type]; omega)), ← type_eq,
        within_then (within_load_uint8 d (by simp only [IcmpHdr.code]; omega)), ← code_eq]
      by_cases htype : d.type ≠ 0 ∨ d.code ≠ 0
      · rw [if_pos htype, if_pos htype,
          within_then (within_icmp_error_line host ctx d hcomplete)]
        rfl
      · rw [if_neg htype, if_neg htype, within_then (within_load_uint16 host d
          (by simp only [IcmpHdr.id]; omega)), hfield, ← Datagram.id]
        by_cases hid : d.id host ≠ ctx.id
        · rw [if_pos hid, if_pos hid]
          rfl
        · rw [if_neg hid, if_neg hid, within_then (within_load_uint16 host d
            (by simp only [IcmpHdr.sequence]; omega)), hfield]
          rfl
    · rw [if_pos hsum, if_pos hsum,
        within_then (within_load _ _ d (by simp only [IpHdr.ip_src]; omega))]
      rfl
  · rw [if_neg hcomplete, if_pos hcomplete]
    rfl

end FtPing
