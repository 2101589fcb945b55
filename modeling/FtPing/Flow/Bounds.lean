import FtPing.Core.Context
import FtPing.Flow.Receive

namespace FtPing

open Bytes Interaction

variable {N : Type} (host : Endian)

-- Wherever a run of ping_receive() has come to, it is about to touch nothing of the receive
-- buffer but what came in of the last datagram, and whenever it is about to receive again or
-- has returned, that part of the buffer is as recvfrom() has left it.
theorem ping_receive_in_bounds (net : Network N) (monotone : Prop) (s t : State N)
    (q : Ping N Int)
    (h : Reach (world net monotone) (ping_receive host, s.fresh) (q, t)) :
    (∀ offset length next, q = .call (.load offset length) next →
      ∃ d, Flow.latest t.log = some d ∧ offset + length ≤ min d.length t.ctx.recvbuf_len) ∧
    (∀ offset bytes next, q = .call (.store offset bytes) next →
      ∃ d, Flow.latest t.log = some d ∧ offset + bytes.length ≤ min d.length t.ctx.recvbuf_len) ∧
    (∀ len next, q = .call (.recvfrom len) next → len = t.ctx.recvbuf_len ∧ Flow.Intact t) ∧
    ∀ rc, q = .ret rc → Flow.Intact t := by
  have hsafe := @Flow.ping_receive_follows N host net monotone (.draining 0) s.fresh True 0 s.fresh
    .here (fun _ d hd => by cases hd) q t h
  refine ⟨?_, ?_, ?_, ?_⟩
  · rintro offset length next rfl
    exact hsafe.2
  · rintro offset bytes next rfl
    exact hsafe.2
  · rintro len next rfl
    exact ⟨hsafe.2.1, hsafe.2.2 trivial⟩
  · rintro rc rfl
    exact hsafe.2.1 trivial

-- An echo request with a bad checksum behind a header of the least length.
def bad_request : Datagram :=
  0x45 :: List.replicate 19 0 ++ [8, 0, 0xAB, 0xCD, 0, 0, 0, 0]

theorem ping_receive_in_bounds_bad_request :
    ∃ t, Reach (world Network.free False)
        (ping_receive .little, (loopback Flags.zero).fresh) (.ret 0, t) ∧
      Flow.latest t.log = some bad_request ∧ t.holds bad_request := by
  let s := (loopback Flags.zero).fresh
  have hdrain : drain .little [bad_request] [] s = some ([], (delivered s bad_request).record
      (.printed (.checksum_mismatch [0, 0, 0, 0]))) := by
    have hverdict : verdict .little s.ctx.flags s.ctx.id (bad_request.take s.ctx.recvbuf_len) =
        .fault (.checksum_mismatch [0, 0, 0, 0]) := by
      decide +kernel
    simp only [drain, digest, hverdict, Option.bind_some]
  have hexec := exec_ping_receive .little 2 [] [] [] [bad_request] .EAGAIN [] s (by decide)
  rw [hdrain] at hexec
  have hreach := exec_reach (play_plays false False False.elim) 2 _ _ _ hexec
  refine ⟨_, hreach, rfl, ?_⟩
  exact (ping_receive_in_bounds .little Network.free False (loopback Flags.zero) _ _ hreach).2.2.2
    0 rfl bad_request rfl

end FtPing
