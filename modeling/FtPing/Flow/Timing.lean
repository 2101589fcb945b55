import FtPing.Flow.Attempts
import FtPing.Net.Replies

namespace FtPing

open Bytes History Interaction

-- In a run of ping_run() the call of send_one() with the number `k` carries `k` modulo the size
-- of the ring, and a reply to it is timed by its own reading of the clock, however many wraps
-- there have been, as long as fewer than a whole turn of calls have followed.
theorem replies_timed_by_their_probes {N : Type} (host : Endian) (net : Network N)
    (monotone : Prop) (s t : State N) (q : Ping N Unit)
    (h : Reach (world net monotone) (ping_run host, s.fresh) (q, t)) :
    (∀ k call, nth (attempts t.log) k = some call → call.seq.toNat = k % PING_TS_RING) ∧
    Every (Flow.Timed host s.ctx.id s.ctx.recvbuf_len monotone) t.log := by
  obtain ⟨p, hpath⟩ := Flow.ping_run_path host net monotone s.fresh t q h
  have hinv := hpath.inv rfl
  exact ⟨fun k call hk => hinv.call_seq hk, hinv.timed⟩

-- One probe, answered after seven milliseconds.
theorem replies_timed_by_their_probes_after_seven :
    ∃ t, Reach (world Network.free True)
        (ping_run .little, (loopback { Flags.zero with exit_on_reply := true }).fresh)
        (.ret (), t) ∧
      (∃ entry ∈ t.log, entry.event = .countedReply 7) ∧
      Every (Flow.Timed .little 0x1234 1024 True) t.log := by
  let s := (loopback { Flags.zero with exit_on_reply := true }).fresh
  have hrun : (exec (play true) 3 (ping_run .little)
      (⟨[1000000, 1000000, 1000000, 8000000], [none], [(false, .readable)],
        [.ok bare_reply, .error .EAGAIN]⟩, s)).map
      (fun r => r.2.2.log.any fun entry => entry.event = .countedReply 7) = some true := by
    decide +kernel
  obtain ⟨⟨value, k, t⟩, hexec, hcounted⟩ := Option.map_eq_some_iff.mp hrun
  have hreach := exec_reach (play_plays true True fun _ => rfl) 3 _ _ _ hexec
  refine ⟨t, hreach, by simpa using hcounted, ?_⟩
  exact (replies_timed_by_their_probes .little Network.free True
    (loopback { Flags.zero with exit_on_reply := true }) t _ hreach).2

end FtPing
