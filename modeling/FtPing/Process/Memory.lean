import FtPing.Flow.Portable
import FtPing.Process.Lifetime

namespace FtPing.Process

open Bytes CLib Interaction

-- The machine and what malloc() has left in the two buffers.
structure Memory (flags : Flags) where
  host : Endian
  pkt : Buffer (IcmpHdr.size + (ctx_size_buffers flags).1)
  recvbuf : Buffer (ctx_size_buffers flags).2

def Memory.ctx {flags : Flags} (mem : Memory flags) (pid : Nat) (dst : List UInt8) : Ctx :=
  built mem.host pid flags dst mem.pkt mem.recvbuf

section Memory

variable {flags : Flags} (mem mem' : Memory flags) (pid : Nat) (dst : List UInt8)

-- Everything but the timestamp in the payload is in network order.
def NoTimestamp (flags : Flags) : Prop :=
  flags.has_pattern = true ∨ (ctx_size_buffers flags).1 < Timespec.size

theorem ctx_twin {N : Type} (n : N) (hsize : (ctx_size_buffers flags).1 ≤ 65507)
    (horder : mem'.host = mem.host ∨ NoTimestamp flags) :
    Twin mem.host mem'.host (.initial (mem.ctx pid dst) n) (.initial (mem'.ctx pid dst) n) := by
  have hsized : (mem.ctx pid dst).sized := rfl
  have hrecvbuf : (mem.ctx pid dst).recvbuf_len =
      max ((ctx_size_buffers flags).1 + PING_RECVBUF_SLACK) PING_RECVBUF_MIN := hsized.recvbuf_len_eq
  refine ⟨htons mem'.host (UInt16.ofNat pid), mem'.pkt, mem'.recvbuf, rfl, ?_, horder, ?_, ?_⟩
  · exact (store16_htons mem'.host _).trans (store16_htons mem.host _).symm
  · change IcmpHdr.size + (ctx_size_buffers flags).1 ≤ 131074
    simp only [IcmpHdr.size]
    omega
  · change (mem.ctx pid dst).recvbuf_len ≤ 131074
    rw [hrecvbuf]
    simp only [PING_RECVBUF_SLACK, PING_RECVBUF_MIN]
    omega

theorem banner_any : print_ping_banner mem'.host (mem'.ctx pid dst) =
    print_ping_banner mem.host (mem.ctx pid dst) := by
  have hid : ∀ mem : Memory flags, ntohs mem.host (mem.ctx pid dst).id = UInt16.ofNat pid :=
    fun mem => ntohs_htons mem.host _
  simp only [print_ping_banner, hid]
  rfl

-- What malloc() has left in the buffers and, without a timestamp in the payload, the byte order
-- of the machine make no difference to anything that a run does: to the packets, what is taken
-- in, the times and the tests, and to what the process has printed in the end.
theorem runs_forget_memory (hsize : (ctx_size_buffers flags).1 ≤ 65507)
    (horder : mem'.host = mem.host ∨ NoTimestamp flags) {N : Type} {net : Network N}
    {monotone : Prop} {n : N} {q : Ping N Unit} {t : State N}
    (h : Reach (FtPing.world net monotone) (ping_run mem.host, .initial (mem.ctx pid dst) n) (q, t)) :
    ∃ q' t', Reach (FtPing.world net monotone)
        (ping_run mem'.host, .initial (mem'.ctx pid dst) n) (q', t') ∧
      t'.log = t.log ∧ t'.sched = t.sched ∧ t'.stats = t.stats ∧ t'.net = t.net ∧
      (q = .ret () → q' = .ret ()) ∧
      ∀ deeds, record mem'.host (mem'.ctx pid dst) deeds t' =
        record mem.host (mem.ctx pid dst) deeds t := by
  have htwin := ctx_twin mem mem' pid dst n hsize horder
  have hmatched : Matched net monotone mem.host mem'.host (ping_run mem.host)
      (ping_run mem'.host) := matched_ping_run
  obtain ⟨q', t', hr', ht, hret⟩ := hmatched _ _ htwin q t h
  obtain ⟨id, pkt, recvbuf, rfl, -, -⟩ := ht
  refine ⟨q', _, hr', rfl, rfl, rfl, rfl, fun hq => ?_, fun deeds => ?_⟩
  · obtain ⟨b, rfl, -⟩ := hret () hq
    rfl
  · rw [record, record, banner_any mem mem']
    rfl

end Memory

-- `ping -s 8`, on a little-endian machine whose memory reads zero and on a big-endian one where
-- it does not.
def eight_bytes : Flags := { Flags.zero with has_packet_size := true, packet_size := 8 }

def fresh_memory : Memory eight_bytes := ⟨.little, .zeroed _, .zeroed _⟩

def used_memory : Memory eight_bytes :=
  ⟨.big, (Buffer.zeroed _).store 0 [1, 2, 3, 4], (Buffer.zeroed _).store 0 [5, 6, 7, 8]⟩

theorem runs_forget_memory_eight_bytes :
    ∃ t t', Reach (FtPing.world (Network.any Nat) False)
        (ping_run .little, .initial (fresh_memory.ctx 0x3412 [127, 0, 0, 1]) 0) (.ret (), t) ∧
      Reach (FtPing.world (Network.any Nat) False)
        (ping_run .big, .initial (used_memory.ctx 0x3412 [127, 0, 0, 1]) 0) (.ret (), t') ∧
      t.stats.n_recv = 1 ∧ t'.log = t.log ∧
      (record .big (used_memory.ctx 0x3412 [127, 0, 0, 1]) [] t').stdout =
        (record .little (fresh_memory.ctx 0x3412 [127, 0, 0, 1]) [] t).stdout := by
  have hrun : (exec (guide one_reply) 3 (ping_run .little)
      ((), .initial (fresh_memory.ctx 0x3412 [127, 0, 0, 1]) 0)).map
        (fun r => r.2.2.stats.n_recv) = some 1 := by
    decide +kernel
  obtain ⟨⟨value, k, t⟩, hexec, hrecv⟩ := Option.map_eq_some_iff.mp hrun
  have hreach := guided_reach (exec_reach (guide_plays one_reply) 3 _ _ _ hexec)
  obtain ⟨q', t', hreach', hlog, -, -, -, hret, hrecord⟩ := runs_forget_memory fresh_memory
    used_memory 0x3412 [127, 0, 0, 1] (by decide) (Or.inr (Or.inr (by decide))) hreach
  rw [hret rfl] at hreach'
  exact ⟨t, t', hreach, hreach', hrecv, hlog, congrArg Ledger.stdout (hrecord [])⟩

end FtPing.Process
