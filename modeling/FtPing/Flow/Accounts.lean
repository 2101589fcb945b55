import FtPing.Flow.Emission
import FtPing.Net.Shared

namespace FtPing

open Bytes History Interaction

-- By what the replies to a run are known.
def Ctx.port (ctx : Ctx) : Port := ⟨ctx.id, ctx.recvbuf_len⟩

section Probe

variable (host : Endian) (ctx : Ctx)

theorem probe_carries (k sent : Nat) (port : Port) :
    Wire.carries host port (probe host ctx k sent) = decide (ctx.id = port.id) := by
  have hid : word host (probe host ctx k sent) IcmpHdr.id = ctx.id := by
    rw [probe, echo_request]
    obtain ⟨c, d, hchecksum, -⟩ := load16_store16 host
      (ft_checksum host (echo_request host ctx (UInt16.ofNat k) (timespec sent) 0))
    obtain ⟨i, j, hstored, hloaded⟩ := load16_store16 host ctx.id
    rw [hchecksum, hstored]
    exact hloaded
  rw [Wire.carries, hid]

-- There is room for its reply behind any IP header.
theorem probe_sound (hsized : ctx.sized) (k sent : Nat) :
    Wire.Sound ctx.port (probe host ctx k sent) := by
  have hlength := echo_request_length host (UInt16.ofNat k) (timespec sent) ctx
    (ft_checksum host (echo_request host ctx (UInt16.ofNat k) (timespec sent) 0))
  refine ⟨?_, rfl, ?_⟩
  · rw [probe, hlength]
    exact Nat.le_add_right _ _
  · rw [probe, hlength, Ctx.port, hsized.recvbuf_len_eq]
    simp only [IcmpHdr.size, PING_RECVBUF_SLACK, PING_RECVBUF_MIN]
    omega

end Probe

namespace Flow

variable {ι : Type} {host : Endian} {ports : ι → Port} {i : ι} {monotone : Prop}
  {s t u : State (Wire ι)} {p q : Point}

theorem Emitted.carries {ctx : Ctx} {log : List Entry} (h : Emitted host ctx log) {buf : List UInt8}
    (hbuf : buf ∈ wire log) (port : Port) :
    Wire.carries host port buf = decide (ctx.id = port.id) := by
  obtain ⟨k, hk⟩ := nth_of_mem hbuf
  obtain ⟨sent, -, rfl⟩ := h k buf hk
  exact probe_carries host ctx k sent port

-- What has gone out has come in, is under way or is lost.
structure Settled (host : Endian) (port : Port) (i : ι) (t : State (Wire ι)) : Prop where
  fitting : t.net.Fitting host port
  balance : tally (answers host port.id port.len) t.log + t.net.owed host port i =
    tally isSent t.log

theorem Settled.same {port : Port} (h : Settled host port i t) (hnet : u.net = t.net)
    (hlog : u.log = t.log ∨ ∃ entry, u.log = entry :: t.log ∧ isSent entry.event = false ∧
      answers host port.id port.len entry.event = false) : Settled host port i u := by
  refine ⟨by rw [hnet]; exact h.fitting, ?_⟩
  rw [hnet]
  rcases hlog with hlog | ⟨entry, hlog, hsent, hnone⟩
  · rw [hlog]
    exact h.balance
  · rw [hlog, tally_miss hsent, tally_miss hnone]
    exact h.balance

theorem Settled.transmit {c : Caller} {buf : List UInt8} {ctx : Ctx}
    (h : Settled host ctx.port i t) (hsized : ctx.sized)
    (hready : Emission host ctx (.ready c buf) t) :
    Settled host ctx.port i
      { t.record (.sent buf) with net := { t.net with probes := buf :: t.net.probes } } := by
  obtain ⟨k, sent, -, -, rfl⟩ := hready.assembled
  have hcarries : Wire.carries host ctx.port (probe host ctx k sent) = true := by
    rw [probe_carries]
    exact decide_eq_true rfl
  refine ⟨fun other hother hmine => ?_, ?_⟩
  · rcases List.mem_cons.mp hother with rfl | hother
    · exact probe_sound host ctx hsized k sent
    · exact h.fitting other hother hmine
  · change tally _ (⟨t.now, t.stop, .sent _⟩ :: t.log) + _ =
      tally isSent (⟨t.now, t.stop, .sent _⟩ :: t.log)
    rw [tally_miss rfl, tally_hit rfl, ← h.balance]
    simp only [Wire.owed, Wire.pending, List.countP_cons, hcarries, ite_true]
    omega

variable [DecidableEq ι]

theorem Settled.receive {port : Port} {d : Datagram} {n : Wire ι} (h : Settled host port i t)
    (hdeliver : Wire.Deliver i t.net d n) :
    Settled host port i { (t.receive t.ctx.recvbuf_len d).record (.received d) with net := n } := by
  obtain ⟨howed, hfitting⟩ := hdeliver.owed host h.fitting
  have hcount : tally (answers host port.id port.len) (⟨t.now, t.stop, .received d⟩ :: t.log) =
      tally (answers host port.id port.len) t.log + if Wire.mine host port d then 1 else 0 :=
    tally_cons _ _ _
  have hsent : tally isSent (⟨t.now, t.stop, .received d⟩ :: t.log) = tally isSent t.log :=
    tally_miss rfl t.log
  have hbalance := h.balance
  refine ⟨hfitting, ?_⟩
  change tally (answers host port.id port.len) (⟨t.now, t.stop, .received d⟩ :: t.log) +
    n.owed host port i = tally isSent (⟨t.now, t.stop, .received d⟩ :: t.log)
  omega

end Flow

end FtPing
