import FtPing.Environment
import FtPing.Flow.Twin

namespace FtPing

open Bytes Interaction

variable {N : Type} {net : Network N} {monotone : Prop} {host host' : Endian} {s s' t : State N}

-- The schedule, the counters and the history are the same in both.
theorem Twin.schedule (h : Twin host host' s s') (update : Sched → Sched) :
    Twin host host' (s.setSched (update s.sched)) (s'.setSched (update s'.sched)) := by
  obtain ⟨id, pkt, recvbuf, rfl, hid, hmovable⟩ := h
  exact ⟨id, pkt, recvbuf, rfl, hid, hmovable⟩

section Loop

theorem matched_sched_init : Matched net monotone host host' sched_init sched_init := by
  refine matched_get fun s s' hs => ?_
  obtain ⟨id, pkt, recvbuf, rfl, -, -⟩ := hs
  refine matched_ite (matched_bind (matched_perform (by trivial)) fun now => ?_) ?_
  · refine matched_modify fun t t' ht => ?_
    obtain ⟨id, pkt, recvbuf, rfl, hid, hmovable⟩ := ht
    exact ⟨id, pkt, recvbuf, rfl, hid, hmovable⟩
  · refine matched_modify fun t t' ht => ?_
    obtain ⟨id, pkt, recvbuf, rfl, hid, hmovable⟩ := ht
    exact ⟨id, pkt, recvbuf, rfl, hid, hmovable⟩

theorem matched_next_seq : Matched net monotone host host' next_seq next_seq := by
  intro s s' hs
  refine coupled_act (fun t t' _ (ht : Knows host host' (fun _ _ => True) t t') hr => ht.stable hr)
    (fun _ _ ht => ht.1) hs.knows fun t t' ht => ?_
  obtain ⟨id, pkt, recvbuf, rfl, hid, hmovable⟩ := ht.1
  exact matched_ret _ _ _ ⟨id, pkt, recvbuf, rfl, hid, hmovable⟩

theorem matched_stamp (site : ClockSite) :
    Matched net monotone host host' (stamp_last_send site) (stamp_last_send site) :=
  matched_bind (matched_perform (by trivial)) fun now => matched_modify fun s s' hs =>
    hs.schedule fun sched => { sched with last_send := now_ms now }

theorem matched_send_preload :
    Matched net monotone host host' (send_preload host) (send_preload host') := by
  refine matched_loop _ (fun i => matched_get fun s s' hs => ?_) fun _ => matched_ret ()
  obtain ⟨id, pkt, recvbuf, rfl, -, -⟩ := hs
  refine matched_ite (matched_bind (matched_perform (by trivial)) fun stop => ?_) (matched_ret _)
  refine matched_ite (matched_ret _) (matched_bind matched_next_seq fun seq => ?_)
  refine matched_bind (matched_send_one seq _) fun rc => matched_ite ?_ (matched_ret _)
  exact matched_bind (matched_perform (by trivial)) fun _ => matched_ret _

theorem matched_send_first :
    Matched net monotone host host' (send_first host) (send_first host') := by
  refine matched_bind (matched_perform (by trivial)) fun stop => matched_ite (matched_ret ()) ?_
  refine matched_bind matched_next_seq fun seq => matched_bind (matched_send_one seq _) fun rc => ?_
  exact matched_ite (matched_perform (by trivial)) (matched_ret ())

theorem matched_send_if_due :
    Matched net monotone host host' (send_if_due host) (send_if_due host') := by
  refine matched_bind (matched_perform (by trivial)) fun reading => matched_get fun s s' hs => ?_
  obtain ⟨id, pkt, recvbuf, rfl, -, -⟩ := hs
  refine matched_ite (matched_ret _) (matched_ite (matched_ret _) ?_)
  refine matched_bind matched_next_seq fun seq => matched_bind (matched_send_one seq _) fun rc => ?_
  exact matched_ite (matched_ret _) (matched_bind (matched_stamp _) fun _ => matched_ret _)

theorem matched_send_per_reply (replies : Int) :
    Matched net monotone host host' (send_per_reply host replies)
      (send_per_reply host' replies) := by
  refine matched_loop _ (fun left => matched_ite ?_ (matched_ret _)) fun _ => matched_ret _
  refine matched_bind (matched_perform (by trivial)) fun stop => matched_ite (matched_ret _) ?_
  refine matched_bind (matched_perform (by trivial)) fun reading => matched_get fun s s' hs => ?_
  obtain ⟨id, pkt, recvbuf, rfl, -, -⟩ := hs
  refine matched_ite (matched_ret _) (matched_bind matched_next_seq fun seq => ?_)
  refine matched_bind (matched_send_one seq _) fun rc => matched_ite (matched_ret _) ?_
  exact matched_bind (matched_stamp _) fun _ => matched_ret _

theorem matched_loop_readable :
    Matched net monotone host host' (loop_readable host) (loop_readable host') := by
  refine matched_get fun before before' hbefore => ?_
  refine matched_bind matched_ping_receive fun rc => matched_ite (matched_ret _) ?_
  refine matched_get fun s s' hs => ?_
  obtain ⟨id, pkt, recvbuf, rfl, -, -⟩ := hs
  obtain ⟨-, -, -, rfl, -, -⟩ := hbefore
  refine matched_ite (matched_ret _) (matched_ite ?_ matched_send_if_due)
  refine matched_bind (matched_send_per_reply _) fun rc => ?_
  exact matched_ite (matched_ret _) matched_send_if_due

theorem matched_loop_once :
    Matched net monotone host host' (loop_once host) (loop_once host') := by
  refine matched_bind (matched_perform (by trivial)) fun reading => matched_get fun s s' hs => ?_
  obtain ⟨id, pkt, recvbuf, rfl, -, -⟩ := hs
  refine matched_ite (matched_ret _) (matched_bind (matched_perform (by trivial)) fun result => ?_)
  cases result with
  | failed errno =>
      refine matched_ite (matched_ret _) ?_
      exact matched_bind (matched_perform (by trivial)) fun _ => matched_ret _
  | readable => exact matched_loop_readable
  | timedOut => exact matched_send_if_due

theorem matched_ping_run : Matched net monotone host host' (ping_run host) (ping_run host') := by
  refine matched_bind (matched_modify fun s s' hs => ?_) fun _ => ?_
  · obtain ⟨id, pkt, recvbuf, rfl, hid, hmovable⟩ := hs
    exact ⟨id, pkt, recvbuf, rfl, hid, hmovable⟩
  · refine matched_bind matched_sched_init fun _ => matched_bind matched_send_preload fun _ => ?_
    refine matched_bind matched_send_first fun _ => matched_bind (matched_stamp _) fun _ => ?_
    refine matched_loop () (fun _ => matched_bind (matched_perform (by trivial)) fun stop => ?_)
      fun _ => matched_ret ()
    refine matched_ite (matched_ret _) (matched_bind matched_loop_once fun rc => ?_)
    exact matched_ite (matched_ret _) (matched_ret _)

end Loop

end FtPing
