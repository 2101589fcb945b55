import FtPing.Flow.Transcript
import FtPing.Output.Record
import FtPing.Output.Summary

namespace FtPing

open Bytes CLib Numeric

theorem src_length {d : Datagram} (h : d.complete = true) : d.src.length = 4 := by
  have hip := ((complete_iff d).mp h).1
  simp only [IpHdr.size] at hip
  simp only [Datagram.src, Bytes.slice, IpHdr.ip_src, List.length_take, List.length_drop]
  omega

theorem fault_addressed {host : Endian} {flags : Flags} {id : UInt16} {d : Datagram} {line : Line}
    (h : verdict host flags id d = .fault line) : line.addressed := by
  unfold verdict error_line at h
  split_ifs at h with hcomplete hsum htype herror
  · cases h
    exact src_length hcomplete
  · cases h
    exact src_length hcomplete

-- The times of the replies, as a reader sees them.
def Displayed.time : Displayed → Option ℚ
  | .reply _ _ _ _ rtt => some rtt
  | _ => none

namespace Flow

variable {N : Type} {host : Endian} {net : Network N} {monotone : Prop} {s t : State N}
  {q : Point}

-- The reply that is being recorded and shown.
def answering : Point → Option Datagram
  | .timing _ d _ => some d
  | .recorded _ d _ => some d
  | .reporting _ d _ => some d
  | _ => none

theorem Path.answering (h : Path host net monotone .start s q t) {d : Datagram}
    (hd : answering q = some d) : is_reply host s.ctx.id d = true := by
  refine h.invariant (fun p _ => ∀ d, Flow.answering p = some d → is_reply host s.ctx.id d = true)
    nofun (fun p t q u hwalk ht he => ?_) d hd
  cases he with
  | read_receipt before d t hreply =>
      intro d hd
      cases hd
      rw [hwalk.ctx_kept.2.1] at hreply
      exact hreply
  | stamp p now t => cases p <;> nofun
  | _ => first
      | exact ht
      | nofun

-- Every line that a run prints has an address of four bytes, if it has one.
theorem Path.addressed (h : Path host net monotone .start s q t) (hlog : s.log = []) :
    ∀ line ∈ lines t.log, line.addressed := by
  refine h.invariant (fun _ t => ∀ line ∈ lines t.log, line.addressed) (by rw [hlog]; nofun)
    fun p t q u hwalk ht he => ?_
  cases he with
  | env _ _ _ hr =>
      cases hr
      exact ht
  | complain_send c t => exact List.forall_mem_cons.mpr ⟨trivial, ht⟩
  | dot c t _ => exact List.forall_mem_cons.mpr ⟨trivial, ht⟩
  | complain_poll t => exact List.forall_mem_cons.mpr ⟨trivial, ht⟩
  | complain_recv t => exact List.forall_mem_cons.mpr ⟨trivial, ht⟩
  | fault before d line t hverdict =>
      exact List.forall_mem_cons.mpr ⟨fault_addressed hverdict, ht⟩
  | report before d rtt line t hline =>
      refine List.forall_mem_cons.mpr ⟨?_, ht⟩
      obtain ⟨hcomplete, -⟩ := (is_reply_iff host _ d).mp (hwalk.answering (d := d) rfl)
      rcases reply_line_eq_some host hline with rfl | rfl
      · trivial
      · exact src_length hcomplete
  | _ => exact ht

end Flow

section Closing

variable {rtts : List ℚ} {stats : Stats} (h : Summarises rtts stats)

include h

end Closing

end FtPing
