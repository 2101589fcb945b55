import FtPing.Flow.Display
import FtPing.Net.Lines

namespace FtPing

open Bytes Interaction

def Verdict.line : Verdict → Option Line
  | .fault line => some line
  | _ => none

section Transcript

variable (host : Endian) (flags : Flags) (id : UInt16) (len : Nat)

def sent_line : Option Line := if flags.flood ∧ ¬ flags.quiet then some .flood_send else none

-- The line that goes with an action. That of a reply is about the datagram received last.
def announced (event : Event) (earlier : List Entry) : Option Line :=
  match event with
  | .countedSent => sent_line flags
  | .sendFailed _ => some (.perror "Send")
  | .polled _ (.failed errno) => if errno = .EINTR then none else some (.perror "poll")
  | .receiveFailed errno => complaint errno
  | .received d => (verdict host flags id (d.take len)).line
  | .entered (.report_reply _ _ rtt) =>
      reply_line host flags (((datagrams earlier).headD []).take len) rtt
  | _ => none

def transcript : List Entry → List Line
  | [] => []
  | entry :: earlier =>
      (announced host flags id len entry.event earlier).toList ++ transcript earlier

theorem datagrams_actions (log : List Entry) : datagrams (actions log) = datagrams log := by
  induction log with
  | nil => rfl
  | cons entry log ih =>
      cases hevent : isPrinted entry.event with
      | false =>
          rw [actions_cons hevent, datagrams, datagrams, List.filterMap_cons, List.filterMap_cons]
          rw [datagrams, datagrams] at ih
          rw [ih]
      | true =>
          obtain ⟨now, stop, event⟩ := entry
          cases event with
          | printed line => exact ih
          | _ => cases hevent

theorem announced_actions (event : Event) (log : List Entry) :
    announced host flags id len event (actions log) = announced host flags id len event log := by
  simp only [announced, datagrams_actions]

variable {host flags id len} in
theorem transcript_announced {entry : Entry} {log : List Entry} {line : Option Line}
    (hline : announced host flags id len entry.event log = line)
    (hlog : transcript host flags id len log = lines log) :
    transcript host flags id len (entry :: log) = line.toList ++ lines log := by
  rw [transcript, hline, hlog]

-- The output is determined by the actions alone.
theorem transcript_actions (log : List Entry) :
    transcript host flags id len (actions log) = transcript host flags id len log := by
  induction log with
  | nil => rfl
  | cons entry log ih =>
      obtain ⟨now, stop, event⟩ := entry
      cases hevent : isPrinted event with
      | false => rw [actions_cons hevent, transcript, transcript, announced_actions, ih]
      | true =>
          cases event with
          | printed line => exact ih
          | _ => cases hevent

end Transcript

namespace Flow

-- The line that is about to be printed, and the datagram at hand.
def pending (host : Endian) (flags : Flags) (id : UInt16) : Point → Option Line
  | .refused _ => some (.perror "Send")
  | .counted _ => sent_line flags
  | .pollFailed => some (.perror "poll")
  | .recvFailed => some (.perror "recvfrom")
  | .judging _ d => (verdict host flags id d).line
  | .reporting _ d rtt => reply_line host flags d rtt
  | _ => none

def Point.datagram : Point → Option Datagram
  | .judging _ d => some d
  | .timing _ d _ => some d
  | .recorded _ d _ => some d
  | .reporting _ d _ => some d
  | _ => none

variable {N : Type} {host : Endian} {net : Network N} {monotone : Prop} {s t : State N}
  {q : Point}

theorem Path.at_hand (h : Path host net monotone .start s q t) {d : Datagram}
    (hd : q.datagram = some d) :
    ((datagrams t.log).headD []).take s.ctx.recvbuf_len = d := by
  refine h.invariant (fun p t => ∀ d, p.datagram = some d →
    ((datagrams t.log).headD []).take s.ctx.recvbuf_len = d) nofun
    (fun p t q u hwalk ht he => ?_) d hd
  cases he with
  | env _ _ _ hr =>
      cases hr
      exact ht
  | receive before whole t n hdeliver =>
      intro d hd
      cases hd
      rw [hwalk.ctx_kept.2.2]
      rfl
  | stamp p now t => cases p <;> nofun
  | _ => first
      | exact ht
      | nofun

-- What is printed is what the actions call for, but for the line that is about to be.
theorem Path.transcript (h : Path host net monotone .start s q t) (hlog : s.log = []) :
    FtPing.transcript host s.ctx.flags s.ctx.id s.ctx.recvbuf_len t.log =
      (pending host s.ctx.flags s.ctx.id q).toList ++ lines t.log := by
  refine h.invariant (fun p t => FtPing.transcript host s.ctx.flags s.ctx.id s.ctx.recvbuf_len
    t.log = (pending host s.ctx.flags s.ctx.id p).toList ++ lines t.log) (by rw [hlog]; rfl)
    fun p t q u hwalk ht he => ?_
  obtain ⟨hflags, hid, hlen⟩ := hwalk.ctx_kept
  cases he with
  | env _ _ _ hr =>
      cases hr
      exact ht
  | dot c t hdot =>
      rw [hflags] at hdot
      rw [pending, sent_line, if_pos hdot] at ht
      exact ht
  | no_dot c t hdot =>
      rw [hflags] at hdot
      rw [pending, sent_line, if_neg hdot] at ht
      exact ht
  | stamp p now t => cases p <;> exact ht
  | poll_failed timeout errno t hother => exact transcript_announced (if_neg hother) ht
  | recv_dry before errno t hdry => exact transcript_announced (if_pos hdry) ht
  | recv_failed before errno t hfailed =>
      exact transcript_announced (if_neg (by rw [hfailed]; exact Bool.false_ne_true)) ht
  | receive before d t n hdeliver =>
      rw [hlen]
      exact congrArg (_ ++ ·) ht
  | ignore before d t hverdict =>
      rw [hflags, hid] at hverdict
      rw [pending, hverdict] at ht
      exact ht
  | fault before d line t hverdict =>
      rw [hflags, hid] at hverdict
      rw [pending, hverdict] at ht
      exact ht
  | read_receipt before d t hreply =>
      rw [hid] at hreply
      rw [pending, verdict_of_is_reply host hreply] at ht
      exact ht
  | enter_report before d rtt t =>
      have hd := hwalk.at_hand (d := d) rfl
      exact transcript_announced (congrArg (reply_line host s.ctx.flags · rtt) hd) ht
  | report before d rtt line t hline =>
      rw [hflags] at hline
      rw [pending, hline] at ht
      exact ht
  | no_report before d rtt t hline =>
      rw [hflags] at hline
      rw [pending, hline] at ht
      exact ht
  | _ => first
      | exact ht
      | exact congrArg (_ ++ ·) ht

end Flow

-- The output of ping_run() is a function of what it does.
theorem ping_run_transcript {N : Type} {host : Endian} {net : Network N} {monotone : Prop}
    {ctx : Ctx} {n : N} {q : Ping N Unit} {t : State N}
    (h : Reach (world net monotone) (ping_run host, .initial ctx n) (q, t)) :
    ∃ due : Option Line,
      transcript host ctx.flags ctx.id ctx.recvbuf_len (actions t.log) =
        due.toList ++ lines t.log ∧ (q = .ret () → due = none) := by
  rw [transcript_actions]
  by_cases hret : q = .ret ()
  · subst hret
    have hpath := (Flow.ping_run_follows .here (.ret ()) t h).2
    exact ⟨none, hpath.transcript rfl, fun _ => rfl⟩
  · obtain ⟨p, hpath⟩ := Flow.ping_run_path host net monotone (.initial ctx n) t q h
    exact ⟨_, hpath.transcript rfl, fun h => absurd h hret⟩

end FtPing
