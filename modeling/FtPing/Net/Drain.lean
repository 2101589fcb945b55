import FtPing.Net.Judgement

namespace FtPing

open Bytes Interaction

variable (host : Endian)

-- The datagrams that the log has as received, the latest first.
def datagrams (log : List Entry) : List Datagram :=
  log.filterMap fun entry =>
    match entry.event with
    | .received datagram => some datagram
    | _ => none

-- The state once recvfrom() has delivered a datagram.
def delivered (s : State Unit) (datagram : Datagram) : State Unit :=
  (s.receive s.ctx.recvbuf_len datagram).record (.received datagram)

def printed (s : State Unit) : Option Line → State Unit
  | none => s
  | some line => s.record (.printed line)

-- The state after record_rtt() and report_reply() for the reply `d`, received at `now`.
def recorded (s : State Unit) (d : Datagram) (now : Nat) : State Unit :=
  let timed := { s with now := now }.record (.clock .record_rtt)
  let rtt := elapsed_ms (s.ctx.send_ts (slot (d.sequence host))) (timespec now)
  let counted := { timed.record (.countedReply rtt) with stats := fold_rtt s.stats rtt }
  let reported := counted.record (.entered (.report_reply d.message.length (d.sequence host) rtt))
  printed reported (reply_line host s.ctx.flags d rtt)

-- A round of ping_receive() on a datagram. Only a reply takes a reading of the clock.
def digest (clock : List Nat) (s : State Unit) (datagram : Datagram) :
    Option (List Nat × State Unit) :=
  let d := datagram.take s.ctx.recvbuf_len
  match verdict host s.ctx.flags s.ctx.id d, clock with
  | .ignored, clock => some (clock, delivered s datagram)
  | .fault line, clock => some (clock, (delivered s datagram).record (.printed line))
  | .reply _ _, now :: clock => some (clock, recorded host (delivered s datagram) d now)
  | .reply _ _, [] => none

def refused (s : State Unit) (errno : Errno) : State Unit :=
  printed (s.record (.receiveFailed errno))
    (if drained errno then none else some (.perror "recvfrom"))

def drain : List Datagram → List Nat → State Unit → Option (List Nat × State Unit)
  | [], clock, s => some (clock, s)
  | datagram :: queue, clock, s =>
      (digest host clock s datagram).bind fun r => drain queue r.1 r.2

theorem delivered_holds (s : State Unit) (datagram : Datagram) :
    (delivered s datagram).holds (datagram.take s.ctx.recvbuf_len) :=
  receive_holds s datagram

section Exec

variable {fuel : Nat} {sends : List (Option Errno)} {polls : List (Bool × PollResult)}
  {recvs : List (Except Errno Datagram)}

theorem exec_perform {κ σ E : Type} {Ans : E → Type} (h : Script κ σ E Ans) (e : E)
    (c : κ × σ) : exec h fuel (Prog.perform e) c = h e c := by
  simp [Prog.perform]

theorem exec_print_option (line : Option Line) (k : Answers) (s : State Unit) :
    exec (play false) fuel (print_option line) (k, s) = some ((), k, printed s line) := by
  cases line <;> rfl

theorem exec_settle (s : State Unit) (d : Datagram) (clock : List Nat) (hd : s.holds d)
    (ctx : Ctx) (hflags : ctx.flags = s.ctx.flags) (hring : ctx.send_ts = s.ctx.send_ts) :
    exec (play false) fuel (settle ctx d.length (verdict host ctx.flags ctx.id d))
        (⟨clock, sends, polls, recvs⟩, s) =
      match verdict host ctx.flags ctx.id d, clock with
      | .ignored, clock => some (.inl (), ⟨clock, sends, polls, recvs⟩, s)
      | .fault line, clock =>
          some (.inl (), ⟨clock, sends, polls, recvs⟩, s.record (.printed line))
      | .reply _ _, now :: clock =>
          some (.inl (), ⟨clock, sends, polls, recvs⟩, recorded host s d now)
      | .reply _ _, [] => none := by
  cases hverdict : verdict host ctx.flags ctx.id d with
  | ignored => rfl
  | fault line => rfl
  | reply ihl seq =>
      obtain ⟨hreply, rfl, rfl⟩ := verdict_eq_reply host hverdict
      have hcomplete := ((is_reply_iff host ctx.id d).mp hreply).1
      have hlength : d.message.length = d.length - d.ihl := List.length_drop
      cases clock with
      | nil => rfl
      | cons now clock =>
          have hline : ∀ (k : Answers) (t : State Unit) (rtt : ℚ), t.holds d →
              exec (play false) fuel
                (report_line ctx 0 (d.length - d.ihl) (d.sequence host) rtt) (k, t) =
                some (reply_line host ctx.flags d rtt, k, t) := fun k t rtt ht =>
            exec_of_within ht (within_report_line host ctx d hcomplete rtt)
          simp only [settle, record_rtt, report_reply_eq, clock_gettime, count_reply, entered,
            Prog.bind_eq, Prog.pure_eq, exec_bind, exec_perform, exec_ret, play,
            Bool.false_eq_true, false_and, ite_false, Option.bind_some]
          rw [hline]
          · simp only [Option.bind_some, exec_print_option, recorded, hring, hflags, hlength]
            rfl
          · exact hd

theorem exec_receive_round (s : State Unit) (datagram : Datagram) (clock : List Nat) :
    exec (play false) fuel (receive_round host) (⟨clock, sends, polls, .ok datagram :: recvs⟩, s) =
      (digest host clock s datagram).map fun r => (.inl (), ⟨r.1, sends, polls, recvs⟩, r.2) := by
  have hlength : min datagram.length s.ctx.recvbuf_len =
      (datagram.take s.ctx.recvbuf_len).length := by
    rw [List.length_take, Nat.min_comm]
  have hholds := delivered_holds s datagram
  have hjudge := @exec_of_within _ false fuel ⟨clock, sends, polls, recvs⟩ _ _ _ _ hholds
    (within_judge host s.ctx _)
  rw [receive_round_eq]
  simp only [Prog.bind_eq, Prog.get, Prog.act_bind, Prog.ret_bind, exec_act, exec_bind, recvfrom,
    exec_perform, play, Option.bind_some, hlength]
  rw [delivered] at hjudge
  rw [hjudge, Option.bind_some]
  refine (exec_settle host (delivered s datagram) _ clock hholds s.ctx rfl rfl).trans ?_
  unfold digest
  dsimp only
  split <;> rfl

theorem exec_receive_error (s : State Unit) (errno : Errno) (clock : List Nat) :
    exec (play false) fuel (receive_round host) (⟨clock, sends, polls, .error errno :: recvs⟩, s) =
      some (.inr (if drained errno then 0 else -1), ⟨clock, sends, polls, recvs⟩,
        refused s errno) := by
  unfold receive_round classify_recv_error
  cases errno <;> rfl

variable (fuel sends polls recvs)

-- The whole of ping_receive() on a queue.
theorem exec_ping_receive (queue : List Datagram) (errno : Errno) (clock : List Nat)
    (s : State Unit) (hfuel : queue.length < fuel) :
    exec (play false) fuel (ping_receive host)
        (⟨clock, sends, polls, queue.map .ok ++ .error errno :: recvs⟩, s) =
      (drain host queue clock s).map fun r =>
        (if drained errno then 0 else -1, ⟨r.1, sends, polls, recvs⟩, refused r.2 errno) := by
  have hrounds : ∀ (rest : List Datagram) (clock : List Nat) (s : State Unit) (n : Nat),
      rest.length < n →
      rounds n (fun _ => exec (play false) fuel (receive_round host)) ()
        (⟨clock, sends, polls, rest.map .ok ++ .error errno :: recvs⟩, s) =
      (drain host rest clock s).map fun r =>
        (if drained errno then 0 else -1, ⟨r.1, sends, polls, recvs⟩, refused r.2 errno) := by
    intro rest
    induction rest with
    | nil =>
        intro clock s n hn
        obtain ⟨m, rfl⟩ := Nat.exists_eq_add_of_lt hn
        rw [show [].length + m + 1 = m + 1 by simp, rounds, List.map_nil, List.nil_append,
          exec_receive_error]
        rfl
    | cons datagram rest ih =>
        intro clock s n hn
        obtain ⟨m, rfl⟩ := Nat.exists_eq_add_of_lt hn
        rw [rounds, List.map_cons, List.cons_append, exec_receive_round, drain]
        cases hd : digest host clock s datagram with
        | none => rfl
        | some r => exact ih r.1 r.2 _ (by simp only [List.length_cons]; omega)
  rw [ping_receive, Prog.iterate, exec_loop, hrounds queue clock s fuel hfuel]
  cases drain host queue clock s <;> rfl

end Exec

end FtPing
