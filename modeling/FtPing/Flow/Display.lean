import FtPing.Core.Context
import FtPing.Core.Loop
import FtPing.Environment
import FtPing.Flow.Balance
import FtPing.Flow.Loop
import FtPing.Net.Replies

namespace FtPing

open Bytes Interaction

-- The options -q, -Q and -v say what is shown.
def Ctx.display (ctx : Ctx) (quiet quiet_errors verbose : Bool) : Ctx :=
  { ctx with
    flags := { ctx.flags with
      quiet := quiet
      quiet_errors := quiet_errors
      verbose := verbose } }

def isPrinted : Event → Bool
  | .printed _ => true
  | _ => false

-- What was done, with the answers to it, apart from the output.
def actions (log : List Entry) : List Entry := log.filter fun entry => !isPrinted entry.event

theorem actions_cons {entry : Entry} (h : isPrinted entry.event = false) (log : List Entry) :
    actions (entry :: log) = entry :: actions log := by
  rw [actions, List.filter_cons_of_pos (by rw [h]; rfl)]
  rfl

theorem actions_congr {log log' : List Entry} (h : actions log = actions log') (entry : Entry) :
    actions (entry :: log) = actions (entry :: log') := by
  cases hevent : isPrinted entry.event with
  | false => rw [actions_cons hevent, actions_cons hevent, h]
  | true =>
      rw [actions, actions, List.filter_cons_of_neg (by simp [hevent]),
        List.filter_cons_of_neg (by simp [hevent])]
      exact h

-- Two states that differ in nothing else.
def Shown {N : Type} (s s' : State N) : Prop :=
  ∃ quiet quiet_errors verbose log,
    s' = { s with ctx := s.ctx.display quiet quiet_errors verbose, log := log } ∧
      actions log = actions s.log

-- The calls that only serve the display: output, and looking at the received datagram.
def showing : Sys → Prop
  | .print _ => True
  | .load _ _ => True
  | _ => False

section Programs

variable {N : Type} (host : Endian)

-- Two programs that differ in what they show.
abbrev Indifferent {α : Type} (p p' : Ping N α) : Prop := Agree Shown showing p p'

section Rules

variable {α β : Type}

theorem indifferent_perform (e : Sys) :
    Indifferent (Prog.perform e : Ping N (Ans e)) (Prog.perform e) :=
  .call e fun a => .ret a

theorem indifferent_get {f f' : State N → Ping N α}
    (h : ∀ s s', Shown s s' → Indifferent (f s) (f' s')) :
    Indifferent (Prog.get.bind f) (Prog.get.bind f') :=
  .act (fun _ _ hs => hs) h

theorem indifferent_modify {update : State N → State N}
    (h : ∀ s s', Shown s s' → Shown (update s) (update s')) :
    Indifferent (Prog.modify update : Ping N Unit) (Prog.modify update) :=
  .act h fun _ _ _ => .ret ()

theorem indifferent_ite {c : Prop} [Decidable c] {p p' q q' : Ping N α}
    (hp : Indifferent p p') (hq : Indifferent q q') :
    Indifferent (if c then p else q) (if c then p' else q') := by
  split_ifs
  · exact hp
  · exact hq

theorem mute_ite {c : Prop} [Decidable c] {value : α} {p q : Ping N α}
    (hp : Mute showing value p) (hq : Mute showing value q) :
    Mute showing value (if c then p else q) := by
  split_ifs
  · exact hp
  · exact hq

end Rules

theorem Shown.same {s s' : State N} (h : Shown s s') :
    actions s'.log = actions s.log ∧ s'.stats = s.stats ∧ s'.net = s.net := by
  obtain ⟨quiet, quiet_errors, verbose, log, rfl, hlog⟩ := h
  exact ⟨hlog, rfl, rfl⟩

theorem Shown.onCtx {s s' : State N} (h : Shown s s') {write : Ctx → Ctx}
    (hwrite : ∀ ctx quiet quiet_errors verbose, write (ctx.display quiet quiet_errors verbose) =
      (write ctx).display quiet quiet_errors verbose) :
    Shown (s.onCtx write) (s'.onCtx write) := by
  obtain ⟨quiet, quiet_errors, verbose, log, rfl, hlog⟩ := h
  refine ⟨quiet, quiet_errors, verbose, log, ?_, hlog⟩
  simp only [State.onCtx, hwrite]

section Payload

variable (seq : UInt16) (ctx : Ctx) (quiet quiet_errors verbose : Bool)

theorem fill_default_display :
    fill_default host seq (ctx.display quiet quiet_errors verbose) =
      (fill_default host seq ctx).display quiet quiet_errors verbose := by
  have hsize : (ctx.display quiet quiet_errors verbose).payload_len = ctx.payload_len := rfl
  by_cases hlong : Timespec.size ≤ ctx.payload_len
  · rw [fill_default, fill_default, if_pos (hlong.trans_eq hsize.symm), if_pos hlong]
    rfl
  · rw [fill_default, fill_default, if_neg (fun h => hlong (h.trans_eq hsize)), if_neg hlong]
    rfl

theorem write_payload_display (now : Timespec) :
    write_payload host seq now (ctx.display quiet quiet_errors verbose) =
      (write_payload host seq now ctx).display quiet quiet_errors verbose := by
  have hflag : (ctx.display quiet quiet_errors verbose).flags.has_pattern =
      ctx.flags.has_pattern := rfl
  by_cases hpattern : ctx.flags.has_pattern = true
  · rw [write_payload, write_payload, if_pos (hflag.trans hpattern), if_pos hpattern]
    rfl
  · rw [write_payload, write_payload, if_neg (fun h => hpattern (hflag.symm.trans h)),
      if_neg hpattern]
    exact fill_default_display host seq (write_timestamp seq now ctx) _ _ _

end Payload

theorem indifferent_fill_payload (seq : UInt16) :
    Indifferent (fill_payload host seq : Ping N Unit) (fill_payload host seq) := by
  refine (indifferent_perform _).bind fun now => indifferent_modify fun s s' hs => ?_
  exact hs.onCtx fun ctx _ _ _ => write_payload_display host seq ctx _ _ _ now

theorem indifferent_send_one (site : SendSite) (seq : UInt16) :
    Indifferent (send_one host site seq : Ping N Int) (send_one host site seq) := by
  refine (indifferent_perform _).bind fun _ => ?_
  refine (indifferent_modify fun s s' hs => hs.onCtx fun _ _ _ _ => rfl).bind fun _ => ?_
  refine (indifferent_fill_payload host seq).bind fun _ => ?_
  refine (indifferent_modify fun s s' hs => hs.onCtx fun _ _ _ _ => rfl).bind fun _ => ?_
  refine indifferent_get fun s s' hs => ?_
  obtain ⟨quiet, quiet_errors, verbose, log, rfl, -⟩ := hs
  refine (indifferent_perform _).bind fun outcome => ?_
  cases outcome with
  | some errno => exact (indifferent_perform _).bind fun _ => .ret _
  | none =>
      refine (indifferent_perform _).bind fun _ => Mute.agree 0 ?_ ?_
      · exact mute_ite (.call trivial fun _ => .ret) .ret
      · exact mute_ite (.call trivial fun _ => .ret) .ret

theorem indifferent_load_uint8 (offset : Nat) :
    Indifferent (load_uint8 offset : Ping N UInt8) (load_uint8 offset) :=
  (indifferent_perform _).bind fun _ => .ret _

theorem indifferent_load_uint16 (offset : Nat) :
    Indifferent (load_uint16 host offset : Ping N UInt16) (load_uint16 host offset) :=
  (indifferent_perform _).bind fun _ => .ret _

theorem indifferent_locate_icmp (n : Nat) :
    Indifferent (locate_icmp n : Ping N (Option Nat)) (locate_icmp n) := by
  refine indifferent_ite (.ret _) ((indifferent_load_uint8 _).bind fun first => ?_)
  exact indifferent_ite (.ret _) (indifferent_ite (.ret _) (.ret _))

theorem indifferent_checksum_ok (reply icmp_bytes : Nat) :
    Indifferent (checksum_ok host reply icmp_bytes : Ping N Bool)
      (checksum_ok host reply icmp_bytes) := by
  refine (indifferent_load_uint16 host _).bind fun claimed => ?_
  refine (indifferent_perform _).bind fun _ => (indifferent_perform _).bind fun message => ?_
  exact (indifferent_perform _).bind fun _ => .ret _

theorem indifferent_quoted_probe (reply ihl n : Nat) :
    Indifferent (quoted_probe reply ihl n : Ping N (Option Nat)) (quoted_probe reply ihl n) := by
  refine indifferent_ite (.ret _) ((indifferent_load_uint8 _).bind fun first => ?_)
  exact indifferent_ite (.ret _) (indifferent_ite (.ret _) (.ret _))

-- Whether the line about an ICMP error is shown makes no difference to anything else.
theorem indifferent_handle_icmp_error (ctx : Ctx) (quiet quiet_errors verbose : Bool)
    (ip ihl reply n : Nat) :
    Indifferent (handle_icmp_error host ctx ip ihl reply n : Ping N Unit)
      (handle_icmp_error host (ctx.display quiet quiet_errors verbose) ip ihl reply n) := by
  refine (indifferent_load_uint8 _).bind fun type => indifferent_ite (.ret ()) ?_
  refine (indifferent_quoted_probe reply ihl n).bind fun inner => ?_
  cases inner with
  | none => exact .ret ()
  | some inner_icmp =>
      refine (indifferent_load_uint16 host _).bind fun id => Mute.agree () ?_ ?_
      all_goals
        refine mute_ite .ret (mute_ite .ret (.call trivial fun src => .call trivial fun _ => ?_))
        exact .call trivial fun _ => .call trivial fun _ => .ret

theorem indifferent_report_reply (ctx : Ctx) (quiet quiet_errors verbose : Bool)
    (ip icmp_bytes : Nat) (seq : UInt16) (rtt : ℚ) :
    Indifferent (report_reply ctx ip icmp_bytes seq rtt : Ping N Unit)
      (report_reply (ctx.display quiet quiet_errors verbose) ip icmp_bytes seq rtt) := by
  refine (indifferent_perform _).bind fun _ => Mute.agree () ?_ ?_
  all_goals
    refine mute_ite .ret (mute_ite (.call trivial fun _ => .ret) (.call trivial fun src => ?_))
    exact .call trivial fun _ => .call trivial fun _ => .ret

theorem indifferent_receive_round :
    Indifferent (receive_round host : Ping N (Unit ⊕ Int)) (receive_round host) := by
  refine indifferent_get fun s s' hs => ?_
  obtain ⟨quiet, quiet_errors, verbose, log, rfl, -⟩ := hs
  refine (indifferent_perform _).bind fun outcome => ?_
  cases outcome with
  | error errno =>
      refine Agree.bind (indifferent_ite (.ret 0) (indifferent_ite (.ret 0) ?_)) fun _ => .ret _
      exact (indifferent_perform _).bind fun _ => .ret _
  | ok n =>
      refine (indifferent_locate_icmp n).bind fun located => ?_
      cases located with
      | none => exact .ret _
      | some ihl =>
          refine (indifferent_checksum_ok host ihl _).bind fun valid => indifferent_ite ?_ ?_
          · exact (indifferent_perform _).bind fun _ => (indifferent_perform _).bind fun _ => .ret _
          · refine (indifferent_load_uint8 _).bind fun type => ?_
            refine (indifferent_load_uint8 _).bind fun code => indifferent_ite ?_ ?_
            · exact (indifferent_handle_icmp_error host s.ctx _ _ _ _ _ _ _).bind fun _ => .ret _
            · refine (indifferent_load_uint16 host _).bind fun id => ?_
              refine indifferent_ite (.ret _) ((indifferent_load_uint16 host _).bind fun seq => ?_)
              refine ((indifferent_perform _).bind fun now =>
                (indifferent_perform _).bind fun _ => .ret _).bind fun rtt => ?_
              exact (indifferent_report_reply s.ctx _ _ _ _ _ _ _).bind fun _ => .ret _

theorem indifferent_ping_receive :
    Indifferent (ping_receive host : Ping N Int) (ping_receive host) :=
  .loop () (fun _ => indifferent_receive_round host) fun _ => .ret _

theorem indifferent_sched_init : Indifferent (sched_init : Ping N Unit) sched_init := by
  refine indifferent_get fun s s' hs => ?_
  obtain ⟨quiet, quiet_errors, verbose, log, rfl, -⟩ := hs
  refine indifferent_ite ((indifferent_perform _).bind fun now => ?_) ?_
  · refine indifferent_modify fun t t' ht => ?_
    obtain ⟨quiet, quiet_errors, verbose, log, rfl, hlog⟩ := ht
    exact ⟨quiet, quiet_errors, verbose, log, rfl, hlog⟩
  · refine indifferent_modify fun t t' ht => ?_
    obtain ⟨quiet, quiet_errors, verbose, log, rfl, hlog⟩ := ht
    exact ⟨quiet, quiet_errors, verbose, log, rfl, hlog⟩

theorem indifferent_next_seq : Indifferent (next_seq : Ping N UInt16) next_seq := by
  refine .act (fun s s' hs => ?_) fun s s' hs => ?_
  · obtain ⟨quiet, quiet_errors, verbose, log, rfl, hlog⟩ := hs
    exact ⟨quiet, quiet_errors, verbose, log, rfl, hlog⟩
  · obtain ⟨quiet, quiet_errors, verbose, log, rfl, -⟩ := hs
    exact .ret _

theorem indifferent_stamp (site : ClockSite) :
    Indifferent (stamp_last_send site : Ping N Unit) (stamp_last_send site) := by
  refine (indifferent_perform _).bind fun now => indifferent_modify fun s s' hs => ?_
  obtain ⟨quiet, quiet_errors, verbose, log, rfl, hlog⟩ := hs
  exact ⟨quiet, quiet_errors, verbose, log, rfl, hlog⟩

theorem indifferent_send_preload :
    Indifferent (send_preload host : Ping N Unit) (send_preload host) := by
  refine .loop _ (fun i => indifferent_get fun s s' hs => ?_) fun _ => .ret ()
  obtain ⟨quiet, quiet_errors, verbose, log, rfl, -⟩ := hs
  refine indifferent_ite ((indifferent_perform _).bind fun stop => ?_) (.ret _)
  refine indifferent_ite (.ret _) (indifferent_next_seq.bind fun seq => ?_)
  refine (indifferent_send_one host _ _).bind fun rc => indifferent_ite ?_ (.ret _)
  exact (indifferent_perform _).bind fun _ => .ret _

theorem indifferent_send_first :
    Indifferent (send_first host : Ping N Unit) (send_first host) := by
  refine (indifferent_perform _).bind fun stop => indifferent_ite (.ret ()) ?_
  refine indifferent_next_seq.bind fun seq => (indifferent_send_one host _ _).bind fun rc => ?_
  exact indifferent_ite (indifferent_perform _) (.ret ())

theorem indifferent_send_if_due :
    Indifferent (send_if_due host : Ping N Int) (send_if_due host) := by
  refine (indifferent_perform _).bind fun reading => indifferent_get fun s s' hs => ?_
  obtain ⟨quiet, quiet_errors, verbose, log, rfl, -⟩ := hs
  refine indifferent_ite (.ret _) (indifferent_ite (.ret _) ?_)
  refine indifferent_next_seq.bind fun seq => (indifferent_send_one host _ _).bind fun rc => ?_
  exact indifferent_ite (.ret _) ((indifferent_stamp _).bind fun _ => .ret _)

theorem indifferent_send_per_reply (replies : Int) :
    Indifferent (send_per_reply host replies : Ping N Int) (send_per_reply host replies) := by
  refine .loop _ (fun left => indifferent_ite ?_ (.ret _)) fun _ => .ret _
  refine (indifferent_perform _).bind fun stop => indifferent_ite (.ret _) ?_
  refine (indifferent_perform _).bind fun reading => indifferent_get fun s s' hs => ?_
  obtain ⟨quiet, quiet_errors, verbose, log, rfl, -⟩ := hs
  refine indifferent_ite (.ret _) (indifferent_next_seq.bind fun seq => ?_)
  refine (indifferent_send_one host _ _).bind fun rc => indifferent_ite (.ret _) ?_
  exact (indifferent_stamp _).bind fun _ => .ret _

theorem indifferent_loop_readable :
    Indifferent (loop_readable host : Ping N Int) (loop_readable host) := by
  refine indifferent_get fun before before' hbefore => ?_
  refine (indifferent_ping_receive host).bind fun rc => indifferent_ite (.ret _) ?_
  refine indifferent_get fun s s' hs => ?_
  obtain ⟨quiet, quiet_errors, verbose, log, rfl, -⟩ := hs
  obtain ⟨-, -, -, -, rfl, -⟩ := hbefore
  refine indifferent_ite (.ret _) (indifferent_ite ?_ (indifferent_send_if_due host))
  refine (indifferent_send_per_reply host _).bind fun rc => ?_
  exact indifferent_ite (.ret _) (indifferent_send_if_due host)

theorem indifferent_loop_once :
    Indifferent (loop_once host : Ping N Int) (loop_once host) := by
  refine (indifferent_perform _).bind fun reading => indifferent_get fun s s' hs => ?_
  obtain ⟨quiet, quiet_errors, verbose, log, rfl, -⟩ := hs
  refine indifferent_ite (.ret _) ((indifferent_perform _).bind fun result => ?_)
  cases result with
  | failed errno => exact indifferent_ite (.ret _) ((indifferent_perform _).bind fun _ => .ret _)
  | readable => exact indifferent_loop_readable host
  | timedOut => exact indifferent_send_if_due host

theorem indifferent_ping_run : Indifferent (ping_run host : Ping N Unit) (ping_run host) := by
  refine Agree.bind (indifferent_modify fun s s' hs => ?_) fun _ => ?_
  · obtain ⟨quiet, quiet_errors, verbose, log, rfl, hlog⟩ := hs
    exact ⟨quiet, quiet_errors, verbose, log, rfl, hlog⟩
  · refine indifferent_sched_init.bind fun _ => (indifferent_send_preload host).bind fun _ => ?_
    refine (indifferent_send_first host).bind fun _ => (indifferent_stamp _).bind fun _ => ?_
    refine .loop () (fun _ => (indifferent_perform _).bind fun stop => ?_) fun _ => .ret ()
    refine indifferent_ite (.ret _) ((indifferent_loop_once host).bind fun rc => ?_)
    exact indifferent_ite (.ret _) (.ret _)

end Programs

section Surroundings

variable {κ : Type} (env : Environment κ)

-- The surroundings answer the same and go on in the same way.
theorem respond_shown {s s' : State κ} (h : Shown s s') (e : Sys) :
    (respond env e s').1 = (respond env e s).1 ∧
      Shown (respond env e s).2 (respond env e s').2 := by
  obtain ⟨quiet, quiet_errors, verbose, log, rfl, hlog⟩ := h
  have hmore := fun entry => actions_congr hlog entry
  cases e with
  | sendto buf dst =>
      cases hsend : env.sendto buf s.net with
      | mk outcome k =>
          cases outcome <;> simp only [respond, hsend] <;>
            exact ⟨trivial, quiet, quiet_errors, verbose, _, rfl, hmore _⟩
  | recvfrom len =>
      cases hreceive : env.recvfrom s.net with
      | mk outcome k =>
          cases outcome <;> simp only [respond, hreceive] <;>
            exact ⟨trivial, quiet, quiet_errors, verbose, _, rfl, hmore _⟩
  | load offset length => exact ⟨rfl, quiet, quiet_errors, verbose, log, rfl, hlog⟩
  | store offset bytes => exact ⟨rfl, quiet, quiet_errors, verbose, log, rfl, hlog⟩
  | _ => exact ⟨rfl, quiet, quiet_errors, verbose, _, rfl, hmore _⟩

theorem guided_blind : Blind (guided env) Shown showing where
  rely s s' t h hr := by
    cases hr
    exact ⟨s', .refl s', h⟩
  sys e s s' a t h hsys := by
    obtain ⟨hanswer, hshown⟩ := respond_shown env h e
    change respond env e s = (a, t) at hsys
    rw [hsys] at hanswer hshown
    exact ⟨(respond env e s').2, Prod.ext hanswer rfl, hshown⟩
  quiet e s s' a t he h hsys := by
    obtain ⟨quiet, quiet_errors, verbose, log, rfl, hlog⟩ := h
    cases e with
    | load offset length =>
        cases hsys
        exact ⟨quiet, quiet_errors, verbose, log, rfl, hlog⟩
    | print line =>
        cases hsys
        exact ⟨quiet, quiet_errors, verbose, log, rfl, hlog⟩
    | _ => cases he
  answers e s s' he h := by
    obtain ⟨quiet, quiet_errors, verbose, log, rfl, hlog⟩ := h
    refine ⟨_, _, rfl, ?_⟩
    cases e with
    | load offset length => exact ⟨quiet, quiet_errors, verbose, log, rfl, hlog⟩
    | print line => exact ⟨quiet, quiet_errors, verbose, _, rfl, hlog⟩
    | _ => cases he

end Surroundings

def onStdout : Event → Bool
  | .printed (.checksum_mismatch _) => false
  | .printed (.perror _) => false
  | .printed _ => true
  | _ => false

-- With -q a line about a datagram goes to stderr.
theorem fault_unseen {host : Endian} {flags : Flags} {id : UInt16} {d : Datagram} {line : Line}
    (hquiet : flags.quiet = true) (h : verdict host flags id d = .fault line) :
    onStdout (.printed line) = false := by
  have hnone : error_line host flags id d = none := by
    rw [error_line, if_neg (by simp [hquiet])]
  unfold verdict at h
  rw [hnone] at h
  split_ifs at h
  cases h
  rfl

namespace Flow

-- With -q nothing goes to stdout.
theorem Path.unseen {N : Type} {host : Endian} {net : Network N} {monotone : Prop}
    {s t : State N} {q : Point} (h : Path host net monotone .start s q t)
    (hquiet : s.ctx.flags.quiet = true) (hlog : s.log = []) :
    ∀ entry ∈ t.log, onStdout entry.event = false := by
  have hmore : ∀ {t : State N} (event : Event), (∀ entry ∈ t.log, onStdout entry.event = false) →
      onStdout event = false → ∀ entry ∈ (t.record event).log, onStdout entry.event = false :=
    fun event ht hevent entry hentry => by
      rcases List.mem_cons.mp hentry with rfl | hentry
      · exact hevent
      · exact ht entry hentry
  refine h.invariant (fun _ t => ∀ entry ∈ t.log, onStdout entry.event = false)
    (by rw [hlog]; nofun) fun p t q u hwalk ht he => ?_
  have hflags := hwalk.ctx_kept.1
  cases he with
  | env _ _ _ hr =>
      cases hr
      exact ht
  | dot c t hdot =>
      rw [hflags, hquiet] at hdot
      exact absurd rfl hdot.2
  | fault before d line t hverdict =>
      rw [hflags] at hverdict
      exact hmore _ ht (fault_unseen hquiet hverdict)
  | report before d rtt line t hline =>
      rw [hflags, reply_line, hquiet] at hline
      cases hline
  | stamp p now t => cases p <;> exact ht
  | _ => first
      | exact ht
      | exact hmore _ ht rfl

end Flow

-- main()'s exit status after ping_run().
def EXIT_SUCCESS : Int := 0

def EXIT_FAILURE : Int := 1

def exit_status (stats : Stats) : Int :=
  if stats.n_recv = 0 then EXIT_FAILURE else EXIT_SUCCESS

-- A run under other display options, in step with the given one.
theorem ping_run_shown {host : Endian} {ctx : Ctx} (quiet quiet_errors verbose : Bool) {κ : Type}
    {env : Environment κ} {k : κ} {q : Ping κ Unit} {t : State κ}
    (h : Reach (guided env) (ping_run host, .initial ctx k) (q, t)) :
    ∃ q' t', Reach (guided env)
        (ping_run host, .initial (ctx.display quiet quiet_errors verbose) k) (q', t') ∧
      Shown t t' ∧ (q = .ret () → q' = .ret ()) := by
  have hstart : Shown (State.initial ctx k)
      (State.initial (ctx.display quiet quiet_errors verbose) k) :=
    ⟨quiet, quiet_errors, verbose, [], rfl, rfl⟩
  obtain ⟨q', t', hreach, hagree, hshown⟩ :=
    (indifferent_ping_run host).reach (guided_blind env) hstart h
  by_cases hret : q = .ret ()
  · obtain ⟨u, hend, hshown⟩ := hagree.finish (guided_blind env) hret hshown
    exact ⟨.ret (), u, hreach.trans hend, hshown, fun _ => rfl⟩
  · exact ⟨q', t', hreach, hshown, fun h => absurd h hret⟩

-- Two contexts that differ in -q, -Q and -v only, in the same surroundings: what the one run
-- does the other does, and they return with the same counters.
theorem display_flags_change_nothing (host : Endian) (ctx : Ctx)
    (quiet quiet_errors verbose : Bool) :
    (∀ (κ : Type) (env : Environment κ) (k : κ) (q : Ping κ Unit) (t : State κ),
      Reach (guided env) (ping_run host, .initial ctx k) (q, t) →
        ∃ q' t', Reach (guided env)
            (ping_run host, .initial (ctx.display quiet quiet_errors verbose) k) (q', t') ∧
          actions t'.log = actions t.log ∧ t'.stats = t.stats ∧ t'.net = t.net ∧
          (q = .ret () → q' = .ret ())) ∧
    (∀ (κ : Type) (env : Environment κ) (k : κ) (t t' : State κ),
      Reach (guided env) (ping_run host, .initial ctx k) (.ret (), t) →
      Reach (guided env) (ping_run host, .initial (ctx.display quiet quiet_errors verbose) k)
        (.ret (), t') →
      actions t'.log = actions t.log ∧ t'.stats = t.stats ∧
        exit_status t'.stats = exit_status t.stats) ∧
    ∀ (N : Type) (net : Network N) (monotone : Prop) (n : N) (q : Ping N Unit) (t : State N),
      ctx.flags.quiet = true →
      Reach (world net monotone) (ping_run host, .initial ctx n) (q, t) →
        ∀ entry ∈ t.log, onStdout entry.event = false := by
  refine ⟨fun κ env k q t h => ?_, fun κ env k t t' h h' => ?_, fun N net monotone n q t hq h => ?_⟩
  · obtain ⟨q', t', hreach, hshown, hret⟩ := ping_run_shown quiet quiet_errors verbose h
    obtain ⟨hlog, hstats, hnet⟩ := hshown.same
    exact ⟨q', t', hreach, hlog, hstats, hnet, hret⟩
  · obtain ⟨q', u, hreach, hshown, hret⟩ := ping_run_shown quiet quiet_errors verbose h
    rw [hret rfl] at hreach
    obtain ⟨-, rfl⟩ := guided_deterministic.result hreach h'
    obtain ⟨hlog, hstats, -⟩ := hshown.same
    exact ⟨hlog, hstats, congrArg exit_status hstats⟩
  · obtain ⟨p, hpath⟩ := Flow.ping_run_path host net monotone (.initial ctx n) t q h
    exact hpath.unseen hq rfl

-- One reply, then SIGINT in a poll().
def one_reply : Environment Nat where
  clock k := (0, k)
  sendto _ k := (none, k)
  recvfrom k := if k = 0 then (.ok bare_reply, 1) else (.error .EAGAIN, 2)
  poll _ k := if k = 0 then (.readable, 0) else (.failed .EINTR, 3)
  sigint k := (k = 3, k)

def loopback_ctx (flags : Flags) : Ctx := ctx_alloc_buffers flags [127, 0, 0, 1] 0x1234

-- With -v and with -q, where only the first shows the reply.
theorem display_flags_change_nothing_reply :
    ∃ t t', Reach (guided one_reply)
        (ping_run .little, .initial (loopback_ctx { Flags.zero with verbose := true }) 0)
        (.ret (), t) ∧
      Reach (guided one_reply)
        (ping_run .little, .initial (loopback_ctx { Flags.zero with quiet := true }) 0)
        (.ret (), t') ∧
      t.log.any (fun entry => onStdout entry.event) = true ∧
      (∀ entry ∈ t'.log, onStdout entry.event = false) ∧
      actions t'.log = actions t.log ∧ t.stats.n_recv = 1 ∧
      exit_status t'.stats = EXIT_SUCCESS := by
  have hrun : (exec (guide one_reply) 3 (ping_run .little)
      ((), .initial (loopback_ctx { Flags.zero with verbose := true }) 0)).map
      (fun r => (r.2.2.log.any (fun entry => onStdout entry.event), r.2.2.stats.n_recv)) =
        some (true, 1) := by
    decide +kernel
  obtain ⟨⟨value, k, t⟩, hexec, hcounts⟩ := Option.map_eq_some_iff.mp hrun
  obtain ⟨hshown, hrecv⟩ := Prod.ext_iff.mp hcounts
  have hreach := exec_reach (guide_plays one_reply) 3 _ _ _ hexec
  have hreturn := (display_flags_change_nothing .little
    (loopback_ctx { Flags.zero with verbose := true }) true false false).1 Nat one_reply 0 _ t
    hreach
  obtain ⟨q', t', hreach', hlog, hstats, -, hret⟩ := hreturn
  rw [hret rfl] at hreach'
  refine ⟨t, t', hreach, hreach', hshown, ?_, hlog, hrecv, ?_⟩
  · exact (display_flags_change_nothing .little
      (loopback_ctx { Flags.zero with quiet := true }) true false false).2.2 Nat (Network.any Nat)
      False 0 _ t' rfl (guided_reach hreach')
  · rw [((display_flags_change_nothing .little
      (loopback_ctx { Flags.zero with verbose := true }) true false false).2.1 Nat one_reply 0 t t'
      hreach hreach').2.2]
    exact if_neg fun hnone => absurd (hrecv.symm.trans hnone) (by decide)

end FtPing
