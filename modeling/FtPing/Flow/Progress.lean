import FtPing.Core.Loop
import FtPing.Interaction.Discipline
import FtPing.Net.Judgement

namespace FtPing

open Bytes Interaction

-- Every call leaves an entry in the log but for the accesses to the receive buffer.
def logged : Sys → Bool
  | .load _ _ => false
  | .store _ _ => false
  | _ => true

-- The calls of a round of ping_receive() after recvfrom().
def handled : Sys → Bool
  | .load _ _ => true
  | .store _ _ => true
  | .print _ => true
  | .entered _ => true
  | .clock_gettime _ => true
  | .count_reply _ => true
  | _ => false

def polls : Sys → Bool
  | .poll _ => true
  | _ => false

-- The memory is another, at the same moment and with the same history.
structure Kept {N : Type} (s t : State N) : Prop where
  now : t.now = s.now
  stop : t.stop = s.stop
  net : t.net = s.net
  log : t.log = s.log

theorem Kept.zeroed {N : Type} (s : State N) : Kept s { s with stats := Stats.zero } :=
  ⟨rfl, rfl, rfl, rfl⟩

abbrev Orderly {N α : Type} (allowed loud : Sys → Prop) (p : Ping N α) : Prop :=
  Disciplined allowed loud Kept p

section Rules

variable {N α : Type} {allowed loud : Sys → Prop}

theorem Kept.refl (s : State N) : Kept s s := ⟨rfl, rfl, rfl, rfl⟩

theorem orderly_get : Orderly allowed loud (Prog.get : Ping N (State N)) :=
  ⟨Kept.refl, fun _ => trivial⟩

theorem orderly_modify {update : State N → State N} (h : ∀ s, Kept s (update s)) :
    Orderly allowed loud (Prog.modify update : Ping N Unit) :=
  ⟨h, fun _ => trivial⟩

theorem orderly_perform {e : Sys} (h : allowed e) :
    Orderly allowed loud (Prog.perform e : Ping N (Ans e)) :=
  ⟨h, fun _ => trivial⟩

theorem orderly_ret (value : α) : Orderly allowed loud (.ret value : Ping N α) := trivial

theorem orderly_ite {c : Prop} [Decidable c] {p q : Ping N α} (hp : Orderly allowed loud p)
    (hq : Orderly allowed loud q) : Orderly allowed loud (if c then p else q) := by
  split_ifs
  · exact hp
  · exact hq

theorem speaks_ite {c : Prop} [Decidable c] {ends : α → Prop} {p q : Ping N α}
    (hp : Speaks loud ends p) (hq : Speaks loud ends q) :
    Speaks loud ends (if c then p else q) := by
  split_ifs
  · exact hp
  · exact hq

end Rules

section Handling

variable {N : Type} {loud : Sys → Prop} (host : Endian) (ctx : Ctx)

abbrev Handling {α : Type} (loud : Sys → Prop) (p : Ping N α) : Prop :=
  Orderly (fun e => handled e = true) loud p

theorem handling_perform {e : Sys} (h : handled e = true) :
    Handling loud (Prog.perform e : Ping N (Ans e)) :=
  orderly_perform h

theorem handling_load_uint8 (offset : Nat) : Handling loud (load_uint8 offset : Ping N UInt8) :=
  (handling_perform rfl).bind fun _ => orderly_ret _

theorem handling_load_uint16 (offset : Nat) :
    Handling loud (load_uint16 host offset : Ping N UInt16) :=
  (handling_perform rfl).bind fun _ => orderly_ret _

theorem handling_locate_icmp (n : Nat) :
    Handling loud (locate_icmp n : Ping N (Option Nat)) := by
  refine orderly_ite (orderly_ret _) ((handling_load_uint8 _).bind fun first => ?_)
  exact orderly_ite (orderly_ret _) (orderly_ite (orderly_ret _) (orderly_ret _))

theorem handling_checksum_ok (reply icmp_bytes : Nat) :
    Handling loud (checksum_ok host reply icmp_bytes : Ping N Bool) := by
  refine (handling_load_uint16 host _).bind fun claimed => (handling_perform rfl).bind fun _ => ?_
  refine (handling_perform rfl).bind fun message => (handling_perform rfl).bind fun _ => ?_
  exact orderly_ret _

theorem handling_quoted_probe (reply ihl n : Nat) :
    Handling loud (quoted_probe reply ihl n : Ping N (Option Nat)) := by
  refine orderly_ite (orderly_ret _) ((handling_load_uint8 _).bind fun first => ?_)
  exact orderly_ite (orderly_ret _) (orderly_ite (orderly_ret _) (orderly_ret _))

theorem handling_icmp_error_line (ip ihl reply n : Nat) :
    Handling loud (icmp_error_line host ctx ip ihl reply n : Ping N (Option Line)) := by
  refine (handling_load_uint8 _).bind fun type => orderly_ite (orderly_ret _) ?_
  refine (handling_quoted_probe reply ihl n).bind fun inner => ?_
  cases inner with
  | none => exact orderly_ret _
  | some inner_icmp =>
      refine (handling_load_uint16 host _).bind fun id => orderly_ite (orderly_ret _) ?_
      refine orderly_ite (orderly_ret _) ((handling_perform rfl).bind fun src => ?_)
      refine (handling_load_uint16 host _).bind fun sequence => ?_
      exact (handling_load_uint8 _).bind fun code => orderly_ret _

theorem handling_judge (n : Nat) : Handling loud (judge host ctx n : Ping N Verdict) := by
  refine (handling_locate_icmp n).bind fun located => ?_
  cases located with
  | none => exact orderly_ret _
  | some ihl =>
      refine (handling_checksum_ok host ihl _).bind fun valid => orderly_ite ?_ ?_
      · exact (handling_perform rfl).bind fun src => orderly_ret _
      · refine (handling_load_uint8 _).bind fun type => ?_
        refine (handling_load_uint8 _).bind fun code => orderly_ite ?_ ?_
        · exact (handling_icmp_error_line host ctx _ _ _ _).bind fun _ => orderly_ret _
        · refine (handling_load_uint16 host _).bind fun id => orderly_ite (orderly_ret _) ?_
          exact (handling_load_uint16 host _).bind fun sequence => orderly_ret _

theorem handling_settle (n : Nat) (v : Verdict) :
    Handling loud (settle ctx n v : Ping N (Unit ⊕ Int)) := by
  cases v with
  | ignored => exact orderly_ret _
  | fault line => exact (handling_perform rfl).bind fun _ => orderly_ret _
  | reply ihl seq =>
      refine Disciplined.bind ((handling_perform rfl).bind fun now =>
        (handling_perform rfl).bind fun _ => orderly_ret _) fun rtt => ?_
      refine Disciplined.bind ((handling_perform rfl).bind fun _ => orderly_ite (orderly_ret _) ?_)
        fun _ => orderly_ret _
      refine orderly_ite (handling_perform rfl) ((handling_perform rfl).bind fun src => ?_)
      exact (handling_load_uint8 _).bind fun ttl => handling_perform rfl

-- A round goes on with the drain, whatever the datagram.
theorem settle_onward (n : Nat) (v : Verdict) :
    Speaks loud (fun r => r.isRight = true) (settle ctx n v : Ping N (Unit ⊕ Int)) := by
  cases v with
  | ignored => exact Bool.false_ne_true
  | fault line => exact Speaks.bind _ fun _ => Bool.false_ne_true
  | reply ihl seq => exact Speaks.bind _ fun _ => Speaks.bind _ fun _ => Bool.false_ne_true

-- A round once recvfrom() has brought something in.
def receipt (n : Nat) : Ping N (Unit ⊕ Int) := do
  let v ← judge host ctx n
  settle ctx n v

theorem handling_receipt (n : Nat) : Handling loud (receipt host ctx n : Ping N (Unit ⊕ Int)) :=
  (handling_judge host ctx n).bind fun v => handling_settle ctx n v

theorem receipt_onward (n : Nat) :
    Speaks loud (fun r => r.isRight = true) (receipt host ctx n : Ping N (Unit ⊕ Int)) :=
  Speaks.bind _ fun v => settle_onward ctx n v

theorem handling_classify_recv_error (errno : Errno) :
    Handling loud (classify_recv_error errno : Ping N Int) := by
  refine orderly_ite (orderly_ret _) (orderly_ite (orderly_ret _) ?_)
  exact (handling_perform rfl).bind fun _ => orderly_ret _

end Handling

section Running

variable {N : Type} (host : Endian)

-- All of the program but loop_once() itself does without poll().
abbrev Unpolled {α : Type} (p : Ping N α) : Prop :=
  Orderly (fun e => polls e = false) (fun e => logged e = true) p

theorem unpolled_perform {e : Sys} (h : polls e = false) :
    Unpolled (Prog.perform e : Ping N (Ans e)) :=
  orderly_perform h

theorem Handling.unpolled {α : Type} {p : Ping N α}
    (h : Handling (fun e => logged e = true) p) : Unpolled p := by
  refine h.mono (fun e he => ?_) fun _ he => he
  cases e with
  | poll timeout => cases he
  | _ => rfl

theorem unpolled_next_seq : Unpolled (next_seq : Ping N UInt16) :=
  ⟨fun _ => ⟨rfl, rfl, rfl, rfl⟩, fun _ => trivial⟩

theorem unpolled_stamp (site : ClockSite) : Unpolled (stamp_last_send site : Ping N Unit) :=
  (unpolled_perform rfl).bind fun _ => orderly_modify fun _ => ⟨rfl, rfl, rfl, rfl⟩

theorem unpolled_sched_init : Unpolled (sched_init : Ping N Unit) := by
  refine orderly_get.bind fun s => orderly_ite ?_ ?_
  · exact (unpolled_perform rfl).bind fun now =>
      orderly_modify fun _ => ⟨rfl, rfl, rfl, rfl⟩
  · exact orderly_modify fun _ => ⟨rfl, rfl, rfl, rfl⟩

theorem unpolled_send_one (site : SendSite) (seq : UInt16) :
    Unpolled (send_one host site seq : Ping N Int) := by
  have hctx : ∀ write, Unpolled (Prog.modify fun s => s.onCtx write : Ping N Unit) :=
    fun write => orderly_modify fun _ => ⟨rfl, rfl, rfl, rfl⟩
  refine (unpolled_perform rfl).bind fun _ => (hctx _).bind fun _ => ?_
  refine Disciplined.bind ((unpolled_perform rfl).bind fun now => hctx _) fun _ => ?_
  refine (hctx _).bind fun _ => orderly_get.bind fun s => ?_
  refine (unpolled_perform rfl).bind fun outcome => ?_
  cases outcome with
  | some errno => exact (unpolled_perform rfl).bind fun _ => orderly_ret _
  | none =>
      refine (unpolled_perform rfl).bind fun _ => orderly_ite ?_ (orderly_ret _)
      exact (unpolled_perform rfl).bind fun _ => orderly_ret _

theorem unpolled_receive_round : Unpolled (receive_round host : Ping N (Unit ⊕ Int)) := by
  rw [receive_round_eq]
  refine orderly_get.bind fun s => (unpolled_perform rfl).bind fun outcome => ?_
  cases outcome with
  | error errno => exact (handling_classify_recv_error errno).unpolled.bind fun rc => orderly_ret _
  | ok n => exact (handling_receipt host s.ctx n).unpolled

-- Each round begins with a call of recvfrom().
theorem unpolled_ping_receive : Unpolled (ping_receive host : Ping N Int) :=
  ⟨fun _ => ⟨unpolled_receive_round host, fun _ => Or.inl rfl⟩, fun _ => trivial⟩

-- So does each round of the other loops, or with a test of the flag, unless it is the last.
theorem unpolled_send_preload : Unpolled (send_preload host : Ping N Unit) := by
  refine ⟨fun i => ⟨orderly_get.bind fun s => orderly_ite ?_ (orderly_ret _),
    fun s => speaks_ite (Or.inl rfl) Bool.false_ne_true⟩, fun _ => trivial⟩
  refine (unpolled_perform rfl).bind fun stop => orderly_ite (orderly_ret _) ?_
  refine unpolled_next_seq.bind fun seq => (unpolled_send_one host _ seq).bind fun rc => ?_
  exact orderly_ite ((unpolled_perform rfl).bind fun _ => orderly_ret _) (orderly_ret _)

theorem unpolled_send_if_due : Unpolled (send_if_due host : Ping N Int) := by
  refine (unpolled_perform rfl).bind fun reading => orderly_get.bind fun s => ?_
  refine orderly_ite (orderly_ret _) (orderly_ite (orderly_ret _) ?_)
  refine unpolled_next_seq.bind fun seq => (unpolled_send_one host _ seq).bind fun rc => ?_
  exact orderly_ite (orderly_ret _) ((unpolled_stamp _).bind fun _ => orderly_ret _)

theorem unpolled_send_per_reply (replies : Int) :
    Unpolled (send_per_reply host replies : Ping N Int) := by
  refine ⟨fun i => ⟨orderly_ite ?_ (orderly_ret _),
    speaks_ite (Or.inl rfl) Bool.false_ne_true⟩, fun _ => trivial⟩
  refine (unpolled_perform rfl).bind fun stop => orderly_ite (orderly_ret _) ?_
  refine (unpolled_perform rfl).bind fun reading => orderly_get.bind fun s => ?_
  refine orderly_ite (orderly_ret _) ?_
  refine unpolled_next_seq.bind fun seq => (unpolled_send_one host _ seq).bind fun rc => ?_
  exact orderly_ite (orderly_ret _) ((unpolled_stamp _).bind fun _ => orderly_ret _)

theorem unpolled_loop_readable : Unpolled (loop_readable host : Ping N Int) := by
  refine orderly_get.bind fun s => (unpolled_ping_receive host).bind fun rc => ?_
  refine orderly_ite (orderly_ret _) (orderly_get.bind fun s => orderly_ite (orderly_ret _) ?_)
  refine orderly_ite ((unpolled_send_per_reply host _).bind fun rc => ?_)
    (unpolled_send_if_due host)
  exact orderly_ite (orderly_ret _) (unpolled_send_if_due host)

theorem unpolled_send_first : Unpolled (send_first host : Ping N Unit) := by
  refine (unpolled_perform rfl).bind fun stop => orderly_ite (orderly_ret _) ?_
  refine unpolled_next_seq.bind fun seq => (unpolled_send_one host _ seq).bind fun rc => ?_
  exact orderly_ite (unpolled_perform rfl) (orderly_ret _)

abbrev Running {α : Type} (p : Ping N α) : Prop :=
  Orderly (fun _ => True) (fun e => logged e = true) p

theorem Unpolled.running {α : Type} {p : Ping N α} (h : Unpolled p) : Running p :=
  h.mono (fun _ _ => trivial) fun _ he => he

theorem running_loop_once : Running (loop_once host : Ping N Int) := by
  refine (orderly_perform trivial).bind fun reading => orderly_get.bind fun s => ?_
  refine orderly_ite (orderly_ret _) ((orderly_perform trivial).bind fun result => ?_)
  cases result with
  | readable => exact (unpolled_loop_readable host).running
  | timedOut => exact (unpolled_send_if_due host).running
  | failed errno =>
      exact orderly_ite (orderly_ret _) ((orderly_perform trivial).bind fun _ => orderly_ret _)

theorem running_ping_run : Running (ping_run host : Ping N Unit) := by
  refine (orderly_modify Kept.zeroed).bind fun _ => ?_
  refine unpolled_sched_init.running.bind fun _ => ?_
  refine (unpolled_send_preload host).running.bind fun _ => ?_
  refine (unpolled_send_first host).running.bind fun _ => ?_
  refine (unpolled_stamp _).running.bind fun _ => ?_
  refine ⟨fun _ => ⟨(orderly_perform trivial).bind fun stop => ?_, Or.inl rfl⟩, fun _ => trivial⟩
  refine orderly_ite (orderly_ret _) ((running_loop_once host).bind fun rc => ?_)
  exact orderly_ite (orderly_ret _) (orderly_ret _)

end Running

section Progress

variable {N α : Type} {net : Network N} {monotone : Prop}

theorem perform_answers (e : Sys) (s : State N) : ∃ a t, Perform net e s a t := by
  cases e with
  | clock_gettime site => exact ⟨_, _, .clock_gettime site s⟩
  | sendto buf dst => exact ⟨_, _, .sendFailed buf dst s .EAGAIN⟩
  | recvfrom len => exact ⟨_, _, .receiveFailed len s .EAGAIN⟩
  | poll timeout => exact ⟨_, _, .poll timeout s .timedOut⟩
  | ping_should_stop => exact ⟨_, _, .ping_should_stop s⟩
  | ping_request_stop => exact ⟨_, _, .ping_request_stop s⟩
  | load offset length => exact ⟨_, _, .load offset length s⟩
  | store offset bytes => exact ⟨_, _, .store offset bytes s⟩
  | print line => exact ⟨_, _, .print line s⟩
  | entered what => exact ⟨_, _, .entered what s⟩
  | count_sent => exact ⟨_, _, .count_sent s⟩
  | count_reply rtt => exact ⟨_, _, .count_reply rtt s⟩

-- A logged call adds one entry, with the clock and the flag of its moment.
theorem perform_log {e : Sys} {s t : State N} {a : Ans e} (h : Perform net e s a t) :
    (t.log = s.log ∧ logged e = false) ∨
      ∃ event, t.log = ⟨s.now, s.stop, event⟩ :: s.log ∧ logged e = true := by
  cases h with
  | load offset length => exact Or.inl ⟨rfl, rfl⟩
  | store offset bytes => exact Or.inl ⟨rfl, rfl⟩
  | _ => exact Or.inr ⟨_, rfl, rfl⟩

theorem log_grows : Grows (world net monotone) (fun e => logged e = true) Kept
    fun s => s.log.length where
  rely s t h := by
    cases h
    exact Nat.le_refl _
  act s t h := by rw [h.log]
  call e s a t h := by
    rcases perform_log h with ⟨hlog, -⟩ | ⟨event, hlog, -⟩
    · rw [hlog]
    · rw [hlog]
      exact Nat.le_succ _
  loud e s a t h hloud := by
    rcases perform_log h with ⟨-, hsilent⟩ | ⟨event, hlog, -⟩
    · rw [hsilent] at hloud
      cases hloud
    · rw [hlog]
      exact Nat.lt_succ_self _

theorem Reach.history {c d : Ping N α × State N} (h : Running c.1)
    (hd : Reach (world net monotone) c d) : Running d.1 ∧ c.2.log <:+ d.2.log := by
  refine Disciplined.reach (fun t => c.2.log <:+ t.log) (fun s t hs hr => ?_)
    (fun s t hs hk => ?_) (fun e s a t hs _ hsys => ?_) h hd (List.suffix_refl _)
  · cases hr
    exact hs
  · rw [hk.log]
    exact hs
  · rcases perform_log hsys with ⟨hlog, -⟩ | ⟨event, hlog, -⟩
    · rw [hlog]
      exact hs
    · rw [hlog]
      exact hs.trans (List.suffix_cons _ _)

-- ping_run() returns from where only so many more entries can be made.
theorem ping_run_returns {host : Bytes.Endian} {s t : State N} {q : Ping N Unit} {most : Nat}
    (h : Reach (world net monotone) (ping_run host, s) (q, t))
    (hmost : ∀ r u, Reach (world net monotone) (q, t) (r, u) → u.log.length ≤ most) :
    Returns (world net monotone) (q, t) :=
  returns_of_bounded log_grows perform_answers (Reach.history (running_ping_run host) h).1
    fun d hd => hmost d.1 d.2 hd

end Progress

end FtPing
