import FtPing.Flow.Deadline
import FtPing.Flow.Progress
import FtPing.Net.Replies

namespace FtPing

open Bytes Interaction Numeric

def isRecvfrom : Event → Bool
  | .received _ => true
  | .receiveFailed _ => true
  | _ => false

-- The stop flag is set, or the clock has passed the deadline.
def overdue (deadline : Numeric.Double) (now : Nat) (stop : Bool) : Bool :=
  stop || expired deadline now

-- The calls of recvfrom() at such a moment.
def late_calls (deadline : Numeric.Double) (log : List Entry) : Nat :=
  log.countP fun entry => overdue deadline entry.now entry.stop && isRecvfrom entry.event

theorem late_calls_cons (deadline : Numeric.Double) (entry : Entry) (log : List Entry) :
    late_calls deadline (entry :: log) = late_calls deadline log +
      if overdue deadline entry.now entry.stop && isRecvfrom entry.event then 1 else 0 :=
  List.countP_cons

-- What the network can hand over one after the other, the latest datagram first.
inductive Delivers {N : Type} (net : Network N) (m : N) : List Datagram → N → Prop
  | none {n : N} (h : Relation.ReflTransGen net.evolve m n) : Delivers net m [] n
  | next {ds : List Datagram} {d : Datagram} {n n' o : N} (h : Delivers net m ds n)
      (hd : net.deliver n d n') (ho : Relation.ReflTransGen net.evolve n' o) :
      Delivers net m (d :: ds) o

variable {N : Type} {net : Network N} {monotone : Prop}

theorem Delivers.evolve {m n o : N} {ds : List Datagram} (h : Delivers net m ds n)
    (ho : Relation.ReflTransGen net.evolve n o) : Delivers net m ds o := by
  cases h with
  | none h => exact .none (h.trans ho)
  | next h hd hn => exact .next h hd (hn.trans ho)

theorem late_calls_le (deadline : Numeric.Double) (log : List Entry) :
    late_calls deadline log ≤ log.countP fun entry => isRecvfrom entry.event :=
  List.countP_mono_left fun entry _ h => by
    rw [Bool.and_eq_true] at h
    exact h.2

-- The calls of a round after recvfrom() add no entry of recvfrom(), and the network, the clock
-- and the flag take no part in them.
theorem perform_handled {e : Sys} {s t : State N} {a : Ans e} (he : handled e = true)
    (h : Perform net e s a t) : t.net = s.net ∧ t.now = s.now ∧ t.stop = s.stop ∧
      (t.log = s.log ∨ ∃ event, t.log = ⟨s.now, s.stop, event⟩ :: s.log ∧
        isRecvfrom event = false) := by
  cases h with
  | load offset length => exact ⟨rfl, rfl, rfl, Or.inl rfl⟩
  | store offset bytes => exact ⟨rfl, rfl, rfl, Or.inl rfl⟩
  | print line => exact ⟨rfl, rfl, rfl, Or.inr ⟨_, rfl, rfl⟩⟩
  | entered what => exact ⟨rfl, rfl, rfl, Or.inr ⟨_, rfl, rfl⟩⟩
  | clock_gettime site => exact ⟨rfl, rfl, rfl, Or.inr ⟨_, rfl, rfl⟩⟩
  | count_reply rtt => exact ⟨rfl, rfl, rfl, Or.inr ⟨_, rfl, rfl⟩⟩
  | _ => cases he

section Fed

-- So many calls of recvfrom() have been fed from the network `m`, and `extra` were not.
def Fed (net : Network N) (m : N) (extra : Nat) (t : State N) : Prop :=
  ∃ ds, Delivers net m ds t.net ∧
    (t.log.countP fun entry => isRecvfrom entry.event) ≤ ds.length + extra

variable {m : N} {extra : Nat} {s t : State N}

theorem Fed.stable (h : Fed net m extra s) (hr : Rely net monotone s t) : Fed net m extra t := by
  cases hr with
  | intro now stop n hnow hstop hnet =>
      obtain ⟨ds, hds, hle⟩ := h
      exact ⟨ds, hds.evolve hnet, hle⟩

theorem Fed.more {most : Nat} (h : Fed net m extra s) (hmost : extra ≤ most) :
    Fed net m most s := by
  obtain ⟨ds, hds, hle⟩ := h
  exact ⟨ds, hds, hle.trans (Nat.add_le_add_left hmost _)⟩

theorem Fed.handled {e : Sys} {a : Ans e} (h : Fed net m extra s)
    (he : FtPing.handled e = true) (hsys : Perform net e s a t) : Fed net m extra t := by
  obtain ⟨hnet, -, -, hlog⟩ := perform_handled he hsys
  obtain ⟨ds, hds, hle⟩ := h
  refine ⟨ds, by rw [hnet]; exact hds, ?_⟩
  rcases hlog with hlog | ⟨event, hlog, hnone⟩
  · rw [hlog]
    exact hle
  · rw [hlog, List.countP_cons_of_neg (by rw [hnone]; exact Bool.false_ne_true)]
    exact hle

theorem Fed.kept (h : Fed net m extra s) (hk : Kept s t) : Fed net m extra t := by
  obtain ⟨ds, hds, hle⟩ := h
  exact ⟨ds, by rw [hk.net]; exact hds, by rw [hk.log]; exact hle⟩

-- What handles a datagram is fed nothing.
theorem Handling.fed {α : Type} {p : Ping N α} (h : Handling (fun _ => False) p)
    (hle : extra ≤ 1) (hs : Fed net m extra s) :
    Safe (world net monotone) (Fed net m 1) (fun _ _ => True) p
      (fun _ t => Fed net m extra t) s :=
  Disciplined.safe (Fed net m extra) (fun _ _ ht hr => Fed.stable ht hr)
    (fun _ _ ht hk => ht.kept hk) (fun _ _ _ _ ht he hsys => ht.handled he hsys)
    (fun _ ht => ht.more hle) h hs

-- Each round is fed one datagram, but for the one that finds the socket dry.
theorem ping_receive_fed (host : Endian) (hs : Fed net m 0 s) :
    Safe (world net monotone) (Fed net m 1) (fun _ _ => True) (ping_receive host)
      (fun _ _ => True) s := by
  refine safe_loop (fun _ t => Fed net m 0 t) hs fun _ t ht => ?_
  have hmore : ∀ u, Fed net m 0 u → Fed net m 1 u := fun u hu => hu.more (Nat.zero_le 1)
  have hend : ∀ (value : Int) (x : State N), Fed net m 1 x →
      Safe (world net monotone) (Fed net m 1) (fun _ _ => True) (.ret value : Ping N Int)
        (fun _ _ => True) x := fun value x hx =>
    safe_ret (fun _ _ hy hr => Fed.stable hy hr) (fun _ hy => hy) hx fun _ _ => trivial
  rw [receive_round_eq]
  refine safe_act (fun _ _ hu hr => Fed.stable hu hr) hmore ht fun u hu => ?_
  refine safe_call (fun _ _ hv hr => Fed.stable hv hr) hmore hu (fun _ _ => trivial)
    fun v _ w hv hsys => ?_
  cases hsys with
  | receiveFailed _ _ errno =>
      have hw : Fed net m 1 (v.record (.receiveFailed errno)) := by
        obtain ⟨ds, hds, hle⟩ := hv
        refine ⟨ds, hds, ?_⟩
        rw [State.record, List.countP_cons_of_pos rfl]
        exact Nat.succ_le_succ hle
      simp only [Prog.ret_bind]
      refine safe_bind ((Handling.fed (handling_classify_recv_error errno) (Nat.le_refl 1) hw).mono
        fun rc x hx => ?_)
      exact safe_ret (fun _ _ hy hr => Fed.stable hy hr) (fun _ hy => hy) hx (hend rc)
  | received _ _ d n hd =>
      have hw : Fed net m 0
          { (v.receive u.ctx.recvbuf_len d).record (.received d) with net := n } := by
        obtain ⟨ds, hds, hle⟩ := hv
        refine ⟨d :: ds, hds.next hd .refl, ?_⟩
        rw [State.record, List.countP_cons_of_pos rfl]
        exact Nat.succ_le_succ hle
      simp only [Prog.ret_bind]
      refine (Handling.fed ((handling_judge host _ _).bind fun verdict => handling_settle _ _ _)
        (Nat.zero_le 1) hw).mono fun r x hx => ?_
      cases r with
      | inl again => exact hx
      | inr value => exact hend value x (hmore x hx)

end Fed

section Flooded

-- A world in which nothing happens but what the program does.
def idle (net : Network N) : World (State N) Sys Ans where
  rely s t := s = t
  sys := Perform net
  rely_refl _ := rfl
  rely_trans _ _ _ h h' := h.trans h'

theorem idle_reach {α : Type} {c d : Ping N α × State N} (h : Reach (idle net) c d) :
    Reach (world net monotone) c d := by
  have hrely : ∀ s t, (idle net).rely s t → (world net monotone).rely s t := by
    rintro s _ rfl
    exact Rely.refl net monotone s
  exact Reach.mono hrely (fun _ _ _ _ hsys => hsys) h

-- At the same moment and on the network `n`, after so many late calls of recvfrom().
structure Flooded (deadline : Numeric.Double) (s : State N) (n : N) (calls : Nat) (t : State N) :
    Prop where
  now : t.now = s.now
  stop : t.stop = s.stop
  net : t.net = n
  calls : late_calls deadline t.log = calls

variable {deadline : Numeric.Double} {s t : State N} {n : N} {calls : Nat}

theorem Flooded.received (h : Flooded deadline s n calls t)
    (hlate : overdue deadline s.now s.stop = true) (len : Nat) (d : Datagram) (n' : N) :
    Flooded deadline s n' (calls + 1)
      { (t.receive len d).record (.received d) with net := n' } := by
  refine ⟨h.now, h.stop, rfl, ?_⟩
  refine (late_calls_cons deadline ⟨t.now, t.stop, .received d⟩ t.log).trans ?_
  rw [h.now, h.stop, hlate, h.calls]
  rfl

-- What has come in is handled at once, and the drain goes on.
theorem receipt_flooded (host : Endian) (net : Network N) (ctx : Ctx) (len : Nat)
    (h : Flooded deadline s n calls t) :
    ∃ u, Reach (idle net) (receipt host ctx len, t) (.ret (.inl ()), u) ∧
      Flooded deadline s n calls u := by
  have hhandling : Handling (fun _ => False) (receipt host ctx len : Ping N (Unit ⊕ Int)) :=
    handling_receipt host ctx len
  have hreturns : Returns (idle net) (receipt host ctx len, t) :=
    hhandling.returns perform_answers t
  obtain ⟨value, u, hu⟩ := hreturns.exists_ret
  have hkept : ∀ v w, Flooded deadline s n calls v → Kept v w → Flooded deadline s n calls w :=
    fun v w hv hk => ⟨hk.now.trans hv.now, hk.stop.trans hv.stop, hk.net.trans hv.net, by
      rw [hk.log]
      exact hv.calls⟩
  have hhandled : ∀ e v (a : Ans e) w, Flooded deadline s n calls v → handled e = true →
      Perform net e v a w → Flooded deadline s n calls w := by
    intro e v a w hv he hsys
    obtain ⟨hnet, hnow, hstop, hlog⟩ := perform_handled he hsys
    refine ⟨hnow.trans hv.now, hstop.trans hv.stop, hnet.trans hv.net, ?_⟩
    rcases hlog with hlog | ⟨event, hlog, hnone⟩
    · rw [hlog]
      exact hv.calls
    · rw [hlog, late_calls_cons, hnone, Bool.and_false]
      exact hv.calls
  have hidle : ∀ v w, Flooded deadline s n calls v → (idle net).rely v w →
      Flooded deadline s n calls w := by
    rintro v _ hv rfl
    exact hv
  have hflooded :=
    (Disciplined.reach (Flooded deadline s n calls) hidle hkept hhandled hhandling hu h).2
  have honward := (receipt_onward host ctx len).reach hu
  cases value with
  | inl again => exact ⟨u, hu, hflooded⟩
  | inr value => exact absurd rfl honward

theorem Flooded.evolve {o : N} (monotone : Prop) (h : Flooded deadline s n calls t)
    (ho : Relation.ReflTransGen net.evolve n o) :
    Rely net monotone t { t with net := o } ∧
      Flooded deadline s o calls { t with net := o } := by
  rw [← h.net] at ho
  exact ⟨.intro t t.now t.stop o (fun _ => Nat.le_refl _) id ho, h.now, h.stop, rfl, h.calls⟩

-- However long a chain of datagrams the network can hand over, ping_receive() takes it all.
theorem ping_receive_flooded (host : Endian) (monotone : Prop)
    (hlate : overdue deadline s.now s.stop = true)
    (hlog : s.log = []) {m : N} (hm : s.net = m) {ds : List Datagram} (h : Delivers net m ds n) :
    ∃ t, Reach (world net monotone) (ping_receive host, s) (ping_receive host, t) ∧
      Flooded deadline s n ds.length t := by
  induction h with
  | none hn =>
      have hstart : Flooded deadline s m 0 s := ⟨rfl, rfl, hm, by rw [hlog]; rfl⟩
      obtain ⟨hrely, hflooded⟩ := hstart.evolve monotone hn
      exact ⟨_, .of_step (.env hrely), hflooded⟩
  | @next ds d n n' o _ hd ho ih =>
      obtain ⟨t, ht, hflooded⟩ := ih
      have hreceived := hflooded.received hlate t.ctx.recvbuf_len d n'
      obtain ⟨u, hu, hhandled⟩ := receipt_flooded host net t.ctx
        (min d.length t.ctx.recvbuf_len) hreceived
      have hround : Reach (world net monotone) (receive_round host, t) (.ret (.inl ()), u) := by
        rw [receive_round_eq]
        have hcall := Perform.received t.ctx.recvbuf_len t d n' (hflooded.net ▸ hd)
        refine Reach.get.trans (Reach.trans (Reach.perform hcall) ?_)
        exact idle_reach hu
      obtain ⟨hrely, hnext⟩ := hhandled.evolve monotone ho
      exact ⟨_, ht.trans ((Reach.of_step .loop).trans ((hround.bind _).trans
        (.of_step (.env hrely)))), hnext⟩

-- One more call finds the socket dry.
theorem ping_receive_outlasts (host : Endian) (monotone : Prop)
    (hlate : overdue deadline s.now s.stop = true)
    (hlog : s.log = []) {ds : List Datagram} (h : Delivers net s.net ds n) :
    ∃ q t, Reach (world net monotone) (ping_receive host, s) (q, t) ∧
      late_calls deadline t.log = ds.length + 1 := by
  obtain ⟨t, ht, hflooded⟩ := ping_receive_flooded host monotone hlate hlog rfl h
  have hdry : Perform net _ t _ _ := .receiveFailed t.ctx.recvbuf_len t .EAGAIN
  have hround : Reach (world net monotone) (receive_round host, t)
      (.ret (.inr 0), t.record (.receiveFailed .EAGAIN)) := by
    rw [receive_round_eq]
    refine Reach.get.trans (Reach.trans (Reach.perform hdry) ?_)
    exact .refl _ _
  refine ⟨_, _, ht.trans ((Reach.of_step .loop).trans (hround.bind _)), ?_⟩
  rw [State.record, late_calls_cons, hflooded.now, hflooded.stop, hlate, hflooded.calls]
  rfl

end Flooded

-- What ping_receive() still calls once the flag is set or the deadline has passed has a bound
-- if, and only if, what the network can hand over one after the other has one.
theorem late_calls_bounded_iff (host : Endian) (net : Network N) (monotone : Prop) (s : State N)
    (most : Nat) :
    (∀ q t, Reach (world net monotone) (ping_receive host, s.fresh) (q, t) →
      late_calls s.sched.deadline t.log ≤ most + 1) ↔
      ∀ ds n, Delivers net s.net ds n → ds.length ≤ most := by
  constructor
  · intro hcalls ds n hds
    -- In one of the runs the flag is set at once.
    have hset : Rely net monotone s.fresh { s.fresh with stop := true } :=
      .intro s.fresh s.now true s.net (fun _ => Nat.le_refl _) (fun _ => rfl) .refl
    have hlate : overdue s.sched.deadline s.now true = true := rfl
    obtain ⟨q, t, ht, hcount⟩ := ping_receive_outlasts
      (s := { s.fresh with stop := true }) host monotone hlate rfl hds
    have hle := hcalls q t ((Reach.of_step (.env hset)).trans ht)
    omega
  · intro hdelivers q t hr
    have hstart : Fed net s.net 0 s.fresh := ⟨[], .none .refl, Nat.le_refl _⟩
    obtain ⟨ds, hds, hle⟩ := (ping_receive_fed host hstart q t hr).inv
    exact (late_calls_le _ _).trans (hle.trans (Nat.succ_le_succ (hdelivers ds t.net hds)))

-- -t 1, a second after the deadline.
def past_deadline : State Unit :=
  { loopback { Flags.zero with has_timeout := true, timeout := 1 } with
    sched := ⟨.finite 1000, .finite 1000, .finite 0, 1⟩
    now := 2000000000 }

theorem free_delivers (ds : List Datagram) : Delivers Network.free () ds () := by
  induction ds with
  | nil => exact .none .refl
  | cons d ds ih => exact ih.next trivial .refl

-- The noise that keeps coming in is taken however long it goes on.
theorem late_calls_unbounded :
    ¬ ∃ most, ∀ q t, Reach (world Network.free True) (ping_receive .little, past_deadline) (q, t) →
      late_calls past_deadline.sched.deadline t.log ≤ most := by
  rintro ⟨most, hcalls⟩
  have hlate :
      overdue past_deadline.sched.deadline past_deadline.now past_deadline.stop = true := by
    decide +kernel
  obtain ⟨q, t, ht, hcount⟩ := ping_receive_outlasts .little True hlate rfl
    (free_delivers (List.replicate most noise))
  have hle := hcalls q t ht
  rw [List.length_replicate] at hcount
  omega

end FtPing
