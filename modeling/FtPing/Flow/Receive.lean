import FtPing.Flow.Send

namespace FtPing.Flow

open Bytes Interaction

variable {N : Type} {host : Endian} {net : Network N} {monotone : Prop} {p₀ : Point}
  {s₀ : State N} {kept : Prop} {α : Type}

theorem Intact.stable {t u : State N} (h : Intact t) (hr : Rely net monotone t u) : Intact u := by
  cases hr
  exact h

-- A state at the point `p` of a round, in which `d` is what came in of the last datagram and
-- nothing but the receive buffer is changed in the context.
structure Round (host : Endian) (net : Network N) (monotone : Prop) (p₀ : Point) (s₀ : State N)
    (p : Point) (ctx : Ctx) (d : Datagram) (t : State N) : Prop where
  path : Path host net monotone p₀ s₀ p t
  latest : ∃ whole, latest t.log = some whole ∧ d = whole.take t.ctx.recvbuf_len
  agrees : ctx.agrees t.ctx

section Round

variable {p q : Point} {ctx : Ctx} {d : Datagram} {t u : State N}

theorem Round.step (h : Round host net monotone p₀ s₀ p ctx d t)
    (he : Edge host net monotone p t q u) (hlog : Flow.latest u.log = Flow.latest t.log)
    (hctx : u.ctx = t.ctx) : Round host net monotone p₀ s₀ q ctx d u :=
  ⟨h.path.step he, by rw [hlog, hctx]; exact h.latest, by rw [hctx]; exact h.agrees⟩

theorem Round.stable (h : Round host net monotone p₀ s₀ p ctx d t)
    (hr : Rely net monotone t u) : Round host net monotone p₀ s₀ p ctx d u :=
  h.step (.env p t u hr) (by cases hr; rfl) hr.ctx_eq

theorem Round.scratch (h : Round host net monotone p₀ s₀ p ctx d t)
    (buf : Buffer t.ctx.recvbuf_len) :
    Round host net monotone p₀ s₀ p ctx d (t.withRecvbuf buf) :=
  ⟨h.path.step (.scratch p t buf), h.latest, h.agrees.withRecvbuf buf⟩

theorem Round.intact (h : Round host net monotone p₀ s₀ p ctx d t) (hheld : t.holds d) :
    Intact t := by
  intro whole hwhole
  obtain ⟨other, hother, rfl⟩ := h.latest
  rw [hwhole] at hother
  cases hother
  exact hheld

-- What only reads the datagram and puts back what it writes.
theorem follows_look {prog : Ping N α} {a : α}
    (h : within d.length prog d = some (a, d)) (ht : Round host net monotone p₀ s₀ p ctx d t)
    (hheld : t.holds d) :
    Follows host net monotone p₀ s₀ kept prog
      (fun b u => b = a ∧ Round host net monotone p₀ s₀ p ctx d u ∧ u.holds d) t := by
  obtain ⟨back, hback⟩ := hheld
  have hall : within d.length prog (d ++ back) = some (a, d ++ back) := by
    rw [within_append prog d back (Nat.le_refl _), h]
    rfl
  have hlength : ∀ u, Round host net monotone p₀ s₀ p ctx d u →
      ∃ whole, Flow.latest u.log = some whole ∧
        d.length = min whole.length u.ctx.recvbuf_len := by
    intro u hu
    obtain ⟨whole, hwhole, rfl⟩ := hu.latest
    exact ⟨whole, hwhole, by rw [List.length_take, Nat.min_comm]⟩
  refine (safe_within (fun u v hu hr => hu.stable hr) (fun u buf hu => hu.scratch buf)
    (fun u hu => ⟨p, hu.path⟩) ?_ ?_ hall ht hback).mono
    fun b u hu => ⟨hu.1, hu.2.1, back, hu.2.2⟩
  · intro offset length u hu hle
    obtain ⟨whole, hwhole, hmin⟩ := hlength u hu
    exact ⟨whole, hwhole, hmin ▸ hle⟩
  · intro offset values u hu hle
    obtain ⟨whole, hwhole, hmin⟩ := hlength u hu
    exact ⟨whole, hwhole, hmin ▸ hle⟩

-- What is to hold when a round is over: the drain goes on with the buffer intact.
def Again (host : Endian) (net : Network N) (monotone : Prop) (p₀ : Point) (s₀ : State N)
    (before : Int) (t : State N) : Prop :=
  Path host net monotone p₀ s₀ (.draining before) t ∧ Intact t

theorem Round.again {before : Int}
    (h : Round host net monotone p₀ s₀ (.draining before) ctx d t) (hheld : t.holds d) :
    Again host net monotone p₀ s₀ before t :=
  ⟨h.path, h.intact hheld⟩

theorem follows_report_reply (before : Int) (rtt : ℚ) (hcomplete : d.complete = true)
    (ht : Round host net monotone p₀ s₀ (.recorded before d rtt) ctx d t) (hheld : t.holds d) :
    Follows host net monotone p₀ s₀ kept
      (report_reply ctx 0 (d.length - d.ihl) (d.sequence host) rtt)
      (fun _ u => Again host net monotone p₀ s₀ before u) t := by
  have hlength : d.length - d.ihl = d.message.length := List.length_drop.symm
  have hline := within_report_line host ctx d hcomplete rtt (N := N)
  rw [report_reply_eq]
  rw [hlength] at hline ⊢
  refine follows_call ht.path (fun _ _ => trivial) fun u _ v _ hr hsys => ?_
  cases hsys
  have hu := (ht.stable hr).step (.enter_report before d rtt u) rfl rfl
  rw [Prog.ret_bind]
  refine safe_bind ((follows_look hline hu (hheld.congr hr.ctx_eq)).mono ?_)
  rintro line w ⟨rfl, hw, hheld⟩
  have hflags : w.ctx.flags = ctx.flags := by
    obtain ⟨buf, hbuf⟩ := hw.agrees
    rw [hbuf]
  rw [← hflags]
  cases hreply : reply_line host w.ctx.flags d rtt with
  | none =>
      have hback := hw.step (.no_report before d rtt w hreply) rfl rfl
      exact follows_ret hback.path fun x _ hr => (hback.stable hr).again (hheld.congr hr.ctx_eq)
  | some line =>
      refine follows_call hw.path (fun _ _ => trivial) fun x _ y _ hr hsys => ?_
      cases hsys
      have hkept : x.ctx.flags = w.ctx.flags := congrArg _ hr.ctx_eq
      have hback := (hw.stable hr).step (.report before d rtt line x (hkept ▸ hreply)) rfl rfl
      exact follows_ret hback.path fun y _ hr' =>
        (hback.stable hr').again ((hheld.congr hr.ctx_eq).congr hr'.ctx_eq)

-- The rest of a round once the datagram is judged.
theorem follows_settle (before : Int)
    (ht : Round host net monotone p₀ s₀ (.judging before d) ctx d t) (hheld : t.holds d) :
    Follows host net monotone p₀ s₀ kept
      (settle ctx d.length (verdict host ctx.flags ctx.id d))
      (fun r u => r = .inl () ∧ Again host net monotone p₀ s₀ before u) t := by
  have hsame : ∀ u, Rely net monotone t u →
      u.ctx.flags = ctx.flags ∧ u.ctx.id = ctx.id ∧ u.ctx.send_ts = ctx.send_ts := by
    intro u hr
    obtain ⟨buf, hbuf⟩ := ht.agrees
    rw [hr.ctx_eq, hbuf]
    exact ⟨rfl, rfl, rfl⟩
  cases hverdict : verdict host ctx.flags ctx.id d with
  | ignored =>
      obtain ⟨hflags, hid, -⟩ := hsame t (.refl net monotone t)
      have hback := ht.step (.ignore before d t (by rw [hflags, hid]; exact hverdict)) rfl rfl
      exact follows_ret hback.path fun u _ hr =>
        ⟨rfl, (hback.stable hr).again (hheld.congr hr.ctx_eq)⟩
  | fault line =>
      refine follows_call ht.path (fun _ _ => trivial) fun u _ v _ hr hsys => ?_
      cases hsys
      obtain ⟨hflags, hid, -⟩ := hsame u hr
      have hback := (ht.stable hr).step
        (.fault before d line u (by rw [hflags, hid]; exact hverdict)) rfl rfl
      exact follows_ret hback.path fun w _ hr' =>
        ⟨rfl, (hback.stable hr').again ((hheld.congr hr.ctx_eq).congr hr'.ctx_eq)⟩
  | reply ihl seq =>
      obtain ⟨hreply, rfl, rfl⟩ := verdict_eq_reply host hverdict
      refine follows_call ht.path (fun _ _ => trivial) fun u _ v _ hr hsys => ?_
      cases hsys
      obtain ⟨-, hid, -⟩ := hsame u hr
      have htimed := (ht.stable hr).step
        (.read_receipt before d u (by rw [hid]; exact hreply)) rfl rfl
      refine follows_call htimed.path (fun _ _ => trivial) fun v _ w _ hr' hsys => ?_
      cases hsys
      have hring : v.ctx.send_ts = ctx.send_ts :=
        (congrArg _ hr'.ctx_eq).trans (hsame u hr).2.2
      have hcounted := (htimed.stable hr').step (.count_reply before d u.now v) rfl rfl
      rw [rtt, hring] at hcounted
      simp only [Prog.bind_eq, Prog.pure_eq, Prog.ret_bind]
      refine safe_bind ((follows_report_reply before _ ((is_reply_iff host ctx.id d).mp hreply).1
        hcounted ((hheld.congr hr.ctx_eq).congr hr'.ctx_eq)).mono fun _ x hx => ?_)
      exact follows_ret hx.1 fun y hy hr'' => ⟨rfl, hy, hx.2.stable hr''⟩

end Round

-- ping_receive() is left with `rc`, on the way to the caller's next step.
def Left (host : Endian) (net : Network N) (monotone : Prop) (p₀ : Point) (s₀ : State N)
    (kept : Prop) (before rc : Int) (t : State N) : Prop :=
  (kept → Intact t) ∧
    (rc = -1 ∧ Path host net monotone p₀ s₀ .finished t ∨
      rc = 0 ∧ Path host net monotone p₀ s₀ (.drained before) t)

section Left

variable {before rc : Int} {s t : State N}

theorem Left.stable {u : State N} (h : Left host net monotone p₀ s₀ kept before rc t)
    (hr : Rely net monotone t u) : Left host net monotone p₀ s₀ kept before rc u := by
  refine ⟨fun hk => (h.1 hk).stable hr, ?_⟩
  rcases h.2 with ⟨hrc, hp⟩ | ⟨hrc, hp⟩
  · exact Or.inl ⟨hrc, hp.step (.env _ t u hr)⟩
  · exact Or.inr ⟨hrc, hp.step (.env _ t u hr)⟩

theorem Left.visited (h : Left host net monotone p₀ s₀ kept before rc t) :
    Visited host net monotone p₀ s₀ t := by
  rcases h.2 with ⟨-, hp⟩ | ⟨-, hp⟩
  · exact ⟨_, hp⟩
  · exact ⟨_, hp⟩

theorem follows_left {value : α} {post : α → State N → Prop}
    (h : Left host net monotone p₀ s₀ kept before rc t)
    (hpost : ∀ u, Left host net monotone p₀ s₀ kept before rc u → post value u) :
    Follows host net monotone p₀ s₀ kept (.ret value) post t :=
  safe_ret (fun _ _ hu hr => Left.stable hu hr) (fun _ hu => hu.visited) h hpost

theorem follows_classify (errno : Errno)
    (ht : Path host net monotone p₀ s₀ (.draining before) t) (hkept : kept → Intact t) :
    Follows host net monotone p₀ s₀ kept (classify_recv_error errno)
      (fun rc u => Left host net monotone p₀ s₀ kept before rc u)
      (t.record (.receiveFailed errno)) := by
  have hquiet : drained errno = true → Follows host net monotone p₀ s₀ kept (.ret 0)
      (fun rc u => Left host net monotone p₀ s₀ kept before rc u)
      (t.record (.receiveFailed errno)) := fun h =>
    follows_left ⟨hkept, Or.inr ⟨rfl, ht.step (.recv_dry before errno t h)⟩⟩ fun _ hu => hu
  unfold classify_recv_error
  split_ifs with hagain hintr
  · exact hquiet (by rcases hagain with rfl | rfl <;> rfl)
  · exact hquiet (by subst hintr; rfl)
  · have hloud : drained errno = false := by
      simp only [not_or] at hagain
      simp [drained, hagain, hintr]
    refine follows_call (ht.step (.recv_failed before errno t hloud)) (fun _ _ => trivial)
      fun u _ v hu hr hsys => ?_
    cases hsys
    have hintact : kept → Intact u := fun h =>
      Intact.stable (t := t.record (.receiveFailed errno)) (hkept h) hr
    exact follows_left ⟨hintact, Or.inl ⟨rfl, hu.step (.complain_recv u)⟩⟩ fun _ hv => hv

theorem follows_round (hs : Path host net monotone p₀ s₀ (.draining before) s)
    (hkept : kept → Intact s) :
    Follows host net monotone p₀ s₀ kept (receive_round host)
      (fun r t =>
        match r with
        | .inl () => Again host net monotone p₀ s₀ before t
        | .inr rc => Left host net monotone p₀ s₀ kept before rc t) s := by
  rw [receive_round_eq]
  refine follows_act hs fun s hs hr₀ => ?_
  refine follows_call hs (fun t hr => ?_) fun t _ u ht hr hsys => ?_
  · exact ⟨congrArg _ hr.ctx_eq.symm, fun h => ((hkept h).stable hr₀).stable hr⟩
  · cases hsys with
    | receiveFailed _ _ errno =>
        simp only [Prog.bind_eq, Prog.ret_bind, Prog.pure_eq]
        refine safe_bind ((follows_classify errno ht
          fun h => ((hkept h).stable hr₀).stable hr).mono fun rc u hu => ?_)
        exact follows_left hu fun _ hv => hv
    | received _ _ whole n h =>
        have hctx : t.ctx = s.ctx := hr.ctx_eq
        have hlength : min whole.length t.ctx.recvbuf_len =
            (whole.take t.ctx.recvbuf_len).length := by rw [List.length_take, Nat.min_comm]
        have hround : Round host net monotone p₀ s₀ _ t.ctx (whole.take t.ctx.recvbuf_len) _ :=
          ⟨ht.step (.receive before whole t n h), ⟨whole, rfl, rfl⟩,
            (Ctx.agrees.refl t.ctx).withRecvbuf _⟩
        rw [← hctx]
        simp only [Prog.bind_eq, Prog.ret_bind, hlength]
        refine safe_bind ((follows_look (within_judge host t.ctx _) hround
          ((receive_holds t whole).congr rfl)).mono ?_)
        rintro v w ⟨rfl, hw, hheld⟩
        refine (follows_settle before hw hheld).mono ?_
        rintro r x ⟨rfl, hx⟩
        exact hx

-- The whole of ping_receive(), round by round.
theorem ping_receive_follows (hs : Path host net monotone p₀ s₀ (.draining before) s)
    (hkept : kept → Intact s) :
    Follows host net monotone p₀ s₀ kept (ping_receive host)
      (fun rc t => Left host net monotone p₀ s₀ kept before rc t) s := by
  refine safe_loop (fun _ t => Path host net monotone p₀ s₀ (.draining before) t ∧
    (kept → Intact t)) ⟨hs, hkept⟩ fun _ t ht => (follows_round ht.1 ht.2).mono ?_
  intro r u hu
  cases r with
  | inl again => exact ⟨hu.1, fun _ => hu.2⟩
  | inr rc => exact follows_left hu fun _ hv => hv

end Left

end FtPing.Flow
