import FtPing.Core.Loop
import FtPing.Core.Context
import FtPing.Flow.Emission
import FtPing.Interaction.Coupling
import FtPing.Net.Access
import FtPing.Net.Hosts
import FtPing.Net.Judgement

namespace FtPing

open Bytes Interaction

-- Two states of the same run on two hosts: the context has its id in the order of the host, and
-- what the two buffers hold may be different.
def Ctx.twin (ctx : Ctx) (id : UInt16) (pkt : Buffer (IcmpHdr.size + ctx.payload_len))
    (recvbuf : Buffer ctx.recvbuf_len) : Ctx :=
  { ctx with id := id, pkt := pkt, recvbuf := recvbuf }

structure Movable (host host' : Endian) (ctx : Ctx) : Prop where
  orderless : Orderless host host' ctx
  packet : IcmpHdr.size + ctx.payload_len ≤ 131074
  datagram : ctx.recvbuf_len ≤ 131074

def Twin (host host' : Endian) {N : Type} (s s' : State N) : Prop :=
  ∃ id pkt recvbuf, s' = { s with ctx := s.ctx.twin id pkt recvbuf } ∧
    store16 host' id = store16 host s.ctx.id ∧ Movable host host' s.ctx

variable {N : Type} {net : Network N} {monotone : Prop} {host host' : Endian} {s s' t : State N}

theorem Twin.addressed (h : Twin host host' s s') :
    s'.ctx.flags = s.ctx.flags ∧ s'.ctx.dst = s.ctx.dst := by
  obtain ⟨id, pkt, recvbuf, rfl, -, -⟩ := h
  exact ⟨rfl, rfl⟩

-- What is known of two such states is about their contexts.
def Knows (host host' : Endian) (known : Ctx → Ctx → Prop) (s s' : State N) : Prop :=
  Twin host host' s s' ∧ known s.ctx s'.ctx

theorem Twin.knows (h : Twin host host' s s') :
    Knows host host' (fun _ _ => True) s s' := ⟨h, trivial⟩

theorem Knows.stable {known : Ctx → Ctx → Prop} (h : Knows host host' known s s')
    (hr : Rely net monotone s t) :
    ∃ t', Rely net monotone s' t' ∧ Knows host host' known t t' := by
  obtain ⟨⟨id, pkt, recvbuf, rfl, hid, hmovable⟩, hknown⟩ := h
  cases hr with
  | intro now stop n hnow hstop hnet =>
      exact ⟨_, .intro _ now stop n hnow hstop hnet, ⟨id, pkt, recvbuf, rfl, hid, hmovable⟩, hknown⟩

-- The calls that have nothing to do with the receive buffer.
def plain : Sys → Prop
  | .recvfrom _ => False
  | .load _ _ => False
  | .store _ _ => False
  | _ => True

-- They do the same in either.
theorem Knows.perform {known : Ctx → Ctx → Prop} (h : Knows host host' known s s') {e : Sys}
    {a : Ans e} (he : plain e) (hsys : Perform net e s a t) :
    ∃ t', Perform net e s' a t' ∧ Knows host host' known t t' := by
  obtain ⟨⟨id, pkt, recvbuf, rfl, hid, hmovable⟩, hknown⟩ := h
  cases hsys with
  | sent buf dst _ n htransmit =>
      exact ⟨_, .sent buf dst _ n htransmit, ⟨id, pkt, recvbuf, rfl, hid, hmovable⟩, hknown⟩
  | received len _ d n _ => exact he.elim
  | receiveFailed len _ errno => exact he.elim
  | load offset length _ => exact he.elim
  | store offset bytes _ => exact he.elim
  | _ => exact ⟨_, by constructor, ⟨id, pkt, recvbuf, rfl, hid, hmovable⟩, hknown⟩

section Rules

variable {α β : Type} {known : Ctx → Ctx → Prop}

abbrev Paired (net : Network N) (monotone : Prop) (host host' : Endian) (p p' : Ping N α)
    (post : α → α → State N → State N → Prop) (s s' : State N) : Prop :=
  Coupled (world net monotone) (world net monotone) (Twin host host') p p' post s s'

theorem paired_ret {a : α} {post : α → α → State N → State N → Prop}
    (h : Knows host host' known s s') (hpost : ∀ t t', Knows host host' known t t' → post a a t t') :
    Paired net monotone host host' (.ret a) (.ret a) post s s' :=
  coupled_ret (fun _ _ _ ht hr => ht.stable hr) (fun _ _ ht => ht.1) h hpost

theorem paired_get {f f' : State N → Ping N α} {post : α → α → State N → State N → Prop}
    (h : Knows host host' known s s')
    (hnext : ∀ t t', Knows host host' known t t' →
      Paired net monotone host host' (f t) (f' t') post t t') :
    Paired net monotone host host' (Prog.get.bind f) (Prog.get.bind f') post s s' :=
  coupled_act (fun _ _ _ ht hr => ht.stable hr) (fun _ _ ht => ht.1) h hnext

theorem paired_modify {update update' : State N → State N} {f f' : Unit → Ping N α}
    {post : α → α → State N → State N → Prop} {known' : Ctx → Ctx → Prop}
    (h : Knows host host' known s s')
    (hupdate : ∀ t t', Knows host host' known t t' →
      Knows host host' known' (update t) (update' t'))
    (hnext : ∀ t t', Knows host host' known' t t' →
      Paired net monotone host host' (f ()) (f' ()) post t t') :
    Paired net monotone host host' ((Prog.modify update).bind f) ((Prog.modify update').bind f')
      post s s' :=
  coupled_act (fun _ _ _ ht hr => ht.stable hr) (fun _ _ ht => ht.1) h
    fun t t' ht => hnext _ _ (hupdate t t' ht)

theorem paired_call {e : Sys} (he : plain e) {next next' : Ans e → Ping N α}
    {post : α → α → State N → State N → Prop} (h : Knows host host' known s s')
    (hnext : ∀ a t t', Knows host host' known t t' →
      Paired net monotone host host' (next a) (next' a) post t t') :
    Paired net monotone host host' (.call e next) (.call e next') post s s' := by
  refine coupled_call (fun _ _ _ ht hr => ht.stable hr) (fun _ _ ht => ht.1) h
    fun t t' a u ht hsys => ?_
  obtain ⟨u', hsys', hu⟩ := ht.perform he hsys
  exact ⟨a, u', hsys', hnext a u u' hu⟩

end Rules

section Matched

variable {α β : Type}

-- Two programs that go together from any such states, and end with the same value.
def Matched (net : Network N) (monotone : Prop) (host host' : Endian) (p p' : Ping N α) : Prop :=
  ∀ s s', Twin host host' s s' →
    Paired net monotone host host' p p' (fun a b t t' => b = a ∧ Twin host host' t t') s s'

theorem matched_ret (a : α) : Matched net monotone host host' (.ret a) (.ret a) :=
  fun _ _ h => paired_ret h.knows fun _ _ ht => ⟨rfl, ht.1⟩

theorem matched_bind {p p' : Ping N α} {f f' : α → Ping N β}
    (h : Matched net monotone host host' p p')
    (hf : ∀ a, Matched net monotone host host' (f a) (f' a)) :
    Matched net monotone host host' (p.bind f) (p'.bind f') := by
  intro s s' hs
  refine coupled_bind ((h s s' hs).mono ?_)
  rintro a _ t t' ⟨rfl, ht⟩
  exact hf _ t t' ht

theorem matched_perform {e : Sys} (he : plain e) :
    Matched net monotone host host' (Prog.perform e) (Prog.perform e) :=
  fun _ _ h => paired_call he h.knows fun a _ _ ht => matched_ret a _ _ ht.1

theorem matched_get {f f' : State N → Ping N α}
    (h : ∀ s s', Twin host host' s s' → Matched net monotone host host' (f s) (f' s')) :
    Matched net monotone host host' (Prog.get.bind f) (Prog.get.bind f') :=
  fun _ _ hs => paired_get hs.knows fun t t' ht => h t t' ht.1 t t' ht.1

theorem matched_modify {update update' : State N → State N}
    (h : ∀ s s', Twin host host' s s' → Twin host host' (update s) (update' s')) :
    Matched net monotone host host' (Prog.modify update) (Prog.modify update') :=
  fun _ _ hs => coupled_act
    (fun t t' _ (ht : Knows host host' (fun _ _ => True) t t') hr => ht.stable hr)
    (fun _ _ ht => ht.1) hs.knows fun t t' ht => matched_ret () _ _ (h t t' ht.1)

theorem matched_ite {c : Prop} [Decidable c] {p p' q q' : Ping N α}
    (hp : Matched net monotone host host' p p') (hq : Matched net monotone host host' q q') :
    Matched net monotone host host' (if c then p else q) (if c then p' else q') := by
  split_ifs
  · exact hp
  · exact hq

theorem matched_loop {ι : Type} {body body' : ι → Ping N (ι ⊕ β)} (index : ι)
    {next next' : β → Ping N α} (hbody : ∀ i, Matched net monotone host host' (body i) (body' i))
    (hnext : ∀ b, Matched net monotone host host' (next b) (next' b)) :
    Matched net monotone host host' (.loop body index next) (.loop body' index next') := by
  intro s s' hs
  refine coupled_loop (fun i k t t' => k = i ∧ Twin host host' t t') (fun i k t t' u ht hr => ?_)
    (fun i k t t' ht => ht.2) ⟨rfl, hs⟩ fun i k t t' ht => ?_
  · obtain ⟨u', hu, hknows⟩ := ht.2.knows.stable hr
    exact ⟨u', hu, ht.1, hknows.1⟩
  · obtain ⟨rfl, ht⟩ := ht
    refine (hbody _ t t' ht).mono ?_
    rintro _ r u u' ⟨rfl, hu⟩
    cases r with
    | inl again => exact .inl ⟨rfl, hu⟩
    | inr value => exact .inr (hnext value u u' hu)

end Matched

section Send

variable (seq : UInt16)

theorem Twin.header (h : Twin host host' s s') :
    Knows host host' (fun c c' => Headed host c seq c.pkt.bytes ∧ Headed host' c' seq c'.pkt.bytes)
      (s.onCtx (write_header host seq)) (s'.onCtx (write_header host' seq)) := by
  obtain ⟨id, pkt, recvbuf, rfl, hid, hmovable⟩ := h
  exact ⟨⟨id, _, recvbuf, rfl, hid, hmovable.orderless, hmovable.packet, hmovable.datagram⟩,
    write_header_take host seq _, write_header_take host' seq _⟩

theorem Twin.payload (now : Timespec) (h : Twin host host' s s') :
    Twin host host' (s.onCtx (write_payload host seq now))
      (s'.onCtx (write_payload host' seq now)) := by
  obtain ⟨id, pkt, recvbuf, rfl, hid, hmovable⟩ := h
  obtain ⟨built, hleft⟩ := write_payload_eq host seq now s.ctx
  obtain ⟨built', hright⟩ := write_payload_eq host' seq now (s.ctx.twin id pkt recvbuf)
  rw [State.onCtx, State.onCtx, hleft, hright]
  exact ⟨id, built', recvbuf, rfl, hid, hmovable.orderless, hmovable.packet, hmovable.datagram⟩

-- With the payload the packet is the same but for the checksum field.
theorem Knows.payload (now : Timespec)
    (h : Knows host host'
      (fun c c' => Headed host c seq c.pkt.bytes ∧ Headed host' c' seq c'.pkt.bytes) s s') :
    Knows host host' (fun c c' => blank host c.pkt.bytes = echo_request host c seq now 0 ∧
        blank host' c'.pkt.bytes = echo_request host' c' seq now 0)
      (s.onCtx (write_payload host seq now)) (s'.onCtx (write_payload host' seq now)) := by
  have hblank : ∀ (host : Endian) (ctx : Ctx), Headed host ctx seq ctx.pkt.bytes →
      blank host (write_payload host seq now ctx).pkt.bytes =
        echo_request host (write_payload host seq now ctx) seq now 0 := by
    intro host ctx hheaded
    obtain ⟨built, hbuilt⟩ := write_payload_eq host seq now ctx
    have hsame : echo_request host (write_payload host seq now ctx) seq now 0 =
        echo_request host ctx seq now 0 := by
      rw [hbuilt]
      rfl
    rw [hsame]
    refine blank_of_headed ?_ (write_payload_drop host seq now ctx)
    rw [Headed, write_payload_take]
    exact hheaded
  exact ⟨h.1.payload seq now, hblank host s.ctx h.2.1, hblank host' s'.ctx h.2.2⟩

-- And with the checksum it is the same.
theorem Knows.checksum {now : Timespec}
    (h : Knows host host' (fun c c' => blank host c.pkt.bytes = echo_request host c seq now 0 ∧
      blank host' c'.pkt.bytes = echo_request host' c' seq now 0) s s') :
    Knows host host' (fun c c' => c'.pkt.bytes = c.pkt.bytes)
      (s.onCtx (write_checksum host)) (s'.onCtx (write_checksum host')) := by
  obtain ⟨⟨id, pkt, recvbuf, rfl, hid, hmovable⟩, hleft, hright⟩ := h
  refine ⟨⟨id, _, recvbuf, rfl, hid, hmovable.orderless, hmovable.packet, hmovable.datagram⟩, ?_⟩
  have hrequest : echo_request host' (s.ctx.twin id pkt recvbuf) seq now
      (ft_checksum host' (echo_request host' (s.ctx.twin id pkt recvbuf) seq now 0)) =
        echo_request host s.ctx seq now (ft_checksum host (echo_request host s.ctx seq now 0)) :=
    echo_request_sealed_any (s.ctx.twin id pkt recvbuf) hmovable.orderless hid rfl rfl
      hmovable.packet seq now
  exact (sealed_of_blank hright).trans (hrequest.trans (sealed_of_blank hleft).symm)

theorem matched_send_one (site : SendSite) :
    Matched net monotone host host' (send_one host site seq) (send_one host' site seq) := by
  intro s s' hs
  unfold send_one fill_payload
  simp only [Prog.bind_eq, Prog.bind_assoc]
  refine paired_call (by trivial) hs.knows fun _ t t' ht => ?_
  refine paired_modify ht (fun u u' hu => hu.1.header seq) fun u u' hu => ?_
  refine paired_call (by trivial) hu fun now v v' hv => ?_
  refine paired_modify hv (fun w w' hw => hw.payload seq now) fun w w' hw => ?_
  refine paired_modify hw (fun x x' hx => hx.checksum seq) fun x x' hx => ?_
  refine paired_get hx fun y y' hy => ?_
  have hbytes : y'.ctx.pkt.bytes = y.ctx.pkt.bytes := hy.2
  obtain ⟨hflags, hdst⟩ := hy.1.addressed
  rw [hbytes, hdst, hflags]
  refine paired_call (by trivial) hy fun outcome z z' hz => ?_
  cases outcome with
  | some errno => exact matched_bind (matched_perform (by trivial)) (fun _ => matched_ret _) z z' hz.1
  | none =>
      refine matched_bind (matched_perform (by trivial)) (fun _ => matched_ite ?_ (matched_ret _))
        z z' hz.1
      exact matched_bind (matched_perform (by trivial)) fun _ => matched_ret _

end Send

section Receive

variable {α : Type} {d : Datagram}

-- A program that stays within what is computed by `within` can run to its end by itself.
theorem reach_within {n : Nat} {p : Ping N α} {a : α} {out : List UInt8} {s : State N}
    (h : within n p s.ctx.recvbuf.bytes = some (a, out)) :
    ∃ buf : Buffer s.ctx.recvbuf_len, buf.bytes = out ∧
      Reach (world net monotone) (p, s) (.ret a, s.withRecvbuf buf) := by
  induction p generalizing s with
  | ret value =>
      cases h
      exact ⟨s.ctx.recvbuf, rfl, .refl _ _⟩
  | act update next ih => cases h
  | loop body index next hbody ih => cases h
  | call e next ih =>
      cases e with
      | load offset length =>
          simp only [within_call_load] at h
          split_ifs at h
          obtain ⟨buf, hbuf, hreach⟩ := ih _ h
          have hload : Perform net (.load offset length) s _ s := .load offset length s
          exact ⟨buf, hbuf, (Reach.of_step (.call hload)).trans hreach⟩
      | store offset values =>
          simp only [within_call_store] at h
          split_ifs at h
          have hstored : within n (next ()) (s.withRecvbuf
              (s.ctx.recvbuf.store offset values)).ctx.recvbuf.bytes = some (a, out) := h
          obtain ⟨buf, hbuf, hreach⟩ := ih () hstored
          have hstore : Perform net (.store offset values) s () _ := .store offset values s
          exact ⟨buf, hbuf, (Reach.of_step (.call hstore)).trans hreach⟩
      | _ => cases h

theorem Twin.scratch (h : Twin host host' s s') (buf : Buffer s.ctx.recvbuf_len) :
    Twin host host' (s.withRecvbuf buf) s' := by
  obtain ⟨id, pkt, recvbuf, rfl, hid, hmovable⟩ := h
  exact ⟨id, pkt, recvbuf, rfl, hid, hmovable.orderless, hmovable.packet, hmovable.datagram⟩

theorem Twin.scratch_other (h : Twin host host' s s') (buf : Buffer s'.ctx.recvbuf_len) :
    Twin host host' s (s'.withRecvbuf buf) := by
  obtain ⟨id, pkt, recvbuf, rfl, hid, hmovable⟩ := h
  exact ⟨id, pkt, buf, rfl, hid, hmovable⟩

-- Both buffers begin with the datagram `d`.
def Holding (d : Datagram) (c c' : Ctx) : Prop :=
  (∃ back, c.recvbuf.bytes = d ++ back) ∧ ∃ back, c'.recvbuf.bytes = d ++ back

theorem within_held {p : Ping N α} {a : α} (h : within d.length p d = some (a, d))
    {bytes back : List UInt8} (hbytes : bytes = d ++ back) :
    within d.length p bytes = some (a, bytes) := by
  rw [hbytes, within_append p d back (Nat.le_refl _), h]
  rfl

-- Each of the two looks at the datagram in its own way, and they come to the same.
theorem paired_look {p p' : Ping N α} {a : α} (h : within d.length p d = some (a, d))
    (h' : within d.length p' d = some (a, d)) (hs : Knows host host' (Holding d) s s') :
    Paired net monotone host host' p p'
      (fun b b' t t' => b' = b ∧ b = a ∧ Knows host host' (Holding d) t t') s s' := by
  intro q t hr
  obtain ⟨htwin, ⟨back, hback⟩, ⟨back', hback'⟩⟩ := hs
  let matched : State N → Prop := fun u =>
    ∃ u', Rely net monotone s' u' ∧ Twin host host' u u'
  have hsafe : Safe (world net monotone) matched (fun _ _ => True) p
      (fun b u => b = a ∧ matched u ∧ u.ctx.recvbuf.bytes = d ++ back) s := by
    refine safe_within (fun u v hu hr => ?_) (fun u buf hu => ?_) (fun _ hu => hu)
      (fun _ _ _ _ _ => trivial) (fun _ _ _ _ _ => trivial) (within_held h rfl)
      ⟨s', .refl net monotone s', htwin⟩ hback
    · obtain ⟨u', hu', htwin⟩ := hu
      obtain ⟨v', hv', hknows⟩ := htwin.knows.stable hr
      exact ⟨v', hu'.trans _ _ _ _ _ hv', hknows.1⟩
    · obtain ⟨u', hu', htwin⟩ := hu
      exact ⟨u', hu', htwin.scratch buf⟩
  have hgood := hsafe q t hr
  obtain ⟨u', hu', htwin⟩ := hgood.inv
  have hwait : Reach (world net monotone) (p', s') (p', u') := .of_step (.env hu')
  cases q with
  | ret b =>
      obtain ⟨rfl, -, hbytes⟩ := hgood.2
      have hheld : u'.ctx.recvbuf.bytes = d ++ back' := by rw [hu'.ctx_eq, hback']
      obtain ⟨buf, hbuf, hreach⟩ : ∃ buf : Buffer u'.ctx.recvbuf_len,
          buf.bytes = u'.ctx.recvbuf.bytes ∧
            Reach (world net monotone) (p', u') (.ret b, u'.withRecvbuf buf) :=
        reach_within (within_held h' hheld)
      refine ⟨_, _, hwait.trans hreach, htwin.scratch_other buf, fun c hc => ?_⟩
      cases hc
      exact ⟨_, rfl, rfl, rfl, htwin.scratch_other buf, ⟨back, hbytes⟩, back', hbuf.trans hheld⟩
  | act update next => exact ⟨p', u', hwait, htwin, nofun⟩
  | call e next => exact ⟨p', u', hwait, htwin, nofun⟩
  | loop body index next => exact ⟨p', u', hwait, htwin, nofun⟩

-- recvfrom() puts the same datagram into either.
theorem Twin.receive (h : Twin host host' s s') (datagram : Datagram) (n : N) :
    Knows host host' (Holding (datagram.take s.ctx.recvbuf_len))
      { (s.receive s.ctx.recvbuf_len datagram).record (.received datagram) with net := n }
      { (s'.receive s'.ctx.recvbuf_len datagram).record (.received datagram) with net := n } := by
  obtain ⟨id, pkt, recvbuf, rfl, hid, hmovable⟩ := h
  exact ⟨⟨id, pkt, _, rfl, hid, hmovable.orderless, hmovable.packet, hmovable.datagram⟩,
    receive_holds s datagram, receive_holds { s with ctx := s.ctx.twin id pkt recvbuf } datagram⟩

theorem paired_print_option (line : Option Line) {known : Ctx → Ctx → Prop}
    (hs : Knows host host' known s s') :
    Paired net monotone host host' (print_option line) (print_option line)
      (fun a b t t' => b = a ∧ Twin host host' t t') s s' := by
  cases line with
  | none => exact matched_ret () s s' hs.1
  | some line => exact matched_perform (by trivial) s s' hs.1

theorem paired_report_reply (ctx : Ctx) (hcomplete : d.complete = true) (rtt : ℚ)
    (hs : Knows host host' (Holding d) s s') :
    Paired net monotone host host' (report_reply ctx 0 (d.length - d.ihl) (d.sequence host) rtt)
      (report_reply ctx 0 (d.length - d.ihl) (d.sequence host) rtt)
      (fun a b t t' => b = a ∧ Twin host host' t t') s s' := by
  have hline := within_report_line host ctx d hcomplete rtt (N := N)
  rw [report_reply_eq]
  refine paired_call (by trivial) hs fun _ t t' ht => ?_
  rw [Prog.ret_bind]
  refine coupled_bind ((paired_look hline hline ht).mono ?_)
  rintro _ line u u' ⟨rfl, -, hu⟩
  exact paired_print_option line hu

-- With the verdict given the rest of the round is the same on either host.
theorem paired_settle (ctx : Ctx) (hs : Knows host host' (Holding d) s s') :
    Paired net monotone host host' (settle ctx d.length (verdict host ctx.flags ctx.id d))
      (settle ctx d.length (verdict host ctx.flags ctx.id d))
      (fun a b t t' => b = a ∧ Twin host host' t t') s s' := by
  cases hverdict : verdict host ctx.flags ctx.id d with
  | ignored => exact matched_ret _ s s' hs.1
  | fault line =>
      exact matched_bind (matched_perform (by trivial)) (fun _ => matched_ret _) s s' hs.1
  | reply ihl seq =>
      obtain ⟨hreply, rfl, rfl⟩ := verdict_eq_reply host hverdict
      refine paired_call (by trivial) hs fun now t t' ht => ?_
      refine paired_call (by trivial) ht fun _ u u' hu => ?_
      have hcomplete := ((is_reply_iff host ctx.id d).mp hreply).1
      simp only [Prog.bind_eq, Prog.pure_eq, Prog.ret_bind]
      refine coupled_bind ((paired_report_reply ctx hcomplete _ hu).mono ?_)
      rintro _ _ v v' ⟨-, hv⟩
      exact matched_ret _ v v' hv

theorem matched_classify (errno : Errno) :
    Matched net monotone host host' (classify_recv_error errno) (classify_recv_error errno) := by
  refine matched_ite (matched_ret 0) (matched_ite (matched_ret 0) ?_)
  exact matched_bind (matched_perform (by trivial)) fun _ => matched_ret (-1)

theorem matched_receive_round :
    Matched net monotone host host' (receive_round host) (receive_round host') := by
  intro s s' hs
  rw [receive_round_eq, receive_round_eq]
  refine paired_get hs.knows fun t t' ht => ?_
  have hknows : Knows host host' (fun c c' => c = t.ctx ∧ c' = t'.ctx) t t' := ⟨ht.1, rfl, rfl⟩
  refine coupled_call (fun _ _ _ ht hr => ht.stable hr) (fun _ _ ht => ht.1) hknows
    fun u u' answer v hu hsys => ?_
  obtain ⟨htwin, hctx, hctx'⟩ := hu
  cases hsys with
  | receiveFailed len _ errno =>
      refine ⟨.error errno, _, .receiveFailed _ u' errno, ?_⟩
      have hfailed : Twin host host' (u.record (.receiveFailed errno))
          (u'.record (.receiveFailed errno)) := by
        obtain ⟨id, pkt, recvbuf, rfl, hid, hmovable⟩ := htwin
        exact ⟨id, pkt, recvbuf, rfl, hid, hmovable⟩
      exact matched_bind (matched_classify errno) (fun _ => matched_ret _) _ _ hfailed
  | received len _ whole n hdeliver =>
      rw [← hctx, ← hctx']
      have hheld := htwin.receive whole n
      have hlength : min whole.length u.ctx.recvbuf_len =
          (whole.take u.ctx.recvbuf_len).length := by rw [List.length_take, Nat.min_comm]
      obtain ⟨id, pkt, recvbuf, rfl, hid, hmovable⟩ := htwin
      refine ⟨.ok (min whole.length u.ctx.recvbuf_len), _,
        .received _ { u with ctx := u.ctx.twin id pkt recvbuf } whole n hdeliver, ?_⟩
      have hshort : (whole.take u.ctx.recvbuf_len).length ≤ 131074 := by
        rw [List.length_take]
        exact (Nat.min_le_left _ _).trans hmovable.datagram
      have hjudge := within_judge host u.ctx (whole.take u.ctx.recvbuf_len) (N := N)
      have hjudge' := within_judge host' (u.ctx.twin id pkt recvbuf)
        (whole.take u.ctx.recvbuf_len) (N := N)
      have hverdict : verdict host' (u.ctx.twin id pkt recvbuf).flags
          (u.ctx.twin id pkt recvbuf).id (whole.take u.ctx.recvbuf_len) =
            verdict host u.ctx.flags u.ctx.id (whole.take u.ctx.recvbuf_len) :=
        verdict_any host host' hid u.ctx.flags hshort
      rw [hverdict] at hjudge'
      simp only [Prog.bind_eq, Prog.ret_bind, hlength]
      refine coupled_bind ((paired_look hjudge hjudge' hheld).mono ?_)
      rintro v _ w w' ⟨rfl, rfl, hw⟩
      have hsame : ∀ v, (settle (u.ctx.twin id pkt recvbuf) (whole.take u.ctx.recvbuf_len).length v :
          Ping N (Unit ⊕ Int)) = settle u.ctx (whole.take u.ctx.recvbuf_len).length v := by
        intro v
        cases v <;> rfl
      rw [hsame]
      exact paired_settle u.ctx hw

theorem matched_ping_receive :
    Matched net monotone host host' (ping_receive host) (ping_receive host') :=
  matched_loop () (fun _ => matched_receive_round) fun _ => matched_ret _

end Receive

end FtPing
