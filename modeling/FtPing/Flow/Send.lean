import FtPing.Flow.Graph
import FtPing.Net.Drain

namespace FtPing.Flow

open Bytes Interaction

variable {N : Type} {host : Endian} {net : Network N} {monotone : Prop} {p₀ : Point}
  {s₀ : State N}

-- What was received last.
def latest (log : List Entry) : Option Datagram := (datagrams log).head?

-- The receive buffer still begins with what was received last.
def Intact (t : State N) : Prop :=
  ∀ d, latest t.log = some d → t.holds (d.take t.ctx.recvbuf_len)

-- What is shown of the calls along the way: an access to the receive buffer stays within what
-- was received last, and recvfrom() gets the true capacity of a buffer that is still intact,
-- where `kept` says that it was so at the start.
def Guarded (kept : Prop) : Sys → State N → Prop
  | .load offset length, t =>
      ∃ d, latest t.log = some d ∧ offset + length ≤ min d.length t.ctx.recvbuf_len
  | .store offset bytes, t =>
      ∃ d, latest t.log = some d ∧ offset + bytes.length ≤ min d.length t.ctx.recvbuf_len
  | .recvfrom len, t => len = t.ctx.recvbuf_len ∧ (kept → Intact t)
  | _, _ => True

variable {kept : Prop} {α β : Type}

-- A program follows the graph from the point `p` if every state it passes through lies on a
-- path that came by `p`.
def Visited (host : Endian) (net : Network N) (monotone : Prop) (p₀ : Point) (s₀ t : State N) :
    Prop :=
  ∃ p, Path host net monotone p₀ s₀ p t

abbrev Follows (host : Endian) (net : Network N) (monotone : Prop) (p₀ : Point) (s₀ : State N)
    (kept : Prop) (prog : Ping N α) (post : α → State N → Prop) (s : State N) : Prop :=
  Safe (world net monotone) (Visited host net monotone p₀ s₀) (Guarded kept) prog post s

section Rules

variable {p : Point} {s : State N} {post : α → State N → Prop}
  (hs : Path host net monotone p₀ s₀ p s)

-- Between two steps the state stays at its point, and keeps all that the rest of the world
-- does not touch.
theorem arrived_stable (p : Point) (s t u : State N)
    (h : Path host net monotone p₀ s₀ p t ∧ Rely net monotone s t)
    (hr : (world net monotone).rely t u) :
    Path host net monotone p₀ s₀ p u ∧ Rely net monotone s u :=
  ⟨h.1.step (.env p t u hr), Rely.trans net monotone s t u h.2 hr⟩

include hs

theorem follows_ret {value : α} (hpost : ∀ t, Path host net monotone p₀ s₀ p t →
      Rely net monotone s t → post value t) :
    Follows host net monotone p₀ s₀ kept (.ret value) post s :=
  safe_ret (arrived_stable p s) (fun _ ht => ⟨p, ht.1⟩) ⟨hs, .refl net monotone s⟩
    fun t ht => hpost t ht.1 ht.2

theorem follows_act {update : State N → β × State N} {next : β → Ping N α}
    (hnext : ∀ t, Path host net monotone p₀ s₀ p t → Rely net monotone s t →
      Follows host net monotone p₀ s₀ kept (next (update t).1) post (update t).2) :
    Follows host net monotone p₀ s₀ kept (.act update next) post s :=
  safe_act (arrived_stable p s) (fun _ ht => ⟨p, ht.1⟩) ⟨hs, .refl net monotone s⟩
    fun t ht => hnext t ht.1 ht.2

theorem follows_get {next : State N → Ping N α}
    (hnext : ∀ t, Path host net monotone p₀ s₀ p t → Rely net monotone s t →
      Follows host net monotone p₀ s₀ kept (next t) post t) :
    Follows host net monotone p₀ s₀ kept (Prog.get >>= next) post s :=
  follows_act hs hnext

theorem follows_call {e : Sys} {next : Ans e → Ping N α}
    (hpre : ∀ t, Rely net monotone s t → Guarded kept e t)
    (hnext : ∀ t a u, Path host net monotone p₀ s₀ p t → Rely net monotone s t →
      Perform net e t a u → Follows host net monotone p₀ s₀ kept (next a) post u) :
    Follows host net monotone p₀ s₀ kept (.call e next) post s :=
  safe_call (arrived_stable p s) (fun _ ht => ⟨p, ht.1⟩) ⟨hs, .refl net monotone s⟩
    (fun t ht => hpre t ht.2) fun t a u ht => hnext t a u ht.1 ht.2

end Rules

-- send_one() takes the path from its call to its return, by way of either outcome of sendto().
theorem send_one_follows (c : Caller) (seq : UInt16) {s : State N}
    (hs : Path host net monotone p₀ s₀ (.called c seq) s) :
    Follows host net monotone p₀ s₀ kept (send_one host c.site seq)
      (fun rc t => rc = -1 ∧ Path host net monotone p₀ s₀ (.failed c) t ∨
        rc = 0 ∧ Path host net monotone p₀ s₀ (.sent c) t) s := by
  unfold send_one fill_payload
  refine follows_call hs (fun _ _ => trivial) fun t _ u ht _ hsys => ?_
  cases hsys
  refine follows_act (ht.step (.enter c seq t)) fun t ht _ => ?_
  refine follows_call (ht.step (.header c seq t)) (fun _ _ => trivial) fun t _ u ht _ hsys => ?_
  cases hsys
  refine follows_act (ht.step (.read_sent c seq t)) fun u hu _ => ?_
  refine follows_act (hu.step (.payload c seq t.now u)) fun t ht _ => ?_
  refine follows_act (ht.step (.checksum c seq t)) fun s hs _ => ?_
  refine follows_call (hs.step (.pass c s)) (fun _ _ => trivial) fun t _ u ht hst hsys => ?_
  cases hsys with
  | sendFailed _ _ _ errno =>
      refine follows_call (ht.step (.refuse c s.ctx.pkt.bytes t)) (fun _ _ => trivial)
        fun t _ u ht _ hsys => ?_
      cases hsys
      exact follows_ret (ht.step (.complain_send c t)) fun t ht _ => Or.inl ⟨rfl, ht⟩
  | sent _ _ _ n h =>
      refine follows_call (ht.step (.transmit c s.ctx.pkt.bytes t n h)) (fun _ _ => trivial)
        fun u _ v hu htu hsys => ?_
      cases hsys
      have hflags : u.ctx.flags = s.ctx.flags := by rw [htu.ctx_eq]; exact congrArg _ hst.ctx_eq
      have hcounted := hu.step (.count_sent c u)
      by_cases hdot : s.ctx.flags.flood = true ∧ ¬ s.ctx.flags.quiet = true
      · simp only [if_pos hdot]
        refine follows_call hcounted (fun _ _ => trivial) fun v _ w hv huv hsys => ?_
        cases hsys
        have hkept : v.ctx = u.ctx := huv.ctx_eq
        exact follows_ret (hv.step (.dot c v (by rw [hkept, hflags]; exact hdot)))
          fun t ht _ => Or.inr ⟨rfl, ht⟩
      · simp only [if_neg hdot]
        exact follows_ret (hcounted.step (.no_dot c _ (by rw [← hflags] at hdot; exact hdot)))
          fun t ht _ => Or.inr ⟨rfl, ht⟩

end FtPing.Flow
