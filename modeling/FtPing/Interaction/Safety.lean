import FtPing.Interaction.Semantics

namespace Interaction

variable {σ E : Type} {Ans : E → Type} {α β : Type}

-- What has to be true of a program `q` that a run has come to, in the state `t`.
def Good (inv : σ → Prop) (pre : E → σ → Prop) (post : α → σ → Prop) :
    Prog σ E Ans α → σ → Prop
  | .ret value, t => inv t ∧ post value t
  | .call e _, t => inv t ∧ pre e t
  | .act _ _, t => inv t
  | .loop _ _ _, t => inv t

-- In every state that a run of `p` from `s` reaches `inv` holds, `pre` holds of each call
-- about to be made, and `post` holds of the result when the program has returned.
def Safe (w : World σ E Ans) (inv : σ → Prop) (pre : E → σ → Prop) (p : Prog σ E Ans α)
    (post : α → σ → Prop) (s : σ) : Prop :=
  ∀ q t, Reach w (p, s) (q, t) → Good inv pre post q t

theorem Good.inv {inv : σ → Prop} {pre : E → σ → Prop} {post : α → σ → Prop}
    {q : Prog σ E Ans α} {t : σ} (h : Good inv pre post q t) : inv t := by
  cases q with
  | ret value => exact h.1
  | act update next => exact h
  | call e next => exact h.1
  | loop body index next => exact h

-- What holds in every state that is reached.
theorem safe_of_reach {w : World σ E Ans} {inv : σ → Prop} {p : Prog σ E Ans α} {s : σ}
    (h : ∀ q t, Reach w (p, s) (q, t) → inv t) :
    Safe w inv (fun _ _ => True) p (fun _ _ => True) s := by
  intro q t hr
  have ht := h q t hr
  cases q with
  | ret value => exact ⟨ht, trivial⟩
  | act update next => exact ht
  | call e next => exact ⟨ht, trivial⟩
  | loop body index next => exact ht

theorem Safe.weaken {w : World σ E Ans} {inv : σ → Prop} {pre pre' : E → σ → Prop}
    {post post' : α → σ → Prop} {p : Prog σ E Ans α} {s : σ} (h : Safe w inv pre p post s)
    (hpre : ∀ e t, pre e t → pre' e t) (hpost : ∀ a t, post a t → post' a t) :
    Safe w inv pre' p post' s := by
  intro q t hr
  have hq := h q t hr
  cases q with
  | ret value => exact ⟨hq.1, hpost _ _ hq.2⟩
  | act update next => exact hq
  | call e next => exact ⟨hq.1, hpre _ _ hq.2⟩
  | loop body index next => exact hq

theorem reach_induction {w : World σ E Ans} {c d : Prog σ E Ans α × σ}
    (holds : Prog σ E Ans α × σ → Prop) (hstart : holds c)
    (hstep : ∀ c d, holds c → Step w c d → holds d) (h : Reach w c d) : holds d := by
  induction h with
  | refl => exact hstart
  | tail _ hlast ih => exact hstep _ _ ih hlast

section Inversion

variable {w : World σ E Ans}

theorem reach_ret {value : α} {s : σ} {c : Prog σ E Ans α × σ}
    (h : Reach w (.ret value, s) c) : c.1 = .ret value ∧ w.rely s c.2 := by
  refine reach_induction (fun c => c.1 = .ret value ∧ w.rely s c.2) ⟨rfl, w.rely_refl s⟩ ?_ h
  rintro c d ⟨hp, hs⟩ hstep
  cases hstep with
  | env h => exact ⟨hp, w.rely_trans _ _ _ hs h⟩
  | act => cases hp
  | call _ => cases hp
  | loop => cases hp

theorem reach_act {update : σ → β × σ} {next : β → Prog σ E Ans α} {s : σ}
    {c : Prog σ E Ans α × σ} (h : Reach w (.act update next, s) c) :
    (c.1 = .act update next ∧ w.rely s c.2) ∨
      ∃ t, w.rely s t ∧ Reach w (next (update t).1, (update t).2) c := by
  refine reach_induction (fun c => (c.1 = .act update next ∧ w.rely s c.2) ∨
    ∃ t, w.rely s t ∧ Reach w (next (update t).1, (update t).2) c)
    (Or.inl ⟨rfl, w.rely_refl s⟩) ?_ h
  rintro c d (⟨hp, hs⟩ | ⟨t, ht, hr⟩) hstep
  · cases hstep with
    | env h => exact Or.inl ⟨hp, w.rely_trans _ _ _ hs h⟩
    | act =>
        cases hp
        exact Or.inr ⟨_, hs, .refl w _⟩
    | call _ => cases hp
    | loop => cases hp
  · exact Or.inr ⟨t, ht, hr.trans (.of_step hstep)⟩

theorem reach_call {e : E} {next : Ans e → Prog σ E Ans α} {s : σ}
    {c : Prog σ E Ans α × σ} (h : Reach w (.call e next, s) c) :
    (c.1 = .call e next ∧ w.rely s c.2) ∨
      ∃ t a u, w.rely s t ∧ w.sys e t a u ∧ Reach w (next a, u) c := by
  refine reach_induction (fun c => (c.1 = .call e next ∧ w.rely s c.2) ∨
    ∃ t a u, w.rely s t ∧ w.sys e t a u ∧ Reach w (next a, u) c)
    (Or.inl ⟨rfl, w.rely_refl s⟩) ?_ h
  rintro c d (⟨hp, hs⟩ | ⟨t, a, u, ht, hu, hr⟩) hstep
  · cases hstep with
    | env h => exact Or.inl ⟨hp, w.rely_trans _ _ _ hs h⟩
    | act => cases hp
    | call h =>
        cases hp
        exact Or.inr ⟨_, _, _, hs, h, .refl w _⟩
    | loop => cases hp
  · exact Or.inr ⟨t, a, u, ht, hu, hr.trans (.of_step hstep)⟩

theorem step_bind_cases {p : Prog σ E Ans α} {f : α → Prog σ E Ans β} {s : σ}
    {d : Prog σ E Ans β × σ} (h : Step w (p.bind f, s) d) :
    (∃ q, d.1 = q.bind f ∧ Step w (p, s) (q, d.2)) ∨
      ∃ a, p = .ret a ∧ Step w (f a, s) d := by
  cases p with
  | ret a => exact Or.inr ⟨a, rfl, h⟩
  | act update next =>
      rw [Prog.act_bind] at h
      cases h with
      | env h => exact Or.inl ⟨.act update next, rfl, .env h⟩
      | act => exact Or.inl ⟨_, rfl, .act⟩
  | call e next =>
      rw [Prog.call_bind] at h
      cases h with
      | env h => exact Or.inl ⟨.call e next, rfl, .env h⟩
      | call h => exact Or.inl ⟨_, rfl, .call h⟩
  | loop body index next =>
      rw [Prog.loop_bind] at h
      cases h with
      | env h => exact Or.inl ⟨.loop body index next, rfl, .env h⟩
      | loop =>
          refine Or.inl ⟨(body index).bind (Prog.continuation body next), ?_, .loop⟩
          rw [Prog.bind_assoc]
          refine congrArg _ (funext fun r => ?_)
          cases r <;> rfl

theorem reach_bind {p : Prog σ E Ans α} {f : α → Prog σ E Ans β} {s : σ}
    {c : Prog σ E Ans β × σ} (h : Reach w (p.bind f, s) c) :
    (∃ q, c.1 = q.bind f ∧ Reach w (p, s) (q, c.2)) ∨
      ∃ a t, Reach w (p, s) (.ret a, t) ∧ Reach w (f a, t) c := by
  refine reach_induction (fun c => (∃ q, c.1 = q.bind f ∧ Reach w (p, s) (q, c.2)) ∨
    ∃ a t, Reach w (p, s) (.ret a, t) ∧ Reach w (f a, t) c) (Or.inl ⟨p, rfl, .refl w _⟩) ?_ h
  rintro ⟨r, t⟩ d (⟨q, hq, hr⟩ | ⟨a, u, hu, hr⟩) hstep
  · simp only at hq hr
    subst hq
    rcases step_bind_cases hstep with ⟨q', hd, hq'⟩ | ⟨a, rfl, ha⟩
    · exact Or.inl ⟨q', hd, hr.trans (.of_step hq')⟩
    · exact Or.inr ⟨a, t, hr, .of_step ha⟩
  · exact Or.inr ⟨a, u, hu, hr.trans (.of_step hstep)⟩

end Inversion

section Rules

variable {w : World σ E Ans} {inv : σ → Prop} {pre : E → σ → Prop}
  {post : α → σ → Prop} {s : σ}

theorem Safe.inv_of_rely {p : Prog σ E Ans α} (h : Safe w inv pre p post s) {t : σ}
    (ht : w.rely s t) : inv t :=
  (h p t (.of_step (.env ht))).inv

theorem Safe.mono {p : Prog σ E Ans α} {post' : α → σ → Prop}
    (h : Safe w inv pre p post s) (hpost : ∀ a t, post a t → post' a t) :
    Safe w inv pre p post' s := by
  intro q t hr
  have hq := h q t hr
  cases q with
  | ret value => exact ⟨hq.1, hpost _ _ hq.2⟩
  | act update next => exact hq
  | call e next => exact hq
  | loop body index next => exact hq

-- What the rules ask of the state a command starts in also has to hold of any state that
-- the environment turns it into; `holds` is such an assertion about the present state.
variable {holds : σ → Prop} (hstable : ∀ s t, holds s → w.rely s t → holds t)
  (hinv : ∀ s, holds s → inv s)

include hstable hinv

theorem safe_ret {value : α} (hs : holds s) (hpost : ∀ t, holds t → post value t) :
    Safe w inv pre (.ret value) post s := by
  intro q t hr
  obtain ⟨rfl, ht⟩ := reach_ret hr
  have hh := hstable s t hs ht
  exact ⟨hinv t hh, hpost t hh⟩

theorem safe_act {update : σ → β × σ} {next : β → Prog σ E Ans α} (hs : holds s)
    (hnext : ∀ t, holds t → Safe w inv pre (next (update t).1) post (update t).2) :
    Safe w inv pre (.act update next) post s := by
  intro q t hr
  rcases reach_act hr with ⟨rfl, ht⟩ | ⟨u, hu, hr⟩
  · exact hinv t (hstable s t hs ht)
  · exact hnext u (hstable s u hs hu) q t hr

theorem safe_call {e : E} {next : Ans e → Prog σ E Ans α} (hs : holds s)
    (hpre : ∀ t, holds t → pre e t)
    (hnext : ∀ t a u, holds t → w.sys e t a u → Safe w inv pre (next a) post u) :
    Safe w inv pre (.call e next) post s := by
  intro q t hr
  rcases reach_call hr with ⟨rfl, ht⟩ | ⟨v, a, u, hv, hu, hr⟩
  · have hh := hstable s t hs ht
    exact ⟨hinv t hh, hpre t hh⟩
  · exact hnext v a u (hstable s v hs hv) hu q t hr

end Rules

theorem safe_bind {w : World σ E Ans} {inv : σ → Prop} {pre : E → σ → Prop}
    {post : β → σ → Prop} {s : σ} {p : Prog σ E Ans α} {f : α → Prog σ E Ans β}
    (h : Safe w inv pre p (fun a t => Safe w inv pre (f a) post t) s) :
    Safe w inv pre (p.bind f) post s := by
  intro q t hr
  rcases reach_bind hr with ⟨q', hq, hq'⟩ | ⟨a, u, hu, hr⟩
  · simp only at hq hq'
    subst hq
    have hgood := h q' t hq'
    cases q' with
    | ret a => exact hgood.2 _ _ (.refl w _)
    | act update next => exact hgood
    | call e next => exact hgood
    | loop body index next => exact hgood
  · exact (h _ _ hu).2 q t hr

-- `invariant index` holds whenever the loop is about to go round with `index`.
theorem safe_loop {w : World σ E Ans} {inv : σ → Prop} {pre : E → σ → Prop}
    {post : α → σ → Prop} {s : σ} {ι : Type} {body : ι → Prog σ E Ans (ι ⊕ β)} {index : ι}
    {next : β → Prog σ E Ans α} (invariant : ι → σ → Prop) (hs : invariant index s)
    (hbody : ∀ i t, invariant i t → Safe w inv pre (body i) (fun r u =>
      match r with
      | .inl again => invariant again u
      | .inr value => Safe w inv pre (next value) post u) t) :
    Safe w inv pre (.loop body index next) post s := by
  intro q t hr
  -- A run is at the head of a round, inside a round, or past the loop.
  have hcases : (∃ i u, q = .loop body i next ∧ invariant i u ∧ w.rely u t) ∨
      (∃ i u p, q = p.bind (Prog.continuation body next) ∧ invariant i u ∧
        Reach w (body i, u) (p, t)) ∨
      ∃ value u, Safe w inv pre (next value) post u ∧ Reach w (next value, u) (q, t) := by
    refine reach_induction (fun c : Prog σ E Ans α × σ =>
      (∃ i u, c.1 = .loop body i next ∧ invariant i u ∧ w.rely u c.2) ∨
      (∃ i u p, c.1 = p.bind (Prog.continuation body next) ∧ invariant i u ∧
        Reach w (body i, u) (p, c.2)) ∨
      ∃ value u, Safe w inv pre (next value) post u ∧ Reach w (next value, u) c)
      (Or.inl ⟨index, s, rfl, hs, w.rely_refl s⟩) ?_ hr
    rintro ⟨q, t⟩ d (⟨i, u, hq, hi, ht⟩ | ⟨i, u, p, hq, hi, hp⟩ | ⟨value, u, hu, hv⟩) hstep
    · simp only at hq ht
      subst hq
      cases hstep with
      | env h => exact Or.inl ⟨i, u, rfl, hi, w.rely_trans _ _ _ ht h⟩
      | loop => exact Or.inr (Or.inl ⟨i, u, body i, rfl, hi, .of_step (.env ht)⟩)
    · simp only at hq hp
      subst hq
      rcases step_bind_cases hstep with ⟨p', hd, hp'⟩ | ⟨r, rfl, hr⟩
      · exact Or.inr (Or.inl ⟨i, u, p', hd, hi, hp.trans (.of_step hp')⟩)
      · have hpost := (hbody i u hi _ _ hp).2
        cases r with
        | inl again =>
            cases hr with
            | env h => exact Or.inl ⟨again, t, rfl, hpost, h⟩
            | loop => exact Or.inr (Or.inl ⟨again, t, body again, rfl, hpost, .refl w _⟩)
        | inr value => exact Or.inr (Or.inr ⟨value, t, hpost, .of_step hr⟩)
    · exact Or.inr (Or.inr ⟨value, u, hu, hv.trans (.of_step hstep)⟩)
  rcases hcases with ⟨i, u, rfl, hi, ht⟩ | ⟨i, u, p, rfl, hi, hp⟩ | ⟨value, u, hu, hv⟩
  · exact (hbody i u hi).inv_of_rely ht
  · have hgood := hbody i u hi p t hp
    cases p with
    | ret r =>
        cases r with
        | inl again => exact hgood.1
        | inr value => exact hgood.2 _ _ (.refl w _)
    | act update next => exact hgood
    | call e next => exact hgood
    | loop body index next => exact hgood
  · exact hu q t hv

end Interaction
