import FtPing.Interaction.Safety

namespace Interaction

variable {σ τ E F : Type} {Ans : E → Type} {Ans' : F → Type} {α β γ δ : Type}

-- Every run of `p` from `s` is matched by one of `p'` from `s'`: what the one comes to is alike to
-- what the other comes to, and when it has returned then so has the other.
def Coupled (w : World σ E Ans) (w' : World τ F Ans') (alike : σ → τ → Prop)
    (p : Prog σ E Ans α) (p' : Prog τ F Ans' β) (post : α → β → σ → τ → Prop) (s : σ) (s' : τ) :
    Prop :=
  ∀ q t, Reach w (p, s) (q, t) → ∃ q' t', Reach w' (p', s') (q', t') ∧ alike t t' ∧
    ∀ a, q = .ret a → ∃ b, q' = .ret b ∧ post a b t t'

section Rules

variable {w : World σ E Ans} {w' : World τ F Ans'} {alike : σ → τ → Prop}

theorem Coupled.mono {p : Prog σ E Ans α} {p' : Prog τ F Ans' β}
    {post post' : α → β → σ → τ → Prop} {s : σ} {s' : τ}
    (h : Coupled w w' alike p p' post s s') (hpost : ∀ a b t t', post a b t t' → post' a b t t') :
    Coupled w w' alike p p' post' s s' := by
  intro q t hr
  obtain ⟨q', t', hr', ht, hret⟩ := h q t hr
  refine ⟨q', t', hr', ht, fun a ha => ?_⟩
  obtain ⟨b, hb, hab⟩ := hret a ha
  exact ⟨b, hb, hpost a b t t' hab⟩

-- The second program may go ahead by itself.
theorem Coupled.head {p : Prog σ E Ans α} {p' q' : Prog τ F Ans' β}
    {post : α → β → σ → τ → Prop} {s : σ} {s' t' : τ} (hr : Reach w' (p', s') (q', t'))
    (h : Coupled w w' alike p q' post s t') : Coupled w w' alike p p' post s s' := by
  intro q t hq
  obtain ⟨r', u', hr', hu, hret⟩ := h q t hq
  exact ⟨r', u', hr.trans hr', hu, hret⟩

section Stable

-- As in the rules for one program, `holds` is about the present states, and what the surroundings
-- do to the one they can do to the other.
variable {holds : σ → τ → Prop}
  (hstable : ∀ s s' t, holds s s' → w.rely s t → ∃ t', w'.rely s' t' ∧ holds t t')
  (halike : ∀ s s', holds s s' → alike s s') {s : σ} {s' : τ} (hs : holds s s')

include hstable halike hs

theorem coupled_ret {a : α} {b : β} {post : α → β → σ → τ → Prop}
    (hpost : ∀ t t', holds t t' → post a b t t') :
    Coupled w w' alike (.ret a) (.ret b) post s s' := by
  intro q t hr
  obtain ⟨rfl, ht⟩ := reach_ret hr
  obtain ⟨t', ht', hh⟩ := hstable s s' t hs ht
  refine ⟨.ret b, t', .of_step (.env ht'), halike t t' hh, fun value hvalue => ?_⟩
  cases hvalue
  exact ⟨b, rfl, hpost t t' hh⟩

theorem coupled_act {update : σ → γ × σ} {next : γ → Prog σ E Ans α} {update' : τ → δ × τ}
    {next' : δ → Prog τ F Ans' β} {post : α → β → σ → τ → Prop}
    (hnext : ∀ t t', holds t t' → Coupled w w' alike (next (update t).1) (next' (update' t').1) post
      (update t).2 (update' t').2) :
    Coupled w w' alike (.act update next) (.act update' next') post s s' := by
  intro q t hr
  rcases reach_act hr with ⟨rfl, ht⟩ | ⟨u, hu, hr⟩
  · obtain ⟨t', ht', hh⟩ := hstable s s' t hs ht
    exact ⟨_, t', .of_step (.env ht'), halike t t' hh, nofun⟩
  · obtain ⟨u', hu', hh⟩ := hstable s s' u hs hu
    exact (hnext u u' hh).head ((Reach.of_step (.env hu')).trans (.of_step .act)) q t hr

theorem coupled_call {e : E} {next : Ans e → Prog σ E Ans α} {e' : F}
    {next' : Ans' e' → Prog τ F Ans' β} {post : α → β → σ → τ → Prop}
    (hnext : ∀ t t' a u, holds t t' → w.sys e t a u → ∃ a' u', w'.sys e' t' a' u' ∧
      Coupled w w' alike (next a) (next' a') post u u') :
    Coupled w w' alike (.call e next) (.call e' next') post s s' := by
  intro q t hr
  rcases reach_call hr with ⟨rfl, ht⟩ | ⟨v, a, u, hv, hu, hr⟩
  · obtain ⟨t', ht', hh⟩ := hstable s s' t hs ht
    exact ⟨_, t', .of_step (.env ht'), halike t t' hh, nofun⟩
  · obtain ⟨v', hv', hh⟩ := hstable s s' v hs hv
    obtain ⟨a', u', hu', hcoupled⟩ := hnext v v' a u hh hu
    exact hcoupled.head ((Reach.of_step (.env hv')).trans (.of_step (.call hu'))) q t hr

end Stable

theorem coupled_bind {p : Prog σ E Ans α} {p' : Prog τ F Ans' β} {f : α → Prog σ E Ans γ}
    {f' : β → Prog τ F Ans' δ} {post : γ → δ → σ → τ → Prop} {s : σ} {s' : τ}
    (h : Coupled w w' alike p p'
      (fun a b t t' => Coupled w w' alike (f a) (f' b) post t t') s s') :
    Coupled w w' alike (p.bind f) (p'.bind f') post s s' := by
  intro q t hr
  rcases reach_bind hr with ⟨r, hq, hp⟩ | ⟨a, u, hu, hr⟩
  · simp only at hq hp
    subst hq
    obtain ⟨r', t', hr', ht, hret⟩ := h r t hp
    by_cases hdone : ∃ a, r = .ret a
    · obtain ⟨a, rfl⟩ := hdone
      obtain ⟨b, rfl, hab⟩ := hret a rfl
      exact hab.head (hr'.bind f') _ t (.refl w _)
    · refine ⟨r'.bind f', t', hr'.bind f', ht, fun c hc => ?_⟩
      cases r with
      | ret a => exact absurd ⟨a, rfl⟩ hdone
      | act update next => cases hc
      | call e next => cases hc
      | loop body index next => cases hc
  · obtain ⟨q', u', hu', -, hret⟩ := h _ u hu
    obtain ⟨b, rfl, hab⟩ := hret a rfl
    exact hab.head (hu'.bind f') q t hr

-- The two loops go round together, as long as `invariant` holds of what they go round with.
theorem coupled_loop {ι κ : Type} {body : ι → Prog σ E Ans (ι ⊕ γ)}
    {body' : κ → Prog τ F Ans' (κ ⊕ δ)} {next : γ → Prog σ E Ans α} {next' : δ → Prog τ F Ans' β}
    {post : α → β → σ → τ → Prop} (invariant : ι → κ → σ → τ → Prop)
    (hstable : ∀ i k s s' t, invariant i k s s' → w.rely s t →
      ∃ t', w'.rely s' t' ∧ invariant i k t t')
    (halike : ∀ i k s s', invariant i k s s' → alike s s') {index : ι} {index' : κ} {s : σ} {s' : τ}
    (hs : invariant index index' s s')
    (hbody : ∀ i k t t', invariant i k t t' → Coupled w w' alike (body i) (body' k)
      (fun r r' u u' => Sum.LiftRel (fun again again' => invariant again again' u u')
        (fun value value' => Coupled w w' alike (next value) (next' value') post u u') r r')
      t t') :
    Coupled w w' alike (.loop body index next) (.loop body' index' next') post s s' := by
  intro q t hr
  -- A run is at the head of a round, inside a round, or past the loop, and the other one is at the
  -- head of the same round or past the loop with it.
  have hcases : ∀ c : Prog σ E Ans α × σ, Reach w (.loop body index next, s) c →
      (∃ i k t', c.1 = .loop body i next ∧ invariant i k c.2 t' ∧
        Reach w' (.loop body' index' next', s') (.loop body' k next', t')) ∨
      (∃ i k u u' p, c.1 = p.bind (Prog.continuation body next) ∧ invariant i k u u' ∧
        Reach w (body i, u) (p, c.2) ∧
        Reach w' (.loop body' index' next', s') (.loop body' k next', u')) ∨
      ∃ value value' u u', Coupled w w' alike (next value) (next' value') post u u' ∧
        Reach w (next value, u) c ∧
        Reach w' (.loop body' index' next', s') (next' value', u') := by
    intro c hc
    induction hc with
    | refl => exact Or.inl ⟨index, index', s', rfl, hs, .refl w' _⟩
    | @tail c d _ hstep ih =>
        obtain ⟨q, t⟩ := c
        rcases ih with ⟨i, k, t', hq, hi, ht⟩ | ⟨i, k, u, u', p, hq, hi, hp, hu⟩ |
          ⟨value, value', u, u', hu, hv, hr⟩
        · simp only at hq hi
          subst hq
          cases hstep with
          | env h =>
              obtain ⟨v', hv', hk⟩ := hstable i k _ _ _ hi h
              exact Or.inl ⟨i, k, v', rfl, hk, ht.trans (.of_step (.env hv'))⟩
          | loop => exact Or.inr (Or.inl ⟨i, k, t, t', body i, rfl, hi, .refl w _, ht⟩)
        · simp only at hq hp
          subst hq
          rcases step_bind_cases hstep with ⟨p', hd, hp'⟩ | ⟨r, rfl, hr⟩
          · exact Or.inr (Or.inl ⟨i, k, u, u', p', hd, hi, hp.trans (.of_step hp'), hu⟩)
          · obtain ⟨q', v', hv', -, hret⟩ := hbody i k u u' hi _ t hp
            obtain ⟨r', rfl, hpost⟩ := hret r rfl
            have hround := hu.trans ((Reach.of_step .loop).trans
              (hv'.bind (Prog.continuation body' next')))
            cases hpost with
            | @inl again again' hagain =>
                cases hr with
                | env h =>
                    obtain ⟨x', hx', hk⟩ := hstable _ _ _ _ _ hagain h
                    exact Or.inl ⟨again, again', x', rfl, hk, hround.trans (.of_step (.env hx'))⟩
                | loop =>
                    exact Or.inr (Or.inl ⟨again, again', t, v', body again, rfl, hagain, .refl w _,
                      hround⟩)
            | @inr value value' hvalue =>
                exact Or.inr (Or.inr ⟨value, value', t, v', hvalue, .of_step hr, hround⟩)
        · exact Or.inr (Or.inr ⟨value, value', u, u', hu, hv.trans (.of_step hstep), hr⟩)
  rcases hcases (q, t) hr with ⟨i, k, t', hq, hi, ht⟩ | ⟨i, k, u, u', p, hq, hi, hp, hu⟩ |
    ⟨value, value', u, u', hu, hv, hr'⟩
  · simp only at hq hi
    subst hq
    exact ⟨_, t', ht, halike _ _ _ _ hi, nofun⟩
  · simp only at hq hp
    subst hq
    obtain ⟨p', t', hp', ht, hret⟩ := hbody i k u u' hi p t hp
    have hround := hu.trans ((Reach.of_step .loop).trans (hp'.bind (Prog.continuation body' next')))
    cases p with
    | ret r =>
        obtain ⟨r', rfl, hpost⟩ := hret r rfl
        cases hpost with
        | inl hagain => exact ⟨_, t', hround, ht, nofun⟩
        | inr hvalue => exact hvalue.head hround _ t (.refl w _)
    | act update next => exact ⟨_, t', hround, ht, nofun⟩
    | call e next => exact ⟨_, t', hround, ht, nofun⟩
    | loop body index next => exact ⟨_, t', hround, ht, nofun⟩
  · exact hu.head hr' q t hv

end Rules

end Interaction
