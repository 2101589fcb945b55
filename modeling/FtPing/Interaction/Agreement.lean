import FtPing.Interaction.Semantics

namespace Interaction

variable {σ E : Type} {Ans : E → Type}

-- Two programs make the same calls over memories related by `alike`, but for the silent calls,
-- which either of them may make on its own and whose answers it does not use.
inductive Agree (alike : σ → σ → Prop) (silent : E → Prop) :
    {α : Type} → Prog σ E Ans α → Prog σ E Ans α → Prop
  | ret {α : Type} (value : α) : Agree alike silent (.ret value) (.ret value)
  | act {α β γ : Type} {update : σ → β × σ} {update' : σ → γ × σ} {next : β → Prog σ E Ans α}
      {next' : γ → Prog σ E Ans α} (hmem : ∀ s s', alike s s' → alike (update s).2 (update' s').2)
      (hnext : ∀ s s', alike s s' →
        Agree alike silent (next (update s).1) (next' (update' s').1)) :
      Agree alike silent (.act update next) (.act update' next')
  | call {α : Type} (e : E) {next next' : Ans e → Prog σ E Ans α}
      (hnext : ∀ a, Agree alike silent (next a) (next' a)) :
      Agree alike silent (.call e next) (.call e next')
  | left {α : Type} {e : E} (he : silent e) {next : Ans e → Prog σ E Ans α}
      {p' : Prog σ E Ans α} (hnext : ∀ a, Agree alike silent (next a) p') :
      Agree alike silent (.call e next) p'
  | right {α : Type} {e : E} (he : silent e) {p : Prog σ E Ans α}
      {next' : Ans e → Prog σ E Ans α} (hnext : ∀ a, Agree alike silent p (next' a)) :
      Agree alike silent p (.call e next')
  | loop {ι α β : Type} {body body' : ι → Prog σ E Ans (ι ⊕ β)} (index : ι)
      {next next' : β → Prog σ E Ans α} (hbody : ∀ i, Agree alike silent (body i) (body' i))
      (hnext : ∀ b, Agree alike silent (next b) (next' b)) :
      Agree alike silent (.loop body index next) (.loop body' index next')

variable {alike : σ → σ → Prop} {silent : E → Prop} {α β : Type}

theorem Agree.bind {p p' : Prog σ E Ans α} (h : Agree alike silent p p')
    {f f' : α → Prog σ E Ans β} (hf : ∀ a, Agree alike silent (f a) (f' a)) :
    Agree alike silent (p.bind f) (p'.bind f') := by
  induction h with
  | ret value => exact hf value
  | act hmem _ ih => exact .act hmem fun s s' hs => ih s s' hs hf
  | call e _ ih => exact .call e fun a => ih a hf
  | left he _ ih => exact .left he fun a => ih a hf
  | right he _ ih => exact .right he fun a => ih a hf
  | loop index hbody _ _ ih => exact .loop index hbody fun b => ih b hf

theorem Agree.continuation {ι : Type} {body body' : ι → Prog σ E Ans (ι ⊕ β)}
    {next next' : β → Prog σ E Ans α} (hbody : ∀ i, Agree alike silent (body i) (body' i))
    (hnext : ∀ b, Agree alike silent (next b) (next' b)) (r : ι ⊕ β) :
    Agree alike silent (Prog.continuation body next r) (Prog.continuation body' next' r) := by
  cases r with
  | inl index => exact .loop index hbody hnext
  | inr value => exact hnext value

-- Silent calls only, and then this value.
inductive Mute (silent : E → Prop) {α : Type} (value : α) : Prog σ E Ans α → Prop
  | ret : Mute silent value (.ret value)
  | call {e : E} (he : silent e) {next : Ans e → Prog σ E Ans α}
      (hnext : ∀ a, Mute silent value (next a)) : Mute silent value (.call e next)

theorem Mute.agree (value : α) {p p' : Prog σ E Ans α} (h : Mute silent value p)
    (h' : Mute silent value p') : Agree alike silent p p' := by
  induction h with
  | ret =>
      induction h' with
      | ret => exact .ret value
      | call he _ ih => exact .right he ih
  | call he _ ih => exact .left he ih

-- A world that does not tell related memories apart: what it does in one it can do in the
-- other, and it always answers a silent call, which has no effect on the relation.
structure Blind (w : World σ E Ans) (alike : σ → σ → Prop) (silent : E → Prop) : Prop where
  rely : ∀ s s' t, alike s s' → w.rely s t → ∃ t', w.rely s' t' ∧ alike t t'
  sys : ∀ e s s' a t, alike s s' → w.sys e s a t → ∃ t', w.sys e s' a t' ∧ alike t t'
  quiet : ∀ e s s' a t, silent e → alike s s' → w.sys e s a t → alike t s'
  answers : ∀ e s s', silent e → alike s s' → ∃ a t', w.sys e s' a t' ∧ alike s t'

section Simulation

variable {w : World σ E Ans} (hblind : Blind w alike silent)

include hblind

-- A step of the one program, matched by steps of the other.
theorem Agree.step {p p' q : Prog σ E Ans α} {s s' t : σ} (h : Agree alike silent p p')
    (hs : alike s s') (hstep : Step w (p, s) (q, t)) :
    ∃ q' t', Reach w (p', s') (q', t') ∧ Agree alike silent q q' ∧ alike t t' := by
  induction h generalizing s s' t with
  | ret value =>
      cases hstep with
      | env hr =>
          obtain ⟨t', hr', ht⟩ := hblind.rely _ _ _ hs hr
          exact ⟨_, t', .of_step (.env hr'), .ret value, ht⟩
  | act hmem hnext _ =>
      cases hstep with
      | env hr =>
          obtain ⟨t', hr', ht⟩ := hblind.rely _ _ _ hs hr
          exact ⟨_, t', .of_step (.env hr'), .act hmem hnext, ht⟩
      | act => exact ⟨_, _, .of_step .act, hnext s s' hs, hmem s s' hs⟩
  | call e hnext _ =>
      cases hstep with
      | env hr =>
          obtain ⟨t', hr', ht⟩ := hblind.rely _ _ _ hs hr
          exact ⟨_, t', .of_step (.env hr'), .call e hnext, ht⟩
      | @call _ _ _ _ a hsys =>
          obtain ⟨t', hsys', ht⟩ := hblind.sys _ _ _ _ _ hs hsys
          exact ⟨_, t', .of_step (.call hsys'), hnext a, ht⟩
  | left he hnext _ =>
      cases hstep with
      | env hr =>
          obtain ⟨t', hr', ht⟩ := hblind.rely _ _ _ hs hr
          exact ⟨_, t', .of_step (.env hr'), .left he hnext, ht⟩
      | @call _ _ _ _ a hsys =>
          exact ⟨_, s', .refl w _, hnext a, hblind.quiet _ _ _ _ _ he hs hsys⟩
  | right he hnext ih =>
      obtain ⟨a, u', hsys, hu⟩ := hblind.answers _ _ _ he hs
      obtain ⟨q', t', hreach, hagree, ht⟩ := ih a hu hstep
      exact ⟨q', t', (Reach.of_step (.call hsys)).trans hreach, hagree, ht⟩
  | loop index hbody hnext _ _ =>
      cases hstep with
      | env hr =>
          obtain ⟨t', hr', ht⟩ := hblind.rely _ _ _ hs hr
          exact ⟨_, t', .of_step (.env hr'), .loop index hbody hnext, ht⟩
      | loop =>
          exact ⟨_, s', .of_step .loop, (hbody index).bind (.continuation hbody hnext), hs⟩

-- Every run of the one program is matched by a run of the other.
theorem Agree.reach {p p' q : Prog σ E Ans α} {s s' t : σ} (h : Agree alike silent p p')
    (hs : alike s s') (hreach : Reach w (p, s) (q, t)) :
    ∃ q' t', Reach w (p', s') (q', t') ∧ Agree alike silent q q' ∧ alike t t' := by
  have hall : ∀ c : Prog σ E Ans α × σ, Reach w (p, s) c → ∃ q' t',
      Reach w (p', s') (q', t') ∧ Agree alike silent c.1 q' ∧ alike c.2 t' := by
    intro c hc
    induction hc with
    | refl => exact ⟨p', s', .refl w _, h, hs⟩
    | tail _ hlast ih =>
        obtain ⟨q', t', hq, hagree, ht⟩ := ih
        obtain ⟨r', u', hr, hagree', hu⟩ := hagree.step hblind ht hlast
        exact ⟨r', u', hq.trans hr, hagree', hu⟩
  exact hall (q, t) hreach

-- When the one has returned, the other has nothing left but silent calls.
theorem Agree.finish {value : α} {q p' : Prog σ E Ans α} {s s' : σ}
    (h : Agree alike silent q p') (hq : q = .ret value) (hs : alike s s') :
    ∃ t', Reach w (p', s') (.ret value, t') ∧ alike s t' := by
  induction h generalizing s s' with
  | ret value =>
      cases hq
      exact ⟨s', .refl w _, hs⟩
  | right he _ ih =>
      obtain ⟨a, u', hsys, hu⟩ := hblind.answers _ _ _ he hs
      obtain ⟨t', hreach, ht⟩ := ih a hq hu
      exact ⟨t', (Reach.of_step (.call hsys)).trans hreach, ht⟩
  | act _ _ _ => cases hq
  | call _ _ _ => cases hq
  | left _ _ _ => cases hq
  | loop _ _ _ _ _ => cases hq

end Simulation

-- A world in which nothing happens by itself and every call has one outcome.
structure Deterministic (w : World σ E Ans) : Prop where
  rely : ∀ s t, w.rely s t → t = s
  sys : ∀ e s a t a' t', w.sys e s a t → w.sys e s a' t' → a = a' ∧ t = t'

section Determinism

variable {w : World σ E Ans} (hw : Deterministic w)

include hw

theorem Deterministic.step {c d d' : Prog σ E Ans α × σ} (h : Step w c d) (h' : Step w c d') :
    d = c ∨ d' = c ∨ d = d' := by
  cases h with
  | env hr =>
      cases hw.rely _ _ hr
      exact Or.inl rfl
  | act =>
      cases h' with
      | env hr =>
          cases hw.rely _ _ hr
          exact Or.inr (Or.inl rfl)
      | act => exact Or.inr (Or.inr rfl)
  | call hsys =>
      cases h' with
      | env hr =>
          cases hw.rely _ _ hr
          exact Or.inr (Or.inl rfl)
      | call hsys' =>
          obtain ⟨rfl, rfl⟩ := hw.sys _ _ _ _ _ _ hsys hsys'
          exact Or.inr (Or.inr rfl)
  | loop =>
      cases h' with
      | env hr =>
          cases hw.rely _ _ hr
          exact Or.inr (Or.inl rfl)
      | loop => exact Or.inr (Or.inr rfl)

theorem Deterministic.step_reach {c d d' : Prog σ E Ans α × σ} (h : Step w c d)
    (h' : Reach w c d') : Reach w d d' ∨ d' = c := by
  induction h' using Relation.ReflTransGen.head_induction_on with
  | refl => exact Or.inr rfl
  | @head c e hfirst hrest ih =>
      rcases hw.step h hfirst with rfl | rfl | rfl
      · exact Or.inl ((Reach.of_step hfirst).trans hrest)
      · exact ih h
      · exact Or.inl hrest

-- Of two runs from one place one goes on from where the other stops.
theorem Deterministic.reach {c d d' : Prog σ E Ans α × σ} (h : Reach w c d)
    (h' : Reach w c d') : Reach w d d' ∨ Reach w d' d := by
  induction h with
  | refl => exact Or.inl h'
  | tail _ hlast ih =>
      rcases ih with hfrom | hto
      · rcases hw.step_reach hlast hfrom with hfrom | rfl
        · exact Or.inl hfrom
        · exact Or.inr (.of_step hlast)
      · exact Or.inr (hto.trans (.of_step hlast))

theorem Deterministic.stays {value : α} {t : σ} {d : Prog σ E Ans α × σ}
    (h : Reach w (.ret value, t) d) : d = (.ret value, t) := by
  induction h with
  | refl => rfl
  | tail _ hlast ih =>
      cases ih
      cases hlast with
      | env hr =>
          cases hw.rely _ _ hr
          rfl

-- There is one result.
theorem Deterministic.result {c : Prog σ E Ans α × σ} {value value' : α} {t t' : σ}
    (h : Reach w c (.ret value, t)) (h' : Reach w c (.ret value', t')) :
    value = value' ∧ t = t' := by
  rcases hw.reach h h' with hon | hon
  · cases hw.stays hon
    exact ⟨rfl, rfl⟩
  · cases hw.stays hon
    exact ⟨rfl, rfl⟩

end Determinism

end Interaction
