import FtPing.Interaction.Program

namespace Interaction

variable {σ E : Type} {Ans : E → Type} {α β κ : Type}

-- What a program runs in: `rely` is what may happen to the state between two of its steps,
-- `sys` relates a call and the state it is made in to its possible answers and outcomes.
structure World (σ E : Type) (Ans : E → Type) where
  rely : σ → σ → Prop
  sys : (e : E) → σ → Ans e → σ → Prop
  rely_refl : ∀ s, rely s s
  rely_trans : ∀ s t u, rely s t → rely t u → rely s u

inductive Step (w : World σ E Ans) {α : Type} : Prog σ E Ans α × σ → Prog σ E Ans α × σ → Prop
  | env {p : Prog σ E Ans α} {s t : σ} (h : w.rely s t) : Step w (p, s) (p, t)
  | act {β : Type} {update : σ → β × σ} {next : β → Prog σ E Ans α} {s : σ} :
      Step w (.act update next, s) (next (update s).1, (update s).2)
  | call {e : E} {next : Ans e → Prog σ E Ans α} {s t : σ} {a : Ans e} (h : w.sys e s a t) :
      Step w (.call e next, s) (next a, t)
  | loop {ι β : Type} {body : ι → Prog σ E Ans (ι ⊕ β)} {index : ι} {next : β → Prog σ E Ans α}
      {s : σ} :
      Step w (.loop body index next, s) ((body index).bind (Prog.continuation body next), s)

def Reach (w : World σ E Ans) : Prog σ E Ans α × σ → Prog σ E Ans α × σ → Prop :=
  Relation.ReflTransGen (Step w)

theorem Reach.refl (w : World σ E Ans) (c : Prog σ E Ans α × σ) : Reach w c c :=
  Relation.ReflTransGen.refl

theorem Reach.trans {w : World σ E Ans} {c d e : Prog σ E Ans α × σ}
    (h : Reach w c d) (h' : Reach w d e) : Reach w c e :=
  Relation.ReflTransGen.trans h h'

theorem Reach.of_step {w : World σ E Ans} {c d : Prog σ E Ans α × σ} (h : Step w c d) :
    Reach w c d :=
  Relation.ReflTransGen.single h

theorem Reach.mono {w w' : World σ E Ans} (hrely : ∀ s t, w.rely s t → w'.rely s t)
    (hsys : ∀ e s a t, w.sys e s a t → w'.sys e s a t) {c d : Prog σ E Ans α × σ}
    (h : Reach w c d) : Reach w' c d := by
  refine Relation.ReflTransGen.mono (fun c d hstep => ?_) c d h
  cases hstep with
  | env h => exact .env (hrely _ _ h)
  | act => exact .act
  | call h => exact .call (hsys _ _ _ _ h)
  | loop => exact .loop

-- A call may take in one what takes the coarser world some time of its own before.
theorem Reach.coarsen {w w' : World σ E Ans} (hrely : ∀ s t, w.rely s t → w'.rely s t)
    (hsys : ∀ e s a t, w.sys e s a t → ∃ u, w'.rely s u ∧ w'.sys e u a t)
    {c d : Prog σ E Ans α × σ} (h : Reach w c d) : Reach w' c d := by
  induction h with
  | refl => exact .refl w' c
  | tail _ hstep ih =>
      refine ih.trans ?_
      cases hstep with
      | env h => exact .of_step (.env (hrely _ _ h))
      | act => exact .of_step .act
      | call h =>
          obtain ⟨u, hu, hcall⟩ := hsys _ _ _ _ h
          exact (Reach.of_step (.env hu)).trans (.of_step (.call hcall))
      | loop => exact .of_step .loop

theorem Step.bind {w : World σ E Ans} {p q : Prog σ E Ans α} {s t : σ}
    (f : α → Prog σ E Ans β) (h : Step w (p, s) (q, t)) : Step w (p.bind f, s) (q.bind f, t) := by
  cases h with
  | env h => exact .env h
  | act => exact .act
  | call h => exact .call h
  | @loop ι γ body index next s =>
      rw [Prog.bind_assoc, Prog.loop_bind]
      have hnext : (fun r => (Prog.continuation body next r).bind f) =
          Prog.continuation body fun b => (next b).bind f := by
        funext r
        cases r <;> rfl
      rw [hnext]
      exact .loop

theorem Reach.bind {w : World σ E Ans} {p q : Prog σ E Ans α} {s t : σ}
    (f : α → Prog σ E Ans β) (h : Reach w (p, s) (q, t)) :
    Reach w (p.bind f, s) (q.bind f, t) := by
  have hlift : ∀ c d : Prog σ E Ans α × σ, Step w c d →
      Step w (c.1.bind f, c.2) (d.1.bind f, d.2) := fun _ _ hstep => Step.bind f hstep
  exact Relation.ReflTransGen.lift (fun c : Prog σ E Ans α × σ => (c.1.bind f, c.2)) hlift _ _ h

theorem Reach.get {w : World σ E Ans} {f : σ → Prog σ E Ans α} {s : σ} :
    Reach w (Prog.get.bind f, s) (f s, s) :=
  .of_step .act

theorem Reach.perform {w : World σ E Ans} {e : E} {f : Ans e → Prog σ E Ans α} {s t : σ}
    {a : Ans e} (h : w.sys e s a t) : Reach w ((Prog.perform e).bind f, s) (f a, t) :=
  .of_step (.call h)

-- A script answers the calls; it gives up on a call that it has no answer for.
abbrev Script (κ σ E : Type) (Ans : E → Type) :=
  (e : E) → κ × σ → Option (Ans e × κ × σ)

def rounds {ι β τ : Type} : Nat → (ι → τ → Option ((ι ⊕ β) × τ)) → ι → τ → Option (β × τ)
  | 0, _, _, _ => none
  | fuel + 1, round, index, c =>
      (round index c).bind fun r =>
        match r.1 with
        | .inl next => rounds fuel round next r.2
        | .inr value => some (value, r.2)

-- The fuel bounds the rounds of each loop, so that a run can be computed.
def exec (h : Script κ σ E Ans) (fuel : Nat) :
    {α : Type} → Prog σ E Ans α → κ × σ → Option (α × κ × σ)
  | _, .ret value, c => some (value, c)
  | _, .act update next, c => exec h fuel (next (update c.2).1) (c.1, (update c.2).2)
  | _, .call e next, c => (h e c).bind fun r => exec h fuel (next r.1) r.2
  | _, .loop body index next, c =>
      (rounds fuel (fun i => exec h fuel (body i)) index c).bind fun r =>
        exec h fuel (next r.1) r.2

section Exec

variable (h : Script κ σ E Ans) (fuel : Nat)

@[simp] theorem exec_ret (value : α) (c : κ × σ) :
    exec h fuel (.ret value) c = some (value, c) := rfl

@[simp] theorem exec_act (update : σ → β × σ) (next : β → Prog σ E Ans α) (c : κ × σ) :
    exec h fuel (.act update next) c =
      exec h fuel (next (update c.2).1) (c.1, (update c.2).2) := rfl

@[simp] theorem exec_call (e : E) (next : Ans e → Prog σ E Ans α) (c : κ × σ) :
    exec h fuel (.call e next) c = (h e c).bind fun r => exec h fuel (next r.1) r.2 := rfl

theorem exec_loop {ι : Type} (body : ι → Prog σ E Ans (ι ⊕ β)) (index : ι)
    (next : β → Prog σ E Ans α) (c : κ × σ) :
    exec h fuel (.loop body index next) c =
      (rounds fuel (fun i => exec h fuel (body i)) index c).bind fun r =>
        exec h fuel (next r.1) r.2 := rfl

@[simp] theorem exec_bind (p : Prog σ E Ans α) (f : α → Prog σ E Ans β) (c : κ × σ) :
    exec h fuel (p.bind f) c =
      (exec h fuel p c).bind fun r => exec h fuel (f r.1) r.2 := by
  induction p generalizing c with
  | ret value => rfl
  | act update next ih => exact ih _ f _
  | call e next ih =>
      simp only [Prog.call_bind, exec_call, Option.bind_assoc]
      exact congrArg _ (funext fun r => ih r.1 f r.2)
  | loop body index next _ ih =>
      simp only [Prog.loop_bind, exec_loop, Option.bind_assoc]
      exact congrArg _ (funext fun r => ih r.1 f r.2)

end Exec

-- The script only plays what the world allows, after what the world may do by itself.
def Plays (h : Script κ σ E Ans) (w : World σ E Ans) : Prop :=
  ∀ e c a d, h e c = some (a, d) → ∃ s, w.rely c.2 s ∧ w.sys e s a d.2

theorem rounds_reach {w : World σ E Ans} {ι : Type} {body : ι → Prog σ E Ans (ι ⊕ β)}
    {round : ι → κ × σ → Option ((ι ⊕ β) × κ × σ)}
    (hround : ∀ i c r, round i c = some r → Reach w (body i, c.2) (.ret r.1, r.2.2))
    (next : β → Prog σ E Ans α) (fuel : Nat) (index : ι) (c : κ × σ) (r : β × κ × σ)
    (hr : rounds fuel round index c = some r) :
    Reach w (.loop body index next, c.2) (next r.1, r.2.2) := by
  induction fuel generalizing index c with
  | zero => simp [rounds] at hr
  | succ fuel ih =>
      simp only [rounds, Option.bind_eq_some_iff] at hr
      obtain ⟨⟨outcome, d⟩, hd, hr⟩ := hr
      have hloop : Reach w (.loop body index next, c.2)
          (Prog.continuation body next outcome, d.2) :=
        (Reach.of_step .loop).trans ((hround index c _ hd).bind _)
      cases outcome with
      | inl again => exact hloop.trans (ih again d hr)
      | inr value =>
          cases hr
          exact hloop

-- A computed run is a run.
theorem exec_reach {h : Script κ σ E Ans} {w : World σ E Ans} (hplays : Plays h w) (fuel : Nat)
    (p : Prog σ E Ans α) (c : κ × σ) (r : α × κ × σ) (hr : exec h fuel p c = some r) :
    Reach w (p, c.2) (.ret r.1, r.2.2) := by
  induction p generalizing c with
  | ret value =>
      cases hr
      exact .refl w _
  | act update next ih => exact (Reach.of_step .act).trans (ih _ _ r hr)
  | call e next ih =>
      simp only [exec_call, Option.bind_eq_some_iff] at hr
      obtain ⟨⟨a, d⟩, hd, hr⟩ := hr
      obtain ⟨s, hrely, hsys⟩ := hplays e c a d hd
      exact (Reach.of_step (.env hrely)).trans ((Reach.of_step (.call hsys)).trans (ih a d r hr))
  | loop body index next hbody ih =>
      rw [exec_loop, Option.bind_eq_some_iff] at hr
      obtain ⟨⟨value, d⟩, hd, hr⟩ := hr
      exact (rounds_reach (fun i c r hi => hbody i c r hi) next fuel index c _ hd).trans
        (ih value d r hr)

end Interaction
