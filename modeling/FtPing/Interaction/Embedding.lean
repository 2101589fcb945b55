import FtPing.Interaction.Discipline

namespace Interaction

variable {σ τ E F : Type} {Ans : E → Type} {A : F → Type} {α β : Type}

-- Where a memory of type `σ` lies in a larger one.
structure View (τ σ : Type) where
  get : τ → σ
  put : σ → τ → τ
  get_put : ∀ s t, get (put s t) = s

-- The calls of a larger program: its own ones, and those of the program it contains.
@[reducible] def Either (A : F → Type) (Ans : E → Type) : F ⊕ E → Type
  | .inl f => A f
  | .inr e => Ans e

-- The same program as a part of a larger one.
def Prog.embed (view : View τ σ) :
    {α : Type} → Prog σ E Ans α → Prog τ (F ⊕ E) (Either A Ans) α
  | _, .ret value => .ret value
  | _, .act update next =>
      .act (fun t => ((update (view.get t)).1, view.put (update (view.get t)).2 t))
        fun b => (next b).embed view
  | _, .call e next => .call (.inr e) fun a => (next a).embed view
  | _, .loop body index next =>
      .loop (fun i => (body i).embed view) index fun b => (next b).embed view

section Embed

variable (view : View τ σ)

theorem Prog.embed_bind (p : Prog σ E Ans α) (f : α → Prog σ E Ans β) :
    (p.bind f).embed view (A := A) =
      (p.embed view).bind fun a => (f a).embed view := by
  induction p with
  | ret value => rfl
  | act update next ih => exact congrArg (Prog.act _) (funext fun b => ih b f)
  | call e next ih => exact congrArg (Prog.call _) (funext fun a => ih a f)
  | loop body index next _ ih => exact congrArg (Prog.loop _ index) (funext fun b => ih b f)

theorem Prog.embed_unfold {ι : Type} (body : ι → Prog σ E Ans (ι ⊕ β)) (index : ι)
    (next : β → Prog σ E Ans α) :
    ((body index).bind (Prog.continuation body next)).embed view (A := A) =
      ((body index).embed view).bind
        (Prog.continuation (fun i => (body i).embed view) fun b => (next b).embed view) := by
  rw [Prog.embed_bind]
  refine congrArg _ (funext fun r => ?_)
  cases r <;> rfl

-- The world of the larger program does to the part what the world of the part may do to it.
structure Extends (w : World σ E Ans) (w' : World τ (F ⊕ E) (Either A Ans)) : Prop where
  rely : ∀ t u, w'.rely t u → w.rely (view.get t) (view.get u)
  sys : ∀ e t a u, w'.sys (.inr e) t a u → w.sys e (view.get t) a (view.get u)

variable {view} {w : World σ E Ans} {w' : World τ (F ⊕ E) (Either A Ans)}

theorem Step.of_embed (hw : Extends view w w') {p : Prog σ E Ans α} {t : τ}
    {d : Prog τ (F ⊕ E) (Either A Ans) α × τ} (h : Step w' (p.embed view, t) d) :
    ∃ q, d.1 = q.embed view ∧ Step w (p, view.get t) (q, view.get d.2) := by
  cases p with
  | ret value =>
      cases h with
      | env h => exact ⟨.ret value, rfl, .env (hw.rely _ _ h)⟩
  | act update next =>
      cases h with
      | env h => exact ⟨.act update next, rfl, .env (hw.rely _ _ h)⟩
      | act =>
          refine ⟨next (update (view.get t)).1, rfl, ?_⟩
          rw [view.get_put]
          exact .act
  | call e next =>
      cases h with
      | env h => exact ⟨.call e next, rfl, .env (hw.rely _ _ h)⟩
      | call h => exact ⟨next _, rfl, .call (hw.sys _ _ _ _ h)⟩
  | loop body index next =>
      cases h with
      | env h => exact ⟨.loop body index next, rfl, .env (hw.rely _ _ h)⟩
      | loop => exact ⟨_, (Prog.embed_unfold view body index next).symm, .loop⟩

-- A run of the larger program within the part is a run of the part.
theorem Reach.of_embed (hw : Extends view w w') {p : Prog σ E Ans α} {t : τ}
    {d : Prog τ (F ⊕ E) (Either A Ans) α × τ} (h : Reach w' (p.embed view, t) d) :
    ∃ q, d.1 = q.embed view ∧ Reach w (p, view.get t) (q, view.get d.2) := by
  refine reach_induction (fun d => ∃ q, d.1 = q.embed view ∧
    Reach w (p, view.get t) (q, view.get d.2)) ⟨p, rfl, .refl w _⟩ ?_ h
  rintro ⟨r, u⟩ d ⟨q, hq, hreach⟩ hstep
  simp only at hq hreach
  subst hq
  obtain ⟨q', hd, hstep'⟩ := Step.of_embed hw hstep
  exact ⟨q', hd, hreach.trans (.of_step hstep')⟩

section Frame

variable {allowed loud : E → Prop} {keeps : σ → σ → Prop}

-- What a call has to be in the larger program to be one that the part is allowed.
def within (calls : E → Prop) : F ⊕ E → Prop
  | .inl _ => False
  | .inr e => calls e

theorem Speaks.embed {ends : α → Prop} {p : Prog σ E Ans α} (h : Speaks loud ends p) :
    Speaks (within loud) ends (p.embed view (A := A)) := by
  induction p with
  | ret value => exact h
  | act update next ih => exact fun b => ih b (h b)
  | call e next ih => exact h.imp id fun h a => ih a (h a)
  | loop body index next _ ih => exact fun b => ih b (h b)

theorem Disciplined.embed {p : Prog σ E Ans α} (h : Disciplined allowed loud keeps p) :
    Disciplined (within allowed) (within loud)
      (fun t u => ∃ s, keeps (view.get t) s ∧ u = view.put s t)
      (p.embed view (A := A)) := by
  induction p with
  | ret value => trivial
  | act update next ih => exact ⟨fun t => ⟨_, h.1 (view.get t), rfl⟩, fun b => ih b (h.2 b)⟩
  | call e next ih => exact ⟨h.1, fun a => ih a (h.2 a)⟩
  | loop body index next ihbody ih =>
      exact ⟨fun i => ⟨ihbody i (h.1 i).1, (h.1 i).2.embed⟩, fun b => ih b (h.2 b)⟩

-- An assertion about the larger memory that the part keeps, with what the part has done by
-- itself by the time of a call and when it returns.
theorem Disciplined.embed_safe (hw : Extends view w w') {inv : τ → Prop}
    {pre : F ⊕ E → τ → Prop} {post : α → τ → Prop} (holds : τ → Prop)
    (hrely : ∀ t u, holds t → w'.rely t u → holds u)
    (hact : ∀ t s, holds t → keeps (view.get t) s → holds (view.put s t))
    (hsys : ∀ e t a u, holds t → allowed e → w'.sys (.inr e) t a u → holds u)
    (hinv : ∀ t, holds t → inv t) {p : Prog σ E Ans α} (hp : Disciplined allowed loud keeps p)
    {t : τ} (ht : holds t)
    (hpre : ∀ e next u, holds u → Reach w (p, view.get t) (.call e next, view.get u) →
      pre (.inr e) u)
    (hpost : ∀ a u, holds u → Reach w (p, view.get t) (.ret a, view.get u) → post a u) :
    Safe w' inv pre (p.embed view) post t := by
  intro r u hr
  obtain ⟨q, hq, hreach⟩ := Reach.of_embed hw hr
  simp only at hq hreach
  subst hq
  have hembedded : Disciplined (within allowed) (within loud)
      (fun t u => ∃ s, keeps (view.get t) s ∧ u = view.put s t)
      (p.embed view (A := A)) := hp.embed
  have hkept := Disciplined.reach holds hrely (fun t u ht ⟨s, hs, hu⟩ => hu ▸ hact t s ht hs)
    (fun f t a u ht hf hu => by
      cases f with
      | inl f => exact hf.elim
      | inr e => exact hsys e t a u ht hf hu) hembedded hr ht
  have hu := hkept.2
  cases q with
  | ret value => exact ⟨hinv u hu, hpost value u hu hreach⟩
  | act update next => exact hinv u hu
  | call e next => exact ⟨hinv u hu, hpre e next u hu hreach⟩
  | loop body index next => exact hinv u hu

end Frame

end Embed

end Interaction
