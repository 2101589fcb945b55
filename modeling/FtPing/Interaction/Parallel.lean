import FtPing.Interaction.Embedding
import Mathlib.Logic.Function.Basic

namespace Interaction

variable {ι Ω σ E : Type} {Ans : E → Type} {α : Type}

-- Programs side by side on a common memory: where each of them has its own, what may happen
-- between two steps, and what their calls do.
structure Together (ι Ω σ E : Type) (Ans : E → Type) where
  view : ι → View Ω σ
  env : Ω → Ω → Prop
  sys : ι → (e : E) → Ω → Ans e → Ω → Prop

-- One of them makes a step, or none.
inductive Interleaves [DecidableEq ι] (m : Together ι Ω σ E Ans) :
    (ι → Prog σ E Ans α) × Ω → (ι → Prog σ E Ans α) × Ω → Prop
  | env {ps : ι → Prog σ E Ans α} {s t : Ω} (h : m.env s t) : Interleaves m (ps, s) (ps, t)
  | act {ps : ι → Prog σ E Ans α} {s : Ω} (i : ι) {β : Type} {update : σ → β × σ}
      {next : β → Prog σ E Ans α} (hi : ps i = .act update next) :
      Interleaves m (ps, s)
        (Function.update ps i (next (update ((m.view i).get s)).1),
          (m.view i).put (update ((m.view i).get s)).2 s)
  | call {ps : ι → Prog σ E Ans α} {s t : Ω} (i : ι) {e : E} {next : Ans e → Prog σ E Ans α}
      {a : Ans e} (hi : ps i = .call e next) (h : m.sys i e s a t) :
      Interleaves m (ps, s) (Function.update ps i (next a), t)
  | loop {ps : ι → Prog σ E Ans α} {s : Ω} (i : ι) {κ β : Type}
      {body : κ → Prog σ E Ans (κ ⊕ β)} {index : κ} {next : β → Prog σ E Ans α}
      (hi : ps i = .loop body index next) :
      Interleaves m (ps, s)
        (Function.update ps i ((body index).bind (Prog.continuation body next)), s)

-- The worlds that the programs live in side by side: what all the others do is what the world of
-- each one allows for between two of its steps. What another one may have done by a call is
-- known from its own run.
structure Lives (m : Together ι Ω σ E Ans) (w : ι → World σ E Ans) (keeps : σ → σ → Prop)
    (ps : ι → Prog σ E Ans α) (start : Ω) : Prop where
  env : ∀ i s t, m.env s t → (w i).rely ((m.view i).get s) ((m.view i).get t)
  own : ∀ i e s a t, m.sys i e s a t → (w i).sys e ((m.view i).get s) a ((m.view i).get t)
  act : ∀ i j, i ≠ j → ∀ s u, keeps ((m.view j).get s) u →
    (w i).rely ((m.view i).get s) ((m.view i).get ((m.view j).put u s))
  call : ∀ i j, i ≠ j → ∀ e s a t q, m.sys j e s a t →
    Reach (w j) (ps j, (m.view j).get start) (q, (m.view j).get t) →
    (w i).rely ((m.view i).get s) ((m.view i).get t)

section Projection

variable [DecidableEq ι] {m : Together ι Ω σ E Ans} {w : ι → World σ E Ans}
  {keeps : σ → σ → Prop} {allowed loud : E → Prop} {ps : ι → Prog σ E Ans α} {start : Ω}

-- Of the programs, the one that has made the step goes on with its run, and the others have waited.
theorem reach_update {qs : ι → Prog σ E Ans α} {s t : Ω} {i : ι} {q : Prog σ E Ans α}
    (hown : Step (w i) (qs i, (m.view i).get s) (q, (m.view i).get t))
    (hothers : ∀ j, j ≠ i → (w j).rely ((m.view j).get s) ((m.view j).get t))
    (hdisciplined : ∀ j, Disciplined allowed loud keeps (qs j))
    (hruns : ∀ j, Reach (w j) (ps j, (m.view j).get start) (qs j, (m.view j).get s)) (j : ι) :
    Disciplined allowed loud keeps (Function.update qs i q j) ∧
      Reach (w j) (ps j, (m.view j).get start)
        (Function.update qs i q j, (m.view j).get t) := by
  by_cases hj : j = i
  · subst hj
    rw [Function.update_self]
    exact ⟨(hdisciplined j).step hown, (hruns j).trans (.of_step hown)⟩
  · rw [Function.update_of_ne hj]
    exact ⟨hdisciplined j, (hruns j).trans (.of_step (.env (hothers j hj)))⟩

theorem Lives.step (h : Lives m w keeps ps start) {qs rs : ι → Prog σ E Ans α} {s t : Ω}
    (hdisciplined : ∀ j, Disciplined allowed loud keeps (qs j))
    (hruns : ∀ j, Reach (w j) (ps j, (m.view j).get start) (qs j, (m.view j).get s))
    (hstep : Interleaves m (qs, s) (rs, t)) (j : ι) :
    Disciplined allowed loud keeps (rs j) ∧
      Reach (w j) (ps j, (m.view j).get start) (rs j, (m.view j).get t) := by
  cases hstep with
  | env henv => exact ⟨hdisciplined j, (hruns j).trans (.of_step (.env (h.env j _ _ henv)))⟩
  | @act _ _ i β update next hi =>
      have hacts := hdisciplined i
      rw [hi] at hacts
      refine reach_update ?_ (fun j hj => h.act j i hj _ _ (hacts.1 _)) hdisciplined hruns j
      rw [hi, (m.view i).get_put]
      exact .act
  | @call _ _ _ i e next a hi hsys =>
      have hown : Step (w i) (qs i, (m.view i).get s) (next a, (m.view i).get t) := by
        rw [hi]
        exact .call (h.own i e s a t hsys)
      refine reach_update hown (fun j hj => ?_) hdisciplined hruns j
      exact h.call j i hj e s a t _ hsys ((hruns i).trans (.of_step hown))
  | @loop _ _ i κ β body index next hi =>
      refine reach_update ?_ (fun j _ => (w j).rely_refl _) hdisciplined hruns j
      rw [hi]
      exact .loop

-- So the part of each program in a run of all of them is a run of its own.
theorem Lives.reach (h : Lives m w keeps ps start)
    (hps : ∀ i, Disciplined allowed loud keeps (ps i)) {qs : ι → Prog σ E Ans α} {s : Ω}
    (hr : Relation.ReflTransGen (Interleaves m) (ps, start) (qs, s)) (i : ι) :
    Reach (w i) (ps i, (m.view i).get start) (qs i, (m.view i).get s) := by
  have hall : ∀ c, Relation.ReflTransGen (Interleaves m) (ps, start) c →
      ∀ j, Disciplined allowed loud keeps (c.1 j) ∧
        Reach (w j) (ps j, (m.view j).get start) (c.1 j, (m.view j).get c.2) := by
    intro c hc
    induction hc with
    | refl => exact fun j => ⟨hps j, .refl _ _⟩
    | @tail b c _ hstep ih =>
        obtain ⟨⟨qs, s⟩, ⟨rs, t⟩⟩ := b, c
        exact h.step (fun j => (ih j).1) (fun j => (ih j).2) hstep
  exact (hall _ hr i).2

end Projection

end Interaction
