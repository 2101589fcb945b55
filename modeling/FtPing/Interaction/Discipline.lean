import FtPing.Interaction.Safety

namespace Interaction

variable {σ E : Type} {Ans : E → Type} {α β γ : Type}

section Discipline

variable (allowed loud : E → Prop)

-- A program does not return a value that `ends` holds of before it has made a loud call.
def Speaks : {α : Type} → (α → Prop) → Prog σ E Ans α → Prop
  | _, ends, .ret value => ¬ ends value
  | _, ends, .act _ next => ∀ b, Speaks ends (next b)
  | _, ends, .call e next => loud e ∨ ∀ a, Speaks ends (next a)
  | _, ends, .loop _ _ next => ∀ b, Speaks ends (next b)

-- A program makes allowed calls only, its actions all keep something of the memory, and every
-- round of its loops makes a loud call before the next round begins.
def Disciplined (keeps : σ → σ → Prop) : {α : Type} → Prog σ E Ans α → Prop
  | _, .ret _ => True
  | _, .act update next =>
      (∀ s, keeps s (update s).2) ∧ ∀ b, Disciplined keeps (next b)
  | _, .call e next => allowed e ∧ ∀ a, Disciplined keeps (next a)
  | _, .loop body _ next =>
      (∀ i, Disciplined keeps (body i) ∧ Speaks loud (fun r => r.isLeft = true) (body i)) ∧
        ∀ b, Disciplined keeps (next b)

-- A step that is no loud call, whatever the memory and the answer.
inductive Silent : Prog σ E Ans α → Prog σ E Ans α → Prop
  | act {β : Type} {update : σ → β × σ} {next : β → Prog σ E Ans α} (b : β) :
      Silent (.act update next) (next b)
  | call {e : E} {next : Ans e → Prog σ E Ans α} (h : ¬ loud e) (a : Ans e) :
      Silent (.call e next) (next a)
  | loop {ι β : Type} {body : ι → Prog σ E Ans (ι ⊕ β)} {index : ι} {next : β → Prog σ E Ans α} :
      Silent (.loop body index next) ((body index).bind (Prog.continuation body next))

-- A program that is silent only for a while.
def Settles (p : Prog σ E Ans α) : Prop := Acc (fun q p => Silent loud p q) p

variable {allowed loud} {keeps : σ → σ → Prop}

theorem Speaks.bind {ends : β → Prop} (p : Prog σ E Ans α) {f : α → Prog σ E Ans β}
    (h : ∀ a, Speaks loud ends (f a)) : Speaks loud ends (p.bind f) := by
  induction p with
  | ret value => exact h value
  | act update next ih => exact fun b => ih b h
  | call e next ih => exact Or.inr fun a => ih a h
  | loop body index next _ ih => exact fun b => ih b h

theorem Disciplined.bind {p : Prog σ E Ans α} {f : α → Prog σ E Ans β}
    (h : Disciplined allowed loud keeps p) (hf : ∀ a, Disciplined allowed loud keeps (f a)) :
    Disciplined allowed loud keeps (p.bind f) := by
  induction p with
  | ret value => exact hf value
  | act update next ih => exact ⟨h.1, fun b => ih b (h.2 b) hf⟩
  | call e next ih => exact ⟨h.1, fun a => ih a (h.2 a) hf⟩
  | loop body index next _ ih => exact ⟨h.1, fun b => ih b (h.2 b) hf⟩

theorem Speaks.unfold {ends : α → Prop} {ι : Type} {body : ι → Prog σ E Ans (ι ⊕ β)} {index : ι}
    {next : β → Prog σ E Ans α} (h : Speaks loud ends (.loop body index next)) :
    Speaks loud ends ((body index).bind (Prog.continuation body next)) := by
  refine Speaks.bind _ fun r => ?_
  cases r with
  | inl again => exact h
  | inr value => exact h value

theorem Disciplined.unfold {ι : Type} {body : ι → Prog σ E Ans (ι ⊕ β)} {index : ι}
    {next : β → Prog σ E Ans α} (h : Disciplined allowed loud keeps (.loop body index next)) :
    Disciplined allowed loud keeps ((body index).bind (Prog.continuation body next)) := by
  refine (h.1 index).1.bind fun r => ?_
  cases r with
  | inl again => exact h
  | inr value => exact h.2 value

-- Silence in `p` before a return that `ends` holds of is all there is to be afraid of.
theorem Settles.bind {p : Prog σ E Ans α} {f : α → Prog σ E Ans β} {ends : α → Prop}
    (h : Settles loud p) (hspeaks : Speaks loud ends p)
    (hf : ∀ a, ¬ ends a → Settles loud (f a)) : Settles loud (p.bind f) := by
  induction h with
  | intro p _ ih =>
      cases p with
      | ret value => exact hf value hspeaks
      | act update next =>
          refine Acc.intro _ fun q hq => ?_
          cases hq with
          | act b => exact ih _ (.act b) (hspeaks b)
      | call e next =>
          refine Acc.intro _ fun q hq => ?_
          cases hq with
          | call hquiet a => exact ih _ (.call hquiet a) (hspeaks.resolve_left hquiet a)
      | loop body index next =>
          refine Acc.intro _ fun q hq => ?_
          cases hq with
          | loop =>
              have hnext : (Prog.continuation body fun b => (next b).bind f) =
                  fun r => (Prog.continuation body next r).bind f := by
                funext r
                cases r <;> rfl
              rw [hnext, ← Prog.bind_assoc]
              exact ih _ .loop hspeaks.unfold

theorem Disciplined.settles {p : Prog σ E Ans α} (h : Disciplined allowed loud keeps p) :
    Settles loud p := by
  induction p with
  | ret value => exact Acc.intro _ fun q hq => nomatch hq
  | act update next ih =>
      refine Acc.intro _ fun q hq => ?_
      cases hq with
      | act b => exact ih b (h.2 b)
  | call e next ih =>
      refine Acc.intro _ fun q hq => ?_
      cases hq with
      | call hquiet a => exact ih a (h.2 a)
  | loop body index next ihbody ihnext =>
      refine Acc.intro _ fun q hq => ?_
      cases hq with
      | loop =>
          refine (ihbody index (h.1 index).1).bind (h.1 index).2 fun r hr => ?_
          cases r with
          | inl again => exact absurd rfl hr
          | inr value => exact ihnext value (h.2 value)

theorem Disciplined.mono {allowed' loud' : E → Prop} {p : Prog σ E Ans α}
    (hallowed : ∀ e, allowed e → allowed' e) (hloud : ∀ e, loud e → loud' e)
    (h : Disciplined allowed loud keeps p) : Disciplined allowed' loud' keeps p := by
  have hspeaks : ∀ {α : Type} {ends : α → Prop} (p : Prog σ E Ans α), Speaks loud ends p →
      Speaks loud' ends p := by
    intro α ends p hp
    induction p with
    | ret value => exact hp
    | act update next ih => exact fun b => ih b (hp b)
    | call e next ih => exact hp.imp (hloud e) fun hp a => ih a (hp a)
    | loop body index next _ ih => exact fun b => ih b (hp b)
  induction p with
  | ret value => trivial
  | act update next ih => exact ⟨h.1, fun b => ih b (h.2 b)⟩
  | call e next ih => exact ⟨hallowed e h.1, fun a => ih a (h.2 a)⟩
  | loop body index next ihbody ih =>
      exact ⟨fun i => ⟨ihbody i (h.1 i).1, hspeaks _ (h.1 i).2⟩, fun b => ih b (h.2 b)⟩

end Discipline

section Returning

variable {w : World σ E Ans}

-- A step of the program itself, after what the world has done by itself.
inductive Advances {α : Type} (w : World σ E Ans) : Prog σ E Ans α × σ → Prog σ E Ans α × σ → Prop
  | act {β : Type} {update : σ → β × σ} {next : β → Prog σ E Ans α} {s t : σ}
      (h : w.rely s t) : Advances w (.act update next, s) (next (update t).1, (update t).2)
  | call {e : E} {next : Ans e → Prog σ E Ans α} {s t u : σ} {a : Ans e} (h : w.rely s t)
      (hsys : w.sys e t a u) : Advances w (.call e next, s) (next a, u)
  | loop {ι β : Type} {body : ι → Prog σ E Ans (ι ⊕ β)} {index : ι} {next : β → Prog σ E Ans α}
      {s t : σ} (h : w.rely s t) :
      Advances w (.loop body index next, s) ((body index).bind (Prog.continuation body next), t)

-- However the run goes on, the program returns.
inductive Returns {α : Type} (w : World σ E Ans) : Prog σ E Ans α × σ → Prop
  | ret {value : α} {s : σ} : Returns w (.ret value, s)
  | step {c : Prog σ E Ans α × σ} (hnext : ∃ d, Advances w c d)
      (hall : ∀ d, Advances w c d → Returns w d) : Returns w c

theorem Advances.reach {c d : Prog σ E Ans α × σ} (h : Advances w c d) : Reach w c d := by
  cases h with
  | act h => exact (Reach.of_step (.env h)).trans (.of_step .act)
  | call h hsys => exact (Reach.of_step (.env h)).trans (.of_step (.call hsys))
  | loop h => exact (Reach.of_step (.env h)).trans (.of_step .loop)

-- Where every call has an answer the program is only at rest once it has returned.
theorem Returns.of_steps (hanswer : ∀ e s, ∃ a t, w.sys e s a t) {p : Prog σ E Ans α} {s : σ}
    (h : ∀ d, Advances w (p, s) d → Returns w d) : Returns w (p, s) := by
  cases p with
  | ret value => exact .ret
  | act update next => exact .step ⟨_, .act (w.rely_refl s)⟩ h
  | call e next =>
      obtain ⟨a, t, hsys⟩ := hanswer e s
      exact .step ⟨_, .call (w.rely_refl s) hsys⟩ h
  | loop body index next => exact .step ⟨_, .loop (w.rely_refl s)⟩ h

variable {allowed loud : E → Prop} {keeps : σ → σ → Prop}

theorem Disciplined.step {c d : Prog σ E Ans α × σ} (h : Disciplined allowed loud keeps c.1)
    (hd : Step w c d) : Disciplined allowed loud keeps d.1 := by
  cases hd with
  | env _ => exact h
  | act => exact h.2 _
  | call _ => exact h.2 _
  | loop => exact Disciplined.unfold h

-- What the world, the actions and the allowed calls keep is kept by a whole run.
theorem Disciplined.reach (holds : σ → Prop) (hrely : ∀ s t, holds s → w.rely s t → holds t)
    (hact : ∀ s t, holds s → keeps s t → holds t)
    (hsys : ∀ e s a t, holds s → allowed e → w.sys e s a t → holds t) {c d : Prog σ E Ans α × σ}
    (h : Disciplined allowed loud keeps c.1) (hd : Reach w c d) (hc : holds c.2) :
    Disciplined allowed loud keeps d.1 ∧ holds d.2 := by
  induction hd with
  | refl => exact ⟨h, hc⟩
  | tail _ hstep ih =>
      refine ⟨ih.1.step hstep, ?_⟩
      obtain ⟨hdisciplined, hholds⟩ := ih
      cases hstep with
      | env hr => exact hrely _ _ hholds hr
      | act => exact hact _ _ hholds (hdisciplined.1 _)
      | call hcall => exact hsys _ _ _ _ hholds hdisciplined.1 hcall
      | loop => exact hholds

-- So such an assertion is a frame for the program.
theorem Disciplined.safe {inv : σ → Prop} (holds : σ → Prop)
    (hrely : ∀ s t, holds s → w.rely s t → holds t) (hact : ∀ s t, holds s → keeps s t → holds t)
    (hsys : ∀ e s a t, holds s → allowed e → w.sys e s a t → holds t)
    (hinv : ∀ s, holds s → inv s) {p : Prog σ E Ans α} (h : Disciplined allowed loud keeps p)
    {s : σ} (hs : holds s) :
    Safe w inv (fun _ _ => True) p (fun _ t => holds t) s := by
  intro q t hr
  have ht := (Disciplined.reach holds hrely hact hsys h hr hs).2
  cases q with
  | ret value => exact ⟨hinv t ht, ht⟩
  | act update next => exact hinv t ht
  | call e next => exact ⟨hinv t ht, trivial⟩
  | loop body index next => exact hinv t ht

-- Where no call is loud no loop goes round again, and the program returns.
theorem Disciplined.returns (hanswer : ∀ e s, ∃ a t, w.sys e s a t) {p : Prog σ E Ans α}
    (h : Disciplined allowed (fun _ => False) keeps p) (s : σ) : Returns w (p, s) := by
  have hsettles := h.settles
  induction hsettles generalizing s with
  | intro p _ ih =>
      refine .of_steps hanswer fun d hd => ?_
      cases hd with
      | act _ => exact ih _ (.act _) (h.2 _) _
      | call _ _ => exact ih _ (.call id _) (h.2 _) _
      | loop _ => exact ih _ .loop h.unfold _

theorem Returns.exists_ret {c : Prog σ E Ans α × σ} (h : Returns w c) :
    ∃ value t, Reach w c (.ret value, t) := by
  induction h with
  | @ret value s => exact ⟨value, s, .refl w _⟩
  | step hnext _ ih =>
      obtain ⟨d, hd⟩ := hnext
      obtain ⟨value, t, hr⟩ := ih d hd
      exact ⟨value, t, hd.reach.trans hr⟩

theorem Speaks.reach {ends : α → Prop} {c d : Prog σ E Ans α × σ}
    (h : Speaks (fun _ => False) ends c.1) (hd : Reach w c d) :
    Speaks (fun _ => False) ends d.1 := by
  refine reach_induction (fun c => Speaks (fun _ => False) ends c.1) h (fun c d hc hstep => ?_) hd
  cases hstep with
  | env _ => exact hc
  | act => exact hc _
  | call _ => exact hc.resolve_left id _
  | loop => exact Speaks.unfold hc

-- How a count over the memory grows with the steps of a disciplined program.
structure Grows (w : World σ E Ans) (loud : E → Prop) (keeps : σ → σ → Prop) (count : σ → Nat) :
    Prop where
  rely : ∀ s t, w.rely s t → count s ≤ count t
  act : ∀ s t, keeps s t → count s ≤ count t
  call : ∀ e s a t, w.sys e s a t → count s ≤ count t
  loud : ∀ e s a t, w.sys e s a t → loud e → count s < count t

-- It returns from where the count is bounded.
theorem returns_of_bounded {count : σ → Nat} (hgrows : Grows w loud keeps count)
    (hanswer : ∀ e s, ∃ a t, w.sys e s a t) {c : Prog σ E Ans α × σ}
    (h : Disciplined allowed loud keeps c.1) {most : Nat}
    (hmost : ∀ d, Reach w c d → count d.2 ≤ most) : Returns w c := by
  -- Outside the induction is on the loud calls that are left, inside on the silence before
  -- the next one.
  have hall : ∀ left, ∀ p : Prog σ E Ans α, Settles loud p → Disciplined allowed loud keeps p →
      ∀ s, Reach w c (p, s) → most ≤ count s + left → Returns w (p, s) := by
    intro left
    induction left using Nat.strongRecOn with
    | ind left ihleft =>
        intro p hp
        induction hp with
        | intro p _ ih =>
            intro hdisciplined s hs hleft
            refine .of_steps hanswer fun d hd => ?_
            have hreach := hs.trans hd.reach
            have hle := hmost d hreach
            cases hd with
            | @act _ update next _ t hr =>
                have hrely := hgrows.rely s t hr
                have hact := hgrows.act _ _ (hdisciplined.1 t)
                exact ih _ (.act _) (hdisciplined.2 _) _ hreach (by omega)
            | @call e next _ t u a hr hsys =>
                have hrely := hgrows.rely s t hr
                by_cases he : loud e
                · have hless := hgrows.loud e t a u hsys he
                  change count u ≤ most at hle
                  have hnext := hdisciplined.2 a
                  exact ihleft (left - 1) (by omega) _ hnext.settles hnext _ hreach (by omega)
                · have hcall := hgrows.call e t a u hsys
                  exact ih _ (.call he a) (hdisciplined.2 a) _ hreach (by omega)
            | @loop _ _ _ _ _ _ t hr =>
                have hrely := hgrows.rely s t hr
                exact ih _ .loop hdisciplined.unfold _ hreach (by omega)
  exact hall most c.1 h.settles h c.2 (.refl w c) (Nat.le_add_left _ _)

end Returning

end Interaction
