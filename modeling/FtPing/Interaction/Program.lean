import Mathlib.Logic.Relation

namespace Interaction

-- A program over the memory `σ` returns, changes its memory in one atomic action, calls
-- the system and goes on with the answer, or runs a loop. A loop body answers either the
-- index of the next round or the value the loop leaves with.
inductive Prog (σ E : Type) (Ans : E → Type) : Type → Type 1
  | ret {α : Type} (value : α) : Prog σ E Ans α
  | act {α β : Type} (update : σ → β × σ) (next : β → Prog σ E Ans α) : Prog σ E Ans α
  | call {α : Type} (e : E) (next : Ans e → Prog σ E Ans α) : Prog σ E Ans α
  | loop {ι β α : Type} (body : ι → Prog σ E Ans (ι ⊕ β)) (index : ι)
      (next : β → Prog σ E Ans α) : Prog σ E Ans α

namespace Prog

variable {σ E : Type} {Ans : E → Type} {α β γ : Type}

def bind : {α : Type} → Prog σ E Ans α → (α → Prog σ E Ans β) → Prog σ E Ans β
  | _, .ret value, f => f value
  | _, .act update next, f => .act update fun b => (next b).bind f
  | _, .call e next, f => .call e fun a => (next a).bind f
  | _, .loop body index next, f => .loop body index fun b => (next b).bind f

instance : Monad (Prog σ E Ans) where
  pure := .ret
  bind := .bind

def get : Prog σ E Ans σ := .act (fun s => (s, s)) .ret

def modify (f : σ → σ) : Prog σ E Ans Unit := .act (fun s => ((), f s)) .ret

def perform (e : E) : Prog σ E Ans (Ans e) := .call e .ret

def iterate {ι : Type} (body : ι → Prog σ E Ans (ι ⊕ β)) (index : ι) : Prog σ E Ans β :=
  .loop body index .ret

@[simp] theorem pure_eq (value : α) : (pure value : Prog σ E Ans α) = .ret value := rfl

@[simp] theorem bind_eq (p : Prog σ E Ans α) (f : α → Prog σ E Ans β) : p >>= f = p.bind f := rfl

@[simp] theorem ret_bind (value : α) (f : α → Prog σ E Ans β) :
    (Prog.ret value).bind f = f value := rfl

@[simp] theorem act_bind (update : σ → γ × σ) (next : γ → Prog σ E Ans α)
    (f : α → Prog σ E Ans β) :
    (Prog.act update next).bind f = .act update fun b => (next b).bind f := rfl

@[simp] theorem call_bind (e : E) (next : Ans e → Prog σ E Ans α) (f : α → Prog σ E Ans β) :
    (Prog.call e next).bind f = .call e fun a => (next a).bind f := rfl

@[simp] theorem loop_bind {ι : Type} (body : ι → Prog σ E Ans (ι ⊕ γ)) (index : ι)
    (next : γ → Prog σ E Ans α) (f : α → Prog σ E Ans β) :
    (Prog.loop body index next).bind f = .loop body index fun b => (next b).bind f := rfl

theorem bind_assoc (p : Prog σ E Ans α) (f : α → Prog σ E Ans β) (g : β → Prog σ E Ans γ) :
    (p.bind f).bind g = p.bind fun a => (f a).bind g := by
  induction p with
  | ret value => rfl
  | act update next ih => exact congrArg (Prog.act update) (funext fun b => ih b f)
  | call e next ih => exact congrArg (Prog.call e) (funext fun a => ih a f)
  | loop body index next _ ih => exact congrArg (Prog.loop body index) (funext fun b => ih b f)

-- What remains of a loop after one round of its body.
def continuation {ι : Type} (body : ι → Prog σ E Ans (ι ⊕ β)) (next : β → Prog σ E Ans α) :
    ι ⊕ β → Prog σ E Ans α
  | .inl index => .loop body index next
  | .inr value => next value

end Prog

end Interaction
