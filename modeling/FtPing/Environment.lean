import FtPing.System
import FtPing.Interaction.Agreement

namespace FtPing

open Interaction

-- Surroundings that leave nothing to chance: a clock reading, the outcome of sendto(), of
-- recvfrom() and of poll(), and whether SIGINT has come in by a test of the stop flag, each
-- from what has gone before.
structure Environment (κ : Type) where
  clock : κ → Nat × κ
  sendto : List UInt8 → κ → Option Errno × κ
  recvfrom : κ → Except Errno (List UInt8) × κ
  poll : Int → κ → PollResult × κ
  sigint : κ → Bool × κ

variable {κ : Type} (env : Environment κ)

def respond : (e : Sys) → State κ → Ans e × State κ
  | .clock_gettime site, s =>
      let (now, k) := env.clock s.net
      (timespec now, { s with now := now, net := k }.record (.clock site))
  | .sendto buf _, s =>
      match env.sendto buf s.net with
      | (none, k) => (none, { s.record (.sent buf) with net := k })
      | (some errno, k) => (some errno, { s.record (.sendFailed buf) with net := k })
  | .recvfrom len, s =>
      match env.recvfrom s.net with
      | (.ok d, k) =>
          (.ok (min d.length len), { (s.receive len d).record (.received d) with net := k })
      | (.error errno, k) => (.error errno, { s.record (.receiveFailed errno) with net := k })
  | .poll timeout, s =>
      let (result, k) := env.poll timeout s.net
      (result, { s.record (.polled timeout result) with net := k })
  | .ping_should_stop, s =>
      let (sigint, k) := env.sigint s.net
      (s.stop || sigint, { s with stop := s.stop || sigint, net := k }.record .stopTested)
  | .ping_request_stop, s => ((), { s.record .stopRequested with stop := true })
  | .load offset length, s => (s.ctx.recvbuf.load offset length, s)
  | .store offset bytes, s => ((), s.withRecvbuf (s.ctx.recvbuf.store offset bytes))
  | .print line, s => ((), s.record (.printed line))
  | .entered what, s => ((), s.record (.entered what))
  | .count_sent, s =>
      ((), { s.record .countedSent with stats := { s.stats with n_sent := s.stats.n_sent + 1 } })
  | .count_reply rtt, s =>
      ((), { s.record (.countedReply rtt) with stats := fold_rtt s.stats rtt })

-- Nothing happens between two steps.
inductive Still : State κ → State κ → Prop
  | refl (s : State κ) : Still s s

theorem Still.trans {s t u : State κ} (h : Still s t) (h' : Still t u) : Still s u := by
  cases h
  exact h'

def guided : World (State κ) Sys Ans where
  rely := Still
  sys e s a t := respond env e s = (a, t)
  rely_refl := .refl
  rely_trans _ _ _ := .trans

-- A network that anything may happen on.
def Network.any (κ : Type) : Network κ where
  evolve _ _ := True
  transmit _ _ _ := True
  deliver _ _ _ := True

variable {env}

-- What these surroundings answer can happen in general.
theorem respond_performs {e : Sys} {s t : State κ} {a : Ans e} (h : respond env e s = (a, t)) :
    ∃ u, Rely (Network.any κ) False s u ∧ Perform (Network.any κ) e u a t := by
  have hidle : Rely (Network.any κ) False s s := .refl _ _ s
  have hwait : ∀ now stop k, (s.stop = true → stop = true) →
      Rely (Network.any κ) False s { s with now := now, stop := stop, net := k } :=
    fun now stop k hstop => .intro s now stop k False.elim hstop (.single trivial)
  cases e with
  | clock_gettime site =>
      cases h
      exact ⟨_, hwait (env.clock s.net).1 s.stop (env.clock s.net).2 id, .clock_gettime site _⟩
  | sendto buf dst =>
      simp only [respond] at h
      split at h
      · cases h
        exact ⟨_, hidle, .sent buf dst s _ trivial⟩
      · rename_i k _
        cases h
        exact ⟨_, hwait s.now s.stop k id, .sendFailed buf dst _ _⟩
  | recvfrom len =>
      simp only [respond] at h
      split at h
      · cases h
        exact ⟨_, hidle, .received len s _ _ trivial⟩
      · rename_i k _
        cases h
        exact ⟨_, hwait s.now s.stop k id, .receiveFailed len _ _⟩
  | poll timeout =>
      cases h
      exact ⟨_, hwait s.now s.stop (env.poll timeout s.net).2 id, .poll timeout _ _⟩
  | ping_should_stop =>
      cases h
      refine ⟨_, hwait s.now (s.stop || (env.sigint s.net).1) (env.sigint s.net).2 ?_,
        .ping_should_stop _⟩
      intro hs
      rw [hs, Bool.true_or]
  | ping_request_stop =>
      cases h
      exact ⟨_, hidle, .ping_request_stop s⟩
  | load offset length =>
      cases h
      exact ⟨_, hidle, .load offset length s⟩
  | store offset bytes =>
      cases h
      exact ⟨_, hidle, .store offset bytes s⟩
  | print line =>
      cases h
      exact ⟨_, hidle, .print line s⟩
  | entered what =>
      cases h
      exact ⟨_, hidle, .entered what s⟩
  | count_sent =>
      cases h
      exact ⟨_, hidle, .count_sent s⟩
  | count_reply rtt =>
      cases h
      exact ⟨_, hidle, .count_reply rtt s⟩

theorem guided_reach {α : Type} {c d : Ping κ α × State κ} (h : Reach (guided env) c d) :
    Reach (world (Network.any κ) False) c d := by
  induction h with
  | refl => exact .refl _ _
  | tail _ hstep ih =>
      refine ih.trans ?_
      cases hstep with
      | env hr =>
          cases hr
          exact .refl _ _
      | act => exact .of_step .act
      | call hsys =>
          obtain ⟨u, hrely, hperform⟩ := respond_performs hsys
          exact (Reach.of_step (.env hrely)).trans (.of_step (.call hperform))
      | loop => exact .of_step .loop

-- A run in them, computed.
def guide (env : Environment κ) : Script Unit (State κ) Sys Ans :=
  fun e c => some ((respond env e c.2).1, (), (respond env e c.2).2)

theorem guide_plays (env : Environment κ) : Plays (guide env) (guided env) := by
  intro e c a d hd
  cases hd
  exact ⟨c.2, .refl _, rfl⟩

theorem guided_deterministic : Deterministic (guided env) where
  rely _ _ h := by
    cases h
    rfl
  sys _ _ _ _ _ _ h h' := by
    have hsame := h.symm.trans h'
    exact Prod.ext_iff.mp hsame

end FtPing
