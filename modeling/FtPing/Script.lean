import FtPing.System
import FtPing.Interaction.Semantics

namespace FtPing

open Interaction

-- What the surroundings will answer: the readings of the clock, the outcomes of sendto() and of
-- recvfrom(), and for each poll() its result and whether SIGINT has come in by then.
structure Answers where
  clock : List Nat
  sends : List (Option Errno)
  polls : List (Bool × PollResult)
  recvs : List (Except Errno (List UInt8))

variable (monotone : Bool)

-- Plays the answers one after the other. It gives up when they run out, and with `monotone`
-- also when the clock would go back.
def play : Script Answers (State Unit) Sys Ans
  | .clock_gettime site, (k, s) =>
      match k.clock with
      | [] => none
      | now :: clock =>
          if monotone = true ∧ now < s.now then none
          else some (timespec now, { k with clock := clock },
            { s with now := now }.record (.clock site))
  | .sendto buf _, (k, s) =>
      match k.sends with
      | [] => none
      | none :: sends => some (none, { k with sends := sends }, s.record (.sent buf))
      | some errno :: sends =>
          some (some errno, { k with sends := sends }, s.record (.sendFailed buf))
  | .recvfrom len, (k, s) =>
      match k.recvs with
      | [] => none
      | .ok datagram :: recvs =>
          some (.ok (min datagram.length len), { k with recvs := recvs },
            (s.receive len datagram).record (.received datagram))
      | .error errno :: recvs =>
          some (.error errno, { k with recvs := recvs }, s.record (.receiveFailed errno))
  | .poll timeout, (k, s) =>
      match k.polls with
      | [] => none
      | (sigint, result) :: polls =>
          some (result, { k with polls := polls },
            { s with stop := s.stop || sigint }.record (.polled timeout result))
  | .ping_should_stop, (k, s) => some (s.stop, k, s.record .stopTested)
  | .ping_request_stop, (k, s) => some ((), k, { s.record .stopRequested with stop := true })
  | .load offset length, (k, s) => some (s.ctx.recvbuf.load offset length, k, s)
  | .store offset bytes, (k, s) => some ((), k, s.withRecvbuf (s.ctx.recvbuf.store offset bytes))
  | .print line, (k, s) => some ((), k, s.record (.printed line))
  | .entered what, (k, s) => some ((), k, s.record (.entered what))
  | .count_sent, (k, s) =>
      some ((), k,
        { s.record .countedSent with stats := { s.stats with n_sent := s.stats.n_sent + 1 } })
  | .count_reply rtt, (k, s) =>
      some ((), k, { s.record (.countedReply rtt) with stats := fold_rtt s.stats rtt })

-- What it plays is what can happen on a network that delivers anything.
theorem play_plays (ordered : Prop) (h : ordered → monotone = true) :
    Plays (play monotone) (world Network.free ordered) := by
  intro e c a d hd
  obtain ⟨k, s⟩ := c
  have hidle : Rely Network.free ordered s s := Rely.refl _ _ s
  cases e with
  | clock_gettime site =>
      simp only [play] at hd
      split at hd
      · cases hd
      · rename_i now clock _
        split at hd
        · cases hd
        · rename_i hnow
          cases hd
          have hle : ordered → s.now ≤ now := fun ho => by
            have := h ho
            simp only [this, true_and, not_lt] at hnow
            exact hnow
          exact ⟨_, .intro s now s.stop s.net hle id .refl, .clock_gettime site _⟩
  | sendto buf dst =>
      simp only [play] at hd
      split at hd
      · cases hd
      · cases hd
        exact ⟨_, hidle, .sent buf dst s () trivial⟩
      · cases hd
        exact ⟨_, hidle, .sendFailed buf dst s _⟩
  | recvfrom len =>
      simp only [play] at hd
      split at hd
      · cases hd
      · cases hd
        exact ⟨_, hidle, .received len s _ () trivial⟩
      · cases hd
        exact ⟨_, hidle, .receiveFailed len s _⟩
  | poll timeout =>
      simp only [play] at hd
      split at hd
      · cases hd
      · cases hd
        refine ⟨_, .intro s s.now _ s.net (fun _ => Nat.le_refl _) ?_ .refl, .poll timeout _ _⟩
        intro hs
        simp [hs]
  | ping_should_stop => cases hd; exact ⟨_, hidle, .ping_should_stop s⟩
  | ping_request_stop => cases hd; exact ⟨_, hidle, .ping_request_stop s⟩
  | load offset length => cases hd; exact ⟨_, hidle, .load offset length s⟩
  | store offset bytes => cases hd; exact ⟨_, hidle, .store offset bytes s⟩
  | print line => cases hd; exact ⟨_, hidle, .print line s⟩
  | entered what => cases hd; exact ⟨_, hidle, .entered what s⟩
  | count_sent => cases hd; exact ⟨_, hidle, .count_sent s⟩
  | count_reply rtt => cases hd; exact ⟨_, hidle, .count_reply rtt s⟩

end FtPing
