import FtPing.Flow.Patience
import FtPing.Flow.Quota

namespace FtPing

open Bytes History Interaction

-- The entries that the others are counted by: the ends of poll(), the datagrams received, and
-- the calls of send_one().
def isMark : Event → Bool
  | .polled _ _ => true
  | .received _ => true
  | .entered (.send_one _ _) => true
  | _ => false

namespace Flow

variable {N : Type} {host : Endian} {net : Network N} {monotone : Prop} {s t u : State N}
  {p q : Point}

-- How many entries there are at most since the last one of these.
def depth : Point → Nat
  | .start => 0
  | .setup => 0
  | .limiting _ => 1
  | .preload _ => 9
  | .first => 10
  | .calling _ => 14
  | .called _ _ => 14
  | .opened _ _ => 0
  | .headed _ _ => 0
  | .filling _ _ _ => 1
  | .filled _ _ => 1
  | .sealed _ => 1
  | .ready _ _ => 1
  | .accepted _ => 2
  | .counted _ => 3
  | .sent _ => 4
  | .refused _ => 2
  | .failed _ => 3
  | .stamping _ => 11
  | .stamped _ _ => 12
  | .head => 14
  | .waking => 15
  | .woken _ => 16
  | .waiting _ => 16
  | .pollFailed => 0
  | .readable => 0
  | .draining _ => 4
  | .judging _ _ => 0
  | .timing _ _ _ => 1
  | .recorded _ _ _ => 2
  | .reporting _ _ _ => 3
  | .recvFailed => 5
  | .drained _ => 5
  | .burst _ => 12
  | .bursting _ => 13
  | .burstTimed _ _ => 14
  | .due => 13
  | .dueTimed _ => 14
  | .finished => 20

def Measured (p : Point) (t : State N) : Prop := t.log.length ≤ 20 * tally isMark t.log + depth p

theorem Measured.same (h : Measured p t) (hq : depth p ≤ depth q) (hlog : u.log = t.log) :
    Measured q u := by
  rw [Measured, hlog]
  exact h.trans (Nat.add_le_add_left hq _)

theorem Measured.more {entry : Entry} (h : Measured p t)
    (hq : depth p < depth q ∨ isMark entry.event = true ∧ depth p < 20)
    (hlog : u.log = entry :: t.log) : Measured q u := by
  rw [Measured] at h ⊢
  rw [hlog, List.length_cons, tally_cons]
  rcases hq with hq | ⟨hmark, hp⟩
  · split_ifs <;> omega
  · rw [if_pos hmark]
    omega

end Flow

end FtPing
