import FtPing.Flow.Balance
import FtPing.Net.Medium
import FtPing.Net.Replies
import FtPing.Output.PrintReport

namespace FtPing

open Bytes Interaction

namespace Flow

section Display

variable {N : Type} {host : Endian} {net : Network N} {monotone : Prop} {s t : State N}
  {q : Point}

end Display

section Honesty

variable {host : Endian} {monotone : Prop} {s t u : State Medium} {p q : Point} {id : UInt16}
  {len : Nat}

-- In send_one() between the success of sendto() and the dot.
def sending : Point → Nat
  | .accepted _ => 1
  | .counted _ => 1
  | _ => 0

structure Solvent (host : Endian) (id : UInt16) (len : Nat) (p : Point) (t : State Medium) :
    Prop where
  foreign : t.net.Foreign fun d => is_reply host id (d.take len)
  covered : tally (answers host id len) t.log + t.net.owed ≤ tally isSent t.log
  unsent : tally (answers host id len) t.log + sending p ≤ tally isSent t.log

-- A step on which nothing goes out and nothing comes in.
theorem Solvent.same (h : Solvent host id len p t) (hnet : u.net = t.net)
    (hle : sending q ≤ sending p)
    (hlog : u.log = t.log ∨ ∃ entry, u.log = entry :: t.log ∧ isSent entry.event = false ∧
      answers host id len entry.event = false) : Solvent host id len q u := by
  have hanswers : tally (answers host id len) u.log = tally (answers host id len) t.log := by
    rcases hlog with hlog | ⟨entry, hlog, -, hnone⟩
    · rw [hlog]
    · rw [hlog, tally_miss hnone]
  have hsent : tally isSent u.log = tally isSent t.log := by
    rcases hlog with hlog | ⟨entry, hlog, hnone, -⟩
    · rw [hlog]
    · rw [hlog, tally_miss hnone]
  refine ⟨by rw [hnet]; exact h.foreign, by rw [hnet, hanswers, hsent]; exact h.covered, ?_⟩
  rw [hanswers, hsent]
  exact (Nat.add_le_add_left hle _).trans h.unsent

theorem Solvent.edge (h : Solvent host id len p t)
    (he : Edge host (honest fun d => is_reply host id (d.take len)) monotone p t q u) :
    Solvent host id len q u := by
  cases he with
  | env _ _ _ hr =>
      cases hr with
      | intro now stop n hnow hstop hnet =>
          obtain ⟨hle, hforeign⟩ := Medium.evolves_honest hnet h.foreign
          exact ⟨hforeign, (Nat.add_le_add_left hle _).trans h.covered, h.unsent⟩
  | transmit c buf t n htransmit =>
      subst htransmit
      have hcovered := h.covered
      have hunsent := h.unsent
      refine ⟨h.foreign, ?_, ?_⟩
      · change tally _ (⟨t.now, t.stop, .sent buf⟩ :: t.log) + _ ≤
          tally isSent (⟨t.now, t.stop, .sent buf⟩ :: t.log)
        rw [tally_miss rfl, tally_hit rfl]
        simp only [Medium.owed, List.length_cons] at hcovered ⊢
        omega
      · change tally _ (⟨t.now, t.stop, .sent buf⟩ :: t.log) + 1 ≤
          tally isSent (⟨t.now, t.stop, .sent buf⟩ :: t.log)
        rw [tally_miss rfl, tally_hit rfl]
        exact Nat.succ_le_succ hunsent
  | receive before d t n hdeliver =>
      obtain ⟨hle, hforeign⟩ := Medium.Deliver.honest hdeliver h.foreign
      have hcovered : tally (answers host id len) (⟨t.now, t.stop, .received d⟩ :: t.log) + n.owed ≤
          tally isSent (⟨t.now, t.stop, .received d⟩ :: t.log) := by
        have hbefore := h.covered
        rw [tally_cons, tally_miss rfl, answers]
        omega
      exact ⟨hforeign, hcovered, (Nat.le_add_right _ _).trans hcovered⟩
  | stamp p now t => cases p <;> exact h.same rfl (Nat.le_refl _) (Or.inl rfl)
  | _ => first
      | exact h.same rfl (Nat.le_refl _) (Or.inl rfl)
      | exact h.same rfl (Nat.le_refl _) (Or.inr ⟨_, rfl, rfl, rfl⟩)
      | exact h.same rfl (Nat.zero_le _) (Or.inl rfl)
      | exact h.same rfl (Nat.zero_le _) (Or.inr ⟨_, rfl, rfl, rfl⟩)

theorem owing (p : Point) : 0 ≤ uncounted p ∧ 0 ≤ undotted p ∧
    uncounted p + undotted p = sending p := by
  cases p with
  | accepted c => exact ⟨Int.one_nonneg, Int.le_refl 0, rfl⟩
  | counted c => exact ⟨Int.le_refl 0, Int.one_nonneg, rfl⟩
  | _ => exact ⟨Int.le_refl 0, Int.le_refl 0, rfl⟩

end Honesty

end Flow

end FtPing
