import FtPing.Script
import FtPing.Net.Datagram

namespace FtPing

open Interaction

-- What is under way on the network: the probes that are neither answered nor lost, the replies
-- to them, in flight or queued at the socket, and the datagrams of others.
structure Medium where
  probes : List (List UInt8)
  replies : List Datagram
  others : List Datagram

namespace Medium

-- A probe is answered once, by whatever its host makes of it. Anything may be lost, and any
-- datagram may come up that does not pass for `ours`.
inductive Evolve (ours : Datagram → Bool) : Medium → Medium → Prop
  | answer (front back : List (List UInt8)) (probe : List UInt8) (d : Datagram)
      (replies others : List Datagram) :
      Evolve ours ⟨front ++ probe :: back, replies, others⟩ ⟨front ++ back, d :: replies, others⟩
  | lose_probe (front back : List (List UInt8)) (probe : List UInt8)
      (replies others : List Datagram) :
      Evolve ours ⟨front ++ probe :: back, replies, others⟩ ⟨front ++ back, replies, others⟩
  | lose_reply (probes : List (List UInt8)) (front back : List Datagram) (d : Datagram)
      (others : List Datagram) :
      Evolve ours ⟨probes, front ++ d :: back, others⟩ ⟨probes, front ++ back, others⟩
  | lose_other (probes : List (List UInt8)) (replies front back : List Datagram) (d : Datagram) :
      Evolve ours ⟨probes, replies, front ++ d :: back⟩ ⟨probes, replies, front ++ back⟩
  | add (m : Medium) (d : Datagram) (h : ours d = false) :
      Evolve ours m { m with others := d :: m.others }

-- Whatever is there may be delivered next.
inductive Deliver : Medium → Datagram → Medium → Prop
  | reply (probes : List (List UInt8)) (front back : List Datagram) (d : Datagram)
      (others : List Datagram) :
      Deliver ⟨probes, front ++ d :: back, others⟩ d ⟨probes, front ++ back, others⟩
  | other (probes : List (List UInt8)) (replies front back : List Datagram) (d : Datagram) :
      Deliver ⟨probes, replies, front ++ d :: back⟩ d ⟨probes, replies, front ++ back⟩

-- The replies that may still come in.
def owed (m : Medium) : Nat := m.probes.length + m.replies.length

def Foreign (ours : Datagram → Bool) (m : Medium) : Prop := ∀ d ∈ m.others, ours d = false

variable {ours : Datagram → Bool} {m n : Medium}

theorem Evolve.honest (h : Evolve ours m n) (hforeign : m.Foreign ours) :
    n.owed ≤ m.owed ∧ n.Foreign ours := by
  cases h with
  | answer front back probe d replies others =>
      refine ⟨?_, hforeign⟩
      simp only [owed, List.length_append, List.length_cons]
      omega
  | lose_probe front back probe replies others =>
      refine ⟨?_, hforeign⟩
      simp only [owed, List.length_append, List.length_cons]
      omega
  | lose_reply probes front back d others =>
      refine ⟨?_, hforeign⟩
      simp only [owed, List.length_append, List.length_cons]
      omega
  | lose_other probes replies front back d =>
      refine ⟨Nat.le_refl _, fun other hother => hforeign other ?_⟩
      simp only [List.mem_append, List.mem_cons] at hother ⊢
      tauto
  | add m d hother =>
      refine ⟨Nat.le_refl _, fun other hmem => ?_⟩
      rcases List.mem_cons.mp hmem with rfl | hmem
      · exact hother
      · exact hforeign other hmem

theorem evolves_honest (h : Relation.ReflTransGen (Evolve ours) m n) (hforeign : m.Foreign ours) :
    n.owed ≤ m.owed ∧ n.Foreign ours := by
  induction h with
  | refl => exact ⟨Nat.le_refl _, hforeign⟩
  | tail _ hstep ih =>
      obtain ⟨hle, hother⟩ := hstep.honest ih.2
      exact ⟨hle.trans ih.1, hother⟩

-- What passes for ours was owed.
theorem Deliver.honest {d : Datagram} (h : Deliver m d n) (hforeign : m.Foreign ours) :
    (n.owed + if ours d then 1 else 0) ≤ m.owed ∧ n.Foreign ours := by
  cases h with
  | reply probes front back d others =>
      refine ⟨?_, hforeign⟩
      simp only [owed, List.length_append, List.length_cons]
      split_ifs <;> omega
  | other probes replies front back d =>
      have hother : ours d = false := hforeign d (by simp)
      refine ⟨?_, fun other hmem => hforeign other ?_⟩
      · rw [hother]
        exact Nat.le_refl _
      · simp only [List.mem_append, List.mem_cons] at hmem ⊢
        tauto

end Medium

def honest (ours : Datagram → Bool) : Network Medium where
  evolve := Medium.Evolve ours
  transmit m buf n := n = { m with probes := buf :: m.probes }
  deliver := Medium.Deliver

-- The same state on another network.
def State.on {M N : Type} (s : State M) (net : N) : State N :=
  ⟨s.ctx, s.sched, s.stats, s.now, s.stop, net, s.log⟩

section Play

variable (ours : Datagram → Bool)

-- The datagram is made and delivered at once, if it is one of ours as the answer to a probe.
def Medium.supply (d : Datagram) (m : Medium) : Option Medium :=
  if ours d = false then some m
  else
    match m.probes with
    | [] => none
    | _ :: probes => some { m with probes := probes }

-- What a call does to the network, by the entry that it has left in the log.
def Medium.carry (e : Sys) (log : List Entry) (m : Medium) : Option Medium :=
  match e, log with
  | .sendto _ _, ⟨_, _, .sent buf⟩ :: _ => some { m with probes := buf :: m.probes }
  | .recvfrom _, ⟨_, _, .received d⟩ :: _ => m.supply ours d
  | _, _ => some m

variable {ours} {m n : Medium} {d : Datagram}

end Play

end FtPing
