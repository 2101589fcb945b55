import FtPing.Net.Quoted
import FtPing.Net.Truncation
import Mathlib.Logic.Function.Basic

namespace FtPing

open Bytes Interaction

-- How the replies to a process are known: by its id, and as far as they fit its receive buffer.
structure Port where
  id : UInt16
  len : Nat

-- What is under way on a network that several processes share: the probes, the datagrams that are
-- in flight or queued for each of them, and, for the record, how much of their own each has lost.
structure Wire (ι : Type) where
  probes : List (List UInt8)
  queues : ι → List Datagram
  lost : ι → Nat

namespace Wire

variable {ι : Type} (host : Endian)

def carries (port : Port) (probe : List UInt8) : Bool := word host probe IcmpHdr.id = port.id

def mine (port : Port) (d : Datagram) : Bool := is_reply host port.id (d.take port.len)

-- Every raw socket of the host gets a copy of what comes in, whichever process it is for. An echo
-- request is answered once by an echo reply, behind whatever IP header. Anything may be lost, and
-- anything may come in that is a reply to none of the processes.
inductive Evolve (ports : ι → Port) [DecidableEq ι] : Wire ι → Wire ι → Prop
  | answer (front back : List (List UInt8)) (probe header : List UInt8) (queues : ι → List Datagram)
      (lost : ι → Nat) (hprobe : IcmpHdr.size ≤ probe.length)
      (hheader : header.length = IpHdr.ip_hl (header.getD 0 0) * 4)
      (hmin : IpHdr.size ≤ header.length) :
      Evolve ports ⟨front ++ probe :: back, queues, lost⟩
        ⟨front ++ back, fun i => (header ++ echo_reply host probe) :: queues i, lost⟩
  | lose_probe (front back : List (List UInt8)) (probe : List UInt8) (queues : ι → List Datagram)
      (lost : ι → Nat) :
      Evolve ports ⟨front ++ probe :: back, queues, lost⟩
        ⟨front ++ back, queues, fun i => lost i + if carries host (ports i) probe then 1 else 0⟩
  | lose (i : ι) (front back : List Datagram) (d : Datagram) (w : Wire ι)
      (h : w.queues i = front ++ d :: back) :
      Evolve ports w { w with
        queues := Function.update w.queues i (front ++ back)
        lost := Function.update w.lost i (w.lost i + if mine host (ports i) d then 1 else 0) }
  | stray (d : Datagram) (w : Wire ι) (h : ∀ i, mine host (ports i) d = false) :
      Evolve ports w { w with queues := fun i => d :: w.queues i }

def Deliver [DecidableEq ι] (i : ι) (w : Wire ι) (d : Datagram) (w' : Wire ι) : Prop :=
  ∃ front back, w.queues i = front ++ d :: back ∧
    w' = { w with queues := Function.update w.queues i (front ++ back) }

-- What the others do on it.
inductive Others (port : Port) [DecidableEq ι] (i : ι) : Wire ι → Wire ι → Prop
  | transmit (buf : List UInt8) (w : Wire ι) (h : carries host port buf = false) :
      Others port i w { w with probes := buf :: w.probes }
  | deliver (j : ι) (hj : j ≠ i) (d : Datagram) (w w' : Wire ι) (h : Deliver j w d w') :
      Others port i w w'

-- The probes and replies of a process that are under way, and those that are lost.
def pending (port : Port) (i : ι) (w : Wire ι) : Nat :=
  w.probes.countP (carries host port) + (w.queues i).countP (mine host port)

def owed (port : Port) (i : ι) (w : Wire ι) : Nat := pending host port i w + w.lost i

-- A probe whose reply fits the buffer of its process, behind the longest IP header there is.
def Sound (port : Port) (probe : List UInt8) : Prop :=
  IcmpHdr.size ≤ probe.length ∧ probe.getD IcmpHdr.code 0 = 0 ∧ 60 + probe.length ≤ port.len

def Fitting (port : Port) (w : Wire ι) : Prop :=
  ∀ probe ∈ w.probes, carries host port probe = true → Sound port probe

section Answer

variable {port : Port} {probe header : List UInt8}
  (hheader : header.length = IpHdr.ip_hl (header.getD 0 0) * 4)
  (hmin : IpHdr.size ≤ header.length)

include hheader hmin

-- The reply is for the process that the probe is from, and for no other.
theorem mine_echo_reply (hprobe : Sound port probe) (hcarries : carries host port probe = true) :
    mine host port (header ++ echo_reply host probe) = true := by
  obtain ⟨hsize, hcode, hfits⟩ := hprobe
  have hlong : (header ++ echo_reply host probe).length ≤ port.len := by
    have hihl := ihl_le (header ++ echo_reply host probe)
    rw [framed_ihl header _ hheader hmin] at hihl
    rw [List.length_append, echo_reply_length]
    omega
  rw [mine, List.take_of_length_le hlong]
  have hsequence : word host probe IcmpHdr.sequence =
      htons host (ntohs host (word host probe IcmpHdr.sequence)) :=
    (ntohs_htons host _).symm
  exact (echo_reply_is_reply host port.id _ header probe hheader hmin hsize hcode
    (of_decide_eq_true hcarries) hsequence).1

theorem not_mine_echo_reply (hprobe : IcmpHdr.size ≤ probe.length)
    (hcarries : carries host port probe = false) :
    mine host port (header ++ echo_reply host probe) = false := by
  rw [← Bool.not_eq_true]
  intro hmine
  obtain ⟨hcomplete, -, -, -, hid⟩ := (is_reply_iff host _ _).mp hmine
  obtain ⟨hip, -, hicmp⟩ := (complete_iff _).mp hcomplete
  have hihl := framed_ihl header (echo_reply host probe) hheader hmin
  have hmessage := framed_message header (echo_reply host probe) hheader hmin
  generalize header ++ echo_reply host probe = d at *
  have hfirst : Datagram.ihl (d.take port.len) = Datagram.ihl d := by
    rw [Datagram.ihl, getD_take d (by simp only [IpHdr.size, List.length_take] at hip; omega)]
    rfl
  rw [hfirst, List.length_take] at hicmp
  rw [Datagram.message] at hmessage
  rw [Datagram.id, Datagram.message, hfirst, word_drop,
    word_take host d (by simp only [IcmpHdr.size, IcmpHdr.id] at hicmp ⊢; omega), ← word_drop,
    hmessage, (echo_reply_fields host probe hprobe).2.2.1] at hid
  exact of_decide_eq_false hcarries hid

end Answer

section Balance

variable {ports : ι → Port} {w w' : Wire ι} {i : ι}

theorem Fitting.front {probe : List UInt8} {front back : List (List UInt8)} {port : Port}
    {queues queues' : ι → List Datagram} {lost lost' : ι → Nat}
    (h : Fitting host port (⟨front ++ probe :: back, queues, lost⟩ : Wire ι)) :
    Fitting host port (⟨front ++ back, queues', lost'⟩ : Wire ι) := by
  intro other hother
  refine h other ?_
  rcases List.mem_append.mp hother with hother | hother
  · exact List.mem_append_left _ hother
  · exact List.mem_append_right _ (List.mem_cons_of_mem _ hother)

theorem countP_split {α : Type} (p : α → Bool) (front back : List α) (item : α) :
    (front ++ item :: back).countP p = (front ++ back).countP p + if p item then 1 else 0 := by
  rw [List.countP_append, List.countP_append, List.countP_cons, Nat.add_assoc]

variable [DecidableEq ι]

-- Whatever the network does, what a process has sent is under way or lost.
theorem Evolve.owed (h : Evolve host ports w w') (hw : Fitting host (ports i) w) :
    Wire.owed host (ports i) i w' = Wire.owed host (ports i) i w ∧ Fitting host (ports i) w' := by
  cases h with
  | answer front back probe header queues lost hprobe hheader hmin =>
      refine ⟨?_, hw.front⟩
      simp only [Wire.owed, pending, countP_split, List.countP_cons]
      cases hcarries : carries host (ports i) probe with
      | true =>
          have hsound := hw probe (by simp) hcarries
          rw [mine_echo_reply host hheader hmin hsound hcarries]
          simp only [ite_true]
          omega
      | false =>
          rw [not_mine_echo_reply host hheader hmin hprobe hcarries]
          rfl
  | lose_probe front back probe queues lost =>
      refine ⟨?_, hw.front⟩
      simp only [Wire.owed, pending, countP_split]
      omega
  | lose j front back d w hqueue =>
      refine ⟨?_, hw⟩
      simp only [Wire.owed, pending]
      by_cases hj : j = i
      · subst hj
        rw [Function.update_self, Function.update_self, hqueue, countP_split]
        omega
      · rw [Function.update_of_ne (Ne.symm hj), Function.update_of_ne (Ne.symm hj)]
  | stray d w hnone =>
      refine ⟨?_, hw⟩
      simp only [Wire.owed, pending]
      rw [List.countP_cons_of_neg (by rw [hnone i]; exact Bool.false_ne_true)]

theorem Others.owed {port : Port} (h : Others host port i w w') (hw : Fitting host port w) :
    Wire.owed host port i w' = Wire.owed host port i w ∧ Fitting host port w' := by
  cases h with
  | transmit buf w hnone =>
      refine ⟨?_, fun probe hprobe hcarries => ?_⟩
      · simp only [Wire.owed, pending]
        rw [List.countP_cons_of_neg (by rw [hnone]; exact Bool.false_ne_true)]
      · rcases List.mem_cons.mp hprobe with rfl | hprobe
        · rw [hnone] at hcarries
          cases hcarries
        · exact hw probe hprobe hcarries
  | deliver j hj d w w' hdeliver =>
      obtain ⟨front, back, -, rfl⟩ := hdeliver
      refine ⟨?_, hw⟩
      simp only [Wire.owed, pending]
      rw [Function.update_of_ne (Ne.symm hj)]

theorem Deliver.owed {port : Port} {d : Datagram} (h : Deliver i w d w')
    (hw : Fitting host port w) :
    (Wire.owed host port i w' + if mine host port d then 1 else 0) = Wire.owed host port i w ∧
      Fitting host port w' := by
  obtain ⟨front, back, hqueue, rfl⟩ := h
  refine ⟨?_, hw⟩
  simp only [Wire.owed, pending]
  rw [Function.update_self, hqueue, countP_split]
  omega

end Balance

end Wire

-- The network as one of the processes sees it.
def shared {ι : Type} [DecidableEq ι] (host : Endian) (ports : ι → Port) (i : ι) :
    Network (Wire ι) where
  evolve w w' := Wire.Evolve host ports w w' ∨ Wire.Others host (ports i) i w w'
  transmit w buf w' := w' = { w with probes := buf :: w.probes }
  deliver := Wire.Deliver i

end FtPing
