import FtPing.Flow.Balance
import FtPing.Flow.Progress
import FtPing.History

namespace FtPing

open Bytes History Interaction

-- What comes in from outside: datagrams, and what ends a call of poll() before its time.
def isDisturbance : Event → Bool
  | .received _ => true
  | .polled _ .timedOut => false
  | .polled _ _ => true
  | _ => false

section Patient

variable {N : Type}

-- A call of poll() that times out has waited for the whole timeout.
def Waits (s t : State N) : (e : Sys) → Ans e → Prop
  | .poll timeout, .timedOut => s.now + timeout.toNat * 1000000 ≤ t.now
  | _, _ => True

-- A world in which this holds, the clock does not go back, and only so much comes in.
def patient (net : Network N) (most : Nat) : World (State N) Sys Ans where
  rely := Rely net True
  sys e s a t := ∃ u, Rely net True s u ∧ Perform net e u a t ∧ Waits s t e a ∧
    tally isDisturbance t.log ≤ max most (tally isDisturbance s.log)
  rely_refl := Rely.refl net True
  rely_trans := Rely.trans net True

variable {net : Network N} {most : Nat} {α : Type}

theorem patient_reach {c d : Ping N α × State N} (h : Reach (patient net most) c d) :
    Reach (world net True) c d := by
  have hrely : ∀ s t, (patient net most).rely s t → (world net True).rely s t := fun _ _ hr => hr
  refine h.coarsen hrely fun e s a t hsys => ?_
  obtain ⟨u, hu, hcall, -⟩ := hsys
  exact ⟨u, hu, hcall⟩

end Patient

-- What the log of a run in such a world looks like.
def Waited (entry : Entry) (earlier : List Entry) : Prop :=
  ∀ timeout before rest, entry.event = .polled timeout .timedOut → earlier = before :: rest →
    before.now + timeout.toNat * 1000000 ≤ entry.now

structure Credible (most : Nat) (log : List Entry) : Prop where
  ordered : log.Pairwise fun later earlier => earlier.now ≤ later.now
  waited : Every Waited log
  calm : tally isDisturbance log ≤ most

theorem Credible.tail {most : Nat} {entry : Entry} {log : List Entry}
    (h : Credible most (entry :: log)) : Credible most log := by
  refine ⟨h.ordered.of_cons, h.waited.suffix (List.suffix_cons _ _), ?_⟩
  have hcalm := h.calm
  rw [tally_cons] at hcalm
  omega

def isRush : Event → Bool
  | .polled timeout .timedOut => timeout ≤ 0
  | _ => false

def origin : List Entry → Nat
  | [] => 0
  | [entry] => entry.now
  | _ :: entry :: log => origin (entry :: log)

section Run

variable {N : Type} {net : Network N} {most : Nat}

structure Timely (most : Nat) (t : State N) : Prop where
  credible : Credible most t.log
  past : ∀ entry ∈ t.log, entry.now ≤ t.now

theorem Timely.rely {s t : State N} (h : Timely most s) (hr : Rely net True s t) :
    Timely most t := by
  cases hr with
  | intro now stop n hnow hstop hnet =>
      exact ⟨h.credible, fun entry hentry => (h.past entry hentry).trans (hnow trivial)⟩

theorem perform_now {e : Sys} {s t : State N} {a : Ans e} (h : Perform net e s a t) :
    t.now = s.now := by
  cases h <;> rfl

theorem Timely.call {e : Sys} {s t : State N} {a : Ans e} (h : Timely most s)
    (hsys : (patient net most).sys e s a t) : Timely most t := by
  obtain ⟨u, hu, hcall, hwaits, hcalm⟩ := hsys
  have hmost : tally isDisturbance t.log ≤ most :=
    hcalm.trans (max_le (Nat.le_refl _) h.credible.calm)
  have hlater := h.rely hu
  have hlog : u.log = s.log := by
    cases hu
    rfl
  rcases perform_log hcall with ⟨hsame, -⟩ | ⟨event, hmore, hlogged⟩
  · refine ⟨by rw [hsame]; exact hlater.credible, fun entry hentry => ?_⟩
    rw [perform_now hcall]
    rw [hsame] at hentry
    exact hlater.past entry hentry
  · refine ⟨⟨?_, ?_, hmost⟩, fun entry hentry => ?_⟩
    · rw [hmore]
      exact List.pairwise_cons.mpr ⟨hlater.past, hlater.credible.ordered⟩
    · rw [hmore]
      refine hlater.credible.waited.cons fun timeout before rest hevent hbefore => ?_
      have hpast := h.past before (by rw [← hlog, hbefore]; exact List.mem_cons_self)
      have hnow := perform_now hcall
      cases hcall with
      | poll _ _ result =>
          cases hmore
          cases hevent
          change s.now + timeout.toNat * 1000000 ≤ u.now at hwaits
          dsimp only
          omega
      | load offset length => cases hlogged
      | store offset bytes => cases hlogged
      | _ =>
          cases hmore
          cases hevent
    · rw [hmore] at hentry
      rw [perform_now hcall]
      rcases List.mem_cons.mp hentry with rfl | hentry
      · exact Nat.le_refl _
      · exact hlater.past entry hentry

theorem patient_timely {host : Endian} {s t : State N} {q : Ping N Unit} (hlog : s.log = [])
    (h : Reach (patient net most) (ping_run host, s) (q, t)) : Timely most t := by
  refine (Disciplined.reach (Timely most) (fun s t hs hr => hs.rely hr) (fun s t hs hk => ?_)
    (fun e s a t hs _ hsys => hs.call hsys) (running_ping_run host) h ?_).2
  · refine ⟨by rw [hk.log]; exact hs.credible, fun entry hentry => ?_⟩
    rw [hk.log] at hentry
    rw [hk.now]
    exact hs.past entry hentry
  · refine ⟨⟨?_, ?_, ?_⟩, ?_⟩ <;> rw [hlog]
    · exact List.Pairwise.nil
    · exact every_nil _
    · exact Nat.zero_le _
    · exact nofun

end Run

end FtPing
