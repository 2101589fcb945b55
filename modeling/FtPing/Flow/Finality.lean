import FtPing.Flow.Drains
import FtPing.Flow.Progress
import FtPing.Flow.Stopping

namespace FtPing

open Bytes History Interaction

namespace Flow

variable {N : Type} {host : Endian} {net : Network N} {monotone : Prop} {s t : State N} {q : Point}

theorem Path.refusing (h : Path host net monotone .start s q t) (hlog : s.log = []) :
    Refusing q t := by
  refine h.invariant Refusing ?_ fun _ _ _ _ _ ht he => ht.edge he
  refine ⟨?_, by rw [hlog]; exact every_nil _⟩
  change tally isRefused s.log = 0
  rw [hlog]
  rfl

theorem Path.late (h : Path host net monotone .start s q t) (hlog : s.log = []) : Late q t := by
  refine h.invariant Late ?_ fun p t _ u hwalk ht he => ?_
  · rw [Late, hlog]
    exact Nat.zero_le _
  · refine ht.edge (fun hp => ?_) (fun hgo => hwalk.unflagged hlog hgo) he
    rw [hwalk.ctx_kept.1]
    exact hwalk.opted hp

theorem Path.returning (h : Path host net monotone .start s q t) (hlog : s.log = []) :
    Returning q t := by
  refine h.invariant Returning ?_ fun p t _ u hwalk ht he =>
    ht.edge (fun hgo => hwalk.unflagged hlog hgo) he
  refine ⟨?_, by rw [hlog]; exact every_nil _⟩
  change stop_found s.log = false
  rw [hlog]
  rfl

theorem Path.leaving (h : Path host net monotone .start s q t) (hs : s.stats = Stats.zero)
    (hlog : s.log = []) (hopted : s.ctx.flags.exit_on_reply = true) : Leaving q t := by
  refine h.invariant Leaving ?_ fun p t _ u hwalk ht he =>
    ht.edge (by rw [hwalk.ctx_kept.1]; exact hopted) (hwalk.n_recv_counted hs hlog) he
  refine ⟨Or.inr ?_, by rw [hlog]; exact every_nil _⟩
  rw [hlog]
  rfl

theorem Late.bound (h : Late q t) : late_sends t.log ≤ spare t.ctx.flags + 1 := by
  refine Nat.le_trans h ?_
  cases lateness q with
  | none => exact Nat.zero_le _
  | once => exact Nat.le_add_left 1 _
  | extra => exact Nat.le_succ _
  | all => exact Nat.le_refl _

theorem Caller.sinceFound_le {c : Caller} {count most : Nat} (h : c.sinceFound count = some most) :
    most ≤ count := by
  cases c with
  | send_preload i => cases h
  | paced p =>
      cases p with
      | send_if_due => exact (Option.some.inj h).ge
      | _ => cases h

theorem sinceFound_le {most : Nat} (h : sinceFound q = some most) : most ≤ 8 := by
  cases q with
  | stamping p => cases p <;> cases h <;> decide
  | stamped p now =>
      cases p with
      | send_per_reply replies => cases h
      | _ =>
          cases h
          decide
  | _ => first
      | cases h <;> decide
      | exact (Caller.sinceFound_le h).trans (by decide)

theorem Returning.bound (h : Returning q t) : History.since stop_found t.log ≤ 8 := by
  have hsince := h.since
  cases hq : sinceFound q with
  | none =>
      rw [hq] at hsince
      rw [since_none stop_found_lasting hsince]
      exact Nat.zero_le _
  | some most =>
      rw [hq] at hsince
      exact Nat.le_trans hsince (sinceFound_le hq)

theorem Leaving.bound (h : Leaving q t) : since answered t.log ≤ 1 := by
  rcases h.unanswered with hleaving | hnone
  · refine hleaving.2.trans ?_
    cases q <;> first
      | exact Nat.le_refl _
      | exact Nat.zero_le _
  · rw [since_none answered_lasting hnone]
    exact Nat.zero_le _

end Flow

-- From where something is found out that bounds what can still happen ping_run() returns.
theorem returns_of_since {N : Type} {host : Endian} {net : Network N} {monotone : Prop}
    {s t : State N} {q : Ping N Unit} {found : List Entry → Bool} {most : Nat}
    (hlasting : ∀ entry log, found log = true → found (entry :: log) = true)
    (hbound : ∀ p u, Flow.Path host net monotone .start s p u → since found u.log ≤ most)
    (h : Reach (world net monotone) (ping_run host, s) (q, t)) (hfound : found t.log = true) :
    Returns (world net monotone) (q, t) := by
  have hrunning := (Reach.history (running_ping_run host) h).1
  have hmost : ∀ r u, Reach (world net monotone) (q, t) (r, u) →
      u.log.length ≤ t.log.length + most := fun r u hr => by
    obtain ⟨p, hpath⟩ := Flow.ping_run_path host net monotone s u r (h.trans hr)
    have hlater := length_le_since hlasting hfound (Reach.history hrunning hr).2
    exact hlater.trans (Nat.add_le_add_left (hbound p u hpath) _)
  exact ping_run_returns h hmost

-- The stop conditions are final, whatever comes in between.
theorem stops_are_final {N : Type} (host : Endian) (net : Network N) (monotone : Prop) (ctx : Ctx)
    (n : N) (q : Ping N Unit) (t : State N)
    (h : Reach (world net monotone) (ping_run host, .initial ctx n) (q, t)) :
    Every Final t.log ∧ late_sends t.log ≤ Flow.spare ctx.flags + 1 ∧
      (stop_found t.log = true → Returns (world net monotone) (q, t)) ∧
      (ctx.flags.exit_on_reply = true →
        t.stats.n_recv = tally isCounted t.log ∧
        Every (fun entry earlier => answered earlier = true →
          entry.event = .printed (.perror "recvfrom")) t.log ∧
        (answered t.log = true → Returns (world net monotone) (q, t))) := by
  obtain ⟨p, hpath⟩ := Flow.ping_run_path host net monotone (.initial ctx n) t q h
  refine ⟨fun entry earlier hsuffix => ?_, ?_, fun hfound => ?_, fun hopted => ⟨?_, ?_, ?_⟩⟩
  · exact ⟨(hpath.refusing rfl).last entry earlier hsuffix,
      (hpath.returning rfl).last entry earlier hsuffix⟩
  · have hlate := (hpath.late rfl).bound
    rw [hpath.ctx_kept.1] at hlate
    exact hlate
  · exact returns_of_since stop_found_lasting (fun _ _ hr => (hr.returning rfl).bound) h hfound
  · exact hpath.n_recv_counted rfl rfl
  · exact (hpath.leaving rfl rfl hopted).last
  · exact returns_of_since answered_lasting (fun _ _ hr => (hr.leaving rfl rfl hopted).bound) h

-- Ctrl+C during a poll(), with one more packet sent before the flag is tested.
theorem stops_are_final_interrupted :
    ∃ t, Reach (world Network.free True) (ping_run .little, loopback Flags.zero) (.ret (), t) ∧
      stop_found t.log = true ∧ late_sends t.log = 1 ∧ Every Final t.log := by
  have hrun : (exec (play true) 3 (ping_run .little) (⟨[0, 0, 0, 1000000000, 1000000000,
      1000000000], [none, none], [(true, .timedOut)], []⟩, loopback Flags.zero)).map
      (fun r => (stop_found r.2.2.log, late_sends r.2.2.log)) = some (true, 1) := by
    decide +kernel
  obtain ⟨⟨value, k, t⟩, hexec, hcounts⟩ := Option.map_eq_some_iff.mp hrun
  obtain ⟨hfound, hlate⟩ := Prod.ext_iff.mp hcounts
  have hreach := exec_reach (play_plays true True fun _ => rfl) 3 _ _ _ hexec
  exact ⟨t, hreach, hfound, hlate, (stops_are_final .little Network.free True
    (ctx_alloc_buffers Flags.zero [127, 0, 0, 1] 0x1234) () (.ret ()) t hreach).1⟩

end FtPing
