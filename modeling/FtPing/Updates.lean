import Mathlib.Data.List.Basic

namespace Updates

variable {ε σ κ π : Type}

-- A run of events, each of which changes the state or is refused.
inductive Runs (step : ε → σ → σ → Prop) : List ε → σ → σ → Prop
  | nil (s : σ) : Runs step [] s s
  | cons {e : ε} {events : List ε} {s t u : σ} (h : step e s t) (hrest : Runs step events t u) :
      Runs step (e :: events) s u

-- Every event has a key, every key has a part of the state, and an event sets the part of its
-- key whatever it was before. What parts have to agree on is left open.
structure Keyed (step : ε → σ → σ → Prop) (key : ε → κ) (part : κ → σ → π)
    (alike : π → π → Prop) : Prop where
  enabled : ∀ e s t s', step e s t → ∃ t', step e s' t'
  frame : ∀ e s t k, step e s t → key e ≠ k → part k t = part k s
  sets : ∀ e s t s' t', step e s t → step e s' t' → alike (part (key e) t) (part (key e) t')

section Key

variable [DecidableEq κ] (key : ε → κ)

def occurrences (k : κ) (events : List ε) : List ε := events.filter fun e => key e = k

-- The last event of each key, in the order in which they come.
def last_of_each : List ε → List ε
  | [] => []
  | e :: events =>
      if occurrences key (key e) events = [] then e :: last_of_each events
      else last_of_each events

theorem mem_occurrences {e : ε} {events : List ε} : e ∈ occurrences key (key e) events ↔
    e ∈ events := by
  rw [occurrences, List.mem_filter, decide_eq_true_eq, and_iff_left rfl]

theorem occurrences_cons_of_eq {e : ε} {k : κ} (h : key e = k) (events : List ε) :
    occurrences key k (e :: events) = e :: occurrences key k events := by
  rw [occurrences, List.filter_cons_of_pos (by rw [decide_eq_true_eq]; exact h), occurrences]

theorem occurrences_cons_of_ne {e : ε} {k : κ} (h : key e ≠ k) (events : List ε) :
    occurrences key k (e :: events) = occurrences key k events := by
  rw [occurrences, List.filter_cons_of_neg (by rw [decide_eq_true_eq]; exact h), occurrences]

theorem occurrences_last_of_each (k : κ) (events : List ε) :
    occurrences key k (last_of_each key events) =
      (occurrences key k events).getLast?.toList := by
  induction events with
  | nil => rfl
  | cons e events ih =>
      by_cases hkey : key e = k
      · subst hkey
        rw [occurrences_cons_of_eq key rfl, last_of_each]
        split_ifs with hnone
        · rw [occurrences_cons_of_eq key rfl, ih, hnone]
          rfl
        · rw [ih, List.getLast?_cons_of_ne_nil hnone]
      · rw [occurrences_cons_of_ne key hkey, ← ih, last_of_each]
        split_ifs
        · rw [occurrences_cons_of_ne key hkey]
        · rfl

end Key

section Keyed

variable {step : ε → σ → σ → Prop} {key : ε → κ} {part : κ → σ → π} {alike : π → π → Prop}

-- Whether a run goes through does not depend on the state or on the order.
theorem Keyed.runs_iff (h : Keyed step key part alike) (events : List ε) (s : σ) :
    (∃ t, Runs step events s t) ↔ ∀ e ∈ events, ∀ s, ∃ t, step e s t := by
  induction events generalizing s with
  | nil => exact ⟨fun _ => nofun, fun _ => ⟨s, .nil s⟩⟩
  | cons e events ih =>
      rw [List.forall_mem_cons]
      constructor
      · rintro ⟨u, hrun⟩
        cases hrun with
        | cons hstep hrest =>
            exact ⟨fun s' => h.enabled e s _ s' hstep, (ih _).mp ⟨u, hrest⟩⟩
      · rintro ⟨hfirst, hall⟩
        obtain ⟨t, hstep⟩ := hfirst s
        obtain ⟨u, hrest⟩ := (ih t).mpr hall
        exact ⟨u, .cons hstep hrest⟩

variable [DecidableEq κ]

-- A run leaves in a part what the last event of its key has set, or what was there.
theorem Keyed.part_of_run (h : Keyed step key part alike) {events : List ε} {s t : σ} {k : κ}
    (hrun : Runs step events s t) :
    (occurrences key k events = [] → part k t = part k s) ∧
      ∀ e, (occurrences key k events).getLast? = some e →
        ∃ s' t', step e s' t' ∧ part k t = part k t' := by
  induction hrun with
  | nil s => exact ⟨fun _ => rfl, fun e he => by cases he⟩
  | @cons e events s m t hstep hrest ih =>
      obtain ⟨hkept, hlast⟩ := ih
      by_cases hkey : key e = k
      · rw [occurrences_cons_of_eq key hkey]
        refine ⟨nofun, fun last hl => ?_⟩
        cases hocc : occurrences key k events with
        | nil =>
            rw [hocc] at hl
            cases hl
            exact ⟨s, m, hstep, hkept hocc⟩
        | cons first others =>
            rw [hocc, List.getLast?_cons_cons] at hl
            exact hlast last (by rw [hocc]; exact hl)
      · rw [occurrences_cons_of_ne key hkey]
        exact ⟨fun hocc => (hkept hocc).trans (h.frame e s m k hstep hkey), hlast⟩

-- Two runs in which the same event is the last of the key `k` leave the same there.
theorem Keyed.part_alike (h : Keyed step key part alike) {events events' : List ε}
    {s s' t t' : σ} {k : κ} (hrefl : ∀ p, alike p p) (hrun : Runs step events s t)
    (hrun' : Runs step events' s' t') (hstart : part k s = part k s')
    (hlast : (occurrences key k events).getLast? = (occurrences key k events').getLast?) :
    alike (part k t) (part k t') := by
  obtain ⟨hkept, hset⟩ := h.part_of_run (k := k) hrun
  obtain ⟨hkept', hset'⟩ := h.part_of_run (k := k) hrun'
  cases hl : (occurrences key k events).getLast? with
  | none =>
      rw [hl] at hlast
      rw [hkept (List.getLast?_eq_none_iff.mp hl), hstart,
        ← hkept' (List.getLast?_eq_none_iff.mp hlast.symm)]
      exact hrefl _
  | some e =>
      have hkey : key e = k := by
        have hmem := List.mem_of_getLast? hl
        rw [occurrences, List.mem_filter, decide_eq_true_eq] at hmem
        exact hmem.2
      rw [hl] at hlast
      obtain ⟨u, v, hstep, hpart⟩ := hset e hl
      obtain ⟨u', v', hstep', hpart'⟩ := hset' e hlast.symm
      rw [hpart, hpart', ← hkey]
      exact h.sets e u v u' v' hstep hstep'

end Keyed

end Updates
