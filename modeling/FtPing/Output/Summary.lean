import FtPing.Core.Context
import FtPing.Flow.Loop
import FtPing.Numeric.Statistics
import FtPing.Output.PrintReport

namespace FtPing

open Bytes Interaction Numeric

-- What the running figures are of the times recorded so far.
structure Summarises (rtts : List ℚ) (stats : Stats) : Prop where
  n_recv : stats.n_recv = rtts.length
  sum : stats.sum = rtts.sum
  sum_sq : stats.sum_sq = (rtts.map fun x => x * x).sum
  rtt_min : rtts ≠ [] → stats.rtt_min ∈ rtts ∧ ∀ x ∈ rtts, stats.rtt_min ≤ x
  rtt_max : rtts ≠ [] → stats.rtt_max ∈ rtts ∧ ∀ x ∈ rtts, x ≤ stats.rtt_max

theorem summarises_zero : Summarises [] Stats.zero :=
  ⟨rfl, rfl, rfl, fun h => absurd rfl h, fun h => absurd rfl h⟩

-- One more reply. The first one sets the minimum and the maximum.
theorem Summarises.fold_rtt {rtts : List ℚ} {stats : Stats} (h : Summarises rtts stats) (rtt : ℚ) :
    Summarises (rtts ++ [rtt]) (fold_rtt stats rtt) := by
  have hfirst : stats.n_recv + 1 = 1 ↔ rtts = [] := by
    rw [h.n_recv, ← List.length_eq_zero_iff]
    omega
  refine ⟨?_, ?_, ?_, fun _ => ?_, fun _ => ?_⟩
  · simp [FtPing.fold_rtt, h.n_recv]
  · simp [FtPing.fold_rtt, h.sum]
  · simp [FtPing.fold_rtt, h.sum_sq]
  · by_cases hnone : rtts = []
    · subst hnone
      simp [FtPing.fold_rtt, hfirst]
    · obtain ⟨hmem, hle⟩ := h.rtt_min hnone
      simp only [FtPing.fold_rtt, hfirst, hnone, false_or, List.mem_append, List.mem_singleton]
      split_ifs with hless
      · refine ⟨Or.inr rfl, fun x hx => ?_⟩
        rcases hx with hx | rfl
        · exact hless.le.trans (hle x hx)
        · exact le_rfl
      · refine ⟨Or.inl hmem, fun x hx => ?_⟩
        rcases hx with hx | rfl
        · exact hle x hx
        · exact not_lt.mp hless
  · by_cases hnone : rtts = []
    · subst hnone
      simp [FtPing.fold_rtt, hfirst]
    · obtain ⟨hmem, hle⟩ := h.rtt_max hnone
      simp only [FtPing.fold_rtt, hfirst, hnone, false_or, List.mem_append, List.mem_singleton]
      split_ifs with hmore
      · refine ⟨Or.inr rfl, fun x hx => ?_⟩
        rcases hx with hx | rfl
        · exact (hle x hx).trans hmore.le
        · exact le_rfl
      · refine ⟨Or.inl hmem, fun x hx => ?_⟩
        rcases hx with hx | rfl
        · exact hle x hx
        · exact not_lt.mp hmore

theorem summarises_fold (rtts : List ℚ) :
    Summarises rtts (rtts.foldl fold_rtt Stats.zero) := by
  induction rtts using List.reverseRecOn with
  | nil => exact summarises_zero
  | append_singleton rtts rtt ih =>
      rw [List.foldl_append, List.foldl_cons, List.foldl_nil]
      exact ih.fold_rtt rtt

theorem fold_rtt_n_sent (rtts : List ℚ) (stats : Stats) :
    (rtts.foldl fold_rtt stats).n_sent = stats.n_sent := by
  induction rtts generalizing stats with
  | nil => rfl
  | cons rtt rtts ih => exact ih _

-- The figures do not depend on the order of the replies.
theorem Summarises.perm {rtts rtts' : List ℚ} {stats stats' : Stats} (h : Summarises rtts stats)
    (h' : Summarises rtts' stats') (hne : rtts ≠ []) (hperm : rtts'.Perm rtts)
    (hsent : stats'.n_sent = stats.n_sent) : stats' = stats := by
  have hne' : rtts' ≠ [] := fun hnone => hne (List.nil_perm.mp (hnone ▸ hperm))
  obtain ⟨hmin, hminle⟩ := h.rtt_min hne
  obtain ⟨hmin', hminle'⟩ := h'.rtt_min hne'
  obtain ⟨hmax, hmaxle⟩ := h.rtt_max hne
  obtain ⟨hmax', hmaxle'⟩ := h'.rtt_max hne'
  apply Stats.ext
  · exact hsent
  · rw [h.n_recv, h'.n_recv, hperm.length_eq]
  · rw [h.sum, h'.sum, hperm.sum_eq]
  · rw [h.sum_sq, h'.sum_sq, (hperm.map _).sum_eq]
  · exact le_antisymm (hminle' _ (hperm.mem_iff.mpr hmin)) (hminle _ (hperm.mem_iff.mp hmin'))
  · exact le_antisymm (hmaxle _ (hperm.mem_iff.mp hmax')) (hmaxle' _ (hperm.mem_iff.mpr hmax))

section Figures

variable {rtts : List ℚ} {stats : Stats} (h : Summarises rtts stats) (hne : rtts ≠ [])

include h

theorem Summarises.mean : stats.sum / stats.n_recv = mean rtts := by
  rw [h.sum, h.n_recv, Numeric.mean, Int.cast_natCast]

include hne

theorem Summarises.variance :
    stats.sum_sq / stats.n_recv - stats.sum / stats.n_recv * (stats.sum / stats.n_recv) =
      variance rtts := by
  rw [h.mean, h.sum_sq, h.n_recv, Int.cast_natCast, variance_eq hne]

-- The clamp in print_stats() never does anything.
theorem Summarises.print_stats :
    print_stats stats = some (stats.rtt_min, Numeric.mean rtts, stats.rtt_max,
      Numeric.variance rtts) := by
  have hsome : ¬ stats.n_recv = 0 := by
    rw [h.n_recv, Nat.cast_eq_zero, List.length_eq_zero_iff]
    exact hne
  rw [FtPing.print_stats, if_neg hsome]
  simp only [h.variance hne]
  rw [if_neg (not_lt.mpr (variance_nonneg rtts)), h.mean]

end Figures

-- The times that record_rtt() has recorded, the earliest first.
def rtts (log : List Entry) : List ℚ :=
  (log.filterMap fun entry =>
    match entry.event with
    | .countedReply rtt => some rtt
    | _ => none).reverse

theorem rtts_counted (entry : Entry) (log : List Entry) {rtt : ℚ}
    (h : entry.event = .countedReply rtt) : rtts (entry :: log) = rtts log ++ [rtt] := by
  simp [rtts, h]

namespace Flow

-- In every run the figures are those of the times recorded up to there.
theorem Path.summary {N : Type} {host : Endian} {net : Network N} {monotone : Prop}
    {s t : State N} {q : Point} (h : Path host net monotone .start s q t)
    (hstats : s.stats = Stats.zero) (hlog : s.log = []) :
    { t.stats with n_sent := 0 } = (rtts t.log).foldl fold_rtt Stats.zero := by
  refine (h.invariant (fun p t => (p = .start → t.log = []) ∧
    { t.stats with n_sent := 0 } = (rtts t.log).foldl fold_rtt Stats.zero)
    ⟨fun _ => hlog, by rw [hstats, hlog]; rfl⟩ fun p t q u hwalk ht he => ?_).2
  obtain ⟨hempty, hfigures⟩ := ht
  cases he with
  | env p _ _ hr =>
      cases hr
      exact ⟨hempty, hfigures⟩
  | scratch p _ buf => exact ⟨hempty, hfigures⟩
  | zero _ =>
      refine ⟨fun hp => (by cases hp), ?_⟩
      change Stats.zero = (rtts t.log).foldl fold_rtt Stats.zero
      rw [hempty rfl]
      rfl
  | count_reply before d now _ =>
      refine ⟨fun hp => (by cases hp), ?_⟩
      have hlog : rtts (⟨t.now, t.stop, .countedReply (rtt host t d now)⟩ :: t.log) =
          rtts t.log ++ [rtt host t d now] := rtts_counted _ _ rfl
      change _ = (rtts (⟨t.now, t.stop, .countedReply (rtt host t d now)⟩ :: t.log)).foldl
        fold_rtt Stats.zero
      rw [hlog, List.foldl_append, ← hfigures]
      rfl
  | stamp p now _ => cases p <;> exact ⟨fun hp => (by cases hp), hfigures⟩
  | _ => exact ⟨fun hp => (by cases hp), hfigures⟩

end Flow

-- The figures that record_rtt() keeps and print_stats() prints are those of the whole list of
-- times, in any order, and in every run they are those of the times recorded so far.
theorem running_statistics_are_exact (rtts : List ℚ) (hne : rtts ≠ []) :
    let stats := rtts.foldl fold_rtt Stats.zero
    let mean := stats.sum / stats.n_recv
    let variance := stats.sum_sq / stats.n_recv - mean * mean
    stats.n_recv = rtts.length ∧
    (stats.rtt_min ∈ rtts ∧ ∀ x ∈ rtts, stats.rtt_min ≤ x) ∧
    (stats.rtt_max ∈ rtts ∧ ∀ x ∈ rtts, x ≤ stats.rtt_max) ∧
    mean = rtts.sum / rtts.length ∧ stats.rtt_min ≤ mean ∧ mean ≤ stats.rtt_max ∧
    variance = (rtts.map fun x => (x - mean) * (x - mean)).sum / rtts.length ∧
    print_stats stats = some (stats.rtt_min, mean, stats.rtt_max, variance) ∧
    0 ≤ variance ∧ (variance = 0 ↔ ∀ x ∈ rtts, ∀ y ∈ rtts, x = y) ∧
    variance ≤ (stats.rtt_max - stats.rtt_min) * (stats.rtt_max - stats.rtt_min) / 4 ∧
    (∀ rtts' : List ℚ, rtts'.Perm rtts → rtts'.foldl fold_rtt Stats.zero = stats) ∧
    ∀ (host : Endian) (N : Type) (net : Network N) (monotone : Prop) (ctx : Ctx) (n : N)
      (q : Ping N Unit) (t : State N),
      Reach (world net monotone) (ping_run host, .initial ctx n) (q, t) →
      FtPing.rtts t.log = rtts → { t.stats with n_sent := 0 } = stats := by
  intro stats mean variance
  have h : Summarises rtts stats := summarises_fold rtts
  have hmean : mean = Numeric.mean rtts := h.mean
  have hvariance : variance = Numeric.variance rtts := h.variance hne
  obtain ⟨hmin, hminle⟩ := h.rtt_min hne
  obtain ⟨hmax, hmaxle⟩ := h.rtt_max hne
  refine ⟨h.n_recv, ⟨hmin, hminle⟩, ⟨hmax, hmaxle⟩, hmean, ?_, ?_, ?_, ?_, ?_, ?_, ?_, ?_, ?_⟩
  · rw [hmean]
    exact le_mean hne hminle
  · rw [hmean]
    exact mean_le hne hmaxle
  · rw [hvariance, hmean]
    rfl
  · rw [h.print_stats hne, hmean, hvariance]
  · rw [hvariance]
    exact variance_nonneg rtts
  · rw [hvariance]
    exact variance_eq_zero_iff hne
  · rw [hvariance]
    exact variance_le hne fun x hx => ⟨hminle x hx, hmaxle x hx⟩
  · intro rtts' hperm
    exact h.perm (summarises_fold rtts') hne hperm
      ((fold_rtt_n_sent rtts' _).trans (fold_rtt_n_sent rtts _).symm)
  · intro host N net monotone ctx n q t hreach hrtts
    obtain ⟨p, hpath⟩ := Flow.ping_run_path host net monotone (.initial ctx n) t q hreach
    rw [hpath.summary rfl rfl, hrtts]

theorem running_statistics_are_exact_of_three :
    ([4, 1, 4] : List ℚ).foldl fold_rtt Stats.zero = [1, 4, 4].foldl fold_rtt Stats.zero := by
  have h := running_statistics_are_exact [1, 4, 4] (by simp)
  obtain ⟨-, -, -, -, -, -, -, -, -, -, -, hperm, -⟩ := h
  exact hperm [4, 1, 4] (by decide)

end FtPing
