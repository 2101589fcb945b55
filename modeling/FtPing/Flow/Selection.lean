import FtPing.Cli.ParseArgs
import FtPing.Flow.Transcript
import FtPing.Net.Attribution
import Mathlib.Tactic.MkIffOfInductiveProp

namespace FtPing

open Bytes Interaction

variable (host : Endian)

-- An ICMP error that gets past the checks of ping_receive() and quotes a whole probe.
@[mk_iff] structure QuotingError (d : Datagram) : Prop where
  complete : d.complete = true
  sum : checksum_matches host d.message = true
  type : is_icmp_error_type d.type = true
  quote : d.quote.complete = true

section Lines

variable (flags : Flags) (id : UInt16)

theorem error_line_isSome_iff (d : Datagram) :
    (error_line host flags id d).isSome = true ↔
      is_icmp_error_type d.type = true ∧ d.quote.complete = true ∧
        (d.quote.id host = id ∨ flags.verbose = true) ∧ flags.quiet = false ∧
          flags.quiet_errors = false := by
  rw [error_line]
  split_ifs with hline
  · exact iff_of_true rfl (by simpa using hline)
  · exact iff_of_false Bool.false_ne_true (by simpa using hline)

def error_report (d : Datagram) : Option Line :=
  if d.complete ∧ checksum_matches host d.message then error_line host flags id d else none

theorem error_report_isSome_iff (d : Datagram) :
    (error_report host flags id d).isSome = true ↔ QuotingError host d ∧
      (d.quote.id host = id ∨ flags.verbose = true) ∧ flags.quiet = false ∧
        flags.quiet_errors = false := by
  rw [quotingError_iff, error_report]
  by_cases haccepted : d.complete = true ∧ checksum_matches host d.message = true
  · rw [if_pos haccepted, error_line_isSome_iff]
    tauto
  · rw [if_neg haccepted]
    exact iff_of_false Bool.false_ne_true fun h => haccepted ⟨h.1.1, h.1.2.1⟩

theorem verdict_line (d : Datagram) :
    (verdict host flags id d).line =
      if d.complete = true then
        if checksum_matches host d.message = true then error_line host flags id d
        else some (.checksum_mismatch d.src)
      else none := by
  rw [verdict]
  by_cases hcomplete : d.complete = true
  · rw [if_neg (not_not.mpr hcomplete), if_pos hcomplete]
    by_cases hsum : checksum_matches host d.message = true
    · rw [if_neg (not_not.mpr hsum), if_pos hsum]
      by_cases htype : d.type = 0
      · -- An echo reply is no error.
        have hnone : error_line host flags id d = none := by
          rw [error_line, htype]
          exact if_neg (by simp [is_icmp_error_type])
        rw [hnone]
        split_ifs <;> rfl
      · rw [if_pos (Or.inl htype)]
        cases error_line host flags id d <;> rfl
    · rw [if_pos hsum, if_neg hsum]
      rfl
  · rw [if_pos hcomplete, if_neg hcomplete]
    rfl

-- The lines about datagrams, parted into those about errors and the others.
theorem error_lines_of_verdict (d : Datagram) :
    (verdict host flags id d).line.filter is_error_line = error_report host flags id d := by
  rw [verdict_line, error_report]
  by_cases hcomplete : d.complete = true
  · by_cases hsum : checksum_matches host d.message = true
    · rw [if_pos hcomplete, if_pos hsum, if_pos (And.intro hcomplete hsum)]
      cases hline : error_line host flags id d with
      | none => rfl
      | some line =>
          rw [error_line_eq_some host hline]
          rfl
    · rw [if_pos hcomplete, if_neg hsum, if_neg (fun h => hsum h.2)]
      rfl
  · rw [if_neg hcomplete, if_neg (fun h => hcomplete h.1)]
    rfl

theorem other_lines_of_verdict (d : Datagram) :
    (verdict host { flags with quiet_errors := true } id d).line =
      (verdict host flags id d).line.filter fun line => !is_error_line line := by
  have hnone : error_line host { flags with quiet_errors := true } id d = none :=
    if_neg (by simp)
  rw [verdict_line, verdict_line, hnone]
  split_ifs
  · cases hline : error_line host flags id d with
    | none => rfl
    | some line =>
        rw [error_line_eq_some host hline]
        rfl
  · rfl
  · rfl

variable (len : Nat)

-- None of the other actions calls for such a line.
theorem announced_other {event : Event} {earlier : List Entry} {line : Line}
    (hevent : ∀ d, event ≠ .received d)
    (h : announced host flags id len event earlier = some line) : is_error_line line = false := by
  cases event with
  | received d => exact absurd rfl (hevent d)
  | countedSent =>
      rw [announced, sent_line] at h
      split_ifs at h
      cases h
      rfl
  | polled timeout result =>
      cases result with
      | failed errno =>
          rw [announced] at h
          split_ifs at h
          cases h
          rfl
      | _ => cases h
  | receiveFailed errno =>
      rw [announced, complaint] at h
      split_ifs at h
      cases h
      rfl
  | entered what =>
      cases what with
      | send_one site seq => cases h
      | report_reply icmp_bytes seq rtt =>
          rcases reply_line_eq_some host h with rfl | rfl <;> rfl
  | _ =>
      cases h
      try rfl

theorem announced_errors (event : Event) (earlier : List Entry) :
    (announced host flags id len event earlier).filter is_error_line =
      match event with
      | .received d => error_report host flags id (d.take len)
      | _ => none := by
  cases event with
  | received d => exact error_lines_of_verdict host flags id (d.take len)
  | _ =>
      rw [Option.filter_eq_none_iff]
      intro line hline
      rw [announced_other host flags id len (by intro d hd; cases hd) hline]
      exact Bool.false_ne_true

theorem announced_quiet (event : Event) (earlier : List Entry) :
    announced host { flags with quiet_errors := true } id len event earlier =
      (announced host flags id len event earlier).filter fun line => !is_error_line line := by
  by_cases hevent : ∀ d, event ≠ .received d
  · have hsame : announced host { flags with quiet_errors := true } id len event earlier =
        announced host flags id len event earlier := by
      cases event with
      | received d => exact absurd rfl (hevent d)
      | polled timeout result => cases result <;> rfl
      | entered what => cases what <;> rfl
      | _ => rfl
    rw [hsame]
    cases hline : announced host flags id len event earlier with
    | none => rfl
    | some line =>
        rw [Option.filter_some_pos]
        rw [announced_other host flags id len hevent hline]
        rfl
  · simp only [not_forall, not_not] at hevent
    obtain ⟨d, rfl⟩ := hevent
    exact other_lines_of_verdict host flags id (d.take len)

theorem transcript_errors (log : List Entry) :
    (transcript host flags id len log).filter is_error_line =
      (datagrams log).filterMap fun d => error_report host flags id (d.take len) := by
  induction log with
  | nil => rfl
  | cons entry log ih =>
      rw [transcript, List.filter_append, ih, ← Option.toList_filter, announced_errors]
      obtain ⟨now, stop, event⟩ := entry
      cases event with
      | received d =>
          change (error_report host flags id (d.take len)).toList ++ _ =
            (d :: datagrams log).filterMap _
          rw [List.filterMap_cons]
          cases error_report host flags id (d.take len) <;> rfl
      | _ => rfl

-- With -Q the lines about errors are missing, and no others.
theorem transcript_quiet (log : List Entry) :
    transcript host { flags with quiet_errors := true } id len log =
      (transcript host flags id len log).filter fun line => !is_error_line line := by
  induction log with
  | nil => rfl
  | cons entry log ih =>
      rw [transcript, transcript, List.filter_append, ← Option.toList_filter, announced_quiet, ih]

end Lines

theorem exec_handle_icmp_error (s : State Unit) {d : Datagram} (k : Answers) (fuel : Nat)
    (hd : s.holds d) (hcomplete : d.complete = true) :
    exec (play false) fuel (handle_icmp_error host s.ctx 0 d.ihl d.ihl d.length) (k, s) =
      some ((), k, printed s (error_line host s.ctx.flags s.ctx.id d)) := by
  rw [handle_icmp_error_eq, Prog.bind_eq, exec_bind,
    exec_of_within hd (within_icmp_error_line host s.ctx d hcomplete), Option.bind_some,
    exec_print_option]

-- The documented choice among the errors, against the program's.
theorem selected_iff (ours : Prop) (quiet quiet_errors verbose : Bool) :
    (((ours ∨ verbose = true) ∧ quiet = false ∧ quiet_errors = false ↔
        quiet = false ∧ (ours ∧ quiet_errors = false ∨ ¬ ours ∧ verbose = true)) ↔
      ours ∨ verbose = false ∨ quiet_errors = false ∨ quiet = true) := by
  by_cases hours : ours
  · cases quiet <;> cases quiet_errors <;> simp [hours]
  · cases quiet <;> cases quiet_errors <;> simp [hours]

theorem removed_iff (error ours : Prop) (quiet verbose : Bool) :
    (error ∧ (ours ∨ verbose = true) ∧ quiet = false ∧ false = false → ours) ↔
      (error → ours ∨ verbose = false ∨ quiet = true) := by
  by_cases hours : ours
  · simp [hours]
  · cases quiet <;> simp [hours]

-- handle_icmp_error() selects its lines as -Q and -v are documented, but for an error about a
-- foreign probe under both of them, which -v would show and -Q hides. So adding -Q to a run
-- leaves out all lines about errors and nothing else, and these lines are about our own probes
-- unless -v shows another one. A line that is about to be printed counts as printed.
theorem error_lines_selected_iff :
    (∀ (s : State Unit) (d : Datagram) (k : Answers) (fuel : Nat), s.holds d →
      QuotingError host d →
        let flags := s.ctx.flags
        let ours := d.quote.id host = s.ctx.id
        ∃ shown : Bool,
          exec (play false) fuel (handle_icmp_error host s.ctx 0 d.ihl d.ihl d.length) (k, s) =
            some ((), k,
              if shown then
                s.record (.printed (.icmp_error d.src (d.quote.sequence host) d.type d.code))
              else s) ∧
          ((shown = true ↔ flags.quiet = false ∧
              (ours ∧ flags.quiet_errors = false ∨ ¬ ours ∧ flags.verbose = true)) ↔
            ours ∨ flags.verbose = false ∨ flags.quiet_errors = false ∨ flags.quiet = true)) ∧
    ∀ (ctx : Ctx) (quiet verbose : Bool) (κ : Type) (env : Environment κ) (k : κ)
      (q : Ping κ Unit) (t : State κ),
      Reach (guided env) (ping_run host, .initial (ctx.display quiet false verbose) k) (q, t) →
        let report := fun whole : Datagram => error_report host
          (ctx.display quiet false verbose).flags ctx.id (whole.take ctx.recvbuf_len)
        let ours := fun d : Datagram => d.quote.id host = ctx.id
        ∃ (q' : Ping κ Unit) (t' : State κ) (due due' : Option Line),
          Reach (guided env) (ping_run host, .initial (ctx.display quiet true verbose) k)
            (q', t') ∧
          actions t'.log = actions t.log ∧
          (q = .ret () → q' = .ret () ∧ due = none ∧ due' = none) ∧
          due'.toList ++ lines t'.log =
            (due.toList ++ lines t.log).filter (fun line => !is_error_line line) ∧
          (due.toList ++ lines t.log).filter is_error_line = (datagrams t.log).filterMap report ∧
          ((∀ whole ∈ datagrams t.log, (report whole).isSome = true →
              ours (whole.take ctx.recvbuf_len)) ↔
            ∀ whole ∈ datagrams t.log, QuotingError host (whole.take ctx.recvbuf_len) →
              ours (whole.take ctx.recvbuf_len) ∨ verbose = false ∨ quiet = true) := by
  refine ⟨fun s d k fuel hd herror => ?_, fun ctx quiet verbose κ env k q t h => ?_⟩
  · intro flags ours
    refine ⟨(error_line host flags s.ctx.id d).isSome, ?_, ?_⟩
    · rw [exec_handle_icmp_error host s k fuel hd herror.complete]
      cases hline : error_line host flags s.ctx.id d with
      | none => rfl
      | some line =>
          rw [error_line_eq_some host hline]
          rfl
    · have hshown := error_line_isSome_iff host flags s.ctx.id d
      simp only [herror.type, herror.quote, true_and] at hshown
      rw [hshown]
      exact selected_iff ours flags.quiet flags.quiet_errors flags.verbose
  · intro report ours
    obtain ⟨q', t', hreach, hshown, hret⟩ := ping_run_shown quiet true verbose h
    obtain ⟨hactions, -, -⟩ := hshown.same
    obtain ⟨due, hlines, hdue⟩ := ping_run_transcript (guided_reach h)
    obtain ⟨due', hlines', hdue'⟩ := ping_run_transcript (guided_reach hreach)
    rw [hactions] at hlines'
    refine ⟨q', t', due, due', hreach, hactions,
      fun h => ⟨hret h, hdue h, hdue' (hret h)⟩, ?_, ?_, ?_⟩
    · rw [← hlines, ← hlines']
      exact transcript_quiet host (ctx.display quiet false verbose).flags ctx.id ctx.recvbuf_len _
    · rw [← hlines, ← datagrams_actions t.log]
      exact transcript_errors host (ctx.display quiet false verbose).flags ctx.id ctx.recvbuf_len _
    · refine forall₂_congr fun whole _ => ?_
      have hreport := error_report_isSome_iff host (ctx.display quiet false verbose).flags ctx.id
        (whole.take ctx.recvbuf_len)
      exact (imp_congr_left hreport).trans (removed_iff _ _ quiet verbose)

-- Time exceeded, for an echo request with the id 0x7856.
def foreign_error : Datagram :=
  [0x45, 0, 0, 0, 0, 0, 0, 0, 64, 1, 0, 0, 10, 0, 0, 1, 10, 0, 0, 2] ++
    [11, 0, 0x11, 0x85, 0, 0, 0, 0] ++
    [0x45, 0, 0, 0, 0, 0, 0, 0, 64, 1, 0, 0, 0, 0, 0, 0, 0, 0, 0, 0] ++
    [8, 0, 0, 0, 0x56, 0x78, 0, 1]

theorem foreign_error_quotes : QuotingError .little foreign_error :=
  ⟨by decide +kernel, by decide +kernel, by decide +kernel, by decide +kernel⟩

theorem foreign_error_id : foreign_error.quote.id .little ≠ 0x1234 := by
  decide +kernel

-- It comes in, and then SIGINT in a poll().
def one_error : Environment Nat :=
  { one_reply with
    recvfrom := fun k => if k = 0 then (.ok foreign_error, 1) else (.error .EAGAIN, 2) }

def verbose_flags (quiet_errors : Bool) : Flags :=
  { Flags.zero with verbose := true, quiet_errors := quiet_errors, host := some ['h'] }

theorem one_error_run (quiet_errors : Bool) :
    ∃ t, Reach (guided one_error)
        (ping_run .little, .initial (loopback_ctx (verbose_flags quiet_errors)) 0) (.ret (), t) ∧
      datagrams t.log = [foreign_error] ∧
      lines t.log = if quiet_errors then [] else [.icmp_error [10, 0, 0, 1] 1 11 0] := by
  have hrun : (exec (guide one_error) 3 (ping_run .little)
      ((), .initial (loopback_ctx (verbose_flags quiet_errors)) 0)).map
      (fun r => (datagrams r.2.2.log, lines r.2.2.log)) =
        some ([foreign_error],
          if quiet_errors then [] else [.icmp_error [10, 0, 0, 1] 1 11 0]) := by
    cases quiet_errors <;> decide +kernel
  obtain ⟨⟨value, k, t⟩, hexec, hlog⟩ := Option.map_eq_some_iff.mp hrun
  obtain ⟨hdatagrams, hlines⟩ := Prod.ext_iff.mp hlog
  exact ⟨t, exec_reach (guide_plays one_error) 3 _ _ _ hexec, hdatagrams, hlines⟩

-- ft_ping -v h prints a line for it and ft_ping -v -Q h does not.
theorem foreign_error_hidden :
    parse_info true 0 3 [some ['p'], some ['-', 'v'], some ['h'], none] Flags.zero =
        .ok (verbose_flags false) ∧
      parse_info true 0 4 [some ['p'], some ['-', 'v'], some ['-', 'Q'], some ['h'], none]
          Flags.zero = .ok (verbose_flags true) ∧
      QuotingError .little foreign_error ∧ foreign_error.quote.id .little ≠ 0x1234 ∧
      ∃ t t', Reach (guided one_error)
          (ping_run .little, .initial (loopback_ctx (verbose_flags false)) 0) (.ret (), t) ∧
        Reach (guided one_error)
          (ping_run .little, .initial (loopback_ctx (verbose_flags true)) 0) (.ret (), t') ∧
        datagrams t.log = [foreign_error] ∧ datagrams t'.log = [foreign_error] ∧
        lines t.log = [.icmp_error [10, 0, 0, 1] 1 11 0] ∧ lines t'.log = [] := by
  obtain ⟨t, hreach, hdatagrams, hlines⟩ := one_error_run false
  obtain ⟨t', hreach', hdatagrams', hlines'⟩ := one_error_run true
  exact ⟨rfl, rfl, foreign_error_quotes, foreign_error_id, t, t', hreach, hreach', hdatagrams,
    hdatagrams', hlines, hlines'⟩

-- Under -v alone it is shown, and adding -Q to that run hides it.
theorem error_lines_selected_foreign :
    (∃ s : State Unit, s.holds foreign_error ∧ QuotingError .little foreign_error ∧
      exec (play false) 0 (handle_icmp_error .little s.ctx 0 20 20 56) (⟨[], [], [], []⟩, s) =
        some ((), ⟨[], [], [], []⟩, s.record (.printed (.icmp_error [10, 0, 0, 1] 1 11 0)))) ∧
    ∃ t, Reach (guided one_error)
        (ping_run .little, .initial (loopback_ctx (verbose_flags false)) 0) (.ret (), t) ∧
      ∃ whole ∈ datagrams t.log, ¬ Datagram.id .little (Datagram.quote (whole.take 1024)) = 0x1234 ∧
        (error_report .little (verbose_flags false) 0x1234 (whole.take 1024)).isSome = true := by
  constructor
  · have hholds : (delivered (loopback (verbose_flags false)) foreign_error).holds foreign_error :=
      delivered_holds (loopback (verbose_flags false)) foreign_error
    obtain ⟨shown, hexec, hselected⟩ := (error_lines_selected_iff .little).1
      (delivered (loopback (verbose_flags false)) foreign_error) foreign_error ⟨[], [], [], []⟩ 0
      hholds foreign_error_quotes
    have hshown : shown = true :=
      (hselected.mpr (Or.inr (Or.inr (Or.inl rfl)))).mpr ⟨rfl, Or.inr ⟨foreign_error_id, rfl⟩⟩
    subst hshown
    exact ⟨_, hholds, foreign_error_quotes, hexec⟩
  · obtain ⟨t, hreach, hdatagrams, -⟩ := one_error_run false
    obtain ⟨-, -, -, -, -, -, -, -, -, hours⟩ := (error_lines_selected_iff .little).2
      (loopback_ctx (verbose_flags false)) false true Nat one_error 0 (.ret ()) t hreach
    refine ⟨t, hreach, ?_⟩
    by_contra hnone
    have hall := hours.mp fun whole hwhole hsome =>
      by_contra fun hforeign => hnone ⟨whole, hwhole, hforeign, hsome⟩
    rw [hdatagrams] at hall
    rcases hall foreign_error (List.mem_singleton.mpr rfl) foreign_error_quotes with h | h | h
    · exact absurd h foreign_error_id
    · cases h
    · cases h

end FtPing
