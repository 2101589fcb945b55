import FtPing.Process.Session

namespace FtPing.Process

open Bytes CLib Interaction

variable {N : Type} {net : Network N} {monotone : Prop} {m : Invocation} {n : N}

-- The streams of a run that has come to its end, and what has been done in it.
def record (host : Endian) (ctx : Ctx) (deeds : List Deed) (r : State N) : Ledger where
  ptrs := .null
  heap := []
  lists := []
  fds := []
  deeds := deeds
  stdout := print_ping_banner host ctx ++ ((lines r.log).reverse.flatMap Line.text ++
    print_stats_text r.ctx.flags.name r.stats)
  stderr := (lines r.log).reverse.flatMap Ledger.complaints

-- How main() can end: with the help text, with a message about what has gone wrong before the
-- first packet, or with the summary of a run of ping_run().
inductive Outcome (net : Network N) (monotone : Prop) (m : Invocation) (n : N) :
    Int → Process N → Prop
  | exited (t : Process N) (hparse : parse_info m.permutes m.euid m.ac m.av Flags.zero = .error .usage)
      (hledger : t.ledger = { Ledger.empty with stdout := print_usage }) (hlog : t.run.log = []) :
      Outcome net monotone m n EXIT_SUCCESS t
  | failed (t : Process N)
      (hparse : parse_info m.permutes m.euid m.ac m.av Flags.zero ≠ .error .usage)
      (hspent : Spent t.ledger)
      (hstdout : t.ledger.stdout = [] ∨ ∃ ctx, t.ledger.stdout = print_ping_banner m.host ctx)
      (hstderr : t.ledger.stderr ≠ []) (hlog : t.run.log = []) :
      Outcome net monotone m n EXIT_FAILURE t
  | finished (t : Process N) (flags : Flags) (dst src : List UInt8)
      (pkt : Buffer (IcmpHdr.size + (ctx_size_buffers flags).1))
      (recvbuf : Buffer (ctx_size_buffers flags).2) (sockfd : Nat) (r : State N)
      (hparse : parse_info m.permutes m.euid m.ac m.av Flags.zero = .ok flags)
      (hdst : dst.length = 4)
      (hrun : Reach (FtPing.world net monotone)
        (ping_run m.host, .initial (built m.host m.pid flags dst pkt recvbuf) n) (.ret (), r))
      (hrely : FtPing.Rely net monotone r t.run)
      (hledger : t.ledger = record m.host (built m.host m.pid flags dst pkt recvbuf)
        (preparation flags dst sockfd src) r) :
      Outcome net monotone m n (exit_status r.stats) t

theorem at_before_log {k : Ledger} {ctx : Ctx} {t : Process N}
    (h : At (before net monotone n ctx) k t) : t.run.log = [] :=
  (rely_same h.holds.2.1).1

theorem main_sound : Sound net monotone m (main m) (Outcome net monotone m n) (start n) := by
  refine safe_bind (ctx_init_sound at_start (fun hparse t ht => ?_) (fun hparse k t hspent hout herr ht => ?_)
    fun flags dst pkt recvbuf k t hready ht => ?_)
  · exact at_ret ht fun t ht => .exited t hparse ht.ledger (at_before_log ht)
  · refine at_ret ht fun t ht => .failed t hparse ?_ (Or.inl ?_) ?_ (at_before_log ht) <;> rw [ht.ledger]
    · exact hspent
    · exact hout
    · exact herr
  · obtain ⟨ptrs, heap, lists, fds, deeds, stdout, stderr⟩ := k
    obtain ⟨⟨⟨hheap, hnodup, hlists⟩, hcomplete⟩, hparse, hdst, hfds, hdeeds, hstdout, hstderr⟩ :=
      hready
    dsimp only at hlists hfds hdeeds hstdout hstderr
    subst hlists hfds hdeeds hstdout hstderr
    have hparsed : parse_info m.permutes m.euid m.ac m.av Flags.zero ≠ .error .usage := by
      rw [hparse]
      nofun
    let ctx := built m.host m.pid flags dst pkt recvbuf
    refine at_get ht fun t ht => ?_
    rw [ht.holds.1]
    refine at_call ht trivial fun _ t _ ht => ?_
    refine safe_bind (socket_open_sound ht rfl (fun ds complaint t ht => ?_) fun sockfd src t ht => ?_)
    · refine ctx_destroy_sound ht ⟨hheap, hnodup, rfl⟩ fun t ht => at_ret ht fun t ht => ?_
      refine .failed t hparsed ?_ (Or.inr ⟨ctx, ?_⟩) ?_ (at_before_log ht) <;> rw [ht.ledger]
      · exact ⟨rfl, rfl, rfl⟩
      · rfl
      · exact List.cons_ne_nil _ _
    · refine safe_bind (signal_install_sound ht (fun t ht => ?_) fun t ht => ?_)
      · rw [if_pos rfl]
        refine at_call ht (List.mem_singleton_self sockfd) fun _ t _ ht => ?_
        refine ctx_destroy_sound ht ⟨hheap, hnodup, rfl⟩ fun t ht => at_ret ht fun t ht => ?_
        refine .failed t hparsed ?_ (Or.inr ⟨ctx, ?_⟩) ?_ (at_before_log ht) <;> rw [ht.ledger]
        · exact ⟨rfl, rfl, List.erase_cons_head sockfd []⟩
        · rfl
        · exact List.cons_ne_nil _ _
      · rw [if_neg (by decide)]
        have hdeeds : Deed.resolved flags.name dst :: Deed.opened sockfd ::
            (settings flags sockfd ++ binding flags sockfd src) ++ [Deed.handled] =
              preparation flags dst sockfd src := by
          simp only [preparation, List.cons_append, List.append_assoc]
        refine session_sound ht ⟨⟨hheap, hnodup, rfl⟩, hcomplete⟩
          ⟨hparse, rfl, hdst, sockfd, src, rfl, hdeeds⟩ rfl fun r t hrun ht => ?_
        refine .finished t flags dst src pkt recvbuf sockfd r hparse hdst hrun ht.holds ?_
        rw [ht.ledger, record, ← hdeeds, ← List.append_assoc]
        rfl

-- What a call of main() may count on: what it gives back is there to be given back, and within
-- ping_run() the three buffers and one descriptor are.
def Holding : Libc ⊕ Sys → Process N → Prop
  | .inl e, t => Owned e t.ledger
  | .inr _, t => Buffered t.ledger ∧ t.ledger.fds.length = 1

-- Nothing is given back twice or without having been there, and nothing is kept, wherever the
-- process gives up.
theorem main_releases_everything (net : Network N) (monotone : Prop) (m : Invocation) (n : N) :
    Safe (world net monotone) (fun _ => True) Holding (main m) (fun _ t => Spent t.ledger)
      (start n) := by
  refine main_sound.weaken (fun e t h => ?_) fun status t h => ?_
  · cases e with
    | inl e => exact h
    | inr e =>
        obtain ⟨hbuffered, hprepared⟩ := h
        obtain ⟨sockfd, src, hfds, -⟩ := hprepared.deeds
        exact ⟨hbuffered, by rw [hfds]; rfl⟩
  · cases h with
    | exited t hparse hledger hlog =>
        rw [hledger]
        exact ⟨rfl, rfl, rfl⟩
    | failed t hparse hspent hstdout hstderr hlog => exact hspent
    | finished t flags dst src pkt recvbuf sockfd r hparse hdst hrun hrely hledger =>
        rw [hledger]
        exact ⟨rfl, rfl, rfl⟩

-- Before a call of ping_run() the whole command line has been heeded.
def Heeded (m : Invocation) : Libc ⊕ Sys → Process N → Prop
  | .inl _, _ => True
  | .inr _, t => Prepared m t.run.ctx t.ledger

-- Where it has not come to ping_run(), there is the help text, or a message on stderr and at
-- most the banner on stdout.
structure Unstarted (m : Invocation) (status : Int) (t : Process N) : Prop where
  log : t.run.log = []
  streams : parse_info m.permutes m.euid m.ac m.av Flags.zero = .error .usage ∧
      status = EXIT_SUCCESS ∧ t.ledger.stdout = print_usage ∧ t.ledger.stderr = [] ∨
    status = EXIT_FAILURE ∧ t.ledger.stderr ≠ [] ∧
      (t.ledger.stdout = [] ∨ ∃ ctx, t.ledger.stdout = print_ping_banner m.host ctx)

-- And all has been done for the options that were given, in one order, or nothing is sent.
theorem main_prepares_before_sending (net : Network N) (monotone : Prop) (m : Invocation) (n : N) :
    Safe (world net monotone) (fun _ => True) (Heeded m) (main m)
      (fun status t => Unstarted m status t ∨ ∃ flags dst sockfd src,
        parse_info m.permutes m.euid m.ac m.av Flags.zero = .ok flags ∧
        t.run.ctx.flags = flags ∧ t.ledger.deeds = preparation flags dst sockfd src)
      (start n) := by
  refine main_sound.weaken (fun e t h => ?_) fun status t h => ?_
  · cases e with
    | inl e => trivial
    | inr e => exact h.2
  · cases h with
    | exited t hparse hledger hlog =>
        refine Or.inl ⟨hlog, Or.inl ⟨hparse, rfl, ?_⟩⟩
        generalize print_usage = text at hledger ⊢
        rw [hledger]
        exact ⟨rfl, rfl⟩
    | failed t hparse hspent hstdout hstderr hlog =>
        exact Or.inl ⟨hlog, Or.inr ⟨rfl, hstderr, hstdout⟩⟩
    | finished t flags dst src pkt recvbuf sockfd r hparse hdst hrun hrely hledger =>
        obtain ⟨p, hpath⟩ := Flow.ping_run_path _ _ _ _ _ _ hrun
        refine Or.inr ⟨flags, dst, sockfd, src, hparse, ?_, ?_⟩
        · rw [(rely_same hrely).2.2]
          exact hpath.ctx_kept.1
        · rw [hledger]
          rfl

end FtPing.Process
