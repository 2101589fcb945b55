import FtPing.Flow.Loop
import FtPing.Flow.Progress
import FtPing.Net.Lines
import FtPing.Process.Socket

namespace FtPing.Process

open Bytes CLib Interaction

-- What ping_run() prints goes to the two streams and changes nothing else.
def printing (k : Ledger) (lines : List Line) : Ledger :=
  { k with
    stdout := k.stdout ++ lines.flatMap Line.text
    stderr := k.stderr ++ lines.flatMap Ledger.complaints }

theorem printing_nil (k : Ledger) : printing k [] = k := by
  simp [printing]

theorem printing_snoc (k : Ledger) (lines : List Line) (line : Line) :
    printing k (lines ++ [line]) = (printing k lines).echo (.print line) := by
  simp [printing, Ledger.echo]

variable {N : Type} {net : Network N} {monotone : Prop} {m : Invocation} {n : N} {k : Ledger}
  {ctx : Ctx} {s : Process N}

-- One call of ping_run(), seen in the log and in the two streams.
theorem echo_lines {e : Sys} {r u : State N} {a : Ans e} {k' : Ledger}
    (h : FtPing.Perform net e r a u) (hk : k' = printing k (lines r.log).reverse) :
    k'.echo e = printing k (lines u.log).reverse := by
  cases h with
  | print line =>
      have hlog : lines (r.record (.printed line)).log = line :: lines r.log := rfl
      rw [hlog, List.reverse_cons, printing_snoc, hk]
  | _ => exact hk

theorem rely_same {r u : State N} (h : FtPing.Rely net monotone r u) :
    u.log = r.log ∧ u.stats = r.stats ∧ u.ctx = r.ctx := by
  cases h
  exact ⟨rfl, rfl, rfl⟩

-- The address stays as well.
theorem edge_dst_kept {host : Endian} {p q : Flow.Point} {r u : State N}
    (he : Flow.Edge host net monotone p r q u) : u.ctx.dst = r.ctx.dst := by
  cases he with
  | env _ _ _ h =>
      cases h
      rfl
  | payload c seq now s =>
      change (write_payload host seq _ r.ctx).dst = r.ctx.dst
      unfold write_payload fill_default
      split_ifs <;> rfl
  | _ => rfl

theorem prepared_kept {host : Endian} {q : Ping N Unit} {r : State N}
    (h : Reach (FtPing.world net monotone) (ping_run host, .initial ctx n) (q, r))
    (hprepared : Prepared m ctx k) : Prepared m r.ctx k := by
  obtain ⟨p, hpath⟩ := Flow.ping_run_path host net monotone (.initial ctx n) r q h
  obtain ⟨hflags, hid, -⟩ := hpath.ctx_kept
  have hdst : r.ctx.dst = ctx.dst := hpath.invariant (fun _ u => u.ctx.dst = ctx.dst) rfl
    fun _ _ _ _ _ hu he => (edge_dst_kept he).trans hu
  obtain ⟨hparsed, hid', hlength, hdeeds⟩ := hprepared
  refine ⟨?_, ?_, ?_, ?_⟩
  · rw [hflags]
    exact hparsed
  · rw [hid]
    exact hid'
  · rw [hdst]
    exact hlength
  · rw [hflags, hdst]
    exact hdeeds

-- While ping_run() runs all that has been set up stays, and what it prints arrives.
theorem inside_sound {host : Endian} {f : Unit → Main N Int} {post : Int → Process N → Prop}
    (h : At (before net monotone n ctx) k s) (hk : Buffered k) (hprepared : Prepared m ctx k)
    (hnext : ∀ r t, Reach (FtPing.world net monotone) (ping_run host, .initial ctx n) (.ret (), r) →
      At (behind net monotone r) (printing k (lines r.log).reverse) t →
        Sound net monotone m (f ()) post t) :
    Sound net monotone m ((inside (ping_run host)).bind f) post s := by
  obtain ⟨hledger, hctx, hrely, hsigint⟩ := h
  have hbegin : Reach (FtPing.world net monotone) (ping_run host, .initial ctx n)
      (ping_run host, s.run) := .of_step (.env hrely)
  refine safe_bind (Disciplined.embed_safe (extends_world net monotone)
    (fun u => u.ledger = printing k (lines u.run.log).reverse) (fun t u ht hr => ?_)
    (fun t r ht hkept => ?_) (fun e t a u ht _ hsys => ?_) (fun _ _ => trivial)
    (running_ping_run host) ?_ (fun e next u hu hreach => ?_) fun _ u hu hreach => ?_)
  · cases hr with
    | intro r hidle =>
        dsimp only
        rw [(rely_same hidle.rely).1]
        exact ht
  · change t.ledger = printing k (lines r.log).reverse
    rw [hkept.log]
    exact ht
  · cases hsys with
    | ping _ _ _ r hperform => exact echo_lines hperform ht
  · rw [(rely_same hrely).1, hledger]
    exact (printing_nil k).symm
  · have hkept := prepared_kept (hbegin.trans hreach) hprepared
    change Buffered u.ledger ∧ Prepared m u.run.ctx u.ledger
    rw [hu]
    exact ⟨⟨⟨hk.heap, hk.nodup, hk.lists⟩, hk.complete⟩,
      ⟨hkept.parsed, hkept.id_eq, hkept.dst_length, hkept.deeds⟩⟩
  · exact hnext u.run u (hbegin.trans hreach) ⟨hu, .refl net monotone _⟩

-- What main() ends with once ping_run() has returned in the state `r`.
def closed (k : Ledger) (r : State N) : Ledger :=
  { printing k (lines r.log).reverse with
    ptrs := .null
    heap := []
    fds := []
    stdout := (printing k (lines r.log).reverse).stdout ++
      print_stats_text r.ctx.flags.name r.stats }

theorem session_sound {host : Endian} {sockfd : Nat} {post : Int → Process N → Prop}
    (h : At (before net monotone n ctx) k s) (hk : Buffered k) (hprepared : Prepared m ctx k)
    (hfds : k.fds = [sockfd])
    (hpost : ∀ r t, Reach (FtPing.world net monotone) (ping_run host, .initial ctx n) (.ret (), r) →
      At (behind net monotone r) (closed k r) t → post (exit_status r.stats) t) :
    Sound net monotone m (session host sockfd) post s := by
  refine inside_sound h hk hprepared fun r t hr ht => at_get ht fun t ht => ?_
  obtain ⟨-, hstats, hctx⟩ := rely_same ht.holds
  rw [hstats, hctx]
  have hopen : sockfd ∈ k.fds := by
    rw [hfds]
    exact List.mem_singleton_self sockfd
  have hclosed : closed k r = { closed k r with fds := k.fds.erase sockfd } := by
    rw [hfds, List.erase_cons_head]
    rfl
  refine at_call ht trivial fun _ t _ ht => at_call ht hopen fun _ t _ ht => ?_
  refine ctx_destroy_sound ht ⟨hk.heap, hk.nodup, hk.lists⟩ fun t ht => at_ret ht fun t ht => ?_
  refine hpost r t hr ?_
  rw [hclosed]
  exact ht

end FtPing.Process
