import FtPing.Flow.Accounts
import FtPing.Flow.Progress
import FtPing.Interaction.Parallel
import FtPing.Net.Medium
import FtPing.Output.PrintReport

namespace FtPing

open Bytes History Interaction

-- Several processes on one host: what each of them has for itself, its reading of the clock and
-- its stop flag included, and the network.
structure Host (ι : Type) where
  own : ι → State Unit
  net : Wire ι

namespace Host

variable {ι : Type} [DecidableEq ι]

def view (i : ι) : View (Host ι) (State (Wire ι)) where
  get h := (h.own i).on h.net
  put s h := ⟨Function.update h.own i (s.on ()), s.net⟩
  get_put s h := by
    change (Function.update h.own i (s.on ()) i).on s.net = s
    rw [Function.update_self]
    rfl

theorem view_other {i j : ι} (hij : i ≠ j) (s : State (Wire ι)) (h : Host ι) :
    (view i).get ((view j).put s h) = { (view i).get h with net := s.net } := by
  change (Function.update h.own j (s.on ()) i).on s.net = _
  rw [Function.update_of_ne hij]
  rfl

variable (host : Endian) (ctx : ι → Ctx) (monotone : Prop)

def ports (ctx : ι → Ctx) (i : ι) : Port := (ctx i).port

-- Time passes for them, SIGINT may come to any of them, and the network goes on.
inductive Passes : Host ι → Host ι → Prop
  | intro (h : Host ι) (now : ι → Nat) (stop : ι → Bool) (net : Wire ι)
      (hnow : monotone → ∀ i, (h.own i).now ≤ now i)
      (hstop : ∀ i, (h.own i).stop = true → stop i = true)
      (hnet : Relation.ReflTransGen (Wire.Evolve host (ports ctx)) h.net net) :
      Passes h ⟨fun i => { h.own i with now := now i, stop := stop i }, net⟩

-- The processes side by side.
def together : Together ι (Host ι) (State (Wire ι)) Sys Ans where
  view := view
  env := Passes host ctx monotone
  sys i e h a h' := ∃ s, Perform (shared host (ports ctx) i) e ((view i).get h) a s ∧
    h' = (view i).put s h

-- Each of them is about to call ping_run(), and nothing is under way.
def start (ctx : ι → Ctx) : Host ι :=
  ⟨fun i => .initial (ctx i) (), ⟨[], fun _ => [], fun _ => 0⟩⟩

variable {host ctx monotone}

-- Another call only changes the network, in a way that leaves a probe with its own id or takes a
-- datagram from its own queue.
theorem perform_net {i j : ι} (hij : i ≠ j) {e : Sys} {s t : State (Wire ι)} {a : Ans e}
    (h : Perform (shared host (ports ctx) j) e s a t)
    (hid : ∀ buf ∈ wire t.log, Wire.carries host (ports ctx i) buf = false) :
    Relation.ReflTransGen (shared host (ports ctx) i).evolve s.net t.net := by
  cases h with
  | sent buf dst _ n htransmit =>
      cases htransmit
      exact .single (Or.inr (.transmit buf s.net (hid buf (List.mem_cons_self ..))))
  | received len _ d n hdeliver => exact .single (Or.inr (.deliver j hij.symm d _ n hdeliver))
  | _ => exact .refl

theorem lives (hid : Function.Injective fun i => (ctx i).id) :
    Lives (together host ctx monotone)
      (fun i => world (shared host (ports ctx) i) monotone) Kept
      (fun _ => ping_run host) (start ctx) where
  env i s t h := by
    cases h with
    | intro now stop net hnow hstop hnet =>
        exact .intro ((view i).get s) (now i) (stop i) net (fun hm => hnow hm i) (hstop i)
          (Relation.ReflTransGen.mono (fun _ _ => Or.inl) _ _ hnet)
  own i e s a t h := by
    obtain ⟨u, hperform, rfl⟩ := h
    change Perform _ e _ a ((view i).get ((view i).put u s))
    rw [(view i).get_put]
    exact hperform
  act i j hij s u hkept := by
    change Rely _ monotone ((view i).get s) ((view i).get ((view j).put u s))
    have hnet : u.net = s.net := hkept.net
    rw [view_other hij, hnet]
    exact Rely.refl _ monotone _
  call i j hij e s a t q h hr := by
    obtain ⟨u, hperform, rfl⟩ := h
    change Rely _ monotone ((view i).get s) ((view i).get ((view j).put u s))
    have hown : (view j).get ((view j).put u s) = u := (view j).get_put u s
    change Reach _ _ (q, (view j).get ((view j).put u s)) at hr
    rw [hown] at hr
    obtain ⟨p, hpath⟩ := Flow.ping_run_path host _ monotone _ u q hr
    have hnet : Relation.ReflTransGen (shared host (ports ctx) i).evolve s.net u.net := by
      refine perform_net hij hperform fun buf hbuf => ?_
      rw [(hpath.emission rfl rfl).emitted.carries hbuf]
      exact decide_eq_false fun hsame => hij (hid hsame).symm
    rw [view_other hij]
    exact .intro ((view i).get s) _ _ u.net (fun _ => Nat.le_refl _) id hnet

-- In what an interleaved run of all of them leaves, each has come along a path of its own.
theorem path (hid : Function.Injective fun i => (ctx i).id) {ps : ι → Ping (Wire ι) Unit}
    {h : Host ι} (hr : Relation.ReflTransGen (Interleaves (together host ctx monotone))
      (fun _ => ping_run host, start ctx) (ps, h)) (i : ι) :
    ∃ p, Flow.Path host (shared host (ports ctx) i) monotone .start
        (.initial (ctx i) (start ctx).net) p ((view i).get h) ∧
      (ps i = .ret () → p = .finished) := by
  have hreach := (lives hid).reach (fun _ => running_ping_run host) hr i
  change Reach (world (shared host (ports ctx) i) monotone)
    (ping_run host, .initial (ctx i) (start ctx).net) (ps i, (view i).get h) at hreach
  have hgood := Flow.ping_run_follows .here (ps i) ((view i).get h) hreach
  by_cases hret : ps i = .ret ()
  · rw [hret] at hgood
    exact ⟨.finished, hgood.2, fun _ => rfl⟩
  · obtain ⟨p, hpath⟩ := Flow.ping_run_path host _ monotone _ _ _ hreach
    exact ⟨p, hpath, fun h => absurd h hret⟩

end Host

section Play

variable {ι : Type} [DecidableEq ι] (host : Endian) (ctx : ι → Ctx) (i : ι)

def plain_header : List UInt8 := 0x45 :: List.replicate 19 0

-- The latest probe is answered, and process `i` receives its copy of the reply at once.
def Wire.supply (d : Datagram) (w : Wire ι) : Option (Wire ι) :=
  match w.probes with
  | [] => none
  | probe :: probes =>
      if IcmpHdr.size ≤ probe.length ∧ d = plain_header ++ echo_reply host probe then
        some { w with
          probes := probes
          queues := Function.update (fun j => d :: w.queues j) i (w.queues i) }
      else none

def Wire.carry (e : Sys) (log : List Entry) (w : Wire ι) : Option (Wire ι) :=
  match e, log with
  | .sendto _ _, ⟨_, _, .sent buf⟩ :: _ => some { w with probes := buf :: w.probes }
  | .recvfrom _, ⟨_, _, .received d⟩ :: _ => w.supply host i d
  | _, _ => some w

variable {host ctx i}

end Play

def leaving : Flags := { Flags.zero with exit_on_reply := true }

end FtPing
