import FtPing.Process.Main

namespace FtPing.Process

open Bytes CLib Interaction

-- What is freed, released, configured or closed has to be there.
def Owned : Libc → Ledger → Prop
  | .freeaddrinfo res, k => res ∈ k.lists
  | .free (some ptr), k => ptr ∈ k.heap
  | .setsockopt sockfd _ _, k => sockfd ∈ k.fds
  | .bind sockfd _, k => sockfd ∈ k.fds
  | .close sockfd, k => sockfd ∈ k.fds
  | _, _ => True

-- The context points to all that is allocated, and to no block twice.
structure Consistent (k : Ledger) : Prop where
  heap : k.heap = k.ptrs.blocks
  nodup : k.heap.Nodup
  lists : k.lists = []

-- It has all three buffers.
structure Buffered (k : Ledger) : Prop extends Consistent k where
  complete : k.ptrs.pkt.isSome ∧ k.ptrs.send_ts.isSome ∧ k.ptrs.recvbuf.isSome

-- What the options -m, -T and -r ask of the socket, in this order.
def settings (f : Flags) (sockfd : Nat) : List Deed :=
  (if f.has_ttl then [.set sockfd .IP_TTL f.ttl] else []) ++
    ((if f.has_multicast_ttl then [.set sockfd .IP_MULTICAST_TTL f.multicast_ttl] else []) ++
      if f.bypass_routing then [.set sockfd .SO_DONTROUTE 1] else [])

-- And what -S asks, of the address that its argument is resolved to.
def binding (f : Flags) (sockfd : Nat) (src : List UInt8) : List Deed :=
  if f.has_source_addr then
    [.resolved (f.source_addr.getD []) src, .bound sockfd src]
  else []

-- All that is done before the first call of ping_run().
def preparation (f : Flags) (dst : List UInt8) (sockfd : Nat) (src : List UInt8) : List Deed :=
  .resolved f.name dst ::
    .opened sockfd :: (settings f sockfd ++ (binding f sockfd src ++ [.handled]))

-- The context is that of the command line and of this process, and all has been done for it.
structure Prepared (m : Invocation) (ctx : Ctx) (k : Ledger) : Prop where
  parsed : parse_info m.permutes m.euid m.ac m.av Flags.zero = .ok ctx.flags
  id_eq : ctx.id = htons m.host (UInt16.ofNat m.pid)
  dst_length : ctx.dst.length = 4
  deeds : ∃ sockfd src, k.fds = [sockfd] ∧ k.deeds = preparation ctx.flags ctx.dst sockfd src

-- What has to hold before each call of main().
def Fit (m : Invocation) {N : Type} : Libc ⊕ Sys → Process N → Prop
  | .inl e, t => Owned e t.ledger
  | .inr _, t => Buffered t.ledger ∧ Prepared m t.run.ctx t.ledger

-- What has been done stays done.
theorem mem_after {k : Ledger} {d : Deed} (h : d ∈ k.deeds) (e : Libc) (a : LibcAns e) :
    d ∈ (k.after e a).deeds := by
  have hmore : ∀ ds, d ∈ k.deeds ++ ds := fun ds => List.mem_append_left ds h
  cases e with
  | getaddrinfo host => rcases a with rc | ⟨res, addr⟩ <;> first | exact h | exact hmore _
  | malloc size => rcases a with _ | ⟨ptr, buf⟩ <;> exact h
  | calloc count size => rcases a with _ | ptr <;> exact h
  | free ptr => cases ptr <;> exact h
  | socket => rcases a with errno | sockfd <;> first | exact h | exact hmore _
  | setsockopt sockfd option value => rcases a with _ | errno <;> first | exact h | exact hmore _
  | bind sockfd src => rcases a with _ | errno <;> first | exact h | exact hmore _
  | sigaction => rcases a with _ | errno <;> first | exact h | exact hmore _
  | _ => exact h

section Rules

variable {N α : Type} (net : Network N) (monotone : Prop)

-- What is known of the state of ping_run() at some stage of the process, whatever happens to it
-- by itself.
structure Phase where
  holds : List Deed → State N → Prop
  stable : ∀ deeds r u, holds deeds r → Idle net monotone deeds r u → holds deeds u
  more : ∀ deeds deeds' r, holds deeds r → (∀ d ∈ deeds, d ∈ deeds') → holds deeds' r

-- Before ping_run(): only the clock, the network and the stop flag have gone on, the flag not
-- without a handler.
def before (n : N) (ctx : Ctx) : Phase net monotone where
  holds deeds r := r.ctx = ctx ∧ FtPing.Rely net monotone (.initial ctx n) r ∧
    (r.stop = true → Deed.handled ∈ deeds)
  stable deeds r u h hidle := by
    obtain ⟨hctx, hrely, hsigint⟩ := h
    refine ⟨?_, .trans net monotone _ _ _ hrely hidle.rely, fun hstop => ?_⟩
    · rw [← hctx]
      cases hidle.rely
      rfl
    · exact (hidle.sigint hstop).elim hsigint id
  more deeds deeds' r h hmore := ⟨h.1, h.2.1, fun hstop => hmore _ (h.2.2 hstop)⟩

-- Behind it, where it has returned in the state `r`.
def behind (r : State N) : Phase net monotone where
  holds _ u := FtPing.Rely net monotone r u
  stable _ _ _ h hidle := .trans net monotone _ _ _ h hidle.rely
  more _ _ _ h _ := h

abbrev Sound (m : Invocation) (p : Main N α) (post : α → Process N → Prop) (s : Process N) : Prop :=
  Safe (world net monotone) (fun _ => True) (Fit m) p post s

variable {net monotone}

structure At (phase : Phase net monotone) (k : Ledger) (t : Process N) : Prop where
  ledger : t.ledger = k
  holds : phase.holds k.deeds t.run

variable {phase : Phase net monotone} {m : Invocation} {n : N} {k : Ledger} {ctx : Ctx}
  {s : Process N} {post : α → Process N → Prop}

theorem at_start :
    At (before net monotone n (FtPing.ctx_alloc_buffers Flags.zero [] 0)) .empty (start n) :=
  ⟨rfl, rfl, .refl net monotone _, fun h => (by cases h)⟩

theorem At.stable {t : Process N} (h : At phase k s) (hrely : (world net monotone).rely s t) :
    At phase k t := by
  cases hrely with
  | intro r hr =>
      refine ⟨h.ledger, phase.stable _ _ _ h.holds ?_⟩
      rw [← h.ledger]
      exact hr

theorem at_setCtx {c : Ctx} {f : Unit → Main N α} (h : At (before net monotone n ctx) k s)
    (hnext : ∀ t, At (before net monotone n c) k t → Sound net monotone m (f ()) post t) :
    Sound net monotone m ((setCtx c).bind f) post s := by
  refine safe_act (fun _ _ ht hr => ht.stable hr) (fun _ _ => trivial) h fun t ht => hnext _ ?_
  obtain ⟨hledger, hctx, hrely, hsigint⟩ := ht
  refine ⟨hledger, rfl, ?_, hsigint⟩
  dsimp only
  generalize t.run = r at hrely ⊢
  cases hrely with
  | intro now stop net' hnow hstop hnet => exact .intro (.initial c n) now stop net' hnow hstop hnet

variable (h : At phase k s)

include h

theorem at_ret {a : α} (hpost : ∀ t, At phase k t → post a t) :
    Sound net monotone m (.ret a) post s :=
  safe_ret (fun _ _ ht hr => ht.stable hr) (fun _ _ => trivial) h hpost

theorem at_get {f : Process N → Main N α}
    (hnext : ∀ t, At phase k t → Sound net monotone m (f t) post t) :
    Sound net monotone m (Prog.get.bind f) post s :=
  safe_act (fun _ _ ht hr => ht.stable hr) (fun _ _ => trivial) h hnext

theorem at_setPtrs {ptrs : Pointers} {f : Unit → Main N α}
    (hnext : ∀ t, At phase { k with ptrs := ptrs } t →
      Sound net monotone m (f ()) post t) :
    Sound net monotone m ((setPtrs ptrs).bind f) post s := by
  refine safe_act (fun _ _ ht hr => ht.stable hr) (fun _ _ => trivial) h fun t ht => hnext _ ?_
  exact ⟨by rw [← ht.ledger], ht.holds⟩

theorem at_call {e : Libc} {f : LibcAns e → Main N α} (hpre : Owned e k)
    (hnext : ∀ a t, k.possible e a → At phase (k.after e a) t →
      Sound net monotone m (f a) post t) :
    Sound net monotone m ((call e).bind f) post s := by
  refine safe_call (fun _ _ ht hr => ht.stable hr) (fun _ _ => trivial) h (fun t ht => ?_)
    fun t a u ht hsys => ?_
  · change Owned e t.ledger
    rw [ht.ledger]
    exact hpre
  · cases hsys with
    | libc _ _ _ ha =>
        rw [ht.ledger] at ha
        refine hnext a _ ha ⟨by rw [ht.ledger], ?_⟩
        exact phase.more _ _ _ ht.holds fun d hd => mem_after hd e a

end Rules

section Functions

variable {N : Type} {net : Network N} {monotone : Prop} {phase : Phase net monotone}
  {m : Invocation} {n : N} {k : Ledger} {ctx : Ctx} {s : Process N}

theorem resolve_host_sound {host : CString} {post : Option (List UInt8) → Process N → Prop}
    (h : At phase k s)
    (hnone : ∀ rc t,
      At phase { k with stderr := k.stderr ++ [.unresolved host rc] } t → post none t)
    (hsome : ∀ dst t, dst.length = 4 →
      At phase { k with deeds := k.deeds ++ [.resolved host dst] } t →
        post (some dst) t) : Sound net monotone m (resolve_host host) post s := by
  refine at_call h trivial fun a t ha ht => ?_
  rcases a with rc | ⟨res, addr⟩
  · exact at_call ht trivial fun _ t _ ht => at_ret ht (hnone rc)
  · refine at_call ht List.mem_cons_self fun _ t _ ht => at_ret ht fun t ht => hsome addr t ha.2 ?_
    have hlists : (res :: k.lists).erase res = k.lists := List.erase_cons_head res k.lists
    rw [← hlists]
    exact ht

theorem after_free {l : List Nat} {ptr : Option Nat} (hheap : k.heap = l ++ ptr.toList)
    (hnodup : k.heap.Nodup) : k.after (.free ptr) () = { k with heap := l } := by
  cases ptr with
  | none =>
      rw [Option.toList_none, List.append_nil] at hheap
      rw [← hheap]
      rfl
  | some p =>
      rw [hheap, Option.toList_some] at hnodup
      have hnew : p ∉ l := fun hp =>
        (List.nodup_append.mp hnodup).2.2 p hp p (List.mem_singleton_self p) rfl
      have herase : k.heap.erase p = l := by
        rw [hheap, Option.toList_some, List.erase_append_right _ hnew, List.erase_cons_head,
          List.append_nil]
      rw [← herase]
      rfl

theorem owned_free {l : List Nat} {ptr : Option Nat} (hheap : k.heap = l ++ ptr.toList) :
    Owned (.free ptr) k := by
  cases ptr with
  | none => trivial
  | some p =>
      change p ∈ k.heap
      rw [hheap]
      simp

theorem ctx_destroy_sound {α : Type} {f : Unit → Main N α} {post : α → Process N → Prop}
    (h : At phase k s) (hk : Consistent k)
    (hnext : ∀ t, At phase { k with heap := [], ptrs := .null } t →
      Sound net monotone m (f ()) post t) :
    Sound net monotone m (ctx_destroy.bind f) post s := by
  obtain ⟨hheap, hnodup, -⟩ := hk
  change Sound net monotone m (Prog.get.bind fun t => (call (.free t.ledger.ptrs.pkt)).bind fun _ =>
    (call (.free t.ledger.ptrs.send_ts)).bind fun _ =>
      (call (.free t.ledger.ptrs.recvbuf)).bind fun _ => (setPtrs .null).bind f) post s
  refine at_get h fun t ht => ?_
  rw [ht.ledger]
  refine at_call ht (owned_free hheap) fun _ t _ ht => ?_
  rw [after_free hheap hnodup] at ht
  rw [hheap, Pointers.blocks] at hnodup
  have hrest := (List.nodup_append.mp hnodup).1
  refine at_call ht (owned_free rfl) fun _ t _ ht => ?_
  rw [after_free rfl hrest] at ht
  have hlast := (List.nodup_append.mp hrest).1
  refine at_call ht (owned_free (l := []) rfl) fun _ t _ ht => ?_
  rw [after_free (l := []) rfl hlast] at ht
  exact at_setPtrs ht hnext

theorem after_malloc (size : Nat) (a : LibcAns (.malloc size)) :
    k.after (.malloc size) a = { k with heap := (a.map Prod.fst).toList ++ k.heap } := by
  cases a <;> rfl

theorem after_calloc (count size : Nat) (a : LibcAns (.calloc count size)) :
    k.after (.calloc count size) a = { k with heap := a.toList ++ k.heap } := by
  cases a <;> rfl

theorem nodup_malloc {size : Nat} {a : LibcAns (.malloc size)} (h : k.heap.Nodup)
    (ha : k.possible (.malloc size) a) : ((a.map Prod.fst).toList ++ k.heap).Nodup := by
  rcases a with _ | ⟨ptr, buf⟩
  · exact h
  · exact List.nodup_cons.mpr ⟨ha, h⟩

theorem nodup_calloc {count size : Nat} {a : LibcAns (.calloc count size)} (h : k.heap.Nodup)
    (ha : k.possible (.calloc count size) a) : (a.toList ++ k.heap).Nodup := by
  rcases a with _ | ptr
  · exact h
  · exact List.nodup_cons.mpr ⟨ha, h⟩

-- Whichever of the three fail, the context points to all that has been allocated.
theorem ctx_alloc_buffers_sound {payload_len recvbuf_len : Nat}
    {post : Option (Buffer (IcmpHdr.size + payload_len) × Buffer recvbuf_len) → Process N → Prop}
    (h : At phase k s) (hheap : k.heap = []) (hlists : k.lists = [])
    (hnone : ∀ ptrs heap t, Consistent { k with ptrs := ptrs, heap := heap } →
      At phase { k with
        ptrs := ptrs
        heap := heap
        stderr := k.stderr ++ [.perror "malloc"] } t → post none t)
    (hsome : ∀ ptrs heap pkt recvbuf t, Buffered { k with ptrs := ptrs, heap := heap } →
      At phase { k with ptrs := ptrs, heap := heap } t →
        post (some (pkt, recvbuf)) t) :
    Sound net monotone m (ctx_alloc_buffers payload_len recvbuf_len) post s := by
  refine at_call h trivial fun pkt t hpkt ht => ?_
  rw [after_malloc] at ht
  have hnodup := nodup_malloc (by rw [hheap]; exact List.nodup_nil) hpkt
  refine at_call ht trivial fun send_ts t hsend_ts ht => ?_
  rw [after_calloc] at ht
  have hnodup := nodup_calloc hnodup hsend_ts
  refine at_call ht trivial fun recvbuf t hrecvbuf ht => ?_
  rw [after_malloc] at ht
  have hnodup := nodup_malloc hnodup hrecvbuf
  have hconsistent : Consistent { k with
      ptrs := ⟨pkt.map Prod.fst, send_ts, recvbuf.map Prod.fst⟩
      heap := (recvbuf.map Prod.fst).toList ++ (send_ts.toList ++
        ((pkt.map Prod.fst).toList ++ k.heap)) } := by
    refine ⟨?_, hnodup, hlists⟩
    simp only [Pointers.blocks, hheap, List.append_nil, List.append_assoc]
  refine at_setPtrs ht fun t ht => ?_
  rcases pkt with _ | ⟨ppkt, pkt⟩
  · exact at_call ht trivial fun _ t _ ht => at_ret ht (hnone _ _ · hconsistent)
  · rcases send_ts with _ | psend_ts
    · exact at_call ht trivial fun _ t _ ht => at_ret ht (hnone _ _ · hconsistent)
    · rcases recvbuf with _ | ⟨precvbuf, recvbuf⟩
      · exact at_call ht trivial fun _ t _ ht => at_ret ht (hnone _ _ · hconsistent)
      · exact at_ret ht (hsome _ _ pkt recvbuf · ⟨hconsistent, rfl, rfl, rfl⟩)

-- Nothing is allocated and nothing is open.
structure Spent (k : Ledger) : Prop where
  heap : k.heap = []
  lists : k.lists = []
  fds : k.fds = []

-- ctx_init() comes back with a complete context, or with nothing but a message.
structure Ready (m : Invocation) (flags : Flags) (dst : List UInt8) (k : Ledger) : Prop extends
    Buffered k where
  parsed : parse_info m.permutes m.euid m.ac m.av Flags.zero = .ok flags
  dst_length : dst.length = 4
  fds : k.fds = []
  deeds : k.deeds = [.resolved flags.name dst]
  stdout : k.stdout = []
  stderr : k.stderr = []

theorem ctx_init_sound {post : Init → Process N → Prop} (h : At (before net monotone n ctx) .empty s)
    (hexited : parse_info m.permutes m.euid m.ac m.av Flags.zero = .error .usage → ∀ t,
      At (before net monotone n ctx) { Ledger.empty with stdout := print_usage } t → post .exited t)
    (hfailed : parse_info m.permutes m.euid m.ac m.av Flags.zero ≠ .error .usage → ∀ k t,
      Spent k → k.stdout = [] → k.stderr ≠ [] → At (before net monotone n ctx) k t →
        post .failed t)
    (hready : ∀ flags dst pkt recvbuf k t, Ready m flags dst k →
      At (before net monotone n (built m.host m.pid flags dst pkt recvbuf)) k t → post .ready t) :
    Sound net monotone m (ctx_init m) post s := by
  refine at_setPtrs h fun t ht => ?_
  cases hparse : parse_info m.permutes m.euid m.ac m.av Flags.zero with
  | error refusal =>
      cases refusal with
      | rejected message =>
          refine at_call ht trivial fun _ t _ ht => at_ret ht fun t ht => ?_
          exact hfailed (by rw [hparse]; nofun) _ t ⟨rfl, rfl, rfl⟩ rfl (List.cons_ne_nil _ _) ht
      | hinted message =>
          change Sound net monotone m ((call (.complain (.message message))).bind fun _ =>
            (call (.complain .hint)).bind fun _ => .ret .failed) post t
          refine at_call ht trivial fun _ t _ ht => at_call ht trivial fun _ t _ ht => ?_
          refine at_ret ht fun t ht => ?_
          exact hfailed (by rw [hparse]; nofun) _ t ⟨rfl, rfl, rfl⟩ rfl (List.cons_ne_nil _ _) ht
      | usage =>
          have hprinted : ∀ text, ({ Ledger.empty with ptrs := .null }).after (.printf text) () =
              { Ledger.empty with stdout := text } := fun text => rfl
          refine at_call ht trivial fun _ t _ ht => at_ret ht fun t ht => ?_
          rw [hprinted] at ht
          exact hexited hparse t ht
  | ok flags =>
      have hparsed : parse_info m.permutes m.euid m.ac m.av Flags.zero ≠ .error .usage := by
        rw [hparse]
        nofun
      refine safe_bind (resolve_host_sound ht (fun rc t ht => ?_) fun dst t hdst ht => ?_)
      · exact at_ret ht fun t ht =>
          hfailed hparsed _ t ⟨rfl, rfl, rfl⟩ rfl (List.cons_ne_nil _ _) ht
      · refine safe_bind (ctx_alloc_buffers_sound ht rfl rfl (fun ptrs heap t hk ht => ?_)
          fun ptrs heap pkt recvbuf t hk ht => ?_)
        · refine ctx_destroy_sound ht ⟨hk.heap, hk.nodup, hk.lists⟩ fun t ht => at_ret ht fun t ht => ?_
          exact hfailed hparsed _ t ⟨rfl, rfl, rfl⟩ rfl (List.cons_ne_nil _ _) ht
        · refine at_setCtx ht fun t ht => at_ret ht fun t ht => ?_
          exact hready flags dst pkt recvbuf _ t ⟨hk, hparse, hdst, rfl, rfl, rfl, rfl⟩ ht

end Functions

end FtPing.Process
