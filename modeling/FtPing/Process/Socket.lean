import FtPing.Process.Setup

namespace FtPing.Process

open Bytes CLib Interaction

variable {N : Type} {net : Network N} {monotone : Prop} {phase : Phase net monotone}
  {m : Invocation} {k : Ledger} {s : Process N}

-- A function that configures the socket fails with one message, or does what it is to do.
structure Configures (phase : Phase net monotone) (k : Ledger) (done : List Deed → Prop)
    (post : Int → Process N → Prop) : Prop where
  fails : ∀ ds complaint t, At phase { k with
    deeds := k.deeds ++ ds
    stderr := k.stderr ++ [complaint] } t → post (-1) t
  succeeds : ∀ ds t, done ds → At phase { k with deeds := k.deeds ++ ds } t → post 0 t

theorem set_if_sound {asked : Bool} {sockfd : Nat} {option : SockOpt} {value : Int} {what : String}
    {post : Int → Process N → Prop} (h : At phase k s) (hopen : sockfd ∈ k.fds)
    (hpost : Configures phase k
      (fun ds => ds = if asked then [.set sockfd option value] else []) post) :
    Sound net monotone m (set_if asked sockfd option value what) post s := by
  have hsame : k = { k with deeds := k.deeds ++ [] } := by rw [List.append_nil]
  by_cases hasked : asked = true
  · subst hasked
    refine at_call h hopen fun a t _ ht => ?_
    rcases a with _ | errno
    · exact at_ret ht fun t ht => hpost.succeeds _ t rfl ht
    · refine at_call ht trivial fun _ t _ ht => at_ret ht fun t ht => ?_
      refine hpost.fails [] (.perror what) t ?_
      rw [List.append_nil]
      exact ht
  · rw [set_if, if_neg hasked]
    refine at_ret h fun t ht => hpost.succeeds [] t (by rw [if_neg hasked]) ?_
    rw [← hsame]
    exact ht

theorem bind_source_sound {sockfd : Nat} {f : Flags} {post : Int → Process N → Prop}
    (h : At phase k s) (hopen : sockfd ∈ k.fds)
    (hpost : Configures phase k (fun ds => ∃ src, ds = binding f sockfd src) post) :
    Sound net monotone m (bind_source sockfd f) post s := by
  have hsame : k = { k with deeds := k.deeds ++ [] } := by rw [List.append_nil]
  by_cases hasked : f.has_source_addr = true
  · rw [bind_source, if_pos hasked]
    refine safe_bind (resolve_host_sound h (fun rc t ht => ?_) fun src t _ ht => ?_)
    · refine at_ret ht fun t ht => hpost.fails [] (.unresolved (f.source_addr.getD []) rc) t ?_
      rw [List.append_nil]
      exact ht
    · refine at_call ht hopen fun a t _ ht => ?_
      rcases a with _ | errno
      · refine at_ret ht fun t ht => hpost.succeeds _ t ⟨src, rfl⟩ ?_
        rw [binding, if_pos hasked, ← List.singleton_append, ← List.append_assoc]
        exact ht
      · exact at_call ht trivial fun _ t _ ht => at_ret ht fun t ht => hpost.fails _ _ t ht
  · rw [bind_source, if_neg hasked]
    refine at_ret h fun t ht => hpost.succeeds [] t ⟨[], by rw [binding, if_neg hasked]⟩ ?_
    rw [← hsame]
    exact ht

-- A step of the configuration and what comes after it.
theorem Configures.after {rest done : List Deed → Prop} {ds : List Deed}
    {post : Int → Process N → Prop} (hpost : Configures phase k done post)
    (hds : ∀ ds', rest ds' → done (ds ++ ds')) :
    Configures phase { k with deeds := k.deeds ++ ds } rest post where
  fails ds' complaint t ht := by
    refine hpost.fails (ds ++ ds') complaint t ?_
    rw [← List.append_assoc]
    exact ht
  succeeds ds' t hds' ht := by
    refine hpost.succeeds (ds ++ ds') t (hds ds' hds') ?_
    rw [← List.append_assoc]
    exact ht

theorem Configures.then {rest done : List Deed → Prop} {ds : List Deed}
    {post : Int → Process N → Prop} {next : Main N Int}
    (hpost : Configures phase k done post) (hds : ∀ ds', rest ds' → done (ds ++ ds'))
    (hnext : Configures phase { k with deeds := k.deeds ++ ds } rest post → ∀ t,
      At phase { k with deeds := k.deeds ++ ds } t →
        Sound net monotone m next post t) :
    Configures phase k (fun ds' => ds' = ds) fun rc t =>
      Sound net monotone m (if rc = -1 then .ret (-1) else next) post t where
  fails ds complaint t ht := by
    rw [if_pos rfl]
    exact at_ret ht (hpost.fails ds complaint)
  succeeds ds' t hds' ht := by
    subst hds'
    rw [if_neg (by decide)]
    exact hnext (hpost.after hds) t ht

theorem configure_socket_sound {sockfd : Nat} {f : Flags} {post : Int → Process N → Prop}
    (h : At phase k s) (hopen : sockfd ∈ k.fds)
    (hpost : Configures phase k
      (fun ds => ∃ src, ds = settings f sockfd ++ binding f sockfd src) post) :
    Sound net monotone m (configure_socket sockfd f) post s := by
  let ttl : List Deed := if f.has_ttl then [.set sockfd .IP_TTL f.ttl] else []
  let multicast : List Deed :=
    if f.has_multicast_ttl then [.set sockfd .IP_MULTICAST_TTL f.multicast_ttl] else []
  let direct : List Deed := if f.bypass_routing then [.set sockfd .SO_DONTROUTE 1] else []
  have hafter_ttl : ∀ ds, (∃ src, ds = multicast ++ (direct ++ binding f sockfd src)) →
      ∃ src, ttl ++ ds = settings f sockfd ++ binding f sockfd src := by
    rintro ds ⟨src, rfl⟩
    exact ⟨src, by simp only [settings, List.append_assoc, ttl, multicast, direct]⟩
  have hafter_multicast : ∀ ds, (∃ src, ds = direct ++ binding f sockfd src) →
      ∃ src, multicast ++ ds = multicast ++ (direct ++ binding f sockfd src) := by
    rintro ds ⟨src, rfl⟩
    exact ⟨src, rfl⟩
  have hafter_direct : ∀ ds, (∃ src, ds = binding f sockfd src) →
      ∃ src, direct ++ ds = direct ++ binding f sockfd src := by
    rintro ds ⟨src, rfl⟩
    exact ⟨src, rfl⟩
  refine safe_bind (set_if_sound h hopen (hpost.then hafter_ttl fun hpost t ht => ?_))
  refine safe_bind (set_if_sound ht hopen (hpost.then hafter_multicast fun hpost t ht => ?_))
  refine safe_bind (set_if_sound ht hopen (hpost.then hafter_direct fun hpost t ht => ?_))
  exact bind_source_sound ht hopen hpost

-- A socket that could not be configured is closed again.
theorem socket_open_sound {f : Flags} {post : Option Nat → Process N → Prop} (h : At phase k s)
    (hfds : k.fds = [])
    (hnone : ∀ ds complaint t, At phase { k with
      deeds := k.deeds ++ ds
      stderr := k.stderr ++ [complaint] } t → post none t)
    (hsome : ∀ sockfd src t, At phase { k with
      fds := [sockfd]
      deeds := k.deeds ++
        (.opened sockfd :: (settings f sockfd ++ binding f sockfd src)) } t → post (some sockfd) t) :
    Sound net monotone m (socket_open f) post s := by
  refine at_call h trivial fun a t _ ht => ?_
  rcases a with errno | sockfd
  · refine at_call ht trivial fun _ t _ ht => at_ret ht fun t ht => hnone [] (.perror "socket") t ?_
    rw [List.append_nil]
    exact ht
  · refine safe_bind (configure_socket_sound ht List.mem_cons_self
      ⟨fun ds complaint t ht => ?_, fun ds t hds ht => ?_⟩)
    · rw [if_pos rfl]
      refine at_call ht List.mem_cons_self fun _ t _ ht => at_ret ht fun t ht => ?_
      have hfds' : (sockfd :: k.fds).erase sockfd = k.fds := List.erase_cons_head sockfd k.fds
      refine hnone (.opened sockfd :: ds) complaint t ?_
      rw [List.append_cons, ← hfds']
      exact ht
    · obtain ⟨src, rfl⟩ := hds
      rw [if_neg (by decide)]
      refine at_ret ht fun t ht => hsome sockfd src t ?_
      rw [List.append_cons, ← hfds]
      exact ht

theorem signal_install_sound {post : Int → Process N → Prop} (h : At phase k s)
    (hfails : ∀ t, At phase { k with stderr := k.stderr ++ [.perror "sigaction"] } t →
      post (-1) t)
    (hinstalled : ∀ t, At phase { k with deeds := k.deeds ++ [.handled] } t → post 0 t) :
    Sound net monotone m signal_install post s := by
  refine at_call h trivial fun a t _ ht => ?_
  rcases a with _ | errno
  · exact at_ret ht hinstalled
  · exact at_call ht trivial fun _ t _ ht => at_ret ht hfails

end FtPing.Process
