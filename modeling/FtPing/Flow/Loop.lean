import FtPing.Flow.Receive

namespace FtPing.Flow

open Bytes Interaction

variable {N : Type} {host : Endian} {net : Network N} {monotone : Prop} {p₀ : Point}
  {s₀ : State N} {kept : Prop} {s : State N}

theorem sched_init_follows (hs : Path host net monotone p₀ s₀ .setup s) :
    Follows host net monotone p₀ s₀ kept sched_init
      (fun _ t => Path host net monotone p₀ s₀ (.preload 0) t) s := by
  refine follows_get hs fun t ht _ => ?_
  split_ifs with htimeout
  · refine follows_call ht (fun _ _ => trivial) fun u _ v hu hr hsys => ?_
    cases hsys
    have hkept : u.ctx.flags.has_timeout = true := by rw [hr.ctx_eq]; exact htimeout
    refine follows_act (hu.step (.read_limit u hkept)) fun v hv _ => ?_
    exact follows_ret (hv.step (.limited u.now v)) fun w hw _ => hw
  · refine follows_act ht fun u hu hr => ?_
    have hkept : u.ctx.flags.has_timeout = false := by
      rw [hr.ctx_eq]
      exact Bool.not_eq_true _ ▸ htimeout
    exact follows_ret (hu.step (.unlimited u hkept)) fun v hv _ => hv

-- From the call of send_one() on, with `rest` for what its caller does next.
theorem follows_send_one {β : Type} (c : Caller) {rest : Int → Ping N β}
    {post : β → State N → Prop} (hs : Path host net monotone p₀ s₀ (.calling c) s)
    (hfailed : ∀ t, Path host net monotone p₀ s₀ (.failed c) t →
      Follows host net monotone p₀ s₀ kept (rest (-1)) post t)
    (hsent : ∀ t, Path host net monotone p₀ s₀ (.sent c) t →
      Follows host net monotone p₀ s₀ kept (rest 0) post t) :
    Follows host net monotone p₀ s₀ kept
      (next_seq >>= fun seq => send_one host c.site seq >>= rest) post s := by
  refine follows_act hs fun t ht _ => ?_
  rw [Prog.ret_bind]
  refine safe_bind ((send_one_follows c t.sched.seq (ht.step (.take_seq c t))).mono ?_)
  rintro rc u (⟨rfl, hu⟩ | ⟨rfl, hu⟩)
  · exact hfailed u hu
  · exact hsent u hu

theorem stamp_last_send_follows (p : Paced) (hs : Path host net monotone p₀ s₀ (.stamping p) s) :
    Follows host net monotone p₀ s₀ kept (stamp_last_send p.stampSite)
      (fun _ t => Path host net monotone p₀ s₀ p.next t) s := by
  refine follows_call hs (fun _ _ => trivial) fun t _ u ht _ hsys => ?_
  cases hsys
  refine follows_act (ht.step (.read_stamp p t)) fun u hu _ => ?_
  exact follows_ret (hu.step (.stamp p t.now u)) fun v hv _ => hv

theorem send_preload_follows (hs : Path host net monotone p₀ s₀ (.preload 0) s) :
    Follows host net monotone p₀ s₀ kept (send_preload host)
      (fun _ t => Path host net monotone p₀ s₀ .first t) s := by
  refine safe_loop (fun i t => Path host net monotone p₀ s₀ (.preload i) t) hs fun i t ht => ?_
  refine follows_get ht fun u hu _ => ?_
  split_ifs with hmore
  · refine follows_call hu (fun _ _ => trivial) fun v _ w hv hr hsys => ?_
    cases hsys
    have hkept : i < v.ctx.flags.preload := by rw [hr.ctx_eq]; exact hmore
    cases hstop : v.stop with
    | true =>
        exact follows_ret (hv.step (.preload_stop i v hstop)) fun w hw _ =>
          follows_ret hw fun x hx _ => hx
    | false =>
        refine follows_send_one (.send_preload i) (hv.step (.preload_go i v hkept hstop))
          (fun w hw => ?_) fun w hw => ?_
        · refine follows_call hw (fun _ _ => trivial) fun x _ y hx _ hsys => ?_
          cases hsys
          exact follows_ret (hx.step (.preload_failed i x)) fun y hy _ => hy
        · exact follows_ret (hw.step (.preload_sent i w)) fun x hx _ => hx
  · exact follows_ret (hu.step (.preload_done i u hmore)) fun v hv _ =>
      follows_ret hv fun w hw _ => hw

theorem send_first_follows (hs : Path host net monotone p₀ s₀ .first s) :
    Follows host net monotone p₀ s₀ kept (send_first host)
      (fun _ t => Path host net monotone p₀ s₀ (.stamping .ping_run) t) s := by
  refine follows_call hs (fun _ _ => trivial) fun t _ u ht _ hsys => ?_
  cases hsys
  cases hstop : t.stop with
  | true => exact follows_ret (ht.step (.first_stop t hstop)) fun u hu _ => hu
  | false =>
      refine follows_send_one (.paced .ping_run) (ht.step (.first_go t hstop))
        (fun u hu => ?_) fun u hu => ?_
      · refine follows_call hu (fun _ _ => trivial) fun v _ w hv _ hsys => ?_
        cases hsys
        exact follows_ret (hv.step (.first_failed v)) fun w hw _ => hw
      · exact follows_ret (hu.step (.paced_sent .ping_run u)) fun v hv _ => hv

-- A step of the loop ends it with -1, or goes on at the point `p` with 0.
def Onward (host : Endian) (net : Network N) (monotone : Prop) (p₀ : Point) (s₀ : State N)
    (p : Point) (rc : Int) (t : State N) : Prop :=
  rc = -1 ∧ Path host net monotone p₀ s₀ .finished t ∨ rc = 0 ∧ Path host net monotone p₀ s₀ p t

theorem follows_end {p : Point} (hs : Path host net monotone p₀ s₀ .finished s) :
    Follows host net monotone p₀ s₀ kept (.ret (-1)) (Onward host net monotone p₀ s₀ p) s :=
  follows_ret hs fun _ ht _ => Or.inl ⟨rfl, ht⟩

theorem follows_onward {p : Point} (hs : Path host net monotone p₀ s₀ p s) :
    Follows host net monotone p₀ s₀ kept (.ret 0) (Onward host net monotone p₀ s₀ p) s :=
  follows_ret hs fun _ ht _ => Or.inr ⟨rfl, ht⟩

theorem send_if_due_follows (hs : Path host net monotone p₀ s₀ .due s) :
    Follows host net monotone p₀ s₀ kept (send_if_due host)
      (Onward host net monotone p₀ s₀ .head) s := by
  refine follows_call hs (fun _ _ => trivial) fun t _ u ht _ hsys => ?_
  cases hsys
  refine follows_get (ht.step (.read_due t)) fun u hu _ => ?_
  split_ifs with hlate hearly
  · exact follows_end (hu.step (.due_late t.now u hlate))
  · exact follows_onward (hu.step (.due_early t.now u (Bool.not_eq_true _ ▸ hlate) hearly))
  · refine follows_send_one (.paced .send_if_due) (hu.step (.due_call t.now u
      (Bool.not_eq_true _ ▸ hlate) (Bool.not_eq_true _ ▸ hearly))) (fun v hv => ?_) fun v hv => ?_
    · exact follows_end (hv.step (.due_failed v))
    · refine safe_bind ((stamp_last_send_follows .send_if_due
        (hv.step (.paced_sent .send_if_due v))).mono fun _ w hw => ?_)
      exact follows_onward hw

theorem send_per_reply_follows (replies : Int)
    (hs : Path host net monotone p₀ s₀ (.burst replies) s) :
    Follows host net monotone p₀ s₀ kept (send_per_reply host replies)
      (Onward host net monotone p₀ s₀ .due) s := by
  refine safe_loop (fun i t => Path host net monotone p₀ s₀ (.burst i) t) hs fun i t ht => ?_
  split_ifs with hmore
  · refine follows_call ht (fun _ _ => trivial) fun u _ v hu _ hsys => ?_
    cases hsys
    cases hstop : u.stop with
    | true =>
        exact follows_ret (hu.step (.burst_stop i u hmore hstop)) fun v hv _ => follows_onward hv
    | false =>
        refine follows_call (hu.step (.burst_go i u hmore hstop)) (fun _ _ => trivial)
          fun v _ w hv _ hsys => ?_
        cases hsys
        refine follows_get (hv.step (.read_burst i v)) fun w hw _ => ?_
        split_ifs with hlate
        · exact follows_ret (hw.step (.burst_late i v.now w hlate)) fun x hx _ => follows_end hx
        · refine follows_send_one (.paced (.send_per_reply i)) (hw.step (.burst_call i v.now w
            (Bool.not_eq_true _ ▸ hlate))) (fun x hx => ?_) fun x hx => ?_
          · exact follows_ret (hx.step (.burst_failed i x)) fun y hy _ => follows_end hy
          · refine safe_bind ((stamp_last_send_follows (.send_per_reply i)
              (hx.step (.paced_sent (.send_per_reply i) x))).mono fun _ y hy => ?_)
            exact follows_ret hy fun z hz _ => hz
  · exact follows_ret (ht.step (.burst_done i t hmore)) fun u hu _ => follows_onward hu

theorem loop_readable_follows (hs : Path host net monotone p₀ s₀ .readable s) :
    Follows host net monotone p₀ s₀ False (loop_readable host)
      (Onward host net monotone p₀ s₀ .head) s := by
  refine follows_get hs fun t ht _ => ?_
  refine safe_bind ((ping_receive_follows (ht.step (.drain t)) False.elim).mono ?_)
  rintro rc u ⟨-, ⟨rfl, hu⟩ | ⟨rfl, hu⟩⟩
  · exact follows_end hu
  · refine follows_get hu fun v hv _ => ?_
    split_ifs with hfirst hflood
    · exact follows_end (hv.step (.first_reply t.stats.n_recv v hfirst))
    · refine safe_bind ((send_per_reply_follows (v.stats.n_recv - t.stats.n_recv)
        (hv.step (.burst_start t.stats.n_recv v hfirst hflood))).mono ?_)
      rintro rc w (⟨rfl, hw⟩ | ⟨rfl, hw⟩)
      · exact follows_end hw
      · exact send_if_due_follows hw
    · exact send_if_due_follows
        (hv.step (.burst_skip t.stats.n_recv v hfirst (Bool.not_eq_true _ ▸ hflood)))

theorem loop_once_follows (hs : Path host net monotone p₀ s₀ .waking s) :
    Follows host net monotone p₀ s₀ False (loop_once host)
      (Onward host net monotone p₀ s₀ .head) s := by
  refine follows_call hs (fun _ _ => trivial) fun t _ u ht _ hsys => ?_
  cases hsys
  refine follows_get (ht.step (.read_wake t)) fun u hu _ => ?_
  split_ifs with hlate
  · exact follows_end (hu.step (.wake_late t.now u hlate))
  · refine follows_call (hu.step (.wait t.now u (Bool.not_eq_true _ ▸ hlate)))
      (fun _ _ => trivial) fun v result w hv _ hsys => ?_
    cases hsys
    cases result with
    | readable => exact loop_readable_follows (hv.step (.poll_readable _ v))
    | timedOut => exact send_if_due_follows (hv.step (.poll_timedOut _ v))
    | failed errno =>
        simp only [Prog.ret_bind]
        split_ifs with hintr
        · subst hintr
          exact follows_onward (hv.step (.poll_interrupted _ v))
        · refine follows_call (hv.step (.poll_failed _ errno v hintr)) (fun _ _ => trivial)
            fun w _ x hw _ hsys => ?_
          cases hsys
          exact follows_end (hw.step (.complain_poll w))

-- Every state of every run of ping_run() lies on a path from its start.
theorem ping_run_follows (hs : Path host net monotone p₀ s₀ .start s) :
    Follows host net monotone p₀ s₀ False (ping_run host)
      (fun _ t => Path host net monotone p₀ s₀ .finished t) s := by
  refine follows_act hs fun t ht _ => ?_
  rw [Prog.ret_bind]
  refine safe_bind ((sched_init_follows (ht.step (.zero t))).mono fun _ t ht => ?_)
  refine safe_bind ((send_preload_follows ht).mono fun _ t ht => ?_)
  refine safe_bind ((send_first_follows ht).mono fun _ t ht => ?_)
  refine safe_bind ((stamp_last_send_follows .ping_run ht).mono fun _ t ht => ?_)
  refine safe_loop (fun _ t => Path host net monotone p₀ s₀ .head t) ht fun _ t ht => ?_
  refine follows_call ht (fun _ _ => trivial) fun u _ v hu _ hsys => ?_
  cases hsys
  cases hstop : u.stop with
  | true =>
      exact follows_ret (hu.step (.head_stop u hstop)) fun v hv _ => follows_ret hv fun w hw _ => hw
  | false =>
      rw [Prog.ret_bind]
      refine safe_bind ((loop_once_follows (hu.step (.head_go u hstop))).mono ?_)
      rintro rc v (⟨rfl, hv⟩ | ⟨rfl, hv⟩)
      · exact follows_ret hv fun w hw _ => follows_ret hw fun x hx _ => hx
      · exact follows_ret hv fun w hw _ => hw

theorem ping_run_path (host : Endian) (net : Network N) (monotone : Prop) (s t : State N)
    (q : Ping N Unit) (h : Reach (world net monotone) (ping_run host, s) (q, t)) :
    ∃ p, Path host net monotone .start s p t :=
  (ping_run_follows .here q t h).inv

end FtPing.Flow
