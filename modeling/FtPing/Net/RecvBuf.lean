import FtPing.Net.Datagram
import FtPing.Net.Receive
import FtPing.Script
import FtPing.Interaction.Safety

namespace FtPing

open Bytes Interaction

variable {N α β : Type}

-- Runs a program that does nothing but read and write the first `n` bytes of the receive
-- buffer, on the contents `bytes`. It gives up at any other access and at any other call.
def within (n : Nat) : {α : Type} → Ping N α → List UInt8 → Option (α × List UInt8)
  | _, .ret value, bytes => some (value, bytes)
  | _, .call (.load offset length) next, bytes =>
      if offset + length ≤ n then within n (next (slice bytes offset length)) bytes else none
  | _, .call (.store offset values) next, bytes =>
      if offset + values.length ≤ n then within n (next ()) (overwrite bytes offset values)
      else none
  | _, .call _ _, _ => none
  | _, .act _ _, _ => none
  | _, .loop _ _ _, _ => none

section Within

variable {n : Nat}

@[simp] theorem within_ret (value : α) (bytes : List UInt8) :
    within n (.ret value : Ping N α) bytes = some (value, bytes) := rfl

theorem within_call_load (offset length : Nat) (next : List UInt8 → Ping N α)
    (bytes : List UInt8) :
    within n (.call (.load offset length) next) bytes =
      if offset + length ≤ n then within n (next (slice bytes offset length)) bytes else none :=
  rfl

theorem within_call_store (offset : Nat) (values : List UInt8) (next : Unit → Ping N α)
    (bytes : List UInt8) :
    within n (.call (.store offset values) next) bytes =
      if offset + values.length ≤ n then within n (next ()) (overwrite bytes offset values)
      else none :=
  rfl

theorem within_load (offset length : Nat) (bytes : List UInt8) (h : offset + length ≤ n) :
    within n (load offset length : Ping N (List UInt8)) bytes =
      some (slice bytes offset length, bytes) := by
  rw [load, Prog.perform, within_call_load, if_pos h, within_ret]

theorem within_store (offset : Nat) (values : List UInt8) (bytes : List UInt8)
    (h : offset + values.length ≤ n) :
    within n (store offset values : Ping N Unit) bytes =
      some ((), overwrite bytes offset values) := by
  rw [store, Prog.perform, within_call_store, if_pos h, within_ret]

theorem within_bind (p : Ping N α) (f : α → Ping N β) (bytes : List UInt8) :
    within n (p.bind f) bytes = (within n p bytes).bind fun r => within n (f r.1) r.2 := by
  induction p generalizing bytes with
  | ret value => rfl
  | act update next ih => rfl
  | loop body index next hbody ih => rfl
  | call e next ih =>
      cases e with
      | load offset length =>
          simp only [Prog.call_bind, within_call_load]
          split_ifs with h
          · exact ih _ f bytes
          · rfl
      | store offset values =>
          simp only [Prog.call_bind, within_call_store]
          split_ifs with h
          · exact ih _ f _
          · rfl
      | _ => rfl

theorem within_then {p : Ping N α} {bytes out : List UInt8} {a : α}
    (h : within n p bytes = some (a, out)) (f : α → Ping N β) :
    within n (p >>= f) bytes = within n (f a) out := by
  rw [Prog.bind_eq, within_bind, h]
  rfl

-- Such a program does not notice what lies behind the first `n` bytes.
theorem within_append (p : Ping N α) (front back : List UInt8) (hn : n ≤ front.length) :
    within n p (front ++ back) = (within n p front).map fun r => (r.1, r.2 ++ back) := by
  induction p generalizing front with
  | ret value => rfl
  | act update next ih => rfl
  | loop body index next hbody ih => rfl
  | call e next ih =>
      cases e with
      | load offset length =>
          simp only [within_call_load]
          split_ifs with h
          · rw [slice_append_left front back offset length (by omega)]
            exact ih _ front hn
          · rfl
      | store offset values =>
          simp only [within_call_store]
          split_ifs with h
          · rw [overwrite_append_left front back offset values (by omega)]
            exact ih _ _ (by rw [overwrite_length]; exact hn)
          · rfl
      | _ => rfl

end Within

-- The receive buffer begins with the datagram `d`.
def State.holds (s : State N) (d : Datagram) : Prop :=
  ∃ back, s.ctx.recvbuf.bytes = d ++ back

theorem State.holds.congr {s t : State N} {d : Datagram} (h : s.holds d) (hctx : t.ctx = s.ctx) :
    t.holds d := by
  rw [State.holds, hctx]
  exact h

-- recvfrom() puts the part of the datagram that fits at the front.
theorem receive_holds (s : State N) (datagram : Datagram) :
    (s.receive s.ctx.recvbuf_len datagram).holds (datagram.take s.ctx.recvbuf_len) := by
  refine ⟨s.ctx.recvbuf.bytes.drop (datagram.take s.ctx.recvbuf_len).length, ?_⟩
  have hfit : 0 + (datagram.take s.ctx.recvbuf_len).length ≤ s.ctx.recvbuf.bytes.length := by
    rw [s.ctx.recvbuf.length_bytes, List.length_take]
    omega
  have h := overwrite_eq s.ctx.recvbuf.bytes 0 (datagram.take s.ctx.recvbuf_len) hfit
  rw [List.take_zero, List.nil_append, Nat.zero_add] at h
  exact h

-- The context `c` has the receive buffer changed and nothing else.
def Ctx.agrees (ctx c : Ctx) : Prop := ∃ buf, c = { ctx with recvbuf := buf }

theorem Ctx.agrees.refl (ctx : Ctx) : ctx.agrees ctx := ⟨ctx.recvbuf, rfl⟩

theorem Ctx.agrees.withRecvbuf {ctx : Ctx} {s : State N} (h : ctx.agrees s.ctx)
    (buf : Buffer s.ctx.recvbuf_len) : ctx.agrees (s.withRecvbuf buf).ctx := by
  have hstep : ∀ (c : Ctx) (buf : Buffer c.recvbuf_len), ctx.agrees c →
      ctx.agrees { c with recvbuf := buf } := by
    rintro c buf ⟨old, rfl⟩
    exact ⟨buf, rfl⟩
  exact hstep s.ctx buf h

section Exec

variable {monotone : Bool} {fuel : Nat} {k : Answers}

theorem exec_within {s : State Unit} {n : Nat} {p : Ping Unit α} {a : α} {out : List UInt8}
    (h : within n p s.ctx.recvbuf.bytes = some (a, out)) :
    ∃ buf : Buffer s.ctx.recvbuf_len, buf.bytes = out ∧
      exec (play monotone) fuel p (k, s) = some (a, k, s.withRecvbuf buf) := by
  induction p generalizing s with
  | ret value =>
      cases h
      exact ⟨s.ctx.recvbuf, rfl, rfl⟩
  | act update next ih => cases h
  | loop body index next hbody ih => cases h
  | call e next ih =>
      cases e with
      | load offset length =>
          simp only [within_call_load] at h
          split_ifs at h
          exact ih _ h
      | store offset values =>
          simp only [within_call_store] at h
          split_ifs at h
          exact ih () (s := s.withRecvbuf (s.ctx.recvbuf.store offset values)) h
      | _ => cases h

-- A program that leaves the buffer as it found it only computes its result.
theorem exec_of_within {s : State Unit} {d : Datagram} {p : Ping Unit α} {a : α}
    (hd : s.holds d) (h : within d.length p d = some (a, d)) :
    exec (play monotone) fuel p (k, s) = some (a, k, s) := by
  obtain ⟨back, hback⟩ := hd
  have hall : within d.length p s.ctx.recvbuf.bytes = some (a, s.ctx.recvbuf.bytes) := by
    rw [hback, within_append p d back (Nat.le_refl _), h]
    rfl
  obtain ⟨buf, hbuf, hexec⟩ := @exec_within α monotone fuel k _ _ _ _ _ hall
  rw [hexec, Buffer.ext hbuf]
  rfl

end Exec

section Safety

variable {net : Network N} {monotone : Prop} {inv : State N → Prop}
  {pre : Sys → State N → Prop} {holds : State N → Prop}

theorem Rely.ctx_eq {s t : State N} (h : Rely net monotone s t) : t.ctx = s.ctx := by
  cases h
  rfl

-- Under an assertion that does not care what the receive buffer holds, a program that stays
-- within the first `n` bytes ends in the result computed above, whatever happens around it.
theorem safe_within {n : Nat} {p : Ping N α} {a : α} {bytes out : List UInt8} {s : State N}
    (hstable : ∀ t u, holds t → Rely net monotone t u → holds u)
    (hscratch : ∀ t buf, holds t → holds (t.withRecvbuf buf))
    (hinv : ∀ t, holds t → inv t)
    (hload : ∀ offset length t, holds t → offset + length ≤ n → pre (.load offset length) t)
    (hstore : ∀ offset values t, holds t → offset + values.length ≤ n →
      pre (.store offset values) t)
    (h : within n p bytes = some (a, out)) (hs : holds s) (hbytes : s.ctx.recvbuf.bytes = bytes) :
    Safe (world net monotone) inv pre p
      (fun b t => b = a ∧ holds t ∧ t.ctx.recvbuf.bytes = out) s := by
  have hrecvbuf : ∀ t u, Rely net monotone t u → u.ctx.recvbuf.bytes = t.ctx.recvbuf.bytes :=
    fun t u hr => by rw [hr.ctx_eq]
  have hboth : ∀ content t u, holds t ∧ t.ctx.recvbuf.bytes = content →
      Rely net monotone t u → holds u ∧ u.ctx.recvbuf.bytes = content :=
    fun content t u ht hr => ⟨hstable t u ht.1 hr, (hrecvbuf t u hr).trans ht.2⟩
  induction p generalizing s bytes with
  | ret value =>
      cases h
      exact safe_ret (hboth out) (fun t ht => hinv t ht.1) ⟨hs, hbytes⟩
        fun t ht => ⟨rfl, ht.1, ht.2⟩
  | act update next ih => cases h
  | loop body index next hbody ih => cases h
  | call e next ih =>
      cases e with
      | load offset length =>
          simp only [within_call_load] at h
          split_ifs at h with hn
          refine safe_call (hboth bytes) (fun t ht => hinv t ht.1) ⟨hs, hbytes⟩
            (fun t ht => hload _ _ t ht.1 hn) ?_
          intro t b u ht hsys
          cases hsys
          refine ih _ ?_ ht.1 ht.2
          rw [Buffer.load, ht.2]
          exact h
      | store offset values =>
          simp only [within_call_store] at h
          split_ifs at h with hn
          refine safe_call (hboth bytes) (fun t ht => hinv t ht.1) ⟨hs, hbytes⟩
            (fun t ht => hstore _ _ t ht.1 hn) ?_
          intro t b u ht hsys
          cases hsys
          refine ih () h (hscratch t _ ht.1) ?_
          rw [← ht.2]
          rfl
      | _ => cases h

end Safety

end FtPing
