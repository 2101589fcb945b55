import FtPing.Flow.Attempts
import FtPing.Flow.Preload
import FtPing.Net.Packet
import FtPing.Script

namespace FtPing

open Bytes History Interaction

-- What the calls of sendto() were given, the latest first.
def wire : List Entry → List (List UInt8)
  | [] => []
  | entry :: log =>
      match entry.event with
      | .sent buf => buf :: wire log
      | .sendFailed buf => buf :: wire log
      | _ => wire log

theorem attempts_read (now : Nat) (stop : Bool) (log : List Entry) :
    (attempts (⟨now, stop, .clock .fill_payload⟩ :: log)).length = (attempts log).length := by
  rw [attempts]
  cases attempts log <;> rfl

namespace Flow

variable {N : Type}

inductive Parcel
  | none
  | level
  | taken (seq : UInt16)
  | written
  | ready (buf : List UInt8)

def parcel : Point → Parcel
  | .start => .none
  | .setup => .none
  | .limiting _ => .none
  | .called _ seq => .taken seq
  | .opened _ seq => .taken seq
  | .headed _ _ => .written
  | .filling _ _ _ => .written
  | .filled _ _ => .written
  | .sealed _ => .written
  | .ready _ buf => .ready buf
  | _ => .level

variable (host : Endian)

-- The packet `buf` has the number `k`.
def Bears (buf : List UInt8) (k : Nat) : Prop :=
  word host buf IcmpHdr.sequence = htons host (UInt16.ofNat k)

def Stocked : Parcel → State N → Prop
  | .none, t => wire t.log = []
  | .level, t => t.sched.seq = UInt16.ofNat (wire t.log).length
  | .taken seq, t => seq = UInt16.ofNat (wire t.log).length ∧ t.sched.seq = seq + 1
  | .written, t => t.sched.seq = UInt16.ofNat (wire t.log).length + 1 ∧
      Bears host t.ctx.pkt.bytes (wire t.log).length
  | .ready buf, t => t.sched.seq = UInt16.ofNat (wire t.log).length + 1 ∧
      Bears host buf (wire t.log).length

structure Contiguous (p : Point) (t : State N) : Prop where
  stocked : Stocked host (parcel p) t
  borne : ∀ k buf, nth (wire t.log) k = some buf → Bears host buf k

variable {host} {net : Network N} {monotone : Prop} {p q : Point} {t u : State N}

theorem Contiguous.same (h : Contiguous host p t) (hq : parcel q = parcel p)
    (hseq : u.sched.seq = t.sched.seq) (hpkt : u.ctx.pkt.bytes = t.ctx.pkt.bytes)
    (hwire : wire u.log = wire t.log) : Contiguous host q u := by
  refine ⟨?_, by rw [hwire]; exact h.borne⟩
  have hstocked := h.stocked
  rw [hq]
  generalize parcel p = parcel at hstocked
  cases parcel <;> simpa only [Stocked, hseq, hpkt, hwire] using hstocked

theorem Contiguous.schedule {sched : Sched} (h : Contiguous host p t) (hp : parcel p = .none)
    (hseq : sched.seq = 0) : Contiguous host (.preload 0) (t.setSched sched) := by
  have hnone := h.stocked
  rw [hp] at hnone
  refine ⟨?_, h.borne⟩
  change sched.seq = UInt16.ofNat (wire t.log).length
  rw [hseq, show wire t.log = [] from hnone]
  rfl

-- What is written behind the header, and what into the checksum, leaves the number in place.
theorem write_payload_bears {ctx : Ctx} {k : Nat} (seq : UInt16) (now : Timespec)
    (h : Bears host ctx.pkt.bytes k) : Bears host (write_payload host seq now ctx).pkt.bytes k := by
  rw [Bears, word, write_payload_getD host seq now ctx (by decide),
    write_payload_getD host seq now ctx (by decide)]
  exact h

theorem write_checksum_bears {ctx : Ctx} {k : Nat} (h : Bears host ctx.pkt.bytes k) :
    Bears host (write_checksum host ctx).pkt.bytes k := by
  have hlen := ctx.pkt.length_bytes
  simp only [IcmpHdr.size] at hlen
  rw [Bears, write_checksum]
  simp only [Buffer.store]
  rw [word_overwrite_ne, word_overwrite_ne]
  · exact h
  · simp only [store16_length, IcmpHdr.checksum]
    omega
  · exact Or.inr (by simp only [store16_length]; decide)
  · simp only [store16_length, overwrite_length, IcmpHdr.checksum]
    omega
  · exact Or.inr (by simp only [store16_length]; decide)

-- The packet goes to sendto(), whatever comes of it.
theorem Contiguous.hand_over {c : Caller} {buf : List UInt8}
    (h : Contiguous host (.ready c buf) t) (hq : parcel q = .level)
    (hseq : u.sched.seq = t.sched.seq) (hwire : wire u.log = buf :: wire t.log) :
    Contiguous host q u := by
  obtain ⟨hnext, hbears⟩ := h.stocked
  refine ⟨?_, fun k other hk => ?_⟩
  · rw [hq, Stocked, hseq, hwire, hnext]
    exact (UInt16.ofNat_add _ 1).symm
  · rw [hwire, nth_cons] at hk
    split_ifs at hk with heq
    · cases hk
      rw [heq]
      exact hbears
    · exact h.borne k other hk

theorem Contiguous.edge (h : Contiguous host p t) (he : Edge host net monotone p t q u) :
    Contiguous host q u := by
  cases he with
  | env _ _ _ hr =>
      cases hr
      exact h.same rfl rfl rfl rfl
  | limited now t => exact h.schedule rfl rfl
  | unlimited t _ => exact h.schedule rfl rfl
  | take_seq c t => exact ⟨⟨h.stocked, rfl⟩, h.borne⟩
  | header c seq t =>
      obtain ⟨hseq, hnext⟩ := h.stocked
      refine ⟨⟨hseq ▸ hnext, ?_⟩, h.borne⟩
      change Bears host (write_header host seq t.ctx).pkt.bytes (wire t.log).length
      rw [Bears, ← hseq]
      exact (write_header_fields host seq t.ctx).2.2.2
  | payload c seq now t =>
      exact ⟨⟨h.stocked.1, write_payload_bears seq _ h.stocked.2⟩, h.borne⟩
  | checksum c seq t => exact ⟨⟨h.stocked.1, write_checksum_bears h.stocked.2⟩, h.borne⟩
  | pass c t => exact ⟨h.stocked, h.borne⟩
  | transmit c buf t n _ => exact h.hand_over rfl rfl rfl
  | refuse c buf t => exact h.hand_over rfl rfl rfl
  | stamp p now t => exact h.same (by cases p <;> rfl) rfl rfl rfl
  | _ => exact h.same rfl rfl rfl rfl

-- Whether the program is inside send_one() on the way to sendto().
def unpassed : Point → ℤ
  | .opened _ _ => 1
  | .headed _ _ => 1
  | .filling _ _ _ => 1
  | .filled _ _ => 1
  | .sealed _ => 1
  | .ready _ _ => 1
  | _ => 0

-- Every call of send_one() makes one call of sendto().
theorem Path.calls {s : State N} (h : Path host net monotone .start s q t)
    (hs : s.stats = Stats.zero) (hlog : s.log = []) :
    ((wire t.log).length : ℤ) + unpassed q = (attempts t.log).length := by
  have hsum := h.conserved hs (fun t => (wire t.log).length - (attempts t.log).length) unpassed
    fun p t q u _ _ he => by
      cases he with
      | env _ _ _ hr =>
          cases hr
          rfl
      | enter c seq t =>
          change ((wire t.log).length : ℤ) - ((attempts t.log).length + 1 : ℕ) + 1 =
            (wire t.log).length - (attempts t.log).length + 0
          omega
      | read_sent c seq t =>
          change ((wire t.log).length : ℤ) -
            (attempts (⟨t.now, t.stop, .clock .fill_payload⟩ :: t.log)).length + 1 = _
          rw [attempts_read]
          rfl
      | transmit c buf t n _ =>
          change ((wire t.log).length + 1 : ℕ) - ((attempts t.log).length : ℤ) + 0 =
            (wire t.log).length - (attempts t.log).length + 1
          omega
      | refuse c buf t =>
          change ((wire t.log).length + 1 : ℕ) - ((attempts t.log).length : ℤ) + 0 =
            (wire t.log).length - (attempts t.log).length + 1
          omega
      | stamp p now t => cases p <;> rfl
      | read_stamp p t => cases p <;> rfl
      | _ => rfl
  rw [hlog] at hsum
  simp only [unpassed, wire, attempts, List.length_nil] at hsum ⊢
  omega

end Flow

end FtPing
