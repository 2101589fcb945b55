import FtPing.Net.Send
import FtPing.Net.Datagram

namespace FtPing

open Bytes Interaction

variable (host : Endian)

-- The context after all that send_one() writes to it, with its clock reading `now`.
def build (seq : UInt16) (now : Timespec) (ctx : Ctx) : Ctx :=
  write_checksum host (write_payload host seq now (write_header host seq ctx))

section Fields

variable (seq : UInt16) (now : Timespec) (ctx : Ctx)

-- Beside the packet and the slot of `seq` the context stays as it is.
theorem write_payload_eq :
    ∃ pkt, write_payload host seq now ctx =
      { ctx with send_ts := Function.update ctx.send_ts (slot seq) now, pkt := pkt } := by
  unfold write_payload fill_pattern fill_default write_timestamp
  split_ifs <;> exact ⟨_, rfl⟩

theorem build_eq :
    ∃ pkt, build host seq now ctx =
      { ctx with send_ts := Function.update ctx.send_ts (slot seq) now, pkt := pkt } := by
  obtain ⟨pkt, hpkt⟩ := write_payload_eq host seq now (write_header host seq ctx)
  rw [build, hpkt]
  exact ⟨_, rfl⟩

end Fields

-- Filling the payload leaves the header alone.
theorem fill_take {capacity : Nat} (byte : Nat → UInt8) (rounds i : Nat) (pkt : Buffer capacity) :
    (fill byte rounds i pkt).bytes.take IcmpHdr.size = pkt.bytes.take IcmpHdr.size := by
  induction rounds generalizing i pkt with
  | zero => rfl
  | succ rounds ih =>
      rw [fill, ih]
      exact take_overwrite _ _ _ _ (by omega)

theorem fill_default_take (seq : UInt16) (ctx : Ctx) :
    (fill_default host seq ctx).pkt.bytes.take IcmpHdr.size = ctx.pkt.bytes.take IcmpHdr.size := by
  by_cases h : Timespec.size ≤ ctx.payload_len
  · rw [fill_default, if_pos h]
    exact (fill_take _ _ _ _).trans (take_overwrite _ _ _ _ (Nat.le_refl _))
  · rw [fill_default, if_neg h]
    exact fill_take _ _ _ _

theorem write_payload_take (seq : UInt16) (now : Timespec) (ctx : Ctx) :
    (write_payload host seq now ctx).pkt.bytes.take IcmpHdr.size =
      ctx.pkt.bytes.take IcmpHdr.size := by
  by_cases h : ctx.flags.has_pattern = true
  · rw [write_payload, if_pos h]
    exact fill_take _ _ _ _
  · rw [write_payload, if_neg h]
    exact fill_default_take host seq _

theorem write_payload_getD (seq : UInt16) (now : Timespec) (ctx : Ctx) {i : Nat}
    (hi : i < IcmpHdr.size) :
    (write_payload host seq now ctx).pkt.bytes.getD i 0 = ctx.pkt.bytes.getD i 0 := by
  have hget := congrArg (fun bytes => bytes.getD i 0) (write_payload_take host seq now ctx)
  simpa only [List.getD_eq_getElem?_getD, List.getElem?_take_of_lt hi] using hget

section Header

variable (seq : UInt16) (now : Timespec) (ctx : Ctx)

@[simp] theorem build_length :
    (build host seq now ctx).pkt.bytes.length = IcmpHdr.size + ctx.payload_len := by
  obtain ⟨pkt, hpkt⟩ := build_eq host seq now ctx
  rw [hpkt]
  exact pkt.length_bytes

-- Outside the checksum the header of the packet is what write_header() wrote.
theorem build_getD (i : Nat) (hi : i < IcmpHdr.size)
    (hsum : i < IcmpHdr.checksum ∨ IcmpHdr.id ≤ i) :
    (build host seq now ctx).pkt.bytes.getD i 0 =
      (write_header host seq ctx).pkt.bytes.getD i 0 := by
  have hpayload := write_payload_getD host seq now (write_header host seq ctx) hi
  have hlen : IcmpHdr.size ≤
      (write_payload host seq now (write_header host seq ctx)).pkt.bytes.length := by
    rw [Buffer.length_bytes]
    exact Nat.le_add_right _ _
  have hword : ∀ w, (store16 host w).length = 2 := store16_length host
  simp only [IcmpHdr.size, IcmpHdr.checksum, IcmpHdr.id] at hlen hsum
  rw [build, write_checksum]
  simp only [Buffer.store]
  rw [getD_overwrite _ _ _ _ _
      (by rw [hword, overwrite_length]; simp only [IcmpHdr.checksum]; omega),
    if_neg (by rw [hword]; simp only [IcmpHdr.checksum]; omega),
    getD_overwrite _ _ _ _ _ (by rw [hword]; simp only [IcmpHdr.checksum]; omega),
    if_neg (by rw [hword]; simp only [IcmpHdr.checksum]; omega), hpayload]

end Header

section Words

variable (cells : List UInt8) (offset : Nat)

theorem word_overwrite (w : UInt16) (h : offset + 2 ≤ cells.length) :
    word host (overwrite cells offset (store16 host w)) offset = w := by
  obtain ⟨first, second, hstore, hload⟩ := load16_store16 host w
  rw [word, hstore, getD_overwrite _ _ _ _ _ h, getD_overwrite _ _ _ _ _ h,
    if_pos ⟨Nat.le_refl _, by simp⟩, if_pos ⟨Nat.le_add_right _ _, by simp⟩, Nat.sub_self,
    Nat.add_sub_cancel_left]
  exact hload

theorem getD_overwrite_ne (values : List UInt8) (i : Nat)
    (h : offset + values.length ≤ cells.length) (hi : i < offset ∨ offset + values.length ≤ i) :
    (overwrite cells offset values).getD i 0 = cells.getD i 0 := by
  rw [getD_overwrite _ _ _ _ _ h, if_neg (by omega)]

theorem word_overwrite_ne (values : List UInt8) (i : Nat)
    (h : offset + values.length ≤ cells.length) (hi : i + 2 ≤ offset ∨ offset + values.length ≤ i) :
    word host (overwrite cells offset values) i = word host cells i := by
  rw [word, word, getD_overwrite_ne _ _ _ _ h (by omega), getD_overwrite_ne _ _ _ _ h (by omega)]

end Words

-- The fields of an echo request, with the id as it is stored and the sequence number in
-- network order.
theorem write_header_fields (seq : UInt16) (ctx : Ctx) :
    (write_header host seq ctx).pkt.bytes.getD IcmpHdr.type 0 = 8 ∧
      (write_header host seq ctx).pkt.bytes.getD IcmpHdr.code 0 = 0 ∧
      word host (write_header host seq ctx).pkt.bytes IcmpHdr.id = ctx.id ∧
      word host (write_header host seq ctx).pkt.bytes IcmpHdr.sequence = htons host seq := by
  have hlen := ctx.pkt.length_bytes
  have hword : ∀ w, (store16 host w).length = 2 := store16_length host
  simp only [IcmpHdr.size] at hlen
  simp only [write_header, Buffer.store, IcmpHdr.type, IcmpHdr.code, IcmpHdr.id, IcmpHdr.sequence]
  refine ⟨?_, ?_, ?_, ?_⟩
  · rw [getD_overwrite_ne _ _ _ _ (by simp [hword]; omega) (by simp),
      getD_overwrite_ne _ _ _ _ (by simp [hword]; omega) (by simp),
      getD_overwrite_ne _ _ _ _ (by simp; omega) (by simp),
      getD_overwrite _ _ _ _ _ (by simp; omega)]
    rfl
  · rw [getD_overwrite_ne _ _ _ _ (by simp [hword]; omega) (by simp),
      getD_overwrite_ne _ _ _ _ (by simp [hword]; omega) (by simp),
      getD_overwrite _ _ _ _ _ (by simp; omega)]
    rfl
  · rw [word_overwrite_ne _ _ _ _ _ (by simp [hword]; omega) (by simp),
      word_overwrite _ _ _ _ (by simp; omega)]
  · exact word_overwrite _ _ _ _ (by simp; omega)

theorem build_fields (seq : UInt16) (now : Timespec) (ctx : Ctx) :
    (build host seq now ctx).pkt.bytes.getD IcmpHdr.type 0 = 8 ∧
      (build host seq now ctx).pkt.bytes.getD IcmpHdr.code 0 = 0 ∧
      word host (build host seq now ctx).pkt.bytes IcmpHdr.id = ctx.id ∧
      word host (build host seq now ctx).pkt.bytes IcmpHdr.sequence = htons host seq := by
  obtain ⟨htype, hcode, hid, hseq⟩ := write_header_fields host seq ctx
  have hget := build_getD host seq now ctx
  refine ⟨?_, ?_, ?_, ?_⟩
  · rw [hget _ (by decide) (by decide), htype]
  · rw [hget _ (by decide) (by decide), hcode]
  · rw [← hid, word, word, hget _ (by decide) (by decide), hget _ (by decide) (by decide)]
  · rw [← hseq, word, word, hget _ (by decide) (by decide), hget _ (by decide) (by decide)]

end FtPing
