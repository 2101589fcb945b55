import FtPing.Net.ByteOrder
import FtPing.Net.WireImage

namespace FtPing

open Bytes

-- What is the same on two hosts of whatever byte orders, where the words that are stored in the
-- context are the same bytes in the memory of either.
section Words

variable (host host' : Endian)

theorem store16_inj {first second : UInt16} (h : store16 host first = store16 host second) :
    first = second := by
  obtain ⟨a, b, hstored, hfirst⟩ := load16_store16 host first
  obtain ⟨c, d, hstored', hsecond⟩ := load16_store16 host second
  rw [hstored, hstored'] at h
  cases h
  exact hfirst.symm.trans hsecond

theorem store16_word_any (bytes : List UInt8) (offset : Nat) :
    store16 host' (word host' bytes offset) = store16 host (word host bytes offset) := by
  rw [word, word, store16_load16, store16_load16]

theorem word_eq_any_iff {stored stored' : UInt16}
    (h : store16 host' stored' = store16 host stored) (bytes : List UInt8) (offset : Nat) :
    word host' bytes offset = stored' ↔ word host bytes offset = stored := by
  have hword := store16_word_any host host' bytes offset
  constructor
  · intro heq
    rw [heq, h] at hword
    exact (store16_inj host hword).symm
  · intro heq
    rw [heq, ← h] at hword
    exact store16_inj host' hword

theorem ntohs_word_any (bytes : List UInt8) (offset : Nat) :
    ntohs host' (word host' bytes offset) = ntohs host (word host bytes offset) := by
  apply UInt16.toNat_inj.mp
  rw [word, word, ntohs_load16_toNat, ntohs_load16_toNat]

theorem store16_checksum_any (buf : List UInt8) (hlen : buf.length ≤ 131074) :
    store16 host' (ft_checksum host' buf) = store16 host (ft_checksum host buf) := by
  have hswap : swap16 (ft_checksum .little buf) = ft_checksum .big buf := by
    have hle := OnesComplement.value_le (by omega : 2 ≤ 65536) (word_sum .little buf)
    apply UInt16.toNat_inj.mp
    rw [swap16_toNat, ft_checksum_toNat .little buf hlen, ft_checksum_toNat .big buf hlen,
      ← value_order]
    omega
  have hbytes : store16 .big (ft_checksum .big buf) = store16 .little (ft_checksum .little buf) := by
    rw [← hswap, store16_swap16]
  cases host <;> cases host'
  · rfl
  · exact hbytes
  · exact hbytes.symm
  · rfl

theorem blank_any (message : List UInt8) : blank host' message = blank host message := by
  rw [blank, blank, store16_zero, store16_zero]

theorem checksum_matches_any {message : List UInt8} (hlen : message.length ≤ 131074) :
    checksum_matches host' message = checksum_matches host message := by
  have hbytes := store16_checksum_any host host' (blank host message)
    (by rw [blank, overwrite_length]; exact hlen)
  rw [checksum_matches, checksum_matches, blank_any host host']
  apply decide_eq_decide.mpr
  rw [eq_comm, eq_comm (a := ft_checksum host _)]
  exact word_eq_any_iff host host' hbytes message IcmpHdr.checksum

end Words

section Verdict

variable (host host' : Endian) {id id' : UInt16} (hid : store16 host' id' = store16 host id)

include hid

theorem error_line_any (flags : Flags) (d : Datagram) :
    error_line host' flags id' d = error_line host flags id d := by
  have hquoted : d.quote.id host' = id' ↔ d.quote.id host = id :=
    word_eq_any_iff host host' hid _ _
  have hsequence : d.quote.sequence host' = d.quote.sequence host := ntohs_word_any host host' _ _
  simp only [error_line, hquoted, hsequence]

-- So a datagram means the same to either.
theorem verdict_any (flags : Flags) {d : Datagram} (hlen : d.length ≤ 131074) :
    verdict host' flags id' d = verdict host flags id d := by
  have hmessage : d.message.length ≤ 131074 := by
    rw [Datagram.message, List.length_drop]
    omega
  have hreply : d.id host' = id' ↔ d.id host = id := word_eq_any_iff host host' hid _ _
  have hsequence : d.sequence host' = d.sequence host := ntohs_word_any host host' _ _
  simp only [verdict, checksum_matches_any host host' hmessage, error_line_any host host' hid,
    ne_eq, hreply, hsequence]

end Verdict

section Request

-- The payload has no bytes of a timestamp in it, which are in the order of the host.
def Orderless (host host' : Endian) (ctx : Ctx) : Prop :=
  host' = host ∨ ctx.flags.has_pattern = true ∨ ctx.payload_len < Timespec.size

variable {host host' : Endian} {ctx : Ctx}

theorem payload_byte_any (h : Orderless host host' ctx) (sent_at : Timespec) (i : Nat) :
    payload_byte host' ctx.flags ctx.payload_len sent_at i =
      payload_byte host ctx.flags ctx.payload_len sent_at i := by
  rcases h with rfl | hpattern | hshort
  · rfl
  · rw [payload_byte, payload_byte, if_pos hpattern, if_pos hpattern]
  · have hnone : ¬ (Timespec.size ≤ ctx.payload_len ∧ i < Timespec.size) := fun h => by omega
    rw [payload_byte, payload_byte, if_neg hnone, if_neg hnone]

variable (ctx' : Ctx) (h : Orderless host host' ctx) (hid : store16 host' ctx'.id = store16 host ctx.id)
  (hflags : ctx'.flags = ctx.flags) (hsize : ctx'.payload_len = ctx.payload_len)

include h hid hflags hsize

theorem echo_request_any (seq : UInt16) (sent_at : Timespec) {checksum checksum' : UInt16}
    (hchecksum : store16 host' checksum' = store16 host checksum) :
    echo_request host' ctx' seq sent_at checksum' = echo_request host ctx seq sent_at checksum := by
  have hpayload : payload_byte host' ctx'.flags ctx'.payload_len sent_at =
      payload_byte host ctx.flags ctx.payload_len sent_at := by
    rw [hflags, hsize]
    exact funext (payload_byte_any h sent_at)
  rw [echo_request, echo_request, hchecksum, hid, hpayload, hsize]

-- The whole request, with its checksum.
theorem echo_request_sealed_any (hlen : IcmpHdr.size + ctx.payload_len ≤ 131074) (seq : UInt16)
    (sent_at : Timespec) :
    echo_request host' ctx' seq sent_at
        (ft_checksum host' (echo_request host' ctx' seq sent_at 0)) =
      echo_request host ctx seq sent_at (ft_checksum host (echo_request host ctx seq sent_at 0)) := by
  have hblank := echo_request_any ctx' h hid hflags hsize seq sent_at
    ((store16_zero host').trans (store16_zero host).symm)
  apply echo_request_any ctx' h hid hflags hsize
  rw [hblank]
  apply store16_checksum_any
  rw [echo_request_length]
  exact hlen

end Request

end FtPing
