import FtPing.System
import FtPing.Net.Checksum
import FtPing.Net.IcmpError

namespace FtPing

open Bytes

variable (host : Endian)

-- A datagram as a raw socket delivers it, headers first. These are its parts by name; nothing
-- in here looks at a receive buffer.
abbrev Datagram := List UInt8

def word (bytes : List UInt8) (offset : Nat) : UInt16 :=
  load16 host (bytes.getD offset 0) (bytes.getD (offset + 1) 0)

namespace Datagram

def ihl (d : Datagram) : Nat := IpHdr.ip_hl (d.getD 0 0) * 4

-- Both headers are there, and the IP header is not shorter than its fixed part.
def complete (d : Datagram) : Bool :=
  IpHdr.size ≤ d.length && IpHdr.size ≤ d.ihl && d.ihl + IcmpHdr.size ≤ d.length

def message (d : Datagram) : List UInt8 := d.drop d.ihl

def src (d : Datagram) : List UInt8 := slice d IpHdr.ip_src 4

def ttl (d : Datagram) : UInt8 := d.getD IpHdr.ip_ttl 0

def protocol (d : Datagram) : UInt8 := d.getD IpHdr.ip_p 0

def type (d : Datagram) : UInt8 := d.message.getD IcmpHdr.type 0

def code (d : Datagram) : UInt8 := d.message.getD IcmpHdr.code 0

def id (d : Datagram) : UInt16 := word host d.message IcmpHdr.id

def sequence (d : Datagram) : UInt16 := ntohs host (word host d.message IcmpHdr.sequence)

-- What an ICMP error quotes is the front of a datagram again.
def quote (d : Datagram) : Datagram := d.message.drop IcmpHdr.size

end Datagram

-- A message with its checksum field zeroed, and whether the field has what is computed then.
def blank (message : List UInt8) : List UInt8 :=
  overwrite message IcmpHdr.checksum (store16 host 0)

def checksum_matches (message : List UInt8) : Bool :=
  ft_checksum host (blank host message) = word host message IcmpHdr.checksum

-- What ping_receive() does with a datagram: nothing, a complaint, or recording the reply to
-- the probe `seq`.
inductive Verdict
  | ignored
  | fault (line : Line)
  | reply (ihl : Nat) (seq : UInt16)
  deriving DecidableEq

def error_line (flags : Flags) (id : UInt16) (d : Datagram) : Option Line :=
  if is_icmp_error_type d.type ∧ d.quote.complete ∧ (d.quote.id host = id ∨ flags.verbose) ∧
      ¬ flags.quiet ∧ ¬ flags.quiet_errors then
    some (.icmp_error d.src (d.quote.sequence host) d.type d.code)
  else none

def verdict (flags : Flags) (id : UInt16) (d : Datagram) : Verdict :=
  if ¬ d.complete then .ignored
  else if ¬ checksum_matches host d.message then .fault (.checksum_mismatch d.src)
  else if d.type ≠ 0 ∨ d.code ≠ 0 then
    match error_line host flags id d with
    | none => .ignored
    | some line => .fault line
  else if d.id host ≠ id then .ignored
  else .reply d.ihl (d.sequence host)

def reply_line (flags : Flags) (d : Datagram) (rtt : ℚ) : Option Line :=
  if flags.quiet then none
  else if flags.flood then some .flood_recv
  else some (.reply d.message.length d.src (d.sequence host) d.ttl rtt)

theorem ihl_le (d : Datagram) : d.ihl ≤ 60 := by
  have h : IpHdr.ip_hl (d.getD 0 0) < 16 := Nat.mod_lt _ (by decide)
  simp only [Datagram.ihl]
  omega

-- Our echo replies.
def is_reply (id : UInt16) (d : Datagram) : Bool :=
  d.complete && checksum_matches host d.message && d.type = 0 && d.code = 0 && d.id host = id

theorem is_reply_iff (id : UInt16) (d : Datagram) :
    is_reply host id d = true ↔ d.complete = true ∧ checksum_matches host d.message = true ∧
      d.type = 0 ∧ d.code = 0 ∧ d.id host = id := by
  simp only [is_reply, Bool.and_eq_true, decide_eq_true_eq, and_assoc]

theorem verdict_of_is_reply {flags : Flags} {id : UInt16} {d : Datagram}
    (h : is_reply host id d = true) :
    verdict host flags id d = .reply d.ihl (d.sequence host) := by
  obtain ⟨hcomplete, hsum, htype, hcode, hid⟩ := (is_reply_iff host id d).mp h
  simp [verdict, hcomplete, hsum, htype, hcode, hid]

theorem verdict_eq_reply {flags : Flags} {id : UInt16} {d : Datagram} {ihl : Nat} {seq : UInt16}
    (h : verdict host flags id d = .reply ihl seq) :
    is_reply host id d = true ∧ ihl = d.ihl ∧ seq = d.sequence host := by
  rw [is_reply_iff]
  unfold verdict at h
  by_cases hcomplete : d.complete = true
  · by_cases hsum : checksum_matches host d.message = true
    · by_cases htype : d.type = 0 ∧ d.code = 0
      · by_cases hid : d.id host = id
        · simp only [hcomplete, hsum, htype, hid, not_true_eq_false, ne_eq, or_self, ite_false,
            Verdict.reply.injEq] at h
          exact ⟨⟨hcomplete, hsum, htype.1, htype.2, hid⟩, h.1.symm, h.2.symm⟩
        · simp [hcomplete, hsum, htype, hid] at h
      · rw [if_neg (by simp [hcomplete]), if_neg (by simp [hsum]), if_pos (by tauto)] at h
        split at h <;> cases h
    · simp [hcomplete, hsum] at h
  · simp [hcomplete] at h

end FtPing
