import FtPing.Net.RecvBuf

namespace FtPing

open Bytes Interaction

variable {N : Type} (host : Endian)

section Integers

variable {n offset : Nat} (d : List UInt8)

theorem within_load_uint8 (h : offset < n) :
    within n (load_uint8 offset : Ping N UInt8) d = some (d.getD offset 0, d) := by
  rw [load_uint8, within_then (within_load offset 1 d h), getD_slice d offset 1 0 0 (by omega)]
  rfl

theorem within_load_uint16 (h : offset + 2 ≤ n) :
    within n (load_uint16 host offset : Ping N UInt16) d = some (word host d offset, d) := by
  rw [load_uint16, within_then (within_load offset 2 d h), getD_slice d offset 2 0 0 (by omega),
    getD_slice d offset 2 1 0 (by omega)]
  rfl

theorem within_store_uint16 (word : UInt16) (h : offset + 2 ≤ n) :
    within n (store_uint16 host offset word : Ping N Unit) d =
      some ((), overwrite d offset (store16 host word)) :=
  within_store offset _ d (by rw [store16_length]; exact h)

theorem store16_word (h : offset + 2 ≤ d.length) :
    store16 host (word host d offset) = slice d offset 2 := by
  have hfirst : offset < d.length := by omega
  have hsecond : offset + 1 < d.length := by omega
  rw [word, store16_load16, slice, List.drop_eq_getElem_cons hfirst,
    List.drop_eq_getElem_cons hsecond]
  simp only [List.take_succ_cons, List.take_zero, List.getD_eq_getElem _ _ hfirst,
    List.getD_eq_getElem _ _ hsecond]

theorem word_drop (start : Nat) :
    word host (d.drop start) offset = word host d (start + offset) := by
  simp only [word, getD_drop, Nat.add_assoc]

end Integers

theorem complete_iff (d : Datagram) :
    d.complete = true ↔
      IpHdr.size ≤ d.length ∧ IpHdr.size ≤ d.ihl ∧ d.ihl + IcmpHdr.size ≤ d.length := by
  simp only [Datagram.complete, Bool.and_eq_true, decide_eq_true_eq, and_assoc]

theorem within_locate_icmp (d : Datagram) :
    within d.length (locate_icmp d.length : Ping N (Option Nat)) d =
      some (if d.complete then some d.ihl else none, d) := by
  simp only [complete_iff]
  unfold locate_icmp
  by_cases hip : d.length < IpHdr.size
  · rw [if_pos hip, if_neg (by omega)]
    rfl
  · have hfirst : 0 < d.length := by simp only [IpHdr.size] at hip; omega
    rw [if_neg hip, within_then (within_load_uint8 d hfirst), ← Datagram.ihl]
    dsimp only
    split_ifs
    · omega
    · rfl
    · omega
    · rfl
    · rfl
    · omega

theorem within_checksum_ok (d : Datagram) (reply : Nat) (h : reply + IcmpHdr.size ≤ d.length) :
    within d.length (checksum_ok host reply (d.length - reply) : Ping N Bool) d =
      some (checksum_matches host (d.drop reply), d) := by
  have hfield : reply + IcmpHdr.checksum + 2 ≤ d.length := by
    simp only [IcmpHdr.size, IcmpHdr.checksum] at h ⊢
    omega
  have hzero : (store16 host 0).length = 2 := store16_length host 0
  -- The loaded message is the received one with its field blanked, and then the field is
  -- written back.
  have hmessage : slice (overwrite d (reply + IcmpHdr.checksum) (store16 host 0)) reply
      (d.length - reply) = blank host (d.drop reply) := by
    rw [slice, drop_overwrite d reply _ _ (by omega), List.take_of_length_le, blank]
    rw [overwrite_length, List.length_drop]
  have hrestored : overwrite (overwrite d (reply + IcmpHdr.checksum) (store16 host 0))
      (reply + IcmpHdr.checksum) (store16 host (word host d (reply + IcmpHdr.checksum))) = d := by
    have := overwrite_restore d (reply + IcmpHdr.checksum) (store16 host 0) (by omega)
    rwa [hzero, ← store16_word host d hfield] at this
  rw [checksum_ok, within_then (within_load_uint16 host d hfield),
    within_then (within_store_uint16 host d _ hfield),
    within_then (within_load reply (d.length - reply) _ (by omega)), hmessage,
    within_then (within_store_uint16 host _ _ hfield), hrestored, checksum_matches, word_drop]
  rfl

theorem type_eq (d : Datagram) : d.type = d.getD (d.ihl + IcmpHdr.type) 0 := getD_drop d _ _ _

theorem code_eq (d : Datagram) : d.code = d.getD (d.ihl + IcmpHdr.code) 0 := getD_drop d _ _ _

theorem quote_eq (d : Datagram) : d.quote = d.drop (d.ihl + IcmpHdr.size) := List.drop_drop

-- The offset of the quoted ICMP header, if the quote reaches that far.
theorem within_quoted_probe (d : Datagram) (h : d.complete = true) :
    within d.length (quoted_probe d.ihl d.ihl d.length : Ping N (Option Nat)) d =
      some (if d.quote.complete then some (d.ihl + IcmpHdr.size + d.quote.ihl) else none, d) := by
  obtain ⟨-, -, hicmp⟩ := (complete_iff d).mp h
  have hlength : d.quote.length = d.length - (d.ihl + IcmpHdr.size) := by
    rw [quote_eq, List.length_drop]
  simp only [complete_iff, hlength]
  unfold quoted_probe
  dsimp only
  by_cases hip : d.length < d.ihl + IcmpHdr.size + IpHdr.size
  · rw [if_pos hip, if_neg (by omega)]
    rfl
  · have hfirst : d.ihl + IcmpHdr.size < d.length := by simp only [IpHdr.size] at hip; omega
    have hihl : IpHdr.ip_hl (d.getD (d.ihl + IcmpHdr.size) 0) * 4 = d.quote.ihl := by
      simp only [Datagram.ihl, quote_eq, getD_drop, Nat.add_zero]
    rw [if_neg hip, within_then (within_load_uint8 d hfirst), hihl]
    split_ifs
    · omega
    · rfl
    · omega
    · rfl
    · rfl
    · omega

section Lines

variable (ctx : Ctx)

def print_option : Option Line → Ping N Unit
  | none => pure ()
  | some line => print line

-- handle_icmp_error() up to the point where it prints.
def icmp_error_line (ip ihl reply n : Nat) : Ping N (Option Line) := do
  let type ← load_uint8 (reply + IcmpHdr.type)
  if ¬ is_icmp_error_type type then pure none
  else
    match ← quoted_probe reply ihl n with
    | none => pure none
    | some inner_icmp => do
        let id ← load_uint16 host (inner_icmp + IcmpHdr.id)
        if id ≠ ctx.id ∧ ¬ ctx.flags.verbose then pure none
        else if ctx.flags.quiet ∨ ctx.flags.quiet_errors then pure none
        else do
          let src ← load (ip + IpHdr.ip_src) 4
          let sequence ← load_uint16 host (inner_icmp + IcmpHdr.sequence)
          let code ← load_uint8 (reply + IcmpHdr.code)
          pure (some (.icmp_error src (ntohs host sequence) type code))

theorem handle_icmp_error_eq (ip ihl reply n : Nat) :
    (handle_icmp_error host ctx ip ihl reply n : Ping N Unit) =
      icmp_error_line host ctx ip ihl reply n >>= print_option := by
  unfold handle_icmp_error icmp_error_line
  simp only [Prog.bind_eq, Prog.bind_assoc]
  congr 1
  funext type
  by_cases htype : is_icmp_error_type type = true
  · rw [if_neg (by simp [htype]), if_neg (by simp [htype]), Prog.bind_assoc]
    congr 1
    funext inner
    cases inner with
    | none => rfl
    | some inner_icmp =>
        simp only [Prog.bind_assoc]
        congr 1
        funext id
        split_ifs
        · rfl
        · rfl
        · simp only [Prog.bind_assoc]
          rfl
  · rw [if_pos htype, if_pos htype]
    rfl

theorem within_icmp_error_line (d : Datagram) (h : d.complete = true) :
    within d.length (icmp_error_line host ctx 0 d.ihl d.ihl d.length : Ping N (Option Line)) d =
      some (error_line host ctx.flags ctx.id d, d) := by
  obtain ⟨hip, -, hicmp⟩ := (complete_iff d).mp h
  simp only [IpHdr.size, IcmpHdr.size] at hip hicmp
  unfold icmp_error_line error_line
  rw [within_then (within_load_uint8 d (by simp only [IcmpHdr.type]; omega)), ← type_eq]
  by_cases htype : is_icmp_error_type d.type = true
  · rw [if_neg (by simp [htype]), within_then (within_quoted_probe d h)]
    by_cases hquote : d.quote.complete = true
    · obtain ⟨-, -, hquoted⟩ := (complete_iff d.quote).mp hquote
      rw [quote_eq, List.length_drop, ← quote_eq] at hquoted
      have hword : ∀ offset, word host d (d.ihl + IcmpHdr.size + d.quote.ihl + offset) =
          word host d.quote.message offset := fun offset => by
        rw [Datagram.message, word_drop, quote_eq, word_drop, Nat.add_assoc, ← quote_eq]
      simp only [IcmpHdr.size] at hquoted
      rw [if_pos hquote]
      dsimp only
      rw [within_then (within_load_uint16 host d
        (by simp only [IcmpHdr.size, IcmpHdr.id]; omega)), hword, ← Datagram.id]
      by_cases hid : d.quote.id host = ctx.id ∨ ctx.flags.verbose = true
      · by_cases hquiet : ctx.flags.quiet = true ∨ ctx.flags.quiet_errors = true
        · rw [if_neg (by tauto), if_pos hquiet, if_neg (by tauto)]
          rfl
        · rw [if_neg (by tauto), if_neg hquiet, if_pos (by tauto),
            within_then (within_load _ _ d (by simp only [IpHdr.ip_src]; omega)),
            within_then (within_load_uint16 host d
              (by simp only [IcmpHdr.size, IcmpHdr.sequence]; omega)), hword,
            within_then (within_load_uint8 d (by simp only [IcmpHdr.code]; omega)), ← code_eq]
          rfl
      · rw [if_pos (by tauto), if_neg (by tauto)]
        rfl
    · rw [if_neg hquote, if_neg (by tauto)]
      rfl
  · rw [if_pos htype, if_neg (by tauto)]
    rfl

-- What report_reply() does after its entry, up to the point where it prints.
def report_line (ip icmp_bytes : Nat) (seq : UInt16) (rtt : ℚ) : Ping N (Option Line) :=
  if ctx.flags.quiet then pure none
  else if ctx.flags.flood then pure (some .flood_recv)
  else do
    let src ← load (ip + IpHdr.ip_src) 4
    let ttl ← load_uint8 (ip + IpHdr.ip_ttl)
    pure (some (.reply icmp_bytes src seq ttl rtt))

theorem report_reply_eq (ip icmp_bytes : Nat) (seq : UInt16) (rtt : ℚ) :
    (report_reply ctx ip icmp_bytes seq rtt : Ping N Unit) =
      entered (.report_reply icmp_bytes seq rtt) >>= fun _ =>
        report_line ctx ip icmp_bytes seq rtt >>= print_option := by
  unfold report_reply report_line
  congr 1
  funext _
  split_ifs
  · rfl
  · rfl
  · simp only [Prog.bind_eq, Prog.bind_assoc]
    rfl

theorem within_report_line (d : Datagram) (h : d.complete = true) (rtt : ℚ) :
    within d.length (report_line ctx 0 (d.length - d.ihl) (d.sequence host) rtt :
      Ping N (Option Line)) d = some (reply_line host ctx.flags d rtt, d) := by
  obtain ⟨hip, -, -⟩ := (complete_iff d).mp h
  simp only [IpHdr.size] at hip
  unfold report_line reply_line
  split_ifs
  · rfl
  · rfl
  · rw [within_then (within_load _ _ d (by simp only [IpHdr.ip_src]; omega)),
      within_then (within_load_uint8 d (by simp only [IpHdr.ip_ttl]; omega)), Datagram.message,
      List.length_drop, Nat.zero_add, Nat.zero_add]
    rfl

end Lines

end FtPing
