import FtPing.Net.Drain

namespace FtPing

open Bytes Interaction

variable (host : Endian)

-- What has been printed, the latest line first.
def lines (log : List Entry) : List Line :=
  log.filterMap fun entry =>
    match entry.event with
    | .printed line => some line
    | _ => none

-- The line that ping_receive() prints for the datagram `d`, received at `now`.
def response (ctx : Ctx) (d : Datagram) (now : Nat) : Option Line :=
  match verdict host ctx.flags ctx.id d with
  | .ignored => none
  | .fault line => some line
  | .reply _ _ =>
      reply_line host ctx.flags d
        (elapsed_ms (ctx.send_ts (slot (d.sequence host))) (timespec now))

theorem lines_printed (s : State Unit) (line : Option Line) :
    lines (printed s line).log = line.toList ++ lines s.log := by
  cases line <;> rfl

theorem digest_lines (s : State Unit) (datagram : Datagram) (now : Nat) (clock : List Nat) :
    ∃ rest t, digest host (now :: clock) s datagram = some (rest, t) ∧
      lines t.log =
        (response host s.ctx (datagram.take s.ctx.recvbuf_len) now).toList ++ lines s.log := by
  unfold digest response
  cases hverdict : verdict host s.ctx.flags s.ctx.id (datagram.take s.ctx.recvbuf_len) with
  | ignored => exact ⟨now :: clock, delivered s datagram, by simp only [hverdict], rfl⟩
  | fault line =>
      exact ⟨now :: clock, (delivered s datagram).record (.printed line), by simp only [hverdict],
        rfl⟩
  | reply ihl seq =>
      exact ⟨clock, recorded host (delivered s datagram) (datagram.take s.ctx.recvbuf_len) now,
        by simp only [hverdict], lines_printed _ _⟩

-- The line for recvfrom() itself, at the end of the drain.
def complaint (errno : Errno) : Option Line :=
  if drained errno then none else some (.perror "recvfrom")

theorem ping_receive_lines (s : State Unit) (datagram : Datagram) (errno : Errno) (now : Nat)
    (clock : List Nat) (sends : List (Option Errno)) (polls : List (Bool × PollResult))
    (recvs : List (Except Errno Datagram)) (fuel : Nat) :
    ∃ rest t,
      exec (play false) (fuel + 2) (ping_receive host)
          (⟨now :: clock, sends, polls, .ok datagram :: .error errno :: recvs⟩, s) =
        some (if drained errno then 0 else -1, ⟨rest, sends, polls, recvs⟩, t) ∧
      lines t.log = (complaint errno).toList ++
        ((response host s.ctx (datagram.take s.ctx.recvbuf_len) now).toList ++ lines s.log) := by
  obtain ⟨rest, t, hdigest, hlines⟩ := digest_lines host s datagram now clock
  refine ⟨rest, refused t errno, ?_, ?_⟩
  · have h := exec_ping_receive host (fuel + 2) sends polls recvs [datagram] errno (now :: clock) s
      (by simp)
    rw [drain, hdigest] at h
    exact h
  · rw [refused, lines_printed, ← hlines]
    rfl

theorem response_of_mismatch {ctx : Ctx} {d : Datagram} (now : Nat) (hcomplete : d.complete = true)
    (hsum : checksum_matches host d.message = false) :
    response host ctx d now = some (.checksum_mismatch d.src) := by
  simp [response, verdict, hcomplete, hsum]

-- What is printed for a message that matches is a reply's line or an error's.
theorem response_of_match {ctx : Ctx} {d : Datagram} (now : Nat) (hcomplete : d.complete = true)
    (hsum : checksum_matches host d.message = true) :
    response host ctx d now =
      if d.type ≠ 0 ∨ d.code ≠ 0 then error_line host ctx.flags ctx.id d
      else if d.id host = ctx.id then
        reply_line host ctx.flags d
          (elapsed_ms (ctx.send_ts (slot (d.sequence host))) (timespec now))
      else none := by
  unfold response verdict
  rw [if_neg (by simp [hcomplete]), if_neg (by simp [hsum])]
  by_cases htype : d.type ≠ 0 ∨ d.code ≠ 0
  · rw [if_pos htype, if_pos htype]
    cases error_line host ctx.flags ctx.id d <;> rfl
  · rw [if_neg htype, if_neg htype]
    by_cases hid : d.id host = ctx.id
    · rw [if_neg (by simp [hid]), if_pos hid]
    · rw [if_pos hid, if_neg hid]

theorem error_line_eq_some {flags : Flags} {id : UInt16} {d : Datagram} {line : Line}
    (h : error_line host flags id d = some line) :
    line = .icmp_error d.src (d.quote.sequence host) d.type d.code := by
  unfold error_line at h
  split_ifs at h
  cases h
  rfl

theorem reply_line_eq_some {flags : Flags} {d : Datagram} {rtt : ℚ} {line : Line}
    (h : reply_line host flags d rtt = some line) :
    line = .flood_recv ∨ line = .reply d.message.length d.src (d.sequence host) d.ttl rtt := by
  unfold reply_line at h
  split_ifs at h
  · exact Or.inl (Option.some.inj h).symm
  · exact Or.inr (Option.some.inj h).symm

end FtPing
