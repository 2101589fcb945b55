import FtPing.CLib.HexText
import FtPing.Cli.ParsePattern

namespace FtPing

open Bytes CLib

section Grammar

theorem is_valid_hex_iff {s : CString} :
    is_valid_hex s = true ↔ s.length % 2 = 0 ∧ 2 ≤ s.length ∧ s.length ≤ 2 * PING_PATTERN_MAX ∧
      ∀ c ∈ s, isxdigit c = true := by
  unfold is_valid_hex
  split_ifs with hlength
  · constructor
    · intro h
      cases h
    · rintro ⟨heven, hlow, hhigh, -⟩
      omega
  · rw [List.all_eq_true]
    constructor
    · intro hall
      exact ⟨by omega, by omega, by omega, hall⟩
    · rintro ⟨-, -, -, hall⟩
      exact hall

end Grammar

section Arrays

def NUL : Char := '\x00'

-- The loops over the arrays themselves: `text` holds a string together with its NUL, and `out`
-- is the array it is decoded into. An access outside of them, and rounds that run out before
-- a loop has ended, leave no result.
def load_char (text : List Char) (i : Nat) : Option Char := text[i]?

def store_byte (out : Buffer PING_PATTERN_MAX) (i : Nat) (byte : UInt8) :
    Option (Buffer PING_PATTERN_MAX) :=
  if i < PING_PATTERN_MAX then some (out.store i [byte]) else none

def strlen_at : Nat → Nat → List Char → Option Nat
  | 0, _, _ => none
  | rounds + 1, i, text =>
      (load_char text i).bind fun c =>
        if c = NUL then some i else strlen_at rounds (i + 1) text

def xdigits_at : Nat → Nat → Nat → List Char → Option Bool
  | 0, _, _, _ => none
  | rounds + 1, i, len, text =>
      if i < len then
        (load_char text i).bind fun c =>
          if ¬ isxdigit c then some false else xdigits_at rounds (i + 1) len text
      else some true

def is_valid_hex_at (text : List Char) (len : Nat) : Option Bool :=
  if len = 0 ∨ len % 2 ≠ 0 ∨ len > PING_PATTERN_MAX * 2 then some false
  else xdigits_at text.length 0 len text

-- `i` counts digits.
def decode_digits_at :
    Nat → Nat → Nat → List Char → Buffer PING_PATTERN_MAX → Option (Buffer PING_PATTERN_MAX)
  | 0, _, _, _, _ => none
  | rounds + 1, i, len, text, out =>
      if i < len then
        (load_char text i).bind fun high =>
          (load_char text (i + 1)).bind fun low =>
            (store_byte out (i / 2) (UInt8.ofNat (strtol16 [high, low]).toNat)).bind
              (decode_digits_at rounds (i + 2) len text)
      else some out

def decode_pattern_at (text : List Char) (out : Buffer PING_PATTERN_MAX) (out_len : Nat) :
    Option (Bool × Buffer PING_PATTERN_MAX × Nat) :=
  (strlen_at text.length 0 text).bind fun len =>
    (is_valid_hex_at text len).bind fun valid =>
      if ¬ valid then some (false, out, out_len)
      else (decode_digits_at text.length 0 len text out).map fun out => (true, out, len / 2)

variable {text : List Char} {rounds i : Nat}

theorem load_char_eq {c : Char} {rest : List Char} (h : text.drop i = c :: rest) :
    load_char text i = some c ∧ text.drop (i + 1) = rest := by
  constructor
  · rw [load_char, ← List.head?_drop, h, List.head?_cons]
  · rw [← List.drop_drop, h, List.drop_one, List.tail_cons]

-- The inductions are on what is left of the string; the NUL behind it is what strlen() stops
-- at and what the other loops never reach.
theorem strlen_at_eq {s : CString} (hdrop : text.drop i = s ++ [NUL]) (hnul : NUL ∉ s)
    (hrounds : s.length < rounds) : strlen_at rounds i text = some (i + s.length) := by
  induction s generalizing i rounds with
  | nil =>
      cases rounds with
      | zero => cases hrounds
      | succ rounds =>
          rw [strlen_at, (load_char_eq hdrop).1, Option.bind_some, if_pos rfl]
          rfl
  | cons c rest ih =>
      cases rounds with
      | zero => cases hrounds
      | succ rounds =>
          rw [List.mem_cons, not_or] at hnul
          obtain ⟨hc, hnul⟩ := hnul
          obtain ⟨hload, hdrop⟩ := load_char_eq hdrop
          have hrest := ih hdrop hnul (Nat.lt_of_succ_lt_succ hrounds)
          rw [strlen_at, hload, Option.bind_some, if_neg (Ne.symm hc), hrest,
            List.length_cons]
          congr 1
          omega

theorem xdigits_at_eq {s : CString} (hdrop : text.drop i = s ++ [NUL])
    (hrounds : s.length < rounds) :
    xdigits_at rounds i (i + s.length) text = some (s.all isxdigit) := by
  induction s generalizing i rounds with
  | nil =>
      cases rounds with
      | zero => cases hrounds
      | succ rounds =>
          rw [xdigits_at, if_neg (by simp)]
          rfl
  | cons c rest ih =>
      cases rounds with
      | zero => cases hrounds
      | succ rounds =>
          obtain ⟨hload, hdrop⟩ := load_char_eq hdrop
          have hrest := ih hdrop (Nat.lt_of_succ_lt_succ hrounds)
          rw [xdigits_at, if_pos (by simp), hload, Option.bind_some,
            List.length_cons, List.all_cons]
          by_cases hc : isxdigit c = true
          · rw [if_neg (not_not.mpr hc), hc, Bool.true_and, ← hrest]
            congr 1
            omega
          · rw [if_pos hc]
            simp [hc]

-- Two digits a round: the reads at `i` and `i + 1` and the write at `i / 2` keep to the arrays
-- because the string is of even length and the array has room for half of it.
theorem decode_digits_at_eq {s : CString} {k : Nat} {out : Buffer PING_PATTERN_MAX}
    (hdrop : text.drop (2 * k) = s ++ [NUL]) (heven : s.length % 2 = 0)
    (hfit : k + s.length / 2 ≤ PING_PATTERN_MAX) (hrounds : s.length < rounds) :
    decode_digits_at rounds (2 * k) (2 * k + s.length) text out =
      some (decode_digits s k out) := by
  induction s using List.twoStepInduction generalizing k rounds out with
  | nil =>
      cases rounds with
      | zero => cases hrounds
      | succ rounds =>
          rw [decode_digits_at, if_neg (by simp)]
          rfl
  | singleton c => cases heven
  | cons_cons high low rest ih _ =>
      cases rounds with
      | zero => cases hrounds
      | succ rounds =>
          obtain ⟨hhigh, hdrop⟩ := load_char_eq hdrop
          obtain ⟨hlow, hdrop⟩ := load_char_eq hdrop
          simp only [List.length_cons] at heven hfit hrounds ⊢
          have hroom : k < PING_PATTERN_MAX := by omega
          have hrest : ∀ out, decode_digits_at rounds (2 * (k + 1)) (2 * (k + 1) + rest.length)
              text out = some (decode_digits rest (k + 1) out) := fun out =>
            ih hdrop (by omega) (by omega) (by omega)
          have hhalf : 2 * k / 2 = k := by omega
          have hnext : 2 * k + 2 = 2 * (k + 1) := by omega
          have hlen : 2 * k + (rest.length + 1 + 1) = 2 * (k + 1) + rest.length := by omega
          rw [decode_digits_at, if_pos (by omega), hhigh, Option.bind_some, hlow,
            Option.bind_some, store_byte, hhalf, if_pos hroom, Option.bind_some, hnext, hlen,
            hrest]
          rfl

theorem is_valid_hex_at_eq {s : CString} :
    is_valid_hex_at (s ++ [NUL]) s.length = some (is_valid_hex s) := by
  have hall : xdigits_at (s ++ [NUL]).length 0 (0 + s.length) (s ++ [NUL]) =
      some (s.all isxdigit) := xdigits_at_eq List.drop_zero (by simp)
  rw [Nat.zero_add] at hall
  rw [is_valid_hex_at, is_valid_hex, hall]
  split_ifs
  · rfl
  · rfl

-- No access leaves the arrays, no loop runs on, and the outcome is that of decode_pattern().
theorem decode_pattern_at_eq {s : CString} (hnul : NUL ∉ s) (out : Buffer PING_PATTERN_MAX)
    (out_len : Nat) :
    decode_pattern_at (s ++ [NUL]) out out_len = some (decode_pattern s out out_len) := by
  have hlen : strlen_at (s ++ [NUL]).length 0 (s ++ [NUL]) = some (0 + s.length) :=
    strlen_at_eq List.drop_zero hnul (by simp)
  rw [Nat.zero_add] at hlen
  rw [decode_pattern_at, hlen, Option.bind_some, is_valid_hex_at_eq, Option.bind_some,
    decode_pattern]
  by_cases hvalid : is_valid_hex s = true
  · obtain ⟨heven, -, hhigh, -⟩ := is_valid_hex_iff.mp hvalid
    have hdigits : decode_digits_at (s ++ [NUL]).length (2 * 0) (2 * 0 + s.length)
        (s ++ [NUL]) out = some (decode_digits s 0 out) :=
      decode_digits_at_eq List.drop_zero heven (by omega) (by simp)
    rw [Nat.mul_zero, Nat.zero_add] at hdigits
    rw [if_neg (not_not.mpr hvalid), if_neg (not_not.mpr hvalid), hdigits, Option.map_some]
  · rw [if_pos hvalid, if_pos hvalid]

end Arrays

section Hex

variable (upper : Nat → Bool) (bytes : List UInt8) (out : Buffer PING_PATTERN_MAX)

theorem decode_digits_hexText (i : Nat) (hfit : i + bytes.length ≤ PING_PATTERN_MAX) :
    decode_digits (hexText upper bytes) i out = out.store i bytes := by
  induction bytes generalizing upper i out with
  | nil => exact Buffer.ext (overwrite_nil out.bytes i).symm
  | cons byte rest ih =>
      rw [List.length_cons] at hfit
      have happend : overwrite (overwrite out.bytes i [byte]) (i + 1) rest =
          overwrite out.bytes i (byte :: rest) :=
        overwrite_append out.bytes i [byte] rest (by
          rw [out.length_bytes, List.length_singleton]
          omega)
      rw [hexText, decode_digits, strtol16_byte, ih _ _ _ (by omega), Int.toNat_natCast,
        UInt8.ofNat_toNat]
      exact Buffer.ext happend

theorem is_valid_hex_hexText (hlow : 1 ≤ bytes.length) (hhigh : bytes.length ≤ PING_PATTERN_MAX) :
    is_valid_hex (hexText upper bytes) = true := by
  have hlength := length_hexText upper bytes
  rw [is_valid_hex_iff]
  exact ⟨by omega, by omega, by omega, fun c => isxdigit_of_mem_hexText upper bytes⟩

theorem decode_pattern_hexText (out_len : Nat) (hlow : 1 ≤ bytes.length)
    (hhigh : bytes.length ≤ PING_PATTERN_MAX) :
    decode_pattern (hexText upper bytes) out out_len = (true, out.store 0 bytes, bytes.length) := by
  have hvalid := is_valid_hex_hexText upper bytes hlow hhigh
  have hlength : (hexText upper bytes).length / 2 = bytes.length := by
    rw [length_hexText]
    omega
  rw [decode_pattern, if_neg (not_not.mpr hvalid), hlength,
    decode_digits_hexText upper bytes out 0 (by omega)]

-- What is accepted spells the bytes that come out.
theorem hexText_of_decode_pattern {s : CString} {out' : Buffer PING_PATTERN_MAX}
    {out_len len : Nat} (h : decode_pattern s out out_len = (true, out', len)) :
    1 ≤ len ∧ len ≤ PING_PATTERN_MAX ∧
      ∃ upper bytes, s = hexText upper bytes ∧ bytes.length = len ∧ out' = out.store 0 bytes := by
  have hvalid : is_valid_hex s = true := by
    by_contra hvalid
    rw [decode_pattern, if_pos hvalid] at h
    cases h
  obtain ⟨heven, hlow, hhigh, hdigits⟩ := is_valid_hex_iff.mp hvalid
  obtain ⟨upper, bytes, rfl⟩ := exists_hexText s heven hdigits
  rw [length_hexText] at hlow hhigh
  have hlow : 1 ≤ bytes.length := by omega
  have hhigh : bytes.length ≤ PING_PATTERN_MAX := by omega
  rw [decode_pattern_hexText upper bytes out out_len hlow hhigh] at h
  cases h
  exact ⟨hlow, hhigh, upper, bytes, rfl, rfl, rfl⟩

theorem store_bytes (hfit : bytes.length ≤ PING_PATTERN_MAX) :
    (out.store 0 bytes).bytes = bytes ++ out.bytes.drop bytes.length := by
  have hoverwrite := overwrite_eq out.bytes 0 bytes (by rw [out.length_bytes]; omega)
  rwa [List.take_zero, List.nil_append, Nat.zero_add] at hoverwrite

end Hex

section Pattern

variable (s : CString) (out : Buffer PING_PATTERN_MAX) (out_len : Nat)

theorem decode_pattern_accepts :
    (decode_pattern s out out_len).1 = true ↔
      s.length % 2 = 0 ∧ 2 ≤ s.length ∧ s.length ≤ 32 ∧
        ∀ c ∈ s, ∃ upper, c ∈ hexDigits upper := by
  have haccept : (decode_pattern s out out_len).1 = is_valid_hex s := by
    rw [decode_pattern]
    cases is_valid_hex s with
    | true => rfl
    | false => rfl
  rw [haccept, is_valid_hex_iff]
  simp only [isxdigit_iff]
  rfl

theorem decode_pattern_rejected (h : (decode_pattern s out out_len).1 = false) :
    decode_pattern s out out_len = (false, out, out_len) := by
  rw [decode_pattern] at h ⊢
  split_ifs at h ⊢ with hvalid
  · rfl

-- An even number of hex digits up to thirty-two is accepted and nothing else, in whatever case;
-- the bytes that it spells come to stand at the front of the array, a refusal leaves all as it
-- was, and the loops keep to the string with its NUL and to the sixteen bytes.
theorem hex_pattern_is_decoded :
    ((decode_pattern s out out_len).1 = true ↔
      s.length % 2 = 0 ∧ 2 ≤ s.length ∧ s.length ≤ 32 ∧
        ∀ c ∈ s, ∃ upper, c ∈ hexDigits upper) ∧
    (∀ (upper : Nat → Bool) (b : List UInt8), 1 ≤ b.length → b.length ≤ 16 →
      ∃ out', decode_pattern (hexText upper b) out out_len = (true, out', b.length) ∧
        out'.bytes = b ++ out.bytes.drop b.length) ∧
    ((decode_pattern s out out_len).1 = false →
      decode_pattern s out out_len = (false, out, out_len)) ∧
    (NUL ∉ s →
      decode_pattern_at (s ++ [NUL]) out out_len = some (decode_pattern s out out_len)) := by
  refine ⟨decode_pattern_accepts s out out_len, ?_, decode_pattern_rejected s out out_len,
    fun hnul => decode_pattern_at_eq hnul out out_len⟩
  intro upper b hlow hhigh
  exact ⟨_, decode_pattern_hexText upper b out out_len hlow hhigh, store_bytes b out hhigh⟩

theorem hex_pattern_is_decoded_mixed :
    (∃ out', decode_pattern ['D', 'e', 'A', 'd'] (.zeroed PING_PATTERN_MAX) 0 = (true, out', 2) ∧
      out'.bytes = [0xde, 0xad] ++ List.replicate 14 0) ∧
    decode_pattern ['D', 'e', 'A'] (.zeroed PING_PATTERN_MAX) 0 =
      (false, .zeroed PING_PATTERN_MAX, 0) ∧
    decode_pattern_at ['D', 'e', 'A', NUL] (.zeroed PING_PATTERN_MAX) 0 =
      some (decode_pattern ['D', 'e', 'A'] (.zeroed PING_PATTERN_MAX) 0) := by
  obtain ⟨-, hdecoded, hrejected, hinside⟩ :=
    hex_pattern_is_decoded ['D', 'e', 'A'] (.zeroed PING_PATTERN_MAX) 0
  exact ⟨hdecoded (fun place => place % 2 = 0) [0xde, 0xad] (by decide) (by decide),
    hrejected (by decide), hinside (by decide)⟩

end Pattern

end FtPing
