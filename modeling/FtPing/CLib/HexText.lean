import FtPing.CLib.Strtol
import Mathlib.Data.List.GetD

namespace CLib

-- The digits of the lower case and of the upper one, each of them at its value.
def hexDigits : Bool → List Char
  | false =>
      ['0', '1', '2', '3', '4', '5', '6', '7', '8', '9', 'a', 'b', 'c', 'd', 'e', 'f']
  | true =>
      ['0', '1', '2', '3', '4', '5', '6', '7', '8', '9', 'A', 'B', 'C', 'D', 'E', 'F']

def hexDigit (upper : Bool) (value : Nat) : Char := (hexDigits upper).getD value '0'

-- Two digits for each byte, the high half first. `upper` chooses the case of every digit by
-- its place in the text.
def hexText (upper : Nat → Bool) : List UInt8 → CString
  | [] => []
  | byte :: rest =>
      hexDigit (upper 0) (byte.toNat / 16) :: hexDigit (upper 1) (byte.toNat % 16) ::
        hexText (fun place => upper (place + 2)) rest

section Digits

theorem toNat_hexDigit : ∀ upper value, value < 16 → (hexDigit upper value).toNat =
    if value < 10 then 48 + value else if upper then 55 + value else 87 + value := by
  decide

theorem digitValue_hexDigit :
    ∀ upper value, value < 16 → digitValue (hexDigit upper value) = value := by
  decide

theorem isxdigit_hexDigit :
    ∀ upper value, value < 16 → isxdigit (hexDigit upper value) = true := by
  decide

variable {c : Char}

-- Every character that isxdigit() takes is a digit of one of the two cases.
theorem exists_hexDigit (h : isxdigit c = true) :
    digitValue c < 16 ∧ ∃ upper, c = hexDigit upper (digitValue c) := by
  simp only [isxdigit, isdigit, Bool.or_eq_true, Bool.and_eq_true, decide_eq_true_eq] at h
  have hvalue : digitValue c =
      if c.toNat ≤ 57 then c.toNat - 48 else if c.toNat ≤ 70 then c.toNat - 55
      else c.toNat - 87 := by
    simp only [digitValue, isdigit, Bool.and_eq_true, decide_eq_true_eq]
    split_ifs <;> omega
  have hlt : digitValue c < 16 := by
    rw [hvalue]
    split_ifs <;> omega
  refine ⟨hlt, decide (c.toNat ≤ 70), ?_⟩
  rw [← Char.toNat_inj, toNat_hexDigit _ _ hlt, hvalue]
  simp only [decide_eq_true_eq]
  split_ifs <;> omega

theorem length_hexDigits (upper : Bool) : (hexDigits upper).length = 16 := by
  cases upper with
  | false => rfl
  | true => rfl

theorem isxdigit_iff : isxdigit c = true ↔ ∃ upper, c ∈ hexDigits upper := by
  constructor
  · intro h
    obtain ⟨hlt, upper, hc⟩ := exists_hexDigit h
    rw [← length_hexDigits upper] at hlt
    refine ⟨upper, ?_⟩
    rw [hc, hexDigit, List.getD_eq_getElem _ _ hlt]
    exact List.getElem_mem hlt
  · rintro ⟨upper, hmem⟩
    obtain ⟨value, hlt, rfl⟩ := List.getElem_of_mem hmem
    have h := isxdigit_hexDigit upper value (by rwa [← length_hexDigits upper])
    rwa [hexDigit, List.getD_eq_getElem _ _ hlt] at h

end Digits

section Text

variable (upper : Nat → Bool) (bytes : List UInt8)

theorem length_hexText : (hexText upper bytes).length = 2 * bytes.length := by
  induction bytes generalizing upper with
  | nil => rfl
  | cons byte rest ih =>
      simp only [hexText, List.length_cons, ih]
      omega

theorem isxdigit_of_mem_hexText {c : Char} (h : c ∈ hexText upper bytes) :
    isxdigit c = true := by
  induction bytes generalizing upper with
  | nil => cases h
  | cons byte rest ih =>
      have hbyte := byte.toNat_lt
      simp only [hexText, List.mem_cons] at h
      rcases h with rfl | rfl | h
      · exact isxdigit_hexDigit _ _ (by omega)
      · exact isxdigit_hexDigit _ _ (by omega)
      · exact ih _ h

-- The number of two digits is the byte that they spell.
theorem strtol16_byte (high low : Bool) (byte : UInt8) :
    strtol16 [hexDigit high (byte.toNat / 16), hexDigit low (byte.toNat % 16)] =
      byte.toNat := by
  have hbyte := byte.toNat_lt
  simp only [strtol16, positional, List.foldl_cons, List.foldl_nil]
  rw [digitValue_hexDigit _ _ (by omega), digitValue_hexDigit _ _ (by omega)]
  omega

-- The cases of two digits and of those behind them.
def followedBy (high low : Bool) (upper : Nat → Bool) : Nat → Bool
  | 0 => high
  | 1 => low
  | place + 2 => upper place

theorem hexText_cons (high low : Bool) {p q : Nat} (hp : p < 16) (hq : q < 16) :
    hexText (followedBy high low upper) (UInt8.ofNat (16 * p + q) :: bytes) =
      hexDigit high p :: hexDigit low q :: hexText upper bytes := by
  have hbyte : (UInt8.ofNat (16 * p + q)).toNat = 16 * p + q :=
    UInt8.toNat_ofNat_of_lt' (show _ < 256 by omega)
  have hhalf : (16 * p + q) / 16 = p := by omega
  have hrest : (16 * p + q) % 16 = q := by omega
  rw [hexText, hbyte, hhalf, hrest]
  rfl

-- Digits in an even number spell bytes.
theorem exists_hexText (text : CString) (heven : text.length % 2 = 0)
    (hdigits : ∀ c ∈ text, isxdigit c = true) :
    ∃ upper bytes, text = hexText upper bytes := by
  induction text using List.twoStepInduction with
  | nil => exact ⟨fun _ => false, [], rfl⟩
  | singleton c => cases heven
  | cons_cons high low rest ih _ =>
      simp only [List.length_cons] at heven
      simp only [List.forall_mem_cons] at hdigits
      obtain ⟨hhigh, hlow, hrest⟩ := hdigits
      obtain ⟨upper, bytes, rfl⟩ := ih (by omega) hrest
      obtain ⟨hp, upper_high, hh⟩ := exists_hexDigit hhigh
      obtain ⟨hq, upper_low, hl⟩ := exists_hexDigit hlow
      refine ⟨followedBy upper_high upper_low upper,
        UInt8.ofNat (16 * digitValue high + digitValue low) :: bytes, ?_⟩
      rw [hexText_cons upper bytes upper_high upper_low hp hq, ← hh, ← hl]

end Text

end CLib
