import Mathlib.Data.List.Induction
import Mathlib.Data.List.TakeWhile
import Mathlib.Data.Nat.Digits.Defs

namespace CLib

-- A C string without its terminating NUL.
abbrev CString := List Char

-- What strtol() and strtod() report: the value, what `*endptr` points at, and whether errno
-- was set to ERANGE. Where nothing was converted, `rest` is the whole string.
structure Conversion (α : Type) where
  value : α
  rest : CString
  erange : Bool
  deriving DecidableEq

def isspace (c : Char) : Bool :=
  c = ' ' || (9 ≤ c.toNat && c.toNat ≤ 13)

def isdigit (c : Char) : Bool :=
  48 ≤ c.toNat && c.toNat ≤ 57

def isxdigit (c : Char) : Bool :=
  isdigit c || (65 ≤ c.toNat && c.toNat ≤ 70) || (97 ≤ c.toNat && c.toNat ≤ 102)

-- The value of a digit in bases up to sixteen.
def digitValue (c : Char) : Nat :=
  if isdigit c then c.toNat - 48
  else if 97 ≤ c.toNat then c.toNat - 87
  else c.toNat - 55

def readSign : CString → Bool × CString
  | '-' :: rest => (true, rest)
  | '+' :: rest => (false, rest)
  | s => (false, s)

def positional (base : Nat) (digits : CString) : Nat :=
  digits.foldl (fun value c => base * value + digitValue c) 0

def signed (negative : Bool) (magnitude : Nat) : Int :=
  if negative then -(magnitude : Int) else magnitude

def LONG_MAX : Int := 9223372036854775807

def LONG_MIN : Int := -9223372036854775808

-- strtol() with a 64-bit long, in base ten.
def strtol (s : CString) : Conversion Int :=
  let (negative, body) := readSign (s.dropWhile isspace)
  let digits := body.takeWhile isdigit
  let value := signed negative (positional 10 digits)
  if digits = [] then ⟨0, s, false⟩
  else if LONG_MAX < value then ⟨LONG_MAX, body.dropWhile isdigit, true⟩
  else if value < LONG_MIN then ⟨LONG_MIN, body.dropWhile isdigit, true⟩
  else ⟨value, body.dropWhile isdigit, false⟩

-- strtol() in base sixteen, of text that consists of hexadecimal digits.
def strtol16 (s : CString) : Int := positional 16 s

-- The integer that a decimal numeral denotes, in positional notation: white space, a sign
-- and at least one digit, with nothing after them.
inductive Denotes : CString → Int → Prop
  | intro (space sign digits : CString) (negative : Bool)
      (hspace : ∀ c ∈ space, isspace c)
      (hsign : sign = ['-'] ∧ negative = true ∨ (sign = ['+'] ∨ sign = []) ∧ negative = false)
      (hne : digits ≠ []) (hdigits : ∀ c ∈ digits, isdigit c) :
      Denotes (space ++ sign ++ digits)
        (signed negative (Nat.ofDigits 10 (digits.reverse.map digitValue)))

theorem positional_eq_ofDigits (base : Nat) (digits : CString) :
    positional base digits = Nat.ofDigits base (digits.reverse.map digitValue) := by
  unfold positional
  induction digits using List.reverseRecOn with
  | nil => rfl
  | append_singleton digits c ih =>
      rw [List.foldl_append, ih]
      simp only [List.foldl_cons, List.foldl_nil, List.reverse_append, List.reverse_singleton,
        List.singleton_append, List.map_cons, Nat.ofDigits_cons]
      omega

theorem readSign_spec (s : CString) :
    ∃ sign, s = sign ++ (readSign s).2 ∧
      (sign = ['-'] ∧ (readSign s).1 = true ∨
        (sign = ['+'] ∨ sign = []) ∧ (readSign s).1 = false) := by
  unfold readSign
  split
  · exact ⟨['-'], rfl, Or.inl ⟨rfl, rfl⟩⟩
  · exact ⟨['+'], rfl, Or.inr ⟨Or.inl rfl, rfl⟩⟩
  · exact ⟨[], rfl, Or.inr ⟨Or.inr rfl, rfl⟩⟩

-- What strtol() converts completely, and without overflow, is the number denoted.
theorem strtol_denotes (s : CString) (hne : (strtol s).rest ≠ s) (hrest : (strtol s).rest = [])
    (herange : (strtol s).erange = false) : Denotes s (strtol s).value := by
  obtain ⟨sign, hsplit, hsign⟩ := readSign_spec (s.dropWhile isspace)
  have hs : s = s.takeWhile isspace ++ sign ++ (readSign (s.dropWhile isspace)).2 := by
    rw [List.append_assoc, ← hsplit, List.takeWhile_append_dropWhile]
  unfold strtol at hne hrest herange ⊢
  generalize readSign (s.dropWhile isspace) = parsed at hne hrest herange hs hsign ⊢
  obtain ⟨negative, body⟩ := parsed
  simp only at hne hrest herange hs hsign ⊢
  split at hne
  · exact absurd rfl hne
  rename_i hdigits
  simp only [hdigits, ite_false] at hrest herange ⊢
  split_ifs at hrest herange ⊢ with hmax hmin
  have hbody : body = body.takeWhile isdigit := by
    have h := List.takeWhile_append_dropWhile (p := isdigit) (l := body)
    rw [show body.dropWhile isdigit = [] from hrest, List.append_nil] at h
    exact h.symm
  have hall : ∀ c ∈ body.takeWhile isdigit, isdigit c := fun c hc =>
    List.all_eq_true.mp (List.all_takeWhile (p := isdigit) (l := body)) c hc
  have hspace : ∀ c ∈ s.takeWhile isspace, isspace c := fun c hc =>
    List.all_eq_true.mp (List.all_takeWhile (p := isspace) (l := s)) c hc
  rw [positional_eq_ofDigits]
  have h := Denotes.intro (s.takeWhile isspace) sign (body.takeWhile isdigit) negative hspace
    hsign hdigits hall
  rwa [← hbody, ← hs, hbody] at h

theorem readSign_numeral {sign digits : CString} {negative : Bool}
    (hsign : sign = ['-'] ∧ negative = true ∨ (sign = ['+'] ∨ sign = []) ∧ negative = false)
    (hne : digits ≠ []) (hdigits : ∀ c ∈ digits, isdigit c) :
    readSign (sign ++ digits) = (negative, digits) := by
  obtain ⟨first, rest, rfl⟩ := List.exists_cons_of_ne_nil hne
  have hfirst : isdigit first = true := hdigits first (by simp)
  rcases hsign with ⟨rfl, rfl⟩ | ⟨rfl | rfl, rfl⟩
  · rfl
  · rfl
  · have hminus : first ≠ '-' := by
      rintro rfl
      simp [isdigit] at hfirst
    have hplus : first ≠ '+' := by
      rintro rfl
      simp [isdigit] at hfirst
    simp [readSign, hminus, hplus]

theorem isspace_of_isdigit {c : Char} (h : isdigit c = true) : isspace c = false := by
  have hspace : c ≠ ' ' := by
    rintro rfl
    simp [isdigit] at h
  simp only [isdigit, Bool.and_eq_true, decide_eq_true_eq] at h
  simp only [isspace, hspace, decide_false, Bool.false_or, Bool.and_eq_false_iff,
    decide_eq_false_iff_not]
  omega

theorem dropWhile_numeral {space sign digits : CString} {negative : Bool}
    (hspace : ∀ c ∈ space, isspace c)
    (hsign : sign = ['-'] ∧ negative = true ∨ (sign = ['+'] ∨ sign = []) ∧ negative = false)
    (hne : digits ≠ []) (hdigits : ∀ c ∈ digits, isdigit c) :
    (space ++ sign ++ digits).dropWhile isspace = sign ++ digits := by
  rw [List.append_assoc, List.dropWhile_append_of_pos hspace]
  obtain ⟨first, rest, rfl⟩ := List.exists_cons_of_ne_nil hne
  have hfirst := isspace_of_isdigit (hdigits first (by simp))
  rcases hsign with ⟨rfl, rfl⟩ | ⟨rfl | rfl, rfl⟩
  · rfl
  · rfl
  · simp [hfirst]

-- A numeral denotes one number: the one its sign and digits say.
theorem Denotes.value_eq {s : CString} {v : Int} (h : Denotes s v) :
    v = signed (readSign (s.dropWhile isspace)).1
      (positional 10 (readSign (s.dropWhile isspace)).2) := by
  cases h with
  | intro space sign digits negative hspace hsign hne hdigits =>
      rw [dropWhile_numeral hspace hsign hne hdigits, readSign_numeral hsign hne hdigits,
        positional_eq_ofDigits]

-- strtol() converts every numeral completely, if a long can hold its number.
theorem strtol_of_denotes {s : CString} {v : Int} (h : Denotes s v) (hmin : LONG_MIN ≤ v)
    (hmax : v ≤ LONG_MAX) :
    (strtol s).rest ≠ s ∧ (strtol s).rest = [] ∧ (strtol s).erange = false ∧
      (strtol s).value = v := by
  have hvalue := h.value_eq
  cases h with
  | intro space sign digits negative hspace hsign hne hdigits =>
      have hbody := dropWhile_numeral hspace hsign hne hdigits
      have hread := readSign_numeral hsign hne hdigits
      have htake : digits.takeWhile isdigit = digits := List.takeWhile_eq_self_iff.mpr hdigits
      have hdrop : digits.dropWhile isdigit = [] := List.dropWhile_eq_nil_iff.mpr hdigits
      rw [hbody, hread] at hvalue
      simp only at hvalue
      rw [hvalue] at hmin hmax ⊢
      have hfull : space ++ sign ++ digits ≠ [] := by simp [hne]
      unfold strtol
      simp only [hbody, hread, htake, hdrop, hne, ite_false, not_lt.mpr hmax, not_lt.mpr hmin]
      exact ⟨hfull.symm, trivial, trivial, trivial⟩

theorem Denotes.unique {s : CString} {v w : Int} (hv : Denotes s v) (hw : Denotes s w) : v = w :=
  hv.value_eq.trans hw.value_eq.symm

end CLib
