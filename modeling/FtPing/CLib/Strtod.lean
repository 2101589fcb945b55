import FtPing.CLib.Strtol
import FtPing.Numeric.Double

namespace CLib

open Numeric

def tolower (c : Char) : Char :=
  if 65 ≤ c.toNat && c.toNat ≤ 90 then Char.ofNat (c.toNat + 32) else c

-- What follows `word` (in lower case) in the string, upper and lower case taken alike.
def stripWord : CString → CString → Option CString
  | [], s => some s
  | _ :: _, [] => none
  | w :: word, c :: s => if tolower c = w then stripWord word s else none

-- "nan" may be followed by letters, digits and underscores in brackets.
def stripPayload (s : CString) : CString :=
  match s with
  | '(' :: t =>
      match t.dropWhile fun c => c.isAlphanum || c = '_' with
      | ')' :: rest => rest
      | _ => s
  | _ => s

-- The digits before and after the point, and what follows them.
def readMantissa (isDigit : Char → Bool) (s : CString) : CString × CString × CString :=
  match s.dropWhile isDigit with
  | '.' :: t => (s.takeWhile isDigit, t.takeWhile isDigit, t.dropWhile isDigit)
  | rest => (s.takeWhile isDigit, [], rest)

-- An exponent needs at least one digit; otherwise its letter is not part of the number.
def readExponent (letter : Char) (s : CString) : Int × CString :=
  match s with
  | [] => (0, [])
  | c :: t =>
      let (negative, body) := readSign t
      let digits := body.takeWhile isdigit
      if tolower c = letter ∧ digits ≠ [] then
        (signed negative (positional 10 digits), body.dropWhile isdigit)
      else (0, s)

def readNumeral (base : Nat) (isDigit : Char → Bool) (letter : Char) (exponentBase : ℚ)
    (s : CString) : Option (ℚ × CString) :=
  let (whole, fraction, rest) := readMantissa isDigit s
  if whole = [] ∧ fraction = [] then none
  else
    let (exponent, rest) := readExponent letter rest
    some (positional base (whole ++ fraction) * exponentBase ^ exponent / base ^ fraction.length,
      rest)

def withSign (negative : Bool) (value : Double) : Double :=
  if negative then value.neg else value

-- From halfway past the largest finite double on a number overflows to infinity, and below
-- the least normal one it underflows; both set errno.
def toDouble (negative : Bool) (magnitude : ℚ) (rest : CString) : Conversion Double :=
  if 2 ^ 1024 - 2 ^ 970 ≤ magnitude then ⟨withSign negative .posInf, rest, true⟩
  else if 0 < magnitude ∧ magnitude < 1 / 2 ^ 1022 then
    ⟨withSign negative (.finite magnitude), rest, true⟩
  else ⟨withSign negative (.finite magnitude), rest, false⟩

def readDecimal (s : CString) (negative : Bool) (body : CString) : Conversion Double :=
  match readNumeral 10 isdigit 'e' 10 body with
  | some (magnitude, rest) => toDouble negative magnitude rest
  | none => ⟨.finite 0, s, false⟩

def readHexadecimal (body : CString) : Option (ℚ × CString) :=
  match body with
  | '0' :: c :: t => if tolower c = 'x' then readNumeral 16 isxdigit 'p' 2 t else none
  | _ => none

def strtod (s : CString) : Conversion Double :=
  let (negative, body) := readSign (s.dropWhile isspace)
  match stripWord ['i', 'n', 'f', 'i', 'n', 'i', 't', 'y'] body, stripWord ['i', 'n', 'f'] body,
      stripWord ['n', 'a', 'n'] body with
  | some rest, _, _ => ⟨withSign negative .posInf, rest, false⟩
  | none, some rest, _ => ⟨withSign negative .posInf, rest, false⟩
  | none, none, some rest => ⟨.nan, stripPayload rest, false⟩
  | none, none, none =>
      match readHexadecimal body with
      | some (magnitude, rest) => toDouble negative magnitude rest
      | none => readDecimal s negative body

example : strtod ['-', '2', '.', '5', 'e', '1', 'x'] = ⟨.finite (-25), ['x'], false⟩ := by
  decide +kernel

end CLib
