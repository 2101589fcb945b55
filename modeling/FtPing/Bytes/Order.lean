import Mathlib.Data.Nat.Basic

namespace Bytes

-- The byte order of the machine that loads and stores multi-byte integers.
inductive Endian
  | little
  | big
  deriving DecidableEq, Repr

variable (host : Endian)

def load16 (first second : UInt8) : UInt16 :=
  match host with
  | .little => UInt16.ofNat (first.toNat + 256 * second.toNat)
  | .big => UInt16.ofNat (256 * first.toNat + second.toNat)

def store16 (word : UInt16) : List UInt8 :=
  match host with
  | .little => [UInt8.ofNat (word.toNat % 256), UInt8.ofNat (word.toNat / 256)]
  | .big => [UInt8.ofNat (word.toNat / 256), UInt8.ofNat (word.toNat % 256)]

-- The two bytes of a word the other way round.
def swap16 (word : UInt16) : UInt16 :=
  UInt16.ofNat (256 * (word.toNat % 256) + word.toNat / 256)

def htons (word : UInt16) : UInt16 :=
  match host with
  | .little => swap16 word
  | .big => word

def ntohs (word : UInt16) : UInt16 := htons host word

-- The little-endian bytes of an integer, low byte first, as many as asked for.
def lowBytes (value : Int) : Nat → List UInt8
  | 0 => []
  | count + 1 => UInt8.ofNat (value % 256).toNat :: lowBytes (value / 256) count

def store64 (value : Int) : List UInt8 :=
  match host with
  | .little => lowBytes value 8
  | .big => (lowBytes value 8).reverse

theorem load16_toNat (first second : UInt8) :
    (load16 host first second).toNat =
      match host with
      | .little => first.toNat + 256 * second.toNat
      | .big => 256 * first.toNat + second.toNat := by
  have hf := first.toNat_lt
  have hs := second.toNat_lt
  cases host <;> simp only [load16, UInt16.toNat_ofNat'] <;> omega

@[simp] theorem store16_length (word : UInt16) : (store16 host word).length = 2 := by
  cases host <;> rfl

-- Storing what was loaded puts the two bytes back.
theorem store16_load16 (first second : UInt8) :
    store16 host (load16 host first second) = [first, second] := by
  have hf := first.toNat_lt
  have hs := second.toNat_lt
  cases host <;>
    simp only [store16, load16_toNat, List.cons.injEq, and_true] <;>
    exact ⟨UInt8.toNat_inj.mp (by simp only [UInt8.toNat_ofNat']; omega),
      UInt8.toNat_inj.mp (by simp only [UInt8.toNat_ofNat']; omega)⟩

-- Loading what was stored gives the word back.
theorem load16_store16 (word : UInt16) :
    ∃ first second, store16 host word = [first, second] ∧ load16 host first second = word := by
  have hw := word.toNat_lt
  cases host with
  | little =>
      refine ⟨_, _, rfl, UInt16.toNat_inj.mp ?_⟩
      simp only [load16_toNat, UInt8.toNat_ofNat']
      omega
  | big =>
      refine ⟨_, _, rfl, UInt16.toNat_inj.mp ?_⟩
      simp only [load16_toNat, UInt8.toNat_ofNat']
      omega

theorem swap16_toNat (word : UInt16) :
    (swap16 word).toNat = 256 * (word.toNat % 256) + word.toNat / 256 := by
  have hw := word.toNat_lt
  rw [swap16, UInt16.toNat_ofNat', Nat.mod_eq_of_lt (by omega)]

theorem swap16_swap16 (word : UInt16) : swap16 (swap16 word) = word := by
  have hw := word.toNat_lt
  have hlow : (256 * (word.toNat % 256) + word.toNat / 256) % 256 = word.toNat / 256 := by omega
  have hhigh : (256 * (word.toNat % 256) + word.toNat / 256) / 256 = word.toNat % 256 := by omega
  apply UInt16.toNat_inj.mp
  rw [swap16_toNat, swap16_toNat, hlow, hhigh]
  omega

theorem store16_swap16 (word : UInt16) : store16 .big (swap16 word) = store16 .little word := by
  have hw := word.toNat_lt
  have hlow : (256 * (word.toNat % 256) + word.toNat / 256) % 256 = word.toNat / 256 := by omega
  have hhigh : (256 * (word.toNat % 256) + word.toNat / 256) / 256 = word.toNat % 256 := by omega
  simp only [store16, swap16_toNat, hlow, hhigh]

-- What htons() makes of a word lies in memory with its high byte first.
theorem store16_htons (word : UInt16) : store16 host (htons host word) = store16 .big word := by
  cases host with
  | little => rw [htons, ← store16_swap16, swap16_swap16]
  | big => rfl

@[simp] theorem lowBytes_length (value : Int) (count : Nat) :
    (lowBytes value count).length = count := by
  induction count generalizing value with
  | zero => rfl
  | succ count ih => rw [lowBytes, List.length_cons, ih]

@[simp] theorem store64_length (value : Int) : (store64 host value).length = 8 := by
  cases host <;> simp [store64]

@[simp] theorem ntohs_htons (word : UInt16) : ntohs host (htons host word) = word := by
  cases host
  · exact swap16_swap16 word
  · rfl

-- In network order the first byte is the high one, on either host.
theorem ntohs_load16_toNat (first second : UInt8) :
    (ntohs host (load16 host first second)).toNat = 256 * first.toNat + second.toNat := by
  have hf := first.toNat_lt
  have hs := second.toNat_lt
  cases host with
  | little =>
      simp only [ntohs, htons, swap16_toNat, load16_toNat]
      omega
  | big => simp only [ntohs, htons, load16_toNat]

theorem load16_zero : load16 host 0 0 = 0 := by
  cases host <;> rfl

theorem store16_zero : store16 host 0 = [0, 0] := by
  cases host <;> rfl

theorem load16_add (first second : UInt8) :
    (load16 host first second).toNat =
      (load16 host first 0).toNat + (load16 host 0 second).toNat := by
  cases host <;> simp only [load16_toNat, UInt8.toNat_zero] <;> omega

end Bytes
