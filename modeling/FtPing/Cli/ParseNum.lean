import FtPing.CLib.Strtod

namespace FtPing

open CLib

-- `convert` is strtol() or strtod(), as `type` says; the result is what `*num` is set to.
def test_strton {α : Type} (convert : CString → Conversion α) (str : CString) : Option α :=
  let conversion := convert str
  if conversion.rest = str ∨ conversion.rest ≠ [] ∨ conversion.erange then none
  else some conversion.value

-- A number that was read in full is the number that the text denotes.
theorem test_strton_denotes {s : CString} {v : Int} (h : test_strton strtol s = some v) :
    Denotes s v := by
  unfold test_strton at h
  dsimp only at h
  split_ifs at h with hbad
  cases h
  simp only [not_or, not_not, Bool.not_eq_true] at hbad
  exact strtol_denotes s hbad.1 hbad.2.1 hbad.2.2

-- And every number that a long can hold is read so.
theorem test_strton_of_denotes {s : CString} {v : Int} (h : Denotes s v) (hmin : LONG_MIN ≤ v)
    (hmax : v ≤ LONG_MAX) : test_strton strtol s = some v := by
  obtain ⟨hne, hrest, herange, hvalue⟩ := strtol_of_denotes h hmin hmax
  have hgood : ¬ ((strtol s).rest = s ∨ (strtol s).rest ≠ [] ∨ (strtol s).erange = true) := by
    rintro (h | h | h)
    · exact hne h
    · exact h hrest
    · exact Bool.false_ne_true (herange.symm.trans h)
  rw [test_strton, if_neg hgood, hvalue]

end FtPing
