import Mathlib.Logic.Function.Basic
import Mathlib.Data.List.Basic

namespace History

variable {α β : Type}

-- A history has its latest item first; its items are numbered from the earliest on.
def nth (history : List α) (k : Nat) : Option α := history.reverse[k]?

theorem nth_cons (item : α) (history : List α) (k : Nat) :
    nth (item :: history) k = if k = history.length then some item else nth history k := by
  rw [nth, List.reverse_cons, List.getElem?_append, List.length_reverse]
  split_ifs with hlt heq heq
  · omega
  · rfl
  · rw [heq, Nat.sub_self]
    rfl
  · rw [nth, List.getElem?_eq_none (by simp only [List.length_singleton]; omega),
      List.getElem?_eq_none (by simp only [List.length_reverse]; omega)]

theorem nth_lt {history : List α} {k : Nat} {item : α} (h : nth history k = some item) :
    k < history.length := by
  have := (List.getElem?_eq_some_iff.mp h).1
  rwa [List.length_reverse] at this

theorem exists_nth {history : List α} {k : Nat} (h : k < history.length) :
    ∃ item, nth history k = some item :=
  ⟨_, List.getElem?_eq_getElem (by rwa [List.length_reverse])⟩

theorem nth_of_mem {history : List α} {item : α} (h : item ∈ history) :
    ∃ k, nth history k = some item :=
  List.mem_iff_getElem?.mp (List.mem_reverse.mpr h)

theorem nth_map (f : α → β) (history : List α) (k : Nat) :
    nth (history.map f) k = (nth history k).map f := by
  rw [nth, nth, ← List.map_reverse, List.getElem?_map]

-- Something that holds of every item together with the items before it.
def Every (holds : α → List α → Prop) (history : List α) : Prop :=
  ∀ item earlier, item :: earlier <:+ history → holds item earlier

theorem every_nil (holds : α → List α → Prop) : Every holds [] := by
  intro item earlier h
  cases List.suffix_nil.mp h

theorem Every.cons {holds : α → List α → Prop} {history : List α} (h : Every holds history)
    {item : α} (hitem : holds item history) : Every holds (item :: history) := by
  intro other earlier hsuffix
  rcases List.suffix_cons_iff.mp hsuffix with heq | hsuffix
  · cases heq
    exact hitem
  · exact h other earlier hsuffix

theorem Every.suffix {holds : α → List α → Prop} {history history' : List α}
    (h : Every holds history') (hsuffix : history <:+ history') : Every holds history :=
  fun item earlier hitem => h item earlier (hitem.trans hsuffix)

-- A step that adds at most one item.
theorem Every.grows {holds : α → List α → Prop} {history history' : List α}
    (h : Every holds history)
    (hgrows : history' = history ∨ ∃ item, history' = item :: history ∧ holds item history) :
    Every holds history' := by
  rcases hgrows with hsame | ⟨item, hmore, hitem⟩
  · rw [hsame]
    exact h
  · rw [hmore]
    exact h.cons hitem

section Since

-- How many items have come since something was found out.
def since (found : List α → Bool) : List α → Nat
  | [] => 0
  | _ :: history => if found history then since found history + 1 else 0

variable {found : List α → Bool}

theorem since_cons (item : α) (history : List α) :
    since found (item :: history) ≤ since found history + 1 := by
  rw [since]
  split_ifs
  · exact Nat.le_refl _
  · exact Nat.zero_le _

theorem since_first {item : α} {history : List α} (h : found history = false) :
    since found (item :: history) = 0 := by
  rw [since, h]
  rfl

variable (hlasting : ∀ item history, found history = true → found (item :: history) = true)

include hlasting

theorem since_none {history : List α} (h : found history = false) : since found history = 0 := by
  cases history with
  | nil => rfl
  | cons item history =>
      cases hfound : found history with
      | false => exact since_first hfound
      | true =>
          rw [hlasting item history hfound] at h
          cases h

-- All that comes later has come since.
theorem length_le_since {history longer : List α} (h : found history = true)
    (hsuffix : history <:+ longer) :
    longer.length ≤ history.length + since found longer := by
  have hall : ∀ added, found (added ++ history) = true ∧
      (added ++ history).length ≤ history.length + since found (added ++ history) := by
    intro added
    induction added with
    | nil => exact ⟨h, Nat.le_add_right _ _⟩
    | cons item added ih =>
        refine ⟨hlasting _ _ ih.1, ?_⟩
        rw [List.cons_append, since, ih.1, if_pos rfl, List.length_cons]
        omega
  obtain ⟨added, rfl⟩ := hsuffix
  exact (hall added).2

end Since

section Ring

variable {size : Nat} (hsize : 0 < size)

def cell (k : Nat) : Fin size := ⟨k % size, Nat.mod_lt k hsize⟩

-- The ring still has every item that fewer than `size` others have come after.
def Tracks (ring : Fin size → α) (history : List α) : Prop :=
  ∀ k item, nth history k = some item → history.length ≤ k + size → ring (cell hsize k) = item

theorem tracks_nil (ring : Fin size → α) : Tracks hsize ring [] := by
  intro k item h
  cases h

-- Two numbers less than a whole turn apart have different cells.
theorem cell_ne {k l : Nat} (hlt : k < l) (hle : l < k + size) : cell hsize k ≠ cell hsize l := by
  intro h
  have hmod : k % size = l % size := congrArg Fin.val h
  have hdvd : size ∣ l - k := Nat.dvd_of_mod_eq_zero (Nat.sub_mod_eq_zero_of_mod_eq hmod.symm)
  have := Nat.le_of_dvd (by omega) hdvd
  omega

theorem Tracks.push {ring : Fin size → α} {history : List α} (h : Tracks hsize ring history)
    (item : α) :
    Tracks hsize (Function.update ring (cell hsize history.length) item) (item :: history) := by
  intro k other hk hwindow
  rw [List.length_cons] at hwindow
  rw [nth_cons] at hk
  split_ifs at hk with heq
  · cases hk
    rw [heq, Function.update_self]
  · have hlt := nth_lt hk
    rw [Function.update_of_ne (cell_ne hsize hlt (by omega))]
    exact h k other hk (by omega)

end Ring

end History
