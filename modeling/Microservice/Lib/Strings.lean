import Mathlib.Data.List.Basic
import Mathlib.Data.String.Basic

namespace Strings

variable {sep : Char} {s t : String}

-- `strings.Split(s, sep)` with a separator of one character.
def split (s : String) (sep : Char) : List String :=
  (s.toList.splitOn sep).map String.ofList

theorem split_of_not_mem (h : sep ∉ s.toList) : split s sep = [s] := by
  simp [split, List.splitOn_eq_singleton h]

-- The piece before the first separator.
theorem split_append (h : sep ∉ s.toList) :
    split (s ++ String.singleton sep ++ t) sep = s :: split t sep := by
  simp [split, List.splitOn_append_cons_self_of_not_mem h]

theorem split_ne_nil (s : String) (sep : Char) : split s sep ≠ [] := by
  simp [split, List.splitOn_ne_nil]

-- A separator makes two pieces at least.
theorem exists_split_of_mem (h : sep ∈ s.toList) : ∃ a b rest, split s sep = a :: b :: rest := by
  obtain ⟨l, l', hs, hn⟩ := List.eq_append_cons_of_mem h
  have hs : s = String.ofList l ++ String.singleton sep ++ String.ofList l' := by
    rw [← String.toList_inj, hs]
    simp
  have hsplit := hs ▸ split_append (t := String.ofList l') (s := String.ofList l) (by simpa using hn)
  obtain ⟨b, rest, hb⟩ := List.exists_cons_of_ne_nil (split_ne_nil (String.ofList l') sep)
  exact ⟨_, b, rest, hb ▸ hsplit⟩

end Strings
