import Mathlib.Data.List.Rotate
import Mathlib.Algebra.Ring.Nat

-- Going round and round through a list.
namespace List

variable {α : Type*} {m xs ys : List α} {a : α} {c k : Nat}

-- `xs` are the elements of `m` from the place `c` on, again from the front after the last one.
def Cycles (m : List α) (c : Nat) (xs : List α) : Prop :=
  ∀ j < xs.length, xs[j]? = m[(c + j) % m.length]?

namespace Cycles

theorem nil : m.Cycles c [] :=
  fun _ h => absurd h (Nat.not_lt_zero _)

theorem concat (h : m.Cycles c xs) (ha : m[(c + xs.length) % m.length]? = some a) :
    m.Cycles c (xs ++ [a]) := by
  intro j hj
  obtain hj | rfl : j < xs.length ∨ j = xs.length := by simp at hj; omega
  · rw [getElem?_append_left hj, h j hj]
  · rw [getElem?_concat_length, ha]

theorem left (h : m.Cycles c (xs ++ ys)) : m.Cycles c xs := by
  intro j hj
  rw [←h j (by simp; omega), getElem?_append_left hj]

theorem right (h : m.Cycles c (xs ++ ys)) : m.Cycles (c + xs.length) ys := by
  intro j hj
  have hr := h (xs.length + j) (by simp; omega)
  rwa [getElem?_append_right (by omega), Nat.add_sub_cancel_left, ←Nat.add_assoc] at hr

theorem eq_rotate (h : m.Cycles c xs) (hl : xs.length = m.length) : xs = m.rotate c := by
  refine ext_getElem? fun j => ?_
  by_cases hj : j < m.length
  case pos => rw [h j (by omega), getElem?_rotate hj, Nat.add_comm]
  case neg => rw [getElem?_eq_none (by omega), getElem?_eq_none (by rw [length_rotate]; omega)]

-- One round takes each element once.
theorem perm (h : m.Cycles c xs) (hl : xs.length = m.length) : xs.Perm m :=
  h.eq_rotate hl ▸ rotate_perm m c

-- By induction on the number of rounds.
theorem count_eq [DecidableEq α] (h : m.Cycles c xs) (hm : m.Nodup) (hl : xs.length = k * m.length)
    (ha : a ∈ m) : xs.count a = k := by
  induction k generalizing c xs
  case zero =>
    obtain rfl : xs = [] := eq_nil_of_length_eq_zero (by simpa using hl)
    exact count_nil
  case succ k hi =>
    rw [Nat.succ_mul] at hl
    rw [←take_append_drop m.length xs] at h
    have hfirst := (h.left.perm (by rw [length_take]; omega)).count_eq a
    have hrest := hi h.right (by rw [length_drop]; omega)
    rw [count_eq_one_of_mem hm ha] at hfirst
    rw [←take_append_drop m.length xs, count_append, hfirst, hrest, Nat.add_comm]

end Cycles

end List
