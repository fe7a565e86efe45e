import Mathlib.Algebra.Ring.Nat
import Mathlib.Data.List.Basic
import Mathlib.Data.List.Forall2

-- A system as the list of its components: one of them takes a step, or a new one comes in at the end. These
-- say which component there is at a position then.
namespace List

variable {α β : Type*} {l l' : List α} {a b c : α} {i j : Nat}

theorem getElem?_append_of_eq_some (h : l[i]? = some a) : (l ++ l')[i]? = some a := by
  rwa [getElem?_append_left (getElem?_eq_some_iff.mp h).1]

theorem getElem?_concat_cases (h : (l ++ [a])[i]? = some b) :
    l[i]? = some b ∨ (i = l.length ∧ b = a) := by
  obtain hl | rfl | hl := Nat.lt_trichotomy i l.length
  · rw [getElem?_append_left hl] at h
    exact .inl h
  · rw [getElem?_concat_length] at h
    exact .inr ⟨rfl, (Option.some.inj h).symm⟩
  · rw [getElem?_eq_none (by simp; omega)] at h
    cases h

theorem getElem?_set_cases (h : (l.set i a)[j]? = some b) : (j = i ∧ b = a) ∨ (j ≠ i ∧ l[j]? = some b) := by
  by_cases hi : i = j
  case pos =>
    subst hi
    have hl : i < l.length := by simpa using (getElem?_eq_some_iff.mp h).1
    rw [getElem?_set_self hl] at h
    exact .inl ⟨rfl, (Option.some.inj h).symm⟩
  case neg =>
    rw [getElem?_set_ne hi] at h
    exact .inr ⟨Ne.symm hi, h⟩

theorem getElem?_set_of_eq_some (h : l[i]? = some b) : (l.set i a)[i]? = some a :=
  getElem?_set_self (getElem?_eq_some_iff.mp h).1

-- What is not at the place that changes stays in the list.
theorem mem_set_of_ne (h : a ∈ l) (hi : l[i]? = some b) (hab : a ≠ b) : a ∈ l.set i c := by
  have ⟨j, hj⟩ := mem_iff_getElem?.mp h
  have hij : i ≠ j := by
    rintro rfl
    exact hab (Option.some.inj (hj.symm.trans hi))
  exact mem_of_getElem? ((getElem?_set_ne hij).trans hj)

theorem mem_eraseIdx_of_ne (h : a ∈ l) (hi : l[i]? = some b) (hab : a ≠ b) : a ∈ l.eraseIdx i := by
  have ⟨j, hj⟩ := mem_iff_getElem?.mp h
  refine mem_eraseIdx_iff_getElem?.mpr ⟨j, ?_, hj⟩
  rintro rfl
  exact hab (Option.some.inj (hj.symm.trans hi))

-- Two elements in order, in a list that has grown.
theorem pair_sublist_concat (h : [a, b].Sublist (l ++ [c])) : [a, b].Sublist l ∨ b = c ∧ a ∈ l := by
  have h : [b, a].Sublist (c :: l.reverse) := by simpa using h.reverse
  cases h
  case cons h      => exact .inl (by simpa using h.reverse)
  case cons_cons h => exact .inr ⟨rfl, by simpa using h⟩

theorem exists_of_getElem?_eq_some (h : l[i]? = some a) : ∃ l₁ l₂, l = l₁ ++ a :: l₂ ∧ i = l₁.length := by
  have ⟨hl, ha⟩ := getElem?_eq_some_iff.mp h
  refine ⟨l.take i, l.drop (i + 1), ?_, by simp; omega⟩
  rw [←ha, getElem_cons_drop, take_append_drop]

-- A sum over the components, when one of them takes a step.
theorem sum_map_set (f : α → Nat) (h : l[i]? = some a) :
    ((l.set i b).map f).sum + f a = (l.map f).sum + f b := by
  obtain ⟨l₁, l₂, rfl, rfl⟩ := exists_of_getElem?_eq_some h
  simp
  omega

theorem countP_set_of_eq_some (p : α → Bool) (h : l[i]? = some a) :
    (l.set i b).countP p + (p a).toNat = l.countP p + (p b).toNat := by
  obtain ⟨l₁, l₂, rfl, rfl⟩ := exists_of_getElem?_eq_some h
  cases ha : p a <;> cases hb : p b <;> simp [ha, hb] <;> omega

-- What is taken from the components, when one of them takes a step that changes nothing of it.
theorem filterMap_set_of_eq_some {f : α → Option β} (h : l[i]? = some a) (hf : f b = f a) :
    (l.set i b).filterMap f = l.filterMap f := by
  obtain ⟨l₁, l₂, rfl, rfl⟩ := exists_of_getElem?_eq_some h
  simp [List.filterMap_cons, hf]

-- The last thing that is taken is that of the component which takes a step, if those after it have nothing.
theorem getLast?_filterMap_set {f : α → Option β} {y : β} (h : l[i]? = some a) (hf : f b = some y)
    (hn : ∀ c ∈ l.drop (i + 1), f c = none) : ((l.set i b).filterMap f).getLast? = some y := by
  obtain ⟨l₁, l₂, rfl, rfl⟩ := exists_of_getElem?_eq_some h
  have hn : l₂.filterMap f = [] := filterMap_eq_nil_iff.mpr (by simpa using hn)
  simp [hf, hn]

-- What holds of one position at most.
theorem eq_of_countP_le_one {p : α → Bool} (h : l.countP p ≤ 1) (ha : a ∈ l) (hb : b ∈ l) (hpa : p a = true)
    (hpb : p b = true) : a = b := by
  have ha : a ∈ l.filter p := mem_filter.mpr ⟨ha, hpa⟩
  have hb : b ∈ l.filter p := mem_filter.mpr ⟨hb, hpb⟩
  rw [countP_eq_length_filter] at h
  have ⟨c, hc⟩ := length_eq_one_iff.mp (Nat.le_antisymm h (length_pos_of_mem ha))
  rw [hc, mem_singleton] at ha hb
  exact ha.trans hb.symm

-- Two systems that agree component by component.
section Forall₂

variable {R : α → β → Prop} {m : List β} {y : β}

theorem Forall₂.exists_getElem? (h : Forall₂ R l m) (hi : l[i]? = some a) : ∃ y, m[i]? = some y ∧ R a y := by
  induction h generalizing i
  case nil => cases hi
  case cons hr _ ih =>
    cases i
    case zero   => cases hi; exact ⟨_, rfl, hr⟩
    case succ i => exact ih hi

theorem Forall₂.set (h : Forall₂ R l m) (hr : R a y) : Forall₂ R (l.set i a) (m.set i y) := by
  induction h generalizing i
  case nil => exact .nil
  case cons hr' h ih =>
    cases i
    case zero   => exact .cons hr h
    case succ i => exact .cons hr' ih

theorem Forall₂.set_left (h : Forall₂ R l m) (hi : m[i]? = some y) (hr : R a y) : Forall₂ R (l.set i a) m := by
  obtain ⟨hl, rfl⟩ := getElem?_eq_some_iff.mp hi
  have h := h.set (i := i) hr
  rwa [set_getElem_self] at h

theorem Forall₂.concat (h : Forall₂ R l m) (hr : R a y) : Forall₂ R (l ++ [a]) (m ++ [y]) :=
  rel_append h (.cons hr .nil)

end Forall₂

end List
