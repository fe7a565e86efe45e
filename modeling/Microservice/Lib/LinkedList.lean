import Mathlib.Data.List.Basic
import Mathlib.Data.List.Induction
import Mathlib.Data.List.Nodup
import Mathlib.Logic.Function.Basic
import Mathlib.Logic.Relation

-- The links of a heap of list nodes: which node stands in front of a node and which one behind it.
@[ext]
structure Links (ι : Type*) where
  prev : ι → Option ι
  next : ι → Option ι

namespace Links

variable {ι : Type*}

-- The nodes of a list are linked up in both directions. In front of the list stands `before`, behind
-- it stands `after`.
def Linked (l : Links ι) (before : Option ι) : List ι → Option ι → Prop
  | [], _          => True
  | x :: xs, after => l.prev x = before ∧ l.next x = xs.head?.or after ∧ l.Linked (some x) xs after

variable {l l' : Links ι} {x y cur : ι} {xs ys : List ι} {before after b a : Option ι}

theorem linked_append_iff :
    l.Linked before (xs ++ ys) after ↔
      l.Linked before xs (ys.head?.or after) ∧ l.Linked (xs.getLast?.or before) ys after := by
  induction xs generalizing before
  case nil => simp [Linked]
  case cons x xs hi =>
    simp only [List.cons_append, Linked, hi, List.head?_append, List.getLast?_cons, Option.or_assoc]
    cases xs.getLast? <;> simp [and_assoc]

-- Whether a list is linked up depends on the links of its own nodes only.
theorem Linked.congr (hp : ∀ x ∈ xs, l'.prev x = l.prev x) (hn : ∀ x ∈ xs, l'.next x = l.next x)
    (h : l.Linked before xs after) : l'.Linked before xs after := by
  induction xs generalizing before
  case nil => trivial
  case cons x xs hi =>
    have ⟨h₁, h₂, h₃⟩ := h
    exact ⟨(hp x <| by simp).trans h₁, (hn x <| by simp).trans h₂,
      hi (fun y hy => hp y <| by simp [hy]) (fun y hy => hn y <| by simp [hy]) h₃⟩

-- A node inside of a list has its neighbours in the list as neighbours.
theorem Linked.prev_eq (h : l.Linked before (xs ++ x :: ys) after) :
    l.prev x = xs.getLast?.or before :=
  (linked_append_iff.mp h).2.1

theorem Linked.next_eq (h : l.Linked before (xs ++ x :: ys) after) : l.next x = ys.head?.or after :=
  (linked_append_iff.mp h).2.2.1

-- In a list that ends at both sides the links lead from nodes of the list to nodes of the list, and
-- back again.
theorem Linked.prev_of_next (h : l.Linked none xs none) (hx : x ∈ xs) (hn : l.next x = some y) :
    y ∈ xs ∧ l.prev y = some x := by
  obtain ⟨as, bs, rfl⟩ := List.append_of_mem hx
  have hb : bs.head? = some y := by simpa [h.next_eq] using hn
  obtain ⟨bs, rfl⟩ := List.head?_eq_some_iff.mp hb
  rw [List.append_cons] at h
  exact ⟨by simp, by simpa using h.prev_eq⟩

theorem Linked.next_of_prev (h : l.Linked none xs none) (hy : y ∈ xs) (hp : l.prev y = some x) :
    x ∈ xs ∧ l.next x = some y := by
  obtain ⟨as, bs, rfl⟩ := List.append_of_mem hy
  have ha : as.getLast? = some x := by simpa [h.prev_eq] using hp
  obtain ⟨as, rfl⟩ := List.getLast?_eq_some_iff.mp ha
  rw [List.append_assoc] at h
  exact ⟨by simp, by simpa using h.next_eq⟩

-- The nodes that are reached from a node over `next` links.
def Reaches (l : Links ι) : ι → ι → Prop :=
  Relation.ReflTransGen (l.next · = some ·)

-- The nodes of a list are those that are reached from its first node.
theorem Linked.mem_iff_reaches (h : l.Linked none xs none) :
    y ∈ xs ↔ ∃ x, xs.head? = some x ∧ l.Reaches x y := by
  constructor
  case mp =>
    intro hy
    obtain ⟨as, bs, rfl⟩ := List.append_of_mem hy
    clear hy
    -- From the node in front of `y` one link leads to `y`.
    induction as using List.reverseRecOn generalizing y bs
    case nil => exact ⟨y, rfl, .refl⟩
    case append_singleton as z hi =>
      rw [List.append_assoc] at h ⊢
      obtain ⟨x, hx, hr⟩ := hi _ h
      exact ⟨x, hx, hr.tail (by simpa using h.next_eq)⟩
  case mpr =>
    intro ⟨x, hx, hr⟩
    induction hr
    case refl       => exact List.mem_of_mem_head? hx
    case tail hn hi => exact (h.prev_of_next hi hn).1

theorem not_mem_of_nodup_append_cons (hd : (xs ++ x :: ys).Nodup) : x ∉ xs ∧ x ∉ ys := by
  have := List.nodup_middle.mp hd
  simp_all

variable [DecidableEq ι]

def setPrev (l : Links ι) (x : ι) (p : Option ι) : Links ι :=
  { l with prev := Function.update l.prev x p }

def setNext (l : Links ι) (x : ι) (n : Option ι) : Links ι :=
  { l with next := Function.update l.next x n }

-- The updates at the end of a link that may be missing.
def setPrev? (l : Links ι) : Option ι → Option ι → Links ι
  | none, _   => l
  | some x, p => l.setPrev x p

def setNext? (l : Links ι) : Option ι → Option ι → Links ι
  | none, _   => l
  | some x, n => l.setNext x n

-- Take a node out from between its neighbours.
def unlink (l : Links ι) (x : ι) : Links ι :=
  (((l.setNext? (l.prev x) (l.next x)).setPrev? (l.next x) (l.prev x)).setPrev x none).setNext x none

-- Put a node behind another one.
def linkAfter (l : Links ι) (cur x : ι) : Links ι :=
  (((l.setNext cur (some x)).setPrev x (some cur)).setNext x (l.next cur)).setPrev? (l.next cur) (some x)

theorem Linked.setNext_of_not_mem (hx : x ∉ xs) (h : l.Linked before xs after) :
    (l.setNext x a).Linked before xs after :=
  Linked.congr (l := l) (fun _ _ => rfl) (fun _ hy => Function.update_of_ne (ne_of_mem_of_not_mem hy hx) ..) h

theorem Linked.setPrev_of_not_mem (hx : x ∉ xs) (h : l.Linked before xs after) :
    (l.setPrev x b).Linked before xs after :=
  h.congr (fun _ hy => Function.update_of_ne (ne_of_mem_of_not_mem hy hx) ..) (fun _ _ => rfl)

theorem Linked.setNext?_of_not_mem (hx : ∀ x ∈ b, x ∉ xs) (h : l.Linked before xs after) :
    (l.setNext? b a).Linked before xs after := by
  cases b
  case none   => exact h
  case some x => exact h.setNext_of_not_mem (hx x rfl)

theorem Linked.setPrev?_of_not_mem (hx : ∀ x ∈ b, x ∉ xs) (h : l.Linked before xs after) :
    (l.setPrev? b a).Linked before xs after := by
  cases b
  case none   => exact h
  case some x => exact h.setPrev_of_not_mem (hx x rfl)

-- The last node of a list is linked to whatever is to follow.
theorem Linked.setNext?_getLast (hd : xs.Nodup) (h : l.Linked before xs after) :
    (l.setNext? xs.getLast? a).Linked before xs a := by
  obtain rfl | ⟨xs, x, rfl⟩ := xs.eq_nil_or_concat
  · trivial
  · rw [List.concat_eq_append] at hd h ⊢
    have hx := (not_mem_of_nodup_append_cons hd).1
    have ⟨h₁, h₂, h₃, _⟩ := linked_append_iff.mp h
    simp only [List.getLast?_concat, setNext?]
    exact linked_append_iff.mpr
      ⟨h₁.setNext_of_not_mem hx, h₂, by simp [setNext], trivial⟩

-- The first node of a list is linked to whatever is to stand in front.
theorem Linked.setPrev?_head (hd : xs.Nodup) (h : l.Linked before xs after) :
    (l.setPrev? xs.head? b).Linked b xs after := by
  cases xs
  case nil => trivial
  case cons x xs =>
    have ⟨_, h₂, h₃⟩ := h
    exact ⟨by simp [setPrev?, setPrev], h₂, h₃.setPrev_of_not_mem (List.nodup_cons.mp hd).1⟩

theorem setNext?_prev : (l.setNext? b a).prev = l.prev := by
  cases b <;> rfl

theorem setPrev?_next : (l.setPrev? b a).next = l.next := by
  cases b <;> rfl

theorem setNext?_of_ne (h : b ≠ some y) : (l.setNext? b a).next y = l.next y := by
  cases b
  case none   => rfl
  case some x => exact Function.update_of_ne (fun he => h <| congrArg some he.symm) ..

theorem setPrev?_of_ne (h : b ≠ some y) : (l.setPrev? b a).prev y = l.prev y := by
  cases b
  case none   => rfl
  case some x => exact Function.update_of_ne (fun he => h <| congrArg some he.symm) ..

-- A node that was taken out is linked to nothing.
theorem unlink_self : (l.unlink x).prev x = none ∧ (l.unlink x).next x = none := by
  simp [unlink, setPrev, setNext]

-- Taking a node out changes the links of its neighbours only.
theorem unlink_of_ne (hx : y ≠ x) (hp : l.prev x ≠ some y) (hn : l.next x ≠ some y) :
    (l.unlink x).prev y = l.prev y ∧ (l.unlink x).next y = l.next y := by
  constructor
  · simp [unlink, setPrev, setNext, hx, setPrev?_of_ne hn, setNext?_prev]
  · simp [unlink, setPrev, setNext, hx, setPrev?_next, setNext?_of_ne hp]

-- Putting a node behind another one changes the links of these and of the next node only.
theorem linkAfter_of_ne (hx : y ≠ x) (hc : y ≠ cur) (hn : l.next cur ≠ some y) :
    (l.linkAfter cur x).prev y = l.prev y ∧ (l.linkAfter cur x).next y = l.next y := by
  constructor
  · simp [linkAfter, setPrev, setNext, hx, setPrev?_of_ne hn]
  · simp [linkAfter, setPrev, setNext, hx, hc, setPrev?_next]

-- Taking a node out of a list leaves the others linked up, in the same order.
theorem Linked.unlink (hd : (xs ++ x :: ys).Nodup) (h : l.Linked none (xs ++ x :: ys) none) :
    (l.unlink x).Linked none (xs ++ ys) none := by
  have ⟨hx, hy⟩ := not_mem_of_nodup_append_cons hd
  have ⟨hdx, hdy, hdis⟩ := List.nodup_append.mp hd
  have ⟨h₁, _, _, h₂⟩ := linked_append_iff.mp h
  have hp : l.prev x = xs.getLast? := by simpa using h.prev_eq
  have hn : l.next x = ys.head? := by simpa using h.next_eq
  rw [Links.unlink, hp, hn]
  refine linked_append_iff.mpr ⟨?_, ?_⟩
  · refine ((Linked.setPrev?_of_not_mem ?_ ?_).setPrev_of_not_mem hx).setNext_of_not_mem hx
    · intro z hz hzx
      exact hdis z hzx z (by simp [List.mem_of_mem_head? hz]) rfl
    · simpa using h₁.setNext?_getLast hdx
  · refine (Linked.setPrev_of_not_mem hy ?_).setNext_of_not_mem hy
    have h₃ : (l.setNext? xs.getLast? ys.head?).Linked (some x) ys none := by
      refine h₂.setNext?_of_not_mem ?_
      intro z hz hzy
      exact hdis z (List.mem_of_mem_getLast? hz) z (by simp [hzy]) rfl
    simpa using h₃.setPrev?_head (List.nodup_cons.mp hdy).2

-- A node that is in no list yet can be put behind any node of a list.
theorem Linked.linkAfter (hd : (xs ++ cur :: ys).Nodup) (hx : x ∉ xs ++ cur :: ys)
    (h : l.Linked none (xs ++ cur :: ys) none) :
    (l.linkAfter cur x).Linked none (xs ++ cur :: x :: ys) none := by
  have ⟨hdx, hdy, hdis⟩ := List.nodup_append.mp hd
  have ⟨hcx, hcy⟩ := not_mem_of_nodup_append_cons hd
  have hn : l.next cur = ys.head? := by simpa using h.next_eq
  have ⟨hxx, hxc, hxy⟩ : x ∉ xs ∧ x ≠ cur ∧ x ∉ ys := by simpa using hx
  rw [List.append_cons] at h ⊢
  have hx' : x ∉ xs ++ [cur] := by simp [hxx, hxc]
  have hdc : (xs ++ [cur]).Nodup := List.Nodup.append hdx (by simp) (by simpa using hcx)
  have ⟨h₁, h₂⟩ := linked_append_iff.mp h
  rw [Links.linkAfter, hn]
  refine linked_append_iff.mpr ⟨?_, ?_, ?_, ?_⟩
  · refine Linked.setPrev?_of_not_mem ?_ ?_
    · intro z hz hzx
      have hzy := List.mem_of_mem_head? hz
      obtain hz | rfl := List.mem_append.mp hzx |>.imp_right List.mem_singleton.mp
      · exact hdis z hz z (by simp [hzy]) rfl
      · exact hcy hzy
    · refine (Linked.setPrev_of_not_mem hx' ?_).setNext_of_not_mem hx'
      simpa [setNext?] using h₁.setNext?_getLast (a := some x) hdc
  · cases ys
    case nil => simp [setPrev?, setPrev, setNext]
    case cons y ys =>
      have hxy : x ≠ y := (hxy <| by simp [·])
      simp [setPrev?, setPrev, setNext, hxy]
  · cases ys <;> simp [setPrev?, setPrev, setNext]
  · have h₃ := h₂.setNext_of_not_mem (a := some x) hcy
    have h₄ := (h₃.setPrev_of_not_mem (b := some cur) hxy).setNext_of_not_mem (a := ys.head?) hxy
    exact h₄.setPrev?_head (List.nodup_cons.mp hdy).2

end Links
