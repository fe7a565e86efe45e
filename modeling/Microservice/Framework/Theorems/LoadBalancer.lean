import Microservice.Framework.LoadBalancer
import Mathlib.Algebra.Group.Nat.Defs

theorem List.dlookup_kreplace {α β : Type*} [DecidableEq α] {a a' : α} {b : β}
    {l : List (Sigma fun _ : α => β)} :
    (l.kreplace a b).dlookup a' = if a' = a then (l.dlookup a).map fun _ => b else l.dlookup a' := by
  induction l
  case nil => simp [kreplace]
  case cons e l hi =>
    obtain ⟨k, v⟩ := e
    by_cases hk : a = k
    case pos =>
      subst hk
      have hr : kreplace a b (⟨a, v⟩ :: l) = ⟨a, b⟩ :: l := lookmap_cons_some _ l (if_pos rfl)
      rw [hr]
      by_cases ha : a' = a
      case pos => subst ha; simp
      case neg => simp [ha, dlookup_cons_ne]
    case neg =>
      have hr : kreplace a b (⟨k, v⟩ :: l) = ⟨k, v⟩ :: kreplace a b l :=
        lookmap_cons_none _ l (if_neg hk)
      rw [hr]
      by_cases ha : a' = k
      case pos => subst ha; simp [Ne.symm hk]
      case neg => simp [ha, hk, dlookup_cons_ne, hi]

namespace LoadBalancer

variable {l l' : LoadBalancer} {ele ele' : String} {s m : List String}

@[simp]
theorem not_mem_empty : ele ∉ empty :=
  List.not_mem_nil

theorem mem_keys : ele ∈ l.elements.keys ↔ ele ∈ l :=
  Iff.rfl

theorem mem_addElement : ele' ∈ (l.addElement ele).fst ↔ ele' = ele ∨ ele' ∈ l := by
  unfold addElement
  split
  case isTrue h  => exact ⟨.inr, fun h' => h'.elim (· ▸ h) id⟩
  case isFalse h => exact AList.mem_insert _

theorem keys_addElement (h : ele ∉ l) : (l.addElement ele).fst.elements.keys = ele :: l.elements.keys := by
  rw [addElement, if_neg h]
  rw [AList.keys_insert, List.erase_of_not_mem (mem_keys.not.mpr h)]

theorem addElement_snd : (l.addElement ele).snd = true ↔ ele ∉ l := by
  unfold addElement
  split <;> simp [*]

theorem mem_delElement : ele' ∈ (l.delElement ele).fst ↔ ele' ≠ ele ∧ ele' ∈ l := by
  unfold delElement
  split
  case isTrue h  => exact AList.mem_erase
  case isFalse h => exact ⟨fun h' => ⟨fun he => h (he ▸ h'), h'⟩, And.right⟩

theorem addElement_cases {b : Bool} (h : l.addElement ele = (l', b)) :
    (∀ c, c ∈ l' ↔ c = ele ∨ c ∈ l) ∧ (b = true ↔ ele ∉ l) := by
  obtain rfl : (l.addElement ele).fst = l' := congrArg Prod.fst h
  obtain rfl : (l.addElement ele).snd = b := congrArg Prod.snd h
  exact ⟨fun c => mem_addElement, addElement_snd⟩

theorem mem_snapshot : ele ∈ l.snapshot ↔ ele ∈ l :=
  List.mem_insertionSort _

theorem mem_moveCursor (h : l.moveCursor s = (l', x)) : ele ∈ l' ↔ ele ∈ l := by
  obtain rfl : (l.moveCursor s).fst = l' := congrArg Prod.fst h
  rfl

theorem mem_of_moveCursor (h : l.moveCursor s = (l', some ele)) : ele ∈ s :=
  List.mem_of_getElem? (congrArg Prod.snd h)

theorem mem_addWeight : ele' ∈ l.addWeight ele ↔ ele' ∈ l := by
  unfold addWeight
  split
  case h_1 => exact AList.mem_replace
  case h_2 => exact Iff.rfl

theorem perm_snapshot : l.snapshot.Perm l.elements.keys :=
  List.perm_insertionSort _ _

theorem nodup_snapshot : l.snapshot.Nodup :=
  perm_snapshot.nodup_iff.mpr l.elements.keys_nodup

theorem snapshot_eq_nil_iff : l.snapshot = [] ↔ ∀ ele, ele ∉ l := by
  simp only [List.eq_nil_iff_forall_not_mem, mem_snapshot]

-- The weights are no part of what is copied.
@[simp]
theorem keys_addWeight : (l.addWeight ele).elements.keys = l.elements.keys := by
  unfold addWeight
  split
  case h_1 => exact AList.keys_replace ..
  case h_2 => rfl

-- Only the weight of the chosen element changes, and only if it is still there.
theorem lookup_addWeight :
    (l.addWeight ele).elements.lookup ele' =
      if ele' = ele then (l.elements.lookup ele).map (· + 1) else l.elements.lookup ele' := by
  unfold addWeight
  split
  case h_1 w hw =>
    simp only [AList.lookup] at hw
    simp only [AList.lookup, AList.replace, List.dlookup_kreplace, hw, Option.map_some]
  case h_2 hn   =>
    split
    case isTrue he => rw [he, hn]; rfl
    case isFalse   => rfl

@[simp]
theorem rrbIdx_addWeight : (l.addWeight ele).rrbIdx = l.rrbIdx := by
  unfold addWeight
  split <;> rfl

-- The index at which `LoadBalanceRoundRobin` reads its copy.
def cursor (l : LoadBalancer) (m : List String) : UInt16 :=
  if l.rrbIdx ≥ UInt16.ofNat m.length then 0 else l.rrbIdx

theorem moveCursor_eq :
    l.moveCursor m = ({ l with rrbIdx := l.cursor m + 1 }, m[(l.cursor m).toNat]?) :=
  rfl

theorem cursor_toNat :
    (l.cursor m).toNat = if l.rrbIdx.toNat < m.length % 2 ^ 16 then l.rrbIdx.toNat else 0 := by
  have hl : (UInt16.ofNat m.length).toNat = m.length % 2 ^ 16 := UInt16.toNat_ofNat'
  unfold cursor
  split
  case isTrue h =>
    have h := UInt16.le_iff_toNat_le.mp h
    exact (if_neg (by omega)).symm
  case isFalse h =>
    have h := UInt16.le_iff_toNat_le.not.mp h
    exact (if_pos (by omega)).symm

-- The converted length is not greater than the length.
theorem cursor_lt (h : m ≠ []) : (l.cursor m).toNat < m.length := by
  have hl := List.length_pos_iff.mpr h
  have hm := Nat.mod_le m.length (2 ^ 16)
  rw [cursor_toNat]
  split <;> omega

theorem cursor_add_one_lt : (l.cursor m).toNat + 1 < 2 ^ 16 := by
  have hm := Nat.mod_lt m.length (show 2 ^ 16 > 0 by decide)
  rw [cursor_toNat]
  split <;> omega

theorem cursor_add_one : (l.cursor m + 1).toNat = (l.cursor m).toNat + 1 := by
  rw [UInt16.toNat_add]
  exact Nat.mod_eq_of_lt cursor_add_one_lt

-- With a length of 16 bits, the cursor goes from one element to the next, and from the last to the first.
theorem cursor_moveCursor (hn : m ≠ []) (hl : m.length < 2 ^ 16) :
    ((l.moveCursor m).fst.cursor m).toNat = ((l.cursor m).toNat + 1) % m.length := by
  have hlt := l.cursor_lt hn
  rw [cursor_toNat, moveCursor_eq, cursor_add_one, Nat.mod_eq_of_lt hl]
  split
  case isTrue h  => rw [Nat.mod_eq_of_lt h]
  case isFalse h =>
    have he : (l.cursor m).toNat + 1 = m.length := by omega
    rw [he, Nat.mod_self]

theorem moveCursor_isSome (h : m ≠ []) : ∃ l' ele, l.moveCursor m = (l', some ele) :=
  ⟨_, _, by rw [moveCursor_eq, List.getElem?_eq_getElem (cursor_lt h)]⟩

end LoadBalancer
