import Mathlib.Data.List.Induction
import Mathlib.Data.Option.Basic
import Mathlib.Logic.Function.Basic

-- A partial map. A key is absent iff it is mapped to `none`.
abbrev Partial (α β : Type*) := α → Option β

namespace Partial

variable {α β : Type*} [DecidableEq α] {m : Partial α β} {k k' : α} {v v' : β}

def insert (m : Partial α β) (k : α) (v : β) : Partial α β :=
  Function.update m k (some v)

def erase (m : Partial α β) (k : α) : Partial α β :=
  Function.update m k none

theorem insert_apply : m.insert k v k' = if k' = k then some v else m k' :=
  Function.update_apply ..

theorem erase_apply : m.erase k k' = if k' = k then none else m k' :=
  Function.update_apply ..

@[simp]
theorem insert_self : m.insert k v k = some v :=
  Function.update_self ..

theorem insert_of_ne (h : k' ≠ k) : m.insert k v k' = m k' :=
  Function.update_of_ne h ..

@[simp]
theorem erase_self : m.erase k k = none :=
  Function.update_self ..

theorem erase_of_ne (h : k' ≠ k) : m.erase k k' = m k' :=
  Function.update_of_ne h ..

theorem insert_eq_some_iff :
    m.insert k v k' = some v' ↔ (k' = k ∧ v = v') ∨ (k' ≠ k ∧ m k' = some v') := by
  by_cases h : k' = k <;> simp [insert_apply, h]

theorem erase_eq_some_iff : m.erase k k' = some v ↔ k' ≠ k ∧ m k' = some v := by
  by_cases h : k' = k <;> simp [erase_apply, h]

theorem erase_of_absent (h : m k = none) : m.erase k = m := by
  funext k'
  by_cases hk : k' = k <;> simp [erase_apply, hk, h]

-- The map that the entries make when they are inserted in order.
def ofEntries (es : List (α × β)) : Partial α β :=
  es.foldl (fun m e => m.insert e.1 e.2) fun _ => none

-- The entries of a map, each of them once, in any order.
structure Enumerates (es : List (α × β)) (m : Partial α β) : Prop where
  nodup : (es.map Prod.fst).Nodup
  mem   : ∀ k v, (k, v) ∈ es ↔ m k = some v

theorem ofEntries_concat {es : List (α × β)} : ofEntries (es ++ [(k, v)]) = (ofEntries es).insert k v :=
  List.foldl_append

theorem ofEntries_isSome_iff {es : List (α × β)} : (ofEntries es k).isSome ↔ k ∈ es.map Prod.fst := by
  induction es using List.reverseRecOn
  case nil => simp [ofEntries]
  case append_singleton es e hi =>
    obtain ⟨k', v⟩ := e
    by_cases h : k = k' <;> simp [ofEntries_concat, insert_apply, h, hi]

theorem foldl_insert_of_notMem {es : List (α × β)} (h : k ∉ es.map Prod.fst) :
    es.foldl (fun m e => m.insert e.1 e.2) m k = m k := by
  induction es generalizing m
  case nil => rfl
  case cons e es hi =>
    simp only [List.map_cons, List.mem_cons, not_or] at h
    rw [List.foldl_cons, hi h.2, insert_of_ne h.1]

theorem foldl_insert_of_mem {es : List (α × β)} (hn : (es.map Prod.fst).Nodup) (h : (k, v) ∈ es) :
    es.foldl (fun m e => m.insert e.1 e.2) m k = some v := by
  induction es generalizing m
  case nil => cases h
  case cons e es hi =>
    rw [List.map_cons, List.nodup_cons] at hn
    rw [List.foldl_cons]
    obtain rfl | h := List.mem_cons.mp h
    · rw [foldl_insert_of_notMem hn.1, insert_self]
    · exact hi hn.2 h

theorem Enumerates.ofEntries_eq {es : List (α × β)} (h : Enumerates es m) : ofEntries es = m := by
  funext k
  cases hm : m k
  case some v => exact foldl_insert_of_mem h.nodup ((h.mem k v).mpr hm)
  case none   =>
    refine foldl_insert_of_notMem fun hk => ?_
    obtain ⟨⟨k', v⟩, he, rfl⟩ := List.mem_map.mp hk
    exact nomatch ((h.mem k' v).mp he).symm.trans hm

theorem enumerates_ofEntries {es : List (α × β)} (hn : (es.map Prod.fst).Nodup) :
    Enumerates es (ofEntries es) where
  nodup   := hn
  mem k v := by
    refine ⟨foldl_insert_of_mem hn, fun h => ?_⟩
    have hk : k ∈ es.map Prod.fst := ofEntries_isSome_iff.mp (by rw [h]; rfl)
    obtain ⟨⟨_, v'⟩, hm, rfl⟩ := List.mem_map.mp hk
    cases (foldl_insert_of_mem hn hm).symm.trans h
    exact hm

-- The keys may be written in another way.
theorem ofEntries_map {γ : Type*} [DecidableEq γ] {f : α → γ} (hf : Function.Injective f) (es : List (α × β)) :
    ofEntries (es.map fun e => (f e.1, e.2)) (f k) = ofEntries es k := by
  induction es using List.reverseRecOn
  case nil => rfl
  case append_singleton es e hi =>
    rw [List.map_append, List.map_singleton, ofEntries_concat, ofEntries_concat, insert_apply, insert_apply, hi]
    simp only [hf.eq_iff]

end Partial
