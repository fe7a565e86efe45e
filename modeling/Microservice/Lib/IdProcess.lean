import Microservice.Lib.Exec
import Microservice.Lib.Positions
import Mathlib.Data.List.ReduceOption

-- A process that draws ids from a counter of 32 bits. The label of a step is the id that it draws, if it
-- draws one. An id is in use from then on as long as the process may still register it or has it
-- registered. It is live while it is registered.
structure IdProcess where
  State     : Type*
  init      : State
  Step      : State → Option UInt32 → State → Prop
  counter   : State → UInt32
  Used      : State → UInt32 → Prop
  Live      : State → UInt32 → Prop
  zero      : counter init = 0
  unused    : ∀ id, ¬Used init id
  registers : ∀ s id, Live s id → Used s id
  draws     : ∀ s id s', Step s (some id) s' → id = counter s + 1 ∧ counter s' = id
  keeps     : ∀ s s', Step s none s' → counter s' = counter s
  uses      : ∀ s o s' id, Step s o s' → Used s' id → Used s id ∨ o = some id

namespace IdProcess

variable {N : IdProcess} {s s' : N.State} {os : List (Option UInt32)} {o : Option UInt32} {id : UInt32}
  {ids : List UInt32}

-- The ids that were drawn in a run, in this order.
def drawn (os : List (Option UInt32)) : List UInt32 :=
  os.reduceOption

-- How many ids were drawn since `id` was drawn the last time.
def since (id : UInt32) (ids : List UInt32) : Nat :=
  ids.reverse.idxOf id

theorem drawn_snoc : drawn (os ++ [o]) = drawn os ++ o.toList := by
  cases o <;> simp [drawn, List.reduceOption_append, List.reduceOption_singleton]

-- The ids are numbered from 1, and the counter has the number of the last one.
structure Drawn (N : IdProcess) (ids : List UInt32) (s : N.State) : Prop where
  counter : (N.counter s).toNat = ids.length % 2 ^ 32
  nth     : ∀ k id, ids[k]? = some id → id.toNat = (k + 1) % 2 ^ 32
  used    : ∀ id, N.Used s id → id ∈ ids

theorem Drawn.next (h : Drawn N ids s) : (N.counter s + 1).toNat = (ids.length + 1) % 2 ^ 32 := by
  rw [UInt32.toNat_add, h.counter]
  exact Nat.mod_add_mod ..

theorem Drawn.step (h : Drawn N ids s) (hs : N.Step s o s') : Drawn N (ids ++ o.toList) s' := by
  have hused : ∀ id, N.Used s' id → id ∈ ids ++ o.toList := by
    intro id hu
    obtain hu | rfl := N.uses s o s' id hs hu
    · exact List.mem_append_left _ (h.used id hu)
    · simp
  cases o
  case none =>
    refine ⟨?_, by simpa using h.nth, hused⟩
    rw [N.keeps s s' hs, h.counter, Option.toList, List.append_nil]
  case some id =>
    obtain ⟨rfl, hc⟩ := N.draws s id s' hs
    refine ⟨by simpa [hc] using h.next, fun k id hk => ?_, hused⟩
    obtain hk | ⟨rfl, rfl⟩ := List.getElem?_concat_cases hk
    · exact h.nth k id hk
    · exact h.next

theorem drawn_of_exec (h : Exec N.Step N.init os s) : Drawn N (drawn os) s := by
  refine h.invariant (I := fun os s => Drawn N (drawn os) s) ?_ fun os s o s' _ hi hs => ?_
  · exact ⟨by simp [N.zero, drawn], by simp [drawn], fun id hu => absurd hu (N.unused id)⟩
  · rw [drawn_snoc]
    exact hi.step hs

-- The last draw of an id has its place in the list.
theorem getElem?_since (h : id ∈ ids) :
    since id ids < ids.length ∧ ids[ids.length - 1 - since id ids]? = some id := by
  have hlt : since id ids < ids.length := by
    simpa [since] using List.idxOf_lt_length_iff.mpr (List.mem_reverse.mpr h)
  refine ⟨hlt, ?_⟩
  rw [← List.getElem?_reverse hlt]
  exact List.getElem?_idxOf (List.mem_reverse.mpr h)

-- An id that was drawn less than 2^32 draws ago is not drawn again.
theorem Drawn.ne_next (h : Drawn N ids s) (hu : N.Used s id) (hl : since id ids + 1 < 2 ^ 32) :
    id ≠ N.counter s + 1 := by
  rintro rfl
  obtain ⟨hlt, hk⟩ := getElem?_since (h.used _ hu)
  have hn := h.nth _ _ hk
  rw [h.next] at hn
  omega

-- If no live id was drawn too long ago, a draw yields an id that is neither 0 nor live, unless it is a
-- multiple of 2^32.
theorem fresh_iff (h : Exec N.Step N.init os s) (hs : N.Step s (some id) s')
    (hl : ∀ x, N.Live s x → since x (drawn os) + 1 < 2 ^ 32) :
    (id ≠ 0 ∧ ∀ x, N.Live s x → x ≠ id) ↔ ((drawn os).length + 1) % 2 ^ 32 ≠ 0 := by
  have hd := drawn_of_exec h
  obtain ⟨rfl, _⟩ := N.draws s id s' hs
  have hzero : N.counter s + 1 ≠ 0 ↔ ((drawn os).length + 1) % 2 ^ 32 ≠ 0 := by
    rw [← hd.next, ne_eq, ← UInt32.toNat_inj, UInt32.toNat_zero]
  rw [hzero]
  exact and_iff_left fun x hx => hd.ne_next (N.registers s x hx) (hl x hx)

end IdProcess
