import Microservice.Framework.Theorems.Consumed
import Mathlib.Algebra.Group.Nat.Defs

namespace PriorityQueue

variable {τ : Type*} {q q' : PriorityQueue τ} {xs : List Ptr} {node : Ptr}

-- The counter as the source has it, an `int32` that wraps around.
def size32 (q : PriorityQueue τ) : Int :=
  (Int32.ofInt q.size).toInt

-- A count that is off by at most one is right iff it is not off and fits.
theorem size32_eq_iff {n : Nat} {k : Int} (h : q.size = n - k) (hk : k = 0 ∨ k = 1) :
    q.size32 = n ↔ k = 0 ∧ n < 2 ^ 31 := by
  rw [size32, Int32.toInt_ofInt, h, Int.bmod_def, Int32.size]
  split <;> omega

theorem queueAdd.loop_size (h : queueAdd.loop node q fuel cur = some q') : q'.size = q.size := by
  induction fuel generalizing cur
  case zero => cases h
  case succ fuel hi =>
    rw [loop] at h
    split at h
    · cases h; rfl
    · split at h
      · cases h; rfl
      · exact hi h

theorem queueAdd_size (h : q.queueAdd node = some q') : q'.size = q.size + 1 := by
  rw [queueAdd] at h
  split at h
  · cases h; rfl
  · exact queueAdd.loop_size h

theorem queueDel_size : (q.queueDel node).size = q.size - 1 := by
  simp only [queueDel]
  cases (q.heap node).prev <;> cases (q.heap node).next <;> rfl

end PriorityQueue

namespace CallbackMgr

open PriorityQueue

variable {β τ : Type*} {m m' : CallbackMgr β τ} {es : List (Event β τ)} {ev : Event β τ}
variable {xs : List Ptr} {node : Ptr}

-- The deletions that do not find their node in the queue. A tick takes out nodes of the queue only.
def misses (m : CallbackMgr β τ) : Event β τ → Int
  | .mgr (.queueDel node) => if node ∈ m.queue.nodes then 0 else 1
  | _                     => 0

-- Every deletion is counted, also if it finds nothing to delete.
theorem Step.size (hs : Step m ev m') (h : m.Queued xs) :
    m'.queue.size - m'.queue.nodes.length =
      m.queue.size - m.queue.nodes.length - m.misses ev := by
  rw [h.queue.nodes_eq]
  cases hs
  case add =>
    rw [(h.addCallBack ..).queue.nodes_eq]
    simp [misses, CallbackMgr.addCallBack, new]
  case get cbid => simp [misses, getCallBack_queue, h.queue.nodes_eq]
  case mgr e hs =>
    cases hs
    case queueAdd q node hm ha =>
      obtain ⟨hn, hb⟩ := h.fresh node (by simp [adding, hm, Mgr.adding])
      obtain ⟨q', h₁, _, h₃⟩ := h.queue.queueAdd hn hb
      obtain rfl : q' = q := Option.some.inj <| h₁.symm.trans ha
      simp only [misses, queueAdd_size ha, h₃.nodes_eq, length_added]
      omega
    case queueDel node hm =>
      simp only [misses, queueDel_size, (h.queue.queueDel node).nodes_eq, h.queue.nodes_eq]
      by_cases hn : node ∈ xs
      case pos =>
        have := List.length_pos_of_mem hn
        simp only [List.length_erase_of_mem hn, if_pos hn]
        omega
      case neg =>
        simp only [List.erase_of_not_mem hn, if_neg hn]
        omega
    case unlink cur now prev hm =>
      have ht := h.tick
      rw [hm] at ht
      obtain ⟨as, bs, rfl, hp⟩ := ht
      simp only [misses, queueDel_size, (h.unlink hm hp).queue.nodes_eq]
      simp
      omega
    all_goals simp [misses, h.queue.nodes_eq]

-- The counter is the number of nodes in the queue.
def Exact (m : CallbackMgr β τ) : Prop :=
  m.queue.size32 = m.queue.nodes.length

-- A `queueDel` that some `GetCallBack` has asked for finds its node in the queue, and the nodes can
-- be counted by an `int32`.
structure Counted (m : CallbackMgr β τ) (ev : Event β τ) (m' : CallbackMgr β τ) : Prop where
  found : ∀ node, ev = .mgr (.queueDel node) → node ∈ m.queue.nodes
  fits  : m'.queue.nodes.length < 2 ^ 31

theorem misses_eq_zero_iff :
    m.misses ev = 0 ↔ ∀ node, ev = .mgr (.queueDel node) → node ∈ m.queue.nodes := by
  cases ev
  case mgr e => cases e <;> simp [misses]
  all_goals simp [misses]

theorem misses_cases : m.misses ev = 0 ∨ m.misses ev = 1 := by
  cases ev
  case mgr e => cases e <;> simp [misses, or_iff_not_imp_left]
  all_goals simp [misses]

-- A step from a state in which nothing was missed yet.
theorem Step.exact_iff (hs : Step m ev m') (h : m.Queued xs)
    (he : m.queue.size = m.queue.nodes.length) : m'.Exact ↔ m.Counted ev m' := by
  have hsize : m'.queue.size = m'.queue.nodes.length - m.misses ev := by
    have := hs.size h
    omega
  rw [Exact, size32_eq_iff hsize misses_cases, misses_eq_zero_iff]
  exact ⟨fun h => ⟨h.1, h.2⟩, fun h => ⟨h.found, h.fits⟩⟩

theorem Step.size_of_counted (hs : Step m ev m') (h : m.Queued xs) (hc : m.Counted ev m')
    (he : m.queue.size = m.queue.nodes.length) : m'.queue.size = m'.queue.nodes.length := by
  have hsize := hs.size h
  have hm := misses_eq_zero_iff.mpr hc.found
  omega

-- A step of a run in which the counter is exact all the time.
def ExactStep (m : CallbackMgr β τ) (ev : Event β τ) (m' : CallbackMgr β τ) : Prop :=
  Step m ev m' ∧ m'.Exact

def CountedStep (m : CallbackMgr β τ) (ev : Event β τ) (m' : CallbackMgr β τ) : Prop :=
  Step m ev m' ∧ m.Counted ev m'

theorem queued_of_counted (h : Exec CountedStep (init : CallbackMgr β τ) es m) :
    ∃ xs, m.Queued xs :=
  queued_of_exec (h.mono fun _ _ _ hs => hs.1)

theorem size_of_counted (h : Exec CountedStep (init : CallbackMgr β τ) es m) :
    m.queue.size = m.queue.nodes.length := by
  induction h
  case refl => rfl
  case snoc h hs hi =>
    have ⟨_, hq⟩ := queued_of_counted h
    exact hs.1.size_of_counted hq hs.2 hi

theorem size_exact_iff :
    Exec ExactStep (init : CallbackMgr β τ) es m ↔ Exec CountedStep init es m := by
  constructor <;> intro h <;> induction h
  case mp.refl | mpr.refl => exact .refl
  case mp.snoc hs hi =>
    have ⟨_, hq⟩ := queued_of_counted hi
    exact hi.snoc ⟨hs.1, (hs.1.exact_iff hq (size_of_counted hi)).mp hs.2⟩
  case mpr.snoc h hs hi =>
    have ⟨_, hq⟩ := queued_of_counted h
    exact hi.snoc ⟨hs.1, (hs.1.exact_iff hq (size_of_counted h)).mpr hs.2⟩

-- `GetCallBack` has taken the entry, but a tick removes the node before the deletion is handed over.
theorem size_negative :
    ∃ es m, Exec Step (init : CallbackMgr Unit Unit) es m ∧ (added es).Nodup ∧
      m.mgr = .select ∧ m.queue.nodes = [] ∧ m.queue.size32 = -1 := by
  have h₁ := Exec.refl.snoc (Step.add (m := (init : CallbackMgr Unit Unit)) 7 () 10 0 none)
  have h₂ := h₁.snoc (.mgr (.recvAdd rfl (List.mem_singleton.mpr rfl)))
  have h₃ := h₂.snoc (.mgr (.queueAdd rfl rfl))
  have h₄ := h₃.snoc (.get 7)
  have h₅ := h₄.snoc (.mgr (show MgrStep _ (.tick 10) _ from .tick rfl))
  have h₆ := h₅.snoc (.mgr (.stale rfl (by decide) rfl))
  have h₇ := h₆.snoc (.mgr (.unlink rfl))
  have h₈ := h₇.snoc (.mgr (.finish rfl))
  have h₉ := h₈.snoc (.mgr (.recvDel rfl (List.mem_singleton.mpr rfl)))
  have h := h₉.snoc (.mgr (.queueDel rfl))
  exact ⟨_, _, h, by decide, rfl, rfl, by decide⟩

end CallbackMgr
