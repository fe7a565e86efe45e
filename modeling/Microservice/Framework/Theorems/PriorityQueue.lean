import Mathlib.Data.List.DropRight
import Mathlib.Data.List.Sort
import Microservice.Lib.LinkedList
import Microservice.Framework.CallbackMgr

namespace PriorityQueue

variable {β τ : Type*} {q q' q'' : PriorityQueue τ} {node cur p : Ptr} {xs ys : List Ptr} {now : Int}

def links (q : PriorityQueue τ) : Links Ptr where
  prev p := (q.heap p).prev
  next p := (q.heap p).next

-- Two queues have the same nodes on the heap, up to the way these are linked up.
structure Agrees (q q' : PriorityQueue τ) : Prop where
  alloc     : q'.alloc = q.alloc
  cbid      : ∀ p, (q'.heap p).cbid = (q.heap p).cbid
  endTime   : ∀ p, (q'.heap p).endTime = (q.heap p).endTime
  timeOutCb : ∀ p, (q'.heap p).timeOutCb = (q.heap p).timeOutCb

namespace Agrees

theorem refl : Agrees q q :=
  ⟨rfl, fun _ => rfl, fun _ => rfl, fun _ => rfl⟩

theorem trans (h : Agrees q q') (h' : Agrees q' q'') : Agrees q q'' where
  alloc       := h'.alloc.trans h.alloc
  cbid p      := (h'.cbid p).trans (h.cbid p)
  endTime p   := (h'.endTime p).trans (h.endTime p)
  timeOutCb p := (h'.timeOutCb p).trans (h.timeOutCb p)

theorem setPrev (h : Agrees q q') : Agrees q (q'.setPrev node b) :=
  h.trans <| by
    constructor <;> (try intro p; by_cases hp : p = node) <;> simp_all [PriorityQueue.setPrev]

theorem setNext (h : Agrees q q') : Agrees q (q'.setNext node b) :=
  h.trans <| by
    constructor <;> (try intro p; by_cases hp : p = node) <;> simp_all [PriorityQueue.setNext]

end Agrees

-- The nodes `xs` are queued, in this order. All other nodes are linked to nothing.
structure Represents (q : PriorityQueue τ) (xs : List Ptr) : Prop where
  first    : q.firstNode = xs.head?
  last     : q.lastNode = xs.getLast?
  linked   : q.links.Linked none xs none
  nodup    : xs.Nodup
  bound    : ∀ p ∈ xs, p < q.alloc
  detached : ∀ p ∉ xs, q.links.prev p = none ∧ q.links.next p = none

@[simp]
theorem links_setPrev : (q.setPrev node b).links = q.links.setPrev node b := by
  ext p : 2 <;> by_cases hp : p = node <;> simp_all [links, setPrev, Links.setPrev]

@[simp]
theorem links_setNext : (q.setNext node b).links = q.links.setNext node b := by
  ext p : 2 <;> by_cases hp : p = node <;> simp_all [links, setNext, Links.setNext]

theorem links_next : q.links.next p = (q.heap p).next :=
  rfl

theorem queueDel_links : (q.queueDel node).links = q.links.unlink node := by
  have hs : ∀ q' : PriorityQueue τ, ∀ f l s,
      ({ q' with firstNode := f, lastNode := l, size := s } : PriorityQueue τ).links = q'.links :=
    fun _ _ _ _ => rfl
  have hp : q.links.prev node = (q.heap node).prev := rfl
  simp only [queueDel, hs, links_setNext, links_setPrev, Links.unlink, hp, links_next]
  cases (q.heap node).prev <;> cases (q.heap node).next <;>
    simp only [Links.setNext?, Links.setPrev?, links_setNext, links_setPrev]

theorem queueDel_agrees : Agrees q (q.queueDel node) := by
  have h : ∀ q₁ : PriorityQueue τ, ∀ f l s, Agrees q q₁ →
      Agrees q { q₁ with firstNode := f, lastNode := l, size := s } :=
    fun _ _ _ _ h => ⟨h.alloc, h.cbid, h.endTime, h.timeOutCb⟩
  refine h _ _ _ _ (Agrees.setNext (Agrees.setPrev ?_))
  cases (q.heap node).prev <;> cases (q.heap node).next <;>
    simp only <;> first
      | exact .refl | exact Agrees.refl.setNext | exact Agrees.refl.setPrev
      | exact Agrees.refl.setNext.setPrev

theorem queueDel_alloc : (q.queueDel node).alloc = q.alloc :=
  queueDel_agrees.alloc

theorem queueDel_firstNode :
    (q.queueDel node).firstNode =
      if q.firstNode = some node then (q.heap node).next else q.firstNode := by
  simp only [queueDel]
  cases (q.heap node).prev <;> cases (q.heap node).next <;> rfl

theorem queueDel_lastNode :
    (q.queueDel node).lastNode =
      if q.lastNode = some node then (q.heap node).prev else q.lastNode := by
  simp only [queueDel]
  cases (q.heap node).prev <;> cases (q.heap node).next <;> rfl

namespace Represents

-- A node that is not queued is linked to nothing, so its removal does not reach any other node.
theorem queueDel_of_not_mem (h : q.Represents xs) (hn : node ∉ xs) :
    (q.queueDel node).Represents xs := by
  have ⟨hp, hs⟩ := h.detached node hn
  have hl : (q.queueDel node).links = q.links := by
    rw [queueDel_links, Links.unlink, hp, hs]
    ext p : 2 <;> by_cases he : p = node <;> simp_all [Links.setNext?, Links.setPrev?, Links.setPrev,
      Links.setNext]
  have hf : q.firstNode ≠ some node := fun hf => hn <| List.mem_of_mem_head? (h.first ▸ hf)
  have hb : q.lastNode ≠ some node := fun hb => hn <| List.mem_of_mem_getLast? (h.last ▸ hb)
  exact {
    first    := by rw [queueDel_firstNode, if_neg hf, h.first]
    last     := by rw [queueDel_lastNode, if_neg hb, h.last]
    linked   := hl ▸ h.linked
    nodup    := h.nodup
    bound    := by simpa [queueDel_alloc] using h.bound
    detached := hl ▸ h.detached
  }

theorem prev_eq (h : q.Represents (xs ++ node :: ys)) : (q.heap node).prev = xs.getLast? :=
  h.linked.prev_eq.trans (Option.or_none ..)

theorem queueDel_of_mem (h : q.Represents (xs ++ node :: ys)) :
    (q.queueDel node).Represents (xs ++ ys) := by
  have ⟨hx, hy⟩ := Links.not_mem_of_nodup_append_cons h.nodup
  have hp : (q.heap node).prev = xs.getLast? := h.prev_eq
  have hn : (q.heap node).next = ys.head? := by simpa [links_next] using h.linked.next_eq
  constructor
  case first =>
    rw [queueDel_firstNode, hn, h.first]
    cases xs
    case nil       => simp
    case cons x xs => simpa using fun he => absurd he.symm (List.ne_of_not_mem_cons hx)
  case last =>
    rw [queueDel_lastNode, hp, h.last]
    obtain rfl | ⟨ys, y, rfl⟩ := ys.eq_nil_or_concat
    · simp
    · have hy : y ≠ node := fun he => hy (by simp [he])
      simp [hy, List.getLast?_append, List.getLast?_cons]
  case linked => exact queueDel_links ▸ h.linked.unlink h.nodup
  case nodup  => exact h.nodup.sublist (by simp)
  case bound  =>
    intro p hp
    rw [queueDel_alloc]
    exact h.bound p (by simp_all; tauto)
  case detached =>
    intro p hm
    rw [queueDel_links]
    by_cases he : p = node
    case pos => exact he ▸ Links.unlink_self
    case neg =>
      have hxs : p ∉ xs ∧ p ∉ ys := by simpa using hm
      have ⟨h₁, h₂⟩ := Links.unlink_of_ne (l := q.links) he
        (fun hc => hxs.1 <| List.mem_of_mem_getLast? (hp ▸ hc))
        (fun hc => hxs.2 <| List.mem_of_mem_head? (hn ▸ hc))
      rw [h₁, h₂]
      exact h.detached p (by simp [he, hxs])

-- The specification of `queueDel`, for a node that is queued as well as for one that is not.
theorem queueDel (h : q.Represents xs) (node : Ptr) : (q.queueDel node).Represents (xs.erase node) := by
  by_cases hn : node ∈ xs
  case pos =>
    obtain ⟨as, bs, rfl⟩ := List.append_of_mem hn
    have ⟨ha, _⟩ := Links.not_mem_of_nodup_append_cons h.nodup
    rw [List.erase_append_right _ ha, List.erase_cons_head]
    exact h.queueDel_of_mem
  case neg =>
    rw [List.erase_of_not_mem hn]
    exact h.queueDel_of_not_mem hn

-- A node that is not queued is put behind a queued one.
theorem linkAfter (h : q.Represents (xs ++ cur :: ys)) (hn : node ∉ xs ++ cur :: ys)
    (hb : node < q.alloc) (ha : q'.alloc = q.alloc) (hl : q'.links = q.links.linkAfter cur node)
    (hf : q'.firstNode = q.firstNode) (he : q'.lastNode = (node :: ys).getLast?) :
    q'.Represents (xs ++ cur :: node :: ys) := by
  have hc : q.links.next cur = ys.head? := by simpa using h.linked.next_eq
  constructor
  case first    => rw [hf, h.first]; cases xs <;> rfl
  case last     => simp [he, List.getLast?_append, List.getLast?_cons]
  case linked   => exact hl ▸ h.linked.linkAfter h.nodup hn
  case nodup    =>
    rw [List.append_cons, List.nodup_middle, ← List.append_cons]
    exact List.nodup_cons.mpr ⟨hn, h.nodup⟩
  case bound    =>
    intro p hp
    rw [ha]
    obtain rfl | hp : p = node ∨ p ∈ xs ++ cur :: ys := by simp_all; tauto
    · exact hb
    · exact h.bound p hp
  case detached =>
    intro p hp
    have ⟨hx, hpc, hpn, hy⟩ : p ∉ xs ∧ p ≠ cur ∧ p ≠ node ∧ p ∉ ys := by simpa using hp
    have ⟨h₁, h₂⟩ := Links.linkAfter_of_ne (l := q.links) hpn hpc
      (fun h => hy <| List.mem_of_mem_head? (hc ▸ h))
    rw [hl, h₁, h₂]
    exact h.detached p (by simp [hx, hpc, hy])

end Represents

-- The order in which `queueAdd` keeps the nodes behind the first one.
def NotBefore (q : PriorityQueue τ) (a b : Ptr) : Prop :=
  (q.heap a).endTime ≥ (q.heap b).endTime

instance : DecidableRel q.NotBefore :=
  fun _ _ => inferInstanceAs (Decidable (_ ≥ _))

instance : IsTrans Ptr q.NotBefore :=
  ⟨fun _ _ _ h₁ h₂ => le_trans h₂ h₁⟩

instance : Std.Total q.NotBefore :=
  ⟨fun _ _ => le_total _ _⟩

-- The loop finds the place of the node among those behind `cur`. The induction is on these.
theorem queueAdd.loop_spec (h : q.Represents (xs ++ cur :: ys)) (hn : node ∉ xs ++ cur :: ys)
    (hb : node < q.alloc) (hf : ys.length < fuel) :
    ∃ q', queueAdd.loop node q fuel cur = some q' ∧ Agrees q q' ∧
      q'.Represents (xs ++ cur :: ys.orderedInsert q.NotBefore node) := by
  obtain ⟨fuel, rfl⟩ : ∃ f, fuel = f + 1 := ⟨fuel - 1, by omega⟩
  have hc : (q.heap cur).next = ys.head? := by simpa [links_next] using h.linked.next_eq
  have hnc : node ≠ cur := fun he => hn (by simp [he])
  induction ys generalizing xs cur fuel
  case nil =>
    rw [List.head?_nil] at hc
    refine ⟨_, by rw [loop, hc], ?_, ?_⟩
    · have ha : Agrees q ((q.setNext cur node).setPrev node cur) := Agrees.refl.setNext.setPrev
      exact ⟨ha.alloc, ha.cbid, ha.endTime, ha.timeOutCb⟩
    · refine h.linkAfter hn hb rfl ?_ rfl rfl
      -- The code leaves the `next` of the new last node alone, which is nil.
      have hd : q.links.next node = none := (h.detached node hn).2
      have hs : ∀ q' : PriorityQueue τ, ∀ l,
          ({ q' with lastNode := l } : PriorityQueue τ).links = q'.links := fun _ _ => rfl
      rw [hs, links_setPrev, links_setNext, Links.linkAfter, links_next, hc]
      ext p : 2 <;> by_cases he : p = node <;>
        simp_all [Links.setPrev?, Links.setPrev, Links.setNext]
  case cons y ys hi =>
    rw [List.head?_cons] at hc
    rw [loop, hc]
    by_cases hy : q.NotBefore node y
    case pos =>
      refine ⟨_, if_pos hy, Agrees.refl.setNext.setPrev.setNext.setPrev, ?_⟩
      rw [List.orderedInsert_cons, if_pos hy]
      refine h.linkAfter hn hb rfl ?_ rfl ?_
      · simp [Links.linkAfter, links_next, hc, Links.setPrev?]
      · exact h.last.trans (by simp [List.getLast?_append, List.getLast?_cons])
    case neg =>
      rw [List.append_cons] at h hn
      obtain ⟨q', h₁, h₂, h₃⟩ := hi h hn (fuel - 1) (by simp at hf; omega)
        (by simpa [links_next] using h.linked.next_eq) (fun he => hn (by simp [he]))
      rw [Nat.sub_add_cancel (by simp at hf; omega)] at h₁
      refine ⟨q', (if_neg hy).trans h₁, h₂, ?_⟩
      rw [List.orderedInsert_cons, if_neg hy]
      simpa using h₃

-- The queue as `queueAdd` orders it: the first node stays in front, whatever is added.
def added (q : PriorityQueue τ) (node : Ptr) : List Ptr → List Ptr
  | []      => [node]
  | x :: xs => x :: xs.orderedInsert q.NotBefore node

theorem Represents.length_le (h : q.Represents xs) : xs.length ≤ q.alloc := by
  have hs : xs ⊆ List.range q.alloc := fun p hp => List.mem_range.mpr (h.bound p hp)
  simpa using (List.subperm_of_subset h.nodup hs).length_le

-- The specification of `queueAdd`.
theorem Represents.queueAdd (h : q.Represents xs) (hn : node ∉ xs) (hb : node < q.alloc) :
    ∃ q', q.queueAdd node = some q' ∧ Agrees q q' ∧ q'.Represents (q.added node xs) := by
  cases xs
  case nil =>
    have hf : q.firstNode = none := h.first
    have ha : q.queueAdd node =
        some { q with firstNode := node, lastNode := node, size := q.size + 1 } := by
      simp only [PriorityQueue.queueAdd, hf]
    refine ⟨_, ha, ⟨rfl, fun _ => rfl, fun _ => rfl, fun _ => rfl⟩, ?_⟩
    have ⟨hp, hs⟩ := h.detached node hn
    exact {
      first    := rfl
      last     := rfl
      linked   := ⟨hp, hs, trivial⟩
      nodup    := List.nodup_singleton node
      bound    := by simpa [added] using hb
      detached := fun p _ => h.detached p (by simp)
    }
  case cons x xs =>
    have hf : q.firstNode = some x := h.first
    have h' : ({ q with size := q.size + 1 } : PriorityQueue τ).Represents ([] ++ x :: xs) :=
      { h with }
    have ⟨q', h₁, h₂, h₃⟩ := queueAdd.loop_spec h' hn hb h.length_le
    refine ⟨q', by simpa only [PriorityQueue.queueAdd, hf] using h₁, ?_, h₃⟩
    exact ⟨h₂.alloc, h₂.cbid, h₂.endTime, h₂.timeOutCb⟩

variable {t : Ticking β τ}

-- A scan handles the given nodes one after the other, whatever their links are.
def Ticking.scan (t : Ticking β τ) (nodes : List Ptr) : Ticking β τ :=
  nodes.foldl Ticking.expire t

theorem Ticking.expire_agrees (h : Agrees t.queue q') :
    ({ t with queue := q' } : Ticking β τ).expire p = { t.expire p with queue := q' } := by
  simp [Ticking.expire, h.cbid, h.timeOutCb]

theorem Ticking.scan_agrees (h : Agrees t.queue q') :
    ({ t with queue := q' } : Ticking β τ).scan xs = { t.scan xs with queue := q' } := by
  induction xs generalizing t
  case nil          => rfl
  case cons x xs hi =>
    have h' : Agrees (t.expire x).queue q' := h
    simpa [scan, expire_agrees h] using hi h'

def overdue (q : PriorityQueue τ) (now : Int) (p : Ptr) : Bool :=
  (q.heap p).endTime ≤ now

theorem Agrees.overdue_eq (h : Agrees q q') : q'.overdue now = q.overdue now := by
  funext p
  simp [overdue, h.endTime]

-- The walk handles the overdue nodes at the end of the queue and removes these. The induction goes
-- along the walk, from the last node of the queue to the first.
theorem priorityQueueTick.loop_spec (h : t.queue.Represents xs) (hf : xs.length ≤ fuel) :
    ∃ q', Agrees t.queue q' ∧ q'.Represents (xs.rdropWhile (t.queue.overdue now)) ∧
      priorityQueueTick.loop now fuel xs.getLast? t =
        some { t.scan (xs.rtakeWhile (t.queue.overdue now)).reverse with queue := q' } := by
  induction xs using List.reverseRecOn generalizing t fuel
  case nil => exact ⟨t.queue, .refl, by simpa using h, by simp [loop, Ticking.scan]⟩
  case append_singleton xs x hi =>
    obtain ⟨fuel, rfl⟩ : ∃ f, fuel = f + 1 := ⟨fuel - 1, by simp at hf; omega⟩
    rw [List.getLast?_concat, loop, h.prev_eq]
    by_cases ho : t.queue.overdue now x
    case pos =>
      have hd : (t.queue.queueDel x).Represents xs := by simpa using h.queueDel_of_mem
      have hf : xs.length ≤ fuel := by simpa using hf
      have ⟨q', h₁, h₂, h₃⟩ :=
        hi (t := ⟨t.queue.queueDel x, (t.expire x).gCbMap, (t.expire x).called⟩) hd hf
      have ha : Agrees (t.expire x).queue (t.queue.queueDel x) := queueDel_agrees
      refine ⟨q', queueDel_agrees.trans h₁, ?_, ?_⟩
      · rw [List.rdropWhile_concat_pos _ _ _ ho]
        simpa only [queueDel_agrees.overdue_eq] using h₂
      · rw [List.rtakeWhile_concat_pos _ _ _ ho, List.reverse_append]
        simp only [queueDel_agrees.overdue_eq, Ticking.scan_agrees ha] at h₃
        exact (if_pos <| of_decide_eq_true ho).trans h₃
    case neg =>
      refine ⟨t.queue, .refl, ?_, ?_⟩
      · rwa [List.rdropWhile_concat_neg _ _ _ ho]
      · rw [List.rtakeWhile_concat_neg _ _ _ ho]
        exact if_neg fun he => ho <| decide_eq_true he

-- The specification of `priorityQueueTick`.
theorem Represents.tick (h : t.queue.Represents xs) (now : Int) :
    ∃ q', Agrees t.queue q' ∧ q'.Represents (xs.rdropWhile (t.queue.overdue now)) ∧
      priorityQueueTick now t =
        some { t.scan (xs.rtakeWhile (t.queue.overdue now)).reverse with queue := q' } := by
  rw [PriorityQueue.priorityQueueTick, h.last]
  exact priorityQueueTick.loop_spec h h.length_le

end PriorityQueue
