import Microservice.Framework.Theorems.PriorityQueue

namespace List

variable {α : Type*} {p : α → Bool} {l : List α}

-- Dropping from the end agrees with filtering iff nothing that is to be dropped stands in front of
-- something that is to be kept.
theorem rdropWhile_eq_filter_iff :
    l.rdropWhile p = l.filter (!p ·) ↔ l.Pairwise (fun a b => p a → p b) := by
  induction l using List.reverseRecOn
  case nil => simp
  case append_singleton l x hi =>
    by_cases hx : p x
    case pos => simp [rdropWhile_concat_pos _ _ _ hx, hx, hi, pairwise_append]
    case neg =>
      have hl : l ++ [x] = (l ++ [x]).filter (!p ·) ↔ ∀ a ∈ l, ¬p a := by
        rw [eq_comm, filter_eq_self]
        simp [or_imp, forall_and, hx]
      rw [rdropWhile_concat_neg _ _ _ hx, hl, pairwise_append]
      refine ⟨fun h => ⟨?_, by simp, fun a ha _ _ hp => absurd hp <| h a ha⟩, ?_⟩
      · exact pairwise_of_forall_mem_list fun a ha _ _ hp => absurd hp <| h a ha
      · exact fun ⟨_, _, h⟩ a ha hp => hx <| h a ha x (by simp) hp

theorem rtakeWhile_eq_filter (h : l.Pairwise (fun a b => p a → p b)) :
    l.rtakeWhile p = l.filter p := by
  induction l using List.reverseRecOn
  case nil => simp
  case append_singleton l x hi =>
    have ⟨h₁, _, h₂⟩ := pairwise_append.mp h
    by_cases hx : p x
    case pos => simp [rtakeWhile_concat_pos _ _ _ hx, hx, hi h₁]
    case neg =>
      rw [rtakeWhile_concat_neg _ _ _ hx]
      have hl : ∀ a ∈ l, ¬p a := fun a ha hp => hx <| h₂ a ha x (by simp) hp
      simp_all

end List

namespace PriorityQueue

variable {β τ : Type*} {q q' : PriorityQueue τ} {t t' : Ticking β τ} {xs ys : List Ptr} {now : Int}

-- The queued nodes in the order of their `next` links.
def nodes.follow (q : PriorityQueue τ) : Nat → Option Ptr → List Ptr
  | _, none            => []
  | 0, some _          => []
  | fuel + 1, some cur => cur :: follow q fuel (q.heap cur).next

def nodes (q : PriorityQueue τ) : List Ptr :=
  nodes.follow q q.alloc q.firstNode

theorem nodes.follow_eq (h : q.links.Linked b xs none) (hf : xs.length ≤ fuel) :
    nodes.follow q fuel xs.head? = xs := by
  induction xs generalizing b fuel
  case nil => simp [follow]
  case cons x xs hi =>
    obtain ⟨fuel, rfl⟩ : ∃ f, fuel = f + 1 := ⟨fuel - 1, by simp at hf; omega⟩
    have ⟨_, hn, hl⟩ := h
    have hn : (q.heap x).next = xs.head? := by simpa [links_next] using hn
    simp [follow, hn, hi hl (by simpa using hf)]

theorem Represents.nodes_eq (h : q.Represents xs) : q.nodes = xs := by
  rw [nodes, h.first]
  exact nodes.follow_eq h.linked h.length_le

-- What a tick is for: it handles the overdue nodes of the whole queue, from the last to the first,
-- and leaves the others in the same order.
structure FullScan (now : Int) (t t' : Ticking β τ) : Prop where
  nodes  : t'.queue.nodes = t.queue.nodes.filter (!t.queue.overdue now ·)
  gCbMap : t'.gCbMap = (t.scan (t.queue.nodes.filter (t.queue.overdue now)).reverse).gCbMap
  called : t'.called = (t.scan (t.queue.nodes.filter (t.queue.overdue now)).reverse).called

theorem Represents.fullScan_iff (h : t.queue.Represents xs) (now : Int) :
    ∃ t', priorityQueueTick now t = some t' ∧
      (FullScan now t t' ↔ xs.Pairwise (fun a b => t.queue.overdue now a → t.queue.overdue now b)) := by
  have ⟨q', _, hr, ht⟩ := h.tick now
  refine ⟨_, ht, fun hs => ?_, fun hp => ?_⟩
  · rw [← List.rdropWhile_eq_filter_iff, ← hr.nodes_eq, ← h.nodes_eq]
    exact hs.nodes
  · constructor
    case nodes  => rw [hr.nodes_eq, h.nodes_eq, List.rdropWhile_eq_filter_iff.mpr hp]
    case gCbMap => rw [h.nodes_eq, List.rtakeWhile_eq_filter hp]
    case called => rw [h.nodes_eq, List.rtakeWhile_eq_filter hp]

inductive QueueOp (τ : Type*)
  | add (cbid : UInt32) (endTime : Int) (timeOutCb : Option τ)
  | del (node : Ptr)
  | tick (now : Int)

-- Any use of the queue. Nodes are added once, right after they are made.
inductive QueueStep (β : Type*) : PriorityQueue τ → QueueOp τ → PriorityQueue τ → Prop
  | add {q q' : PriorityQueue τ} :
    (q.new cbid endTime timeOutCb).queueAdd q.alloc = some q' →
    QueueStep β q (.add cbid endTime timeOutCb) q'
  | del {q : PriorityQueue τ} :
    QueueStep β q (.del node) (q.queueDel node)
  | tick {now : Int} {t t' : Ticking β τ} :
    priorityQueueTick now t = some t' → QueueStep β t.queue (.tick now) t'.queue

theorem new_heap_of_ne (h : p ≠ q.alloc) : (q.new cbid endTime timeOutCb).heap p = q.heap p :=
  Function.update_of_ne h ..

theorem Represents.alloc_not_mem (h : q.Represents xs) : q.alloc ∉ xs :=
  fun hm => Nat.lt_irrefl _ <| h.bound _ hm

theorem Represents.new (h : q.Represents xs) (cbid : UInt32) (endTime : Int)
    (timeOutCb : Option τ) : (q.new cbid endTime timeOutCb).Represents xs := by
  have hl : (q.new cbid endTime timeOutCb).links = q.links := by
    have ⟨hp, hn⟩ := h.detached _ h.alloc_not_mem
    ext p : 2 <;> by_cases he : p = q.alloc <;> simp_all [links, PriorityQueue.new]
  exact {
    first    := h.first
    last     := h.last
    linked   := hl ▸ h.linked
    nodup    := h.nodup
    bound    := fun p hp => Nat.lt_succ_of_lt <| h.bound p hp
    detached := hl ▸ h.detached
  }

-- All that a use of the queue can do: nodes leave, or one new node is added.
theorem QueueStep.represents (h : QueueStep β q op q') (hr : q.Represents xs) :
    ∃ xs', q'.Represents xs' ∧
      ((xs'.Sublist xs ∧ Agrees q q') ∨
       ∃ cbid endTime timeOutCb, op = .add cbid endTime timeOutCb ∧
        Agrees (q.new cbid endTime timeOutCb) q' ∧
        xs' = (q.new cbid endTime timeOutCb).added q.alloc xs) := by
  cases h
  case add cbid endTime timeOutCb ha =>
    have hr' := hr.new cbid endTime timeOutCb
    have ⟨q'', h₁, h₂, h₃⟩ := hr'.queueAdd hr.alloc_not_mem (Nat.lt_succ_self _)
    obtain rfl : q'' = q' := Option.some.inj <| h₁.symm.trans ha
    exact ⟨_, h₃, .inr ⟨_, _, _, rfl, h₂, rfl⟩⟩
  case del node => exact ⟨_, hr.queueDel node, .inl ⟨List.erase_sublist, queueDel_agrees⟩⟩
  case tick now t t' ht =>
    have ⟨q'', h₁, h₂, h₃⟩ := hr.tick now
    obtain rfl := Option.some.inj <| h₃.symm.trans ht
    exact ⟨_, h₂, .inl ⟨(List.rdropWhile_prefix ..).sublist, h₁⟩⟩

theorem Agrees.notBefore_eq (h : Agrees q q') : q'.NotBefore = q.NotBefore := by
  funext a b
  simp [NotBefore, h.endTime]

theorem Represents.new_pairwise (h : q.Represents xs) (hs : ys.Sublist xs)
    (hp : ys.Pairwise q.NotBefore) : ys.Pairwise (q.new cbid endTime timeOutCb).NotBefore := by
  refine hp.imp_of_mem fun ha hb hab => ?_
  have hne : ∀ p ∈ ys, p ≠ q.alloc := fun p hp he => h.alloc_not_mem (he ▸ hs.subset hp)
  simpa [NotBefore, new_heap_of_ne (hne _ ha), new_heap_of_ne (hne _ hb)] using hab

-- Behind the first node the queue is sorted.
def TailSorted (q : PriorityQueue τ) : Prop :=
  ∃ xs, q.Represents xs ∧ xs.tail.Pairwise q.NotBefore

theorem QueueStep.tailSorted (h : QueueStep β q op q') : q.TailSorted → q'.TailSorted := by
  intro ⟨xs, hr, hs⟩
  have ⟨xs', hr', h'⟩ := h.represents hr
  refine ⟨xs', hr', ?_⟩
  obtain ⟨hsub, ha⟩ | ⟨_, _, _, _, ha, rfl⟩ := h'
  · exact ha.notBefore_eq ▸ hs.sublist hsub.tail
  · rw [ha.notBefore_eq]
    cases xs
    case nil       => simp [added]
    case cons x xs => exact (hr.new_pairwise (List.sublist_cons_self ..) hs).orderedInsert _ _

theorem empty_represents : (empty : PriorityQueue τ).Represents [] where
  first    := rfl
  last     := rfl
  linked   := trivial
  nodup    := List.nodup_nil
  bound    := by simp
  detached := fun _ _ => ⟨rfl, rfl⟩

theorem tailSorted_of_exec (h : Exec (QueueStep β) (empty : PriorityQueue τ) ops q) : q.TailSorted :=
  h.preserves ⟨[], empty_represents, by simp⟩ (fun _ _ _ hs h => h.tailSorted hs)

-- A first node that is overdue is followed by one that is overdue too.
def FrontInOrder (q : PriorityQueue τ) (now : Int) : Prop :=
  ∀ first, q.firstNode = some first → ∀ next, (q.heap first).next = some next →
    (q.heap first).endTime ≤ now → (q.heap next).endTime ≤ now

theorem Represents.frontInOrder_iff (h : q.Represents xs) (hs : xs.tail.Pairwise q.NotBefore) :
    q.FrontInOrder now ↔ xs.Pairwise (fun a b => q.overdue now a → q.overdue now b) := by
  -- Among sorted nodes those that are overdue stand at the end.
  have hp : ∀ a b, q.NotBefore a b → q.overdue now a → q.overdue now b := fun a b hab ha =>
    decide_eq_true <| le_trans hab (of_decide_eq_true ha)
  obtain _ | ⟨x, _ | ⟨y, ys⟩⟩ := xs
  case nil       => simp [FrontInOrder, h.first]
  case cons.nil  =>
    have hn : (q.heap x).next = none := h.linked.2.1
    simp [FrontInOrder, h.first, hn]
  case cons.cons =>
    have hn : (q.heap x).next = some y := h.linked.2.1
    have hy := (List.pairwise_cons.mp hs).1
    have hf : q.FrontInOrder now ↔ (q.overdue now x → q.overdue now y) := by
      simp [FrontInOrder, h.first, hn, overdue]
    rw [hf, List.pairwise_cons]
    refine ⟨fun hxy => ⟨fun b hb hx => ?_, hs.imp (hp _ _)⟩, fun h => h.1 y (by simp)⟩
    obtain rfl | hb := List.mem_cons.mp hb
    · exact hxy hx
    · exact hp y b (hy b hb) (hxy hx)

-- A node is not due later than the node that is in front of the queue when it is added.
def QueueOp.InOrder (q : PriorityQueue τ) : QueueOp τ → Prop
  | .add _ endTime _ => ∀ first, q.firstNode = some first → endTime ≤ (q.heap first).endTime
  | _                => True

def Sorted (q : PriorityQueue τ) : Prop :=
  ∃ xs, q.Represents xs ∧ xs.Pairwise q.NotBefore

theorem QueueStep.sorted (h : QueueStep β q op q') (ho : op.InOrder q) : q.Sorted → q'.Sorted := by
  rintro ⟨xs, hr, hs⟩
  obtain ⟨xs', hr', h'⟩ := h.represents hr
  refine ⟨xs', hr', ?_⟩
  obtain ⟨hsub, ha⟩ | ⟨cbid, endTime, timeOutCb, rfl, ha, rfl⟩ := h'
  · exact ha.notBefore_eq ▸ hs.sublist hsub
  · rw [ha.notBefore_eq]
    cases xs
    case nil => simp [added]
    case cons x xs =>
      have hs' : (x :: xs).Pairwise (q.new cbid endTime timeOutCb).NotBefore :=
        hr.new_pairwise (.refl _) hs
      obtain ⟨hx, hxs⟩ := List.pairwise_cons.mp hs'
      have hne : x ≠ q.alloc := fun he => hr.alloc_not_mem (by simp [he])
      refine List.pairwise_cons.mpr ⟨fun b hb => ?_, hxs.orderedInsert _ _⟩
      obtain rfl | hb := (List.mem_orderedInsert _).mp hb
      · have hle := ho x hr.first
        rw [NotBefore, new_heap_of_ne hne]
        simpa [PriorityQueue.new] using hle
      · exact hx b hb

theorem sorted_of_exec
    (h : Exec (fun q op q' => QueueStep β q op q' ∧ op.InOrder q) (empty : PriorityQueue τ) ops q) :
    q.Sorted :=
  h.preserves ⟨[], empty_represents, .nil⟩ (fun _ _ _ hs ⟨h, ho⟩ => h.sorted ho hs)

theorem Sorted.frontInOrder (h : q.Sorted) : q.FrontInOrder now := by
  have ⟨_, hr, hs⟩ := h
  refine (hr.frontInOrder_iff (hs.sublist (List.tail_sublist _))).mpr (hs.imp fun hab ha => ?_)
  exact decide_eq_true <| le_trans hab (of_decide_eq_true ha)

theorem TailSorted.fullScan_iff (h : q.TailSorted) (now : Int) (gCbMap : Partial UInt32 (β × Ptr)) :
    ∃ t', priorityQueueTick now ⟨q, gCbMap, []⟩ = some t' ∧
      (FullScan now ⟨q, gCbMap, []⟩ t' ↔ q.FrontInOrder now) := by
  have ⟨_, hr, hs⟩ := h
  have ⟨t', ht, hf⟩ := Represents.fullScan_iff (t := ⟨q, gCbMap, []⟩) hr now
  exact ⟨t', ht, hf.trans (hr.frontInOrder_iff hs).symm⟩

-- In every queue that can come about, a tick agrees with a full scan iff the first node does not
-- hide behind a successor that is due later. No such queue comes about as long as no node is added
-- that is due later than the first one.
theorem tick_fullScan_iff (β τ : Type*) :
    (∀ ops (q : PriorityQueue τ), Exec (QueueStep β) empty ops q →
      ∀ now (gCbMap : Partial UInt32 (β × Ptr)), ∃ t',
        priorityQueueTick now ⟨q, gCbMap, []⟩ = some t' ∧
        (FullScan now ⟨q, gCbMap, []⟩ t' ↔ q.FrontInOrder now)) ∧
    (∀ ops (q : PriorityQueue τ),
      Exec (fun q op q' => QueueStep β q op q' ∧ op.InOrder q) empty ops q →
      ∀ now (gCbMap : Partial UInt32 (β × Ptr)), ∃ t',
        priorityQueueTick now ⟨q, gCbMap, []⟩ = some t' ∧ FullScan now ⟨q, gCbMap, []⟩ t') := by
  refine ⟨fun ops q h now gCbMap => (tailSorted_of_exec h).fullScan_iff now gCbMap, ?_⟩
  intro ops q h now gCbMap
  have hq : Exec (QueueStep β) empty ops q := h.mono (fun _ _ _ h => h.1)
  have ⟨t', ht, hf⟩ := (tailSorted_of_exec hq).fullScan_iff now gCbMap
  exact ⟨t', ht, hf.mpr (sorted_of_exec h).frontInOrder⟩

-- `gCbMap` with two callbacks in it.
def registered : Partial UInt32 (Unit × Ptr) :=
  (Partial.insert (fun _ => none) 1 ((), 0)).insert 2 ((), 1)

-- Two callbacks are registered, the second one is due first. The tick at 10 calls its timeout callback and
-- leaves the other one registered and queued.
theorem tick_fullScan_of_in_order :
    ∃ ops q t', Exec (fun q op q' => QueueStep Unit q op q' ∧ op.InOrder q)
        (empty : PriorityQueue Nat) ops q ∧
      priorityQueueTick 10 ⟨q, registered, []⟩ = some t' ∧ FullScan 10 ⟨q, registered, []⟩ t' ∧
      q.nodes = [0, 1] ∧ t'.queue.nodes = [0] ∧ t'.called = [2] ∧
      t'.gCbMap 1 = some ((), 0) ∧ t'.gCbMap 2 = none := by
  have h : Exec (fun q op q' => QueueStep Unit q op q' ∧ op.InOrder q) (empty : PriorityQueue Nat)
      [.add 1 20 (some 1), .add 2 10 (some 2)] _ :=
    .snoc (.snoc .refl ⟨.add rfl, by simp [QueueOp.InOrder, empty]⟩)
      ⟨.add rfl, by simp [QueueOp.InOrder, empty, PriorityQueue.new]⟩
  have ⟨t', ht, hf⟩ := (tick_fullScan_iff Unit Nat).2 _ _ h 10 registered
  refine ⟨_, _, t', h, ht, hf, by decide, ?_⟩
  cases ht
  exact ⟨by decide, by decide, by decide, by decide⟩

-- A callback that is due at 10 stays in front of one that is due at 20, so the tick at 10 stops
-- before it gets there.
theorem tick_misses_first :
    ∃ ops q t', Exec (QueueStep Unit) (empty : PriorityQueue Unit) ops q ∧
      priorityQueueTick 10 ⟨q, fun _ => none, []⟩ = some t' ∧
      q.nodes = [0, 1] ∧ (q.heap 0).endTime = 10 ∧ (q.heap 1).endTime = 20 ∧ t'.queue.nodes = [0, 1] ∧
      ¬FullScan 10 (⟨q, fun _ => none, []⟩ : Ticking Unit Unit) t' := by
  refine ⟨[.add 1 10 none, .add 2 20 none], _, _,
    .snoc (.snoc .refl (.add rfl)) (.add rfl), rfl, by decide, by decide, by decide, by decide, ?_⟩
  intro h
  exact absurd h.nodes (by decide)

end PriorityQueue
