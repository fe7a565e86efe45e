import Microservice.Framework.Theorems.CallbackMgr

namespace PriorityQueue

variable {τ : Type*} {q : PriorityQueue τ} {xs : List Ptr} {p : Ptr}

-- The nodes that are reached from `firstNode` over `next`.
def Reachable (q : PriorityQueue τ) (p : Ptr) : Prop :=
  ∃ first, q.firstNode = some first ∧ q.links.Reaches first p

-- The nodes that are reached form a finite list without duplicates that is linked up in both
-- directions.
structure DoublyLinked (q : PriorityQueue τ) : Prop where
  finite  : ∀ p, q.Reachable p ↔ p ∈ q.nodes
  nodup   : q.nodes.Nodup
  first   : q.firstNode = q.nodes.head?
  last    : q.lastNode = q.nodes.getLast?
  inverse : ∀ p p', (q.heap p).next = some p' ↔ (q.heap p').prev = some p
  start   : ∀ p, q.firstNode = some p → (q.heap p).prev = none
  stop    : ∀ p, q.lastNode = some p → (q.heap p).next = none
  empty   : q.firstNode = none ↔ q.lastNode = none

theorem Represents.doublyLinked (h : q.Represents xs) : q.DoublyLinked := by
  constructor
  case finite =>
    intro p
    rw [h.nodes_eq, h.linked.mem_iff_reaches, ← h.first, Reachable]
  case nodup => exact h.nodes_eq ▸ h.nodup
  case first => exact h.nodes_eq ▸ h.first
  case last  => exact h.nodes_eq ▸ h.last
  case inverse =>
    intro p p'
    refine ⟨fun hn => ?_, fun hp => ?_⟩
    · by_cases hx : p ∈ xs
      case pos => exact (h.linked.prev_of_next hx hn).2
      case neg => simp [← links_next, (h.detached p hx).2] at hn
    · by_cases hx : p' ∈ xs
      case pos => exact (h.linked.next_of_prev hx hp).2
      case neg => exact nomatch (h.detached p' hx).1.symm.trans hp
  case start =>
    intro p hp
    obtain ⟨ys, rfl⟩ := List.head?_eq_some_iff.mp (h.first.symm.trans hp)
    exact h.linked.1
  case stop =>
    intro p hp
    obtain ⟨ys, rfl⟩ := List.getLast?_eq_some_iff.mp (h.last.symm.trans hp)
    simpa [links_next] using h.linked.next_eq
  case empty => rw [h.first, h.last, List.head?_eq_none_iff, List.getLast?_eq_none_iff]

end PriorityQueue

namespace Mgr

-- The node that is about to be taken out of the queue.
def leaving : Mgr → List Ptr
  | .del node | .call _ node _ | .unlink _ node _ => [node]
  | _                                             => []

end Mgr

namespace CallbackMgr

open PriorityQueue

variable {β τ : Type*} {m m' : CallbackMgr β τ} {es : List (Event β τ)} {xs : List Ptr} {p : Ptr}

-- The nodes that are still to be taken out of the queue, also if they are not in it any more, or not
-- yet.
def leaving (m : CallbackMgr β τ) : List Ptr :=
  m.mgr.leaving ++ m.chQueueDel

-- The node of each entry is in the queue or on the way to it, and is not to be taken out.
structure Tracked (m : CallbackMgr β τ) : Prop where
  entry : ∀ cbid cbs p, m.gCbMap cbid = some (cbs, p) →
    (m.queue.heap p).cbid = cbid ∧ (p ∈ m.queue.nodes ∨ p ∈ m.adding)
  left  : ∀ p ∈ m.leaving, p < m.queue.alloc ∧ ∀ cbid cbs, m.gCbMap cbid ≠ some (cbs, p)

theorem init_tracked : (init : CallbackMgr β τ).Tracked where
  entry := by simp [init]
  left  := by simp [init, leaving, Mgr.leaving]

theorem Queued.bound (h : m.Queued xs) (hp : p ∈ m.queue.nodes ∨ p ∈ m.adding) :
    p < m.queue.alloc := by
  obtain hp | hp := hp
  · exact h.queue.bound p (h.queue.nodes_eq ▸ hp)
  · exact (h.fresh p hp).2

theorem Tracked.addCallBack (ht : m.Tracked) (h : m.Queued xs) (cbid : UInt32) (cbs : β)
    (waitTime : Int8) (now : Int) (timeOutCb : Option τ) :
    (m.addCallBack cbid cbs waitTime now timeOutCb).Tracked := by
  have hn : (m.addCallBack cbid cbs waitTime now timeOutCb).queue.nodes = m.queue.nodes :=
    (h.addCallBack ..).queue.nodes_eq.trans h.queue.nodes_eq.symm
  have ha : (m.addCallBack cbid cbs waitTime now timeOutCb).adding = m.adding ++ [m.queue.alloc] :=
    (List.append_assoc ..).symm
  constructor
  case entry =>
    intro c cbs' p hg
    rw [hn, ha]
    obtain ⟨rfl, he⟩ | ⟨_, hg⟩ := Partial.insert_eq_some_iff.mp hg
    · obtain ⟨rfl, rfl⟩ := Prod.mk.inj he
      exact ⟨by simp [CallbackMgr.addCallBack, new], by simp⟩
    · obtain ⟨hc, hp⟩ := ht.entry c cbs' p hg
      have hb := h.bound hp
      refine ⟨?_, hp.imp_right <| List.mem_append_left _⟩
      rw [CallbackMgr.addCallBack, new_heap_of_ne (Nat.ne_of_lt hb), hc]
  case left =>
    intro p hp
    obtain ⟨hb, hg⟩ := ht.left p hp
    refine ⟨Nat.lt_succ_of_lt hb, fun c cbs' hc => ?_⟩
    -- The new entry has a new node, which nobody takes out.
    obtain ⟨_, he⟩ | ⟨_, hc⟩ := Partial.insert_eq_some_iff.mp hc
    · exact absurd (Prod.mk.inj he).2 (Nat.ne_of_gt hb)
    · exact hg c cbs' hc

theorem Tracked.getCallBack (ht : m.Tracked) (h : m.Queued xs) (cbid : UInt32) :
    (m.getCallBack cbid).Tracked := by
  cases hg : m.gCbMap cbid
  case none => rwa [getCallBack_of_none hg]
  case some e =>
    rw [getCallBack_of_some hg]
    have ⟨hc, hp⟩ := ht.entry cbid e.1 e.2 hg
    constructor
    case entry =>
      intro c cbs p hc
      exact ht.entry c cbs p (Partial.erase_eq_some_iff.mp hc).2
    case left =>
      intro p hl
      have hl : p ∈ m.leaving ∨ p = e.2 := by
        simpa [leaving, or_assoc] using hl
      refine ⟨?_, fun c cbs hc' => ?_⟩
      · obtain hl | rfl := hl
        · exact (ht.left p hl).1
        · exact h.bound hp
      · have ⟨hne, hc'⟩ := Partial.erase_eq_some_iff.mp hc'
        obtain hl | rfl := hl
        · exact (ht.left p hl).2 c cbs hc'
        · exact hne ((ht.entry c cbs _ hc').1.symm.trans hc)

-- The goroutine adds the nodes that are handed over, and takes out of the queue only the nodes that
-- are to be taken out.
theorem MgrStep.place (hs : MgrStep m e m') (h : m.Queued xs)
    (hp : p ∈ m.queue.nodes ∨ p ∈ m.adding) (hl : p ∉ m.leaving) :
    p ∈ m'.queue.nodes ∨ p ∈ m'.adding := by
  rw [h.queue.nodes_eq] at hp
  have hd (node : Ptr) (hn : node ∈ m.leaving) (hx : p ∈ xs) : p ∈ (m.queue.queueDel node).nodes := by
    rw [(h.queue.queueDel node).nodes_eq]
    have hne : p ≠ node := fun he => hl (he ▸ hn)
    exact (List.mem_erase_of_ne hne).mpr hx
  cases hs
  case recvAdd node hm hn =>
    have he : (node :: m.chQueueAdd.erase node).Perm m.adding := by
      simpa [adding, hm, Mgr.adding] using (List.perm_cons_erase hn).symm
    exact hp.imp (h.queue.nodes_eq ▸ ·) he.mem_iff.mpr
  case queueAdd q node hm ha =>
    have hc : m.adding = node :: m.chQueueAdd := by simp [adding, hm, Mgr.adding]
    obtain ⟨hn, hb⟩ := h.fresh node (by simp [hc])
    obtain ⟨q', h₁, _, h₃⟩ := h.queue.queueAdd hn hb
    obtain rfl : q' = q := Option.some.inj <| h₁.symm.trans ha
    rw [hc, List.mem_cons] at hp
    rw [h₃.nodes_eq, mem_added]
    exact or_assoc.mpr <| hp.elim (.inr ∘ .inl) (Or.imp_right .inr)
  case queueDel node hm =>
    have ha : m.adding = m.chQueueAdd := by simp [adding, hm, Mgr.adding]
    exact hp.imp (hd node (by simp [leaving, hm, Mgr.leaving])) (ha ▸ ·)
  case unlink cur now prev hm =>
    have ha : m.adding = m.chQueueAdd := by simp [adding, hm, Mgr.adding]
    exact hp.imp (hd cur (by simp [leaving, hm, Mgr.leaving])) (ha ▸ ·)
  case recvDel hm _ | tick hm | finish hm | «break» hm _ | stale hm _ _ | expire hm _ _ | call hm _ =>
    have ha : m.adding = m.chQueueAdd := by simp [adding, hm, Mgr.adding]
    exact hp.imp (h.queue.nodes_eq ▸ ·) (fun hp => List.mem_append_right _ (ha ▸ hp))

-- A node is to be taken out by the goroutine only if the map has no entry for it any more.
theorem MgrStep.left (hs : MgrStep m e m') (h : m.Queued xs) (hp : p ∈ m'.leaving) :
    p ∈ m.leaving ∨ (p ∈ xs ∧ m'.gCbMap (m.queue.heap p).cbid = none) := by
  cases hs
  case recvAdd | queueAdd | tick | finish | «break» => exact .inl (List.mem_append_right _ hp)
  case recvDel node hm hn =>
    have he : (node :: m.chQueueDel.erase node).Perm m.leaving := by
      simpa [leaving, hm, Mgr.leaving] using (List.perm_cons_erase hn).symm
    exact .inl (he.mem_iff.mp hp)
  case queueDel | unlink => exact .inl (List.mem_append_right _ hp)
  case stale cur hm _ hg =>
    obtain ⟨as, bs, rfl, _⟩ := h.visit hm
    obtain rfl | hp := List.mem_cons.mp hp
    · exact .inr ⟨by simp, hg⟩
    · exact .inl (List.mem_append_right _ hp)
  case expire cur hm _ _ =>
    obtain ⟨as, bs, rfl, _⟩ := h.visit hm
    have hp : p = cur ∨ p ∈ m.chQueueDel := by
      revert hp
      simp only [leaving]
      split <;> simp [Mgr.leaving]
    obtain rfl | hp := hp
    · exact .inr ⟨by simp, Partial.erase_self⟩
    · exact .inl (List.mem_append_right _ hp)
  case call hm _ => exact .inl (by simpa [leaving, hm, Mgr.leaving] using hp)

theorem MgrStep.tracked (hs : MgrStep m e m') (h : m.Queued xs) (ht : m.Tracked) : m'.Tracked := by
  have ha := (hs.queued h).1
  constructor
  case entry =>
    intro cbid cbs p hg
    have hg := hs.gCbMap hg
    have ⟨hc, hp⟩ := ht.entry cbid cbs p hg
    exact ⟨(ha.cbid p).trans hc, hs.place h hp fun hl => (ht.left p hl).2 cbid cbs hg⟩
  case left =>
    intro p hp
    obtain hl | ⟨hx, hn⟩ := hs.left h hp
    · have ⟨hb, hg⟩ := ht.left p hl
      exact ⟨ha.alloc ▸ hb, fun cbid cbs hc => hg cbid cbs (hs.gCbMap hc)⟩
    · refine ⟨ha.alloc ▸ h.queue.bound p hx, fun cbid cbs hc => ?_⟩
      have ⟨hid, _⟩ := ht.entry cbid cbs p (hs.gCbMap hc)
      rw [hid, hc] at hn
      cases hn

theorem Step.tracked (hs : Step m ev m') (h : m.Queued xs) (ht : m.Tracked) : m'.Tracked := by
  cases hs
  case add      => exact ht.addCallBack h ..
  case get cbid => exact ht.getCallBack h cbid
  case mgr hs   => exact hs.tracked h ht

theorem tracked_of_exec (h : Exec Step (init : CallbackMgr β τ) es m) : m.Tracked := by
  induction h
  case refl => exact init_tracked
  case snoc h hs hi =>
    have ⟨_, hq⟩ := queued_of_exec h
    exact hs.tracked hq hi

def Event.isMgr : Event β τ → Bool
  | .mgr _ => true
  | _      => false

-- A step of the process while the goroutine is not in its `select`.
def Busy (m : CallbackMgr β τ) (ev : Event β τ) (m' : CallbackMgr β τ) : Prop :=
  m.mgr ≠ .select ∧ Step m ev m'

-- Whatever the other goroutines do meanwhile, there is a bound on the steps that the goroutine can
-- make until it is back in its `select`.
theorem Queued.busy (h : m.Queued xs) (hl : m.mgr.Left xs n) (hb : Exec Busy m es m') :
    es.countP Event.isMgr ≤ n := by
  suffices h : ∃ xs' n', m'.Queued xs' ∧ m'.mgr.Left xs' n' ∧ es.countP Event.isMgr + n' ≤ n by
    obtain ⟨_, _, _, _, hn⟩ := h
    omega
  induction hb
  case refl => exact ⟨xs, n, h, hl, by simp⟩
  case snoc hb hs hi =>
    obtain ⟨xs', n', hq, hl', hn⟩ := hi
    obtain ⟨hm, hs⟩ := hs
    cases hs
    case add => exact ⟨xs', n', hq.addCallBack .., hl', by simpa [Event.isMgr] using hn⟩
    case get cbid =>
      refine ⟨xs', n', hq.getCallBack cbid, ?_, by simpa [Event.isMgr] using hn⟩
      rwa [getCallBack_mgr]
    case mgr hs =>
      have ⟨xs'', n'', hq', hl'', hlt⟩ := hs.closer hq hl' hm
      exact ⟨xs'', n'', hq', hl'', by simp [Event.isMgr]; omega⟩

-- Every pending callback is under timeout control: the queue is a proper list that has the node of
-- each entry in it, unless the node still waits to be handed over or is just being added. All of the
-- loops of the goroutine terminate.
structure Controlled (m : CallbackMgr β τ) : Prop where
  list    : m.queue.DoublyLinked
  entry   : ∀ cbid cbs node, m.gCbMap cbid = some (cbs, node) →
    (m.queue.heap node).cbid = cbid ∧
      (node ∈ m.queue.nodes ∨ node ∈ m.chQueueAdd ∨ m.mgr = .add node)
  add     : ∀ node, m.mgr = .add node → (m.queue.queueAdd node).isSome
  tick    : ∀ now, (priorityQueueTick now ⟨m.queue, m.gCbMap, []⟩).isSome
  bounded : ∃ n, ∀ es m', Exec Busy m es m' → es.countP Event.isMgr ≤ n
  enabled : m.mgr ≠ .select → ∃ e m', MgrStep m e m'

-- The ids need not even be distinct for that.
theorem callback_under_timeout_control (h : Exec Step (init : CallbackMgr β τ) es m) : m.Controlled := by
  have ht := tracked_of_exec h
  obtain ⟨xs, hq⟩ := queued_of_exec h
  constructor
  case list => exact hq.queue.doublyLinked
  case entry =>
    intro cbid cbs node hg
    obtain ⟨hc, hp⟩ := ht.entry cbid cbs node hg
    refine ⟨hc, hp.imp_right fun ha => ?_⟩
    rw [adding, List.mem_append] at ha
    refine ha.symm.imp_right fun hm => ?_
    cases hs : m.mgr <;> simp_all [Mgr.adding]
  case add =>
    intro node hm
    obtain ⟨hn, hb⟩ := hq.fresh node (by simp [adding, hm, Mgr.adding])
    obtain ⟨q, ha, _⟩ := hq.queue.queueAdd hn hb
    simp [ha]
  case tick =>
    intro now
    have hr : (⟨m.queue, m.gCbMap, []⟩ : Ticking β τ).queue.Represents xs := hq.queue
    obtain ⟨q, _, _, ha⟩ := hr.tick now
    simp [ha]
  case bounded =>
    obtain ⟨n, hl⟩ := hq.tick.left
    exact ⟨n, fun es m' hb => hq.busy hl hb⟩
  case enabled => exact hq.enabled

-- A callback is queued. Another one is got back and its node deleted before it is added.
theorem callback_under_timeout_control_early_get :
    ∃ es m, Exec Step (init : CallbackMgr Unit Unit) es m ∧ m.gCbMap 7 = some ((), 0) ∧
      m.queue.nodes = [0] ∧ m.chQueueAdd = [1] ∧ .mgr (.queueDel 1) ∈ es ∧ m.Controlled := by
  have h₁ := Exec.refl.snoc (Step.add (m := (init : CallbackMgr Unit Unit)) 7 () 10 0 (some ()))
  have h₂ := h₁.snoc (.mgr (.recvAdd rfl (List.mem_singleton.mpr rfl)))
  have h₃ := h₂.snoc (.mgr (.queueAdd rfl rfl))
  have h₄ := h₃.snoc (.add 8 () 10 1 none)
  have h₅ := h₄.snoc (.get 8)
  have h₆ := h₅.snoc (.mgr (.recvDel rfl (List.mem_singleton.mpr rfl)))
  have h₇ := h₆.snoc (.mgr (show MgrStep _ (.queueDel 1) _ from .queueDel rfl))
  exact ⟨_, _, h₇, rfl, rfl, rfl, List.mem_append_right _ (List.mem_singleton_self _),
    callback_under_timeout_control h₇⟩

end CallbackMgr
