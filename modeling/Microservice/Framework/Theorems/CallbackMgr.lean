import Microservice.Framework.Theorems.Tick

namespace Mgr

-- The node that was handed over and is about to be added.
def adding : Mgr → List Ptr
  | .add node => [node]
  | _         => []

-- Where a tick stands in the queue. The nodes behind it were removed or are not to be visited.
def At (q : PriorityQueue τ) (xs : List Ptr) : Mgr → Prop
  | .walk _ cur        => ∃ as bs, xs = as ++ bs ∧ cur = as.getLast?
  | .call _ cur prev   => ∃ as bs, xs = as ++ cur :: bs ∧ prev = as.getLast? ∧
    (q.heap cur).timeOutCb.isSome
  | .unlink _ cur prev => ∃ as bs, xs = as ++ cur :: bs ∧ prev = as.getLast?
  | _                  => True

-- A bound on the steps that are left until the goroutine is back in its `select`.
def Left (xs : List Ptr) (n : Nat) : Mgr → Prop
  | .select          => True
  | .add _ | .del _  => 1 ≤ n
  | .walk _ cur      => ∃ as bs, xs = as ++ bs ∧ cur = as.getLast? ∧ 3 * as.length + 1 ≤ n
  | .call _ cur prev =>
    ∃ as bs, xs = as ++ cur :: bs ∧ prev = as.getLast? ∧ 3 * as.length + 3 ≤ n
  | .unlink _ cur prev =>
    ∃ as bs, xs = as ++ cur :: bs ∧ prev = as.getLast? ∧ 3 * as.length + 2 ≤ n

theorem At.left {mgr : Mgr} {q : PriorityQueue τ} (h : mgr.At q xs) : ∃ n, mgr.Left xs n := by
  cases mgr
  case select        => exact ⟨0, trivial⟩
  case add | del     => exact ⟨1, Nat.le_refl 1⟩
  case walk | unlink =>
    obtain ⟨as, bs, hx, hp⟩ := h
    exact ⟨_, as, bs, hx, hp, Nat.le_refl _⟩
  case call =>
    obtain ⟨as, bs, hx, hp, _⟩ := h
    exact ⟨_, as, bs, hx, hp, Nat.le_refl _⟩

end Mgr

namespace PriorityQueue

variable {τ : Type*} {q : PriorityQueue τ} {node p : Ptr} {xs : List Ptr}

theorem mem_added : p ∈ q.added node xs ↔ p = node ∨ p ∈ xs := by
  cases xs <;> simp [added, or_left_comm]

theorem length_added : (q.added node xs).length = xs.length + 1 := by
  cases xs <;> simp [added, List.orderedInsert_length]

end PriorityQueue

namespace CallbackMgr

open PriorityQueue

variable {β τ : Type*} {m m' : CallbackMgr β τ} {xs : List Ptr} {e : MgrEvent τ}

-- The nodes that are still to be added to the queue.
def adding (m : CallbackMgr β τ) : List Ptr :=
  m.mgr.adding ++ m.chQueueAdd

-- The queue is linked up properly at every point of time, with the nodes `xs` in it.
structure Queued (m : CallbackMgr β τ) (xs : List Ptr) : Prop where
  queue : m.queue.Represents xs
  nodup : m.adding.Nodup
  fresh : ∀ p ∈ m.adding, p ∉ xs ∧ p < m.queue.alloc
  tick  : m.mgr.At m.queue xs

theorem init_queued : (init : CallbackMgr β τ).Queued [] where
  queue := empty_represents
  nodup := List.nodup_nil
  fresh := by simp [adding, init, Mgr.adding]
  tick  := trivial

theorem Queued.addCallBack (h : m.Queued xs) (cbid : UInt32) (cbs : β) (waitTime : Int8) (now : Int)
    (timeOutCb : Option τ) : (m.addCallBack cbid cbs waitTime now timeOutCb).Queued xs := by
  have ha : (m.addCallBack cbid cbs waitTime now timeOutCb).adding = m.adding ++ [m.queue.alloc] :=
    (List.append_assoc ..).symm
  constructor
  case queue => exact h.queue.new ..
  case nodup =>
    rw [ha]
    refine List.Nodup.append h.nodup (by simp) ?_
    simpa using fun hm => Nat.lt_irrefl _ (h.fresh _ hm).2
  case fresh =>
    intro p hp
    obtain hp | rfl := List.mem_append.mp (ha ▸ hp) |>.imp_right List.mem_singleton.mp
    · exact ⟨(h.fresh p hp).1, Nat.lt_succ_of_lt (h.fresh p hp).2⟩
    · exact ⟨h.queue.alloc_not_mem, Nat.lt_succ_self _⟩
  case tick =>
    have ht := h.tick
    rw [CallbackMgr.addCallBack]
    cases hm : m.mgr <;> rw [hm] at ht
    case call now' cur prev =>
      obtain ⟨as, bs, rfl, hp, hc⟩ := ht
      have hb := h.queue.bound cur (by simp)
      exact ⟨as, bs, rfl, hp, by rwa [new_heap_of_ne (Nat.ne_of_lt hb)]⟩
    all_goals exact ht

theorem getCallBack_of_none (h : m.gCbMap cbid = none) : m.getCallBack cbid = m := by
  simp [CallbackMgr.getCallBack, h]

theorem getCallBack_of_some (h : m.gCbMap cbid = some (cbs, node)) :
    m.getCallBack cbid =
      { m with gCbMap := m.gCbMap.erase cbid, chQueueDel := m.chQueueDel ++ [node] } := by
  simp [CallbackMgr.getCallBack, h]

theorem Step.get_none (h : m.gCbMap cbid = none) : Step m (.get cbid none) m := by
  have hs := Step.get (m := m) cbid
  rwa [getCallBack_of_none h, h] at hs

theorem Step.get_some (h : m.gCbMap cbid = some (cbs, node)) :
    Step m (.get cbid (some cbs)) (m.getCallBack cbid) := by
  have hs := Step.get (m := m) cbid
  rwa [h] at hs

theorem getCallBack_mgr : (m.getCallBack cbid).mgr = m.mgr := by
  cases hg : m.gCbMap cbid
  case none   => rw [getCallBack_of_none hg]
  case some e => rw [getCallBack_of_some hg]

theorem getCallBack_queue : (m.getCallBack cbid).queue = m.queue := by
  cases hg : m.gCbMap cbid
  case none   => rw [getCallBack_of_none hg]
  case some e => rw [getCallBack_of_some hg]

theorem Queued.getCallBack (h : m.Queued xs) (cbid : UInt32) : (m.getCallBack cbid).Queued xs := by
  rw [CallbackMgr.getCallBack]
  cases m.gCbMap cbid
  case none => exact h
  case some => exact { h with }

-- The node that a tick is about to visit, with its predecessor and the steps that are left then.
theorem Queued.visit_left (h : m.Queued xs) (hl : m.mgr.Left xs n)
    (hm : m.mgr = .walk now (some cur)) :
    ∃ as bs, xs = as ++ cur :: bs ∧ (m.queue.heap cur).prev = as.getLast? ∧
      3 * as.length + 3 < n := by
  rw [hm] at hl
  obtain ⟨as, bs, hx, hc, hn⟩ := hl
  obtain ⟨as, rfl⟩ := List.getLast?_eq_some_iff.mp hc.symm
  obtain rfl : xs = as ++ cur :: bs := by simp [hx]
  rw [List.length_append, List.length_singleton] at hn
  exact ⟨as, bs, rfl, h.queue.prev_eq, by omega⟩

theorem Queued.visit (h : m.Queued xs) (hm : m.mgr = .walk now (some cur)) :
    ∃ as bs, xs = as ++ cur :: bs ∧ (m.queue.heap cur).prev = as.getLast? := by
  have ⟨n, hl⟩ := h.tick.left
  have ⟨as, bs, hx, hp, _⟩ := h.visit_left hl hm
  exact ⟨as, bs, hx, hp⟩

-- The goroutine goes on without a change to the queue.
theorem Queued.goto (h : m.Queued xs) (hm : m.mgr.adding = []) (ha : m'.mgr.adding = [])
    (ht : m'.mgr.At m.queue xs) (hq : m'.queue = m.queue) (hc : m'.chQueueAdd = m.chQueueAdd) :
    m'.Queued xs := by
  have he : m'.adding = m.adding := by simp [adding, hm, ha, hc]
  exact ⟨hq ▸ h.queue, he ▸ h.nodup, he ▸ hq ▸ h.fresh, hq ▸ ht⟩

theorem Queued.unlink (h : m.Queued (as ++ cur :: bs)) (hm : m.mgr = .unlink now cur prev)
    (hp : prev = as.getLast?) :
    Queued { m with queue := m.queue.queueDel cur, mgr := .walk now prev } (as ++ bs) := by
  have ha : m.adding = m.chQueueAdd := by simp [adding, hm, Mgr.adding]
  refine ⟨h.queue.queueDel_of_mem, ha ▸ h.nodup, fun p hp => ?_, as, bs, rfl, hp⟩
  have ⟨hx, hl⟩ := h.fresh p (ha ▸ hp)
  have hs : (as ++ bs).Sublist (as ++ cur :: bs) := by simp
  exact ⟨fun hm => hx <| hs.subset hm, by simpa [queueDel_alloc] using hl⟩

theorem MgrStep.queued (hs : MgrStep m e m') (h : m.Queued xs) :
    Agrees m.queue m'.queue ∧ ∃ xs', m'.Queued xs' := by
  cases hs
  case recvAdd node hm hn =>
    have hp : (node :: m.chQueueAdd.erase node).Perm m.adding := by
      simpa [adding, hm, Mgr.adding] using (List.perm_cons_erase hn).symm
    exact ⟨.refl, xs, h.queue, hp.nodup_iff.mpr h.nodup, fun p hx => h.fresh p (hp.mem_iff.mp hx),
      trivial⟩
  case recvDel hm _ => exact ⟨.refl, xs, h.goto (by simp [hm, Mgr.adding]) rfl trivial rfl rfl⟩
  case queueAdd q node hm ha =>
    have hc : m.adding = node :: m.chQueueAdd := by simp [adding, hm, Mgr.adding]
    obtain ⟨hn, hb⟩ := h.fresh node (by simp [hc])
    obtain ⟨q', h₁, h₂, h₃⟩ := h.queue.queueAdd hn hb
    obtain rfl : q' = q := Option.some.inj <| h₁.symm.trans ha
    obtain ⟨hnd, hd⟩ := List.nodup_cons.mp (hc ▸ h.nodup)
    refine ⟨h₂, _, h₃, hd, fun p hp => ?_, trivial⟩
    obtain ⟨hx, hl⟩ := h.fresh p (by simpa [hc] using .inr hp)
    refine ⟨fun hm => ?_, h₂.alloc.symm ▸ hl⟩
    obtain rfl | hm := mem_added.mp hm
    · exact hnd hp
    · exact hx hm
  case queueDel node hm =>
    have ha : m.adding = m.chQueueAdd := by simp [adding, hm, Mgr.adding]
    refine ⟨queueDel_agrees, _, h.queue.queueDel node, ha ▸ h.nodup, fun p hp => ?_, trivial⟩
    obtain ⟨hx, hl⟩ := h.fresh p (ha ▸ hp)
    exact ⟨fun hm => hx <| List.mem_of_mem_erase hm, by simpa [queueDel_alloc] using hl⟩
  case tick hm =>
    exact ⟨.refl, xs, h.goto (by simp [hm, Mgr.adding]) rfl ⟨xs, [], by simp, h.queue.last⟩
      rfl rfl⟩
  case finish hm | «break» hm _ => exact ⟨.refl, xs, h.goto (by simp [hm, Mgr.adding]) rfl trivial rfl rfl⟩
  case stale hm _ _ => exact ⟨.refl, xs, h.goto (by simp [hm, Mgr.adding]) rfl (h.visit hm) rfl rfl⟩
  case expire hm _ _ =>
    refine ⟨.refl, xs, h.goto (by simp [hm, Mgr.adding]) ?_ ?_ rfl rfl⟩
    · split <;> rfl
    · obtain ⟨as, bs, hx, hp⟩ := h.visit hm
      split
      · exact ⟨as, bs, hx, hp⟩
      · exact ⟨as, bs, hx, hp, by simp [*]⟩
  case call hm _ =>
    refine ⟨.refl, xs, h.goto (by simp [hm, Mgr.adding]) rfl ?_ rfl rfl⟩
    have ht := h.tick
    rw [hm] at ht
    obtain ⟨as, bs, hx, hp, _⟩ := ht
    exact ⟨as, bs, hx, hp⟩
  case unlink cur now prev hm =>
    have ht := h.tick
    rw [hm] at ht
    obtain ⟨as, bs, rfl, hp⟩ := ht
    exact ⟨queueDel_agrees, _, h.unlink hm hp⟩

-- The goroutine adds nothing to the map.
theorem MgrStep.gCbMap (hs : MgrStep m e m') (hn : m'.gCbMap cbid = some x) :
    m.gCbMap cbid = some x := by
  cases hs
  case expire => exact (Partial.erase_eq_some_iff.mp hn).2
  all_goals exact hn

theorem MgrStep.chQueueDel (hs : MgrStep m e m') (he : ∀ node, e ≠ .recvDel node) :
    m'.chQueueDel = m.chQueueDel := by
  cases hs
  case recvDel node _ _ => exact absurd rfl (he node)
  all_goals rfl

theorem Step.queued (hs : Step m ev m') : (∃ xs, m.Queued xs) → ∃ xs, m'.Queued xs := by
  intro ⟨xs, h⟩
  cases hs
  case add      => exact ⟨xs, h.addCallBack ..⟩
  case get cbid => exact ⟨xs, h.getCallBack cbid⟩
  case mgr hs   => exact (MgrStep.queued hs h).2

theorem queued_of_exec (h : Exec Step (init : CallbackMgr β τ) es m) : ∃ xs, m.Queued xs :=
  Exec.preserves (I := fun m : CallbackMgr β τ => ∃ xs, m.Queued xs) ⟨[], init_queued⟩
    (fun _ _ _ hq hs => Step.queued hs hq) h

-- The goroutine gets closer to its `select` with each step.
theorem MgrStep.closer (hs : MgrStep m e m') (h : m.Queued xs) (hl : m.mgr.Left xs n)
    (hm : m.mgr ≠ .select) : ∃ xs' n', m'.Queued xs' ∧ m'.mgr.Left xs' n' ∧ n' < n := by
  have ⟨xs', hq⟩ := (hs.queued h).2
  cases hs
  case recvAdd hr _ | recvDel hr _ | tick hr => exact absurd hr hm
  case queueAdd hr _ | queueDel hr =>
    rw [hr] at hl
    exact ⟨xs', 0, hq, trivial, hl⟩
  case finish hr | «break» hr _ =>
    rw [hr] at hl
    obtain ⟨_, _, _, _, hn⟩ := hl
    exact ⟨xs', 0, hq, trivial, by omega⟩
  case stale hr ho hg =>
    have ha : m.mgr.adding = [] := by simp [hr, Mgr.adding]
    obtain ⟨as, bs, hx, hp, hn⟩ := h.visit_left hl hr
    exact ⟨xs, _, h.goto ha rfl ⟨as, bs, hx, hp⟩ rfl rfl, ⟨as, bs, hx, hp, Nat.le_refl _⟩, by omega⟩
  case expire hr ho hg =>
    have ha : m.mgr.adding = [] := by simp [hr, Mgr.adding]
    obtain ⟨as, bs, hx, hp, hn⟩ := h.visit_left hl hr
    refine ⟨xs, 3 * as.length + 3, h.goto ha ?_ ?_ rfl rfl, ?_, hn⟩
    · dsimp only
      split <;> rfl
    · dsimp only
      split
      · exact ⟨as, bs, hx, hp⟩
      · exact ⟨as, bs, hx, hp, by simp [*]⟩
    · dsimp only
      split
      · exact ⟨as, bs, hx, hp, by omega⟩
      · exact ⟨as, bs, hx, hp, Nat.le_refl _⟩
  case call hr hcb =>
    have ha : m.mgr.adding = [] := by simp [hr, Mgr.adding]
    rw [hr] at hl
    obtain ⟨as, bs, hx, hp, hn⟩ := hl
    exact ⟨xs, _, h.goto ha rfl ⟨as, bs, hx, hp⟩ rfl rfl, ⟨as, bs, hx, hp, Nat.le_refl _⟩, by omega⟩
  case unlink hr =>
    rw [hr] at hl
    obtain ⟨as, bs, rfl, hp, hn⟩ := hl
    exact ⟨as ++ bs, _, h.unlink hr hp, ⟨as, bs, rfl, hp, Nat.le_refl _⟩, by omega⟩

-- The goroutine is never stuck.
theorem Queued.enabled (h : m.Queued xs) (hm : m.mgr ≠ .select) : ∃ e m', MgrStep m e m' := by
  cases hs : m.mgr
  case select => exact absurd hs hm
  case add node =>
    have ⟨hn, hb⟩ := h.fresh node (by simp [adding, hs, Mgr.adding])
    have ⟨q, ha, _⟩ := h.queue.queueAdd hn hb
    exact ⟨_, _, .queueAdd hs ha⟩
  case del node => exact ⟨_, _, .queueDel hs⟩
  case walk now cur =>
    cases cur
    case none => exact ⟨_, _, .finish hs⟩
    case some cur =>
      by_cases ho : (m.queue.heap cur).endTime ≤ now
      case neg => exact ⟨_, _, .break hs (Int.not_le.mp ho)⟩
      case pos =>
        cases hg : m.gCbMap (m.queue.heap cur).cbid
        case none => exact ⟨_, _, .stale hs ho hg⟩
        case some => exact ⟨_, _, .expire hs ho hg⟩
  case call now cur prev =>
    have ht := h.tick
    rw [hs] at ht
    have ⟨_, _, _, _, hc⟩ := ht
    have ⟨cb, hcb⟩ := Option.isSome_iff_exists.mp hc
    exact ⟨_, _, .call hs hcb⟩
  case unlink => exact ⟨_, _, .unlink hs⟩

theorem Queued.progress (h : m.Queued xs) (hl : m.mgr.Left xs n) (hm : m.mgr ≠ .select) :
    ∃ e m' xs' n', MgrStep m e m' ∧ m'.Queued xs' ∧ m'.mgr.Left xs' n' ∧ n' < n ∧
      (∀ node, e ≠ .recvAdd node) ∧ ∀ node, e ≠ .recvDel node := by
  have ⟨e, m', hs⟩ := h.enabled hm
  have ⟨xs', n', hq, hl', hn⟩ := hs.closer h hl hm
  -- Nodes are received in the `select` only.
  have hr : (∀ node, e ≠ .recvAdd node) ∧ ∀ node, e ≠ .recvDel node := by
    cases hs
    case recvAdd hr _ | recvDel hr _ => exact absurd hr hm
    all_goals simp
  exact ⟨e, m', xs', n', hs, hq, hl', hn, hr⟩

end CallbackMgr
