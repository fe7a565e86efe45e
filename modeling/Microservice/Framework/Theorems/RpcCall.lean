import Microservice.Framework.RpcCall
import Microservice.Framework.Theorems.Consumed
import Microservice.Lib.Positions

namespace RpcCall

-- The call has registered its callback, or will never do so.
def Registered : RpcCall → Prop
  | .started .. => False
  | _           => True

-- The call has registered its callback and is going to receive from its channel.
def Waits : RpcCall → Prop
  | .adding rid .. | .sending rid _ => rid ≠ 0
  | .receiving _                    => True
  | _                               => False

end RpcCall

namespace RpcCalls

open PriorityQueue CallbackMgr

variable {s s' : RpcCalls} {ev : Event} {es : List Event} {ch i : Nat} {c c' : RpcCall}

-- What the steps of the calls are for the callback manager.
def cbEvent : Event → Option (CallbackMgr.Event Nat Nat)
  | .register i rid endTime                   => some (.add rid i endTime (some i))
  | .added _ node                             => some (.mgr (.recvAdd node))
  | .timeOut i cbid now | .resend i cbid now  => some (.mgr (.call cbid now i))
  | .get _ rid ch                             => some (.get rid ch)
  | .deleted _ node                           => some (.mgr (.recvDel node))
  | .mgr e                                    => some (.mgr e)
  | _                                         => none

theorem Step.cb_idle (h : Step s ev s') (he : cbEvent ev = none) : s'.cb = s.cb := by
  cases h <;> first | rfl | simp [cbEvent] at he

theorem Step.cb_active (h : Step s ev s') (he : cbEvent ev = some e) :
    CallbackMgr.Step s.cb e s'.cb := by
  cases h <;> simp only [cbEvent, Option.some.injEq, reduceCtorEq] at he <;> subst he
  case register  => exact .add ..
  case getNil hg => exact .get_none hg
  case get hg    => exact .get_some hg
  all_goals exact .mgr ‹_›

theorem cb_exec (h : Exec Step init es s) : Exec CallbackMgr.Step .init (es.filterMap cbEvent) s.cb :=
  h.project RpcCalls.cb cbEvent (fun _ _ _ => Step.cb_idle) (fun _ _ _ _ => Step.cb_active)

-- Who is in charge of waking up a call: whoever finds its callback in `gCbMap`, the tick that has
-- found it, or the response handler that has found it.
inductive Source
  | entry (rid : UInt32)
  | manager
  | handler (h : Nat)

def Owns (s : RpcCalls) (ch : Nat) : Source → Prop
  | .entry rid => ∃ node, s.cb.gCbMap rid = some (ch, node)
  | .manager   => ∃ cur now, s.cb.mgr.pendingCall = some (cur, now) ∧
    (s.cb.queue.heap cur).timeOutCb = some ch
  | .handler h => (∃ node, s.handlers h = .deleting ch node) ∨ s.handlers h = .replying ch

-- Only one is in charge of a call, and the call waits for it.
structure Owned (s : RpcCalls) : Prop where
  waits  : ∀ ch src, s.Owns ch src → ∃ c, s.calls[ch]? = some c ∧ c.Waits
  unique : ∀ ch src src', s.Owns ch src → s.Owns ch src' → src = src'

-- Each registered node belongs to the call that its timeout callback wakes up.
structure Nodes (s : RpcCalls) : Prop where
  entry      : ∀ rid ch node, s.cb.gCbMap rid = some (ch, node) →
    node < s.cb.queue.alloc ∧ (s.cb.queue.heap node).timeOutCb = some ch
  registered : ∀ p < s.cb.queue.alloc, ∃ i c, (s.cb.queue.heap p).timeOutCb = some i ∧
    s.calls[i]? = some c ∧ c.Registered
  injective  : ∀ p < s.cb.queue.alloc, ∀ p' < s.cb.queue.alloc,
    (s.cb.queue.heap p).timeOutCb = (s.cb.queue.heap p').timeOutCb → p = p'
  adding     : ∀ i rid reSendCnt node, s.calls[i]? = some (.adding rid reSendCnt node) →
    node ∈ s.cb.chQueueAdd ∧ (s.cb.queue.heap node).timeOutCb = some i

theorem setCall_self (hi : s.calls[i]? = some c) : (s.setCall i c').calls[i]? = some c' :=
  List.getElem?_set_of_eq_some hi

theorem setCall_of_ne (hne : i ≠ j) : (s.setCall i c').calls[j]? = s.calls[j]? :=
  List.getElem?_set_ne hne

theorem setHandler_of_ne (hne : i ≠ j) : (s.setHandler j r).handlers i = s.handlers i :=
  Function.update_of_ne hne ..

-- The charge of a call may pass from one to the other, as long as it does not multiply.
theorem Owned.transfer (h : s.Owned) (f : Source → Source)
    (ho : ∀ ch src, s'.Owns ch src → s.Owns ch (f src))
    (hf : ∀ ch src src', s'.Owns ch src → s'.Owns ch src' → f src = f src' → src = src')
    (hc : ∀ ch src c, s'.Owns ch src → s.calls[ch]? = some c → c.Waits →
      ∃ c', s'.calls[ch]? = some c' ∧ c'.Waits) : s'.Owned where
  waits ch src hs := by
    have ⟨c, hi, hw⟩ := h.waits ch _ (ho ch src hs)
    exact hc ch src c hs hi hw
  unique ch src src' hs hs' := hf ch src src' hs hs' <| h.unique ch _ _ (ho ch src hs) (ho ch src' hs')

-- A call goes on by itself.
theorem Owned.setCall (h : s.Owned) (hi : s.calls[i]? = some c) (hw : c.Waits → c'.Waits) :
    (s.setCall i c').Owned := by
  refine h.transfer id (fun _ src hs => by cases src <;> exact hs) (fun _ _ _ _ _ => id) ?_
  intro ch src d _ hd hdw
  by_cases he : i = ch
  case pos =>
    subst he
    cases hi.symm.trans hd
    exact ⟨c', setCall_self hi, hw hdw⟩
  case neg => exact ⟨d, (setCall_of_ne he).trans hd, hdw⟩

theorem Nodes.setCall (h : s.Nodes) (hi : s.calls[i]? = some c) (hr : c'.Registered)
    (ha : ∀ rid reSendCnt node, c' ≠ .adding rid reSendCnt node) : (s.setCall i c').Nodes where
  entry      := h.entry
  injective  := h.injective
  registered := by
    intro p hp
    have ⟨j, d, ht, hj, hd⟩ := h.registered p hp
    by_cases he : i = j
    case pos => exact ⟨j, c', ht, he ▸ setCall_self hi, hr⟩
    case neg => exact ⟨j, d, ht, (setCall_of_ne he).trans hj, hd⟩
  adding     := by
    intro j rid reSendCnt node hj
    obtain ⟨_, he⟩ | ⟨_, hj⟩ := List.getElem?_set_cases hj
    · exact absurd he.symm (ha rid reSendCnt node)
    · exact h.adding j rid reSendCnt node hj

-- The charge of a call after a step of the callback manager, if the tick has not found a callback.
theorem Owned.mgr (h : s.Owned) (hg : cb'.gCbMap = s.cb.gCbMap) (hp : cb'.mgr.pendingCall = none) :
    Owned { s with cb := cb' } := by
  refine h.transfer id ?_ (fun _ _ _ _ _ => id) (fun _ _ c _ hi hw => ⟨c, hi, hw⟩)
  intro ch src hs
  cases src
  case entry rid =>
    obtain ⟨node, hn⟩ := hs
    exact ⟨node, hg ▸ hn⟩
  case manager   =>
    obtain ⟨cur, now, hc, _⟩ := hs
    simp [hp] at hc
  case handler   => exact hs

theorem Nodes.mgr (h : s.Nodes) (ha : Agrees s.cb.queue cb'.queue)
    (hg : ∀ rid e, cb'.gCbMap rid = some e → s.cb.gCbMap rid = some e)
    (hc : ∀ (i : Nat) rid reSendCnt node, s.calls[i]? = some (RpcCall.adding rid reSendCnt node) →
      node ∈ s.cb.chQueueAdd → node ∈ cb'.chQueueAdd) : Nodes { s with cb := cb' } where
  entry rid ch node hn := by
    have ⟨hb, ht⟩ := h.entry rid ch node (hg _ _ hn)
    exact ⟨ha.alloc.symm ▸ hb, (ha.timeOutCb node).trans ht⟩
  registered p hp := by
    have ⟨i, c, ht, hi, hr⟩ := h.registered p (ha.alloc ▸ hp)
    exact ⟨i, c, (ha.timeOutCb p).trans ht, hi, hr⟩
  injective p hp p' hp' he := by
    refine h.injective p (ha.alloc ▸ hp) p' (ha.alloc ▸ hp') ?_
    rw [← ha.timeOutCb, ← ha.timeOutCb]
    exact he
  adding i rid reSendCnt node hi := by
    have ⟨hm, ht⟩ := h.adding i rid reSendCnt node hi
    exact ⟨hc i rid reSendCnt node hi hm, (ha.timeOutCb node).trans ht⟩

-- A tick finds the callback of a call. It is the tick now that is in charge of the call.
theorem Owned.expire (h : s.Owned) (now : Int) (hn : s.Nodes) (hh : History es' s.cb)
    (hd : (CallbackMgr.added es').Nodup) (hb : cur < s.cb.queue.alloc)
    (hg : s.cb.gCbMap (s.cb.queue.heap cur).cbid = some e)
    (hq : cb'.queue = s.cb.queue) (hg' : cb'.gCbMap = s.cb.gCbMap.erase (s.cb.queue.heap cur).cbid)
    (hp : cb'.mgr.pendingCall = (s.cb.queue.heap cur).timeOutCb.map (fun _ => (cur, now))) :
    Owned { s with cb := cb' } := by
  obtain ⟨ch₀, node⟩ := e
  have hr := ((hh.fate _).waiting_of_some hg).1
  obtain rfl : node = cur := hh.injective hd hr.bound hb hr.id
  have ht := (hn.entry _ _ _ hg).2
  -- The charge passes from the entry to the tick.
  let f : Source → Source
    | .manager => .entry (s.cb.queue.heap node).cbid
    | src      => src
  have hne : ∀ ch, ¬Owns { s with cb := cb' } ch (.entry (s.cb.queue.heap node).cbid) := by
    intro ch ⟨n, hc⟩
    simp [hg'] at hc
  refine h.transfer f ?_ ?_ (fun _ _ c _ hi hw => ⟨c, hi, hw⟩)
  · intro ch src hs
    cases src
    case entry rid =>
      obtain ⟨n, hc⟩ := hs
      exact ⟨n, (Partial.erase_eq_some_iff.mp (hg' ▸ hc)).2⟩
    case manager   =>
      obtain ⟨cur, now', hc, hcb⟩ := hs
      obtain ⟨rfl, _⟩ : node = cur ∧ now = now' := by simpa [hp, ht] using hc
      obtain rfl : ch₀ = ch := by simpa [hq, ht] using hcb
      exact ⟨node, hg⟩
    case handler   => exact hs
  · intro ch src src' hs hs' he
    cases src <;> cases src' <;> simp_all [f]

-- Whoever was in charge of a call has woken it up.
theorem Owned.release (h : s.Owned) (hi : s.Owns i src) (hi' : ¬s'.Owns i src)
    (ho : ∀ ch src, s'.Owns ch src → s.Owns ch src)
    (hc : ∀ ch c, ch ≠ i → s.calls[ch]? = some c → s'.calls[ch]? = some c) : s'.Owned := by
  refine h.transfer id ho (fun _ _ _ _ _ => id) fun ch src' c hs hd hw => ?_
  have hne : ch ≠ i := by
    intro he
    obtain rfl := h.unique i src src' hi (he ▸ ho ch src' hs)
    exact hi' (he ▸ hs)
  exact ⟨c, hc ch c hne hd, hw⟩

-- A response handler finds the callback of a call and is in charge of the call now.
theorem Owned.get (h : s.Owned) (hh : s.handlers k = .idle)
    (hg : s.cb.gCbMap rid = some (ch₀, node)) :
    Owned { s.setHandler k (.deleting ch₀ node) with cb := s.cb.getCallBack rid } := by
  rw [getCallBack_of_some hg]
  let f : Source → Source
    | .handler j => if j = k then .entry rid else .handler j
    | src        => src
  refine h.transfer f ?_ ?_ (fun _ _ c _ hi hw => ⟨c, hi, hw⟩)
  · intro ch src hs
    cases src
    case entry rid' =>
      obtain ⟨n, hc⟩ := hs
      exact ⟨n, (Partial.erase_eq_some_iff.mp hc).2⟩
    case manager    => exact hs
    case handler j  =>
      by_cases hj : j = k
      case pos =>
        subst hj
        obtain rfl : ch₀ = ch := by simpa [Owns, setHandler] using hs
        simp only [f, if_pos]
        exact ⟨node, hg⟩
      case neg => simpa [f, hj, Owns, setHandler] using hs
  · intro ch src src' hs hs' he
    have hne : ∀ ch, ¬Owns { s.setHandler k (.deleting ch₀ node) with
        cb := { s.cb with
          gCbMap := s.cb.gCbMap.erase rid, chQueueDel := s.cb.chQueueDel ++ [node] } }
        ch (.entry rid) := fun ch ⟨n, hc⟩ => by simp at hc
    cases src <;> cases src' <;> simp only [f] at he <;> grind

theorem owns_register (hb : ∀ cur now, s.cb.mgr.pendingCall = some (cur, now) → cur < s.cb.queue.alloc)
    (h : Owns { s.setCall i c with cb := s.cb.addCallBack rid i 33 now (some i) } ch src) :
    (src = .entry rid ∧ ch = i) ∨ s.Owns ch src := by
  cases src
  case entry rid' =>
    obtain ⟨n, hc⟩ := h
    obtain ⟨rfl, he⟩ | ⟨_, hc⟩ := Partial.insert_eq_some_iff.mp hc
    · exact .inl ⟨rfl, (Prod.mk.inj he).1.symm⟩
    · exact .inr ⟨n, hc⟩
  case manager    =>
    obtain ⟨cur, now', hc, ht⟩ := h
    have hn : (s.cb.addCallBack rid i 33 now (some i)).queue.heap cur = s.cb.queue.heap cur :=
      new_heap_of_ne (Nat.ne_of_lt (hb cur now' hc))
    exact .inr ⟨cur, now', hc, hn ▸ ht⟩
  case handler    => exact .inr h

theorem Owned.register (h : s.Owned) (hi : s.calls[i]? = some (.started rid reSendCnt))
    (hr : rid ≠ 0)
    (hb : ∀ cur now, s.cb.mgr.pendingCall = some (cur, now) → cur < s.cb.queue.alloc) :
    Owned { s.setCall i (.adding rid reSendCnt s.cb.queue.alloc) with
      cb := s.cb.addCallBack rid i 33 now (some i) } := by
  -- A call that has just started waits for nobody.
  have hn : ∀ src, ¬s.Owns i src := by
    intro src hs
    obtain ⟨c, hc, hw⟩ := h.waits i src hs
    cases hi.symm.trans hc
    exact hw
  constructor
  case waits =>
    intro ch src hs
    obtain ⟨rfl, rfl⟩ | hs := owns_register hb hs
    · exact ⟨.adding rid reSendCnt s.cb.queue.alloc, setCall_self hi, hr⟩
    · have hne : i ≠ ch := fun he => hn src (he ▸ hs)
      have ⟨c, hc, hw⟩ := h.waits ch src hs
      exact ⟨c, (setCall_of_ne hne).trans hc, hw⟩
  case unique =>
    intro ch src src' hs hs'
    obtain ⟨hsrc, he⟩ | hs := owns_register hb hs <;>
      obtain ⟨hsrc', he'⟩ | hs' := owns_register hb hs'
    · exact hsrc.trans hsrc'.symm
    · exact absurd (he ▸ hs') (hn src')
    · exact absurd (he' ▸ hs) (hn src)
    · exact h.unique ch src src' hs hs'

theorem Nodes.register (h : s.Nodes) (hq : s.cb.Queued xs)
    (hi : s.calls[i]? = some (.started rid reSendCnt)) :
    Nodes { s.setCall i (.adding rid reSendCnt s.cb.queue.alloc) with
      cb := s.cb.addCallBack rid i 33 now (some i) } := by
  have hold : ∀ p < s.cb.queue.alloc,
      (s.cb.addCallBack rid i 33 now (some i)).queue.heap p = s.cb.queue.heap p :=
    fun p hp => new_heap_of_ne (Nat.ne_of_lt hp)
  have hnew : ((s.cb.addCallBack rid i 33 now (some i)).queue.heap s.cb.queue.alloc).timeOutCb =
      some i := by simp [addCallBack, PriorityQueue.new]
  -- No other node belongs to the call, as it has just started.
  have hne : ∀ p < s.cb.queue.alloc, (s.cb.queue.heap p).timeOutCb ≠ some i := by
    intro p hp ht
    obtain ⟨j, c, hj, hc, hr⟩ := h.registered p hp
    obtain rfl : j = i := by simpa [hj] using ht
    cases hi.symm.trans hc
    exact hr
  constructor
  case entry =>
    intro rid' ch node hn
    obtain ⟨rfl, he⟩ | ⟨_, hn⟩ := Partial.insert_eq_some_iff.mp hn
    · obtain ⟨rfl, rfl⟩ := Prod.mk.inj he
      exact ⟨Nat.lt_succ_self _, hnew⟩
    · obtain ⟨hb, ht⟩ := h.entry rid' ch node hn
      exact ⟨Nat.lt_succ_of_lt hb, (hold node hb).symm ▸ ht⟩
  case registered =>
    intro p hp
    obtain hp | rfl := Nat.lt_succ_iff_lt_or_eq.mp hp
    · obtain ⟨j, c, hj, hc, hr⟩ := h.registered p hp
      have hij : i ≠ j := fun he => hne p hp (he ▸ hj)
      exact ⟨j, c, (hold p hp).symm ▸ hj, (setCall_of_ne hij).trans hc, hr⟩
    · exact ⟨i, .adding rid reSendCnt s.cb.queue.alloc, hnew, setCall_self hi, trivial⟩
  case injective =>
    intro p hp p' hp' he
    obtain hp | rfl := Nat.lt_succ_iff_lt_or_eq.mp hp <;>
      obtain hp' | rfl := Nat.lt_succ_iff_lt_or_eq.mp hp'
    · exact h.injective p hp p' hp' (by simpa [hold p hp, hold p' hp'] using he)
    · exact absurd (by simpa [hold p hp, hnew] using he) (hne p hp)
    · exact absurd (by simpa [hold p' hp', hnew] using he.symm) (hne p' hp')
    · rfl
  case adding =>
    intro j rid' reSendCnt' node hj
    obtain ⟨rfl, he⟩ | ⟨_, hj⟩ := List.getElem?_set_cases hj
    · cases he
      exact ⟨by simp [addCallBack], hnew⟩
    · obtain ⟨hm, ht⟩ := h.adding j rid' reSendCnt' node hj
      have hb := (hq.fresh node (List.mem_append_right _ hm)).2
      exact ⟨List.mem_append_left _ hm, (hold node hb).symm ▸ ht⟩

theorem Owned.push (h : s.Owned) (gid : UInt32) (c : RpcCall) :
    Owned { s with globalGID := gid, calls := s.calls ++ [c] } := by
  refine h.transfer id (fun _ src hs => by cases src <;> exact hs) (fun _ _ _ _ _ => id) ?_
  intro ch src d _ hd hw
  exact ⟨d, List.getElem?_append_of_eq_some hd, hw⟩

theorem Nodes.push (h : s.Nodes) (gid : UInt32) (rid : UInt32) (reSendCnt : Int8) :
    Nodes { s with globalGID := gid, calls := s.calls ++ [.started rid reSendCnt] } where
  entry      := h.entry
  injective  := h.injective
  registered := by
    intro p hp
    have ⟨i, c, ht, hi, hr⟩ := h.registered p hp
    exact ⟨i, c, ht, List.getElem?_append_of_eq_some hi, hr⟩
  adding     := by
    intro i rid' reSendCnt' node hi
    cases List.getElem?_concat_cases hi
    case inl hi => exact h.adding i rid' reSendCnt' node hi
    case inr hi => cases hi.2

-- The only step that abandons a call whose callback is registered.
def Good (ev : Event) : Prop :=
  ∀ i rid, ev = .sendFailed i rid → rid = 0

structure Inv (s : RpcCalls) : Prop where
  owned : s.Owned
  nodes : s.Nodes

-- The call that a timeout callback has woken up.
theorem Owned.timeOut (h : s.Owned) (hm : MgrStep s.cb (.call cbid now i) cb') :
    Owned { s.setCall i c' with cb := cb' } := by
  cases hm
  case call cur prev hc ht =>
    have hown : s.Owns i .manager := ⟨cur, now, by simp [hc, Mgr.pendingCall], ht⟩
    refine h.release hown ?_ ?_ ?_
    · rintro ⟨_, _, hp, _⟩
      simp [Mgr.pendingCall] at hp
    · intro ch src hs
      cases src
      case entry   => exact hs
      case manager =>
        obtain ⟨_, _, hp, _⟩ := hs
        simp [Mgr.pendingCall] at hp
      case handler => exact hs
    · intro ch d hne hd
      exact (setCall_of_ne hne.symm).trans hd

theorem Nodes.timeOut (h : s.Nodes) (hq : s.cb.Queued xs) (hm : MgrStep s.cb (.call cbid now i) cb')
    (hi : s.calls[i]? = some c) (hr : c'.Registered)
    (ha : ∀ rid reSendCnt node, c' ≠ .adding rid reSendCnt node) :
    Nodes { s.setCall i c' with cb := cb' } := by
  have hag := (hm.queued hq).1
  cases hm
  exact (h.setCall hi hr ha).mgr hag (fun _ _ => id) (fun _ _ _ _ _ => id)

theorem Owned.internal (h : s.Owned) (hn : s.Nodes) (hq : s.cb.Queued xs) (hh : History es' s.cb)
    (hd : (CallbackMgr.added es').Nodup) (hm : MgrStep s.cb e cb') (hi : Internal e) :
    Owned { s with cb := cb' } := by
  cases hm
  case recvAdd | recvDel | call => exact absurd hi id
  case expire now e cur hc hl hg =>
    have ⟨as, bs, hx, _⟩ := hq.visit hc
    have hb : cur < s.cb.queue.alloc := hq.queue.bound cur (by simp [hx])
    refine h.expire now hn hh hd hb hg rfl rfl ?_
    cases (s.cb.queue.heap cur).timeOutCb <;> rfl
  all_goals exact h.mgr rfl rfl

theorem Nodes.internal (h : s.Nodes) (hq : s.cb.Queued xs) (hm : MgrStep s.cb e cb') (hi : Internal e) :
    Nodes { s with cb := cb' } := by
  have hag := (hm.queued hq).1
  cases hm
  case recvAdd | recvDel | call => exact absurd hi id
  case expire =>
    exact h.mgr hag (fun _ _ hn => (Partial.erase_eq_some_iff.mp hn).2) (fun _ _ _ _ _ => id)
  all_goals exact h.mgr hag (fun _ _ => id) (fun _ _ _ _ _ => id)

theorem Step.nodes (hs : Step s ev s') (hq : s.cb.Queued xs) (h : s.Nodes) : s'.Nodes := by
  cases hs
  case call rid reSendCnt => exact h.push ..
  case genGid             => exact ⟨h.entry, h.registered, h.injective, h.adding⟩
  case register hr hi     => exact h.register hq hi
  case added i node cb' rid reSendCnt hi hm =>
    have hag := (hm.queued hq).1
    have hn := (h.adding i rid reSendCnt node hi).2
    have hg : cb'.gCbMap = s.cb.gCbMap := by cases hm; rfl
    have hc : cb'.chQueueAdd = s.cb.chQueueAdd.erase node := by cases hm; rfl
    have hs : (s.setCall i (.sending rid reSendCnt)).Nodes := h.setCall hi trivial nofun
    refine hs.mgr hag (fun r e he => hg ▸ he) ?_
    -- The other calls still wait to hand over their nodes.
    intro j rid' reSendCnt' node' hj hm'
    have hj' : (s.cb.queue.heap node').timeOutCb = some j :=
      (hs.adding j rid' reSendCnt' node' hj).2
    have hij : i ≠ j := by
      rintro rfl
      cases hj.symm.trans (setCall_self hi)
    rw [hc]
    refine (List.mem_erase_of_ne fun he => hij ?_).mpr hm'
    rw [he] at hj'
    exact Option.some.inj (hn.symm.trans hj')
  case sent i rid reSendCnt hi =>
    by_cases hr : rid = 0
    case pos =>
      rw [if_pos hr]
      exact h.setCall hi trivial nofun
    case neg =>
      rw [if_neg hr]
      exact h.setCall hi trivial nofun
  case timeOut _ hm hi => exact h.timeOut hq hm hi trivial nofun
  case resend _ hm hi  =>
    have hr : (RpcCall.resending s.calls.length).Registered := trivial
    exact (h.timeOut hq hm hi hr nofun).push ..
  case getNil => exact h
  case get ch node k rid hidle hc =>
    have hn : Nodes { s with cb := s.cb.getCallBack rid } := by
      rw [getCallBack_of_some hc]
      exact h.mgr .refl (fun _ _ hn => (Partial.erase_eq_some_iff.mp hn).2) (fun _ _ _ _ _ => id)
    exact ⟨hn.entry, hn.registered, hn.injective, hn.adding⟩
  case deleted node cb' k ch hdel hm =>
    have hag := (hm.queued hq).1
    have hg : cb'.gCbMap = s.cb.gCbMap := by cases hm; rfl
    have hc : cb'.chQueueAdd = s.cb.chQueueAdd := by cases hm; rfl
    have hn := h.mgr hag (by simp [hg]) (by simp [hc])
    exact ⟨hn.entry, hn.registered, hn.injective, hn.adding⟩
  case reply ch k reSendCnt hrep hi =>
    have hn : (s.setCall ch .returned).Nodes := h.setCall hi trivial nofun
    exact ⟨hn.entry, hn.registered, hn.injective, hn.adding⟩
  case mgr hint hm => exact h.internal hq hm hint
  case noClient hi | async hi | sendFailed hi => exact h.setCall hi trivial nofun
  case innerReturned hi _                     => exact h.setCall hi trivial nofun

theorem Step.owned (hs : Step s ev s') (hq : s.cb.Queued xs) (hh : History es' s.cb)
    (hd : (CallbackMgr.added es').Nodup) (hg : Good ev) (hn : s.Nodes) (h : s.Owned) : s'.Owned := by
  cases hs
  case call rid reSendCnt => exact h.push ..
  case genGid =>
    exact h.transfer id (fun _ src hs => by cases src <;> exact hs) (fun _ _ _ _ _ => id)
      (fun _ _ c _ hi hw => ⟨c, hi, hw⟩)
  case register hr hi => exact h.register hi hr fun cur now hc => (hh.calling cur now hc).1
  case added i node cb' rid reSendCnt hi hm =>
    have hg : cb'.gCbMap = s.cb.gCbMap ∧ cb'.mgr.pendingCall = none := by cases hm; exact ⟨rfl, rfl⟩
    exact (h.mgr hg.1 hg.2).setCall hi id
  case sent i rid reSendCnt hi =>
    by_cases hr : rid = 0
    case pos =>
      rw [if_pos hr]
      exact h.setCall hi fun hw => absurd hr hw
    case neg =>
      rw [if_neg hr]
      exact h.setCall hi fun _ => trivial
  case sendFailed i rid reSendCnt hi => exact h.setCall hi fun hw => hw (hg i rid rfl)
  case timeOut _ hm hi => exact h.timeOut hm
  case resend _ hm hi  => exact (h.timeOut hm).push ..
  case getNil          => exact h
  case get ch node k rid hidle hc => exact h.get hidle hc
  case deleted node cb' k ch hdel hm =>
    have hg : cb'.gCbMap = s.cb.gCbMap ∧ cb'.mgr.pendingCall = none := by cases hm; exact ⟨rfl, rfl⟩
    have ho := h.mgr hg.1 hg.2
    refine ho.transfer id ?_ (fun _ _ _ _ _ => id) (fun _ _ c _ hi hw => ⟨c, hi, hw⟩)
    intro ch' src hs
    cases src
    case entry | manager => exact hs
    case handler j =>
      by_cases hj : j = k
      case pos =>
        subst hj
        obtain rfl : ch = ch' := by simpa [Owns, setHandler] using hs
        exact .inl ⟨node, hdel⟩
      case neg => simpa [Owns, setHandler, hj] using hs
  case reply ch k reSendCnt hrep hi =>
    have hown : s.Owns ch (.handler k) := .inr hrep
    refine h.release hown ?_ ?_ ?_
    · simp [Owns, setHandler, RpcCalls.setCall]
    · intro ch' src hs
      cases src
      case entry | manager => exact hs
      case handler j =>
        by_cases hj : j = k
        case pos => simp [Owns, setHandler, RpcCalls.setCall, hj] at hs
        case neg => simpa [Owns, setHandler, RpcCalls.setCall, hj] using hs
    · intro ch' d hne hd'
      exact (setCall_of_ne hne.symm).trans hd'
  case mgr hint hm => exact h.internal hn hq hh hd hm hint
  case noClient hi | async hi => exact h.setCall hi False.elim
  case innerReturned hi _     => exact h.setCall hi False.elim

theorem Step.inv (hs : Step s ev s') (hq : s.cb.Queued xs) (hh : History es' s.cb)
    (hd : (CallbackMgr.added es').Nodup) (hg : Good ev) (h : s.Inv) : s'.Inv :=
  ⟨hs.owned hq hh hd hg h.nodes h.owned, hs.nodes hq h.nodes⟩

-- The ids under which the calls of a run have registered their callbacks.
def rids (es : List Event) : List UInt32 :=
  CallbackMgr.added (es.filterMap cbEvent)

theorem rids_append : rids (es ++ es') = rids es ++ rids es' := by
  simp [rids, CallbackMgr.added, List.filterMap_append]

theorem init_nodes : init.Nodes :=
  ⟨nofun, nofun, nofun, nofun⟩

theorem init_owned : init.Owned := by
  refine ⟨fun ch src hs => ?_, fun ch src src' hs => ?_⟩
  all_goals
    cases src
    case entry   => exact nomatch hs
    case manager => obtain ⟨_, _, hp, _⟩ := hs; exact nomatch hp
    case handler => exact nomatch hs

-- Whatever happens, the nodes belong to their calls.
theorem nodes_of_exec (h : Exec Step init es s) : s.Nodes := by
  refine h.invariant (I := fun _ s => s.Nodes) init_nodes fun es s e s' hx hn hs => ?_
  have ⟨xs, hq⟩ := queued_of_exec (cb_exec hx)
  exact hs.nodes hq hn

theorem inv_of_exec (h : Exec Step init es s) (hg : ∀ e ∈ es, Good e) (hd : (rids es).Nodup) :
    s.Inv := by
  refine Exec.invariant (I := fun es s => (∀ e ∈ es, Good e) → (rids es).Nodup → Inv s)
    (fun _ _ => ⟨init_owned, init_nodes⟩) (fun es s e s' hx hi hs hg hd => ?_) h hg hd
  have ⟨xs, hq⟩ := queued_of_exec (cb_exec hx)
  have hd' : (rids es).Nodup := (List.nodup_append.mp (rids_append ▸ hd)).1
  exact hs.inv hq (history_of_exec (cb_exec hx) hd') hd' (hg e (by simp))
    (hi (fun e he => hg e (by simp [he])) hd')

-- The call that a tick is about to wake up has handed over its node before.
theorem Inv.called (h : s.Inv) (hq : s.cb.Queued xs) (hm : s.cb.mgr = .call now cur prev)
    (ht : (s.cb.queue.heap cur).timeOutCb = some i) :
    ∃ c, s.calls[i]? = some c ∧
      ((∃ rid reSendCnt, rid ≠ 0 ∧ c = .sending rid reSendCnt) ∨ ∃ reSendCnt, c = .receiving reSendCnt) := by
  have hown : s.Owns i .manager := ⟨cur, now, by simp [hm, Mgr.pendingCall], ht⟩
  obtain ⟨c, hi, hw⟩ := h.owned.waits i .manager hown
  refine ⟨c, hi, ?_⟩
  cases c
  case adding rid reSendCnt node =>
    have htick := hq.tick
    rw [hm] at htick
    obtain ⟨as, bs, rfl, _⟩ := htick
    obtain ⟨hmem, hn⟩ := h.nodes.adding i rid reSendCnt node hi
    obtain ⟨hx, hb⟩ := hq.fresh node (List.mem_append_right _ hmem)
    have hc := hq.queue.bound cur (by simp)
    obtain rfl := h.nodes.injective node hb cur hc (hn.trans ht.symm)
    exact absurd (by simp) hx
  case sending rid reSendCnt => exact .inl ⟨rid, reSendCnt, hw, rfl⟩
  case receiving reSendCnt   => exact .inr ⟨reSendCnt, rfl⟩
  all_goals exact absurd hw id

-- The goroutine of the callback manager can make its next step, if only the call that a timeout callback is
-- to wake up finishes its `MessageSend`.
theorem Inv.next {e : MgrEvent Nat} {cb' : CallbackMgr Nat Nat} (h : s.Inv) (hq : s.cb.Queued xs)
    (hs : MgrStep s.cb e cb') (hna : ∀ node, e ≠ .recvAdd node) (hnd : ∀ node, e ≠ .recvDel node) :
    ∃ es' s', Exec Step s es' s' ∧ (∀ e ∈ es', Good e) ∧ rids es' = [] ∧ s'.cb = cb' := by
  cases e
  case recvAdd node => exact absurd rfl (hna node)
  case recvDel node => exact absurd rfl (hnd node)
  case call cbid now i =>
    -- The receiver is there as soon as its message is sent.
    have hwake : ∀ (s₁ : RpcCalls) reSendCnt, s₁.cb = s.cb →
        s₁.calls[i]? = some (.receiving reSendCnt) →
        ∃ es' s', Exec Step s₁ es' s' ∧ (∀ e ∈ es', Good e) ∧ rids es' = [] ∧ s'.cb = cb' := by
      intro s₁ reSendCnt hcb hc
      by_cases hr : 0 < reSendCnt
      case pos => exact ⟨_, _, .single (.resend (hcb ▸ hs) hc hr), by simp [Good], rfl, rfl⟩
      case neg => exact ⟨_, _, .single (.timeOut (hcb ▸ hs) hc hr), by simp [Good], rfl, rfl⟩
    have ⟨cur, prev, hm', ht⟩ : ∃ cur prev, s.cb.mgr = .call now cur prev ∧
        (s.cb.queue.heap cur).timeOutCb = some i := by cases hs; exact ⟨_, _, ‹_›, ‹_›⟩
    obtain ⟨c, hc, ⟨rid, reSendCnt, hr, rfl⟩ | ⟨reSendCnt, rfl⟩⟩ := h.called hq hm' ht
    · have hl := (List.getElem?_eq_some_iff.mp hc).1
      have ⟨es', s', hx', hg', hr', hcb⟩ := hwake (s.setCall i (.receiving reSendCnt)) reSendCnt rfl
        (by simp [RpcCalls.setCall, hl])
      have hsent : Step s (.sent i) (s.setCall i (.receiving reSendCnt)) := by
        simpa [hr] using Step.sent hc
      refine ⟨.sent i :: es', s', hx'.cons hsent, ?_, hr', hcb⟩
      simpa [Good] using hg'
    · exact hwake s reSendCnt rfl hc
  all_goals exact ⟨_, _, .single (.mgr hs trivial), by simp [Good], rfl, rfl⟩

-- A state of a good run, from which the goroutine is at most `n` of its steps away from its `select`.
structure Settling (n : Nat) (s : RpcCalls) : Prop where
  run  : ∃ es, Exec Step init es s ∧ (∀ e ∈ es, Good e) ∧ (rids es).Nodup
  left : ∃ xs, s.cb.Queued xs ∧ s.cb.mgr.Left xs n

theorem Settling.closer {n : Nat} (h : Settling n s) (hm : s.cb.mgr ≠ .select) :
    ∃ es s' n', Exec Step s es s' ∧ (∀ e ∈ es, Good e) ∧ Settling n' s' ∧ n' < n := by
  obtain ⟨es, hx, hg, hd⟩ := h.run
  obtain ⟨xs, hq, hl⟩ := h.left
  obtain ⟨e, cb', xs', n', hs, hq', hl', hn, hna, hnd⟩ := hq.progress hl hm
  obtain ⟨es₁, s₁, hx₁, hg₁, hr₁, rfl⟩ := (inv_of_exec hx hg hd).next hq hs hna hnd
  refine ⟨es₁, s₁, n', hx₁, hg₁, ⟨⟨es ++ es₁, hx.trans hx₁, fun e he => ?_, ?_⟩, xs', hq', hl'⟩, hn⟩
  · exact (List.mem_append.mp he).elim (hg e) (hg₁ e)
  · rwa [rids_append, hr₁, List.append_nil]

-- As long as no `MessageSend` fails behind a registration and the ids are distinct, every registered
-- callback belongs to a call that is going to receive, whoever sends to a call finds such a call, and
-- the goroutine of the callback manager gets back to serve its channels.
theorem registered_calls_receive (h : Exec Step init es s) (hg : ∀ e ∈ es, Good e)
    (hd : (rids es).Nodup) :
    (∀ rid ch node, s.cb.gCbMap rid = some (ch, node) → ∃ c, s.calls[ch]? = some c ∧ c.Waits) ∧
    (∀ now cur prev ch, s.cb.mgr = .call now cur prev →
      (s.cb.queue.heap cur).timeOutCb = some ch → ∃ c, s.calls[ch]? = some c ∧
      ((∃ rid reSendCnt, rid ≠ 0 ∧ c = .sending rid reSendCnt) ∨
        ∃ reSendCnt, c = .receiving reSendCnt)) ∧
    (∀ k ch, s.handlers k = .replying ch → ∃ c, s.calls[ch]? = some c ∧ c.Waits) ∧
    ∃ es' s', Exec Step s es' s' ∧ (∀ e ∈ es', Good e) ∧ s'.cb.mgr = .select := by
  have hinv := inv_of_exec h hg hd
  have ⟨xs, hq⟩ := queued_of_exec (cb_exec h)
  refine ⟨?_, fun _ _ _ _ hm ht => hinv.called hq hm ht, ?_, ?_⟩
  · exact fun rid ch node hn => hinv.owned.waits ch (.entry rid) ⟨node, hn⟩
  · exact fun k ch hk => hinv.owned.waits ch (.handler k) (.inr hk)
  · have ⟨n, hl⟩ := hq.tick.left
    have hsettling : Settling n s := ⟨⟨es, h, hg, hd⟩, xs, hq, hl⟩
    obtain ⟨es', s', hx, hg', _, hm⟩ := Exec.reach (fun _ _ => Settling.closer) hsettling
    exact ⟨es', s', hx, hg', hm⟩

-- Three calls have sent their messages. The response of the first one has come and its handler is about to
-- send on the channel, a tick is about to wake up the second one, and the third one is registered.
theorem waiting_calls_receive :
    ∃ es s es' s', Exec Step init es s ∧
      s.cb.gCbMap 3 = some (2, 2) ∧ (∃ c, s.calls[2]? = some c ∧ c.Waits) ∧
      s.cb.mgr = .call 40 1 (some 2) ∧
      (∃ c, s.calls[1]? = some c ∧
        ((∃ rid reSendCnt, rid ≠ 0 ∧ c = .sending rid reSendCnt) ∨
          ∃ reSendCnt, c = .receiving reSendCnt)) ∧
      s.handlers 0 = .replying 0 ∧ (∃ c, s.calls[0]? = some c ∧ c.Waits) ∧
      Exec Step s es' s' ∧ s'.cb.mgr = .select := by
  have h₁ := Exec.refl.snoc (show Step init (.call 1 0) _ from .call)
  have h₂ := h₁.snoc (.register (i := 0) 0 rfl (by decide))
  have h₃ := h₂.snoc (.added (i := 0) rfl (.recvAdd rfl (List.mem_singleton.mpr rfl)))
  have h₄ := h₃.snoc (.mgr (.queueAdd rfl rfl) trivial)
  have h₅ := h₄.snoc (.sent (i := 0) rfl)
  have h₆ := h₅.snoc (show Step _ (.call 2 1) _ from .call)
  have h₇ := h₆.snoc (.register (i := 1) 0 rfl (by decide))
  have h₈ := h₇.snoc (.added (i := 1) rfl (.recvAdd rfl (List.mem_singleton.mpr rfl)))
  have h₉ := h₈.snoc (.mgr (.queueAdd rfl rfl) trivial)
  have h₁₀ := h₉.snoc (.sent (i := 1) rfl)
  have h₁₁ := h₁₀.snoc (show Step _ (.call 3 0) _ from .call)
  have h₁₂ := h₁₁.snoc (.register (i := 2) 30 rfl (by decide))
  have h₁₃ := h₁₂.snoc (.added (i := 2) rfl (.recvAdd rfl (List.mem_singleton.mpr rfl)))
  have h₁₄ := h₁₃.snoc (.mgr (.queueAdd rfl rfl) trivial)
  have h₁₅ := h₁₄.snoc (.sent (i := 2) rfl)
  have h₁₆ := h₁₅.snoc (show Step _ (.get 0 1 (some 0)) _ from .get rfl rfl)
  have h₁₇ := h₁₆.snoc (.deleted (h := 0) rfl (.recvDel rfl (List.mem_singleton.mpr rfl)))
  have h₁₈ := h₁₇.snoc (.mgr (.queueDel rfl) trivial)
  have h₁₉ := h₁₈.snoc (.mgr (show MgrStep _ (.tick 40) _ from .tick rfl) trivial)
  have h₂₀ := h₁₉.snoc (.mgr (.expire rfl (by decide) rfl) trivial)
  obtain ⟨hentry, htick, hhandler, es', s', hx, -, hm⟩ :=
    registered_calls_receive h₂₀ (by simp [Good]) (by decide)
  exact ⟨_, _, es', s', h₂₀, rfl, hentry 3 2 2 rfl, rfl, htick 40 1 (some 2) 1 rfl rfl, rfl,
    hhandler 0 0 rfl, hx, hm⟩

-- A tick that is about to wake up a call that has returned.
structure Blocked (s : RpcCalls) (now : Int) (cur : Ptr) (prev : Option Ptr) (i : Nat) : Prop where
  mgr       : s.cb.mgr = .call now cur prev
  bound     : cur < s.cb.queue.alloc
  timeOutCb : (s.cb.queue.heap cur).timeOutCb = some i
  returned  : s.calls[i]? = some .returned

theorem Blocked.not_mgrStep (h : s.Blocked now cur prev i) (hm : MgrStep s.cb e cb') :
    ∃ cbid, e = .call cbid now i := by
  have hmgr := h.mgr
  cases hm
  case call cur' _ _ _ hc ht =>
    obtain ⟨rfl, rfl, rfl⟩ : _ ∧ _ ∧ _ := by simpa [hmgr] using hc
    obtain rfl : i = _ := by simpa [h.timeOutCb] using ht
    exact ⟨_, rfl⟩
  all_goals simp_all

theorem Blocked.returned_set (h : s.Blocked now cur prev i) (hj : s.calls[j]? = some c)
    (hc : c ≠ .returned) (d : RpcCall) : (s.calls.set j d)[i]? = some .returned := by
  have hne : j ≠ i := by
    rintro rfl
    exact hc (by simpa [hj] using h.returned)
  rw [List.getElem?_set_ne hne, h.returned]

theorem Step.blocked (hs : Step s ev s') (h : s.Blocked now cur prev i) :
    s'.Blocked now cur prev i := by
  cases hs
  case call   => exact ⟨h.mgr, h.bound, h.timeOutCb, by
    rw [List.getElem?_append_left (List.getElem?_eq_some_iff.mp h.returned).1]; exact h.returned⟩
  case genGid => exact ⟨h.mgr, h.bound, h.timeOutCb, h.returned⟩
  case register hi =>
    refine ⟨h.mgr, Nat.lt_succ_of_lt h.bound, ?_, h.returned_set hi nofun _⟩
    exact (congrArg Node.timeOutCb <| new_heap_of_ne <| Nat.ne_of_lt h.bound).trans h.timeOutCb
  case added hm | deleted hm => exact nomatch (h.not_mgrStep hm)
  case timeOut hm hi | resend hm hi =>
    obtain ⟨_, he⟩ := h.not_mgrStep hm
    cases he
    simp [h.returned] at hi
  case getNil => exact h
  case get hc =>
    rw [getCallBack_of_some hc]
    exact ⟨h.mgr, h.bound, h.timeOutCb, h.returned⟩
  case reply hi => exact ⟨h.mgr, h.bound, h.timeOutCb, h.returned_set hi nofun _⟩
  case mgr hint hm =>
    obtain ⟨_, rfl⟩ := h.not_mgrStep hm
    exact absurd hint id
  case noClient hi | async hi | sent hi | sendFailed hi | innerReturned hi _ =>
    exact ⟨h.mgr, h.bound, h.timeOutCb, h.returned_set hi nofun _⟩

-- There is no way out for it, whatever the other goroutines do.
theorem Blocked.forever (h : s.Blocked now cur prev i) (hx : Exec Step s es s') :
    s'.Blocked now cur prev i :=
  Exec.preserves (I := fun s => s.Blocked now cur prev i) h (fun _ _ _ h hs => Step.blocked hs h) hx

-- The callback of a call whose `MessageSend` fails stays registered behind the return of the call. When
-- it expires, the goroutine of the callback manager waits for a receiver forever.
theorem send_failure_blocks_manager :
    ∃ es₁ s₁ es₂ s₂, Exec Step init es₁ s₁ ∧ (rids es₁).Nodup ∧
      s₁.cb.gCbMap 1 = some (0, 0) ∧ s₁.calls[0]? = some .returned ∧
      Exec Step s₁ es₂ s₂ ∧ (∀ e ∈ es₂, Good e) ∧
      ∀ es s, Exec Step s₂ es s → s.cb.mgr = .call 100 0 none := by
  have h₁ := Exec.refl.snoc (show Step init (.call 1 0) _ from .call)
  have h₂ := h₁.snoc (.register (i := 0) 0 rfl (by decide))
  have h₃ := h₂.snoc (.added (i := 0) rfl (.recvAdd rfl (List.mem_singleton.mpr rfl)))
  have h₄ := h₃.snoc (.sendFailed (i := 0) rfl)
  refine ⟨_, _, _, _, h₄, by decide, rfl, rfl,
    .cons (.mgr (.queueAdd rfl rfl) trivial)
      (.cons (.mgr (show MgrStep _ (.tick 100) _ from .tick rfl) trivial)
        (.cons (.mgr (.expire rfl (by decide) rfl) trivial) .refl)), by simp [Good], ?_⟩
  intro es s hx
  exact (Blocked.forever (i := 0) ⟨rfl, by decide, rfl, rfl⟩ hx).mgr

end RpcCalls
