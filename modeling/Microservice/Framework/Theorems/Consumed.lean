import Microservice.Framework.Theorems.CallbackMgr

namespace Mgr

-- The timeout callback that a tick is about to call.
def pendingCall : Mgr → Option (Ptr × Int)
  | .call now cur _ => some (cur, now)
  | _               => none

theorem eq_call_of_pendingCall {mgr : Mgr} (h : mgr.pendingCall = some (cur, now)) :
    ∃ prev, mgr = .call now cur prev := by
  cases mgr <;> simp_all [pendingCall]

end Mgr

namespace CallbackMgr

open PriorityQueue

variable {β τ : Type*} {m m' : CallbackMgr β τ} {es es' : List (Event β τ)} {ev : Event β τ}
variable {cbid : UInt32} {p p' : Ptr}

namespace Event

def adds : Event β τ → Option UInt32
  | .add cbid .. => some cbid
  | _            => none

def takes (cbid : UInt32) : Event β τ → Option β
  | .get c cbs => if c = cbid then cbs else none
  | _          => none

def expires (cbid : UInt32) : Event β τ → Option Int
  | .mgr (.expire c now) => if c = cbid then some now else none
  | _                    => none

def calls (cbid : UInt32) : Event β τ → Option (Int × τ)
  | .mgr (.call c now cb) => if c = cbid then some (now, cb) else none
  | _                     => none

def returns : Event β τ → Option Ptr
  | .mgr (.recvDel node) => some node
  | _                    => none

end Event

-- The ids that were registered.
def added (es : List (Event β τ)) : List UInt32 :=
  es.filterMap Event.adds

-- What the calls of `GetCallBack` for an id found.
def taken (cbid : UInt32) (es : List (Event β τ)) : List β :=
  es.filterMap (Event.takes cbid)

-- The times at which ticks found an id to be expired.
def expired (cbid : UInt32) (es : List (Event β τ)) : List Int :=
  es.filterMap (Event.expires cbid)

-- The calls of the timeout callback of an id.
def called (cbid : UInt32) (es : List (Event β τ)) : List (Int × τ) :=
  es.filterMap (Event.calls cbid)

-- The nodes whose `GetCallBack` has handed them over and thereby returns.
def returned (es : List (Event β τ)) : List Ptr :=
  es.filterMap Event.returns

-- A callback was registered, with the node at `p`.
structure Registered (es : List (Event β τ)) (m : CallbackMgr β τ) (cbid : UInt32) (cbs : β)
    (p : Ptr) : Prop where
  bound : p < m.queue.alloc
  id    : (m.queue.heap p).cbid = cbid
  mem   : .add cbid cbs (m.queue.heap p).endTime (m.queue.heap p).timeOutCb ∈ es

-- What has become of an id so far.
inductive Fate (es : List (Event β τ)) (m : CallbackMgr β τ) (cbid : UInt32) : Prop
  | unknown :
    cbid ∉ added es → m.gCbMap cbid = none → taken cbid es = [] → expired cbid es = [] →
    called cbid es = [] → Fate es m cbid
  | waiting (cbs : β) (p : Ptr) :
    Registered es m cbid cbs p → m.gCbMap cbid = some (cbs, p) → taken cbid es = [] →
    expired cbid es = [] → called cbid es = [] → Fate es m cbid
  | got (cbs : β) (p : Ptr) :
    Registered es m cbid cbs p → m.gCbMap cbid = none → taken cbid es = [cbs] →
    expired cbid es = [] → called cbid es = [] → Fate es m cbid
  | lapsed (cbs : β) (p : Ptr) (now : Int) :
    Registered es m cbid cbs p → m.gCbMap cbid = none → taken cbid es = [] →
    expired cbid es = [now] → (m.queue.heap p).endTime ≤ now →
    called cbid es = (if m.mgr.pendingCall = some (p, now) then []
      else (m.queue.heap p).timeOutCb.toList.map (now, ·)) → Fate es m cbid

-- Nodes stay as they are registered.
structure Keeps (m m' : CallbackMgr β τ) : Prop where
  alloc : m.queue.alloc ≤ m'.queue.alloc
  data  : ∀ p < m.queue.alloc, (m'.queue.heap p).cbid = (m.queue.heap p).cbid ∧
    (m'.queue.heap p).endTime = (m.queue.heap p).endTime ∧
    (m'.queue.heap p).timeOutCb = (m.queue.heap p).timeOutCb

theorem Keeps.of_agrees (h : Agrees m.queue m'.queue) : m.Keeps m' :=
  ⟨h.alloc.ge, fun p _ => ⟨h.cbid p, h.endTime p, h.timeOutCb p⟩⟩

theorem Registered.keeps (h : Registered es m cbid cbs p) (hk : m.Keeps m') (hs : es ⊆ es') :
    Registered es' m' cbid cbs p := by
  have ⟨h₁, h₂, h₃⟩ := hk.data p h.bound
  exact ⟨Nat.lt_of_lt_of_le h.bound hk.alloc, h₁.trans h.id, by rw [h₂, h₃]; exact hs h.mem⟩

-- A step does not concern an id.
structure Spares (cbid : UInt32) (m : CallbackMgr β τ) (ev : Event β τ) (m' : CallbackMgr β τ) :
    Prop where
  adds    : ev.adds ≠ some cbid
  takes   : ev.takes cbid = none
  expires : ev.expires cbid = none
  calls   : ev.calls cbid = none
  gCbMap  : m'.gCbMap cbid = m.gCbMap cbid
  pending : ∀ p < m.queue.alloc, (m.queue.heap p).cbid = cbid → ∀ now,
    m'.mgr.pendingCall = some (p, now) ↔ m.mgr.pendingCall = some (p, now)

theorem Spares.fate (hs : Spares cbid m ev m') (hk : m.Keeps m') (h : Fate es m cbid) :
    Fate (es ++ [ev]) m' cbid := by
  have ht : taken cbid (es ++ [ev]) = taken cbid es := by
    simp [taken, List.filterMap_append, hs.takes]
  have he : expired cbid (es ++ [ev]) = expired cbid es := by
    simp [expired, List.filterMap_append, hs.expires]
  have hc : called cbid (es ++ [ev]) = called cbid es := by
    simp [called, List.filterMap_append, hs.calls]
  have hsub : es ⊆ es ++ [ev] := List.subset_append_left ..
  cases h
  case unknown ha hg h₁ h₂ h₃ =>
    refine .unknown (fun hm => ?_) (hs.gCbMap ▸ hg) (ht ▸ h₁) (he ▸ h₂) (hc ▸ h₃)
    obtain hm | hm := by simpa [added, List.filterMap_append] using hm
    · exact ha <| List.mem_filterMap.mpr hm
    · exact hs.adds hm
  case waiting cbs p hr hg h₁ h₂ h₃ =>
    exact .waiting cbs p (hr.keeps hk hsub) (hs.gCbMap ▸ hg) (ht ▸ h₁) (he ▸ h₂) (hc ▸ h₃)
  case got cbs p hr hg h₁ h₂ h₃ =>
    exact .got cbs p (hr.keeps hk hsub) (hs.gCbMap ▸ hg) (ht ▸ h₁) (he ▸ h₂) (hc ▸ h₃)
  case lapsed cbs p now hr hg h₁ h₂ hl h₃ =>
    have ⟨_, hd₂, hd₃⟩ := hk.data p hr.bound
    refine .lapsed cbs p now (hr.keeps hk hsub) (hs.gCbMap ▸ hg) (ht ▸ h₁) (he ▸ h₂) (hd₂ ▸ hl) ?_
    rw [hc, h₃, hd₃]
    simp only [hs.pending p hr.bound hr.id now]

-- What a run has made of all ids. The nodes on the heap are those that were registered, in order.
structure History (es : List (Event β τ)) (m : CallbackMgr β τ) : Prop where
  ids     : added es = (List.range m.queue.alloc).map (fun p => (m.queue.heap p).cbid)
  fate    : ∀ cbid, Fate es m cbid
  calling : ∀ cur now, m.mgr.pendingCall = some (cur, now) →
    cur < m.queue.alloc ∧ expired (m.queue.heap cur).cbid es = [now]
  handed  : ∀ p, m.chQueueDel.count p + (returned es).count p =
    if p < m.queue.alloc then (taken (m.queue.heap p).cbid es).length else 0

theorem init_history : History [] (init : CallbackMgr β τ) where
  ids         := rfl
  fate _      := .unknown (by simp [added]) rfl rfl rfl rfl
  calling _ _ := nofun
  handed _    := rfl

-- Distinct ids belong to distinct nodes.
theorem History.injective (h : History es m) (hd : (added es).Nodup) (hp : p < m.queue.alloc)
    (hp' : p' < m.queue.alloc) (hc : (m.queue.heap p).cbid = (m.queue.heap p').cbid) : p = p' :=
  List.inj_on_of_nodup_map (h.ids ▸ hd) (List.mem_range.mpr hp) (List.mem_range.mpr hp') hc

theorem added_snoc : added (es ++ [ev]) = added es ++ ev.adds.toList := by
  cases h : ev.adds <;> simp [added, List.filterMap_append, h]

theorem taken_snoc : taken cbid (es ++ [ev]) = taken cbid es ++ (ev.takes cbid).toList := by
  cases h : ev.takes cbid <;> simp [taken, List.filterMap_append, h]

theorem expired_snoc : expired cbid (es ++ [ev]) = expired cbid es ++ (ev.expires cbid).toList := by
  cases h : ev.expires cbid <;> simp [expired, List.filterMap_append, h]

theorem called_snoc : called cbid (es ++ [ev]) = called cbid es ++ (ev.calls cbid).toList := by
  cases h : ev.calls cbid <;> simp [called, List.filterMap_append, h]

theorem returned_snoc : returned (es ++ [ev]) = returned es ++ ev.returns.toList := by
  cases h : ev.returns <;> simp [returned, List.filterMap_append, h]

theorem Registered.mem_added (h : Registered es m cbid cbs p) : cbid ∈ added es :=
  List.mem_filterMap.mpr ⟨_, h.mem, rfl⟩

theorem Fate.unknown_of_not_mem (h : Fate es m cbid) (hn : cbid ∉ added es) :
    m.gCbMap cbid = none ∧ taken cbid es = [] ∧ expired cbid es = [] ∧ called cbid es = [] := by
  cases h
  case unknown _ hg h₁ h₂ h₃              => exact ⟨hg, h₁, h₂, h₃⟩
  case waiting hr _ _ _ _ | got hr _ _ _ _ | lapsed hr _ _ _ _ _ => exact absurd hr.mem_added hn

theorem Fate.waiting_of_some (h : Fate es m cbid) (hg : m.gCbMap cbid = some (cbs, p)) :
    Registered es m cbid cbs p ∧ taken cbid es = [] ∧ expired cbid es = [] ∧ called cbid es = [] := by
  cases h
  case waiting cbs' p' hr hg' h₁ h₂ h₃ =>
    obtain ⟨rfl, rfl⟩ : cbs' = cbs ∧ p' = p := by simpa [hg] using hg'.symm
    exact ⟨hr, h₁, h₂, h₃⟩
  case unknown hg' _ _ _ | got hg' _ _ _ | lapsed hg' _ _ _ _ => simp [hg] at hg'

theorem Fate.taken_length_le (h : Fate es m cbid) : (taken cbid es).length ≤ 1 := by
  cases h <;> simp [*]

-- A callback is in the map until it is consumed.
theorem Fate.some_of_added (h : Fate es m cbid) (ha : cbid ∈ added es) (ht : taken cbid es = [])
    (he : expired cbid es = []) : ∃ cbs p, m.gCbMap cbid = some (cbs, p) := by
  cases h
  case unknown hn _ _ _ _         => exact absurd ha hn
  case waiting cbs p _ hg _ _ _   => exact ⟨cbs, p, hg⟩
  case got cbs _ _ _ ht' _ _      => simp [ht] at ht'
  case lapsed now _ _ _ he' _ _   => simp [he] at he'

theorem addCallBack_alloc :
    (m.addCallBack cbid cbs waitTime now timeOutCb).queue.alloc = m.queue.alloc + 1 :=
  rfl

theorem addCallBack_keeps : m.Keeps (m.addCallBack cbid cbs waitTime now timeOutCb) where
  alloc     := Nat.le_succ _
  data p hp := by
    have he : (m.addCallBack cbid cbs waitTime now timeOutCb).queue.heap p = m.queue.heap p :=
      new_heap_of_ne (Nat.ne_of_lt hp)
    simp [he]

theorem Step.keeps (hs : Step m ev m') (hq : m.Queued xs) : m.Keeps m' := by
  cases hs
  case add      => exact addCallBack_keeps
  case get cbid =>
    rw [getCallBack]
    split <;> exact .of_agrees .refl
  case mgr hs   => exact .of_agrees (MgrStep.queued hs hq).1

theorem Queued.pending_bound (h : m.Queued xs) (hp : m.mgr.pendingCall = some (p, now)) :
    p < m.queue.alloc := by
  obtain ⟨prev, hm⟩ := Mgr.eq_call_of_pendingCall hp
  have htick := h.tick
  rw [hm] at htick
  obtain ⟨as, bs, rfl, _⟩ := htick
  exact h.queue.bound p (by simp)

-- An entry was there before, unless it was just added.
theorem Step.entry_cases (hs : Step m ev m') (hx : m'.gCbMap cbid = some (cbs, p)) :
    m.gCbMap cbid = some (cbs, p) ∨
    p = m.queue.alloc ∧ ∃ endTime timeOutCb, ev = .add cbid cbs endTime timeOutCb := by
  cases hs
  case add =>
    obtain ⟨rfl, he⟩ | ⟨_, hx⟩ := Partial.insert_eq_some_iff.mp hx
    · cases he
      exact .inr ⟨rfl, _, _, rfl⟩
    · exact .inl hx
  case get cbid' =>
    refine .inl ?_
    cases hg : m.gCbMap cbid'
    case none =>
      rwa [getCallBack_of_none hg] at hx
    case some e =>
      rw [getCallBack_of_some hg] at hx
      exact (Partial.erase_eq_some_iff.mp hx).2
  case mgr hs => exact .inl (hs.gCbMap hx)

-- So was a node.
theorem Step.node_cases (hs : Step m ev m') (hq : m.Queued xs) (hp : p < m'.queue.alloc) :
    p < m.queue.alloc ∨
    ∃ cbs endTime, ev = .add (m'.queue.heap p).cbid cbs endTime (m'.queue.heap p).timeOutCb := by
  cases hs
  case add cbid cbs waitTime now timeOutCb =>
    obtain hp | rfl := Nat.lt_succ_iff_lt_or_eq.mp hp
    · exact .inl hp
    · have hn : (m.addCallBack cbid cbs waitTime now timeOutCb).queue.heap m.queue.alloc =
          ⟨cbid, waitTime.toInt + now, timeOutCb, none, none⟩ := Function.update_self ..
      exact .inr ⟨cbs, waitTime.toInt + now, by rw [hn]⟩
  case get cbid =>
    rw [getCallBack_queue] at hp
    exact .inl hp
  case mgr hs => exact .inl ((MgrStep.queued hs hq).1.alloc ▸ hp)

-- A tick is about to call a timeout callback, since it has found the callback to be expired.
theorem Step.pending_cases (hs : Step m ev m') (hq : m.Queued xs)
    (hp : m'.mgr.pendingCall = some (p, now)) :
    m.mgr.pendingCall = some (p, now) ∨
    p < m.queue.alloc ∧ ev = .mgr (.expire (m.queue.heap p).cbid now) ∧
      m'.gCbMap (m.queue.heap p).cbid = none := by
  cases hs
  case add      => exact .inl hp
  case get cbid =>
    rw [getCallBack_mgr] at hp
    exact .inl hp
  case mgr hs   =>
    cases hs
    case expire cur hc hl hg =>
      have ⟨as, bs, hx, _⟩ := hq.visit hc
      have hb : cur < m.queue.alloc := hq.queue.bound cur (by simp [hx])
      cases ht : (m.queue.heap cur).timeOutCb
      case none   => simp [ht, Mgr.pendingCall] at hp
      case some t =>
        obtain ⟨rfl, rfl⟩ : cur = p ∧ _ = now := by simpa [ht, Mgr.pendingCall] using hp
        exact .inr ⟨hb, rfl, Partial.erase_self⟩
    all_goals exact nomatch hp

-- A node waits to be handed over until it is.
theorem Step.mem_chQueueDel (hs : Step m ev m') (hn : p ∈ m.chQueueDel)
    (he : ev ≠ .mgr (.recvDel p)) : p ∈ m'.chQueueDel := by
  cases hs
  case add      => exact hn
  case get cbid =>
    rw [getCallBack]
    split
    · exact hn
    · exact List.mem_append_left _ hn
  case mgr hs   =>
    cases hs
    case recvDel node _ _ =>
      have hne : p ≠ node := fun h => he (h ▸ rfl)
      exact (List.mem_erase_of_ne hne).mpr hn
    all_goals exact hn

theorem History.add (h : History es m) (cbid : UInt32) (cbs : β) (waitTime : Int8) (now : Int)
    (timeOutCb : Option τ) (hn : cbid ∉ added es) :
    History (es ++ [.add cbid cbs (waitTime.toInt + now) timeOutCb])
      (m.addCallBack cbid cbs waitTime now timeOutCb) := by
  have hk : m.Keeps (m.addCallBack cbid cbs waitTime now timeOutCb) := addCallBack_keeps
  have ha : (m.addCallBack cbid cbs waitTime now timeOutCb).queue.heap m.queue.alloc =
      ⟨cbid, waitTime.toInt + now, timeOutCb, none, none⟩ := Function.update_self ..
  have ⟨_, ht, he, hc⟩ := (h.fate cbid).unknown_of_not_mem hn
  constructor
  case ids =>
    rw [added_snoc, h.ids, addCallBack_alloc, List.range_succ, List.map_append, List.map_singleton, ha]
    refine congrArg (· ++ [cbid]) (List.map_congr_left fun p hp => ?_)
    exact (hk.data p (List.mem_range.mp hp)).1.symm
  case fate =>
    intro c
    by_cases hcc : c = cbid
    case pos =>
      subst hcc
      refine .waiting cbs m.queue.alloc ⟨Nat.lt_succ_self _, by rw [ha], by rw [ha]; simp⟩
        Partial.insert_self ?_ ?_ ?_
      · simp [taken_snoc, Event.takes, ht]
      · simp [expired_snoc, Event.expires, he]
      · simp [called_snoc, Event.calls, hc]
    case neg =>
      refine Spares.fate ⟨?_, rfl, rfl, rfl, Partial.insert_of_ne hcc, fun _ _ _ _ => .rfl⟩ hk (h.fate c)
      simpa [Event.adds] using Ne.symm hcc
  case calling =>
    intro cur now' hm
    have ⟨hb, hx⟩ := h.calling cur now' hm
    refine ⟨Nat.lt_succ_of_lt hb, ?_⟩
    rw [(hk.data cur hb).1, expired_snoc]
    simpa [Event.expires] using hx
  case handed =>
    intro p
    have hp := h.handed p
    rw [returned_snoc, taken_snoc]
    simp only [Event.returns, Event.takes, Option.toList_none, List.append_nil]
    refine Eq.trans hp ?_
    rw [addCallBack_alloc]
    obtain hl | rfl | hg := Nat.lt_trichotomy p m.queue.alloc
    · rw [if_pos hl, if_pos (Nat.lt_succ_of_lt hl), (hk.data p hl).1]
    · rw [if_neg (Nat.lt_irrefl _), if_pos (Nat.lt_succ_self _), ha, ht, List.length_nil]
    · rw [if_neg (Nat.lt_asymm hg), if_neg (Nat.not_lt.mpr hg)]

theorem History.get (h : History es m) (hd : (added es).Nodup) (cbid : UInt32) :
    History (es ++ [.get cbid ((m.gCbMap cbid).map Prod.fst)]) (m.getCallBack cbid) := by
  have hx : ∀ c, c ≠ cbid → ∀ r : Option β, Event.takes c (.get cbid r : Event β τ) = none :=
    fun c hc r => if_neg (Ne.symm hc)
  cases hg : m.gCbMap cbid
  case none =>
    have hm := getCallBack_of_none hg
    have ht : ∀ c, Event.takes c (.get cbid none : Event β τ) = none := fun c => ite_self _
    rw [hm]
    constructor
    case ids     => simpa [added_snoc, Event.adds] using h.ids
    case fate    =>
      intro c
      have hs : Spares c m (.get cbid none) m :=
        ⟨by simp [Event.adds], ht c, rfl, rfl, rfl, fun _ _ _ _ => .rfl⟩
      exact hs.fate (.of_agrees .refl) (h.fate c)
    case calling => simpa [expired_snoc, Event.expires] using h.calling
    case handed  => simpa [returned_snoc, taken_snoc, Event.returns, ht] using h.handed
  case some e =>
    obtain ⟨cbs, p⟩ := e
    have ⟨hr, ht, he, hc⟩ := (h.fate cbid).waiting_of_some hg
    have hm := getCallBack_of_some hg
    have hk : m.Keeps (m.getCallBack cbid) := by rw [hm]; exact .of_agrees .refl
    have hs : Event.takes cbid (.get cbid (some cbs) : Event β τ) = some cbs := if_pos rfl
    constructor
    case ids => rw [hm]; simpa [added_snoc, Event.adds] using h.ids
    case fate =>
      intro c
      by_cases hcc : c = cbid
      case pos =>
        subst hcc
        refine .got cbs p (hr.keeps hk (List.subset_append_left ..)) ?_ ?_ ?_ ?_
        · simp [hm]
        · simp [taken_snoc, ht, hs]
        · simp [expired_snoc, Event.expires, he]
        · simp [called_snoc, Event.calls, hc]
      case neg =>
        refine Spares.fate ⟨by simp [Event.adds], hx c hcc _, rfl, rfl, ?_, ?_⟩ hk (h.fate c)
        · simp [hm, Partial.erase_of_ne hcc]
        · simp [hm]
    case calling => rw [hm]; simpa [expired_snoc, Event.expires] using h.calling
    case handed =>
      intro p'
      have hp := h.handed p'
      simp only [hm, returned_snoc, taken_snoc, Event.returns, Option.toList_none, List.append_nil,
        Option.map_some]
      by_cases hpp : p' = p
      case pos =>
        subst hpp
        rw [if_pos hr.bound, hr.id, ht] at hp
        rw [if_pos hr.bound, hr.id, ht, hs, List.count_append]
        simp at hp ⊢
        omega
      case neg =>
        have hcount : (m.chQueueDel ++ [p]).count p' = m.chQueueDel.count p' := by
          simp [List.count_append, Ne.symm hpp]
        rw [hcount, hp]
        by_cases hl : p' < m.queue.alloc
        case pos =>
          have hne : (m.queue.heap p').cbid ≠ cbid := fun hc =>
            hpp <| h.injective hd hl hr.bound (hc.trans hr.id.symm)
          rw [if_pos hl, if_pos hl, hx _ hne, Option.toList_none, List.append_nil]
        case neg => rw [if_neg hl, if_neg hl]

-- Most steps of the goroutine concern no id at all.
theorem History.quiet (h : History es m) (ha : Agrees m.queue m'.queue) (hg : m'.gCbMap = m.gCbMap)
    (hp : m.mgr.pendingCall = none) (hp' : m'.mgr.pendingCall = none)
    (he : ∀ c, (Event.mgr e : Event β τ).expires c = none)
    (hc : ∀ c, (Event.mgr e : Event β τ).calls c = none)
    (hh : ∀ p, m'.chQueueDel.count p + (returned (es ++ [.mgr e])).count p =
      m.chQueueDel.count p + (returned es).count p) : History (es ++ [.mgr e]) m' where
  ids     := by simpa [added_snoc, Event.adds, ha.alloc, ha.cbid] using h.ids
  fate c  := by
    have hs : Spares c m (.mgr e) m' :=
      ⟨by simp [Event.adds], rfl, he c, hc c, by rw [hg], by simp [hp, hp']⟩
    exact hs.fate (.of_agrees ha) (h.fate c)
  calling := by simp [hp']
  handed  := by
    intro p
    rw [hh p, h.handed p, ha.alloc, ha.cbid, taken_snoc]
    simp [Event.takes]

theorem History.expire (h : History es m) (hd : (added es).Nodup) (hb : cur < m.queue.alloc)
    (hm : m.mgr.pendingCall = none) (hl : (m.queue.heap cur).endTime ≤ now)
    (hg : m.gCbMap (m.queue.heap cur).cbid = some e)
    (hq : m'.queue = m.queue) (hg' : m'.gCbMap = m.gCbMap.erase (m.queue.heap cur).cbid)
    (hch : m'.chQueueDel = m.chQueueDel)
    (hm' : m'.mgr.pendingCall = (m.queue.heap cur).timeOutCb.map (fun _ => (cur, now))) :
    History (es ++ [.mgr (.expire (m.queue.heap cur).cbid now)]) m' := by
  obtain ⟨cbs, p⟩ := e
  have ⟨hr, ht, he, hc⟩ := (h.fate (m.queue.heap cur).cbid).waiting_of_some hg
  -- The entry belongs to the node that is visited, as the ids are distinct.
  obtain rfl : p = cur := h.injective hd hr.bound hb hr.id
  have hk : m.Keeps m' := .of_agrees (hq ▸ .refl)
  have hx : (Event.mgr (.expire (m.queue.heap p).cbid now) : Event β τ).expires
      (m.queue.heap p).cbid = some now := if_pos rfl
  constructor
  case ids => simpa [added_snoc, Event.adds, hq] using h.ids
  case fate =>
    intro c
    by_cases hcc : c = (m.queue.heap p).cbid
    case pos =>
      subst hcc
      refine .lapsed cbs p now (hr.keeps hk (List.subset_append_left ..)) ?_ ?_ ?_ (hq ▸ hl) ?_
      · simp [hg']
      · simp [taken_snoc, Event.takes, ht]
      · simp [expired_snoc, he, hx]
      · rw [called_snoc, hc, hm', hq]
        cases (m.queue.heap p).timeOutCb <;> simp [Event.calls]
    case neg =>
      refine Spares.fate ⟨by simp [Event.adds], rfl, if_neg (Ne.symm hcc), rfl, ?_, ?_⟩ hk (h.fate c)
      · simp [hg', Partial.erase_of_ne hcc]
      · intro p' _ hp' now'
        have hne : p' ≠ p := fun he => hcc (he ▸ hp'.symm)
        rw [hm, hm']
        cases (m.queue.heap p).timeOutCb <;> simp [Ne.symm hne]
  case calling =>
    intro cur' now' hcall
    obtain ⟨rfl, rfl⟩ : p = cur' ∧ now = now' := by
      rw [hm'] at hcall
      cases hcb : (m.queue.heap p).timeOutCb <;> simp_all
    exact ⟨hq ▸ hb, by rw [hq, expired_snoc, he, hx]; rfl⟩
  case handed =>
    intro p'
    rw [hch, hq, returned_snoc, taken_snoc]
    simpa [Event.returns, Event.takes] using h.handed p'

theorem History.call (h : History es m) (hd : (added es).Nodup)
    (hm : m.mgr.pendingCall = some (cur, now)) (hcb : (m.queue.heap cur).timeOutCb = some cb)
    (hq : m'.queue = m.queue) (hg : m'.gCbMap = m.gCbMap) (hch : m'.chQueueDel = m.chQueueDel)
    (hm' : m'.mgr.pendingCall = none) :
    History (es ++ [.mgr (.call (m.queue.heap cur).cbid now cb)]) m' := by
  have ⟨hb, hx⟩ := h.calling cur now hm
  have hk : m.Keeps m' := .of_agrees (hq ▸ .refl)
  constructor
  case ids => simpa [added_snoc, Event.adds, hq] using h.ids
  case fate =>
    intro c
    by_cases hcc : c = (m.queue.heap cur).cbid
    case pos =>
      subst hcc
      cases h.fate (m.queue.heap cur).cbid
      case lapsed cbs p now' hr hg' h₁ h₂ hl h₃ =>
        obtain rfl : p = cur := h.injective hd hr.bound hb hr.id
        obtain rfl : now' = now := by simpa [hx] using h₂.symm
        rw [if_pos hm] at h₃
        refine .lapsed cbs p now' (hr.keeps hk (List.subset_append_left ..)) (hg ▸ hg') ?_ ?_
          (hq ▸ hl) ?_
        · simp [taken_snoc, Event.takes, h₁]
        · simp [expired_snoc, Event.expires, h₂]
        · simp [called_snoc, Event.calls, h₃, hm', hq, hcb]
      case unknown he _ | waiting he _ | got he _ => simp [hx] at he
    case neg =>
      refine Spares.fate ⟨by simp [Event.adds], rfl, rfl, if_neg (Ne.symm hcc), by rw [hg], ?_⟩ hk
        (h.fate c)
      intro p' _ hp' now'
      have hne : p' ≠ cur := fun he => hcc (he ▸ hp'.symm)
      simp [hm, hm', Ne.symm hne]
  case calling => simp [hm']
  case handed =>
    intro p'
    rw [hch, hq, returned_snoc, taken_snoc]
    simpa [Event.returns, Event.takes] using h.handed p'

theorem MgrStep.history (hs : MgrStep m e m') (hq : m.Queued xs) (hd : (added es).Nodup)
    (h : History es m) : History (es ++ [.mgr e]) m' := by
  have ha := (hs.queued hq).1
  cases hs
  case recvDel node hm hn =>
    refine h.quiet ha rfl (by simp [hm, Mgr.pendingCall]) rfl (fun _ => rfl) (fun _ => rfl) ?_
    intro p
    rw [returned_snoc, List.count_append]
    by_cases hp : p = node
    case pos =>
      have := List.count_pos_iff.mpr hn
      simp [hp, Event.returns, List.count_erase_self]
      omega
    case neg => simp [Event.returns, List.count_erase_of_ne hp, Ne.symm hp]
  case expire now e cur hm hl hg =>
    have ⟨as, bs, hx, _⟩ := hq.visit hm
    refine h.expire hd (hq.queue.bound cur (by simp [hx])) (by simp [hm, Mgr.pendingCall]) hl hg
      rfl rfl rfl ?_
    cases (m.queue.heap cur).timeOutCb <;> rfl
  case call hm hcb => exact h.call hd (by simp [hm, Mgr.pendingCall]) hcb rfl rfl rfl rfl
  case recvAdd hm _ | queueAdd hm _ | queueDel hm | tick hm | finish hm | «break» hm _
      | stale hm _ _ | unlink hm =>
    refine h.quiet ha rfl (by simp [hm, Mgr.pendingCall]) rfl (fun _ => rfl) (fun _ => rfl) ?_
    simp [returned_snoc, Event.returns]

theorem Step.history (hs : Step m ev m') (hq : m.Queued xs) (hd : (added (es ++ [ev])).Nodup)
    (h : History es m) : History (es ++ [ev]) m' := by
  have hd' := hd
  rw [added_snoc] at hd
  have hes := (List.nodup_append.mp hd).1
  cases hs
  case add cbid cbs waitTime now timeOutCb =>
    refine h.add cbid cbs waitTime now timeOutCb fun hm => ?_
    exact (List.nodup_append.mp hd).2.2 cbid hm cbid (by simp [Event.adds]) rfl
  case get cbid => exact h.get hes cbid
  case mgr hs   => exact MgrStep.history hs hq hes h

-- As long as the ids are distinct, a run of the callback manager keeps its history.
theorem history_of_exec (h : Exec Step (init : CallbackMgr β τ) es m) (hd : (added es).Nodup) :
    History es m := by
  refine Exec.invariant (I := fun es (m : CallbackMgr β τ) => (added es).Nodup → History es m)
    (fun _ => init_history) (fun es m ev m' hx hi hs hd => ?_) h hd
  have ⟨xs, hq⟩ := queued_of_exec hx
  exact hs.history hq hd <| hi (List.nodup_append.mp (added_snoc ▸ hd)).1

-- What may have become of a callback: one `GetCallBack` has got it, which returns it as soon as the
-- node is handed over, or one tick has expired it, or it is not consumed yet.
inductive Consumed (es : List (Event β τ)) (m : CallbackMgr β τ) (cbid : UInt32) : Prop
  | got (cbs : β) (endTime : Int) (timeOutCb : Option τ) (node : Ptr) :
    .add cbid cbs endTime timeOutCb ∈ es → (m.queue.heap node).cbid = cbid →
    taken cbid es = [cbs] → m.chQueueDel.count node + (returned es).count node = 1 →
    expired cbid es = [] → called cbid es = [] → Consumed es m cbid
  | lapsed (cbs : β) (endTime now : Int) (timeOutCb : Option τ) :
    .add cbid cbs endTime timeOutCb ∈ es → taken cbid es = [] → expired cbid es = [now] →
    endTime ≤ now →
    called cbid es = timeOutCb.toList.map (now, ·) ∨
      (called cbid es = [] ∧ ∃ cur prev, m.mgr = .call now cur prev ∧ (m.queue.heap cur).cbid = cbid) →
    Consumed es m cbid
  | pending :
    taken cbid es = [] → expired cbid es = [] → called cbid es = [] → Consumed es m cbid

theorem History.consumed (h : History es m) (cbid : UInt32) : Consumed es m cbid := by
  cases h.fate cbid
  case unknown _ _ h₁ h₂ h₃     => exact .pending h₁ h₂ h₃
  case waiting _ _ _ _ h₁ h₂ h₃ => exact .pending h₁ h₂ h₃
  case got cbs p hr _ h₁ h₂ h₃ =>
    have hp := h.handed p
    rw [if_pos hr.bound, hr.id, h₁] at hp
    exact .got cbs _ _ p hr.mem hr.id h₁ hp h₂ h₃
  case lapsed cbs p now hr _ h₁ h₂ hl h₃ =>
    refine .lapsed cbs _ now _ hr.mem h₁ h₂ hl ?_
    by_cases hc : m.mgr.pendingCall = some (p, now)
    case pos =>
      have ⟨prev, hm⟩ := Mgr.eq_call_of_pendingCall hc
      exact .inr ⟨by rw [h₃, if_pos hc], p, prev, hm, hr.id⟩
    case neg => exact .inl (by rw [h₃, if_neg hc])

theorem History.called_in_time (h : History es m) (hc : .mgr (.call cbid now cb) ∈ es) :
    ∃ cbs endTime, .add cbid cbs endTime (some cb) ∈ es ∧ endTime ≤ now := by
  have hm : (now, cb) ∈ called cbid es := List.mem_filterMap.mpr ⟨_, hc, if_pos rfl⟩
  cases h.fate cbid
  case unknown h₃ | waiting h₃ | got h₃ => simp [h₃] at hm
  case lapsed cbs p now' hr _ _ _ hl h₃ =>
    rw [h₃] at hm
    split at hm
    · simp at hm
    · obtain ⟨cb', hcb, he⟩ := List.mem_map.mp hm
      obtain ⟨rfl, rfl⟩ : now' = now ∧ cb' = cb := by simpa using he
      exact ⟨cbs, _, Option.mem_toList.mp hcb ▸ hr.mem, hl⟩

theorem callback_consumed_at_most_once (h : Exec Step (init : CallbackMgr β τ) es m)
    (hd : (added es).Nodup) :
    (∀ cbid, Consumed es m cbid) ∧
    (∀ cbid now cb, .mgr (.call cbid now cb) ∈ es →
      ∃ cbs endTime, .add cbid cbs endTime (some cb) ∈ es ∧ endTime ≤ now) :=
  have hh := history_of_exec h hd
  ⟨hh.consumed, fun _ _ _ hc => hh.called_in_time hc⟩

-- A callback that is due at 10 expires in the tick at 10. The late `GetCallBack` finds nothing.
theorem callback_expired_then_late_get :
    ∃ es m, Exec Step (init : CallbackMgr Unit Unit) es m ∧ (added es).Nodup ∧
      called 7 es = [(10, ())] ∧ .get 7 none ∈ es ∧ Consumed es m 7 := by
  have h₁ := Exec.refl.snoc (Step.add (m := (init : CallbackMgr Unit Unit)) 7 () 10 0 (some ()))
  have h₂ := h₁.snoc (.mgr (.recvAdd rfl (List.mem_singleton.mpr rfl)))
  have h₃ := h₂.snoc (.mgr (.queueAdd rfl rfl))
  have h₄ := h₃.snoc (.mgr (show MgrStep _ (.tick 10) _ from .tick rfl))
  have h₅ := h₄.snoc (.mgr (.expire rfl (by decide) rfl))
  have h₆ := h₅.snoc (.mgr (.call rfl rfl))
  have h₇ := h₆.snoc (.mgr (.unlink rfl))
  have h₈ := h₇.snoc (.mgr (.finish rfl))
  have h₉ := h₈.snoc (.get 7)
  have hd : (added [.add 7 () 10 (some ()), .mgr (.recvAdd 0), .mgr (.queueAdd 0), .mgr (.tick 10),
      .mgr (.expire 7 10), .mgr (.call 7 10 ()), .mgr (.unlink 0), .mgr .done,
      (.get 7 none : Event Unit Unit)]).Nodup := by decide
  exact ⟨_, _, h₉, hd, rfl, by simp; rfl, (callback_consumed_at_most_once h₉ hd).1 7⟩

end CallbackMgr
