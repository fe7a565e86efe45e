import Microservice.ClientSdk.Theorems.Calls

-- Where the callback of a call is.
inductive SdkCall.Place
  | unregistered
  | waiting (rid : UInt32)
  | held (h : Nat)
  | expired
  | called
  deriving DecidableEq

open SdkCall (Place)

-- The call whose callback the handler has found.
def SdkRsp.call : SdkRsp → Option Nat
  | .idle                     => none
  | .deleting i _ | .calling i => some i

-- The call has not registered a callback yet.
def SdkCall.Early : SdkCall → Prop
  | .started _ | .drawn _ => True
  | _                     => False

namespace SdkCalls

open CallbackMgr (added History)

section

def Event.registers : Event → Option UInt32
  | .register _ rid _ => some rid
  | _                 => none

-- The call whose `CallBack` is called, by a response handler or by the timeout callback.
def Event.calls : Event → Option Nat
  | .callBack _ i       => some i
  | .mgr (.call _ _ i)  => some i
  | _                   => none

def draws (es : List Event) : Nat :=
  es.countP (·.drawnGid.isSome)

def registered (es : List Event) : List UInt32 :=
  es.filterMap Event.registers

-- How often the `CallBack` of a call was called.
def called (i : Nat) (es : List Event) : Nat :=
  es.countP (·.calls = some i)

end

variable {s s' : SdkCalls} {e : Event} {es : List Event} {rid : UInt32} {i j h : Nat} {p q : Place}

theorem draws_snoc : draws (es ++ [e]) = draws es + if e.drawnGid.isSome then 1 else 0 := by
  simp [draws, List.countP_append, List.countP_singleton]

theorem registered_snoc : registered (es ++ [e]) = registered es ++ e.registers.toList := by
  cases h : e.registers <;> simp [registered, List.filterMap_append, h]

theorem called_snoc : called i (es ++ [e]) = called i es + if e.calls = some i then 1 else 0 := by
  simp [called, List.countP_append, List.countP_singleton]

theorem mem_registered (h : .register i rid endTime ∈ es) : rid ∈ registered es :=
  List.mem_filterMap.mpr ⟨_, h, rfl⟩

-- A call is about to register the id.
abbrev HoldsAt (s : SdkCalls) (i : Nat) (rid : UInt32) : Prop :=
  s.calls[i]? = some (.drawn rid)

-- The ids of the calls are distinct, and each of them is registered once.
structure Drawn (es : List Event) (s : SdkCalls) : Prop where
  count : s.globalGID.toNat = draws es
  held  : ∀ i rid, s.HoldsAt i rid → rid ≠ 0 ∧ rid.toNat ≤ draws es ∧ rid ∉ registered es
  inj   : ∀ i j rid, s.HoldsAt i rid → s.HoldsAt j rid → i = j
  bound : ∀ rid ∈ registered es, rid ≠ 0 ∧ rid.toNat ≤ draws es
  nodup : (registered es).Nodup

theorem init_drawn : Drawn [] init := by
  constructor <;> simp [init, draws, registered]

-- A step that neither draws nor registers an id.
theorem Drawn.quiet (hd : Drawn es s) (hg : s'.globalGID = s.globalGID) (he : e.drawnGid = none)
    (hr : e.registers = none) (hc : ∀ i rid, s'.HoldsAt i rid → s.HoldsAt i rid) : Drawn (es ++ [e]) s' := by
  have hdraws : draws (es ++ [e]) = draws es := by simp [draws_snoc, he]
  have hreg : registered (es ++ [e]) = registered es := by simp [registered_snoc, hr]
  constructor
  case count => rw [hdraws, hg, hd.count]
  case held  => exact fun i rid hi => hdraws ▸ hreg ▸ hd.held i rid (hc i rid hi)
  case inj   => exact fun i j rid hi hj => hd.inj i j rid (hc i rid hi) (hc j rid hj)
  case bound => exact hdraws ▸ hreg ▸ hd.bound
  case nodup => exact hreg ▸ hd.nodup

theorem Drawn.genGid (hd : Drawn es s) (hn : draws es + 1 < 2 ^ 32) :
    Drawn (es ++ [.genGid i (s.globalGID + 1)])
      { s.setCall i (.drawn (s.globalGID + 1)) with globalGID := s.globalGID + 1 } := by
  have hgid : (s.globalGID + 1).toNat = draws es + 1 := by
    rw [UInt32.toNat_add, hd.count]
    exact Nat.mod_eq_of_lt hn
  have hdraws : draws (es ++ [.genGid i (s.globalGID + 1)]) = draws es + 1 := by
    simp [draws_snoc, Event.drawnGid]
  have hreg : registered (es ++ [.genGid i (s.globalGID + 1)]) = registered es := by
    simp [registered_snoc, Event.registers]
  have hzero : s.globalGID + 1 ≠ 0 := fun h0 => by simp [h0] at hgid
  -- The id is larger than all the others.
  have hnew : ∀ j rid, s.HoldsAt j rid → rid ≠ s.globalGID + 1 := by
    rintro j _ hj rfl
    have := (hd.held j _ hj).2.1
    omega
  constructor
  case count => rw [hdraws, hgid]
  case held  =>
    intro j rid hj
    rw [hdraws, hreg]
    obtain ⟨_, he⟩ | ⟨_, hj⟩ := List.getElem?_set_cases hj
    · cases he
      refine ⟨hzero, hgid.le, fun hm => ?_⟩
      have := (hd.bound _ hm).2
      omega
    · obtain ⟨h₁, h₂, h₃⟩ := hd.held j rid hj
      exact ⟨h₁, h₂.trans (Nat.le_succ _), h₃⟩
  case inj   =>
    intro j k rid hj hk
    obtain ⟨hji, he⟩ | ⟨_, hj'⟩ := List.getElem?_set_cases hj <;>
      obtain ⟨hki, he'⟩ | ⟨_, hk'⟩ := List.getElem?_set_cases hk
    · exact hji.trans hki.symm
    · cases he
      exact (hnew k _ hk' rfl).elim
    · cases he'
      exact (hnew j _ hj' rfl).elim
    · exact hd.inj j k rid hj' hk'
  case bound =>
    rw [hdraws, hreg]
    exact fun rid hm => ⟨(hd.bound rid hm).1, (hd.bound rid hm).2.trans (Nat.le_succ _)⟩
  case nodup => exact hreg ▸ hd.nodup

theorem Drawn.register (hd : Drawn es s) (hi : s.HoldsAt i rid) (hg : s'.globalGID = s.globalGID)
    (hc : s'.calls = s.calls.set i (.adding rid node)) : Drawn (es ++ [.register i rid endTime]) s' := by
  have hdraws : draws (es ++ [.register i rid endTime]) = draws es := by simp [draws_snoc, Event.drawnGid]
  have hreg : registered (es ++ [.register i rid endTime]) = registered es ++ [rid] := by
    simp [registered_snoc, Event.registers]
  have hold : ∀ j rid', s'.HoldsAt j rid' → j ≠ i ∧ s.HoldsAt j rid' := by
    intro j rid' hj
    rw [HoldsAt, hc] at hj
    obtain ⟨_, he⟩ | hj := List.getElem?_set_cases hj
    · cases he
    · exact hj
  obtain ⟨hne, hle, hnot⟩ := hd.held i rid hi
  constructor
  case count => rw [hdraws, hg, hd.count]
  case held  =>
    intro j rid' hj
    obtain ⟨hji, hj⟩ := hold j rid' hj
    obtain ⟨h₁, h₂, h₃⟩ := hd.held j rid' hj
    refine ⟨h₁, hdraws ▸ h₂, fun hm => ?_⟩
    obtain hm | hm := List.mem_append.mp (hreg ▸ hm)
    · exact h₃ hm
    · cases List.mem_singleton.mp hm
      exact hji (hd.inj j i rid hj hi)
  case inj   => exact fun j k rid' hj hk => hd.inj j k rid' (hold j rid' hj).2 (hold k rid' hk).2
  case bound =>
    intro rid' hm
    rw [hdraws]
    obtain hm | hm := List.mem_append.mp (hreg ▸ hm)
    · exact hd.bound rid' hm
    · exact List.mem_singleton.mp hm ▸ ⟨hne, hle⟩
  case nodup =>
    rw [hreg]
    refine List.nodup_append.mpr ⟨hd.nodup, List.nodup_singleton _, fun x hx y hy hxy => ?_⟩
    exact hnot (List.mem_singleton.mp hy ▸ hxy ▸ hx)

theorem holdsAt_of_setCall {c : SdkCall} (hj : (s.setCall i c).HoldsAt j rid) (hc : ∀ rid, c ≠ .drawn rid) :
    s.HoldsAt j rid := by
  obtain ⟨_, he⟩ | ⟨_, hj⟩ := List.getElem?_set_cases hj
  · exact absurd he.symm (hc rid)
  · exact hj

theorem Step.drawn (hs : Step s e s') (hd : Drawn es s) (hn : SdkCalls.draws (es ++ [e]) < 2 ^ 32) :
    Drawn (es ++ [e]) s' := by
  cases hs
  case genGid      =>
    refine hd.genGid ?_
    simpa [draws_snoc, Event.drawnGid] using hn
  case register hi => exact hd.register hi rfl rfl
  case rpcCall     =>
    refine hd.quiet rfl rfl rfl fun i rid hi => ?_
    obtain hi | ⟨_, he⟩ := List.getElem?_concat_cases hi
    · exact hi
    · cases he
  case getNil | get | deleted | callBack | mgr => exact hd.quiet rfl rfl rfl fun _ _ hi => hi
  case noCallBack | added | sent               =>
    exact hd.quiet rfl rfl rfl fun _ _ hi => holdsAt_of_setCall hi nofun

theorem drawn_of_exec (h : Exec Step init es s) (hn : draws es < 2 ^ 32) : Drawn es s := by
  refine h.invariant (I := fun es s => draws es < 2 ^ 32 → Drawn es s) (fun _ => init_drawn)
    (fun es s e s' _ hi hs hn => ?_) hn
  refine hs.drawn (hi ?_) hn
  rw [draws_snoc] at hn
  omega

theorem Drawn.register_unique (hd : Drawn es s) (hi : .register i rid endTime ∈ es)
    (hj : .register j rid endTime' ∈ es) : i = j := by
  have hone := List.nodup_iff_count_le_one.mp hd.nodup rid
  rw [registered, List.count, List.countP_filterMap] at hone
  cases List.eq_of_countP_le_one hone hi hj (by simp [Event.registers]) (by simp [Event.registers])
  rfl

theorem cb_exec (h : Exec Step init es s) : Exec CallbackMgr.Step .init (es.filterMap cbEvent) s.cb :=
  h.project SdkCalls.cb cbEvent (fun _ _ _ => Step.cb_idle) (fun _ _ _ _ => Step.cb_active)

theorem added_cbEvent : added (es.filterMap cbEvent) = registered es := by
  rw [added, registered, List.filterMap_filterMap]
  refine List.filterMap_congr fun e _ => ?_
  cases e <;> rfl

theorem Drawn.history (hd : Drawn es s) (h : Exec Step init es s) : History (es.filterMap cbEvent) s.cb :=
  CallbackMgr.history_of_exec (cb_exec h) (added_cbEvent ▸ hd.nodup)

-- A callback is registered for its call, and so is its timeout callback.
theorem register_of_add (h : .add rid i endTime timeOutCb ∈ es.filterMap cbEvent) :
    timeOutCb = some i ∧ .register i rid endTime ∈ es := by
  obtain ⟨e, hm, he⟩ := List.mem_filterMap.mp h
  cases e <;> simp only [cbEvent, Option.some.injEq, reduceCtorEq] at he
  case register =>
    cases he
    exact ⟨rfl, hm⟩

-- What an entry of the map stands for.
theorem entry_registered (hh : History (es.filterMap cbEvent) s.cb) (hg : s.cb.gCbMap rid = some (i, node)) :
    node < s.cb.queue.alloc ∧ (s.cb.queue.heap node).cbid = rid ∧
    (s.cb.queue.heap node).timeOutCb = some i ∧
    .register i rid (s.cb.queue.heap node).endTime ∈ es := by
  have hr := ((hh.fate rid).waiting_of_some hg).1
  exact ⟨hr.bound, hr.id, register_of_add hr.mem⟩

-- The call whose timeout callback a tick is about to call.
def expiring (s : SdkCalls) : Option Nat :=
  s.cb.mgr.pendingCall.bind fun cur => (s.cb.queue.heap cur.1).timeOutCb

-- The callback of a call is at a place.
def At (es : List Event) (s : SdkCalls) (i : Nat) : Place → Prop
  | .unregistered => ∀ rid endTime, .register i rid endTime ∉ es
  | .waiting rid  => ∃ node, s.cb.gCbMap rid = some (i, node)
  | .held h       => (s.handlers h).call = some i
  | .expired      => s.expiring = some i
  | .called       => ∃ e ∈ es, e.calls = some i

-- The call has come so far that it may have registered its callback.
def Late (s : SdkCalls) (i : Nat) : Prop :=
  ∃ c, s.calls[i]? = some c ∧ ¬c.Early

-- Each callback is at one place, and it is called once at most.
structure Placed (es : List Event) (s : SdkCalls) : Prop where
  place : ∀ i, ∃ p, ∀ q, At es s i q ↔ q = p
  once  : ∀ i, called i es ≤ 1
  early : ∀ i, ¬s.Late i → At es s i .unregistered

theorem init_placed : Placed [] init where
  place i   := by
    refine ⟨.unregistered, fun q => ?_⟩
    cases q <;> simp [At, init, expiring, CallbackMgr.init, Mgr.pendingCall, SdkRsp.call]
  once      := by simp [called]
  early _ _ := by simp [At]

theorem Placed.unique (hp : Placed es s) (ha : At es s i p) (q : Place) : At es s i q ↔ q = p := by
  obtain ⟨p', hp'⟩ := hp.place i
  cases (hp' p).mp ha
  exact hp' q

-- A step does not concern the callback of a call.
structure Spares (s : SdkCalls) (e : Event) (s' : SdkCalls) (j : Nat) : Prop where
  registers : ∀ rid endTime, e ≠ .register j rid endTime
  waiting   : ∀ rid, (∃ node, s'.cb.gCbMap rid = some (j, node)) ↔ ∃ node, s.cb.gCbMap rid = some (j, node)
  held      : ∀ h, (s'.handlers h).call = some j ↔ (s.handlers h).call = some j
  expiring  : s'.expiring = some j ↔ s.expiring = some j
  calls     : e.calls ≠ some j

theorem Spares.at_iff (hs : Spares s e s' j) (q : Place) : At (es ++ [e]) s' j q ↔ At es s j q := by
  cases q
  case unregistered => simp [At, fun rid endTime => (hs.registers rid endTime).symm]
  case waiting rid  => exact hs.waiting rid
  case held h       => exact hs.held h
  case expired      => exact hs.expiring
  case called       => simp [At, or_and_right, exists_or, hs.calls]

theorem Late.setCall {c : SdkCall} (hl : s.Late j) (hc : j = i → ¬c.Early) : (s.setCall i c).Late j := by
  obtain ⟨c', hj, hn⟩ := hl
  by_cases hji : j = i
  case pos =>
    subst hji
    exact ⟨c, List.getElem?_set_of_eq_some hj, hc rfl⟩
  case neg => exact ⟨c', (List.getElem?_set_ne (Ne.symm hji)).trans hj, hn⟩

theorem Step.late (hs : Step s e s') (hl : s.Late j) : s'.Late j := by
  cases hs
  case rpcCall =>
    obtain ⟨c, hj, hn⟩ := hl
    exact ⟨c, List.getElem?_append_of_eq_some hj, hn⟩
  case genGid i hi =>
    refine hl.setCall fun hji => ?_
    obtain ⟨c, hj, hn⟩ := hl
    cases (hji ▸ hj).symm.trans hi
    exact absurd trivial hn
  case noCallBack | register | added | sent    => exact hl.setCall fun _ => id
  case getNil | get | deleted | callBack | mgr => exact hl

theorem Placed.stay (hp : Placed es s) (hstep : Step s e s') (hs : ∀ j, Spares s e s' j) :
    Placed (es ++ [e]) s' where
  place i    := by
    obtain ⟨p, hat⟩ := hp.place i
    exact ⟨p, fun q => ((hs i).at_iff q).trans (hat q)⟩
  once i     := by
    rw [called_snoc, if_neg (hs i).calls]
    exact hp.once i
  early i hi := ((hs i).at_iff _).mpr (hp.early i fun hl => hi (hstep.late hl))

-- The callback of `i` goes from `p` to `p'`.
theorem Placed.move (hp : Placed es s) (p' : Place) (hstep : Step s e s') (ha : At es s i p)
    (hs : ∀ j, j ≠ i → Spares s e s' j) (hi : ∀ q, At (es ++ [e]) s' i q ↔ q = p')
    (hcall : e.calls = some i → p ≠ .called) (hl : s'.Late i) : Placed (es ++ [e]) s' where
  place j    := by
    by_cases hj : j = i
    case pos => exact ⟨p', hj ▸ hi⟩
    case neg =>
      obtain ⟨p, hat⟩ := hp.place j
      exact ⟨p, fun q => ((hs j hj).at_iff q).trans (hat q)⟩
  once j     := by
    rw [called_snoc]
    split
    case isFalse   => exact hp.once j
    case isTrue hj =>
      obtain rfl : j = i := by
        by_contra hne
        exact (hs j hne).calls hj
      have hz : called j es = 0 := by
        refine List.countP_eq_zero.mpr fun e' hm hc => ?_
        exact hcall hj ((hp.unique ha .called).mp ⟨e', hm, of_decide_eq_true hc⟩).symm
      omega
  early j hj := by
    have hji : j ≠ i := fun h => hj (h ▸ hl)
    exact ((hs j hji).at_iff _).mpr (hp.early j fun hl => hj (hstep.late hl))

-- A callback that is registered belongs to a call that has come so far.
theorem Placed.late (hp : Placed es s) (ha : At es s i p) (hn : p ≠ .unregistered) : s.Late i := by
  by_contra hl
  exact hn ((hp.unique ha _).mp (hp.early i hl)).symm

theorem Placed.register (hp : Placed es s) (hd : Drawn es s) (hh : History (es.filterMap cbEvent) s.cb)
    (hq : s.cb.Queued xs) (hi : s.HoldsAt i rid) (now : Int) :
    Placed (es ++ [.register i rid (Int8.toInt 100 + now)])
      { s.setCall i (.adding rid s.cb.queue.alloc) with cb := s.cb.addCallBack rid i 100 now (some i) } := by
  have hnone : s.cb.gCbMap rid = none :=
    ((hh.fate rid).unknown_of_not_mem (added_cbEvent ▸ (hd.held i rid hi).2.2)).1
  have ha : At es s i .unregistered := by
    refine hp.early i ?_
    rintro ⟨c, hc, hn⟩
    cases hc.symm.trans hi
    exact hn trivial
  have hold := hp.unique ha
  have hexp : expiring { s.setCall i (.adding rid s.cb.queue.alloc) with
      cb := s.cb.addCallBack rid i 100 now (some i) } = s.expiring := by
    cases hm : s.cb.mgr.pendingCall
    case none     => simp [expiring, CallbackMgr.addCallBack, hm]
    case some cur =>
      have hne : cur.1 ≠ s.cb.queue.alloc := Nat.ne_of_lt (hq.pending_bound hm)
      simp [expiring, CallbackMgr.addCallBack, hm, PriorityQueue.new_heap_of_ne hne]
  refine hp.move (.waiting rid) (.register now hi) ha (fun j hj => ?_) (fun q => ?_) (by simp)
    ⟨_, List.getElem?_set_of_eq_some hi, id⟩
  case refine_1 =>
    refine ⟨fun _ _ he => hj (Event.register.inj he).1.symm, fun rid' => ?_, fun _ => .rfl, by rw [hexp], by simp [Event.calls]⟩
    by_cases hr : rid' = rid
    case pos => simp [CallbackMgr.addCallBack, hr, hnone, Ne.symm hj]
    case neg => simp [CallbackMgr.addCallBack, Partial.insert_of_ne hr]
  case refine_2 =>
    cases q
    case unregistered => exact iff_of_false (fun hu => hu rid (Int8.toInt 100 + now) (by simp)) (by simp)
    case waiting rid' =>
      by_cases hr : rid' = rid
      case pos => simp [At, CallbackMgr.addCallBack, hr]
      case neg => simpa [At, CallbackMgr.addCallBack, Partial.insert_of_ne hr, hr] using hold (.waiting rid')
    case held h       => simpa [At, setCall] using hold (.held h)
    case expired      => simpa [At, hexp] using hold .expired
    case called       => simpa [At, Event.calls] using hold .called

theorem Placed.get (hp : Placed es s) (hh : s.handlers h = .idle) (hg : s.cb.gCbMap rid = some (i, node)) :
    Placed (es ++ [.get h rid (some i)])
      { s.setHandler h (.deleting i node) with cb := s.cb.getCallBack rid } := by
  have ha : At es s i (.waiting rid) := ⟨node, hg⟩
  have hold := hp.unique ha
  have hcb := CallbackMgr.getCallBack_of_some hg
  have hexp : expiring { s.setHandler h (.deleting i node) with cb := s.cb.getCallBack rid } = s.expiring := by
    simp [expiring, CallbackMgr.getCallBack_mgr, CallbackMgr.getCallBack_queue]
  refine hp.move (.held h) (.get hh hg) ha (fun j hj => ?_) (fun q => ?_) nofun
    (hp.late ha nofun)
  case refine_1 =>
    refine ⟨nofun, fun rid' => ?_, fun h' => ?_, by rw [hexp], nofun⟩
    · by_cases hr : rid' = rid
      case pos => simp [hcb, hr, hg, Ne.symm hj]
      case neg => simp [hcb, Partial.erase_of_ne hr]
    · by_cases hh' : h' = h
      case pos => simp [setHandler, hh', hh, SdkRsp.call, Ne.symm hj]
      case neg => simp [setHandler, Function.update_of_ne hh']
  case refine_2 =>
    cases q
    case unregistered => simpa [At] using hold .unregistered
    case waiting rid' =>
      by_cases hr : rid' = rid
      case pos => simp [At, hcb, hr]
      case neg => simpa [At, hcb, Partial.erase_of_ne hr, hr] using hold (.waiting rid')
    case held h'      =>
      by_cases hh' : h' = h
      case pos => simp [At, setHandler, hh', SdkRsp.call]
      case neg => simpa [At, setHandler, Function.update_of_ne hh', hh'] using hold (.held h')
    case expired      => simpa [At, hexp] using hold .expired
    case called       => simpa [At, Event.calls] using hold .called

theorem Placed.callBack (hp : Placed es s) (hh : s.handlers h = .calling i) :
    Placed (es ++ [.callBack h i]) (s.setHandler h .idle) := by
  have ha : At es s i (.held h) := by simp [At, hh, SdkRsp.call]
  have hold := hp.unique ha
  refine hp.move .called (.callBack hh) ha (fun j hj => ?_) (fun q => ?_) (fun _ => nofun)
    (hp.late ha nofun)
  case refine_1 =>
    refine ⟨nofun, fun _ => .rfl, fun h' => ?_, .rfl, by simpa [Event.calls] using Ne.symm hj⟩
    by_cases hh' : h' = h
    case pos => simp [setHandler, hh', hh, SdkRsp.call, Ne.symm hj]
    case neg => simp [setHandler, Function.update_of_ne hh']
  case refine_2 =>
    cases q
    case unregistered => simpa [At] using hold .unregistered
    case waiting rid' => simpa [At, setHandler] using hold (.waiting rid')
    case held h'      =>
      by_cases hh' : h' = h
      case pos => simp [At, setHandler, hh', SdkRsp.call]
      case neg => simpa [At, setHandler, Function.update_of_ne hh', hh'] using hold (.held h')
    case expired      => simpa [At, setHandler, expiring] using hold .expired
    case called       => simp [At, Event.calls]

-- A step that leaves the callbacks, the handlers and the timeout callback to be called as they are.
theorem Spares.of_same (hr : e.registers = none) (hc : e.calls = none) (hg : s'.cb.gCbMap = s.cb.gCbMap)
    (hh : ∀ h, (s'.handlers h).call = (s.handlers h).call) (hx : s'.expiring = s.expiring) (j : Nat) :
    Spares s e s' j where
  registers _ _ he := by simp [he, Event.registers] at hr
  waiting _        := by rw [hg]
  held h           := by rw [hh h]
  expiring         := by rw [hx]
  calls            := by simp [hc]

theorem expiring_of_none (h : s.cb.mgr.pendingCall = none) : s.expiring = none := by
  simp [expiring, h]

-- A tick that finds a callback to be expired is about to call the timeout callback of just this callback.
theorem Placed.expire (hp : Placed es s) (hd : Drawn es s) (hh : History (es.filterMap cbEvent) s.cb)
    (hstep : Step s (.mgr (.expire (s.cb.queue.heap cur).cbid now)) s') (hcur : cur < s.cb.queue.alloc)
    (hm : s.cb.mgr.pendingCall = none) (hg : s.cb.gCbMap (s.cb.queue.heap cur).cbid = some (i, node))
    (hq : s'.cb.queue = s.cb.queue) (hg' : s'.cb.gCbMap = s.cb.gCbMap.erase (s.cb.queue.heap cur).cbid)
    (hm' : s'.cb.mgr.pendingCall = (s.cb.queue.heap cur).timeOutCb.map fun _ => (cur, now))
    (hhand : s'.handlers = s.handlers) :
    Placed (es ++ [.mgr (.expire (s.cb.queue.heap cur).cbid now)]) s' := by
  obtain ⟨hb, hid, htime, _⟩ := entry_registered hh hg
  obtain rfl : node = cur := hh.injective (added_cbEvent ▸ hd.nodup) hb hcur hid
  have ha : At es s i (.waiting (s.cb.queue.heap node).cbid) := ⟨node, hg⟩
  have hold := hp.unique ha
  have hexp : s'.expiring = some i := by simp [expiring, hm', htime, hq]
  refine hp.move .expired hstep ha (fun j hj => ?_) (fun q => ?_) nofun (hstep.late (hp.late ha nofun))
  case refine_1 =>
    refine ⟨nofun, fun rid' => ?_, fun _ => by rw [hhand], ?_, nofun⟩
    · by_cases hr : rid' = (s.cb.queue.heap node).cbid
      case pos => simp [hg', hr, hg, Ne.symm hj]
      case neg => simp [hg', Partial.erase_of_ne hr]
    · simp [hexp, expiring_of_none hm, Ne.symm hj]
  case refine_2 =>
    cases q
    case unregistered => simpa [At] using hold .unregistered
    case waiting rid' =>
      by_cases hr : rid' = (s.cb.queue.heap node).cbid
      case pos => simp [At, hg', hr]
      case neg => simpa [At, hg', Partial.erase_of_ne hr, hr] using hold (.waiting rid')
    case held h       => simpa [At, hhand] using hold (.held h)
    case expired      => simp [At, hexp]
    case called       => simpa [At, Event.calls] using hold .called

theorem Placed.timeOut (hp : Placed es s) (hstep : Step s (.mgr (.call cbid now i)) s')
    (hx : s.expiring = some i) (hx' : s'.expiring = none) (hg : s'.cb.gCbMap = s.cb.gCbMap)
    (hhand : s'.handlers = s.handlers) : Placed (es ++ [.mgr (.call cbid now i)]) s' := by
  have hold := hp.unique (p := .expired) hx
  refine hp.move .called hstep (p := .expired) hx (fun j hj => ?_) (fun q => ?_) (fun _ => nofun)
    (hstep.late (hp.late (p := .expired) hx nofun))
  case refine_1 =>
    refine ⟨nofun, fun _ => by rw [hg], fun _ => by rw [hhand], ?_, ?_⟩
    · simp [hx, hx', Ne.symm hj]
    · simpa [Event.calls] using Ne.symm hj
  case refine_2 =>
    cases q
    case unregistered => simpa [At] using hold .unregistered
    case waiting rid' => simpa [At, hg] using hold (.waiting rid')
    case held h       => simpa [At, hhand] using hold (.held h)
    case expired      => simp [At, hx']
    case called       => simp [At, Event.calls]

theorem Placed.mgr (hp : Placed es s) (hd : Drawn es s) (hh : History (es.filterMap cbEvent) s.cb)
    (hq : s.cb.Queued xs) (hs : CallbackMgr.MgrStep s.cb ev cb') (hna : ∀ node, ev ≠ .recvAdd node)
    (hnd : ∀ node, ev ≠ .recvDel node) : Placed (es ++ [.mgr ev]) { s with cb := cb' } := by
  have hstep : Step s (.mgr ev) { s with cb := cb' } := .mgr hs hna hnd
  cases hs
  case recvAdd node _ _ => exact absurd rfl (hna node)
  case recvDel node _ _ => exact absurd rfl (hnd node)
  case expire entry cur hm hl hg =>
    obtain ⟨i, node⟩ := entry
    obtain ⟨as, bs, hx, _⟩ := hq.visit hm
    refine hp.expire hd hh hstep (hq.queue.bound cur (by simp [hx])) (by simp [hm, Mgr.pendingCall]) hg rfl rfl
      ?_ rfl
    cases (s.cb.queue.heap cur).timeOutCb <;> rfl
  case call hm hcb =>
    exact hp.timeOut hstep (by simp [expiring, hm, Mgr.pendingCall, hcb]) rfl rfl rfl
  case queueAdd hm _ | queueDel hm | tick hm | finish hm | «break» hm _ | stale hm _ _ | unlink hm =>
    have hx : s.expiring = none := expiring_of_none (by simp [hm, Mgr.pendingCall])
    exact hp.stay hstep (.of_same rfl rfl rfl (fun _ => rfl) (by rw [hx]; rfl))

theorem Step.placed (hs : Step s e s') (hd : Drawn es s) (hh : History (es.filterMap cbEvent) s.cb)
    (hq : s.cb.Queued xs) (hp : Placed es s) : Placed (es ++ [e]) s' := by
  have hstep := hs
  cases hs
  case register now hi  => exact hp.register hd hh hq hi now
  case get hidle hg     => exact hp.get hidle hg
  case callBack hcall   => exact hp.callBack hcall
  case mgr hna hnd hm   => exact hp.mgr hd hh hq hm hna hnd
  case deleted k _ hdel hm =>
    cases hm
    case recvDel hm _ =>
      have hx : s.expiring = none := expiring_of_none (by simp [hm, Mgr.pendingCall])
      refine hp.stay hstep (.of_same rfl rfl rfl (fun h' => ?_) (by rw [hx]; rfl))
      by_cases hh' : h' = k
      case pos => simp [setHandler, hh', hdel, SdkRsp.call]
      case neg => simp [setHandler, Function.update_of_ne hh']
  case added hm =>
    cases hm
    case recvAdd hm _ =>
      have hx : s.expiring = none := expiring_of_none (by simp [hm, Mgr.pendingCall])
      exact hp.stay hstep (.of_same rfl rfl rfl (fun _ => rfl) (by rw [hx]; rfl))
  case rpcCall | noCallBack | genGid | sent | getNil =>
    exact hp.stay hstep (.of_same rfl rfl rfl (fun _ => rfl) rfl)

theorem placed_of_exec (h : Exec Step init es s) (hn : SdkCalls.draws es < 2 ^ 32) : Placed es s := by
  refine h.invariant (I := fun es s => SdkCalls.draws es < 2 ^ 32 → Placed es s) (fun _ => init_placed)
    (fun es s e s' hx hi hs hn => ?_) hn
  have hn : SdkCalls.draws es < 2 ^ 32 := by
    rw [draws_snoc] at hn
    omega
  have hd := drawn_of_exec hx hn
  obtain ⟨xs, hq⟩ := CallbackMgr.queued_of_exec (cb_exec hx)
  exact hs.placed hd (hd.history hx) hq (hi hn)

end SdkCalls
