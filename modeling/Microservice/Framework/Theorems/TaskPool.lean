import Microservice.Framework.TaskPool
import Microservice.Framework.Theorems.RpcCall

namespace RpcCalls

variable {s s' : RpcCalls} {e : Event} {h : Nat}

-- Only `GetCallBack` puts a response handler into use.
theorem Step.handlers_idle (hs : Step s e s') (hc : e.Continues) (hi : s.handlers h = .idle) :
    s'.handlers h = .idle := by
  cases hs
  case deleted h' _ hh _ =>
    have hne : h ≠ h' := by rintro rfl; cases hi.symm.trans hh
    exact (setHandler_of_ne hne).trans hi
  case reply _ h' _ hh _ =>
    have hne : h ≠ h' := by rintro rfl; cases hi.symm.trans hh
    exact (setHandler_of_ne hne).trans hi
  case call | genGid | getNil | get => exact hc.elim
  all_goals exact hi

-- All calls wait for their responses, and the callback manager for something to do.
structure Idle (s : RpcCalls) : Prop where
  calls    : ∀ c ∈ s.calls, ∃ reSendCnt, c = RpcCall.receiving reSendCnt
  handlers : ∀ h, s.handlers h = .idle
  mgr      : s.cb.mgr = .select

theorem Idle.timeout (h : s.Idle) (hs : Step s e s') (hc : e.Continues) : e.Timeout := by
  have hcalls {i c} (hi : s.calls[i]? = some c) := h.calls c (List.mem_of_getElem? hi)
  cases hs
  case call | genGid | getNil | get => exact hc.elim
  case noClient hi | async hi | sent hi | sendFailed hi | register hi | added hi _ | innerReturned hi _ =>
    have ⟨_, he⟩ := hcalls hi
    cases he
  case deleted hh _ | reply hh _ => cases (h.handlers _).symm.trans hh
  case timeOut | resend          => exact trivial
  case mgr hm =>
    have hsel := h.mgr
    cases hm
    case queueAdd hadd _ _ => cases hsel.symm.trans hadd
    case queueDel hdel _   => cases hsel.symm.trans hdel
    all_goals exact trivial

end RpcCalls

namespace TaskPool

-- The worker waits for another goroutine.
def Work.Waiting : Work → Prop
  | .calling _ | .responding _ => True
  | _                          => False

-- Only finitely many response handlers are in use.
theorem exists_unused (ws : List Work) : ∃ n, ∀ h, n ≤ h → .responding h ∉ ws := by
  induction ws
  case nil => exact ⟨0, nofun⟩
  case cons w ws hi =>
    have ⟨n, hn⟩ := hi
    cases w
    case responding h' =>
      refine ⟨n + h' + 1, fun h hle hm => ?_⟩
      obtain hm | hm := List.mem_cons.mp hm
      · cases hm; omega
      · exact hn h (by omega) hm
    all_goals exact ⟨n, fun h hle hm => hn h hle ((List.mem_cons.mp hm).resolve_left nofun)⟩

namespace Service

variable {s s' : Service} {e : Event} {es : List Event} {l : Lane} {w : Work} {f : Frame} {fs : List Frame}
variable {rid : UInt32} {i : Nat}

-- A call waits for the response to `rid`.
def Pending (s : Service) (rid : UInt32) : Prop :=
  ∃ i reSendCnt node,
    s.rpc.calls[i]? = some (.receiving reSendCnt) ∧ s.rpc.cb.gCbMap rid = some (i, node)

-- The response to `rid` has arrived, and no worker has it yet.
def Arrived (s : Service) (rid : UInt32) : Prop :=
  (∃ fs ∈ s.conns, .rsp rid ∈ fs) ∨ .rsp rid ∈ s.taskCh

-- Steps that are not taken by the process itself.
def Event.Outside : Event → Prop
  | .accept | .arrive .. => True
  | _                    => False

def Event.Timeout : Event → Prop
  | .rpc e => e.Timeout
  | _      => False

-- A call waits for a response that has arrived, but all that the process can do is to time callbacks out.
def Blocked (s : Service) : Prop :=
  ∃ rid, s.Pending rid ∧ s.Arrived rid ∧ ∀ e s', Step s e s' → e.Outside ∨ e.Timeout

-- The ordered worker is in a call of its own.
def SeparateCalling (s : Service) : Prop :=
  ∃ i, s.separate = some (.calling i)

-- While the ordered worker waits for a response, no response lies behind an ordered call. A worker of the
-- pool begins to wait only if there is another one that does not wait.
def Spare (s : Service) : Event → Prop
  | .arrive c (.rsp _)     => s.SeparateCalling → ∀ fs, s.conns[c]? = some fs → .call true ∉ fs
  | .rpcCallSync .separate => ∀ fs ∈ s.conns, ∀ rid, ¬[.call true, .rsp rid].Sublist fs
  | .rpcCallSync (.pool i) | .getCallBack (.pool i) _ (some _) =>
    s.workers.length < Session.coroutinesSize ∨ ∃ j w, j ≠ i ∧ s.workers[j]? = some w ∧ ¬w.Waiting
  | _ => True

def SpareStep (s : Service) (e : Event) (s' : Service) : Prop :=
  Step s e s' ∧ s.Spare e

-- What makes up for the steps that wait: there is always a worker of the pool that does not, and what the
-- reader of a response stands at can be handed over.
structure Roomy (s : Service) : Prop where
  bound    : s.workers.length ≤ Session.coroutinesSize
  spare    : s.workers.length < Session.coroutinesSize ∨ ∃ w ∈ s.workers, ¬w.Waiting
  separate : ∀ w, s.separate = some w → w = .handler ∨ ∃ i, w = .calling i
  behind   : s.SeparateCalling → ∀ fs ∈ s.conns, ∀ rid, ¬[.call true, .rsp rid].Sublist fs
  slots    : ∀ h, s.rpc.handlers h ≠ .idle → .responding h ∈ s.workers

theorem start_roomy : start.Roomy where
  bound    := Nat.zero_le _
  spare    := .inl (by decide)
  separate := nofun
  behind   := nofun
  slots    := fun _ h => (h rfl).elim

-- A worker that does not wait goes on.
theorem Roomy.step_of_not_waiting (hr : s.Roomy) (hw : s.work l = some w) (hn : ¬w.Waiting) :
    ∃ e s', Step s e s' ∧ ¬(e.Outside ∨ e.Timeout) := by
  cases w
  case handler => exact ⟨_, _, .finish hw (.inl rfl), by simp [Event.Outside, Event.Timeout]⟩
  case other   => exact ⟨_, _, .finish hw (.inr rfl), by simp [Event.Outside, Event.Timeout]⟩
  case calling | responding => exact (hn trivial).elim
  case response rid =>
    -- there is a response handler that no worker uses
    have ⟨h, hh⟩ := exists_unused s.workers
    have hh := hh h (Nat.le_refl h)
    have hidle : s.rpc.handlers h = .idle := Classical.byContradiction fun hne => hh (hr.slots h hne)
    cases hg : s.rpc.cb.gCbMap rid
    case none =>
      exact ⟨_, _, .getCallBackNil hw (.getNil hidle hg), by simp [Event.Outside, Event.Timeout]⟩
    case some v =>
      exact ⟨_, _, .getCallBack hw (.get hidle hg) hh, by simp [Event.Outside, Event.Timeout]⟩

-- A task of the pool is taken, or a worker goes on.
theorem Roomy.step_of_taskCh (hr : s.Roomy) (ht : s.taskCh ≠ []) :
    ∃ e s', Step s e s' ∧ ¬(e.Outside ∨ e.Timeout) := by
  obtain hl | ⟨w, hw, hn⟩ := hr.spare
  case inl =>
    have ⟨f, fs, ht⟩ := List.exists_cons_of_ne_nil ht
    exact ⟨_, _, .take ht hl, by simp [Event.Outside, Event.Timeout]⟩
  case inr =>
    have ⟨i, hi⟩ := List.mem_iff_getElem?.mp hw
    exact hr.step_of_not_waiting (l := .pool i) hi hn

theorem Roomy.step_of_arrived (hr : s.Roomy) (ha : s.Arrived rid) :
    ∃ e s', Step s e s' ∧ ¬(e.Outside ∨ e.Timeout) := by
  obtain ⟨fs, hfs, hm⟩ | hm := ha
  case inr => exact hr.step_of_taskCh (List.ne_nil_of_mem hm)
  case inl =>
    have ⟨c, hc⟩ := List.mem_iff_getElem?.mp hfs
    cases fs
    case nil => cases hm
    case cons f fs =>
      by_cases hf : f = .call true
      case neg =>
        by_cases hl : s.taskCh.length < Session.taskChSize
        case pos => exact ⟨_, _, .produceTask hc hf hl, by simp [Event.Outside, Event.Timeout]⟩
        case neg =>
          apply hr.step_of_taskCh
          rintro hn
          exact hl (by rw [hn]; decide)
      case pos =>
        subst hf
        cases hs : s.separate
        case none =>
          exact ⟨_, _, .produceTaskSeparate hc hs, by simp [Event.Outside, Event.Timeout]⟩
        case some w =>
          obtain rfl | ⟨i, rfl⟩ := hr.separate w hs
          case inl => exact hr.step_of_not_waiting (l := .separate) hs nofun
          case inr =>
            have hm := (List.mem_cons.mp hm).resolve_left nofun
            exact (hr.behind ⟨i, hs⟩ _ hfs rid ((List.singleton_sublist.mpr hm).cons_cons _)).elim

-- What a step does to the workers of the pool.
inductive Turn (s : Service) (e : Event) : List Work → Prop
  | keep : Turn s e s.workers
  | take (f : Frame) : s.workers.length < Session.coroutinesSize → Turn s e (s.workers ++ [f.work])
  | goto {i : Nat} {w : Work} (w' : Work) :
    s.workers[i]? = some w → (∀ h, w ≠ .responding h) →
    (w'.Waiting → e = .rpcCallSync (.pool i) ∨ ∃ rid ch, e = .getCallBack (.pool i) rid (some ch)) →
    Turn s e (s.workers.set i w')
  | done {i : Nat} {w : Work} :
    s.workers[i]? = some w → (∀ h, w = .responding h → s.rpc.handlers h = .idle) →
    Turn s e (s.workers.eraseIdx i)

theorem Step.turn (hs : Step s e s') : Turn s e s'.workers := by
  cases hs
  case take hl   => exact .take _ hl
  case rpcCallSync l hw =>
    cases l
    case pool     => exact .goto _ hw nofun fun _ => .inl rfl
    case separate => exact .keep
  case returned l i hw _ =>
    cases l
    case pool     => exact .goto _ hw nofun nofun
    case separate => exact .keep
  case getCallBack l _ _ _ _ hw _ _ =>
    cases l
    case pool     => exact .goto _ hw nofun fun _ => .inr ⟨_, _, rfl⟩
    case separate => exact .keep
  case getCallBackNil l _ _ _ hw _ =>
    cases l
    case pool     => exact .done hw nofun
    case separate => exact .keep
  case finish l w hw he =>
    cases l
    case pool     => exact .done hw (by rintro h rfl; cases he <;> contradiction)
    case separate => exact .keep
  case responded l h hw hi =>
    cases l
    case pool     => exact .done hw (by rintro _ ⟨⟩; exact hi)
    case separate => exact .keep
  all_goals exact .keep

theorem Roomy.bound_step (hr : s.Roomy) (hs : Step s e s') :
    s'.workers.length ≤ Session.coroutinesSize := by
  have ht := hs.turn
  generalize s'.workers = ws at ht
  cases ht
  case keep | goto => simpa using hr.bound
  case take hl     => simpa using Nat.succ_le_of_lt hl
  case done        => exact Nat.le_trans (List.length_eraseIdx_le ..) hr.bound

theorem Roomy.spare_step (hr : s.Roomy) (hs : SpareStep s e s') :
    s'.workers.length < Session.coroutinesSize ∨ ∃ w ∈ s'.workers, ¬w.Waiting := by
  have ht := hs.1.turn
  generalize s'.workers = ws at ht
  cases ht
  case keep   => exact hr.spare
  case take f _ =>
    refine .inr ⟨f.work, List.mem_append_right _ (List.mem_singleton_self _), ?_⟩
    cases f <;> exact id
  case done i w hi _ =>
    have hlt := (List.getElem?_eq_some_iff.mp hi).1
    have hb := hr.bound
    rw [List.length_eraseIdx_of_lt hlt]
    exact .inl (by omega)
  case goto i w w' hi _ hw =>
    by_cases hwait : w'.Waiting
    case neg => exact .inr ⟨w', List.mem_set (List.getElem?_eq_some_iff.mp hi).1 w', hwait⟩
    case pos =>
      have hspare : s.workers.length < Session.coroutinesSize ∨
          ∃ j w, j ≠ i ∧ s.workers[j]? = some w ∧ ¬w.Waiting := by
        obtain rfl | ⟨rid, ch, rfl⟩ := hw hwait <;> exact hs.2
      obtain hl | ⟨j, w, hj, hjw, hn⟩ := hspare
      · exact .inl (by simpa using hl)
      · exact .inr ⟨w, List.mem_of_getElem? ((List.getElem?_set_ne hj.symm).trans hjw), hn⟩

theorem Roomy.separate_step (hr : s.Roomy) (hs : Step s e s') (hw : s'.separate = some w) :
    w = .handler ∨ ∃ i, w = .calling i := by
  have keep := hr.separate w
  cases hs
  case produceTaskSeparate => cases hw; exact .inl rfl
  case rpcCallSync l _ =>
    cases l
    case pool     => exact keep hw
    case separate => cases hw; exact .inr ⟨_, rfl⟩
  case returned l _ _ _ =>
    cases l
    case pool     => exact keep hw
    case separate => cases hw; exact .inl rfl
  case getCallBack l _ _ _ _ hl _ _ =>
    cases l
    case pool     => exact keep hw
    case separate => obtain h | ⟨_, h⟩ := hr.separate _ hl <;> cases h
  case getCallBackNil l _ _ _ _ _ | finish l _ _ _ | responded l _ _ _ =>
    cases l
    case pool     => exact keep hw
    case separate => cases hw
  all_goals exact keep hw

theorem Step.separateCalling (hs : Step s e s') (h : s'.SeparateCalling) :
    s.SeparateCalling ∨ e = .rpcCallSync .separate := by
  have ⟨i, hi⟩ := h
  cases hs
  case produceTaskSeparate => cases hi
  case rpcCallSync l _ =>
    cases l
    case pool     => exact .inl ⟨i, hi⟩
    case separate => exact .inr rfl
  case returned l _ _ _ | getCallBack l _ _ _ _ _ _ _ | getCallBackNil l _ _ _ _ _ | finish l _ _ _
      | responded l _ _ _ =>
    cases l
    case pool     => exact .inl ⟨i, hi⟩
    case separate => cases hi
  all_goals exact .inl ⟨i, hi⟩

theorem Step.conns_cases (hs : Step s e s') :
    s'.conns = s.conns ∨ s'.conns = s.conns ++ [[]] ∨
    (∃ c f fs, e = .arrive c f ∧ s.conns[c]? = some fs ∧ s'.conns = s.conns.set c (fs ++ [f])) ∨
    ∃ c f fs, s.conns[c]? = some (f :: fs) ∧ s'.conns = s.conns.set c fs := by
  cases hs
  case accept                 => exact .inr <| .inl rfl
  case arrive hc              => exact .inr <| .inr <| .inl ⟨_, _, _, rfl, hc, rfl⟩
  case produceTask hc _ _     => exact .inr <| .inr <| .inr ⟨_, _, _, hc, rfl⟩
  case produceTaskSeparate hc _ => exact .inr <| .inr <| .inr ⟨_, _, _, hc, rfl⟩
  case rpcCallSync l _ | returned l _ _ _ | getCallBack l _ _ _ _ _ _ _ | getCallBackNil l _ _ _ _ _
      | finish l _ _ _ | responded l _ _ _ =>
    cases l <;> exact .inl rfl
  all_goals exact .inl rfl

theorem Roomy.behind_step (hr : s.Roomy) (hs : SpareStep s e s') (hc : s'.SeparateCalling)
    (hfs : fs ∈ s'.conns) : ¬[.call true, .rsp rid].Sublist fs := by
  have ⟨hs, hspare⟩ := hs
  have keep : ∀ fs ∈ s.conns, ∀ rid, ¬[.call true, .rsp rid].Sublist fs := by
    obtain hc | rfl := hs.separateCalling hc
    · exact hr.behind hc
    · exact hspare
  obtain he | he | ⟨c, f, fs', rfl, hcf, he⟩ | ⟨c, f, fs', hcf, he⟩ := hs.conns_cases <;> rw [he] at hfs
  · exact keep fs hfs rid
  · obtain hfs | hfs := List.mem_append.mp hfs
    · exact keep fs hfs rid
    · cases List.mem_singleton.mp hfs
      exact nofun
  · obtain hfs | rfl := List.mem_or_eq_of_mem_set hfs
    · exact keep fs hfs rid
    · intro hsub
      obtain hsub | ⟨rfl, hm⟩ := List.pair_sublist_concat hsub
      · exact keep fs' (List.mem_of_getElem? hcf) rid hsub
      · exact hspare ((hs.separateCalling hc).resolve_right nofun) fs' hcf hm
  · obtain hfs | rfl := List.mem_or_eq_of_mem_set hfs
    · exact keep fs hfs rid
    · exact fun hsub => keep _ (List.mem_of_getElem? hcf) rid (hsub.cons f)

-- A response handler comes into use by a worker.
theorem Roomy.handlers_cases (hr : s.Roomy) (hs : Step s e s') {h : Nat} (hne : s'.rpc.handlers h ≠ .idle) :
    s.rpc.handlers h ≠ .idle ∨
    ∃ i w, s.workers[i]? = some w ∧ s'.workers = s.workers.set i (.responding h) := by
  cases hs
  case rpc hs hc => exact .inl fun hi => hne (hs.handlers_idle hc hi)
  case getCallBack l _ h' _ _ hw hs _ =>
    cases l
    case separate => obtain h | ⟨_, h⟩ := hr.separate _ hw <;> cases h
    case pool i =>
      by_cases hh : h = h'
      case pos => exact .inr ⟨i, _, hw, by rw [hh]; rfl⟩
      case neg =>
        cases hs
        exact .inl fun hi => hne ((RpcCalls.setHandler_of_ne hh).trans hi)
  case getCallBackNil l _ _ _ _ hs =>
    cases hs
    exact .inl hne
  case rpcCallSync l _ | returned l _ _ _ | finish l _ _ _ | responded l _ _ _ =>
    cases l <;> exact .inl hne
  all_goals exact .inl hne

theorem Roomy.slots_step (hr : s.Roomy) (hs : Step s e s') {h : Nat} (hne : s'.rpc.handlers h ≠ .idle) :
    .responding h ∈ s'.workers := by
  obtain hne | ⟨i, w, hi, he⟩ := hr.handlers_cases hs hne
  case inr => exact he ▸ List.mem_set (List.getElem?_eq_some_iff.mp hi).1 _
  case inl =>
    have hm := hr.slots h hne
    have ht := hs.turn
    generalize s'.workers = ws at ht
    cases ht
    case keep           => exact hm
    case take           => exact List.mem_append_left _ hm
    case goto hi hw _   => exact List.mem_set_of_ne hm hi (hw h).symm
    case done hi hw     => exact List.mem_eraseIdx_of_ne hm hi fun he => hne (hw h he.symm)

theorem Roomy.step (hr : s.Roomy) (hs : SpareStep s e s') : s'.Roomy where
  bound             := hr.bound_step hs.1
  spare             := hr.spare_step hs
  separate _        := hr.separate_step hs.1
  behind hc _ hfs _ := hr.behind_step hs hc hfs
  slots _           := hr.slots_step hs.1

-- A response that has arrived gets on, as long as the ordered worker does not wait while a response lies
-- behind an ordered call, and not all workers of the pool wait.
theorem not_blocked_of_spare (h : Exec SpareStep start es s) : ¬s.Blocked := by
  intro ⟨rid, _, ha, hb⟩
  have hr : s.Roomy := h.preserves start_roomy fun _ _ _ => Roomy.step
  have ⟨e, s', hs, hn⟩ := hr.step_of_arrived ha
  exact hn (hb e s' hs)

theorem not_separateCalling (h : s.separate = none) : ¬s.SeparateCalling :=
  fun ⟨_, hc⟩ => nomatch h.symm.trans hc

-- A handler in the pool calls another service, and the response arrives.
theorem response_of_pool_call : ∃ es s, Exec SpareStep start es s ∧ s.Pending 1 ∧ s.Arrived 1 ∧ ¬s.Blocked := by
  have h₁ : Exec SpareStep start _ _ := .single ⟨.accept, trivial⟩
  have h₂ := h₁.snoc ⟨.arrive (c := 0) (.call false) rfl, trivial⟩
  have h₃ := h₂.snoc ⟨.produceTask (c := 0) rfl nofun (Nat.succ_pos 9999999), trivial⟩
  have h₄ := h₃.snoc ⟨.take rfl (by decide), trivial⟩
  have h₅ := h₄.snoc ⟨.rpcCallSync (l := .pool 0) rfl, .inl (by decide)⟩
  have h₆ := h₅.snoc ⟨.rpc (.register (i := 0) 0 rfl (by decide)) trivial, trivial⟩
  have h₇ := h₆.snoc ⟨.rpc (.added (i := 0) rfl (.recvAdd rfl (List.mem_singleton_self _))) trivial, trivial⟩
  have h₈ := h₇.snoc ⟨.rpc (.mgr (.queueAdd rfl rfl) trivial) trivial, trivial⟩
  have h₉ := h₈.snoc ⟨.rpc (.sent (i := 0) rfl) trivial, trivial⟩
  have h := h₉.snoc ⟨.arrive (c := 0) (.rsp 1) rfl, fun hc => (not_separateCalling rfl hc).elim⟩
  refine ⟨_, _, h, ⟨0, 3, 0, rfl, rfl⟩, .inl ⟨_, List.mem_singleton_self _, ?_⟩, not_blocked_of_spare h⟩
  exact List.mem_singleton_self _

-- The ordered worker waits, and the reader with it.
theorem blocked_of_idle (hp : s.Pending rid) (hc : s.conns = [.call true :: fs]) (hr : .rsp rid ∈ fs)
    (ht : s.taskCh = []) (hw : s.workers = []) (hs : s.separate = some (.calling i)) (hi : s.rpc.Idle) :
    s.Blocked := by
  refine ⟨rid, hp, .inl ⟨_, hc ▸ List.mem_singleton_self _, List.mem_cons_of_mem _ hr⟩, ?_⟩
  have hwork l w (h : s.work l = some w) : w = .calling i := by
    cases l
    case pool     => simp [work, hw] at h
    case separate => exact Option.some.inj (h.symm.trans hs)
  intro e s' hstep
  cases hstep
  case accept | arrive => exact .inl trivial
  case rpc hs he       => exact .inr (hi.timeout hs he)
  case take h _        => simp [ht] at h
  case produceTaskSeparate h => cases hs.symm.trans h
  case produceTask c f fs' hcf hf _ =>
    have hm := List.mem_of_getElem? hcf
    rw [hc] at hm
    cases List.mem_singleton.mp hm
    exact (hf rfl).elim
  case returned l j hl hj =>
    have ⟨_, he⟩ := hi.calls _ (List.mem_of_getElem? hj)
    cases he
  case finish hl he =>
    cases hwork _ _ hl
    exact (he.elim nofun nofun)
  case rpcCallSync hl | getCallBack hl _ _ | getCallBackNil hl _ | responded hl _ => cases hwork _ _ hl

-- A service gets two ordered calls on a connection. The handler of the first one calls another service, and
-- the response to that comes behind the second one.
theorem response_behind_ordered_call : ∃ es s, Exec Step start es s ∧ s.Blocked := by
  have h₁ : Exec Step start _ _ := .single .accept
  have h₂ := h₁.snoc (.arrive (c := 0) (.call true) rfl)
  have h₃ := h₂.snoc (.arrive (c := 0) (.call true) rfl)
  have h₄ := h₃.snoc (.produceTaskSeparate (c := 0) rfl rfl)
  have h₅ := h₄.snoc (.rpcCallSync (l := .separate) rfl)
  have h₆ := h₅.snoc (.rpc (.register (i := 0) 0 rfl (by decide)) trivial)
  have h₇ := h₆.snoc (.rpc (.added (i := 0) rfl (.recvAdd rfl (List.mem_singleton_self _))) trivial)
  have h₈ := h₇.snoc (.rpc (.mgr (.queueAdd rfl rfl) trivial) trivial)
  have h₉ := h₈.snoc (.rpc (.sent (i := 0) rfl) trivial)
  have h := h₉.snoc (.arrive (c := 0) (.rsp 1) rfl)
  have hrsp := List.mem_singleton_self (Frame.rsp 1)
  refine ⟨_, _, h, blocked_of_idle (i := 0) ⟨0, 3, 0, rfl, rfl⟩ rfl hrsp rfl rfl rfl ⟨?_, fun _ => rfl, rfl⟩⟩
  intro c hc
  cases List.mem_singleton.mp hc
  exact ⟨3, rfl⟩

end Service

end TaskPool
