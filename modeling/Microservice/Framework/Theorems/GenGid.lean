import Microservice.Framework.TaskPool
import Microservice.Framework.Theorems.RpcCall
import Microservice.Lib.IdProcess

-- A process that registers callbacks under ids of `GenGid`. It holds an id while it may still register it.
structure GidProcess where
  State     : Type
  Label     : Type
  Cb        : Type
  TimeOutCb : Type
  init      : State
  Step      : State → Label → State → Prop
  globalGID : State → UInt32
  cb        : State → CallbackMgr Cb TimeOutCb
  drawnGid  : State → Label → Option UInt32
  cbEvent   : Label → Option (CallbackMgr.Event Cb TimeOutCb)
  Holds     : State → UInt32 → Prop
  zero      : globalGID init = 0
  empty     : ∀ id, (cb init).gCbMap id = none ∧ ¬Holds init id
  draws     : ∀ s e s', Step s e s' →
    (drawnGid s e = none ∧ globalGID s' = globalGID s) ∨
    (drawnGid s e = some (globalGID s + 1) ∧ globalGID s' = globalGID s + 1)
  holds     : ∀ s e s' id, Step s e s' → Holds s' id → Holds s id ∨ drawnGid s e = some id
  idle      : ∀ s e s', Step s e s' → cbEvent e = none → cb s' = cb s
  active    : ∀ s e s' ev, Step s e s' → cbEvent e = some ev → CallbackMgr.Step (cb s) ev (cb s')
  adds      : ∀ s e s' ev id, Step s e s' → cbEvent e = some ev → ev.adds = some id → Holds s id

namespace GidProcess

variable {P : GidProcess} {s s' : P.State} {e : P.Label} {id : UInt32}

def Uses (P : GidProcess) (s : P.State) (id : UInt32) : Prop :=
  P.Holds s id ∨ (P.cb s).gCbMap id ≠ none

theorem uses_cases (hs : P.Step s e s') (hx : P.Uses s' id) :
    P.Uses s id ∨ P.drawnGid s e = some id := by
  obtain hx | hx := hx
  · exact (P.holds s e s' id hs hx).imp_left .inl
  · refine .inl ?_
    cases he : P.cbEvent e
    case none    => exact .inr (P.idle s e s' hs he ▸ hx)
    case some ev =>
      obtain ⟨⟨cbs, node⟩, hx⟩ := Option.ne_none_iff_exists'.mp hx
      obtain hx | ⟨_, _, _, rfl⟩ := (P.active s e s' ev hs he).entry_cases hx
      · exact .inr (by simp [hx])
      · exact .inl (P.adds s e s' _ id hs he rfl)

-- The ids of the callbacks in `gCbMap` are the live ones.
def idProcess (P : GidProcess) : IdProcess where
  State     := P.State
  init      := P.init
  Step      := fun s o s' => ∃ e, P.Step s e s' ∧ P.drawnGid s e = o
  counter   := P.globalGID
  Used      := P.Uses
  Live s id := (P.cb s).gCbMap id ≠ none
  zero      := P.zero
  unused    := by simp [Uses, P.empty]
  registers := fun _ _ h => .inr h
  draws     := by
    rintro s id s' ⟨e, hs, ho⟩
    obtain ⟨hd, _⟩ | ⟨hd, hg⟩ := P.draws s e s' hs
    · cases hd.symm.trans ho
    · cases hd.symm.trans ho
      exact ⟨rfl, hg⟩
  keeps     := by
    rintro s s' ⟨e, hs, ho⟩
    obtain ⟨_, hg⟩ | ⟨hd, _⟩ := P.draws s e s' hs
    · exact hg
    · cases hd.symm.trans ho
  uses      := by
    rintro s o s' id ⟨e, hs, rfl⟩ hx
    exact uses_cases hs hx

end GidProcess

namespace RpcCalls

variable {s s' : RpcCalls} {e : Event} {ev : ProcessEvent} {e' : CallbackMgr.Event Nat Nat}
  {id rid : UInt32} {reSendCnt : Int8} {i : Nat} {c : RpcCall}

-- The id that a step draws.
def drawnGid (s : RpcCalls) : ProcessEvent → Option UInt32
  | .rpcCallSync | .step (.resend ..) => some (s.globalGID + 1)
  | _                                 => none

-- An invocation is about to register the id.
def Holds (s : RpcCalls) (id : UInt32) : Prop :=
  id ≠ 0 ∧ ∃ (i : Nat) (reSendCnt : Int8), s.calls[i]? = some (.started id reSendCnt)

theorem Holds.of_setCall (h : (s.setCall i c).Holds id)
    (hc : ∀ rid reSendCnt, c ≠ .started rid reSendCnt) : s.Holds id := by
  obtain ⟨hne, j, reSendCnt, hj⟩ := h
  obtain ⟨_, he⟩ | ⟨_, hj⟩ := List.getElem?_set_cases hj
  · exact absurd he.symm (hc id reSendCnt)
  · exact ⟨hne, j, reSendCnt, hj⟩

theorem Holds.of_append (h : Holds { s with calls := s.calls ++ [.started rid reSendCnt] } id) :
    s.Holds id ∨ id = rid ∧ id ≠ 0 := by
  obtain ⟨hne, j, _, hj⟩ := h
  obtain hj | ⟨_, he⟩ := List.getElem?_concat_cases hj
  · exact .inl ⟨hne, j, _, hj⟩
  · exact .inr ⟨(RpcCall.started.inj he).1, hne⟩

theorem Step.holds_cases (h : Step s e s') (hx : s'.Holds id) :
    s.Holds id ∨ (∃ i cbid now, e = .resend i cbid now ∧ id = s.globalGID + 1) ∨
    ∃ reSendCnt, e = .call id reSendCnt := by
  cases h
  case call =>
    obtain hx | ⟨rfl, _⟩ := Holds.of_append hx
    · exact .inl hx
    · exact .inr <| .inr ⟨_, rfl⟩
  case resend =>
    obtain ⟨hne, j, reSendCnt, hj⟩ := hx
    obtain hj | ⟨_, he⟩ := List.getElem?_concat_cases hj
    · exact .inl <| Holds.of_setCall (c := .resending s.calls.length) ⟨hne, j, reSendCnt, hj⟩ nofun
    · exact .inr <| .inl ⟨_, _, _, rfl, (RpcCall.started.inj he).1⟩
  case sent rid _ _ =>
    refine .inl (Holds.of_setCall hx ?_)
    intro _ _
    split <;> simp
  case genGid | getNil | get | deleted | mgr => exact .inl hx
  all_goals exact .inl (Holds.of_setCall hx nofun)

-- What is registered is an id that an invocation holds.
theorem Step.holds_of_adds (h : Step s e s') (he : cbEvent e = some e') (ha : e'.adds = some id) :
    s.Holds id := by
  cases h <;> simp only [cbEvent, Option.some.injEq, reduceCtorEq] at he <;> subst he <;>
    simp only [CallbackMgr.Event.adds, Option.some.injEq, reduceCtorEq] at ha
  case register hne hi => exact ha ▸ ⟨hne, _, _, hi⟩

def ProcessEvent.cbEvent : ProcessEvent → Option (CallbackMgr.Event Nat Nat)
  | .step e => RpcCalls.cbEvent e
  | _       => none

theorem ProcessStep.draws (h : ProcessStep s ev s') :
    (s.drawnGid ev = none ∧ s'.globalGID = s.globalGID) ∨
    (s.drawnGid ev = some (s.globalGID + 1) ∧ s'.globalGID = s.globalGID + 1) := by
  cases h
  case rpcCallSync  => exact .inr ⟨rfl, rfl⟩
  case rpcCallAsync => exact .inl ⟨rfl, rfl⟩
  case step hcall hgen hs =>
    cases hs
    case resend => exact .inr ⟨rfl, rfl⟩
    case genGid => exact absurd rfl hgen
    all_goals exact .inl ⟨rfl, rfl⟩

theorem ProcessStep.holds_cases (h : ProcessStep s ev s') (hx : s'.Holds id) :
    s.Holds id ∨ s.drawnGid ev = some id := by
  cases h
  case rpcCallSync =>
    obtain hx | ⟨rfl, _⟩ := Holds.of_append hx
    · exact .inl hx
    · exact .inr rfl
  case rpcCallAsync =>
    obtain hx | ⟨rfl, hne⟩ := Holds.of_append hx
    · exact .inl hx
    · exact absurd rfl hne
  case step hcall hgen hs =>
    obtain hx | ⟨_, _, _, rfl, rfl⟩ | ⟨reSendCnt, he⟩ := hs.holds_cases hx
    · exact .inl hx
    · exact .inr rfl
    · exact absurd he (hcall id reSendCnt)

theorem ProcessStep.cb_idle (h : ProcessStep s ev s') (he : ev.cbEvent = none) : s'.cb = s.cb := by
  cases h
  case step hs => exact hs.cb_idle he
  all_goals rfl

theorem ProcessStep.cb_active (h : ProcessStep s ev s') (he : ev.cbEvent = some e') :
    CallbackMgr.Step s.cb e' s'.cb := by
  cases h
  case step hs => exact hs.cb_active he
  all_goals cases he

theorem ProcessStep.holds_of_adds (h : ProcessStep s ev s') (he : ev.cbEvent = some e')
    (ha : e'.adds = some id) : s.Holds id := by
  cases h
  case step hs => exact hs.holds_of_adds he ha
  all_goals cases he

-- A service, as a process that draws ids.
def gidProcess : GidProcess where
  State     := RpcCalls
  Label     := ProcessEvent
  Cb        := Nat
  TimeOutCb := Nat
  init      := init
  Step      := ProcessStep
  globalGID := globalGID
  cb        := cb
  drawnGid  := drawnGid
  cbEvent   := ProcessEvent.cbEvent
  Holds     := Holds
  zero      := rfl
  empty     := by simp [Holds, init, CallbackMgr.init]
  draws     := fun _ _ _ => ProcessStep.draws
  holds     := fun _ _ _ _ => ProcessStep.holds_cases
  idle      := fun _ _ _ => ProcessStep.cb_idle
  active    := fun _ _ _ _ => ProcessStep.cb_active
  adds      := fun _ _ _ _ _ => ProcessStep.holds_of_adds

end RpcCalls
