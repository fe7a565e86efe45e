import Microservice.ClientSdk.Calls
import Microservice.Framework.Theorems.GenGid

namespace SdkCalls

variable {s s' : SdkCalls} {e : Event} {e' : CallbackMgr.Event Nat Nat} {id : UInt32} {i : Nat}
  {c : SdkCall}

def Event.drawnGid : Event → Option UInt32
  | .genGid _ rid => some rid
  | _             => none

-- What the steps of the calls are for the callback manager.
def cbEvent : Event → Option (CallbackMgr.Event Nat Nat)
  | .register i rid endTime => some (.add rid i endTime (some i))
  | .added _ node           => some (.mgr (.recvAdd node))
  | .get _ rid call         => some (.get rid call)
  | .deleted _ node         => some (.mgr (.recvDel node))
  | .mgr e                  => some (.mgr e)
  | _                       => none

theorem Step.cb_idle (h : Step s e s') (he : cbEvent e = none) : s'.cb = s.cb := by
  cases h <;> first | rfl | simp [cbEvent] at he

theorem Step.cb_active (h : Step s e s') (he : cbEvent e = some e') :
    CallbackMgr.Step s.cb e' s'.cb := by
  cases h <;> simp only [cbEvent, Option.some.injEq, reduceCtorEq] at he <;> subst he
  case register  => exact .add ..
  case getNil hg => exact .get_none hg
  case get hg    => exact .get_some hg
  all_goals exact .mgr ‹_›

-- A call is about to register the id.
def Holds (s : SdkCalls) (id : UInt32) : Prop :=
  ∃ i : Nat, s.calls[i]? = some (.drawn id)

theorem Holds.of_setCall (h : (s.setCall i c).Holds id) (hc : c ≠ .drawn id) : s.Holds id := by
  obtain ⟨j, hj⟩ := h
  obtain ⟨_, he⟩ | ⟨_, hj⟩ := List.getElem?_set_cases hj
  · exact absurd he.symm hc
  · exact ⟨j, hj⟩

theorem Step.holds_cases (h : Step s e s') (hx : s'.Holds id) :
    s.Holds id ∨ e.drawnGid = some id := by
  cases h
  case rpcCall =>
    obtain ⟨j, hj⟩ := hx
    obtain hj | ⟨_, he⟩ := List.getElem?_concat_cases hj
    · exact .inl ⟨j, hj⟩
    · cases he
  case genGid =>
    by_cases hid : id = s.globalGID + 1
    case pos => exact .inr (congrArg some hid.symm)
    case neg => exact .inl <| Holds.of_setCall hx fun he => hid (SdkCall.drawn.inj he).symm
  case getNil | get | deleted | callBack | mgr => exact .inl hx
  all_goals exact .inl <| Holds.of_setCall hx nofun

-- What is registered is an id that a call holds.
theorem Step.holds_of_adds (h : Step s e s') (he : cbEvent e = some e') (ha : e'.adds = some id) :
    s.Holds id := by
  cases h <;> simp only [cbEvent, Option.some.injEq, reduceCtorEq] at he <;> subst he <;>
    simp only [CallbackMgr.Event.adds, Option.some.injEq, reduceCtorEq] at ha
  case register hi => exact ha ▸ ⟨_, hi⟩

theorem Step.draws (h : Step s e s') :
    (e.drawnGid = none ∧ s'.globalGID = s.globalGID) ∨
    (e.drawnGid = some (s.globalGID + 1) ∧ s'.globalGID = s.globalGID + 1) := by
  cases h
  case genGid => exact .inr ⟨rfl, rfl⟩
  all_goals exact .inl ⟨rfl, rfl⟩

-- A client, as a process that draws ids.
def gidProcess : GidProcess where
  State        := SdkCalls
  Label        := Event
  Cb           := Nat
  TimeOutCb    := Nat
  init         := init
  Step         := Step
  globalGID    := globalGID
  cb           := cb
  drawnGid _ e := e.drawnGid
  cbEvent      := cbEvent
  Holds        := Holds
  zero         := rfl
  empty        := by simp [Holds, init, CallbackMgr.init]
  draws        := fun _ _ _ => Step.draws
  holds        := fun _ _ _ _ => Step.holds_cases
  idle         := fun _ _ _ => Step.cb_idle
  active       := fun _ _ _ _ => Step.cb_active
  adds         := fun _ _ _ _ _ => Step.holds_of_adds

end SdkCalls
