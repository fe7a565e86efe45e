import Microservice.ClientSdk.Results
import Microservice.ClientSdk.Theorems.Places

namespace SdkCalls

variable {s s' : SdkCalls} {e : Event} {h i k : Nat} {r : SdkRsp}

theorem call_setHandler (hh : ((s.setHandler k r).handlers h).call = some i) :
    (h = k ∧ r.call = some i) ∨ (s.handlers h).call = some i := by
  by_cases hk : h = k
  case pos => exact .inl ⟨hk, by simpa [setHandler, hk] using hh⟩
  case neg => exact .inr (by simpa [setHandler, Function.update_of_ne hk] using hh)

-- A handler that holds the callback of a call has found it, or held it before.
theorem Step.handler_cases (hs : Step s e s') (hh : (s'.handlers h).call = some i) :
    (s.handlers h).call = some i ∨
    ∃ rid node, e = .get h rid (some i) ∧ s.cb.gCbMap rid = some (i, node) := by
  cases hs
  case get hg =>
    obtain ⟨rfl, hc⟩ | hh := call_setHandler (s := s) hh
    · cases hc
      exact .inr ⟨_, _, rfl, hg⟩
    · exact .inl hh
  case deleted hd _ =>
    obtain ⟨rfl, hc⟩ | hh := call_setHandler (s := s) hh
    · exact .inl (hd ▸ hc)
    · exact .inl hh
  case callBack =>
    obtain ⟨_, hc⟩ | hh := call_setHandler hh
    · cases hc
    · exact .inl hh
  all_goals exact .inl hh

end SdkCalls

namespace SdkResults

open SdkCall (Place)

variable {ρ : Type} {s s' : SdkResults ρ} {e : Event ρ} {es : List (Event ρ)} {i h : Nat} {err : String}
  {reply : Option ρ} {rsp : RpcG2CRpcRspReq ρ}

def Event.sdk : Event ρ → SdkCalls.Event
  | .rpcCall _ callBack => .rpcCall callBack
  | .get h rsp call     => .get h rsp.rid call
  | .step e             => e

-- What happens to the calls, without what they are about.
def calls (es : List (Event ρ)) : List SdkCalls.Event :=
  es.map Event.sdk

theorem calls_snoc : calls (es ++ [e]) = calls es ++ [e.sdk] := by
  simp [calls]

theorem Step.sdk (hs : Step s e s') : SdkCalls.Step s.sdk e.sdk s'.sdk := by
  cases hs <;> assumption

theorem sdk_exec (hx : Exec Step init es s) : Exec SdkCalls.Step .init (calls es) s.sdk := by
  refine hx.invariant (I := fun es s => Exec SdkCalls.Step .init (calls es) s.sdk) .refl
    fun es s e s' _ hi hs => ?_
  rw [calls_snoc]
  exact hi.snoc hs.sdk

theorem calls_of_plain {ev : SdkCalls.Event} (hp : Plain ev) : ev.calls = none := by
  cases ev
  case callBack => exact hp.elim
  case mgr ev   => cases ev <;> first | rfl | exact hp.elim
  all_goals rfl

theorem mem_calls (hm : .step e' ∈ es) : e' ∈ calls es :=
  List.mem_map.mpr ⟨_, hm, rfl⟩

-- The callbacks are called in the steps that call them.
theorem invoked_eq (hx : Exec Step init es s) :
    s.invoked.map Prod.fst = (calls es).filterMap SdkCalls.Event.calls := by
  refine hx.invariant (I := fun es s => s.invoked.map Prod.fst = (calls es).filterMap SdkCalls.Event.calls) rfl
    fun es s e s' _ hi hs => ?_
  rw [calls_snoc, List.filterMap_append, ← hi]
  cases hs
  case rpcCall | get      => simp [Event.sdk, SdkCalls.Event.calls]
  case callBack | timeOut => simp [Event.sdk, SdkCalls.Event.calls]
  case step hp            => simp [Event.sdk, calls_of_plain hp]

theorem countP_invoked (hx : Exec Step init es s) :
    s.invoked.countP (·.1 = i) = SdkCalls.called i (calls es) := by
  have hc : s.invoked.countP (·.1 = i) = (s.invoked.map Prod.fst).countP (· = i) := by
    rw [List.countP_map]
    rfl
  rw [hc, invoked_eq hx, List.countP_filterMap, SdkCalls.called]
  refine List.countP_congr fun e _ => ?_
  cases e.calls <;> simp

-- Why a callback is called with an error and a result: the time of the call is over, or a response to the id
-- that was registered for it was read.
inductive Reason (es : List (Event ρ)) (s : SdkResults ρ) (i : Nat) (err : String) (reply : Option ρ) : Prop
  | timeOut (req : SdkReq) (cbid : UInt32) (now endTime : Int) :
    s.reqs[i]? = some req → err = req.timeout → reply = none → .step (.register i cbid endTime) ∈ es →
    endTime ≤ now → .step (.mgr (.call cbid now i)) ∈ es → Reason es s i err reply
  | answered (h : Nat) (rsp : RpcG2CRpcRspReq ρ) (endTime : Int) :
    .step (.register i rsp.rid endTime) ∈ es → .get h rsp (some i) ∈ es → rsp.error = err →
    rsp.reply = reply → Reason es s i err reply

theorem Step.reqs (hs : Step s e s') {req : SdkReq} (hi : s.reqs[i]? = some req) : s'.reqs[i]? = some req := by
  cases hs
  case rpcCall => exact List.getElem?_append_of_eq_some hi
  all_goals exact hi

theorem Reason.snoc (hr : Reason es s i err reply) (hs : Step s e s') : Reason (es ++ [e]) s' i err reply := by
  cases hr
  case timeOut req cbid now endTime h₁ h₂ h₃ h₄ h₅ h₆ =>
    exact .timeOut req cbid now endTime (hs.reqs h₁) h₂ h₃ (List.mem_append_left _ h₄) h₅
      (List.mem_append_left _ h₆)
  case answered h rsp endTime h₁ h₂ h₃ h₄ =>
    exact .answered h rsp endTime (List.mem_append_left _ h₁) (List.mem_append_left _ h₂) h₃ h₄

structure Origin (es : List (Event ρ)) (s : SdkResults ρ) : Prop where
  held    : ∀ h i, (s.sdk.handlers h).call = some i →
    .get h (s.rsps h) (some i) ∈ es ∧ ∃ endTime, .step (.register i (s.rsps h).rid endTime) ∈ es
  invoked : ∀ i err reply, (i, err, reply) ∈ s.invoked → Reason es s i err reply

theorem register_of_calls (hm : .register i cbid endTime ∈ calls es) :
    .step (.register i cbid endTime) ∈ es := by
  obtain ⟨e, hm, he⟩ := List.mem_map.mp hm
  cases e <;> simp only [Event.sdk, reduceCtorEq] at he
  exact he ▸ hm

-- A handler that holds the callback of a call has found it for its response, or held it before.
theorem Step.handler_cases (hs : Step s e s') (hh : (s'.sdk.handlers h).call = some i) :
    ((s.sdk.handlers h).call = some i ∧ s'.rsps h = s.rsps h) ∨
    (e = .get h (s'.rsps h) (some i) ∧ ∃ node, s.sdk.cb.gCbMap (s'.rsps h).rid = some (i, node)) := by
  have hc := hs.sdk.handler_cases hh
  cases hs
  case get k _ _ rsp hs =>
    by_cases hk : h = k
    case pos =>
      subst hk
      obtain hc | ⟨rid, node, he, hg⟩ := hc
      · -- The handler is idle before.
        cases hs
        case getNil hidle _ => simp [hidle, SdkRsp.call] at hc
        case get hidle _    => simp [hidle, SdkRsp.call] at hc
      · cases he
        exact .inr ⟨by simp, node, by simpa using hg⟩
    case neg =>
      obtain hc | ⟨rid, node, he, hg⟩ := hc
      · exact .inl ⟨hc, Function.update_of_ne hk ..⟩
      · exact absurd (SdkCalls.Event.get.inj he).1.symm hk
  case step hp =>
    obtain hc | ⟨rid, node, he, hg⟩ := hc
    · exact .inl ⟨hc, rfl⟩
    · cases he
      exact hp.elim
  all_goals
    obtain hc | ⟨_, _, he, _⟩ := hc
    · exact .inl ⟨hc, rfl⟩
    · cases he

-- A timeout callback is called when the time of its call is over.
theorem timeOut_in_time (hx : Exec Step init es s) (hd : SdkCalls.Drawn (calls es) s.sdk)
    (hm : .step (.mgr (.call cbid now i)) ∈ es) :
    ∃ endTime, .step (.register i cbid endTime) ∈ es ∧ endTime ≤ now := by
  have hc : .mgr (.call cbid now i) ∈ (calls es).filterMap SdkCalls.cbEvent :=
    List.mem_filterMap.mpr ⟨_, mem_calls hm, rfl⟩
  obtain ⟨j, endTime, ha, hle⟩ := (hd.history (sdk_exec hx)).called_in_time hc
  obtain ⟨hj, hreg⟩ := SdkCalls.register_of_add ha
  cases hj
  exact ⟨endTime, register_of_calls hreg, hle⟩

theorem Step.origin (hs : Step s e s') (hx : Exec Step init es s) (hd : SdkCalls.Drawn (calls es) s.sdk)
    (hd' : SdkCalls.Drawn (calls (es ++ [e])) s'.sdk) (ho : Origin es s) : Origin (es ++ [e]) s' := by
  have hh := hd.history (sdk_exec hx)
  have hold : ∀ i err reply, (i, err, reply) ∈ s.invoked → Reason (es ++ [e]) s' i err reply :=
    fun i err reply hm => (ho.invoked i err reply hm).snoc hs
  constructor
  case held =>
    intro h i hi
    obtain ⟨hi, hr⟩ | ⟨he, node, hg⟩ := hs.handler_cases hi
    · obtain ⟨hm, endTime, hreg⟩ := ho.held h i hi
      exact ⟨hr ▸ List.mem_append_left _ hm, endTime, hr ▸ List.mem_append_left _ hreg⟩
    · obtain ⟨_, _, _, hreg⟩ := SdkCalls.entry_registered hh hg
      exact ⟨by simp [← he], _, List.mem_append_left _ (register_of_calls hreg)⟩
  case invoked =>
    intro i err reply hm
    have hs' := hs
    cases hs
    case callBack k j _ hcb =>
      obtain hm | hm := List.mem_append.mp hm
      · exact hold i err reply hm
      · cases List.mem_singleton.mp hm
        cases hcb
        case callBack hc =>
          obtain ⟨hget, endTime, hreg⟩ := ho.held k i (by simp [hc, SdkRsp.call])
          exact .answered k (s.rsps k) endTime (List.mem_append_left _ hreg) (List.mem_append_left _ hget) rfl rfl
    case timeOut cbid now j _ req hcb hreq =>
      obtain hm | hm := List.mem_append.mp hm
      · exact hold i err reply hm
      · cases List.mem_singleton.mp hm
        have hcall : .step (.mgr (.call cbid now i)) ∈ es ++ [.step (.mgr (.call cbid now i))] := by simp
        obtain ⟨endTime, hreg, hle⟩ := timeOut_in_time (hx.snoc hs') hd' hcall
        exact .timeOut req cbid now endTime hreq rfl rfl hreg hle hcall
    all_goals exact hold i err reply hm

theorem origin_of_exec (hx : Exec Step init es s) (hn : SdkCalls.draws (calls es) < 2 ^ 32) : Origin es s := by
  refine hx.invariant (I := fun es s => SdkCalls.draws (calls es) < 2 ^ 32 → Origin es s) (fun _ => ?_)
    (fun es s e s' hx hi hs hn => ?_) hn
  · constructor <;> simp [init, SdkCalls.init, SdkRsp.call]
  · have hd' := SdkCalls.drawn_of_exec (sdk_exec (hx.snoc hs)) hn
    rw [calls_snoc, SdkCalls.draws_snoc] at hn
    have hn : SdkCalls.draws (calls es) < 2 ^ 32 := by omega
    exact hs.origin hx (SdkCalls.drawn_of_exec (sdk_exec hx) hn) hd' (hi hn)

-- Every callback is at exactly one place, where a callback that is no longer anywhere else was called once,
-- and it is called with a response to its own call or with the error of its own timeout.
theorem callbacks_accounted (hx : Exec Step init es s) (hn : SdkCalls.draws (calls es) < 2 ^ 32) :
    (∀ i, ∃ p, (∀ q, SdkCalls.At (calls es) s.sdk i q ↔ q = p) ∧
      s.invoked.countP (·.1 = i) = if p = .called then 1 else 0) ∧
    ∀ i err reply, (i, err, reply) ∈ s.invoked → Reason es s i err reply := by
  have hp := SdkCalls.placed_of_exec (sdk_exec hx) hn
  refine ⟨fun i => ?_, (origin_of_exec hx hn).invoked⟩
  obtain ⟨p, hat⟩ := hp.place i
  refine ⟨p, hat, ?_⟩
  have hone := hp.once i
  have hcalled : 0 < SdkCalls.called i (calls es) ↔ p = .called := by
    rw [eq_comm (a := p), ← hat .called, SdkCalls.called, List.countP_pos_iff]
    simp [SdkCalls.At]
  rw [countP_invoked hx]
  split
  case isTrue hpc  => have := hcalled.mpr hpc; omega
  case isFalse hpc => have := mt hcalled.mp hpc; omega

-- A call is made and answered.
theorem callbacks_accounted_answered :
    ∃ es s, Exec Step (init : SdkResults Unit) es s ∧ SdkCalls.draws (calls es) < 2 ^ 32 ∧
      s.invoked.countP (·.1 = 0) = 1 ∧ Reason es s 0 "" (some ()) := by
  obtain ⟨es, s, hx, hd, hc, hm⟩ : ∃ es s, Exec Step (init : SdkResults Unit) es s ∧
      SdkCalls.draws (calls es) = 1 ∧ s.invoked.countP (·.1 = 0) = 1 ∧ (0, "", some ()) ∈ s.invoked := by
    have h₁ := Exec.refl.snoc
      (show Step (init : SdkResults Unit) (.rpcCall ⟨"n", "s", false, "x", []⟩ true) _ from .rpcCall .rpcCall)
    have h₂ := h₁.snoc (.step (.genGid (i := 0) rfl) trivial)
    have h₃ := h₂.snoc (.step (.register (i := 0) 0 rfl) trivial)
    have h₄ := h₃.snoc (.step (.added (i := 0) rfl (.recvAdd rfl (List.mem_singleton.mpr rfl))) trivial)
    have h₅ := h₄.snoc (.step (.mgr (.queueAdd rfl rfl) nofun nofun) trivial)
    have h₆ := h₅.snoc (.step (.sent (i := 0) rfl) trivial)
    have h₇ := h₆.snoc (show Step _ (.get 0 ⟨1, "", some ()⟩ (some 0)) _ from .get (.get rfl rfl))
    have h₈ := h₇.snoc (.step (.deleted (h := 0) rfl (.recvDel rfl (List.mem_singleton.mpr rfl))) trivial)
    have h₉ := h₈.snoc (.callBack (.callBack (h := 0) rfl))
    exact ⟨_, _, h₉, rfl, rfl, List.mem_singleton.mpr rfl⟩
  have hn : SdkCalls.draws (calls es) < 2 ^ 32 := hd ▸ by decide
  exact ⟨es, s, hx, hn, hc, (callbacks_accounted hx hn).2 0 "" (some ()) hm⟩

end SdkResults
