import Microservice.Framework.RpcResults
import Microservice.Framework.Theorems.RpcCall

namespace RspHandler

-- The channel that the handler is going to send on.
def ch : RspHandler → Option Nat
  | .idle          => none
  | .deleting ch _ => ch
  | .replying ch   => ch

end RspHandler

namespace RpcCall

variable {ρ : Type} {a a' : Invocation ρ} {c : RpcCall}

def Running : RpcCall → Prop
  | .started .. | .adding .. | .sending .. | .receiving _ => True
  | _                                                     => False

namespace Invocation

-- The invocation has not come to anything yet.
structure Open (a : Invocation ρ) : Prop where
  outcome : a.outcome = none
  result  : a.result = none

-- The arguments stay as they are, and so does what the invocation has come to.
structure Grows (a a' : Invocation ρ) : Prop where
  serviceName : a'.serviceName = a.serviceName
  rpcName     : a'.rpcName = a.rpcName
  rid         : a'.rid = a.rid
  reSendCnt   : a'.reSendCnt = a.reSendCnt
  drawn       : a'.drawn = a.drawn
  outcome     : ∀ o, a.outcome = some o → a'.outcome = some o
  result      : ∀ r, a.result = some r → a'.result = some r

theorem Grows.refl : a.Grows a :=
  ⟨rfl, rfl, rfl, rfl, rfl, fun _ => id, fun _ => id⟩

theorem Open.grows_ended (h : a.Open) : a.Grows (a.ended ns o) :=
  ⟨rfl, rfl, rfl, rfl, rfl, by simp [h.outcome], by simp [h.result]⟩

end Invocation

-- What an invocation is like while it is at some place.
def Fits : RpcCall → Invocation ρ → Prop
  | .started rid n, a  => a.rid = rid ∧ a.reSendCnt = n ∧ a.Open
  | .adding rid n _, a => a.rid = rid ∧ a.reSendCnt = n ∧ a.Open
  | .sending rid n, a  => a.rid = rid ∧ a.reSendCnt = n ∧ a.Open
  | .receiving n, a    => a.rid ≠ 0 ∧ a.reSendCnt = n ∧ a.Open
  | .resending j, a    => a.outcome = some (.resent j) ∧ a.result = none
  | .returned, a       => a.outcome ≠ none ∧ a.result ≠ none

theorem Fits.isOpen (h : c.Fits a) (hc : c.Running) : a.Open := by
  cases c
  case started | adding | sending | receiving => exact h.2.2
  all_goals exact hc.elim

end RpcCall

namespace RpcCalls

variable {s s' : RpcCalls} {ev : Event} {k ch : Nat}

-- Only `GetCallBack` gives a channel to a handler.
theorem Step.handler_ch (hs : Step s ev s') (hc : ev.Continues)
    (hh : (s'.handlers k).ch = some ch) : (s.handlers k).ch = some ch := by
  cases hs
  case getNil | get => exact hc.elim
  case deleted k' ch' hd _ =>
    by_cases hk : k = k'
    case pos =>
      subst hk
      simpa [setHandler, RspHandler.ch, hd] using hh
    case neg => simpa [setHandler_of_ne hk] using hh
  case reply k' _ _ _ =>
    by_cases hk : k = k'
    case pos =>
      subst hk
      simp [setHandler, setCall, RspHandler.ch] at hh
    case neg => exact setHandler_of_ne (r := .idle) hk ▸ hh
  all_goals exact hh

end RpcCalls

namespace RpcResults

open RpcCall CallbackMgr

variable {ρ : Type} {ns : String} {s s' : RpcResults ρ} {e : Event ρ} {es : List (Event ρ)}
  {a a' b : Invocation ρ} {o : Outcome ρ} {i j : Nat} {ev : RpcCalls.Event} {rpc : RpcCalls}

-- The calls and their responses in a run are those of the calls without what they return.
theorem Step.rpc_exec (hs : Step ns s e s') : ∃ es', Exec RpcCalls.Step s.rpc es' s'.rpc := by
  cases hs
  case rpcCall     => exact ⟨_, .single .call⟩
  case rpcCallSync => exact ⟨_, (Exec.single .genGid).snoc .call⟩
  case genGid      => exact ⟨_, .single .genGid⟩
  all_goals exact ⟨_, .single ‹_›⟩

theorem rpc_exec (h : Exec (Step ns) init es s) : ∃ es', Exec RpcCalls.Step .init es' s.rpc := by
  refine h.preserves (I := fun s => ∃ es', Exec RpcCalls.Step .init es' s.rpc) ⟨[], .refl⟩ ?_
  rintro s e s' ⟨es₁, h₁⟩ hs
  obtain ⟨es₂, h₂⟩ := hs.rpc_exec
  exact ⟨es₁ ++ es₂, h₁.trans h₂⟩

-- How a step ends an invocation.
structure Ends (s : RpcResults ρ) (i : Nat) (o : Outcome ρ) : Prop where
  running  : ∃ c, s.rpc.calls[i]? = some c ∧ c.Running
  resent   : ∀ j, o ≠ .resent j
  async    : o = .async → ∃ n, s.rpc.calls[i]? = some (.sending 0 n)
  answered : ∀ rsp, o = .answered rsp → ∃ h, s.rsps h = rsp ∧ s.rpc.handlers h = .replying i

theorem ends_of_ending (hs : RpcCalls.Step s.rpc ev rpc) (he : s.ending ev = some (i, o)) :
    s.Ends i o ∧ rpc.calls = s.rpc.calls.set i .returned := by
  cases hs <;> simp only [ending, Option.some.injEq, Prod.mk.injEq, reduceCtorEq] at he
  case noClient hi =>
    obtain ⟨rfl, rfl⟩ := he
    exact ⟨⟨⟨_, hi, trivial⟩, nofun, nofun, nofun⟩, rfl⟩
  case sendFailed hi =>
    obtain ⟨rfl, rfl⟩ := he
    exact ⟨⟨⟨_, hi, trivial⟩, nofun, nofun, nofun⟩, rfl⟩
  case timeOut hi =>
    obtain ⟨rfl, rfl⟩ := he
    exact ⟨⟨⟨_, hi, trivial⟩, nofun, nofun, nofun⟩, rfl⟩
  case sent rid n hi =>
    rw [hi] at he
    by_cases hr : rid = 0
    case pos =>
      subst hr
      obtain ⟨rfl, rfl⟩ : _ = i ∧ Outcome.async = o := by simpa using he
      exact ⟨⟨⟨_, hi, trivial⟩, nofun, fun _ => ⟨n, hi⟩, nofun⟩, rfl⟩
    case neg => simp [hr] at he
  case reply h _ hh hi =>
    obtain ⟨rfl, rfl⟩ := he
    refine ⟨⟨⟨_, hi, trivial⟩, nofun, nofun, fun rsp he => ?_⟩, rfl⟩
    cases he
    exact ⟨h, rfl, hh⟩

theorem continues_of_ending (he : s.ending ev = some (i, o)) : ev.Continues := by
  cases ev <;> trivial

theorem Ends.results (h : s.Ends i o) : a.results ns o ≠ none := by
  cases o
  case resent j => exact absurd rfl (h.resent j)
  all_goals simp [Invocation.results]

-- The invocations go along with the calls.
abbrev Fitting (s : RpcResults ρ) : Prop :=
  List.Forall₂ Fits s.rpc.calls s.invocations

theorem Fitting.fits (h : s.Fitting) (hc : s.rpc.calls[i]? = some c) (ha : s.invocations[i]? = some a) :
    c.Fits a := by
  obtain ⟨a', ha', hf⟩ := h.exists_getElem? hc
  cases ha.symm.trans ha'
  exact hf

theorem Step.fitting (hs : Step ns s e s') (h : s.Fitting) : s'.Fitting := by
  cases hs
  case rpcCall     => exact h.concat ⟨rfl, rfl, rfl, rfl⟩
  case rpcCallSync => exact h.concat ⟨rfl, rfl, rfl, rfl⟩
  case genGid      => exact h
  case get hr      => cases hr <;> exact h
  case ended hr he hi =>
    have ⟨hends, hc⟩ := ends_of_ending hr he
    unfold Fitting
    rw [hc]
    exact h.set ⟨nofun, hends.results⟩
  case resend a hr hi =>
    cases hr
    case resend n hn hc _ =>
      have hf : Fits (.receiving n) a := h.fits hc hi
      have hres : Fits (.resending s.rpc.calls.length) (a.ended ns (.resent s.invocations.length)) :=
        ⟨by rw [h.length_eq]; rfl, rfl⟩
      exact (h.set hres).concat ⟨rfl, congrArg (· - 1) hf.2.1, rfl, rfl⟩
  case innerReturned hr hc hi hj =>
    cases hr
    case innerReturned hret hc' =>
      cases hc.symm.trans hc'
      have hf := h.fits hc hi
      exact h.set ⟨by simp [hf.1], (h.fits hret hj).2⟩
  case step hr hc he hrec =>
    cases hr
    case call | genGid | getNil | get    => exact hc.elim
    case resend | innerReturned          => exact absurd trivial hrec
    case noClient | sendFailed | timeOut | reply => cases he
    case async hi | register hi | added hi _ =>
      obtain ⟨a, ha, hf⟩ := h.exists_getElem? hi
      exact h.set_left ha hf
    case sent rid n hi =>
      obtain ⟨a, ha, hf⟩ := h.exists_getElem? hi
      have hr : rid ≠ 0 := by
        rintro rfl
        simp [ending, hi] at he
      rw [if_neg hr]
      exact h.set_left ha ⟨hf.1 ▸ hr, hf.2⟩
    case deleted => exact h
    case mgr => exact h

-- What a step makes of an invocation.
inductive Change (ns : String) (s : RpcResults ρ) (e : Event ρ) (s' : RpcResults ρ) (i : Nat)
    (a' : Invocation ρ) : Prop
  | same :
    s.invocations[i]? = some a' → Change ns s e s' i a'
  | started :
    i = s.invocations.length → a'.Open → (∀ d, a'.drawn = some d → d = s.draws ∧
      a'.rid = s.rpc.globalGID + 1 ∧ s'.draws = s.draws + 1) → Change ns s e s' i a'
  | ended (a : Invocation ρ) (o : Outcome ρ) :
    s.invocations[i]? = some a → a.Open → a' = a.ended ns o → s.Ends i o → Change ns s e s' i a'
  | resent (a : Invocation ρ) (cbid : UInt32) (now : Int) :
    s.invocations[i]? = some a → a.Open → a' = a.ended ns (.resent s.invocations.length) →
    e = .step (.resend i cbid now) → MgrStep s.rpc.cb (.call cbid now i) s'.rpc.cb → 0 < a.reSendCnt →
    s'.invocations[s.invocations.length]? = some (.start a.serviceName a.rpcName (s.rpc.globalGID + 1)
      (a.reSendCnt - 1) (some s.draws)) →
    Change ns s e s' i a'
  | returned (a b : Invocation ρ) (j : Nat) :
    s.invocations[i]? = some a → a.outcome = some (.resent j) → a.result = none →
    s.invocations[j]? = some b → a' = { a with result := b.result } → Change ns s e s' i a'

theorem Step.change (hs : Step ns s e s') (h : s.Fitting) (hi : s'.invocations[i]? = some a') :
    Change ns s e s' i a' := by
  cases hs
  case rpcCall =>
    obtain hi | ⟨rfl, rfl⟩ := List.getElem?_concat_cases hi
    · exact .same hi
    · exact .started rfl ⟨rfl, rfl⟩ nofun
  case rpcCallSync =>
    obtain hi | ⟨rfl, rfl⟩ := List.getElem?_concat_cases hi
    · exact .same hi
    · refine .started rfl ⟨rfl, rfl⟩ fun d hd => ?_
      cases hd
      exact ⟨rfl, rfl, rfl⟩
  case genGid | get | step => exact .same hi
  case ended a hr he ha =>
    obtain ⟨rfl, rfl⟩ | ⟨_, hi⟩ := List.getElem?_set_cases hi
    · have ⟨hends, _⟩ := ends_of_ending hr he
      obtain ⟨c, hc, hrun⟩ := hends.running
      exact .ended a _ ha ((h.fits hc ha).isOpen hrun) rfl hends
    · exact .same hi
  case resend a hr ha =>
    obtain hi | ⟨rfl, rfl⟩ := List.getElem?_concat_cases hi
    · obtain ⟨rfl, rfl⟩ | ⟨_, hi⟩ := List.getElem?_set_cases hi
      · cases hr
        case resend n hn hc hm =>
          have hf : Fits (.receiving n) a := h.fits hc ha
          refine .resent a _ _ ha hf.2.2 rfl rfl hm (hf.2.1 ▸ hn) ?_
          simp
      · exact .same hi
    · refine .started (by simp) ⟨rfl, rfl⟩ fun d hd => ?_
      cases hd
      exact ⟨rfl, rfl, rfl⟩
  case innerReturned a b hr hc ha hb =>
    obtain ⟨rfl, rfl⟩ | ⟨_, hi⟩ := List.getElem?_set_cases hi
    · have hf := h.fits hc ha
      exact .returned a b _ ha hf.1 hf.2 hb rfl
    · exact .same hi

theorem Step.length_le (hs : Step ns s e s') : s.invocations.length ≤ s'.invocations.length := by
  cases hs
  case rpcCall | resend        => simp
  case rpcCallSync             => simp [RpcResults.rpcCallSync]
  case ended | innerReturned   => simp
  case genGid | get | step     => exact Nat.le_refl _

theorem Step.grows (hs : Step ns s e s') (h : s.Fitting) (hi : s.invocations[i]? = some a) :
    ∃ a', s'.invocations[i]? = some a' ∧ a.Grows a' := by
  have hl := (List.getElem?_eq_some_iff.mp hi).1
  have ⟨a', hi'⟩ : ∃ a', s'.invocations[i]? = some a' :=
    ⟨_, List.getElem?_eq_getElem (Nat.lt_of_lt_of_le hl hs.length_le)⟩
  refine ⟨a', hi', ?_⟩
  cases hs.change h hi'
  case same hi' =>
    cases hi.symm.trans hi'
    exact .refl
  case started he _ _ => exact absurd hl (Nat.not_lt.mpr he.ge)
  case ended hi' ho he _ | resent hi' ho he _ _ _ _ =>
    cases hi.symm.trans hi'
    exact he ▸ ho.grows_ended
  case returned hi' ho hr _ he =>
    cases hi.symm.trans hi'
    exact he ▸ ⟨rfl, rfl, rfl, rfl, rfl, fun _ => id, by simp [hr]⟩

-- What the steps are for the callback manager.
def Event.cbEvent : Event ρ → Option (CallbackMgr.Event Nat Nat)
  | .get _ rsp ch => some (.get rsp.rid ch)
  | .step e       => RpcCalls.cbEvent e
  | _             => none

theorem Step.rpc_step (hs : Step ns s (.step ev) s') : RpcCalls.Step s.rpc ev s'.rpc := by
  cases hs <;> assumption

theorem Step.cb_idle (hs : Step ns s e s') (he : e.cbEvent = none) : s'.rpc.cb = s.rpc.cb := by
  cases e
  case rpcCall | rpcCallSync | genGid => cases hs; rfl
  case get                            => cases he
  case step                           => exact hs.rpc_step.cb_idle he

theorem Step.cb_active {e' : CallbackMgr.Event Nat Nat} (hs : Step ns s e s') (he : e.cbEvent = some e') :
    CallbackMgr.Step s.rpc.cb e' s'.rpc.cb := by
  cases e
  case rpcCall | rpcCallSync | genGid => cases he
  case step                           => exact hs.rpc_step.cb_active he
  case get                            =>
    cases hs
    case get hr => exact hr.cb_active he

theorem Event.eq_expire (he : e.cbEvent = some (.mgr (.expire cbid now))) :
    e = .step (.mgr (.expire cbid now)) := by
  cases e
  case step e =>
    cases e <;> cases he
    rfl
  all_goals cases he

-- A callback is registered by an invocation that has just started.
theorem Step.registers (hs : Step ns s e s') (he : e.cbEvent = some (.add rid i endTime t)) :
    t = some i ∧ s'.invocations = s.invocations ∧ ∃ n, s.rpc.calls[i]? = some (.started rid n) := by
  cases e
  case rpcCall | rpcCallSync | genGid | get => cases he
  case step ev =>
    cases ev <;> cases he
    cases hs
    case ended hend    => cases hend
    case step hr _ _ _ =>
      cases hr
      exact ⟨rfl, rfl, _, ‹_›⟩

-- Who has got the channel of an invocation: an entry under its id, its node, the tick that has removed its
-- entry, or a response handler with a response for its id.
structure Wired (es : List (Event ρ)) (s : RpcResults ρ) : Prop where
  entry   : ∀ rid ch node, s.rpc.cb.gCbMap rid = some (ch, node) →
    ∃ a, s.invocations[ch]? = some a ∧ a.rid = rid ∧ ∀ j, a.outcome ≠ some (.resent j)
  node    : ∀ p < s.rpc.cb.queue.alloc, ∀ i, (s.rpc.cb.queue.heap p).timeOutCb = some i →
    ∃ a, s.invocations[i]? = some a ∧ a.rid = (s.rpc.cb.queue.heap p).cbid
  pending : ∀ p now i, s.rpc.cb.mgr.pendingCall = some (p, now) →
    (s.rpc.cb.queue.heap p).timeOutCb = some i → p < s.rpc.cb.queue.alloc ∧
    .step (.mgr (.expire (s.rpc.cb.queue.heap p).cbid now)) ∈ es ∧
    ∀ rid node, s.rpc.cb.gCbMap rid ≠ some (i, node)
  handler : ∀ h ch, (s.rpc.handlers h).ch = some ch →
    ∃ a, s.invocations[ch]? = some a ∧ (s.rsps h).rid = a.rid ∧ .get h (s.rsps h) (some ch) ∈ es

theorem init_wired : Wired [] (init : RpcResults ρ) :=
  ⟨nofun, nofun, nofun, nofun⟩

-- The invocation that a timeout callback wakes up.
theorem Wired.called (h : Wired es s) (hm : MgrStep s.rpc.cb (.call cbid now i) cb')
    (hi : s.invocations[i]? = some a) :
    a.rid = cbid ∧ .step (.mgr (.expire cbid now)) ∈ es ∧ ∀ rid node, s.rpc.cb.gCbMap rid ≠ some (i, node) := by
  cases hm
  case call cur prev hc ht =>
    have ⟨hb, hex, hne⟩ := h.pending cur now i (by simp [hc, Mgr.pendingCall]) ht
    obtain ⟨a', hi', hr⟩ := h.node cur hb i ht
    cases hi.symm.trans hi'
    exact ⟨hr, hex, hne⟩

theorem Wired.entry_step (h : Wired es s) (hf : s.Fitting) (hs : Step ns s e s')
    (hx : s'.rpc.cb.gCbMap rid = some (ch, p)) :
    ∃ a, s'.invocations[ch]? = some a ∧ a.rid = rid ∧ ∀ j, a.outcome ≠ some (.resent j) := by
  -- An entry that was there before stays that of an invocation that is not resent.
  have hold (hx : s.rpc.cb.gCbMap rid = some (ch, p)) :
      ∃ a, s'.invocations[ch]? = some a ∧ a.rid = rid ∧ ∀ j, a.outcome ≠ some (.resent j) := by
    obtain ⟨a, ha, hr, ho⟩ := h.entry rid ch p hx
    obtain ⟨a', ha', hg⟩ := hs.grows hf ha
    refine ⟨a', ha', hg.rid.trans hr, fun j hj => ?_⟩
    cases hs.change hf ha'
    case same ha''                => cases ha.symm.trans ha''; exact ho j hj
    case started ho' _            => simp [ho'.outcome] at hj
    case ended he hends           => subst he; cases hj; exact hends.resent j rfl
    case resent hm _ _            => exact (h.called hm ha).2.2 rid p hx
    case returned ha'' ho' _ _ he => cases ha.symm.trans ha''; exact ho _ ho'
  cases he : e.cbEvent
  case none    => exact hold (hs.cb_idle he ▸ hx)
  case some ev =>
    obtain hx | ⟨_, _, _, rfl⟩ := (hs.cb_active he).entry_cases hx
    · exact hold hx
    · obtain ⟨_, hinv, n, hc⟩ := hs.registers he
      obtain ⟨a, ha, hfit⟩ := hf.exists_getElem? hc
      exact ⟨a, hinv ▸ ha, hfit.1, by simp [hfit.2.2.outcome]⟩

theorem Wired.node_step (h : Wired es s) (hf : s.Fitting) (hs : Step ns s e s') (hq : s.rpc.cb.Queued xs)
    (hp : p < s'.rpc.cb.queue.alloc) (hi : (s'.rpc.cb.queue.heap p).timeOutCb = some i) :
    ∃ a, s'.invocations[i]? = some a ∧ a.rid = (s'.rpc.cb.queue.heap p).cbid := by
  have hold (hp : p < s.rpc.cb.queue.alloc) (hk : Keeps s.rpc.cb s'.rpc.cb) :
      ∃ a, s'.invocations[i]? = some a ∧ a.rid = (s'.rpc.cb.queue.heap p).cbid := by
    have ⟨hid, _, ht⟩ := hk.data p hp
    obtain ⟨a, ha, hr⟩ := h.node p hp i (ht ▸ hi)
    obtain ⟨a', ha', hg⟩ := hs.grows hf ha
    exact ⟨a', ha', by rw [hg.rid, hr, hid]⟩
  cases he : e.cbEvent
  case none    =>
    have hcb := hs.cb_idle he
    exact hold (hcb ▸ hp) (hcb ▸ .of_agrees .refl)
  case some ev =>
    have hcb := hs.cb_active he
    obtain hp | ⟨cbs, endTime, rfl⟩ := hcb.node_cases hq hp
    · exact hold hp (hcb.keeps hq)
    · obtain ⟨ht, hinv, n, hc⟩ := hs.registers he
      cases ht.symm.trans hi
      obtain ⟨a, ha, hfit⟩ := hf.exists_getElem? hc
      exact ⟨a, hinv ▸ ha, hfit.1⟩

theorem Wired.pending_step (h : Wired es s) (hs : Step ns s e s') (hq : s.rpc.cb.Queued xs)
    (hn : s.rpc.Nodes) (hp : s'.rpc.cb.mgr.pendingCall = some (p, now))
    (ht : (s'.rpc.cb.queue.heap p).timeOutCb = some i) :
    p < s'.rpc.cb.queue.alloc ∧ .step (.mgr (.expire (s'.rpc.cb.queue.heap p).cbid now)) ∈ es ++ [e] ∧
    ∀ rid q, s'.rpc.cb.gCbMap rid ≠ some (i, q) := by
  cases he : e.cbEvent
  case none    =>
    rw [hs.cb_idle he] at hp ht ⊢
    have ⟨hb, hm, hne⟩ := h.pending p now i hp ht
    exact ⟨hb, List.mem_append_left _ hm, hne⟩
  case some ev =>
    have hcb := hs.cb_active he
    have hk := hcb.keeps hq
    obtain hp | ⟨hb, rfl, hnone⟩ := hcb.pending_cases hq hp
    · have hb := hq.pending_bound hp
      have ⟨hid, _, ht'⟩ := hk.data p hb
      rw [ht'] at ht
      have ⟨_, hm, hne⟩ := h.pending p now i hp ht
      refine ⟨Nat.lt_of_lt_of_le hb hk.alloc, List.mem_append_left _ (hid ▸ hm), fun rid q hx => ?_⟩
      obtain hx | ⟨_, _, _, rfl⟩ := hcb.entry_cases hx
      · exact hne rid q hx
      -- An invocation with a node does not register another one.
      · obtain ⟨_, _, n, hc⟩ := hs.registers he
        obtain ⟨i', c, ht'', hc', hreg⟩ := hn.registered p hb
        cases ht.symm.trans ht''
        cases hc.symm.trans hc'
        exact hreg
    · have ⟨hid, _, ht'⟩ := hk.data p hb
      rw [ht'] at ht
      rw [hid]
      refine ⟨Nat.lt_of_lt_of_le hb hk.alloc, ?_, fun rid q hx => ?_⟩
      · simp [Event.eq_expire he]
      · obtain hx' | ⟨_, _, _, hev⟩ := hcb.entry_cases hx
        · obtain ⟨a, ha, hr, _⟩ := h.entry rid i q hx'
          obtain ⟨a', ha', hr'⟩ := h.node p hb i ht
          cases ha.symm.trans ha'
          rw [← hr', hr, hx] at hnone
          cases hnone
        · cases hev

-- A handler keeps to its response and its channel.
theorem Step.handler_cases (hs : Step ns s e s') (hh : (s'.rpc.handlers k).ch = some ch) :
    (s.rpc.handlers k).ch = some ch ∧ s'.rsps k = s.rsps k ∨
    e = .get k (s'.rsps k) (some ch) ∧ ∃ node, s.rpc.cb.gCbMap (s'.rsps k).rid = some (ch, node) := by
  cases hs
  case rpcCall | rpcCallSync | genGid => exact .inl ⟨hh, rfl⟩
  case get k' ch' rpc' rsp hr =>
    by_cases hk : k = k'
    case pos =>
      subst hk
      have hrsp : Function.update s.rsps k rsp k = rsp := Function.update_self ..
      cases hr
      case getNil hidle _   => simp [hidle, RspHandler.ch] at hh
      case get ch' node _ hg =>
        obtain rfl : ch' = ch := by simpa [RpcCalls.setHandler, RspHandler.ch] using hh
        exact .inr ⟨by simp only [hrsp], node, by simpa only [hrsp] using hg⟩
    case neg =>
      refine .inl ⟨?_, Function.update_of_ne hk ..⟩
      cases hr
      case getNil => exact hh
      case get    => simpa [RpcCalls.setHandler_of_ne hk] using hh
  case ended hr he _          => exact .inl ⟨hr.handler_ch (continues_of_ending he) hh, rfl⟩
  case resend hr _            => exact .inl ⟨hr.handler_ch trivial hh, rfl⟩
  case innerReturned hr _ _ _ => exact .inl ⟨hr.handler_ch trivial hh, rfl⟩
  case step hr hc _ _         => exact .inl ⟨hr.handler_ch hc hh, rfl⟩

theorem Wired.handler_step (h : Wired es s) (hf : s.Fitting) (hs : Step ns s e s')
    (hh : (s'.rpc.handlers k).ch = some ch) :
    ∃ a, s'.invocations[ch]? = some a ∧ (s'.rsps k).rid = a.rid ∧
      .get k (s'.rsps k) (some ch) ∈ es ++ [e] := by
  obtain ⟨hh, hr⟩ | ⟨he, p, hx⟩ := hs.handler_cases hh
  · obtain ⟨a, ha, hid, hm⟩ := h.handler k ch hh
    obtain ⟨a', ha', hg⟩ := hs.grows hf ha
    rw [hr]
    exact ⟨a', ha', hid.trans hg.rid.symm, List.mem_append_left _ hm⟩
  · obtain ⟨a, ha, hid, _⟩ := h.entry _ ch p hx
    obtain ⟨a', ha', hg⟩ := hs.grows hf ha
    exact ⟨a', ha', by rw [hg.rid, hid], by simp [← he]⟩

theorem Wired.step (h : Wired es s) (hf : s.Fitting) (hs : Step ns s e s') (hq : s.rpc.cb.Queued xs)
    (hn : s.rpc.Nodes) : Wired (es ++ [e]) s' where
  entry _ _ _      := h.entry_step hf hs
  node _ hp _      := h.node_step hf hs hq hp
  pending _ _ _    := h.pending_step hs hq hn
  handler _ _      := h.handler_step hf hs

-- The inner invocation `j` with the number of the next attempt was started when the callback of the invocation
-- `i` had timed out, and not before.
def Resent (ns : String) (es : List (Event ρ)) (i : Nat) (rid : UInt32) (j : Nat) : Prop :=
  ∃ es₁ s₁ now es₂, es = es₁ ++ .step (.resend i rid now) :: es₂ ∧ Exec (Step ns) init es₁ s₁ ∧
    s₁.invocations.length = j ∧ .step (.mgr (.expire rid now)) ∈ es₁

theorem Resent.snoc (h : Resent ns es i rid j) : Resent ns (es ++ [e]) i rid j := by
  obtain ⟨es₁, s₁, now, es₂, rfl, h⟩ := h
  exact ⟨es₁, s₁, now, es₂ ++ [e], by simp, h⟩

-- What an invocation has come to.
structure Sound (ns : String) (es : List (Event ρ)) (s : RpcResults ρ) (i : Nat) (a : Invocation ρ) :
    Prop where
  running  : a.outcome = none → a.result = none
  ended    : ∀ o, a.outcome = some o → (∀ j, o ≠ .resent j) → a.result = a.results ns o
  async    : a.outcome = some .async → a.rid = 0
  answered : ∀ rsp, a.outcome = some (.answered rsp) → rsp.rid = a.rid ∧ ∃ h, .get h rsp (some i) ∈ es
  resent   : ∀ j, a.outcome = some (.resent j) → i < j ∧ Resent ns es i a.rid j ∧ 0 < a.reSendCnt ∧
    ∃ b, s.invocations[j]? = some b ∧ b.reSendCnt = a.reSendCnt - 1 ∧ b.drawn ≠ none ∧
      b.serviceName = a.serviceName ∧ b.rpcName = a.rpcName ∧ ∀ r, a.result = some r → b.result = some r

theorem Sound.of_open (h : a.Open) : Sound ns es s i a where
  running _  := h.result
  ended      := by simp [h.outcome]
  async      := by simp [h.outcome]
  answered   := by simp [h.outcome]
  resent     := by simp [h.outcome]

-- The same invocation after a step.
theorem Sound.step (h : Sound ns es s i a) (hf : s.Fitting) (hs : Step ns s e s') :
    Sound ns (es ++ [e]) s' i a where
  running  := h.running
  ended    := h.ended
  async    := h.async
  answered := by
    intro rsp ho
    obtain ⟨hr, k, hk⟩ := h.answered rsp ho
    exact ⟨hr, k, List.mem_append_left _ hk⟩
  resent   := by
    intro j ho
    obtain ⟨hij, hres, hn, b, hb, hcnt, hd, hsn, hrn, hr⟩ := h.resent j ho
    obtain ⟨b', hb', hg⟩ := hs.grows hf hb
    exact ⟨hij, hres.snoc, hn, b', hb', hg.reSendCnt.trans hcnt, hg.drawn ▸ hd, hg.serviceName.trans hsn,
      hg.rpcName.trans hrn, fun r ha => hg.result r (hr r ha)⟩

structure Inv (ns : String) (es : List (Event ρ)) (s : RpcResults ρ) : Prop where
  fitting : s.Fitting
  wired   : Wired es s
  sound   : ∀ i a, s.invocations[i]? = some a → Sound ns es s i a

theorem Inv.step (h : Inv ns es s) (hx : Exec (Step ns) init es s) (hs : Step ns s e s')
    (hq : s.rpc.cb.Queued xs) (hn : s.rpc.Nodes) : Inv ns (es ++ [e]) s' := by
  refine ⟨hs.fitting h.fitting, h.wired.step h.fitting hs hq hn, fun i a' hi' => ?_⟩
  cases hs.change h.fitting hi'
  case same hi                   => exact (h.sound i a' hi).step h.fitting hs
  case started _ ho _            => exact .of_open ho
  case ended a o hi ho he hends  =>
    subst he
    constructor
    case running => nofun
    case ended   => rintro o' ⟨⟩ _; rfl
    case async   =>
      rintro ⟨⟩
      obtain ⟨n, hc⟩ := hends.async rfl
      exact (h.fitting.fits hc hi).1
    case answered =>
      rintro rsp ⟨⟩
      obtain ⟨k, rfl, hk⟩ := hends.answered rsp rfl
      obtain ⟨a', ha', hr, hm⟩ := h.wired.handler k i (by rw [hk]; rfl)
      cases hi.symm.trans ha'
      exact ⟨hr, k, List.mem_append_left _ hm⟩
    case resent =>
      rintro j ⟨⟩
      exact absurd rfl (hends.resent j)
  case resent a cbid now hi ho he hev hm hn' hj =>
    subst he
    have ⟨hrid, hex, _⟩ := h.wired.called hm hi
    constructor
    case running  => nofun
    case ended    => rintro o ⟨⟩ hne; exact absurd rfl (hne _)
    case async    => nofun
    case answered => nofun
    case resent   =>
      rintro j ⟨⟩
      refine ⟨(List.getElem?_eq_some_iff.mp hi).1, ⟨es, s, now, [], ?_, hx, rfl, hrid ▸ hex⟩, hn', _, hj, rfl,
        nofun, rfl, rfl, nofun⟩
      rw [hev, ← hrid]
      rfl
  case returned a b j hi ho hr hj he =>
    subst he
    have ha := (h.sound i a hi).step h.fitting hs
    constructor
    case running  => intro hn; cases ho.symm.trans hn
    case ended    => intro o ho' hne; cases ho.symm.trans ho'; exact absurd rfl (hne j)
    case async    => exact ha.async
    case answered => exact ha.answered
    case resent   =>
      intro j' ho'
      cases ho.symm.trans ho'
      obtain ⟨hij, hres, hn, b', hb', hcnt, hd, hsn, hrn, _⟩ := ha.resent j ho
      obtain ⟨b'', hb'', hg⟩ := hs.grows h.fitting hj
      cases hb'.symm.trans hb''
      exact ⟨hij, hres, hn, b', hb', hcnt, hd, hsn, hrn, hg.result⟩

theorem inv_of_exec (h : Exec (Step ns) init es s) : Inv ns es s := by
  refine h.invariant (I := Inv ns) ⟨.nil, init_wired, nofun⟩ fun es s e s' hx hi hs => ?_
  obtain ⟨es', hrpc⟩ := rpc_exec hx
  obtain ⟨xs, hq⟩ := queued_of_exec (RpcCalls.cb_exec hrpc)
  exact hi.step hx hs hq (RpcCalls.nodes_of_exec hrpc)

-- No step of the calls gets lost.
theorem lift (h : Exec (Step ns) init es s) (hr : RpcCalls.Step s.rpc ev rpc) (hc : ev.Continues) :
    ∃ s', Step ns s (.step ev) s' ∧ s'.rpc = rpc := by
  have hf := (inv_of_exec h).fitting
  by_cases hrec : Recursive ev
  case pos =>
    cases hr <;> try exact hrec.elim
    case resend hn hm hi =>
      obtain ⟨a, ha, _⟩ := hf.exists_getElem? hi
      exact ⟨_, .resend (.resend hm hi hn) ha, rfl⟩
    case innerReturned hi hj =>
      obtain ⟨a, ha, _⟩ := hf.exists_getElem? hi
      obtain ⟨b, hb, _⟩ := hf.exists_getElem? hj
      exact ⟨_, .innerReturned (.innerReturned hi hj) hi ha hb, rfl⟩
  case neg =>
    cases he : s.ending ev
    case none => exact ⟨_, .step hr hc he hrec, rfl⟩
    case some io =>
      obtain ⟨i, o⟩ := io
      obtain ⟨c, hc, _⟩ := (ends_of_ending hr he).1.running
      obtain ⟨a, ha, _⟩ := hf.exists_getElem? hc
      exact ⟨_, .ended hr he ha, rfl⟩

theorem outcome_eq (hi : s.invocations[i]? = some a) : s.outcome i = a.outcome := by
  simp [outcome, hi]

theorem Inv.attempts (h : Inv ns es s) (hi : s.invocations[i]? = some a) : ∃ is, s.Attempts i is := by
  -- The numbers of the inner invocations go up.
  induction hk : s.invocations.length - i using Nat.strongRecOn generalizing i a
  case ind k ih =>
    by_cases ho : ∃ j, a.outcome = some (.resent j)
    case pos =>
      obtain ⟨j, ho⟩ := ho
      obtain ⟨hij, _, _, b, hj, _⟩ := (h.sound i a hi).resent j ho
      have hl := (List.getElem?_eq_some_iff.mp hj).1
      obtain ⟨is, his⟩ := ih (s.invocations.length - j) (by omega) hj rfl
      exact ⟨i :: is, .resent hi ho his⟩
    case neg => exact ⟨[i], .last hi fun j hj => ho ⟨j, hj⟩⟩

theorem Attempts.eq_singleton (h : s.Attempts i is) (hi : s.invocations[i]? = some a)
    (ho : ∀ j, a.outcome ≠ some (.resent j)) : is = [i] := by
  cases h
  case last => rfl
  case resent _ ho' _ hi' =>
    cases hi.symm.trans hi'
    exact absurd ho' (ho _)

-- A call returns what its last attempt returns. The attempts before were resent.
theorem Inv.last_attempt (h : Inv ns es s) (hat : s.Attempts i is) :
    ∃ l b, is.getLast? = some l ∧ s.invocations[l]? = some b ∧ (∀ j, b.outcome ≠ some (.resent j)) ∧
      (∀ k ∈ is, k = l ∨ ∃ j, s.outcome k = some (.resent j)) ∧
      ∀ a r, s.invocations[i]? = some a → a.result = some r → b.result = some r := by
  induction hat
  case last i a hi ho =>
    refine ⟨i, a, rfl, hi, ho, by simp, fun a' r hi' hr => ?_⟩
    cases hi.symm.trans hi'
    exact hr
  case resent i a j is hi ho hat ih =>
    obtain ⟨l, b, hl, hb, hbo, hk, hres⟩ := ih
    obtain ⟨_, _, _, c, hj, _, _, _, _, hr⟩ := (h.sound i a hi).resent j ho
    refine ⟨l, b, by simp [List.getLast?_cons, hl], hb, hbo, fun k hmem => ?_, fun a' r hi' hr' => ?_⟩
    · obtain rfl | hmem := List.mem_cons.mp hmem
      · exact .inr ⟨j, (outcome_eq hi).trans ho⟩
      · exact hk k hmem
    · cases hi.symm.trans hi'
      exact hres c r hj (hr r hr')

-- What a call returns is what its last attempt has come to.
theorem Inv.last_outcome (h : Inv ns es s) (hat : s.Attempts i is) (hi : s.invocations[i]? = some a)
    (hr : a.result = some r) :
    ∃ l b o, is.getLast? = some l ∧ s.invocations[l]? = some b ∧ b.outcome = some o ∧
      (∀ j, o ≠ .resent j) ∧ b.results ns o = some r ∧
      ∀ k ∈ is, k = l ∨ ∃ j, s.outcome k = some (.resent j) := by
  obtain ⟨l, b, hl, hb, hbo, hothers, hres⟩ := h.last_attempt hat
  have hsound := h.sound l b hb
  have hbr := hres a r hi hr
  cases ho : b.outcome
  case none => cases hbr.symm.trans (hsound.running ho)
  case some o =>
    have hne j : o ≠ .resent j := fun he => hbo j (he ▸ ho)
    exact ⟨l, b, o, hl, hb, ho, hne, (hsound.ended o ho hne).symm.trans hbr, hothers⟩

-- The invocation returns without an answer, and the named results are still zero values.
def Silent : Outcome ρ → Prop
  | .noClient | .sendFailed | .async => True
  | _                                => False

theorem fst_of_silent (hs : Silent o) (hr : a.results ns o = some (err, reply)) : "" = err := by
  cases o <;> first | exact hs.elim | exact (Prod.mk.inj (Option.some.inj hr)).1

-- The error of a call is empty only if a response without an error was received for one of its attempts, and
-- never if none of them was answered.
structure Honest (es : List (Event ρ)) (s : RpcResults ρ) (is : List Nat) (err : String) : Prop where
  success : err = "" → ∃ j ∈ is, ∃ b h rsp ch, s.invocations[j]? = some b ∧ .get h rsp ch ∈ es ∧
    rsp.rid = b.rid ∧ rsp.error = ""
  failure : (∀ j ∈ is, ∀ rsp, s.outcome j ≠ some (.answered rsp)) → err ≠ ""

theorem timeout_ne_empty : a.timeout ns ≠ "" := by
  unfold Invocation.timeout
  intro h
  exact absurd (String.append_eq_empty_iff.mp h).2 (by decide)

-- A call is honest, if and only if each of its attempts finds a client, sends its message and does not happen
-- to be resent under the id 0, which is that of a call without a response.
theorem rpcCall_honest_iff (h : Exec (Step ns) init es s) (hi : s.invocations[i]? = some a)
    (hr : a.result = some (err, reply)) :
    ∃ is, s.Attempts i is ∧ (Honest es s is err ↔ ∀ j ∈ is, ∀ o, s.outcome j = some o → ¬Silent o) := by
  have hinv := inv_of_exec h
  obtain ⟨is, hat⟩ := hinv.attempts hi
  obtain ⟨l, b, o, hl, hb, ho, hne, herr, hothers⟩ := hinv.last_outcome hat hi hr
  have hmem : l ∈ is := List.mem_of_getLast? hl
  have hlo := (outcome_eq hb).trans ho
  refine ⟨is, hat, fun hh j hj o' ho' hs => ?_, fun hs => ?_⟩
  case refine_1 =>
    -- Only the last attempt returns by itself.
    obtain rfl | ⟨k, hk⟩ := hothers j hj
    · cases hlo.symm.trans ho'
      refine hh.failure (fun k hk rsp hans => ?_) ?_
      · obtain rfl | ⟨_, hres⟩ := hothers k hk
        · cases hlo.symm.trans hans
          exact hs
        · cases hres.symm.trans hans
      · exact (fst_of_silent hs herr).symm
    · cases hk.symm.trans ho'
      exact hs
  case refine_2 =>
    cases o
    case noClient | sendFailed | async => exact absurd trivial (hs l hmem _ hlo)
    case resent k                      => exact absurd rfl (hne k)
    case timedOut                      =>
      have he : b.timeout ns = err := (Prod.mk.inj (Option.some.inj herr)).1
      rw [← he]
      exact ⟨fun he => absurd he timeout_ne_empty, fun _ => timeout_ne_empty⟩
    case answered rsp                  =>
      have he : rsp.error = err := (Prod.mk.inj (Option.some.inj herr)).1
      rw [← he]
      obtain ⟨hrid, k, hk⟩ := (hinv.sound l b hb).answered rsp ho
      exact ⟨fun he => ⟨l, hmem, b, k, rsp, some l, hb, hk, hrid, he⟩, fun hn => absurd hlo (hn l hmem rsp)⟩

-- A call that is answered.
theorem rpcCall_honest_answered :
    ∃ es s a is, Exec (Step "ns") (init : RpcResults Unit) es s ∧ s.invocations[0]? = some a ∧ a.rid = 1 ∧
      a.result = some ("", none) ∧ s.Attempts 0 is ∧ Honest es s is "" := by
  let rsp : RpcG2CRpcRspReq Unit := ⟨1, "", none⟩
  obtain ⟨es, s, h, hi⟩ : ∃ es s, Exec (Step "ns") (init : RpcResults Unit) es s ∧
      s.invocations[0]? = some ⟨"service", "rpc", 1, 0, none, some (.answered rsp), some ("", none)⟩ := by
    have h₁ := Exec.refl.snoc (show Step "ns" (init : RpcResults Unit) (.rpcCall "service" "rpc" 1 0) _
      from .rpcCall)
    have h₂ := h₁.snoc (.step (.register (i := 0) 0 rfl (by decide)) trivial rfl id)
    have h₃ := h₂.snoc (.step (.added (i := 0) rfl (.recvAdd rfl (List.mem_singleton.mpr rfl)))
      trivial rfl id)
    have h₄ := h₃.snoc (.step (.mgr (.queueAdd rfl rfl) trivial) trivial rfl id)
    have h₅ := h₄.snoc (.step (.sent (i := 0) rfl) trivial rfl id)
    have h₆ := h₅.snoc (show Step "ns" _ (.get 0 rsp (some 0)) _ from .get (.get rfl rfl))
    have h₇ := h₆.snoc (.step (.deleted (h := 0) rfl (.recvDel rfl (List.mem_singleton.mpr rfl)))
      trivial rfl id)
    exact ⟨_, _, h₇.snoc (.ended (.reply (h := 0) rfl rfl) rfl rfl), rfl⟩
  obtain ⟨is, hat, hiff⟩ := rpcCall_honest_iff h hi rfl
  refine ⟨es, s, _, is, h, hi, rfl, rfl, hat, hiff.mpr fun j hj o ho => ?_⟩
  obtain rfl := hat.eq_singleton hi (by simp)
  cases List.mem_singleton.mp hj
  cases (outcome_eq hi).symm.trans ho
  exact id

-- A process without a client: the call returns without an error, and nothing was received.
theorem no_client_no_error :
    ∃ es s a, Exec (Step "ns") (init : RpcResults Unit) es s ∧ s.invocations[0]? = some a ∧ a.rid = 1 ∧
      a.result = some ("", none) ∧ ∀ h rsp ch, .get h rsp ch ∉ es := by
  have h₁ := Exec.refl.snoc (show Step "ns" (init : RpcResults Unit) (.rpcCall "service" "rpc" 1 3) _
    from .rpcCall)
  have h₂ := h₁.snoc (.ended (.noClient (i := 0) rfl) rfl rfl)
  exact ⟨_, _, _, h₂, rfl, rfl, rfl, by simp⟩

end RpcResults
