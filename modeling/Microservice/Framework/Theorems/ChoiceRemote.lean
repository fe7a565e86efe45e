import Microservice.Framework.Theorems.Discovery
import Microservice.Lib.Positions

namespace RemoteMgr

variable {m m' : RemoteMgr} {R R' : RemoteId} {C C' a : ConnId} {r : Remote} {isOrdered : Bool}
variable {choice choice' : Choice} {e : Event}

-- The addresses that a call has taken from the load balancer.
def Choice.Has : Choice → ConnId → Prop
  | .cursor s, a                                   => a ∈ s
  | .weight c, a | .lookup c, a | .update c _, a   => a = c
  | _, _                                           => False

-- The remote that a call returns.
def Choice.Picked : Choice → Remote → Prop
  | .update _ r, r' | .returned (some r), r' => r' = r
  | _, _                                     => False

theorem choiceRemote_has (h : m.choiceRemote R isOrdered C choice = (m', choice')) (ha : choice'.Has a) :
    choice.Has a ∨ a ∈ m.lb R ∨ a = "" := by
  obtain rfl : (m.choiceRemote R isOrdered C choice).snd = choice' := congrArg Prod.snd h
  clear h
  cases choice <;> simp only [choiceRemote] at ha
  case start    => split at ha <;> (try split at ha) <;> exact ha.elim
  case stale    => exact ha.elim
  case balance  => split at ha <;> exact ha.elim
  case snapshot =>
    split at ha
    case h_1 => exact .inr <| .inr ha
    case h_2 => exact .inr <| .inl (LoadBalancer.mem_snapshot.mp ha)
  case cursor s =>
    split at ha
    case h_1 hm => exact .inl (ha ▸ LoadBalancer.mem_of_moveCursor hm)
    case h_2    => exact ha.elim
  case weight   => exact .inl ha
  case lookup   =>
    split at ha
    case h_1 => exact ha.elim
    case h_2 => split at ha <;> first | exact .inl ha | exact ha.elim
  case update | returned | panicked => exact ha.elim

theorem cached_of_hit (h : m.chioceRemoteFromOrderCache R C = .hit r) :
    ∃ a, m.cached R C = some a ∧ m.remotes a = some r := by
  unfold chioceRemoteFromOrderCache at h
  split at h <;> try cases h
  case h_2 cache hc =>
    split at h <;> try cases h
    case h_2 a ha =>
      split at h <;> cases h
      case h_2 hr => exact ⟨a, by simpa [cached, hc] using ha, hr⟩

theorem choiceRemote_picked (h : m.choiceRemote R isOrdered C choice = (m', choice'))
    (hr : choice'.Picked r) :
    choice.Picked r ∨ ∃ a, m.remotes a = some r ∧ (choice.Has a ∨ m.cached R C = some a) := by
  obtain rfl : (m.choiceRemote R isOrdered C choice).snd = choice' := congrArg Prod.snd h
  clear h
  cases choice <;> simp only [choiceRemote] at hr
  case start =>
    split at hr <;> try exact hr.elim
    split at hr <;> try exact hr.elim
    case h_1 hh =>
      obtain rfl := hr
      obtain ⟨a, hc, ha⟩ := cached_of_hit hh
      exact .inr ⟨a, ha, .inr hc⟩
  case stale    => exact hr.elim
  case balance  => split at hr <;> exact hr.elim
  case snapshot => split at hr <;> exact hr.elim
  case cursor   => split at hr <;> exact hr.elim
  case weight   => exact hr.elim
  case lookup c =>
    split at hr <;> try exact hr.elim
    case h_2 r' hr' =>
      obtain rfl : r = r' := by split at hr <;> exact hr
      exact .inr ⟨c, hr', .inl rfl⟩
  case update | returned => exact .inl hr
  case panicked => exact hr.elim

theorem cached_choiceRemote (hf : m.Refs) (h : m.choiceRemote R isOrdered C choice = (m', choice'))
    (hc : m'.cached R' C' = some a) : m.cached R' C' = some a ∨ R' = R ∧ choice.Has a := by
  obtain ⟨cache, rfl, rfl⟩ | ⟨c, r, rfl, rfl⟩ | ⟨ho, hca, _⟩ := choiceRemote_caches h
  case inl =>
    -- Deleting from a cache adds nothing to it.
    obtain ⟨cache', ho, hc⟩ := Option.bind_eq_some_iff.mp hc
    refine .inl (Option.bind_eq_some_iff.mpr ⟨cache', ho, ?_⟩)
    by_cases he : cache' = cache
    case pos =>
      subst he
      simp only [dropStale, setCache, Function.update_self] at hc
      exact (Partial.erase_eq_some_iff.mp hc).2
    case neg => simpa [dropStale, setCache, Function.update_of_ne he] using hc
  case inr.inl =>
    rw [cached_updateRemoteOrderCache hf] at hc
    split at hc
    case isTrue hR => exact .inr ⟨hR.1, (Option.some.inj hc).symm⟩
    case isFalse   => exact .inl hc
  case inr.inr => exact .inl (by simpa only [cached, ho, hca] using hc)

theorem cached_of_delRemoteOrderCache (h : (m.delRemoteOrderCache C').cached R C = some a) :
    m.cached R C = some a := by
  obtain ⟨cache, ho, hc⟩ := Option.bind_eq_some_iff.mp h
  exact Option.bind_eq_some_iff.mpr ⟨cache, (Partial.erase_eq_some_iff.mp ho).2, hc⟩

-- A new remote comes from `ConnectRemote`, at an address that was free.
theorem remotes_cases_of_step (h : m.step e = some m') (hr : m'.remotes a = some r) :
    m.remotes a = some r ∨ m.remotes a = none ∧
      ∃ nameSpace svrName ip port c, e = .connectRemote nameSpace svrName ip port c ∧
        a = genConnIDByIPPort ip port ∧ r = ⟨getRemoteID nameSpace svrName, c⟩ := by
  cases e
  case connectRemote nameSpace svrName ip port c =>
    cases h
    obtain he | ⟨hn, he⟩ := m.connectRemote_remotes nameSpace svrName ip port c
    case inl => exact .inl (he ▸ hr)
    case inr =>
      obtain ⟨rfl, rfl⟩ | ⟨_, hr⟩ := Partial.insert_eq_some_iff.mp (he ▸ hr)
      · exact .inr ⟨hn, nameSpace, svrName, ip, port, c, rfl, rfl, rfl⟩
      · exact .inl hr
  case onRemoteDisappear id c =>
    have he := onRemoteDisappear_remotes h
    exact .inl (Partial.erase_eq_some_iff.mp (he ▸ hr)).2

end RemoteMgr

namespace Discovery

open RemoteMgr (Choice)

variable {s s' : Discovery} {e : Event} {es : List Event} {R : RemoteId} {a : ConnId} {r : Remote}

-- The address is kept for the service: by its load balancer, by a client's ordered cache, or by a call
-- that has taken it from there.
def Holds (s : Discovery) (remoteID : RemoteId) (connID : ConnId) : Prop :=
  connID ∈ s.mgr.lb remoteID ∨ (∃ clientID, s.mgr.cached remoteID clientID = some connID) ∨
  ∃ call ∈ s.calls, call.remoteID = remoteID ∧ call.choice.Has connID

-- A free address is connected under a service only when it is not kept for another one any more.
def Forgotten (s : Discovery) : Event → Prop
  | .connect i =>
    ∀ d ∈ s.discovers[i]?, s.mgr.remotes d.connID = none → ∀ R, s.Holds R d.connID → R = d.remoteID
  | _ => True

def ForgottenStep (s : Discovery) (e : Event) (s' : Discovery) : Prop :=
  Step s e s' ∧ s.Forgotten e

structure Own (s : Discovery) : Prop where
  refs   : s.mgr.Refs
  named  : s.mgr.remotes "" = none
  held   : ∀ R a r, s.Holds R a → s.mgr.remotes a = some r → r.id = R
  picked : ∀ call ∈ s.calls, ∀ r, call.choice.Picked r → r.id = call.remoteID

theorem create_own : create.Own where
  refs   := RemoteMgr.createRemoteMgr_refs
  named  := rfl
  held   := nofun
  picked := nofun

-- The manager takes a step of its own.
theorem Own.mgr_step {e : RemoteMgr.Event} (h : s.Own) (hm : s.mgr.step e = some s'.mgr)
    (hc : s'.calls = s.calls)
    (hf : ∀ nameSpace svrName ip port c, e = .connectRemote nameSpace svrName ip port c →
      s.mgr.remotes (genConnIDByIPPort ip port) = none →
      ∀ R, s.Holds R (genConnIDByIPPort ip port) → R = getRemoteID nameSpace svrName) : s'.Own := by
  have ⟨ho, hca, hal⟩ := RemoteMgr.caches_of_step hm
  have hcached R C : s'.mgr.cached R C = s.mgr.cached R C := by simp only [RemoteMgr.cached, ho, hca]
  constructor
  case refs   => exact ⟨ho ▸ hal ▸ h.refs.bound, ho ▸ h.refs.inj⟩
  case named  => exact RemoteMgr.named_of_step hm h.named
  case picked => exact hc ▸ h.picked
  case held   =>
    intro R a r ha hr
    -- An address is new to the load balancer only if it is connected under the service.
    have ha : s.Holds R a ∨ s'.mgr.IsRemote R a := by
      obtain ha | ⟨C, ha⟩ | ⟨call, hm', ha⟩ := ha
      · exact (RemoteMgr.mem_lb_of_step hm ha).imp_left .inl
      · exact .inl <| .inr <| .inl ⟨C, hcached R C ▸ ha⟩
      · exact .inl <| .inr <| .inr ⟨call, hc ▸ hm', ha⟩
    obtain ha | ha := ha
    case inr => exact RemoteMgr.IsRemote.unique ⟨r, hr, rfl⟩ ha
    case inl =>
      obtain hr | ⟨hn, nameSpace, svrName, ip, port, c, he, rfl, rfl⟩ :=
        RemoteMgr.remotes_cases_of_step hm hr
      · exact h.held R a r ha hr
      · exact (hf nameSpace svrName ip port c he hn R ha).symm

-- The remotes stay, and no more addresses are kept than before.
theorem Own.of_holds (h : s.Own) (hf : s'.mgr.Refs) (hr : s'.mgr.remotes = s.mgr.remotes)
    (ha : ∀ R a, s'.Holds R a → s.Holds R a ∨ a = "")
    (hp : ∀ call ∈ s'.calls, ∀ r, call.choice.Picked r → r.id = call.remoteID) : s'.Own where
  refs   := hf
  named  := hr ▸ h.named
  picked := hp
  held   := by
    intro R a r hh ha'
    rw [hr] at ha'
    obtain hh | rfl := ha R a hh
    · exact h.held R a r hh ha'
    · cases h.named.symm.trans ha'

theorem Own.choose {i : Nat} {call : RouteCall} {choice : Choice} (h : s.Own)
    (hi : s.calls[i]? = some call)
    (hm : s.mgr.choiceRemote call.remoteID call.isOrdered call.clientID call.choice = (s'.mgr, choice))
    (hc : s'.calls = s.calls.set i { call with choice := choice }) : s'.Own := by
  have hcall : call ∈ s.calls := List.mem_of_getElem? hi
  have hhas {a} (ha : call.choice.Has a) : s.Holds call.remoteID a := .inr <| .inr ⟨call, hcall, rfl, ha⟩
  refine h.of_holds (h.refs.choiceRemote hm) (RemoteMgr.choiceRemote_remotes hm) ?_ ?_
  case refine_1 =>
    rintro R a (ha | ⟨C, ha⟩ | ⟨call', hcall', rfl, ha⟩)
    · exact .inl <| .inl ((RemoteMgr.mem_lb_choiceRemote hm).mp ha)
    · obtain ha | ⟨rfl, hh⟩ := RemoteMgr.cached_choiceRemote h.refs hm ha
      · exact .inl <| .inr <| .inl ⟨C, ha⟩
      · exact .inl (hhas hh)
    · obtain hcall' | rfl := List.mem_or_eq_of_mem_set (hc ▸ hcall')
      · exact .inl <| .inr <| .inr ⟨call', hcall', rfl, ha⟩
      · obtain ha | ha | rfl := RemoteMgr.choiceRemote_has hm ha
        · exact .inl (hhas ha)
        · exact .inl <| .inl ha
        · exact .inr rfl
  case refine_2 =>
    intro call' hcall' r hr
    obtain hcall' | rfl := List.mem_or_eq_of_mem_set (hc ▸ hcall')
    · exact h.picked call' hcall' r hr
    · obtain hr | ⟨a, hr, ha | ha⟩ := RemoteMgr.choiceRemote_picked hm hr
      · exact h.picked call hcall r hr
      · exact h.held _ a r (hhas ha) hr
      · exact h.held _ a r (.inr <| .inl ⟨_, ha⟩) hr

theorem Own.step (h : s.Own) (hs : ForgottenStep s e s') : s'.Own := by
  have ⟨hs, hf⟩ := hs
  cases hs.change
  case idle hm _ hc =>
    refine h.of_holds (hm ▸ h.refs) (hm ▸ rfl) (fun R a ha => .inl ?_) (hc ▸ h.picked)
    unfold Holds at ha
    rwa [hm, hc] at ha
  case connect i d c he hd hp hm _ hc =>
    subst he
    refine h.mgr_step (e := .connectRemote d.nameSpace d.svrName d.ip d.port c) ?_ hc ?_
    · exact congrArg some hm.symm
    · intro _ _ _ _ _ he hn R ha
      cases he
      exact hf d hd hn R ha
  case disappear R connID _ hm _ hc =>
    exact h.mgr_step (e := .onRemoteDisappear R connID) hm hc nofun
  case exit r _ _ hm _ hc =>
    exact h.mgr_step (e := .onRemoteDisappear r.id (getConnID r.conn)) hm hc nofun
  case call R isOrdered C hm _ hc =>
    have hcall : ∀ call ∈ s'.calls, call ∈ s.calls ∨ call.choice = .start := by
      intro call h
      obtain h | rfl := List.mem_append.mp (hc ▸ h) |>.imp_right List.mem_singleton.mp
      · exact .inl h
      · exact .inr rfl
    refine h.of_holds (hm ▸ h.refs) (hm ▸ rfl) ?_ ?_
    · rintro R a (ha | ha | ⟨call, hm', hR, ha⟩)
      · exact .inl <| .inl (hm ▸ ha)
      · exact .inl <| .inr <| .inl (hm ▸ ha)
      · obtain hm' | hs := hcall call hm'
        · exact .inl <| .inr <| .inr ⟨call, hm', hR, ha⟩
        · exact (hs ▸ ha : Choice.start.Has a).elim
    · intro call hm' r hr
      obtain hm' | hs := hcall call hm'
      · exact h.picked call hm' r hr
      · exact (hs ▸ hr : Choice.start.Picked r).elim
  case choose i call choice hi hm _ hc => exact h.choose hi hm hc
  case close C hm _ hc =>
    refine h.of_holds (hm ▸ h.refs.delRemoteOrderCache) (hm ▸ rfl) ?_ (hc ▸ h.picked)
    rintro R a (ha | ⟨C', ha⟩ | ha)
    · have ha : a ∈ (s.mgr.delRemoteOrderCache C).lb R := hm ▸ ha
      exact .inl <| .inl ha
    · exact .inl <| .inr <| .inl ⟨C', RemoteMgr.cached_of_delRemoteOrderCache (hm ▸ ha)⟩
    · exact .inl <| .inr <| .inr (hc ▸ ha)

-- A call of `ChoiceRemote` returns nothing or a remote of the service that it names.
theorem chosen_id_of_forgotten (h : Exec ForgottenStep create es s) {call : RouteCall}
    (hc : call ∈ s.calls) {remote : Option Remote} (hr : call.choice = .returned remote) :
    ∀ r ∈ remote, r.id = call.remoteID := by
  rintro r rfl
  have hown : s.Own := h.preserves create_own fun _ _ _ => Own.step
  exact hown.picked call hc r (hr ▸ rfl)

theorem forgotten_of_create (hm : s.mgr = .createRemoteMgr) (hc : s.calls = []) : s.Forgotten e := by
  cases e
  case connect i =>
    rintro d _ _ R (h | ⟨_, h⟩ | ⟨_, h, _⟩)
    · rw [hm] at h; cases h
    · rw [hm] at h; cases h
    · rw [hc] at h; cases h
  all_goals trivial

def Event.isConnect : Event → Bool
  | .connect _ => true
  | _          => false

-- Only a connection has to wait until its address is forgotten.
def stepUnconnected (s : Discovery) (e : Event) : Option Discovery :=
  if e.isConnect then none else s.step e

theorem forgottenStep_of_stepUnconnected (s : Discovery) (e : Event) (s' : Discovery)
    (h : s.stepUnconnected e = some s') : ForgottenStep s e s' := by
  unfold stepUnconnected at h
  split at h <;> try cases h
  case isFalse he =>
    refine ⟨h, ?_⟩
    cases e
    case connect => exact (he rfl).elim
    all_goals trivial

-- An ordered call up to its return, where nothing is cached.
def routing (i : Nat) (svrName : String) : List Event :=
  .call ("ns:" ++ svrName) true "client" :: List.replicate 7 (.choose i)

-- A service that a client has used goes, and the client too. Another service comes at the same address.
def succession : List Event :=
  routing 0 "a" ++ [.exit ⟨"ns:a", 0, "10.0.0.1:8000"⟩, .close "client"] ++ dialling "b" "10.0.0.1" 1

theorem not_holds {l₁ l₂ l₃ l₄ : LoadBalancer} {n : Nat} {C : ConnId} {call : RouteCall}
    (hl : s.mgr.lbs = Partial.insert (Partial.insert (Partial.insert (Partial.insert
      (fun _ => none) R l₁) R l₂) R l₃) R l₄)
    (ho : s.mgr.orderedCache = Partial.erase (Partial.insert (fun _ => none) C n) C)
    (hc : s.calls = [call]) (hl₄ : a ∉ l₄) (hcall : ¬call.choice.Has a) (R' : RemoteId) : ¬s.Holds R' a := by
  rintro (h | ⟨C', h⟩ | ⟨call', hm, _, h⟩)
  · by_cases hR : R' = R
    case pos => exact hl₄ (by simpa [RemoteMgr.lb, hl, hR] using h)
    case neg => simp [RemoteMgr.lb, hl, Partial.insert_apply, hR] at h
  · by_cases hC : C' = C <;> simp [RemoteMgr.cached, ho, Partial.erase_apply, Partial.insert_apply, hC] at h
  · rw [hc, List.mem_singleton] at hm
    exact hcall (hm ▸ h)

theorem chosen_id_of_forgotten_address :
    let r : Remote := ⟨"ns:b", 1, "10.0.0.1:8000"⟩
    ∃ s, Exec ForgottenStep create (dialling "a" "10.0.0.1" 0 ++ [.connect 0] ++ succession ++
        [.connect 1] ++ routing 1 "b") s ∧
      s.calls[1]? = some ⟨"ns:b", true, "client", .returned (some r)⟩ ∧ r.id = "ns:b" := by
  intro r
  have ⟨s₁, s₂, s₃, s₄, s, h₁, hc₁, h₂, hc₂, h₃, hm, hn, hr, hd, ⟨_, _, _, _, hl, hl₄⟩, ⟨_, ho⟩, ⟨_, hcalls, hcall⟩⟩ :
      ∃ s₁ s₂ s₃ s₄ s, (dialling "a" "10.0.0.1" 0).foldlM stepUnconnected create = some s₁ ∧
      s₁.step (.connect 0) = some s₂ ∧ succession.foldlM stepUnconnected s₂ = some s₃ ∧
      s₃.step (.connect 1) = some s₄ ∧ (routing 1 "b").foldlM stepUnconnected s₄ = some s ∧
      s₁.mgr = .createRemoteMgr ∧ s₁.calls = [] ∧
      s.calls[1]? = some ⟨"ns:b", true, "client", .returned (some r)⟩ ∧
      (∀ d ∈ s₃.discovers[1]?, d.connID = "10.0.0.1:8000") ∧
      (∃ l₁ l₂ l₃ l₄, s₃.mgr.lbs = Partial.insert (Partial.insert (Partial.insert (Partial.insert
        (fun _ => none) "ns:a" l₁) "ns:a" l₂) "ns:a" l₃) "ns:a" l₄ ∧ "10.0.0.1:8000" ∉ l₄) ∧
      (∃ n, s₃.mgr.orderedCache = Partial.erase (Partial.insert (fun _ => none) "client" n) "client") ∧
      ∃ call, s₃.calls = [call] ∧ ¬call.choice.Has "10.0.0.1:8000" :=
    ⟨_, _, _, _, _, rfl, rfl, rfl, rfl, rfl, rfl, rfl, rfl, by decide, ⟨_, _, _, _, rfl, by decide⟩, ⟨_, rfl⟩, _, rfl, id⟩
  have h₁ := Exec.of_foldlM forgottenStep_of_stepUnconnected h₁
  have h₂ := Exec.of_foldlM forgottenStep_of_stepUnconnected h₂
  have h₃ := Exec.of_foldlM forgottenStep_of_stepUnconnected h₃
  -- The address is kept for no service when it is connected again.
  have hf : s₃.Forgotten (.connect 1) := by
    intro d hd' _ R hR
    exact absurd (hd d hd' ▸ hR) (not_holds hl ho hcalls hl₄ hcall R)
  have h := (((h₁.snoc ⟨hc₁, forgotten_of_create hm hn⟩).trans h₂).snoc ⟨hc₂, hf⟩).trans h₃
  exact ⟨s, h, hr, chosen_id_of_forgotten h (List.mem_of_getElem? hr) rfl r rfl⟩

-- The address of a service is taken over by another one, and the ordered cache of a client still has it.
theorem chosen_id_of_reused_address :
    let r : Remote := ⟨"ns:b", 1, "10.0.0.1:8000"⟩
    ∃ s, Exec Step create (dialling "a" "10.0.0.1" 0 ++ [.connect 0] ++ routing 0 "a" ++
        [.exit ⟨"ns:a", 0, "10.0.0.1:8000"⟩] ++ dialling "b" "10.0.0.1" 1 ++
        [.connect 1, .call "ns:a" true "client", .choose 1]) s ∧
      s.calls[1]? = some ⟨"ns:a", true, "client", .returned (some r)⟩ ∧ r.id ≠ "ns:a" := by
  refine ⟨_, .of_foldlM (fun _ _ _ h => h) rfl, rfl, by decide⟩

end Discovery
