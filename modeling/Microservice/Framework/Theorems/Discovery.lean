import Microservice.Framework.Discovery
import Microservice.Framework.Theorems.OrderCache
import Microservice.Lib.Exec

namespace RemoteMgr

variable {m m' : RemoteMgr} {connID : ConnId} {R : RemoteId}

-- `ConnectRemote` puts a remote at an address that is free, or none.
theorem connectRemote_remotes (nameSpace svrName ip : String) (port : UInt32) (c : Conn) :
    (m.connectRemote nameSpace svrName ip port c).remotes = m.remotes ∨
    m.remotes (genConnIDByIPPort ip port) = none ∧
      (m.connectRemote nameSpace svrName ip port c).remotes =
        m.remotes.insert (genConnIDByIPPort ip port) ⟨getRemoteID nameSpace svrName, c⟩ := by
  simp only [connectRemote]
  split
  case isTrue     => exact .inl rfl
  case isFalse hn =>
    split
    case h_1 => exact .inl rfl
    case h_2 => exact .inr ⟨Option.not_isSome_iff_eq_none.mp hn, rfl⟩

-- Whatever the id it is given, `OnRemoteDisappear` removes what is at the address.
theorem onRemoteDisappear_remotes (h : m.onRemoteDisappear R connID = some m') :
    m'.remotes = m.remotes.erase connID := by
  cases hr : m.remotes connID
  case none =>
    obtain rfl : m = m' := by simpa [onRemoteDisappear, hr] using h
    exact (Partial.erase_of_absent hr).symm
  case some =>
    obtain ⟨l, _, rfl⟩ := onRemoteDisappear_of_some hr h
    rfl

end RemoteMgr

namespace Discovery

variable {s s' : Discovery} {e : Event} {es : List Event} {i : Nat} {d : Discover} {c : Conn} {r : Remote}

-- What a step does to the manager, the read loops and the calls.
inductive Change (s : Discovery) (e : Event) (s' : Discovery) : Prop
  | idle : s'.mgr = s.mgr → s'.loops = s.loops → s'.calls = s.calls → Change s e s'
  | connect (i : Nat) (d : Discover) (c : Conn) :
    e = .connect i → s.discovers[i]? = some d → d.pc = .connect c →
    s'.mgr = s.mgr.connectRemote d.nameSpace d.svrName d.ip d.port c →
    s'.loops = s.loops ++ started s.mgr s'.mgr d.connID → s'.calls = s.calls → Change s e s'
  | disappear (R : RemoteId) (connID : ConnId) :
    e = .disappear R connID → s.mgr.onRemoteDisappear R connID = some s'.mgr →
    s'.loops = s.loops → s'.calls = s.calls → Change s e s'
  | exit (r : Remote) :
    e = .exit r → r ∈ s.loops → s.mgr.onRemoteDisappear r.id (getConnID r.conn) = some s'.mgr →
    s'.loops = s.loops.erase r → s'.calls = s.calls → Change s e s'
  | call (R : RemoteId) (isOrdered : Bool) (C : ConnId) :
    s'.mgr = s.mgr → s'.loops = s.loops → s'.calls = s.calls ++ [⟨R, isOrdered, C, .start⟩] →
    Change s e s'
  | choose (i : Nat) (call : RouteCall) (choice : RemoteMgr.Choice) :
    s.calls[i]? = some call →
    s.mgr.choiceRemote call.remoteID call.isOrdered call.clientID call.choice = (s'.mgr, choice) →
    s'.loops = s.loops → s'.calls = s.calls.set i { call with choice := choice } → Change s e s'
  | close (C : ConnId) :
    s'.mgr = s.mgr.delRemoteOrderCache C → s'.loops = s.loops → s'.calls = s.calls → Change s e s'

theorem Step.change (h : Step s e s') : Change s e s' := by
  unfold Step step at h
  split at h
  case h_1 | h_2 => cases h; exact .idle rfl rfl rfl
  case h_3 | h_4 | h_5 =>
    split at h <;> cases h
    exact .idle rfl rfl rfl
  case h_6 i =>
    split at h <;> cases h
    case h_1 hd => exact .connect i _ _ rfl hd rfl rfl rfl rfl
  case h_7 R connID =>
    split at h <;> try cases h
    obtain ⟨mgr, hm, rfl⟩ := Option.map_eq_some_iff.mp h
    exact .disappear R connID rfl hm rfl rfl
  case h_8 r =>
    split at h <;> try cases h
    case isTrue hr =>
      obtain ⟨mgr, hm, rfl⟩ := Option.map_eq_some_iff.mp h
      exact .exit r rfl hr hm rfl rfl
  case h_9 => cases h; exact .call _ _ _ rfl rfl rfl
  case h_10 i =>
    split at h <;> cases h
    case h_1 call hc => exact .choose i call _ hc rfl rfl rfl
  case h_11 C => cases h; exact .close C rfl rfl rfl

-- Each connection has the address that it was dialled at.
def Dialled (s : Discovery) : Prop :=
  ∀ d ∈ s.discovers, ∀ c, d.pc = .connect c → getConnID c = d.connID

theorem create_dialled : create.Dialled :=
  nofun

theorem Dialled.set (h : s.Dialled) (hd : ∀ c, d.pc = .connect c → getConnID c = d.connID) :
    Dialled { s with discovers := s.discovers.set i d } := by
  intro d' hm
  obtain hm | rfl := List.mem_or_eq_of_mem_set hm
  · exact h d' hm
  · exact hd

theorem Dialled.step (h : s.Dialled) (hs : Step s e s') : s'.Dialled := by
  unfold Step Discovery.step at hs
  split at hs
  case h_1 =>
    cases hs
    intro d hd
    obtain hd | rfl := List.mem_append.mp hd |>.imp_right List.mem_singleton.mp
    · exact h d hd
    · nofun
  case h_3 | h_4 =>
    split at hs <;> cases hs
    exact h.set (by dsimp only [retry]; split <;> nofun)
  case h_5 =>
    split at hs <;> cases hs
    refine h.set fun c hc => ?_
    cases hc
    rfl
  case h_6 =>
    split at hs <;> cases hs
    exact h.set nofun
  case h_7 | h_8 =>
    split at hs <;> try cases hs
    obtain ⟨_, _, rfl⟩ := Option.map_eq_some_iff.mp hs
    exact h
  case h_10 => split at hs <;> cases hs; exact h
  case h_2 | h_9 | h_11 => cases hs; exact h

-- No connection is put at an address while the read loop of an earlier connection to it runs, and a deletion by
-- etcd finds no other service at the address than the one that it is about.
def Alone (s : Discovery) : Event → Prop
  | .connect i =>
    ∀ d ∈ s.discovers[i]?, s.mgr.remotes d.connID = none → ∀ r ∈ s.loops, getConnID r.conn ≠ d.connID
  | .disappear R connID => ∀ r ∈ s.mgr.remotes connID, r.id = R
  | _ => True

def AloneStep (s : Discovery) (e : Event) (s' : Discovery) : Prop :=
  Step s e s' ∧ s.Alone e

-- The running read loops are those of connections to different addresses.
def Sole (s : Discovery) : Prop :=
  s.loops.Pairwise fun r r' => getConnID r.conn ≠ getConnID r'.conn

def Routed (s : Discovery) (r : Remote) : Prop :=
  s.mgr.remotes (getConnID r.conn) = some r

theorem Sole.nodup (h : s.Sole) : s.loops.Nodup :=
  List.Pairwise.imp (fun hne he => hne (congrArg (getConnID ·.conn) he)) h

theorem Sole.eq {r r' : Remote} (h : s.Sole) (hr : r ∈ s.loops) (hr' : r' ∈ s.loops)
    (he : getConnID r.conn = getConnID r'.conn) : r = r' := by
  have hsymm : Std.Symm fun r r' : Remote => getConnID r.conn ≠ getConnID r'.conn := ⟨fun _ _ => Ne.symm⟩
  by_contra hne
  exact List.Pairwise.forall h hr hr' hne he

theorem mem_started {m m' : RemoteMgr} {connID : ConnId} :
    r ∈ started m m' connID ↔ m.remotes connID = none ∧ m'.remotes connID = some r := by
  unfold started
  split <;> simp [*]

-- A read loop that `ConnectRemote` starts is that of the connection just made.
theorem conn_of_mem_started
    (h : r ∈ started s.mgr (s.mgr.connectRemote d.nameSpace d.svrName d.ip d.port c) d.connID) :
    r.conn = c ∧ s.mgr.remotes d.connID = none := by
  have ⟨hn, hr⟩ := mem_started.mp h
  refine ⟨?_, hn⟩
  obtain he | ⟨_, he⟩ := s.mgr.connectRemote_remotes d.nameSpace d.svrName d.ip d.port c
  · cases hn.symm.trans (he ▸ hr)
  · have hr : some _ = some r := Partial.insert_self.symm.trans (he ▸ hr)
    exact congrArg Remote.conn (Option.some.inj hr).symm

theorem Sole.step (h : s.Sole) (hd : s.Dialled) (hs : AloneStep s e s') : s'.Sole := by
  unfold Sole
  have ⟨hs, ha⟩ := hs
  cases hs.change
  case idle hl _ | disappear hl _ | call hl _ | choose hl _ | close hl _ => exact hl ▸ h
  case exit hl _ => exact hl ▸ h.sublist List.erase_sublist
  case connect i d c he hi hp hm hl _ =>
    subst he
    rw [hl, hm, List.pairwise_append]
    refine ⟨h, ?_, ?_⟩
    case refine_1 =>
      unfold started
      split
      case h_1 => cases (s.mgr.connectRemote ..).remotes d.connID <;> simp
      case h_2 => exact .nil
    case refine_2 =>
      intro r hr r' hr' hc
      have ⟨hc', hn⟩ := conn_of_mem_started hr'
      have hd : getConnID r'.conn = d.connID := hc' ▸ hd d (List.mem_of_getElem? hi) c hp
      exact ha d hi hn r hr (hc.trans hd)

-- A remote is put into `remotes` when its read loop starts, and while the loop runs only its own deletion by
-- etcd removes it.
theorem Routed.step (h : r ∈ s.loops → s.Routed r) (hl : s.Sole) (hd : s.Dialled) (ha : AloneStep s e s')
    (he : e ≠ .disappear r.id (getConnID r.conn)) (hr : r ∈ s'.loops) : s'.Routed r := by
  unfold Routed
  have ⟨hs, ha⟩ := ha
  cases hs.change
  case idle hm hl _ | call hm hl _ => exact hm ▸ h (hl ▸ hr)
  case close hm hl _               => exact hm ▸ h (hl ▸ hr)
  case choose hm hl _              => exact RemoteMgr.choiceRemote_remotes hm ▸ h (hl ▸ hr)
  case disappear R connID hdis hm hl _ =>
    subst hdis
    have hr := h (hl ▸ hr)
    have hne : getConnID r.conn ≠ connID := by
      rintro rfl
      exact he (by rw [ha r hr])
    rw [RemoteMgr.onRemoteDisappear_remotes hm, Partial.erase_of_ne hne]
    exact hr
  case exit r' _ hr' hm hl' _ =>
    have ⟨hne, hr⟩ := hl.nodup.mem_erase_iff.mp (hl' ▸ hr)
    rw [RemoteMgr.onRemoteDisappear_remotes hm, Partial.erase_of_ne fun hc => hne (hl.eq hr hr' hc)]
    exact h hr
  case connect i d c _ hi hp hm hl' _ =>
    obtain hr | hr := List.mem_append.mp (hl' ▸ hr)
    case inl =>
      rw [hm]
      obtain heq | ⟨hn, heq⟩ := s.mgr.connectRemote_remotes d.nameSpace d.svrName d.ip d.port c
      · exact heq ▸ h hr
      · -- The address of `r` is not free.
        have hne : getConnID r.conn ≠ genConnIDByIPPort d.ip d.port := by
          intro hc
          cases (h hr).symm.trans (hc ▸ hn)
        exact heq ▸ (Partial.insert_of_ne hne).trans (h hr)
    case inr =>
      have hc : getConnID r.conn = d.connID :=
        (conn_of_mem_started (hm ▸ hr)).1 ▸ hd d (List.mem_of_getElem? hi) c hp
      exact hc ▸ (mem_started.mp hr).2

theorem sole_of_alone (h : Exec AloneStep create es s) : s.Sole ∧ s.Dialled :=
  h.preserves (I := fun s => s.Sole ∧ s.Dialled) ⟨List.Pairwise.nil, create_dialled⟩
    fun _ _ _ ⟨hl, hd⟩ hs => ⟨hl.step hd hs, hd.step hs.1⟩

-- A remote whose read loop runs is routable, from when it was added and as long as no deletion of it is
-- processed.
theorem routed_of_alone {es₁ es₂ : List Event} {s₁ s₂ : Discovery} (h₁ : Exec AloneStep create es₁ s₁)
    (hc : AloneStep s₁ (.connect i) s₂) (hn : r ∉ s₁.loops) (h₂ : Exec AloneStep s₂ es₂ s)
    (hd : .disappear r.id (getConnID r.conn) ∉ es₂) (hr : r ∈ s.loops) :
    s.mgr.remotes (getConnID r.conn) = some r := by
  have ⟨hl, hd₁⟩ := sole_of_alone h₁
  have init : r ∈ s₂.loops → s₂.Routed r := Routed.step (absurd · hn) hl hd₁ hc (by simp)
  refine h₂.invariant (I := fun es s => .disappear r.id (getConnID r.conn) ∉ es → r ∈ s.loops → s.Routed r)
    (fun _ => init) (fun es s e s' hs hi hstep hd => ?_) hd hr
  have ⟨hl, hd'⟩ := sole_of_alone ((h₁.snoc hc).trans hs)
  have hd : .disappear r.id (getConnID r.conn) ∉ es ∧ e ≠ .disappear r.id (getConnID r.conn) := by
    simpa [not_or, eq_comm] using hd
  exact Routed.step (hi hd.1) hl hd' hstep hd.2

instance (s : Discovery) : (e : Event) → Decidable (s.Alone e)
  | .connect i =>
    inferInstanceAs <| Decidable <| ∀ d ∈ s.discovers[i]?, s.mgr.remotes d.connID = none →
      ∀ r ∈ s.loops, getConnID r.conn ≠ d.connID
  | .disappear R connID => inferInstanceAs <| Decidable <| ∀ r ∈ s.mgr.remotes connID, r.id = R
  | .put .. | .delete .. | .check _ | .refused _ | .dialled _ | .exit _ | .call .. | .choose _ | .close _ =>
    isTrue trivial

-- A run that is computed and checked.
def replay (s : Discovery) (es : List Event) : Option Discovery :=
  es.foldlM (fun s e => if s.Alone e then s.step e else none) s

theorem exec_of_replay (h : s.replay es = some s') : Exec AloneStep s es s' := by
  refine Exec.of_foldlM (fun s e s' h => ?_) h
  split at h <;> try cases h
  case isTrue ha => exact ⟨h, ha⟩

-- Up to the connection to a service that etcd has put.
def dialling (svrName ip : String) (i : Nat) : List Event :=
  [.put "ns" svrName ip 8000, .check i, .dialled i]

-- Beside a service, another one comes and goes: its deletion by etcd is processed, then its read loop ends.
def comesAndGoes : List Event :=
  dialling "b" "10.0.0.2" 1 ++
    [.connect 1, .delete "ns" "b" "10.0.0.2" 8000, .disappear "ns:b" "10.0.0.2:8000",
      .exit ⟨"ns:b", 1, "10.0.0.2:8000"⟩]

theorem routed_beside_exit :
    let a : Remote := ⟨"ns:a", 0, "10.0.0.1:8000"⟩
    ∃ s₁ s₂ s, Exec AloneStep create (dialling "a" "10.0.0.1" 0) s₁ ∧ AloneStep s₁ (.connect 0) s₂ ∧
      Exec AloneStep s₂ comesAndGoes s ∧
      a ∉ s₁.loops ∧ a ∈ s.loops ∧ s.mgr.remotes "10.0.0.1:8000" = some a := by
  intro a
  have ⟨s₁, s₂, s, h₁, hc, ha, h₂, hn, hr⟩ : ∃ s₁ s₂ s,
      create.replay (dialling "a" "10.0.0.1" 0) = some s₁ ∧ s₁.step (.connect 0) = some s₂ ∧
      s₁.Alone (.connect 0) ∧ s₂.replay comesAndGoes = some s ∧ a ∉ s₁.loops ∧ a ∈ s.loops :=
    ⟨_, _, _, rfl, rfl, by decide, rfl, by decide, by decide⟩
  have hd : .disappear a.id (getConnID a.conn) ∉ comesAndGoes := by simp [comesAndGoes, dialling, a]
  refine ⟨s₁, s₂, s, exec_of_replay h₁, ⟨hc, ha⟩, exec_of_replay h₂, hn, hr, ?_⟩
  exact routed_of_alone (exec_of_replay h₁) ⟨hc, ha⟩ hn (exec_of_replay h₂) hd hr

-- The lease of a service expires and is granted again: the deletion leaves the first connection open,
-- the service is connected a second time, and then the read loop of the first connection ends.
theorem late_exit_of_replaced_connection :
    let r : Remote := ⟨"ns:a", 1, "10.0.0.1:8000"⟩
    ∃ s₁ s₂ s, Exec Step create (dialling "a" "10.0.0.1" 0 ++ [.connect 0, .delete "ns" "a" "10.0.0.1" 8000,
      .disappear "ns:a" "10.0.0.1:8000"] ++ dialling "a" "10.0.0.1" 1) s₁ ∧ Step s₁ (.connect 1) s₂ ∧
      Step s₂ (.exit ⟨"ns:a", 0, "10.0.0.1:8000"⟩) s ∧
      r ∉ s₁.loops ∧ r ∈ s.loops ∧ s₂.mgr.remotes "10.0.0.1:8000" = some r ∧
      s.mgr.remotes "10.0.0.1:8000" = none := by
  refine ⟨_, _, _, .of_foldlM (fun _ _ _ h => h) rfl, rfl, rfl, ?_, ?_, ?_, ?_⟩ <;> decide

end Discovery
