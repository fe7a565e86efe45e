import Microservice.Framework.RemoteMgr
import Microservice.Framework.Theorems.LoadBalancer
import Microservice.Lib.Machine

namespace RemoteMgr

variable {m m' : RemoteMgr} {remoteID : RemoteId} {connID : ConnId}

def IsElement (m : RemoteMgr) (remoteID : RemoteId) (connID : ConnId) : Prop :=
  ∃ l, m.lbs remoteID = some l ∧ connID ∈ l

def IsRemote (m : RemoteMgr) (remoteID : RemoteId) (connID : ConnId) : Prop :=
  ∃ r, m.remotes connID = some r ∧ r.id = remoteID

structure Consistent (m : RemoteMgr) : Prop where
  agree  : ∀ remoteID connID, m.IsRemote remoteID connID ↔ m.IsElement remoteID connID
  unique : ∀ connID R R', m.IsElement R connID → m.IsElement R' connID → R = R'

-- A remote disappears under its own id, or it is not there.
def OwnId (m : RemoteMgr) : Event → Prop
  | .connectRemote ..                  => True
  | .onRemoteDisappear remoteID connID => ∀ r, m.remotes connID = some r → r.id = remoteID

theorem isElement_iff : m.IsElement remoteID connID ↔ connID ∈ m.lb remoteID := by
  cases h : m.lbs remoteID <;> simp [IsElement, lb, h]

theorem IsRemote.unique {R R' : RemoteId} (h : m.IsRemote R connID) (h' : m.IsRemote R' connID) :
    R = R' := by
  have ⟨r, hr, hR⟩ := h
  have ⟨r', hr', hR'⟩ := h'
  cases hr.symm.trans hr'
  exact hR.symm.trans hR'

-- The second half of consistency is a consequence of the first.
theorem Consistent.of_agree
    (h : ∀ remoteID connID, m.IsRemote remoteID connID ↔ connID ∈ m.lb remoteID) : m.Consistent where
  agree R c          := (h R c).trans isElement_iff.symm
  unique c R R' hR hR' :=
    IsRemote.unique ((h R c).mpr (isElement_iff.mp hR)) ((h R' c).mpr (isElement_iff.mp hR'))

theorem Consistent.mem_lb (h : m.Consistent) :
    connID ∈ m.lb remoteID ↔ m.IsRemote remoteID connID :=
  isElement_iff.symm.trans (h.agree remoteID connID).symm

theorem createRemoteMgr_consistent : createRemoteMgr.Consistent :=
  .of_agree fun R c => by simp [IsRemote, lb, createRemoteMgr]

theorem lb_insert {l : LoadBalancer} {R R' : RemoteId} {rs : Partial ConnId Remote} :
    lb { m with lbs := m.lbs.insert R l, remotes := rs } R' = if R' = R then l else m.lb R' := by
  by_cases hR : R' = R <;> simp [lb, Partial.insert_apply, hR]

theorem isRemote_insert {r : Remote} {c : ConnId} {ls : Partial RemoteId LoadBalancer} :
    IsRemote { m with lbs := ls, remotes := m.remotes.insert c r } remoteID connID ↔
      (connID = c ∧ r.id = remoteID) ∨ (connID ≠ c ∧ m.IsRemote remoteID connID) := by
  by_cases hc : connID = c <;> simp [IsRemote, Partial.insert_apply, hc]

theorem isRemote_erase {c : ConnId} {ls : Partial RemoteId LoadBalancer} :
    IsRemote { m with lbs := ls, remotes := m.remotes.erase c } remoteID connID ↔
      connID ≠ c ∧ m.IsRemote remoteID connID := by
  by_cases hc : connID = c <;> simp [IsRemote, Partial.erase_apply, hc]

-- A remote that is not connected is not an element of its load balancer, so `ConnectRemote` adds it
-- to both maps or to none.
theorem connectRemote_consistent (h : m.Consistent) (nameSpace svrName ip : String) (port : UInt32)
    (c : Conn) : (m.connectRemote nameSpace svrName ip port c).Consistent := by
  unfold connectRemote
  by_cases hc : (m.remotes (genConnIDByIPPort ip port)).isSome
  case pos => simpa [hc] using h
  case neg =>
    generalize genConnIDByIPPort ip port = connID at hc
    generalize getRemoteID nameSpace svrName = remoteID
    rw [Option.not_isSome_iff_eq_none] at hc
    have hn : connID ∉ m.lb remoteID := by simp [h.mem_lb, IsRemote, hc]
    have ha : (m.lb remoteID).addElement connID = (((m.lb remoteID).addElement connID).fst, true) :=
      Prod.ext rfl (LoadBalancer.addElement_snd.mpr hn)
    simp only [hc, Option.isSome_none, Bool.false_eq_true, if_false]
    rw [ha]
    refine .of_agree fun R c' => ?_
    rw [lb_insert, isRemote_insert]
    split
    case isTrue hR  =>
      rw [hR, LoadBalancer.mem_addElement, h.mem_lb]
      by_cases hc' : c' = connID <;> simp [hc']
    case isFalse hR =>
      rw [h.mem_lb]
      by_cases hc' : c' = connID
      case pos => simp [hc', Ne.symm hR, IsRemote, hc]
      case neg => simp [hc']

theorem onRemoteDisappear_of_some {r : Remote} (hr : m.remotes connID = some r)
    (h : m.onRemoteDisappear remoteID connID = some m') :
    ∃ l, m.lbs remoteID = some l ∧
      m' = { m with
        remotes := m.remotes.erase connID
        lbs     := m.lbs.insert remoteID (l.delElement connID).fst } := by
  cases hl : m.lbs remoteID <;> simp [onRemoteDisappear, hr, hl] at h
  case some l => exact ⟨l, rfl, h.symm⟩

-- Deleting a connected remote touches the load balancer of the id it is given. That is the load
-- balancer of the remote if and only if the id is the remote's own.
theorem onRemoteDisappear_consistent_iff (h : m.Consistent) (remoteID : RemoteId) (connID : ConnId) :
    (∃ m', m.onRemoteDisappear remoteID connID = some m' ∧ m'.Consistent) ↔
      m.OwnId (.onRemoteDisappear remoteID connID) := by
  cases hr : m.remotes connID
  case none => simp [onRemoteDisappear, OwnId, hr, h]
  case some r =>
    have hm : connID ∈ m.lb r.id := h.mem_lb.mpr ⟨r, hr, rfl⟩
    constructor
    case mp =>
      -- With another id, the element stays in the load balancer of `r.id`.
      rintro ⟨m', hm', h'⟩ _ hr'
      cases hr.symm.trans hr'
      by_contra hne
      obtain ⟨l, hR, hd⟩ := onRemoteDisappear_of_some hr hm'
      have hlb : connID ∈ m'.lb r.id := by rw [hd, lb_insert, if_neg hne]; exact hm
      obtain ⟨_, he, _⟩ := h'.mem_lb.mp hlb
      simp [hd] at he
    case mpr =>
      intro hid
      obtain rfl := hid r hr
      obtain ⟨l, hl, _⟩ := isElement_iff.mpr hm
      refine ⟨_, by simp only [onRemoteDisappear, hr, hl]; rfl, .of_agree fun R c => ?_⟩
      have hlb : ∀ c, c ∈ l ↔ m.IsRemote r.id c := fun c => by simp [← h.mem_lb, lb, hl]
      rw [lb_insert, isRemote_erase]
      split
      case isTrue hR  => rw [hR, LoadBalancer.mem_delElement, hlb]
      case isFalse hR =>
        -- The remote itself is in no other load balancer.
        rw [h.mem_lb, and_iff_right_of_imp]
        rintro hc rfl
        exact hR (hc.unique ⟨r, hr, rfl⟩)

-- The remote table and the load balancers agree along a run, and no step of it meets a missing load
-- balancer, if and only if no remote ever disappears under an id that is not its own.
theorem consistent_iff_ownId (es : List Event) :
    Machine.Always step Consistent createRemoteMgr es ↔ Machine.Each step OwnId createRemoteMgr es := by
  refine Machine.always_iff_each (fun m e h => ?_) createRemoteMgr_consistent
  cases e
  case connectRemote nameSpace svrName ip port c =>
    simp [step, OwnId, connectRemote_consistent h nameSpace svrName ip port c]
  case onRemoteDisappear remoteID connID => exact onRemoteDisappear_consistent_iff h remoteID connID

-- An address moves from service `a` to service `b`: its read loop has removed it, `b` has connected at
-- it, and then the deletion of `a` arrives from etcd. The remote of `b` is gone while its load balancer
-- keeps the address, which can then never be connected again. Without a load balancer for `a`, the same
-- event ends the process.
theorem late_disappear_of_moved_address :
    let a := Event.connectRemote "ns" "a" "10.0.0.1" 8000 ⟨0, "10.0.0.1:8000"⟩
    let b := Event.connectRemote "ns" "b" "10.0.0.1" 8000 ⟨1, "10.0.0.1:8000"⟩
    let again := Event.connectRemote "ns" "b" "10.0.0.1" 8000 ⟨2, "10.0.0.1:8000"⟩
    let late := Event.onRemoteDisappear "ns:a" "10.0.0.1:8000"
    (∃ m, [a, late, b, late, again].foldlM step createRemoteMgr = some m ∧
      m.remotes "10.0.0.1:8000" = none ∧ m.IsElement "ns:b" "10.0.0.1:8000") ∧
    [b, late].foldlM step createRemoteMgr = none ∧
    ¬ Machine.Always step Consistent createRemoteMgr [a, late, b, late] := by
  refine ⟨⟨_, rfl, ?_, _, rfl, ?_⟩, ?_, ?_⟩
  · decide
  · decide
  · rfl
  · rintro ⟨_, m₁, h₁, _, m₂, h₂, _, m₃, h₃, _, m₄, h₄, h⟩
    cases h₁; cases h₂; cases h₃; cases h₄
    have ⟨r, hr, _⟩ := (h.agree "ns:b" "10.0.0.1:8000").mpr ⟨_, rfl, by decide⟩
    cases hr

end RemoteMgr
