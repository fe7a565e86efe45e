import Microservice.Framework.Routing
import Microservice.Framework.Theorems.ChoiceRemote

namespace RemoteMgr

variable {m m' : RemoteMgr} {R R' : RemoteId} {C C' a : ConnId} {r : Remote} {isOrdered : Bool}
variable {choice : Choice} {op : Op} {es : List Op}

-- How many critical sections a call may still have.
def Choice.rank : Choice → Nat
  | .start                  => 8
  | .stale _                => 7
  | .balance                => 6
  | .snapshot               => 5
  | .cursor _               => 4
  | .weight _               => 3
  | .lookup _               => 2
  | .update ..              => 1
  | .returned _ | .panicked => 0

-- The cursor has something to choose from.
def Choice.Fit : Choice → Prop
  | .cursor s  => s ≠ []
  | .panicked  => False
  | _          => True

theorem Choice.Fit.critical (h : choice.Fit) :
    (m.choiceRemote R isOrdered C choice).2.Fit ∧
    (m.choiceRemote R isOrdered C choice).2.rank ≤ choice.rank - 1 := by
  cases choice <;> simp only [choiceRemote]
  case start    => split <;> (try split) <;> simp [Fit, rank]
  case balance  => split <;> simp [Fit, rank]
  case snapshot =>
    split
    case h_1    => simp [Fit, rank]
    case h_2 hn => exact ⟨hn, by simp [rank]⟩
  case cursor s =>
    obtain ⟨l, ele, hl⟩ := (m.lb R).moveCursor_isSome h
    simp [hl, Fit, rank]
  case lookup   => split <;> (try split) <;> simp [Fit, rank]
  case panicked => exact h.elim
  all_goals simp [Fit, rank]

-- Every call that runs without an interruption gets to its end.
theorem choose_returned : ∃ remote, (m.choose R isOrdered C).2 = .returned remote := by
  have hrank (n : Nat) : ((critical R isOrdered C)^[n] (m, .start)).2.Fit ∧
      ((critical R isOrdered C)^[n] (m, .start)).2.rank ≤ 8 - n := by
    induction n
    case zero      => simp [Choice.Fit, Choice.rank]
    case succ n hi =>
      rw [Function.iterate_succ_apply']
      obtain ⟨hf, hr⟩ := hi.1.critical
      exact ⟨hf, Nat.le_trans hr (by omega)⟩
  obtain ⟨hf, hr⟩ := hrank 8
  change (m.choose R isOrdered C).2.Fit at hf
  change (m.choose R isOrdered C).2.rank ≤ 8 - 8 at hr
  cases hc : (m.choose R isOrdered C).2 <;> simp [hc, Choice.Fit, Choice.rank] at hf hr
  case returned remote => exact ⟨remote, rfl⟩

-- What holds between the critical sections of a call.
structure Calling (m₀ : RemoteMgr) (isOrdered : Bool) (C : ConnId) (m : RemoteMgr) (choice : Choice) :
    Prop where
  refs    : m.Refs
  remotes : m.remotes = m₀.remotes
  caching : choice.Caching → isOrdered = true
  stale   : ∀ cache, choice = .stale cache → m.RefOf C cache

theorem Calling.critical {m₀ : RemoteMgr} (h : Calling m₀ isOrdered C m choice) :
    Calling m₀ isOrdered C (m.choiceRemote R isOrdered C choice).1 (m.choiceRemote R isOrdered C choice).2 where
  refs        := h.refs.choiceRemote rfl
  remotes     := (choiceRemote_remotes rfl).trans h.remotes
  caching hc  := choiceRemote_caching rfl hc
  stale cache hs := by
    have hm : m.choiceRemote R isOrdered C choice = (_, .stale cache) := Prod.ext rfl hs
    exact (choiceRemote_stale hm h.refs).choiceRemote hm

theorem Refs.calling (h : m.Refs) : Calling m isOrdered C m .start where
  refs    := h
  remotes := rfl
  caching := False.elim
  stale   := nofun

-- A call as a whole, by what each of its sections keeps.
theorem choose_induct {P : RemoteMgr → Choice → Prop} (hm : m.Refs) (init : P m .start)
    (critical : ∀ m' choice, Calling m isOrdered C m' choice → P m' choice →
      P (m'.choiceRemote R isOrdered C choice).1 (m'.choiceRemote R isOrdered C choice).2) :
    Calling m isOrdered C (m.choose R isOrdered C).1 (m.choose R isOrdered C).2 ∧
    P (m.choose R isOrdered C).1 (m.choose R isOrdered C).2 := by
  let Q (s : RemoteMgr × Choice) : Prop := Calling m isOrdered C s.1 s.2 ∧ P s.1 s.2
  refine Function.Iterate.rec Q ⟨hm.calling, init⟩ (fun s h => ?_) 8
  exact ⟨h.1.critical, critical s.1 s.2 h.1 h.2⟩

-- Other calls keep what is cached for a client and a service.
theorem cached_choose (hm : m.Refs) (hne : ¬(isOrdered = true ∧ R' = R ∧ C' = C)) :
    (m.choose R' isOrdered C').1.cached R C = m.cached R C := by
  refine (choose_induct (P := fun m' _ => m'.cached R C = m.cached R C) hm rfl ?_).2
  intro m' choice hc hp
  exact (keeps_of_choiceRemote rfl hc.refs hc.caching hc.stale hne).cached.trans hp

-- What an ordered call is about to return is what it has put into the cache, or is about to put there.
def Aims (m : RemoteMgr) (R : RemoteId) (C : ConnId) : Choice → Prop
  | .update a r        => m.remotes a = some r
  | .returned (some r) => ∃ a, m.cached R C = some a ∧ m.remotes a = some r
  | _                  => True

theorem Aims.critical (hf : m.Refs) (h : m.Aims R C choice) :
    (m.choiceRemote R true C choice).1.Aims R C (m.choiceRemote R true C choice).2 := by
  cases choice <;> simp only [choiceRemote, if_true]
  case start =>
    split
    case h_1 r hr => exact cached_of_hit hr
    all_goals trivial
  case balance | snapshot | cursor => split <;> trivial
  case lookup a =>
    split
    case h_1      => trivial
    case h_2 r hr => exact hr
  case update a r =>
    have hu : m.choiceRemote R true C (.update a r) = (m.updateRemoteOrderCache R C a, _) := rfl
    have hr := choiceRemote_remotes hu
    exact ⟨a, by rw [cached_updateRemoteOrderCache hf, if_pos ⟨rfl, rfl⟩], hr ▸ h⟩
  case returned => exact h
  all_goals trivial

theorem cached_of_choose (hm : m.Refs) (h : m.choose R true C = (m', .returned (some r))) :
    ∃ a, m'.cached R C = some a ∧ m'.remotes a = some r := by
  have ha := (choose_induct (P := fun m choice => m.Aims R C choice) hm trivial
    fun _ _ hc hp => hp.critical hc.refs).2
  rwa [h] at ha

-- A cached address that is connected is returned by the first section.
theorem choose_of_cached (hc : m.cached R C = some a) (hr : m.remotes a = some r) :
    m.choose R true C = (m, .returned (some r)) := by
  have hstart : critical R true C (m, .start) = (m, .returned (some r)) := by
    simp [critical, choiceRemote, chioceRemoteFromOrderCache_of_some hc hr]
  have hend : critical R true C (m, .returned (some r)) = (m, .returned (some r)) := rfl
  rw [choose, Function.iterate_succ_apply, hstart, Function.iterate_fixed hend]

-- What holds in every run: each client has a cache of its own, and a remote stands at its own address.
structure Sound (m : RemoteMgr) : Prop where
  refs : m.Refs
  addr : ∀ a r, m.remotes a = some r → getConnID r.conn = a

theorem createRemoteMgr_sound : createRemoteMgr.Sound where
  refs := createRemoteMgr_refs
  addr := nofun

-- The operations other than `ChoiceRemote` as steps of the manager.
def Op.event : Op → Option Event
  | .discover nameSpace svrName ip port handle =>
    some (.connectRemote nameSpace svrName ip port ⟨handle, genConnIDByIPPort ip port⟩)
  | .disappear remoteID connID => some (.onRemoteDisappear remoteID connID)
  | _                          => none

theorem OpStep.cases (h : OpStep m op m') :
    (∃ R o C remote, op = .choose R o C remote ∧ m.choose R o C = (m', .returned remote)) ∨
    (∃ e, op.event = some e ∧ m.step e = some m') ∨
    (∃ C, op = .close C ∧ m' = m.delRemoteOrderCache C) := by
  cases h
  case choose hm    => exact .inl ⟨_, _, _, _, rfl, hm⟩
  case discover     => exact .inr <| .inl ⟨_, rfl, rfl⟩
  case disappear hm => exact .inr <| .inl ⟨_, rfl, hm⟩
  case close C      => exact .inr <| .inr ⟨C, rfl, rfl⟩

theorem remotes_of_choose {remote : Option Remote} (hf : m.Refs)
    (h : m.choose R isOrdered C = (m', .returned remote)) : m'.Refs ∧ m'.remotes = m.remotes := by
  have hc : Calling m isOrdered C (m.choose R isOrdered C).1 (m.choose R isOrdered C).2 :=
    (choose_induct (P := fun _ _ => True) hf trivial fun _ _ _ _ => trivial).1
  rw [h] at hc
  exact ⟨hc.refs, hc.remotes⟩

theorem Sound.step (h : m.Sound) (hs : OpStep m op m') : m'.Sound := by
  obtain ⟨R, o, C, remote, rfl, hm⟩ | ⟨e, he, hm⟩ | ⟨C, rfl, rfl⟩ := hs.cases
  · obtain ⟨hf, hr⟩ := remotes_of_choose h.refs hm
    exact ⟨hf, hr ▸ h.addr⟩
  · obtain ⟨ho, _, hal⟩ := caches_of_step hm
    refine ⟨⟨ho ▸ hal ▸ h.refs.bound, ho ▸ h.refs.inj⟩, fun a r hr => ?_⟩
    obtain hr | ⟨_, nameSpace, svrName, ip, port, c, rfl, rfl, rfl⟩ := remotes_cases_of_step hm hr
    · exact h.addr a r hr
    · cases op <;> cases he
      rfl
  · exact ⟨h.refs.delRemoteOrderCache, h.addr⟩

theorem sound_of_exec (h : Exec OpStep createRemoteMgr es m) : m.Sound :=
  h.preserves createRemoteMgr_sound fun _ _ _ => Sound.step

-- The client is bound to the remote at the address.
structure Bound (m : RemoteMgr) (R : RemoteId) (C a : ConnId) (r : Remote) : Prop where
  sound  : m.Sound
  cached : m.cached R C = some a
  remote : m.remotes a = some r

theorem Bound.step (h : m.Bound R C a r) (hs : OpStep m op m') (ha : (m'.remotes a).isSome)
    (hop : op ≠ .close C) : m'.Bound R C a r := by
  refine ⟨h.sound.step hs, ?_, ?_⟩ <;>
    obtain ⟨R', o, C', remote, rfl, hm⟩ | ⟨e, _, hm⟩ | ⟨C', rfl, rfl⟩ := hs.cases
  case refine_1.inl =>
    by_cases hne : o = true ∧ R' = R ∧ C' = C
    case pos =>
      obtain ⟨rfl, rfl, rfl⟩ := hne
      cases (choose_of_cached h.cached h.remote).symm.trans hm
      exact h.cached
    case neg =>
      have hk := cached_choose h.sound.refs hne
      rw [hm] at hk
      exact hk.trans h.cached
  case refine_1.inr.inl =>
    obtain ⟨ho, hc, _⟩ := caches_of_step hm
    simpa only [RemoteMgr.cached, ho, hc] using h.cached
  case refine_1.inr.inr =>
    have hne : C ≠ C' := fun he => hop (he ▸ rfl)
    exact (cached_delRemoteOrderCache hne).trans h.cached
  case refine_2.inl     => exact (remotes_of_choose h.sound.refs hm).2 ▸ h.remote
  case refine_2.inr.inl =>
    -- An address that is taken is not connected again.
    obtain ⟨r', hr'⟩ := Option.isSome_iff_exists.mp ha
    obtain hr | ⟨hn, _⟩ := remotes_cases_of_step hm hr'
    · exact hr'.trans (hr.symm.trans h.remote)
    · cases hn.symm.trans h.remote
  case refine_2.inr.inr => exact h.remote

-- The operations while the address stays connected and the client open.
def StayStep (a C : ConnId) (m : RemoteMgr) (op : Op) (m' : RemoteMgr) : Prop :=
  OpStep m op m' ∧ (m'.remotes a).isSome ∧ op ≠ .close C

theorem choose_sticky {m₁ m₂ : RemoteMgr} {es' : List Op} (h : Exec OpStep createRemoteMgr es m)
    (hc : OpStep m (.choose R true C (some r)) m₁) (ha : m.remotes a = some r)
    (h' : Exec (StayStep a C) m₁ es' m₂) :
    m₂.remotes a = some r ∧ m₂.choose R true C = (m₂, .returned (some r)) := by
  have hs := sound_of_exec h
  obtain ⟨_, _, _, _, he, hm⟩ | ⟨_, he, _⟩ | ⟨_, he, _⟩ := hc.cases <;> cases he
  have hr := (remotes_of_choose hs.refs hm).2
  -- The address that is cached is that of the remote.
  obtain ⟨a', hcached, hr'⟩ := cached_of_choose hs.refs hm
  obtain rfl : a' = a := (hs.addr a' r (hr ▸ hr')).symm.trans (hs.addr a r ha)
  have hb : m₂.Bound R C a' r :=
    h'.preserves (I := fun m => m.Bound R C a' r) ⟨hs.step hc, hcached, hr'⟩
      fun _ _ _ hb hs => hb.step hs.1 hs.2.1 hs.2.2
  exact ⟨hb.remote, choose_of_cached hb.cached hb.remote⟩

-- One instance of a service, and the remote that is made for it.
def oneInstance : RemoteMgr :=
  createRemoteMgr.connectRemote "dev" "Push" "10.0.0.1" 1 ⟨0, genConnIDByIPPort "10.0.0.1" 1⟩

def push : Remote where
  id   := getRemoteID "dev" "Push"
  conn := ⟨0, genConnIDByIPPort "10.0.0.1" 1⟩

theorem oneInstance_choose :
    oneInstance.choose (getRemoteID "dev" "Push") true "c1" =
      ((oneInstance.choose (getRemoteID "dev" "Push") true "c1").1, .returned (some push)) := by
  rfl

-- Another instance comes and another client leaves. The client stays where it was.
theorem choose_sticky_two_instances :
    ∃ m, Exec (StayStep (genConnIDByIPPort "10.0.0.1" 1) "c1")
        (oneInstance.choose (getRemoteID "dev" "Push") true "c1").1
        [.discover "dev" "Push" "10.0.0.2" 1 1, .close "c2"] m ∧
      m.choose (getRemoteID "dev" "Push") true "c1" = (m, .returned (some push)) := by
  have h : Exec OpStep createRemoteMgr [.discover "dev" "Push" "10.0.0.1" 1 0] oneInstance :=
    .single (.discover "dev" "Push" "10.0.0.1" 1 0)
  have h' : Exec (StayStep (genConnIDByIPPort "10.0.0.1" 1) "c1")
      (oneInstance.choose (getRemoteID "dev" "Push") true "c1").1
      [.discover "dev" "Push" "10.0.0.2" 1 1, .close "c2"] _ :=
    .cons ⟨.discover "dev" "Push" "10.0.0.2" 1 1, by rfl, nofun⟩ <|
      .single ⟨.close "c2", by rfl, by simp⟩
  exact ⟨_, h', (choose_sticky h (.choose oneInstance_choose) rfl h').2⟩

end RemoteMgr
