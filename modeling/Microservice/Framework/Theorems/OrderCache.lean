import Microservice.Framework.Theorems.RemoteMgr

namespace RemoteMgr

variable {m m' : RemoteMgr} {R R' : RemoteId} {C C' c connID : ConnId} {r : Remote} {cache : Nat}
variable {choice choice' : Choice} {isOrdered : Bool} {e : Event}

-- The address that the ordered cache has for a client and a service.
def cached (m : RemoteMgr) (remoteID : RemoteId) (clientID : ConnId) : Option ConnId :=
  (m.orderedCache clientID).bind fun cache => m.caches cache remoteID

theorem chioceRemoteFromOrderCache_of_none (h : m.cached R C = none) :
    m.chioceRemoteFromOrderCache R C = .miss := by
  unfold cached at h
  unfold chioceRemoteFromOrderCache
  cases hc : m.orderedCache C
  case none       => rfl
  case some cache =>
    have he : m.caches cache R = none := by simpa [hc] using h
    simp [he]

theorem chioceRemoteFromOrderCache_of_some (h : m.cached R C = some c) (hr : m.remotes c = some r) :
    m.chioceRemoteFromOrderCache R C = .hit r := by
  obtain ⟨cache, hc, he⟩ := Option.bind_eq_some_iff.mp h
  simp [chioceRemoteFromOrderCache, hc, he, hr]

-- Each client has a cache of its own.
structure Refs (m : RemoteMgr) : Prop where
  bound : ∀ c cache, m.orderedCache c = some cache → cache < m.alloc
  inj   : ∀ c c' cache, m.orderedCache c = some cache → m.orderedCache c' = some cache → c = c'

-- The cache is the client's, or was.
def RefOf (m : RemoteMgr) (clientID : ConnId) (cache : Nat) : Prop :=
  cache < m.alloc ∧ ∀ c, m.orderedCache c = some cache → c = clientID

theorem Refs.refOf (h : m.Refs) (hc : m.orderedCache C = some cache) : m.RefOf C cache :=
  ⟨h.bound C cache hc, fun c hc' => h.inj c C cache hc' hc⟩

theorem createRemoteMgr_refs : createRemoteMgr.Refs := by
  constructor <;> simp [createRemoteMgr]

theorem Refs.updateRemoteOrderCache (h : m.Refs) : (m.updateRemoteOrderCache R C connID).Refs := by
  unfold RemoteMgr.updateRemoteOrderCache
  split
  case h_1 => exact ⟨h.bound, h.inj⟩
  case h_2 =>
    -- The new reference is above all others.
    constructor
    case bound =>
      intro c cache hc
      obtain ⟨_, rfl⟩ | ⟨_, hc⟩ := Partial.insert_eq_some_iff.mp hc
      · exact Nat.lt_succ_self _
      · exact Nat.lt_succ_of_lt (h.bound c cache hc)
    case inj =>
      intro c c' cache hc hc'
      obtain ⟨he, hm⟩ | ⟨_, hm⟩ := Partial.insert_eq_some_iff.mp hc <;>
        obtain ⟨he', hm'⟩ | ⟨_, hm'⟩ := Partial.insert_eq_some_iff.mp hc'
      · exact he.trans he'.symm
      · exact absurd (h.bound c' cache hm') (hm ▸ Nat.lt_irrefl _)
      · exact absurd (h.bound c cache hm) (hm' ▸ Nat.lt_irrefl _)
      · exact h.inj c c' cache hm hm'

theorem Refs.delRemoteOrderCache (h : m.Refs) : (m.delRemoteOrderCache C).Refs where
  bound c cache hc := h.bound c cache (Partial.erase_eq_some_iff.mp hc).2
  inj c c' cache hc hc' :=
    h.inj c c' cache (Partial.erase_eq_some_iff.mp hc).2 (Partial.erase_eq_some_iff.mp hc').2

theorem RefOf.updateRemoteOrderCache (h : m.RefOf C cache) :
    (m.updateRemoteOrderCache R C' connID).RefOf C cache := by
  unfold RemoteMgr.updateRemoteOrderCache
  split
  case h_1 => exact h
  case h_2 =>
    refine ⟨Nat.lt_succ_of_lt h.1, fun c hc => ?_⟩
    obtain ⟨_, rfl⟩ | ⟨_, hc⟩ := Partial.insert_eq_some_iff.mp hc
    · exact absurd h.1 (Nat.lt_irrefl _)
    · exact h.2 c hc

theorem RefOf.delRemoteOrderCache (h : m.RefOf C cache) : (m.delRemoteOrderCache C').RefOf C cache :=
  ⟨h.1, fun c hc => h.2 c (Partial.erase_eq_some_iff.mp hc).2⟩

theorem cached_updateRemoteOrderCache (h : m.Refs) :
    (m.updateRemoteOrderCache R' C' connID).cached R C =
      if R = R' ∧ C = C' then some connID else m.cached R C := by
  unfold updateRemoteOrderCache
  split
  case h_1 cache hc' =>
    by_cases hC : C = C'
    case pos =>
      subst hC
      by_cases hR : R = R' <;> simp [cached, setCache, hc', hR, Partial.insert_apply]
    case neg =>
      -- The cache of another client is another one.
      simp only [hC, and_false, if_false]
      cases hc : m.orderedCache C
      case none        => simp [cached, setCache, hc]
      case some cache' =>
        have hne : cache' ≠ cache := fun he => hC (h.inj C C' cache (he ▸ hc) hc')
        simp [cached, setCache, hc, Function.update_of_ne hne]
  case h_2 hc' =>
    by_cases hC : C = C'
    case pos =>
      subst hC
      by_cases hR : R = R' <;> simp [cached, hc', hR, Partial.insert_apply]
    case neg =>
      simp only [hC, and_false, if_false]
      cases hc : m.orderedCache C
      case none        => simp [cached, hc, Partial.insert_apply, hC]
      case some cache' =>
        have hne : cache' ≠ m.alloc := Nat.ne_of_lt (h.bound C cache' hc)
        simp [cached, hc, Partial.insert_apply, hC, Function.update_of_ne hne]

theorem cached_dropStale (h : m.RefOf C' cache) (hne : ¬(R = R' ∧ C = C')) :
    (m.dropStale R' cache).cached R C = m.cached R C := by
  cases hc : m.orderedCache C
  case none        => simp [cached, dropStale, setCache, hc]
  case some cache' =>
    by_cases he : cache' = cache
    case neg => simp [cached, dropStale, setCache, hc, Function.update_of_ne he]
    case pos =>
      subst he
      have hR : R ≠ R' := fun hR => hne ⟨hR, h.2 C hc⟩
      simp [cached, dropStale, setCache, hc, Partial.erase_of_ne hR]

theorem cached_delRemoteOrderCache (hne : C ≠ C') :
    (m.delRemoteOrderCache C').cached R C = m.cached R C := by
  simp [cached, delRemoteOrderCache, Partial.erase_of_ne hne]

-- The critical sections that write to the ordered cache. Only those of ordered requests do.
def Choice.Caching : Choice → Prop
  | .stale _ | .update .. => True
  | _                     => False

-- What a critical section of `ChoiceRemote` changes.
theorem choiceRemote_remotes (h : m.choiceRemote R isOrdered C choice = (m', choice')) :
    m'.remotes = m.remotes := by
  obtain rfl : (m.choiceRemote R isOrdered C choice).fst = m' := congrArg Prod.fst h
  clear h
  cases choice <;> simp only [choiceRemote]
  case start    => split <;> (try split) <;> rfl
  case stale    => rfl
  case balance  => split <;> rfl
  case snapshot => split <;> rfl
  case cursor   => split <;> rfl
  case weight   => rfl
  case lookup   => split <;> rfl
  case update   => unfold updateRemoteOrderCache; split <;> rfl

theorem mem_lb_setLb {l : LoadBalancer} (h : ∀ c, c ∈ l ↔ c ∈ m.lb R') :
    c ∈ (m.setLb R' l).lb R ↔ c ∈ m.lb R := by
  have hs : (m.setLb R' l).lb R = if R = R' then l else m.lb R := lb_insert
  rw [hs]
  split
  case isTrue hR  => rw [hR, h]
  case isFalse hR => rfl

theorem mem_lb_choiceRemote (h : m.choiceRemote R' isOrdered C choice = (m', choice')) :
    c ∈ m'.lb R ↔ c ∈ m.lb R := by
  obtain rfl : (m.choiceRemote R' isOrdered C choice).fst = m' := congrArg Prod.fst h
  clear h
  cases choice <;> simp only [choiceRemote]
  case start    => split <;> (try split) <;> rfl
  case stale    => rfl
  case balance  => split <;> rfl
  case snapshot => split <;> rfl
  case cursor s =>
    split <;> rename_i h <;> exact mem_lb_setLb fun c => LoadBalancer.mem_moveCursor h
  case weight ele => exact mem_lb_setLb fun c => LoadBalancer.mem_addWeight
  case lookup   => split <;> rfl
  case update   => unfold updateRemoteOrderCache; split <;> rfl

theorem choiceRemote_caches (h : m.choiceRemote R isOrdered C choice = (m', choice')) :
    (∃ cache, choice = .stale cache ∧ m' = m.dropStale R cache) ∨
    (∃ c r, choice = .update c r ∧ m' = m.updateRemoteOrderCache R C c) ∨
    (m'.orderedCache = m.orderedCache ∧ m'.caches = m.caches ∧ m'.alloc = m.alloc) := by
  obtain rfl : (m.choiceRemote R isOrdered C choice).fst = m' := congrArg Prod.fst h
  clear h
  cases choice
  case stale cache => exact .inl ⟨cache, rfl, rfl⟩
  case update c r  => exact .inr <| .inl ⟨c, r, rfl, rfl⟩
  case start       => exact .inr <| .inr (by simp only [choiceRemote]; split <;> (try split) <;> simp)
  case balance | snapshot | cursor | lookup =>
    exact .inr <| .inr (by simp only [choiceRemote]; split <;> simp [setLb])
  case weight | returned | panicked => exact .inr <| .inr ⟨rfl, rfl, rfl⟩

-- Only ordered requests get to the sections that write to the ordered cache.
theorem choiceRemote_caching (h : m.choiceRemote R isOrdered C choice = (m', choice'))
    (hc : choice'.Caching) : isOrdered = true := by
  obtain rfl : (m.choiceRemote R isOrdered C choice).snd = choice' := congrArg Prod.snd h
  cases isOrdered
  case true  => rfl
  case false =>
    cases choice <;> simp only [choiceRemote, Bool.false_eq_true, if_false] at hc <;>
      (try split at hc) <;> exact hc.elim

theorem choiceRemote_stale (h : m.choiceRemote R isOrdered C choice = (m', .stale cache))
    (hf : m.Refs) : m.RefOf C cache := by
  replace h := congrArg Prod.snd h
  cases choice <;> simp only [choiceRemote] at h
  case start =>
    split at h <;> try cases h
    split at h <;> cases h
    case h_2 hc =>
      unfold chioceRemoteFromOrderCache at hc
      split at hc <;> try cases hc
      case h_2 hm =>
        split at hc <;> try cases hc
        split at hc <;> cases hc
        exact hf.refOf hm
  all_goals (repeat' split at h) <;> cases h

-- The instances of a service stay connected.
def Staying (m : RemoteMgr) (remoteID : RemoteId) : Event → Prop
  | .connectRemote ..            => True
  | .onRemoteDisappear _ connID => ∀ r, m.remotes connID = some r → r.id ≠ remoteID

-- What makes a chosen address of the service one of an instance: what the load balancer has is
-- connected, no address is empty, and what is cached is connected.
structure Live (m : RemoteMgr) (remoteID : RemoteId) (clientID : ConnId) : Prop where
  balanced : ∀ c ∈ m.lb remoteID, m.IsRemote remoteID c
  named    : m.remotes "" = none
  cached   : ∀ c ∈ m.cached remoteID clientID, m.IsRemote remoteID c

theorem createRemoteMgr_live : createRemoteMgr.Live R C := by
  constructor <;> simp [createRemoteMgr, lb, RemoteMgr.cached]

theorem genConnIDByIPPort_ne_empty {ip : String} {port : UInt32} : genConnIDByIPPort ip port ≠ "" := by
  intro h
  have hl := congrArg String.length h
  simp [genConnIDByIPPort] at hl

-- What a step does to the maps of the manager.
inductive Effect (m : RemoteMgr) (e : Event) : RemoteMgr → Prop
  | idle : Effect m e m
  | balancer (id : RemoteId) (l : LoadBalancer) :
    (∀ c, c ∈ l ↔ c ∈ m.lb id) → Effect m e { m with lbs := m.lbs.insert id l }
  | connect (a : ConnId) (r : Remote) (l : LoadBalancer) :
    m.remotes a = none → a ≠ "" → (∀ c, c ∈ l ↔ c = a ∨ c ∈ m.lb r.id) →
    Effect m e { m with lbs := m.lbs.insert r.id l, remotes := m.remotes.insert a r }
  | disappear (id : RemoteId) (a : ConnId) (l : LoadBalancer) :
    e = .onRemoteDisappear id a → (∀ c ∈ l, c ∈ m.lb id) →
    Effect m e { m with remotes := m.remotes.erase a, lbs := m.lbs.insert id l }

theorem effect_of_step (h : m.step e = some m') : m.Effect e m' := by
  cases e
  case connectRemote nameSpace svrName ip port conn =>
    cases h
    simp only [connectRemote]
    split
    case isTrue => exact .idle
    case isFalse hn =>
      rw [Option.not_isSome_iff_eq_none] at hn
      split
      case h_1 l ha =>
        obtain ⟨hl, hb⟩ := LoadBalancer.addElement_cases ha
        simp only [Bool.false_eq_true, false_iff, not_not] at hb
        exact .balancer _ l fun c => (hl c).trans (or_iff_right_of_imp (· ▸ hb))
      case h_2 l ha =>
        exact .connect _ ⟨_, conn⟩ l hn genConnIDByIPPort_ne_empty (LoadBalancer.addElement_cases ha).1
  case onRemoteDisappear id a =>
    cases hr : m.remotes a
    case none =>
      obtain rfl : m = m' := by simpa [step, onRemoteDisappear, hr] using h
      exact .idle
    case some =>
      obtain ⟨l, hl, rfl⟩ := onRemoteDisappear_of_some hr h
      exact .disappear id a _ rfl fun c hc => by
        simpa [lb, hl] using (LoadBalancer.mem_delElement.mp hc).2

-- A remote of the service is the same one after a step.
theorem remotes_of_step (h : m.step e = some m') (hs : m.Staying R e) (hr : m.remotes c = some r)
    (hid : r.id = R) : m'.remotes c = some r := by
  cases effect_of_step h
  case idle | balancer => exact hr
  case connect a r' l hn _ _ =>
    have hne : c ≠ a := by
      rintro rfl
      cases hn.symm.trans hr
    exact (Partial.insert_of_ne hne).trans hr
  case disappear id a l he _ =>
    subst he
    have hne : c ≠ a := by
      rintro rfl
      exact hs r hr hid
    exact (Partial.erase_of_ne hne).trans hr

theorem isRemote_of_step (h : m.step e = some m') (hs : m.Staying R e) (hc : m.IsRemote R c) :
    m'.IsRemote R c :=
  have ⟨r, hr, hid⟩ := hc
  ⟨r, remotes_of_step h hs hr hid, hid⟩

-- What a step adds to a load balancer is connected by it.
theorem mem_lb_of_step (h : m.step e = some m') (hc : c ∈ m'.lb R) : c ∈ m.lb R ∨ m'.IsRemote R c := by
  cases effect_of_step h
  case idle => exact .inl hc
  case balancer id l hl =>
    exact .inl ((mem_lb_setLb hl).mp hc)
  case connect a r l _ _ hl =>
    rw [lb_insert] at hc
    split at hc
    case isFalse   => exact .inl hc
    case isTrue hR =>
      obtain rfl | hc := (hl c).mp hc
      · exact .inr ⟨r, Partial.insert_self, hR.symm⟩
      · exact .inl (hR ▸ hc)
  case disappear id a l _ hl =>
    rw [lb_insert] at hc
    split at hc
    case isFalse   => exact .inl hc
    case isTrue hR => exact .inl (hR ▸ hl c hc)

theorem named_of_step (h : m.step e = some m') (hn : m.remotes "" = none) : m'.remotes "" = none := by
  cases effect_of_step h
  case idle | balancer => exact hn
  case connect ha _    => exact (Partial.insert_of_ne ha.symm).trans hn
  case disappear id a _ _ _ => by_cases hc : "" = a <;> simp [Partial.erase_apply, hc, hn]

-- The ordered cache is not changed by what comes and goes.
theorem caches_of_step (h : m.step e = some m') :
    m'.orderedCache = m.orderedCache ∧ m'.caches = m.caches ∧ m'.alloc = m.alloc := by
  cases effect_of_step h <;> exact ⟨rfl, rfl, rfl⟩

theorem Live.step (h : m.Live R C) (hm : m.step e = some m') (hs : m.Staying R e) :
    m'.Live R C where
  balanced c hc := (mem_lb_of_step hm hc).elim (fun hc => isRemote_of_step hm hs (h.balanced c hc)) id
  named    := named_of_step hm h.named
  cached   := by
    have ⟨ho, hca, _⟩ := caches_of_step hm
    intro c hc
    exact isRemote_of_step hm hs (h.cached c (by simpa [RemoteMgr.cached, ho, hca] using hc))

-- What is known of a choice for an ordered request, if no other one is made for its client and its
-- service meanwhile.
def Chosen (m : RemoteMgr) (remoteID : RemoteId) (clientID : ConnId) (r : Remote) : Prop :=
  ∃ c, m.cached remoteID clientID = some c ∧ m.remotes c = some r ∧ r.id = remoteID

def Choosing (m : RemoteMgr) (remoteID : RemoteId) (clientID : ConnId) : Choice → Prop
  | .stale _              => False
  | .balance | .snapshot  => m.cached remoteID clientID = none
  | .cursor s             => m.cached remoteID clientID = none ∧ ∀ c ∈ s, m.IsRemote remoteID c
  | .weight c | .lookup c => m.cached remoteID clientID = none ∧ (c = "" ∨ m.IsRemote remoteID c)
  | .update c r           =>
    m.cached remoteID clientID = none ∧ m.remotes c = some r ∧ r.id = remoteID
  | .returned (some r)    => m.Chosen remoteID clientID r
  | .start | .returned none | .panicked => True

-- The cached address is the same, and the instances of the service are still connected.
structure Keeps (m m' : RemoteMgr) (remoteID : RemoteId) (clientID : ConnId) : Prop where
  cached  : m'.cached remoteID clientID = m.cached remoteID clientID
  remotes : ∀ c r, m.remotes c = some r → r.id = remoteID → m'.remotes c = some r

theorem Keeps.isRemote (h : Keeps m m' R C) (hc : m.IsRemote R c) : m'.IsRemote R c :=
  have ⟨r, hr, hid⟩ := hc
  ⟨r, h.remotes c r hr hid, hid⟩

theorem Keeps.chosen (h : Keeps m m' R C) (hc : m.Chosen R C r) : m'.Chosen R C r :=
  have ⟨c, hc, hr, hid⟩ := hc
  ⟨c, h.cached.trans hc, h.remotes c r hr hid, hid⟩

theorem Keeps.choosing (h : Keeps m m' R C) (hc : m.Choosing R C choice) : m'.Choosing R C choice := by
  cases choice
  case stale              => exact hc.elim
  case balance | snapshot => exact h.cached.trans hc
  case cursor             => exact ⟨h.cached.trans hc.1, fun c hm => h.isRemote (hc.2 c hm)⟩
  case weight | lookup    => exact ⟨h.cached.trans hc.1, hc.2.imp_right h.isRemote⟩
  case update c r         => exact ⟨h.cached.trans hc.1, h.remotes c r hc.2.1 hc.2.2, hc.2.2⟩
  case returned r =>
    cases r
    case none   => trivial
    case some r => exact h.chosen hc
  case start | panicked   => trivial

theorem keeps_of_step (h : m.step e = some m') (hs : m.Staying R e) : Keeps m m' R C where
  cached      := by
    have ⟨ho, hc, _⟩ := caches_of_step h
    simp only [RemoteMgr.cached, ho, hc]
  remotes _ _ := remotes_of_step h hs

-- A choice for another client or another service keeps what is cached.
theorem keeps_of_choiceRemote (h : m.choiceRemote R' isOrdered C' choice = (m', choice'))
    (hf : m.Refs) (ho : choice.Caching → isOrdered = true)
    (hs : ∀ cache, choice = .stale cache → m.RefOf C' cache)
    (hne : ¬(isOrdered = true ∧ R' = R ∧ C' = C)) : Keeps m m' R C where
  remotes c r hr _ := choiceRemote_remotes h ▸ hr
  cached := by
    have hne' : choice.Caching → ¬(R = R' ∧ C = C') := fun hc ⟨hR, hC⟩ => hne ⟨ho hc, hR.symm, hC.symm⟩
    obtain ⟨cache, rfl, rfl⟩ | ⟨c, r, rfl, rfl⟩ | ⟨ho, hc, _⟩ := choiceRemote_caches h
    · exact cached_dropStale (hs cache rfl) (hne' trivial)
    · rw [cached_updateRemoteOrderCache hf, if_neg (hne' trivial)]
    · simp only [RemoteMgr.cached, ho, hc]

theorem Refs.choiceRemote (hf : m.Refs) (h : m.choiceRemote R isOrdered C choice = (m', choice')) :
    m'.Refs := by
  obtain ⟨cache, _, rfl⟩ | ⟨c, r, _, rfl⟩ | ⟨ho, _, ha⟩ := choiceRemote_caches h
  · exact ⟨hf.bound, hf.inj⟩
  · exact hf.updateRemoteOrderCache
  · exact ⟨ho ▸ ha ▸ hf.bound, ho ▸ hf.inj⟩

theorem RefOf.choiceRemote (hr : m.RefOf C cache)
    (h : m.choiceRemote R isOrdered C' choice = (m', choice')) : m'.RefOf C cache := by
  obtain ⟨_, _, rfl⟩ | ⟨c, r, _, rfl⟩ | ⟨ho, _, ha⟩ := choiceRemote_caches h
  · exact hr
  · exact hr.updateRemoteOrderCache
  · exact ⟨ha ▸ hr.1, ho ▸ hr.2⟩

theorem Choosing.choiceRemote (h : m.Choosing R C choice) (hf : m.Refs) (hl : m.Live R C)
    (hm : m.choiceRemote R true C choice = (m', choice')) : m'.Choosing R C choice' := by
  obtain rfl : (m.choiceRemote R true C choice).fst = m' := congrArg Prod.fst hm
  obtain rfl : (m.choiceRemote R true C choice).snd = choice' := congrArg Prod.snd hm
  clear hm
  cases choice <;> simp only [RemoteMgr.choiceRemote, if_true]
  case start =>
    cases hc : m.cached R C
    case none   => simpa [chioceRemoteFromOrderCache_of_none hc, Choosing] using hc
    case some c =>
      have ⟨r, hr, hid⟩ := hl.cached c hc
      simpa [chioceRemoteFromOrderCache_of_some hc hr, Choosing] using ⟨c, hc, hr, hid⟩
  case stale => exact h.elim
  case balance =>
    split
    case h_1 => trivial
    case h_2 => exact h
  case snapshot =>
    split
    case h_1 => exact ⟨h, .inl rfl⟩
    case h_2 => exact ⟨h, fun c hc => hl.balanced c (LoadBalancer.mem_snapshot.mp hc)⟩
  case cursor s =>
    split
    case h_1 hm => exact ⟨h.1, .inr (h.2 _ (LoadBalancer.mem_of_moveCursor hm))⟩
    case h_2    => trivial
  case weight ele => exact h
  case lookup c =>
    split
    case h_1      => trivial
    case h_2 r hr =>
      refine ⟨h.1, hr, ?_⟩
      obtain rfl | ⟨r', hr', hid⟩ := h.2
      · cases hl.named.symm.trans hr
      · cases hr'.symm.trans hr
        exact hid
  case update c r =>
    refine ⟨c, by simp [cached_updateRemoteOrderCache hf], ?_, h.2.2⟩
    unfold updateRemoteOrderCache
    split <;> exact h.2.1
  case returned | panicked => exact h

-- What is cached changes only from nothing to an instance.
theorem Choosing.cached (h : m.Choosing R C choice) (hf : m.Refs)
    (hm : m.choiceRemote R true C choice = (m', choice')) :
    m'.cached R C = m.cached R C ∨
    ∃ c r, m.cached R C = none ∧ m'.cached R C = some c ∧ m.remotes c = some r ∧ r.id = R := by
  obtain ⟨cache, rfl, _⟩ | ⟨c, r, rfl, rfl⟩ | ⟨ho, hca, _⟩ := choiceRemote_caches hm
  · exact h.elim
  · exact .inr ⟨c, r, h.1, by simp [cached_updateRemoteOrderCache hf], h.2⟩
  · simp only [RemoteMgr.cached, ho, hca, true_or]

theorem Chosen.unique {r' : Remote} (h : m.Chosen R C r) (h' : m.Chosen R C r') : r = r' := by
  obtain ⟨c, hc, hr, _⟩ := h
  obtain ⟨c', hc', hr', _⟩ := h'
  cases hc.symm.trans hc'
  exact Option.some.inj (hr.symm.trans hr')

theorem Chosen.choiceRemote (hc : m.Chosen R C r) (h : m.Choosing R C choice) (hf : m.Refs)
    (hm : m.choiceRemote R true C choice = (m', choice')) : m'.Chosen R C r := by
  obtain ⟨c, hc, hr, hid⟩ := hc
  refine ⟨c, ?_, choiceRemote_remotes hm ▸ hr, hid⟩
  obtain hk | ⟨_, _, hn, _⟩ := h.cached hf hm
  · exact hk.trans hc
  · cases hn.symm.trans hc

theorem Live.keeps (h : m.Live R C) (hk : Keeps m m' R C) (hr : m'.remotes = m.remotes)
    (hb : ∀ c ∈ m'.lb R, c ∈ m.lb R) : m'.Live R C where
  balanced c hc := hk.isRemote (h.balanced c (hb c hc))
  named         := hr ▸ h.named
  cached        := hk.cached ▸ fun c hc => hk.isRemote (h.cached c hc)

theorem Live.choiceRemote (h : m.Live R C) (hf : m.Refs) (hc : m.Choosing R C choice)
    (hm : m.choiceRemote R true C choice = (m', choice')) : m'.Live R C := by
  have hr := choiceRemote_remotes hm
  have hi : ∀ c, m'.IsRemote R c ↔ m.IsRemote R c := fun c => by simp only [IsRemote, hr]
  refine ⟨fun c hb => (hi c).mpr (h.balanced c ((mem_lb_choiceRemote hm).mp hb)), hr ▸ h.named, ?_⟩
  intro c hcc
  refine (hi c).mpr ?_
  obtain hk | ⟨c', r, _, hs, hr, hid⟩ := hc.cached hf hm
  · exact h.cached c (hk ▸ hcc)
  · cases hs.symm.trans hcc
    exact ⟨r, hr, hid⟩

end RemoteMgr
