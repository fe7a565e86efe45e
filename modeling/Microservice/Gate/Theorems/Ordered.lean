import Microservice.Gate.Replay
import Microservice.Gate.Theorems.Basic
import Microservice.Framework.Theorems.OrderCache

namespace Gate

section

variable {ρ : Type*}

-- The task of an ordered request of a client to a service.
def Task.orderedBy (remoteID : RemoteId) (clientID : ConnId) (t : Task ρ) : Bool :=
  match t.rpc with
  | .route req => req.isOrdered && req.remoteID = remoteID && t.clientID = clientID
  | _          => false

def Event.call : Event ρ → Option (Nat × Conn)
  | .send i conn (.g2sRpcCall ..) => some (i, conn)
  | _                             => none

-- The requests that were sent on, in this order, with the connections they were written to.
def calls (es : List (Event ρ)) : List (Nat × Conn) :=
  es.filterMap Event.call

def OrderedBy (remoteID : RemoteId) (clientID : ConnId) (g : Gate ρ) (i : Nat) : Prop :=
  ∃ t, g.At i t ∧ t.orderedBy remoteID clientID = true

-- The ordered requests of a client to a service go to one instance and in the order in which they were
-- read.
def InOrder (remoteID : RemoteId) (clientID : ConnId) (es : List (Event ρ)) (g : Gate ρ) : Prop :=
  (calls es).Pairwise fun p q =>
    g.OrderedBy remoteID clientID p.1 → g.OrderedBy remoteID clientID q.1 → p.1 < q.1 ∧ p.2 = q.2

-- A step in which the instances of a service stay connected.
structure Steady (cfg : Config ρ) (remoteID : RemoteId) (g : Gate ρ) (e : Event ρ) (g' : Gate ρ) :
    Prop where
  step    : Step cfg g e g'
  staying : ∀ ev, e = .rmgr ev → g.rmgr.Staying remoteID ev

-- The connection of the client stays open as well, and no worker takes a request of the client to the
-- service before the earlier ones are done.
structure Sequential (cfg : Config ρ) (remoteID : RemoteId) (clientID : ConnId) (g : Gate ρ)
    (e : Event ρ) (g' : Gate ρ) : Prop extends Steady cfg remoteID g e g' where
  stays  : e ≠ .close clientID
  inTurn : ∀ j, e = .take j → g.OrderedBy remoteID clientID j →
    ∀ i t, i < j → g.At i t → t.orderedBy remoteID clientID = true → t.pc.Ended

-- The references that the handlers keep to ordered caches, and who can write to them.
structure Owned (g : Gate ρ) : Prop where
  refs    : g.rmgr.Refs
  caching : ∀ i t req choice, g.At i t → t.rpc = .route req → t.pc = .choosing choice →
    choice.Caching → req.isOrdered = true
  stale   : ∀ i t cache, g.At i t → t.pc = .choosing (.stale cache) → g.rmgr.RefOf t.clientID cache

-- The handler of a request has chosen the instance that is cached, or is about to.
def Pc.Selects (m : RemoteMgr) (remoteID : RemoteId) (clientID : ConnId) : Pc → Prop
  | .choosing choice                    => m.Choosing remoteID clientID choice
  | .drawn r | .adding r _ | .sending r => m.Chosen remoteID clientID r
  | _                                   => True

-- What has become of a request. Its handler is never in the code of another one.
def Pc.Answered (es : List (Event ρ)) (i : Nat) : Pc → Prop
  | .refused _ | .finished => (∃ conn, (i, conn) ∈ calls es) ∨ ∃ err, .reject i err ∈ es
  | .deleting .. | .client _ | .remote _ | .responding .. | .pushing _ => False
  | _ => True

end

variable {ρ : Type*} {cfg : Config ρ} {g g' : Gate ρ} {e : Event ρ} {es : List (Event ρ)}
variable {i j : Nat} {t t' s : Task ρ} {R : RemoteId} {C : ConnId} {m m' : RemoteMgr}

theorem Task.orderedBy_iff : t.orderedBy R C = true ↔
    ∃ req, t.rpc = .route req ∧ req.isOrdered = true ∧ req.remoteID = R ∧ t.clientID = C := by
  unfold orderedBy
  split
  case h_1 req hr => simp [hr, and_assoc]
  case h_2 hr     => simpa using fun req hreq => absurd hreq (hr req)

theorem Moves.orderedBy (h : Moves e i t t') : t'.orderedBy R C = t.orderedBy R C := by
  unfold Task.orderedBy Task.clientID
  rw [h.rpc, h.src]

-- What a step does to the remote manager.
inductive RmgrStep (g : Gate ρ) (e : Event ρ) : RemoteMgr → Prop
  | idle : RmgrStep g e g.rmgr
  | close (c : ConnId) : e = .close c → RmgrStep g e (g.rmgr.delRemoteOrderCache c)
  | rmgr (ev : RemoteMgr.Event) : e = .rmgr ev → g.rmgr.step ev = some n → RmgrStep g e n
  | choose (k : Nat) (u : Task ρ) (req : RouteReq) (choice next : RemoteMgr.Choice) :
    e = .choose k → g.Runs k u → u.rpc = .route req → u.pc = .choosing choice →
    g.rmgr.choiceRemote req.remoteID req.isOrdered u.clientID choice = (n, next) → RmgrStep g e n

theorem Act.rmgrStep (ha : Act cfg g e g') : RmgrStep g e g'.rmgr := by
  cases ha
  case close                 => exact .close _ rfl
  case rmgr hm               => exact .rmgr _ rfl hm
  case choose hr hp _ hi hm  => exact .choose _ _ _ _ _ rfl hi hr hp hm
  all_goals exact .idle

theorem Act.of_choose (ha : Act cfg g e g') (he : e = .choose i) (hi : g'.At i s) :
    ∃ t req choice next, g.Runs i t ∧ t.rpc = .route req ∧ t.pc = .choosing choice ∧
      g.rmgr.choiceRemote req.remoteID req.isOrdered t.clientID choice = (g'.rmgr, next) ∧
      s = { t with pc := .choosing next } := by
  cases ha <;> cases he
  case choose hr hp _ hm hrun =>
    exact ⟨_, _, _, _, hrun, hr, hp, hm, hi.moved hrun.1 rfl⟩

-- The handlers keep nothing of the remote manager but references to caches of their own clients.
theorem init_owned : Owned (init : Gate ρ) where
  refs    := RemoteMgr.createRemoteMgr_refs
  caching := by simp [init]
  stale   := by simp [init]

-- A handler that is choosing goes on with a choice that was begun before, unless it takes the step.
theorem Act.choosing_cases (ha : Act cfg g e g') (hi : g'.At i s) (hp : s.pc = .choosing choice) :
    (∃ t, g.At i t ∧ t.rpc = s.rpc ∧ t.src = s.src ∧ t.pc = .choosing choice) ∨ e = .choose i ∨
    choice = .start := by
  obtain ⟨hi', _⟩ | ⟨_, _, _, _, rfl⟩ | ⟨t, ht, hm⟩ := ha.taskStep.back hi
  · exact .inl ⟨s, hi', rfl, rfl, hp⟩
  · cases hp
  have hact := hm.actor
  cases ha <;> simp only [Event.actor, Option.some.injEq, reduceCtorEq] at hact <;> subst hact
  case take ht' _ =>
    obtain rfl := hi.moved ht' rfl
    exact .inl ⟨_, ht', rfl, rfl, hp⟩
  case choose => exact .inr (.inl rfl)
  all_goals
    rename g.Runs _ _ => hrun
    obtain rfl := hi.moved hrun.1 rfl
  case check =>
    cases hp
    exact .inr (.inr rfl)
  case refuse | notExist =>
    unfold rejected at hp
    split at hp <;> cases hp
  all_goals cases hp

theorem RmgrStep.refs (h : RmgrStep g e m) (hf : g.rmgr.Refs) : m.Refs := by
  cases h
  case idle      => exact hf
  case close     => exact hf.delRemoteOrderCache
  case rmgr hm   =>
    have ⟨ho, _, ha⟩ := RemoteMgr.caches_of_step hm
    exact ⟨ho ▸ ha ▸ hf.bound, ho ▸ hf.inj⟩
  case choose hm => exact hf.choiceRemote hm

theorem RmgrStep.refOf (h : RmgrStep g e m) (hr : g.rmgr.RefOf C cache) : m.RefOf C cache := by
  cases h
  case idle      => exact hr
  case close     => exact hr.delRemoteOrderCache
  case rmgr hm   =>
    have ⟨ho, _, ha⟩ := RemoteMgr.caches_of_step hm
    exact ⟨ha ▸ hr.1, ho ▸ hr.2⟩
  case choose hm => exact hr.choiceRemote hm

theorem Act.owned (ha : Act cfg g e g') (h : Owned g) : Owned g' where
  refs := ha.rmgrStep.refs h.refs
  caching i s req choice hi hr hp hc := by
    obtain ⟨t, ht, hr', _, hp⟩ | he | rfl := ha.choosing_cases hi hp
    · exact h.caching i t req choice ht (hr'.trans hr) hp hc
    · obtain ⟨t, req', _, next, _, hr', _, hm, rfl⟩ := ha.of_choose he hi
      cases hr'.symm.trans hr
      cases hp
      exact RemoteMgr.choiceRemote_caching hm hc
    · exact hc.elim
  stale i s cache hi hp := by
    obtain ⟨t, ht, _, hs, hp⟩ | he | hs := ha.choosing_cases hi hp
    · have hr := ha.rmgrStep.refOf (h.stale i t cache ht hp)
      rwa [Task.clientID, hs] at hr
    · obtain ⟨t, req, _, next, _, _, _, hm, rfl⟩ := ha.of_choose he hi
      cases hp
      exact ha.rmgrStep.refOf (RemoteMgr.choiceRemote_stale hm h.refs)
    · cases hs

-- The manager keeps what concerns a client and a service, unless a handler of the client's ordered
-- requests to the service makes its choice.
theorem Sequential.keeps (hs : Sequential cfg R C g e g') (h : Owned g) :
    RemoteMgr.Keeps g.rmgr g'.rmgr R C ∨ ∃ k, e = .choose k ∧ g.OrderedBy R C k := by
  have hm := hs.step.act.rmgrStep
  generalize g'.rmgr = m' at hm ⊢
  cases hm
  case idle => exact .inl ⟨rfl, fun _ _ hr _ => hr⟩
  case close c he =>
    have hne : C ≠ c := fun hc => hs.stays (hc ▸ he)
    exact .inl ⟨RemoteMgr.cached_delRemoteOrderCache hne, fun _ _ hr _ => hr⟩
  case rmgr ev he hm => exact .inl (RemoteMgr.keeps_of_step hm (hs.staying ev he))
  case choose k u req choice next he hrun hr hp hm =>
    by_cases hu : u.orderedBy R C = true
    case pos => exact .inr ⟨k, he, u, hrun.1, hu⟩
    case neg =>
      refine .inl (RemoteMgr.keeps_of_choiceRemote hm h.refs (h.caching k u req choice hrun.1 hr hp) ?_ ?_)
      · rintro cache rfl
        exact h.stale k u cache hrun.1 hp
      · exact fun ⟨ho, hR, hC⟩ => hu (Task.orderedBy_iff.mpr ⟨req, hr, ho, hR, hC⟩)

structure OrderInv (R : RemoteId) (C : ConnId) (es : List (Event ρ)) (g : Gate ρ) : Prop where
  owned    : Owned g
  live     : g.rmgr.Live R C
  fresh    : ∀ i t, g.At i t → t.taken = false → t.pc = .start
  turn     : ∀ i j t s, g.At i t → g.At j s → t.orderedBy R C = true → s.orderedBy R C = true → i < j →
    s.taken = true → t.pc.Ended
  selects  : ∀ i t, g.At i t → t.orderedBy R C = true → t.pc.Selects g.rmgr R C
  called   : ∀ p ∈ calls es, ∃ t, g.At p.1 t ∧ t.pc.Ended ∧
    (t.orderedBy R C = true → ∃ r, g.rmgr.Chosen R C r ∧ p.2 = r.conn)
  inOrder  : InOrder R C es g
  answered : ∀ i t req, g.At i t → t.rpc = .route req → t.pc.Answered es i

theorem init_orderInv : OrderInv R C [] (init : Gate ρ) where
  owned    := init_owned
  live     := RemoteMgr.createRemoteMgr_live
  fresh    := by simp [init]
  turn     := by simp [init]
  selects  := by simp [init]
  called   := by simp [calls]
  inOrder  := .nil
  answered := by simp [init]

theorem Act.fresh (ha : Act cfg g e g') (h : ∀ i t, g.At i t → t.taken = false → t.pc = .start)
    (hi : g'.At i s) (hs : s.taken = false) : s.pc = .start := by
  obtain ⟨hi, _⟩ | ⟨_, _, _, _, rfl⟩ | ⟨_, _, hm⟩ := ha.taskStep.back hi
  · exact h i s hi hs
  · rfl
  · cases hs.symm.trans hm.taken

-- A task is taken, or was before.
theorem Act.taken_cases (ha : Act cfg g e g') (hj : g'.At j s) (hs : s.taken = true) :
    ∃ t, g.At j t ∧ t.orderedBy R C = s.orderedBy R C ∧ (t.taken = true ∨ e = .take j) := by
  obtain ⟨hj, _⟩ | ⟨_, _, _, _, rfl⟩ | ⟨t, ht, hm⟩ := ha.taskStep.back hj
  · exact ⟨s, hj, rfl, .inl hs⟩
  · cases hs
  refine ⟨t, ht, hm.orderedBy.symm, ?_⟩
  have hact := hm.actor
  cases ha <;> simp only [Event.actor, Option.some.injEq, reduceCtorEq] at hact <;> subst hact
  case take => exact .inr rfl
  all_goals
    rename g.Runs _ _ => hrun
    obtain rfl := At.unique hrun.1 ht
    exact .inl hrun.2

theorem Sequential.turn (hs : Sequential cfg R C g e g') (h : OrderInv R C es g) (hi : g'.At i t)
    (hj : g'.At j s) (ht : t.orderedBy R C = true) (hso : s.orderedBy R C = true) (hij : i < j)
    (htk : s.taken = true) : t.pc.Ended := by
  have ha := hs.step.act
  have ⟨s₀, hj₀, hs₀, htk₀⟩ := ha.taken_cases (R := R) (C := C) hj htk
  -- The earlier task was there before.
  have hl : i < g.tasks.length := hij.trans (List.getElem?_eq_some_iff.mp hj₀).1
  have hi₀ : g.At i g.tasks[i] := List.getElem?_eq_getElem hl
  have ⟨t', hi', hm⟩ := ha.taskStep.forth hi₀
  obtain rfl := hi.unique hi'
  have ho : g.tasks[i].orderedBy R C = true := by
    obtain rfl | hm := hm
    · exact ht
    · exact hm.orderedBy ▸ ht
  have hend : g.tasks[i].pc.Ended := by
    obtain htk₀ | he := htk₀
    · exact h.turn i j _ s₀ hi₀ hj₀ ho (hs₀.trans hso) hij htk₀
    · exact hs.inTurn j he ⟨s₀, hj₀, hs₀.trans hso⟩ i _ hij hi₀ ho
  have ⟨t'', hi'', hp, _⟩ := ha.ended hi₀ hend
  obtain rfl := hi.unique hi''
  exact hp ▸ hend

theorem Pc.selects_of_ended {pc : Pc} (h : pc.Ended) : pc.Selects m R C := by
  cases pc <;> trivial

theorem Pc.Selects.keeps {pc : Pc} (hk : RemoteMgr.Keeps m m' R C) (h : pc.Selects m R C) :
    pc.Selects m' R C := by
  cases pc
  case choosing                 => exact RemoteMgr.Keeps.choosing hk h
  case drawn | adding | sending => exact RemoteMgr.Keeps.chosen hk h
  all_goals trivial

-- A handler goes on with what it has chosen.
theorem Act.selects_cases (ha : Act cfg g e g') (hi : g'.At i s) (hne : e ≠ .choose i) :
    (∃ t, g.At i t ∧ t.orderedBy R C = s.orderedBy R C ∧
      ∀ m, t.pc.Selects m R C → s.pc.Selects m R C) ∨ ∀ m, s.pc.Selects m R C := by
  obtain ⟨hi', _⟩ | ⟨_, _, _, _, rfl⟩ | ⟨t, ht, hm⟩ := ha.taskStep.back hi
  · exact .inl ⟨s, hi', rfl, fun _ h => h⟩
  · exact .inr fun _ => trivial
  have ho := hm.orderedBy (R := R) (C := C)
  have hact := hm.actor
  cases ha <;> simp only [Event.actor, Option.some.injEq, reduceCtorEq] at hact <;> subst hact
  case choose => exact absurd rfl hne
  case take ht' _ =>
    obtain rfl := hi.moved ht' rfl
    obtain rfl := At.unique ht' ht
    exact .inl ⟨_, ht, rfl, fun _ h => h⟩
  all_goals
    rename g.Runs _ _ => hrun
    obtain rfl := hi.moved hrun.1 rfl
    obtain rfl := At.unique hrun.1 ht
  case noReply hp _ | genGid hp _ | register hp _ | added hp _ =>
    exact .inl ⟨_, ht, rfl, fun _ h => by rw [hp] at h; exact h⟩
  case refuse | notExist =>
    right
    intro m
    unfold rejected
    split <;> trivial
  all_goals exact .inr fun _ => trivial

-- The one choice that can change what is cached, in the state before it.
theorem OrderInv.of_choose (h : OrderInv R C es g) (ha : Act cfg g e g') (he : e = .choose i)
    (ho : g.OrderedBy R C i) :
    ∃ t choice next, g.Runs i t ∧ t.orderedBy R C = true ∧ t.pc = .choosing choice ∧
      g.rmgr.Choosing R C choice ∧ g.rmgr.choiceRemote R true C choice = (g'.rmgr, next) ∧
      g'.At i { t with pc := .choosing next } := by
  have ⟨t, ht, hto⟩ := ho
  have ⟨s, hs, _⟩ := ha.taskStep.forth ht
  obtain ⟨t', req, choice, next, hrun, hr, hp, hm, rfl⟩ := ha.of_choose he hs
  obtain rfl := At.unique hrun.1 ht
  obtain ⟨req', hr', ho', rfl, rfl⟩ := Task.orderedBy_iff.mp hto
  cases hr.symm.trans hr'
  have hc := h.selects i t' ht hto
  rw [hp] at hc
  exact ⟨t', choice, next, hrun, hto, hp, hc, ho' ▸ hm, hs⟩

theorem Sequential.live (hs : Sequential cfg R C g e g') (h : OrderInv R C es g) : g'.rmgr.Live R C := by
  obtain hk | ⟨k, he, ho⟩ := hs.keeps h.owned
  · have hm := hs.step.act.rmgrStep
    generalize g'.rmgr = m' at hk hm ⊢
    cases hm
    case idle               => exact h.live
    case close              => exact h.live.keeps hk rfl fun _ hc => hc
    case rmgr ev he hm      => exact h.live.step hm (hs.staying ev he)
    case choose hm          =>
      exact h.live.keeps hk (RemoteMgr.choiceRemote_remotes hm) fun _ =>
        (RemoteMgr.mem_lb_choiceRemote hm).mp
  · have ⟨_, _, _, _, _, _, hc, hm, _⟩ := h.of_choose hs.step.act he ho
    exact h.live.choiceRemote h.owned.refs hc hm

theorem Sequential.chosen (hs : Sequential cfg R C g e g') (h : OrderInv R C es g)
    (hc : g.rmgr.Chosen R C r) : g'.rmgr.Chosen R C r := by
  obtain hk | ⟨k, he, ho⟩ := hs.keeps h.owned
  · exact hk.chosen hc
  · have ⟨_, _, _, _, _, _, hch, hm, _⟩ := h.of_choose hs.step.act he ho
    exact hc.choiceRemote hch h.owned.refs hm

-- While one request of the client to the service is being handled, no other one is.
theorem OrderInv.rests (h : OrderInv R C es g) (hu : g.Runs k u) (huo : u.orderedBy R C = true)
    (hr : ¬u.pc.Ended) (hi : g.At i t) (hto : t.orderedBy R C = true) (hik : i ≠ k) :
    t.pc = .start ∨ t.pc.Ended := by
  obtain hlt | hlt := Nat.lt_or_gt_of_ne hik
  · exact .inr (h.turn i k t u hi hu.1 hto huo hlt hu.2)
  · cases htk : t.taken
    case false => exact .inl (h.fresh i t hi htk)
    case true  => exact absurd (h.turn k i u t hu.1 hi huo hto hlt htk) hr

theorem Sequential.selects (hs : Sequential cfg R C g e g') (h : OrderInv R C es g) (hi : g'.At i s)
    (hso : s.orderedBy R C = true) : s.pc.Selects g'.rmgr R C := by
  have ha := hs.step.act
  by_cases hne : e = .choose i
  case pos =>
    obtain ⟨t, _, _, _, hrun, _, _, _, rfl⟩ := ha.of_choose hne hi
    have ⟨u, choice, next, _, _, _, hc, hm, hu⟩ := h.of_choose ha hne ⟨t, hrun.1, hso⟩
    rw [hi.unique hu]
    exact hc.choiceRemote h.owned.refs h.live hm
  case neg =>
    obtain ⟨t, ht, hto, hsel⟩ | hsel := ha.selects_cases (R := R) (C := C) hi hne
    case inr => exact hsel _
    refine hsel _ ?_
    obtain hk | ⟨k, he, ho⟩ := hs.keeps h.owned
    · exact (h.selects i t ht (hto.trans hso)).keeps hk
    · have ⟨u, choice, _, hrun, huo, hp, _⟩ := h.of_choose ha he ho
      have hik : i ≠ k := fun hik => hne (hik ▸ he)
      obtain hst | hend := h.rests hrun huo (by simp [hp, Pc.Ended]) ht (hto.trans hso) hik
      · rw [hst]
        trivial
      · exact Pc.selects_of_ended hend

theorem calls_snoc : calls (es ++ [e]) = calls es ++ e.call.toList := by
  cases h : e.call <;> simp [calls, List.filterMap_append, h]

theorem Event.eq_send_of_call (h : e.call = some (i, conn)) :
    ∃ isOrdered grid innerRpc, e = .send i conn (.g2sRpcCall isOrdered grid innerRpc) := by
  unfold Event.call at h
  split at h <;> cases h
  exact ⟨_, _, _, rfl⟩

theorem Act.of_call (ha : Act cfg g e g') (he : e.call = some (i, conn)) :
    ∃ t r, g.Runs i t ∧ t.pc = .sending r ∧ conn = r.conn ∧ g'.At i { t with pc := .finished } := by
  obtain ⟨_, _, _, he⟩ := Event.eq_send_of_call he
  have ⟨t, hrun, ho, _, ht⟩ := ha.of_send he
  obtain ⟨_, _, _, _, _, hm⟩ | ⟨_, r, _, hp, hc, _⟩ | ⟨_, _, _, _, _, _, hm⟩ | ⟨_, _, _, _, _, _, hm⟩ :=
    Task.outgoing_cases ho <;> try cases hm
  exact ⟨t, r, hrun, hp, hc, ht⟩

theorem Sequential.called (hs : Sequential cfg R C g e g') (h : OrderInv R C es g) :
    ∀ p ∈ calls (es ++ [e]), ∃ t, g'.At p.1 t ∧ t.pc.Ended ∧
      (t.orderedBy R C = true → ∃ r, g'.rmgr.Chosen R C r ∧ p.2 = r.conn) := by
  intro ⟨i, conn⟩ hp
  rw [calls_snoc] at hp
  obtain hp | hp := List.mem_append.mp hp
  · have ⟨t, ht, hend, hc⟩ := h.called (i, conn) hp
    have ⟨t', ht', hpc, hr, hsrc, _⟩ := hs.step.act.ended ht hend
    refine ⟨t', ht', hpc ▸ hend, fun ho => ?_⟩
    have ⟨r, hr, hc⟩ := hc (by simpa only [Task.orderedBy_iff, Task.clientID, hr, hsrc] using ho)
    exact ⟨r, hs.chosen h hr, hc⟩
  · have ⟨t, r, hrun, hp, hc, ht⟩ := hs.step.act.of_call (Option.mem_toList.mp hp)
    refine ⟨_, ht, trivial, fun ho => ⟨r, hs.chosen h ?_, hc⟩⟩
    have hsel := h.selects i t hrun.1 ho
    rwa [hp] at hsel

theorem Act.orderedBy (ha : Act cfg g e g') (hi : g.At i t) (ho : g'.OrderedBy R C i) :
    t.orderedBy R C = true := by
  have ⟨s, hs, hso⟩ := ho
  have ⟨s', hs', hm⟩ := ha.taskStep.forth hi
  obtain rfl := hs.unique hs'
  obtain rfl | hm := hm
  · exact hso
  · exact hm.orderedBy ▸ hso

theorem Sequential.inOrder (hs : Sequential cfg R C g e g') (h : OrderInv R C es g) :
    InOrder R C (es ++ [e]) g' := by
  have ha := hs.step.act
  have hold : InOrder R C es g' := by
    refine List.Pairwise.imp_of_mem ?_ h.inOrder
    intro p q hp hq hpq hop hoq
    obtain ⟨t, ht, _⟩ := h.called p hp
    obtain ⟨t', ht', _⟩ := h.called q hq
    exact hpq ⟨t, ht, ha.orderedBy ht hop⟩ ⟨t', ht', ha.orderedBy ht' hoq⟩
  rw [InOrder, calls_snoc]
  refine List.pairwise_append.mpr ⟨hold, ?_, ?_⟩
  case refine_1 => cases e.call <;> simp
  case refine_2 =>
    rintro p hp ⟨i, conn⟩ hq hop hoq
    obtain ⟨u, r, hrun, hpc, rfl, _⟩ := ha.of_call (Option.mem_toList.mp hq)
    have huo := ha.orderedBy hrun.1 hoq
    obtain ⟨t, ht, hend, hc⟩ := h.called p hp
    have hto := ha.orderedBy ht hop
    have hrunning : ¬u.pc.Ended := by simp [hpc, Pc.Ended]
    constructor
    case left =>
      -- The request of the earlier call has been handled, the other one is being handled.
      obtain hlt | heq | hgt := Nat.lt_trichotomy p.1 i
      · exact hlt
      · subst heq
        obtain rfl := At.unique hrun.1 ht
        exact absurd hend hrunning
      · cases htk : t.taken
        case false =>
          rw [h.fresh _ t ht htk] at hend
          exact hend.elim
        case true => exact absurd (h.turn i p.1 u t hrun.1 ht huo hto hgt htk) hrunning
    case right =>
      obtain ⟨r', hr', hconn⟩ := hc hto
      have hr := h.selects i u hrun.1 huo
      rw [hpc] at hr
      rw [hconn, hr'.unique hr]

theorem Pc.Answered.snoc {pc : Pc} (h : pc.Answered es i) : pc.Answered (es ++ [e]) i := by
  cases pc
  case refused | finished =>
    obtain ⟨conn, hc⟩ | ⟨err, he⟩ := h
    · exact .inl ⟨conn, by rw [calls_snoc]; exact List.mem_append_left _ hc⟩
    · exact .inr ⟨err, List.mem_append_left _ he⟩
  all_goals exact h

theorem Act.answered (ha : Act cfg g e g')
    (h : ∀ i t req, g.At i t → t.rpc = .route req → t.pc.Answered es i) (hi : g'.At i s)
    (hr : s.rpc = .route req) : s.pc.Answered (es ++ [e]) i := by
  obtain ⟨hi', _⟩ | ⟨_, _, _, _, rfl⟩ | ⟨t, ht, hm⟩ := ha.taskStep.back hi
  · exact (h i s req hi' hr).snoc
  · trivial
  have hold := h i t req ht (hm.rpc ▸ hr)
  have hact := hm.actor
  cases ha <;> simp only [Event.actor, Option.some.injEq, reduceCtorEq] at hact <;> subst hact
  case take ht' _ =>
    obtain rfl := hi.moved ht' rfl
    obtain rfl := At.unique ht' ht
    exact hold.snoc
  all_goals
    rename g.Runs _ _ => hrun
    obtain rfl := hi.moved hrun.1 rfl
    obtain rfl := At.unique hrun.1 ht
  case check | choose | noReply | genGid | register | added | tooLong | outOfRange => trivial
  case refuse | notExist =>
    unfold rejected
    split <;> exact .inr ⟨_, List.mem_append_right _ (List.mem_singleton.mpr rfl)⟩
  case send ho _ =>
    obtain ⟨_, _, _, hp, _⟩ | ⟨_, r, _, _, hc, rfl⟩ | ⟨_, _, _, _, hr', _⟩ | ⟨_, _, _, _, hr', _⟩ :=
      Task.outgoing_cases ho
    · rw [hp] at hold
      exact hold.snoc
    · exact .inl ⟨_, by rw [calls_snoc]; exact List.mem_append_right _ (List.mem_singleton.mpr rfl)⟩
    all_goals cases hr'.symm.trans hr
  case getNil hc _ _ | get hc _ _ =>
    rw [show Task.rpc _ = _ from hr] at hc
    cases hc
  case client hp _ | noClient hp _ | remote hp _ | noRemote hp _ =>
    rw [hp] at hold
    exact hold.elim
  case deleted hr' _ _ | wrongType hr' _ _ | push hr' _ _ | noPush hr' _ _ | report hr' _ | other hr' _ =>
    cases hr'.symm.trans hr

theorem Sequential.orderInv (hs : Sequential cfg R C g e g') (h : OrderInv R C es g) :
    OrderInv R C (es ++ [e]) g' where
  owned              := hs.step.act.owned h.owned
  live               := hs.live h
  fresh _ _          := hs.step.act.fresh h.fresh
  turn _ _ _ _       := hs.turn h
  selects _ _        := hs.selects h
  called             := hs.called h
  inOrder            := hs.inOrder h
  answered _ _ _ hi hr := hs.step.act.answered h.answered hi hr

-- The conditions on a step as a test.
def steady (R : RemoteId) (C : ConnId) (g : Gate ρ) : Event ρ → Bool
  | .rmgr (.onRemoteDisappear _ connID) => (g.rmgr.remotes connID).all (·.id ≠ R)
  | .close connID                       => connID ≠ C
  | _                                   => true

def sequential (R : RemoteId) (C : ConnId) (g : Gate ρ) : Event ρ → Bool
  | .take j =>
    (g.tasks[j]?.all fun t => !t.orderedBy R C) ||
      (g.tasks.take j).all fun t => !t.orderedBy R C || t.pc.Ended
  | e       => g.steady R C e

theorem steady_of_test (hs : Step cfg g e g') (h : g.steady R C e = true) :
    Steady cfg R g e g' ∧ e ≠ .close C := by
  refine ⟨⟨hs, ?_⟩, ?_⟩
  · rintro ev rfl
    cases ev
    case connectRemote => trivial
    case onRemoteDisappear id a =>
      intro r hr
      simpa [steady, hr] using h
  · rintro rfl
    simp [steady] at h

theorem sequential_of_test (h : Step cfg g e g' ∧ g.sequential R C e = true) :
    Sequential cfg R C g e g' := by
  obtain ⟨hs, h⟩ := h
  have hst : g.steady R C e = true := by
    cases e <;> first | exact h | rfl
  have ⟨hsteady, hc⟩ := steady_of_test hs hst
  refine ⟨hsteady, hc, ?_⟩
  rintro j rfl ⟨s, hj, hso⟩ i t hij hi hto
  have hj : g.tasks[j]? = some s := hj
  simp only [sequential, hj, hso, Option.all_some, Bool.not_true, Bool.false_or, List.all_eq_true,
    Bool.or_eq_true, Bool.not_eq_true', decide_eq_true_eq] at h
  have hm : t ∈ g.tasks.take j := List.mem_of_getElem? ((List.getElem?_take_of_lt hij).trans hi)
  exact (h t hm).resolve_left (by simp [hto])

-- A service has two instances, and two ordered requests of a client for it arrive.
def twoRequests : List (Turn Unit) :=
  [.rmgr (.connectRemote "n" "s" "i" 1 ⟨1, "i:1"⟩), .rmgr (.connectRemote "n" "s" "i" 2 ⟨2, "i:2"⟩),
    .frame (.tcpClient ⟨0, "c"⟩) (.route ⟨"n", "s", 0, true, Config.innerRpc "f"⟩),
    .frame (.tcpClient ⟨0, "c"⟩) (.route ⟨"n", "s", 0, true, Config.innerRpc "f"⟩)]

-- With one request of a client to a service at a time, all of them go to one instance and in order,
-- and each that is done was sent on or rejected.
theorem ordered_calls_in_order (h : Exec (Sequential cfg R C) init es g) :
    InOrder R C es g ∧
    ∀ i t, g.At i t → t.orderedBy R C = true → t.pc = .finished →
      (∃ conn, (i, conn) ∈ calls es) ∨ ∃ err, .reject i err ∈ es := by
  have h := h.invariant (I := OrderInv R C) init_orderInv fun _ _ _ _ _ hi hs => hs.orderInv hi
  refine ⟨h.inOrder, fun i t hi ho hp => ?_⟩
  have ⟨req, hr, _⟩ := Task.orderedBy_iff.mp ho
  have ha := h.answered i t req hi hr
  rwa [hp] at ha

-- Two requests one after the other, with two instances to choose from.
theorem ordered_calls_of_two_requests :
    ∃ (cfg : Config Unit) (es : List (Event Unit)) (g : Gate Unit),
      Exec (Sequential cfg "n:s" "c") init es g ∧ InOrder "n:s" "c" es g ∧
      ∃ conn, calls es = [(0, conn), (1, conn)] ∧ g.OrderedBy "n:s" "c" 0 ∧ g.OrderedBy "n:s" "c" 1 := by
  let cfg := Config.msgpack .serviceGate
  let xs : List (Turn Unit) :=
    twoRequests ++ List.replicate 11 (.task 0) ++ List.replicate 5 (.task 1)
  have hr : ((replay cfg (sequential "n:s" "c") 0 xs init).any fun (es, g) =>
      calls es = [(0, ⟨1, "i:1"⟩), (1, ⟨1, "i:1"⟩)] && (g.tasks.length = 2) &&
      g.tasks.all (Task.orderedBy "n:s" "c")) = true := by
    decide +kernel
  simp only [Option.any_eq_true, Bool.and_eq_true, decide_eq_true_eq, Prod.exists, List.all_eq_true] at hr
  obtain ⟨es, g, hx, ⟨hc, hl⟩, ho⟩ := hr
  have hx : Exec (Sequential cfg "n:s" "c") init es g :=
    (exec_of_replay xs hx).mono fun _ _ _ => sequential_of_test
  have ho : ∀ i, i < 2 → g.OrderedBy "n:s" "c" i := fun i hi =>
    ⟨_, List.getElem?_eq_getElem (hl ▸ hi), ho _ (List.getElem_mem _)⟩
  have ⟨h, _⟩ := ordered_calls_in_order hx
  exact ⟨cfg, es, g, hx, h, _, hc, ho 0 (by decide), ho 1 (by decide)⟩

-- Two workers look into the ordered cache before either of them has chosen an instance. The second
-- request overtakes the first one, and goes to another instance.
theorem ordered_calls_overtake :
    ∃ (cfg : Config Unit) (es : List (Event Unit)) (g : Gate Unit),
      Exec (fun g e g' => Steady cfg "n:s" g e g' ∧ e ≠ .close "c") init es g ∧
      calls es = [(1, ⟨1, "i:1"⟩), (0, ⟨2, "i:2"⟩)] ∧ ¬InOrder "n:s" "c" es g := by
  let cfg := Config.msgpack .serviceGate
  let xs : List (Turn Unit) :=
    twoRequests ++ List.replicate 3 (.task 0) ++ List.replicate 11 (.task 1) ++
    List.replicate 8 (.task 0)
  have hr : ((replay cfg (steady "n:s" "c") 0 xs init).any fun (es, g) =>
      calls es = [(1, ⟨1, "i:1"⟩), (0, ⟨2, "i:2"⟩)] && (g.tasks.length = 2) &&
      g.tasks.all (Task.orderedBy "n:s" "c")) = true := by
    decide +kernel
  simp only [Option.any_eq_true, Bool.and_eq_true, decide_eq_true_eq, Prod.exists, List.all_eq_true] at hr
  obtain ⟨es, g, hx, ⟨hc, hl⟩, ho⟩ := hr
  refine ⟨cfg, es, g, (exec_of_replay xs hx).mono fun _ _ _ h => steady_of_test h.1 h.2, hc, fun h => ?_⟩
  have ho : ∀ i, i < 2 → g.OrderedBy "n:s" "c" i := fun i hi =>
    ⟨_, List.getElem?_eq_getElem (hl ▸ hi), ho _ (List.getElem_mem _)⟩
  rw [InOrder, hc] at h
  have hlt := ((List.pairwise_cons.mp h).1 _ (List.mem_singleton.mpr rfl) (ho 1 (by decide))
    (ho 0 (by decide))).1
  exact absurd hlt (by decide)

end Gate
