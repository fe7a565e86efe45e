import Microservice.Gate.Theorems.Correlation
import Microservice.Gate.Theorems.Ordered

namespace Gate

section

variable {ρ : Type*}

-- There is a client or a remote with the id.
def Present (g : Gate ρ) (connID : ConnId) : Prop :=
  g.clients connID ≠ none ∨ g.rmgr.remotes connID ≠ none

def Known (g : Gate ρ) : Prop :=
  ∀ connID, g.rmgr.orderedCache connID ≠ none → g.Present connID

-- `UpdateRemoteOrderCache` is called for a connection that is still there, a remote that disappears is not
-- remembered, and no connection is accepted under an id that is in use.
def Attended (g : Gate ρ) : Event ρ → Prop
  | .choose i                           =>
    ∀ t c r, g.At i t → t.pc = .choosing (.update c r) → g.Registered t.src
  | .rmgr (.onRemoteDisappear _ connID) => g.rmgr.orderedCache connID = none ∨ g.clients connID ≠ none
  | .accept conn                        => ¬g.Present (getConnID conn)
  | _                                   => True

-- What a step leaves in the order cache: it is of present clients and remotes, a client that has just
-- been accepted has nothing in it, and what is new in it is from a request of the very connection that
-- is registered under its id.
structure Remembers (g : Gate ρ) (e : Event ρ) (g' : Gate ρ) : Prop where
  known : g'.Known
  fresh : ∀ conn, e = .accept conn → g'.rmgr.orderedCache (getConnID conn) = none
  own   : ∀ remoteID clientID c, g'.rmgr.cached remoteID clientID = some c →
    g.rmgr.cached remoteID clientID ≠ some c →
    ∃ i t, e = .choose i ∧ g.At i t ∧ t.clientID = clientID ∧ g.Registered t.src

end

variable {ρ : Type*} {cfg : Config ρ} {g g' : Gate ρ} {e : Event ρ} {es : List (Event ρ)}
variable {t : Task ρ} {R : RemoteId} {C c connID : ConnId} {m m' : RemoteMgr}

theorem Registered.present (h : g.Registered t.src) : g.Present t.clientID := by
  unfold Task.clientID
  cases hs : t.src <;> rw [hs] at h
  case tcpClient conn => exact .inl (by simp [Source.conn, h.symm ▸ Option.some_ne_none conn])
  case remote r =>
    obtain ⟨r', hr, _⟩ := h
    exact .inr (by simp [Source.conn, hr])

theorem mem_updateRemoteOrderCache
    (h : (m.updateRemoteOrderCache R C c).orderedCache connID ≠ none) :
    connID = C ∨ m.orderedCache connID ≠ none := by
  unfold RemoteMgr.updateRemoteOrderCache at h
  split at h
  case h_1 => exact .inr h
  case h_2 =>
    by_cases hc : connID = C
    case pos => exact .inl hc
    case neg => exact .inr ((Partial.insert_of_ne hc).symm.trans_ne h)

-- A key that is new in the order cache is the id of the client that the choice is made for.
theorem mem_choiceRemote {choice choice' : RemoteMgr.Choice} {isOrdered : Bool}
    (h : m.choiceRemote R isOrdered C choice = (m', choice')) (hk : m'.orderedCache connID ≠ none) :
    m.orderedCache connID ≠ none ∨ connID = C ∧ ∃ c r, choice = .update c r := by
  obtain ⟨_, _, rfl⟩ | ⟨c, r, hc, rfl⟩ | ⟨ho, _⟩ := RemoteMgr.choiceRemote_caches h
  · exact .inl hk
  · obtain rfl | hk := mem_updateRemoteOrderCache hk
    · exact .inr ⟨rfl, c, r, hc⟩
    · exact .inl hk
  · exact .inl (ho ▸ hk)

theorem Known.accept {conn : Conn} (h : g.Known) :
    Known { g with clients := g.clients.insert (getConnID conn) conn } := by
  intro connID hk
  refine (h connID hk).imp_left fun hc => ?_
  by_cases he : connID = getConnID conn <;> simp [Partial.insert_apply, he, hc]

theorem Known.close (h : g.Known) :
    Known { g with clients := g.clients.erase c, rmgr := g.rmgr.delRemoteOrderCache c } := by
  intro connID hk
  have hne : connID ≠ c := by
    rintro rfl
    exact hk Partial.erase_self
  have hk : g.rmgr.orderedCache connID ≠ none := (Partial.erase_of_ne hne).symm.trans_ne hk
  exact (h connID hk).imp_left (Partial.erase_of_ne hne).trans_ne

theorem Known.rmgr {ev : RemoteMgr.Event} (h : g.Known) (hm : g.rmgr.step ev = some m)
    (ha : g.Attended (.rmgr ev)) : Known { g with rmgr := m } := by
  intro connID hk
  rw [(RemoteMgr.caches_of_step hm).1] at hk
  cases RemoteMgr.effect_of_step hm
  case idle | balancer => exact h connID hk
  case connect a r _ _ _ _ =>
    refine (h connID hk).imp_right fun hr => ?_
    by_cases he : connID = a <;> simp [Partial.insert_apply, he, hr]
  case disappear a _ he _ =>
    subst he
    by_cases he : connID = a
    case pos =>
      subst he
      exact .inl (ha.resolve_left hk)
    case neg => exact (h connID hk).imp_right (Partial.erase_of_ne he).trans_ne

theorem Act.known (ha : Act cfg g e g') (h : g.Known) (hat : g.Attended e) : g'.Known := by
  cases ha
  case accept  => exact h.accept
  case close   => exact h.close
  case rmgr hm => exact h.rmgr hm hat
  case choose hr hp _ hrun hm =>
    intro connID hk
    have hpres : g.Present connID := by
      obtain hk | ⟨rfl, c, r, rfl⟩ := mem_choiceRemote hm hk
      · exact h connID hk
      · exact (hat _ c r hrun.1 hp).present
    exact hpres.imp_right (congrFun (RemoteMgr.choiceRemote_remotes hm) connID).trans_ne
  all_goals exact h

-- Only `UpdateRemoteOrderCache` puts something into the order cache.
theorem RmgrStep.cached_cases (h : RmgrStep g e m) (hf : g.rmgr.Refs) (hc : m.cached R C = some c)
    (hn : g.rmgr.cached R C ≠ some c) :
    ∃ i t c r, e = .choose i ∧ g.At i t ∧ t.clientID = C ∧ t.pc = .choosing (.update c r) := by
  cases h
  case idle => exact absurd hc hn
  case close c' he =>
    by_cases hC : C = c'
    case pos => simp [RemoteMgr.cached, RemoteMgr.delRemoteOrderCache, hC] at hc
    case neg => exact absurd (RemoteMgr.cached_delRemoteOrderCache hC ▸ hc) hn
  case rmgr hm =>
    obtain ⟨ho, hca, _⟩ := RemoteMgr.caches_of_step hm
    exact absurd (by simpa [RemoteMgr.cached, ho, hca] using hc) hn
  case choose k u req choice next he hrun _ hp hm =>
    obtain ⟨cache, _, rfl⟩ | ⟨c', r, rfl, rfl⟩ | ⟨ho, hca, _⟩ := RemoteMgr.choiceRemote_caches hm
    · -- What is left in the cache was there before.
      obtain ⟨cache', hC, hR⟩ := Option.bind_eq_some_iff.mp hc
      refine absurd (Option.bind_eq_some_iff.mpr ⟨cache', hC, ?_⟩) hn
      by_cases hcache : cache' = cache
      case pos =>
        subst hcache
        simp only [RemoteMgr.dropStale, RemoteMgr.setCache, Function.update_self] at hR
        exact (Partial.erase_eq_some_iff.mp hR).2
      case neg => simpa [RemoteMgr.dropStale, RemoteMgr.setCache, Function.update_of_ne hcache] using hR
    · rw [RemoteMgr.cached_updateRemoteOrderCache hf] at hc
      split at hc
      case isTrue hRC => exact ⟨k, u, c', r, he, hrun.1, hRC.2.symm, hp⟩
      case isFalse    => exact absurd hc hn
    · exact absurd (by simpa [RemoteMgr.cached, ho, hca] using hc) hn

theorem Act.remembers (ha : Act cfg g e g') (h : g.Known) (hf : g.rmgr.Refs) (hat : g.Attended e) :
    Remembers g e g' where
  known := ha.known h hat
  fresh := by
    rintro conn rfl
    cases ha
    exact by_contra fun hk => hat (h _ hk)
  own := by
    intro R C c hc hn
    obtain ⟨i, t, c', r, rfl, ht, hC, hp⟩ := ha.rmgrStep.cached_cases hf hc hn
    exact ⟨i, t, rfl, ht, hC, hat t c' r ht hp⟩

-- A test for the condition, where the requests are of clients and no remote disappears.
def attended (g : Gate ρ) : Event ρ → Bool
  | .choose i                     => g.tasks[i]?.all fun t =>
    match t.src with
    | .tcpClient conn => g.clients (getConnID conn) = some conn
    | .remote _       => false
  | .rmgr (.onRemoteDisappear ..) => false
  | .accept conn                  =>
    (g.clients (getConnID conn)).isNone && (g.rmgr.remotes (getConnID conn)).isNone
  | _                             => true

theorem attended_of_test (h : g.attended e = true) : g.Attended e := by
  cases e <;> try trivial
  case accept conn =>
    simp only [attended, Bool.and_eq_true, Option.isNone_iff_eq_none] at h
    simp [Attended, Present, h]
  case rmgr ev => cases ev <;> [trivial; cases h]
  case choose i =>
    intro t c r ht _
    have ht : g.tasks[i]? = some t := ht
    simp only [attended, ht, Option.all_some] at h
    split at h
    case h_1 conn hs => simpa [hs, Registered] using h
    case h_2         => cases h

-- A client is accepted and sends an ordered request.
def orderedRequest : List (Turn Unit) :=
  [.rmgr (.connectRemote "n" "s" "i" 1 ⟨1, "i:1"⟩), .accept ⟨0, "c"⟩,
    .frame (.tcpClient ⟨0, "c"⟩) (.route ⟨"n", "s", 0, true, Config.innerRpc "f"⟩)]

-- In a run of such steps the order cache only remembers who is there, at any time, and what it remembers
-- of a client is from the client itself.
theorem order_cache_remembers_present
    (h : Exec (fun g e g' => Step cfg g e g' ∧ g.Attended e) init es g) :
    g.Known ∧ ∀ e g', Step cfg g e g' → g.Attended e → Remembers g e g' := by
  have hinv : g.Known ∧ Owned g := by
    have hinit : (init : Gate ρ).Known := by simp [Known, init, RemoteMgr.createRemoteMgr]
    refine h.preserves (I := fun g => g.Known ∧ Owned g) ⟨hinit, init_owned⟩ ?_
    rintro g e g' ⟨hk, ho⟩ ⟨hs, ha⟩
    exact ⟨hs.act.known hk ha, hs.act.owned ho⟩
  exact ⟨hinv.1, fun e g' hs ha => hs.act.remembers hinv.1 hinv.2.refs ha⟩

-- An ordered request of a client is remembered until the client closes the connection.
theorem order_cache_remembers_client :
    ∃ (cfg : Config Unit) (es : List (Event Unit)) (g g' : Gate Unit),
      Exec (fun g e g' => Step cfg g e g' ∧ g.Attended e) init es g ∧
      g.rmgr.cached "n:s" "c" = some "i:1" ∧ g.Present "c" ∧
      Step cfg g (.close "c") g' ∧ g'.rmgr.orderedCache "c" = none ∧ Remembers g (.close "c") g' := by
  let cfg := Config.msgpack .serviceGate
  let xs : List (Turn Unit) := orderedRequest ++ List.replicate 11 (.task 0)
  have hr : ((replay cfg attended 0 xs init).any fun (_, g) =>
      g.alive && g.rmgr.cached "n:s" "c" = some "i:1") = true := by
    decide +kernel
  simp only [Option.any_eq_true, Bool.and_eq_true, decide_eq_true_eq, Prod.exists] at hr
  obtain ⟨es, g, hx, hal, hc⟩ := hr
  have hx := (exec_of_replay xs hx).mono fun _ _ _ h => And.imp_right attended_of_test h
  obtain ⟨hk, hstep⟩ := order_cache_remembers_present hx
  have hkey : g.rmgr.orderedCache "c" ≠ none := by
    intro hn
    simp [RemoteMgr.cached, hn] at hc
  have hs : Step cfg g (.close "c") _ := ⟨hal, .close⟩
  have hgone : g.rmgr.orderedCache.erase "c" "c" = none := Partial.erase_self
  exact ⟨cfg, es, g, _, hx, hc, hk "c" hkey, hs, hgone, hstep _ _ hs trivial⟩

-- A client closes the connection while its ordered request is still in the pool. The handler remembers
-- the instance it has chosen for a client that is gone, and the next client from the same port inherits
-- it.
theorem order_cache_outlives_client :
    ∃ (cfg : Config Unit) (es : List (Event Unit)) (g g' : Gate Unit),
      Exec (Step cfg) init es g ∧ (∀ t ∈ g.tasks, t.pc.Ended) ∧
      g.rmgr.orderedCache "c" ≠ none ∧ ¬g.Present "c" ∧
      Step cfg g (.accept ⟨2, "c"⟩) g' ∧ g'.clients "c" = some ⟨2, "c"⟩ ∧
      g'.rmgr.cached "n:s" "c" = some "i:1" := by
  let cfg := Config.msgpack .serviceGate
  let xs : List (Turn Unit) := orderedRequest ++ .close "c" :: List.replicate 11 (.task 0)
  have hr : ((replay cfg (fun _ _ => true) 0 xs init).any fun (_, g) =>
      g.alive && (g.tasks.all fun t => t.pc.Ended) && (g.rmgr.orderedCache "c").isSome &&
      (g.clients "c").isNone && (g.rmgr.remotes "c").isNone &&
      g.rmgr.cached "n:s" "c" = some "i:1") = true := by
    decide +kernel
  simp only [Option.any_eq_true, Bool.and_eq_true, decide_eq_true_eq, Prod.exists, List.all_eq_true,
    Option.isNone_iff_eq_none] at hr
  obtain ⟨es, g, hx, ⟨⟨⟨⟨hal, hend⟩, hkey⟩, hcl⟩, hrem⟩, hc⟩ := hr
  have hnew : g.clients.insert "c" ⟨2, "c"⟩ "c" = some ⟨2, "c"⟩ := Partial.insert_self
  exact ⟨cfg, es, g, _, (exec_of_replay xs hx).mono fun _ _ _ h => h.1, hend,
    Option.isSome_iff_ne_none.mp hkey, by simp [Present, hcl, hrem], ⟨hal, .accept⟩, hnew, hc⟩

end Gate
