import Microservice.Gate.Replay
import Microservice.Gate.Theorems.Drawn
import Microservice.Framework.Theorems.Consumed

namespace Gate

open CallbackMgr (added taken expired)

section

variable {ρ : Type*}

-- The callback that a response handler has found.
def Pc.info : Pc → Option RouteCbInfo
  | .deleting info _ | .client info | .remote info => some info
  | _                                              => none

def Event.takes (cbid : UInt32) : Event ρ → Option Nat
  | .get i c (some _) => if c = cbid then some i else none
  | _                 => none

-- The handlers that have found the callback of an id.
def takers (cbid : UInt32) (es : List (Event ρ)) : List Nat :=
  es.filterMap (Event.takes cbid)

end

variable {ρ : Type*} {cfg : Config ρ} {g g' : Gate ρ} {e : Event ρ} {es : List (Event ρ)}
variable {i j : Nat} {t t' s : Task ρ}

-- An id was generated for a request with the id `rid` that was made over `conn`.
def Made (g : Gate ρ) (grid rid : UInt32) (conn : Conn) : Prop :=
  grid ≠ 0 ∧ ∃ i t req, g.At i t ∧ t.grid = grid ∧ t.rpc = .route req ∧ req.rid = rid ∧ t.src.conn = conn

-- The callback is the one of the request its id was generated for.
def Fits (g : Gate ρ) (grid : UInt32) (info : RouteCbInfo) : Prop :=
  ∃ conn, g.Made grid info.rid conn ∧ info.connID = getConnID conn

theorem Act.of_register (ha : Act cfg g e g') (he : e = .register i grid info endTime) :
    ∃ t req r, g.At i t ∧ t.rpc = .route req ∧ t.pc = .drawn r ∧ t.grid = grid ∧
      info = ⟨req.rid, t.clientID⟩ := by
  cases ha <;> cases he
  case register hrpc hp hi hinfo => exact ⟨_, _, _, hi.1, hrpc, hp, rfl, hinfo⟩

theorem Act.made (ha : Act cfg g e g') (h : Drawn es g) (hm : g.Made grid rid conn) :
    g'.Made grid rid conn := by
  obtain ⟨hn, i, t, req, hi, rfl, hrpc, hrid, hconn⟩ := hm
  have ⟨t', hi', ht⟩ := ha.taskStep.forth hi
  obtain rfl | ht := ht
  · exact ⟨hn, i, t', req, hi', rfl, hrpc, hrid, hconn⟩
  · refine ⟨hn, i, t', req, hi', ht.grid.resolve_right ?_, ht.rpc.trans hrpc, hrid, ht.src ▸ hconn⟩
    -- A task that draws an id has none yet.
    intro he
    have ⟨s, _, hs, hp⟩ := ha.pc_of_genGid he
    obtain rfl := hs.unique hi
    exact hn (by simpa [Phase, hp] using h.phase i s hi)

theorem Act.fits (ha : Act cfg g e g') (h : Drawn es g) (hf : g.Fits grid info) : g'.Fits grid info :=
  have ⟨conn, hm, hc⟩ := hf
  ⟨conn, ha.made h hm, hc⟩

-- Callbacks come into the map by registration only.
theorem Act.gCbMap (ha : Act cfg g e g') (hn : g'.cb.gCbMap grid = some (info, node)) :
    g.cb.gCbMap grid = some (info, node) ∨ ∃ i endTime, e = .register i grid info endTime := by
  cases ha
  case register now _ _ hinfo _ =>
    obtain ⟨rfl, he⟩ | ⟨_, hn⟩ := Partial.insert_eq_some_iff.mp hn
    · obtain ⟨rfl, _⟩ := Prod.mk.inj he
      exact .inr ⟨_, _, rfl⟩
    · exact .inl hn
  case get hg =>
    simp only [CallbackMgr.getCallBack_of_some hg] at hn
    exact .inl (Partial.erase_eq_some_iff.mp hn).2
  case added hm | deleted hm | wrongType hm => exact .inl (hm.gCbMap hn)
  case mgr _ _ hm => exact .inl (hm.gCbMap hn)
  all_goals exact .inl hn

theorem info_rejected : (rejected req err).info = none := by
  unfold rejected
  split <;> rfl

-- A response handler has its callback from the map.
theorem Act.info_cases (ha : Act cfg g e g') (hj : g'.At j s) (hinfo : s.pc.info = some info) :
    (∃ t, g.At j t ∧ t.rpc = s.rpc ∧ t.pc.info = some info) ∨
    ∃ cbid node, e = .get j cbid (some info) ∧ s.rpc.cbid = some cbid ∧
      g.cb.gCbMap cbid = some (info, node) := by
  obtain ⟨hj', _⟩ | ⟨_, _, _, _, rfl⟩ | ⟨t, ht, hm⟩ := ha.taskStep.back hj
  · exact .inl ⟨s, hj', rfl, hinfo⟩
  · simp [Task.new, Pc.info] at hinfo
  have hact := hm.actor
  cases ha <;> simp only [Event.actor, Option.some.injEq, reduceCtorEq] at hact <;> subst hact
  case take hi _ =>
    obtain rfl := hj.moved hi rfl
    exact .inl ⟨_, hi, rfl, hinfo⟩
  all_goals
    rename g.Runs _ _ => hi
    obtain rfl := hj.moved hi.1 rfl
  case get hc _ hg =>
    obtain rfl : _ = info := by simpa [Pc.info] using hinfo
    exact .inr ⟨_, _, rfl, hc, hg⟩
  case deleted hp _ | noClient hp _ => exact .inl ⟨_, hi.1, rfl, by simpa [hp, Pc.info] using hinfo⟩
  case refuse | notExist => simp [info_rejected] at hinfo
  all_goals simp [Pc.info] at hinfo

-- A connection that is looked up by its id.
def Finds (g : Gate ρ) (connID : ConnId) (conn : Conn) : Prop :=
  g.clients connID = some conn ∨ ∃ r, g.rmgr.remotes connID = some r ∧ r.conn = conn

theorem Act.responding_cases (ha : Act cfg g e g') (hj : g'.At j s) (hp : s.pc = .responding rid conn) :
    (∃ t, g.At j t ∧ t.rpc = s.rpc ∧ t.pc = .responding rid conn) ∨
    ∃ t info, g.At j t ∧ t.rpc = s.rpc ∧ t.pc.info = some info ∧ info.rid = rid ∧
      g.Finds info.connID conn := by
  obtain ⟨hj', _⟩ | ⟨_, _, _, _, rfl⟩ | ⟨t, ht, hm⟩ := ha.taskStep.back hj
  · exact .inl ⟨s, hj', rfl, hp⟩
  · simp [Task.new] at hp
  have hact := hm.actor
  cases ha <;> simp only [Event.actor, Option.some.injEq, reduceCtorEq] at hact <;> subst hact
  case take hi _ =>
    obtain rfl := hj.moved hi rfl
    exact .inl ⟨_, hi, rfl, hp⟩
  all_goals
    rename g.Runs _ _ => hi
    obtain rfl := hj.moved hi.1 rfl
  case client hpc hc =>
    obtain ⟨rfl, rfl⟩ := by simpa using hp
    exact .inr ⟨_, _, hi.1, rfl, by simp [hpc, Pc.info], rfl, .inl hc⟩
  case remote hpc hr =>
    obtain ⟨rfl, rfl⟩ := by simpa using hp
    exact .inr ⟨_, _, hi.1, rfl, by simp [hpc, Pc.info], rfl, .inr ⟨_, hr, rfl⟩⟩
  case refuse | notExist =>
    unfold rejected at hp
    split at hp <;> cases hp
  all_goals cases hp

-- The callback of an id is waiting for its response, or the response is being handled.
def Live (g : Gate ρ) (grid : UInt32) : Prop :=
  (g.cb.gCbMap grid).isSome ∨ ∃ s ∈ g.tasks, s.rpc.cbid = some grid ∧ s.pc.info.isSome

-- No connection has the id of another one that has a live callback.
def NoReuse (g : Gate ρ) : Prop :=
  ∀ t ∈ g.tasks, t.grid ≠ 0 → g.Live t.grid →
    (∀ conn ∈ g.clients t.clientID, conn = t.src.conn) ∧
    ∀ r ∈ g.rmgr.remotes t.clientID, r.conn = t.src.conn

-- Each callback belongs to the request its id was generated for, wherever it is.
structure Carried (g : Gate ρ) : Prop where
  entry : ∀ grid info node, g.cb.gCbMap grid = some (info, node) → g.Fits grid info
  held  : ∀ j s grid error reply info, g.At j s → s.rpc = .rsp grid error reply →
    s.pc.info = some info → g.Fits grid info
  found : ∀ j s grid error reply rid conn, g.At j s → s.rpc = .rsp grid error reply →
    s.pc = .responding rid conn → g.Made grid rid conn

theorem Act.carried (ha : Act cfg g e g') (hd : Drawn es g) (hu : g.NoReuse) (h : Carried g) :
    Carried g' where
  entry grid info node hn := by
    obtain hn | ⟨i, endTime, rfl⟩ := ha.gCbMap hn
    · exact ha.fits hd (h.entry grid info node hn)
    · obtain ⟨t, req, r, hi, hrpc, hp, rfl, rfl⟩ := ha.of_register rfl
      have hph := hd.phase i t hi
      simp only [Phase, hp] at hph
      exact ha.fits hd ⟨t.src.conn, ⟨hph.1, i, t, req, hi, rfl, hrpc, rfl, rfl⟩, rfl⟩
  held j s grid error reply info hj hrpc hinfo := by
    obtain ⟨t, ht, hr, hp⟩ | ⟨cbid, node, _, hc, hn⟩ := ha.info_cases hj hinfo
    · exact ha.fits hd (h.held j t grid error reply info ht (hr.trans hrpc) hp)
    · obtain rfl : grid = cbid := by simpa [hrpc, Rpc.cbid] using hc
      exact ha.fits hd (h.entry grid info node hn)
  found j s grid error reply rid conn hj hrpc hp := by
    obtain ⟨t, ht, hr, hp⟩ | ⟨t, info, ht, hr, hinfo, rfl, hf⟩ := ha.responding_cases hj hp
    · exact ha.made hd (h.found j t grid error reply rid conn ht (hr.trans hrpc) hp)
    · -- The connection that is found is the one the request was made over.
      obtain ⟨c, hm, hc⟩ := h.held j t grid error reply info ht (hr.trans hrpc) hinfo
      have hmade := ha.made hd hm
      obtain ⟨hne, i, u, req, hi, hg, _, _, hu'⟩ := hm
      have hl : g.Live u.grid :=
        .inr ⟨t, List.mem_of_getElem? ht, by rw [hr, hrpc, hg]; rfl, by simp [hinfo]⟩
      obtain ⟨hcl, hrm⟩ := hu u (List.mem_of_getElem? hi) (hg ▸ hne) hl
      have hid : info.connID = u.clientID := by rw [hc, Task.clientID, hu']
      obtain rfl : conn = c := by
        obtain hf | ⟨r, hf, rfl⟩ := hf
        · exact (hcl conn (hid ▸ hf)).trans hu'
        · exact (hrm r (hid ▸ hf)).trans hu'
      exact hmade

theorem takers_snoc : takers cbid (es ++ [e]) = takers cbid es ++ (e.takes cbid).toList := by
  cases h : e.takes cbid <;> simp [takers, List.filterMap_append, h]

theorem mem_takers_snoc (h : j ∈ takers cbid es) : j ∈ takers cbid (es ++ [e]) := by
  rw [takers_snoc]
  exact List.mem_append_left _ h

def Event.sendsBy (j : Nat) : Event ρ → Bool
  | .send i .. => i = j
  | _          => false

-- What is known of the messages that were sent.
structure Written (es : List (Event ρ)) (g : Gate ρ) : Prop where
  once  : ∀ j, es.countP (Event.sendsBy j) ≤ 1
  ended : ∀ j, 0 < es.countP (Event.sendsBy j) → ∃ s, g.At j s ∧ s.pc.Ended
  taker : ∀ j s cbid, g.At j s → s.rpc.cbid = some cbid →
    (s.pc.info.isSome ∨ ∃ rid conn, s.pc = .responding rid conn) → j ∈ takers cbid es
  rsp   : ∀ j conn rid err reply, .send j conn (.g2cRpcRsp rid err reply) ∈ es →
    ∀ s grid err' reply', g.At j s → s.rpc = .rsp grid err' reply' →
      err' = err ∧ reply' = reply ∧ g.Made grid rid conn ∧ j ∈ takers grid es
  route : ∀ j conn rid err reply, .send j conn (.g2cRpcRsp rid err reply) ∈ es →
    ∀ s req, g.At j s → s.rpc = .route req → s.grid = 0 ∧ req.rid ≠ 0

theorem init_written : Written [] (init : Gate ρ) := by
  constructor <;> simp [init]

theorem Written.pos (h : .send j conn msg ∈ es) : 0 < es.countP (Event.sendsBy j) :=
  List.countP_pos_iff.mpr ⟨_, h, by simp [Event.sendsBy]⟩

-- What was sent before a step is known after it.
theorem Written.old (h : Written es g) (ha : Act cfg g e g') (hm : .send j conn msg ∈ es)
    (hj : g'.At j s) : ∃ t, g.At j t ∧ t.rpc = s.rpc ∧ t.grid = s.grid := by
  have ⟨t, ht, he⟩ := h.ended j (Written.pos hm)
  have ⟨s', hs', _, hr, _, hg⟩ := ha.ended ht he
  obtain rfl := hj.unique hs'
  exact ⟨t, ht, hr.symm, hg.symm⟩

theorem Act.written (ha : Act cfg g e g') (hd : Drawn es g) (hc : Carried g) (h : Written es g) :
    Written (es ++ [e]) g' := by
  have hcount : ∀ j, (es ++ [e]).countP (Event.sendsBy j) =
      es.countP (Event.sendsBy j) + if e.sendsBy j then 1 else 0 := by
    simp [List.countP_append, List.countP_singleton]
  have hsend : ∀ j, e.sendsBy j = true → ∃ conn msg, e = .send j conn msg := by
    intro j hs
    cases e <;> simp_all [Event.sendsBy]
  constructor
  case once =>
    intro j
    rw [hcount]
    split
    case isFalse => exact h.once j
    case isTrue hs =>
      -- A handler that is about to send has not sent before.
      obtain ⟨conn, msg, he⟩ := hsend j hs
      have ⟨t, hi, ho, _⟩ := ha.of_send he
      have hz : ¬0 < es.countP (Event.sendsBy j) := fun hp => by
        have ⟨s, hj, hend⟩ := h.ended j hp
        obtain rfl := At.unique hi.1 hj
        exact Task.running_of_outgoing ho hend
      omega
  case ended =>
    intro j hp
    by_cases hs : e.sendsBy j
    case pos =>
      obtain ⟨conn, msg, he⟩ := hsend j hs
      have ⟨t, _, _, _, ht⟩ := ha.of_send he
      exact ⟨_, ht, trivial⟩
    case neg =>
      rw [hcount, if_neg hs] at hp
      have ⟨s, hj, he⟩ := h.ended j hp
      have ⟨s', hj', hpc, _⟩ := ha.ended hj he
      exact ⟨s', hj', hpc ▸ he⟩
  case taker =>
    intro j s cbid hj hrpc hp
    have hstep : ∀ info, s.pc.info = some info → j ∈ takers cbid (es ++ [e]) := by
      intro info hinfo
      obtain ⟨t, ht, hr, hi⟩ | ⟨cbid', node, rfl, hcb, _⟩ := ha.info_cases hj hinfo
      · exact mem_takers_snoc (h.taker j t cbid ht (hr ▸ hrpc) (.inl (by simp [hi])))
      · obtain rfl : cbid = cbid' := by simpa [hrpc] using hcb
        simp [takers_snoc, Event.takes]
    obtain hp | ⟨rid, conn, hp⟩ := hp
    · have ⟨info, hinfo⟩ := Option.isSome_iff_exists.mp hp
      exact hstep info hinfo
    · obtain ⟨t, ht, hr, hp⟩ | ⟨t, info, ht, hr, hp, _, _⟩ := ha.responding_cases hj hp
      · exact mem_takers_snoc (h.taker j t cbid ht (hr ▸ hrpc) (.inr ⟨rid, conn, hp⟩))
      · exact mem_takers_snoc (h.taker j t cbid ht (hr ▸ hrpc) (.inl (by simp [hp])))
  case rsp =>
    intro j conn rid err reply hm s grid err' reply' hj hrpc
    obtain hm | he := by simpa using hm
    · have ⟨t, ht, hr, _⟩ := h.old ha hm hj
      have ⟨h₁, h₂, h₃, h₄⟩ := h.rsp j conn rid err reply hm t grid err' reply' ht (hr.trans hrpc)
      exact ⟨h₁, h₂, ha.made hd h₃, mem_takers_snoc h₄⟩
    · have ⟨t, hi, ho, _, ht⟩ := ha.of_send he.symm
      obtain rfl := hj.unique ht
      obtain ⟨_, _, hr, _⟩ | ⟨_, _, hr, _⟩ | ⟨_, _, _, _, hr, hp, hmsg⟩ | ⟨_, _, _, _, hr, _⟩ :=
        Task.outgoing_cases ho <;> cases hr.symm.trans hrpc
      cases hmsg
      exact ⟨rfl, rfl, ha.made hd (hc.found j t _ _ _ _ _ hi.1 hr hp),
        mem_takers_snoc (h.taker j t _ hi.1 (by rw [hr]; rfl) (.inr ⟨_, _, hp⟩))⟩
  case route =>
    intro j conn rid err reply hm s req hj hrpc
    obtain hm | he := by simpa using hm
    · have ⟨t, ht, hr, hg⟩ := h.old ha hm hj
      exact hg ▸ h.route j conn rid err reply hm t req ht (hr.trans hrpc)
    · have ⟨t, hi, ho, _, ht⟩ := ha.of_send he.symm
      obtain rfl := hj.unique ht
      obtain ⟨_, _, hr, hp, _⟩ | ⟨_, _, hr, _, _, hmsg⟩ | ⟨_, _, _, _, hr, _⟩ | ⟨_, _, _, _, hr, _⟩ :=
        Task.outgoing_cases ho <;> cases hr.symm.trans hrpc
      · have hph := hd.phase j t hi.1
        simp only [Phase, hp] at hph
        exact ⟨hph.1, hph.2 req hr⟩
      · cases hmsg

theorem added_cbEvent : added (es.filterMap cbEvent) = registered es := by
  rw [added, registered, List.filterMap_filterMap]
  refine List.filterMap_congr fun e _ => ?_
  cases e <;> rfl

-- A handler takes a callback iff the callback manager hands one out.
theorem isSome_takes_cbEvent (e : Event ρ) :
    ((cbEvent e).bind (CallbackMgr.Event.takes cbid)).isSome = (e.takes cbid).isSome := by
  cases e
  case get i c info =>
    cases info
    case none =>
      change (if c = cbid then none else none).isSome = false
      rw [ite_self]
      rfl
    case some info =>
      change (if c = cbid then some info else none).isSome = (if c = cbid then some i else none).isSome
      split <;> rfl
  all_goals rfl

theorem taken_cbEvent : (taken cbid (es.filterMap cbEvent)).length = (takers cbid es).length := by
  rw [taken, takers, List.filterMap_filterMap, List.length_filterMap_eq_countP,
    List.length_filterMap_eq_countP]
  exact List.countP_congr fun e _ => by rw [isSome_takes_cbEvent]

theorem history_of_drawn (h : Exec (Step cfg) init es g) (hd : Drawn es g) :
    CallbackMgr.History (es.filterMap cbEvent) g.cb :=
  CallbackMgr.history_of_exec (cb_exec h) (added_cbEvent ▸ hd.nodup)

-- The id that a service responds to.
def Rpc.responded : Rpc ρ → Option UInt32
  | .rsp grid _ _ => some grid
  | _             => none

theorem Rpc.eq_rsp_of_responded {rpc : Rpc ρ} (h : rpc.responded = some grid) :
    ∃ error reply, rpc = .rsp grid error reply := by
  cases rpc <;> simp_all [Rpc.responded]

-- The response of a request is sent by its own handler if it is an error, and by the handler of the
-- response to its id otherwise.
def Event.responds (ts : List (Task ρ)) (i : Nat) : Event ρ → Bool
  | .send j _ (.g2cRpcRsp ..) =>
    j = i || match ts[i]?, ts[j]? with
      | some t, some s => t.grid ≠ 0 && s.rpc.responded = some t.grid
      | _, _           => false
  | _ => false

-- What a response to a request is.
theorem responds_cases (hw : Written es g) (hi : g.At i t) (hr : t.rpc = .route req) (hm : e ∈ es)
    (he : e.responds g.tasks i = true) :
    (e.sendsBy i = true ∧ t.grid = 0 ∧ req.rid ≠ 0) ∨
    (t.grid ≠ 0 ∧ ∃ j ∈ takers t.grid es, e.sendsBy j = true) := by
  cases e
  case send j conn msg =>
    cases msg
    case g2cRpcRsp rid err reply =>
      by_cases hji : j = i
      case pos =>
        subst hji
        exact .inl ⟨by simp [Event.sendsBy], hw.route j conn rid err reply hm t req hi hr⟩
      case neg =>
        have ⟨s, hj, _⟩ := hw.ended j (Written.pos hm)
        have hi' : g.tasks[i]? = some t := hi
        have hj' : g.tasks[j]? = some s := hj
        obtain ⟨hne, hs⟩ : t.grid ≠ 0 ∧ s.rpc.responded = some t.grid := by
          simpa [Event.responds, hji, hi', hj'] using he
        have ⟨error, reply', hrpc⟩ := Rpc.eq_rsp_of_responded hs
        have ⟨_, _, _, hj⟩ := hw.rsp j conn rid err reply hm s t.grid error reply' hj hrpc
        exact .inr ⟨hne, j, hj, by simp [Event.sendsBy]⟩
    all_goals simp [Event.responds] at he
  all_goals simp [Event.responds] at he

theorem responses_le (h : Exec (Step cfg) init es g) (hd : Drawn es g) (hw : Written es g)
    (hi : g.At i t) (hr : t.rpc = .route req) :
    es.countP (Event.responds g.tasks i) ≤ 1 ∧
    (req.rid = 0 → es.countP (Event.responds g.tasks i) = 0) := by
  constructor
  case left =>
    -- All responses are sent by one handler, which sends once.
    suffices ∃ j, ∀ e ∈ es, e.responds g.tasks i = true → e.sendsBy j = true by
      obtain ⟨j, hj⟩ := this
      exact (List.countP_mono_left hj).trans (hw.once j)
    by_cases h0 : t.grid = 0
    case pos =>
      refine ⟨i, fun e he hresp => ?_⟩
      obtain ⟨hs, _⟩ | ⟨hn, _⟩ := responds_cases hw hi hr he hresp
      · exact hs
      · exact absurd h0 hn
    case neg =>
      have hl : (takers t.grid es).length ≤ 1 :=
        taken_cbEvent ▸ ((history_of_drawn h hd).fate t.grid).taken_length_le
      refine ⟨(takers t.grid es).headD i, fun e he hresp => ?_⟩
      obtain ⟨_, hz, _⟩ | ⟨_, j, hj, hs⟩ := responds_cases hw hi hr he hresp
      · exact absurd hz h0
      · have ⟨k, hk⟩ := List.length_eq_one_iff.mp (Nat.le_antisymm hl (List.length_pos_of_mem hj))
        rw [hk] at hj ⊢
        exact List.mem_singleton.mp hj ▸ hs
  case right =>
    intro hrid
    refine List.countP_eq_zero.mpr fun e he hresp => ?_
    obtain ⟨_, _, hn⟩ | ⟨hn, _⟩ := responds_cases hw hi hr he hresp
    · exact hn hrid
    · have ⟨req', hr', hn'⟩ := hd.route i t hi hn
      cases hr.symm.trans hr'
      exact hn' hrid

-- The call with an id was sent to a service.
def Sent (g : Gate ρ) (grid : UInt32) : Prop :=
  ∃ i t, g.At i t ∧ t.grid = grid ∧ t.pc = .finished

theorem Act.sent (ha : Act cfg g e g') (h : g.Sent grid) : g'.Sent grid := by
  have ⟨i, t, hi, hg, hp⟩ := h
  have ⟨t', hi', hp', _, _, hg'⟩ := ha.ended hi (by simp [hp, Pc.Ended])
  exact ⟨i, t', hi', hg'.trans hg, hp'.trans hp⟩

-- Services respond to ids that they received from the gate.
def Honest (g : Gate ρ) (e : Event ρ) : Prop :=
  ∀ src rpc grid error reply, e = .frame src rpc → rpc.body = .rsp grid error reply → g.Sent grid

-- What is known of the handlers of responses.
structure Replied (cfg : Config ρ) (g : Gate ρ) : Prop where
  sent     : ∀ j s grid error reply, g.At j s → s.rpc = .rsp grid error reply → g.Sent grid
  accepted : ∀ j s, g.At j s → Accepted cfg s.rpc
  waiting  : ∀ j s info node, g.At j s → s.pc = .deleting info node →
    node ∈ g.cb.chQueueDel ∧ node < g.cb.queue.alloc ∧
    s.rpc.cbid = some (g.cb.queue.heap node).cbid

theorem init_replied : Replied cfg (init : Gate ρ) := by
  constructor <;> simp [init]

theorem Act.of_frame (ha : Act cfg g e g') (he : e = .frame src rpc) : Accepted cfg rpc.body := by
  cases ha <;> cases he
  case frame hacc => exact hacc

-- A handler that waits to hand over a node has just found it, or goes on waiting.
theorem Act.deleting_cases (ha : Act cfg g e g') (hj : g'.At j s) (hp : s.pc = .deleting info node) :
    (g.At j s ∧ e.actor ≠ some j) ∨
    (∃ t, g.At j t ∧ t.rpc = s.rpc ∧ t.pc = .deleting info node ∧ e = .take j) ∨
    ∃ cbid, e = .get j cbid (some info) ∧ s.rpc.cbid = some cbid ∧
      g.cb.gCbMap cbid = some (info, node) := by
  obtain ⟨hj', hne⟩ | ⟨_, _, _, _, rfl⟩ | ⟨t, ht, hm⟩ := ha.taskStep.back hj
  · exact .inl ⟨hj', hne⟩
  · simp [Task.new] at hp
  have hact := hm.actor
  cases ha <;> simp only [Event.actor, Option.some.injEq, reduceCtorEq] at hact <;> subst hact
  case take hi _ =>
    obtain rfl := hj.moved hi rfl
    exact .inr (.inl ⟨_, hi, rfl, hp, rfl⟩)
  all_goals
    rename g.Runs _ _ => hi
    obtain rfl := hj.moved hi.1 rfl
  case get hc _ hg =>
    obtain ⟨rfl, rfl⟩ := by simpa using hp
    exact .inr (.inr ⟨_, rfl, hc, hg⟩)
  case refuse | notExist =>
    unfold rejected at hp
    split at hp <;> cases hp
  all_goals cases hp

theorem Act.of_recvDel (ha : Act cfg g e g') (he : cbEvent e = some (.mgr (.recvDel node))) :
    ∃ k u info, e.actor = some k ∧ g.At k u ∧ u.pc = .deleting info node := by
  cases ha <;> simp only [cbEvent, Option.some.injEq, reduceCtorEq, CallbackMgr.Event.mgr.injEq,
    CallbackMgr.MgrEvent.recvDel.injEq] at he
  case deleted hp hi _ | wrongType hp hi _ => exact ⟨_, _, _, rfl, hi.1, he ▸ hp⟩
  case mgr _ hn _ => exact absurd he (hn node)

theorem Act.replied (ha : Act cfg g e g') (hq : g.cb.Queued xs) (hw : Written es g)
    (hh : CallbackMgr.History (es.filterMap cbEvent) g.cb) (hx : g.Honest e) (h : Replied cfg g) :
    Replied cfg g' := by
  constructor
  case sent =>
    intro j s grid error reply hj hrpc
    obtain ⟨hj, _⟩ | ⟨src, rpc, he, _, rfl⟩ | ⟨t, ht, hm⟩ := ha.taskStep.back hj
    · exact ha.sent (h.sent j s grid error reply hj hrpc)
    · exact ha.sent (hx src rpc grid error reply he hrpc)
    · exact ha.sent (h.sent j t grid error reply ht (hm.rpc.symm.trans hrpc))
  case accepted =>
    intro j s hj
    obtain ⟨hj, _⟩ | ⟨src, rpc, he, _, rfl⟩ | ⟨t, ht, hm⟩ := ha.taskStep.back hj
    · exact h.accepted j s hj
    · exact ha.of_frame he
    · exact hm.rpc ▸ h.accepted j t ht
  case waiting =>
    intro j s info node hj hp
    have hkeep : node < g.cb.queue.alloc → node < g'.cb.queue.alloc ∧
        (g'.cb.queue.heap node).cbid = (g.cb.queue.heap node).cbid := by
      intro hb
      obtain he | ⟨ev, _, hs⟩ := ha.cb_step
      · exact ⟨he ▸ hb, he ▸ rfl⟩
      · have hk := hs.keeps hq
        exact ⟨Nat.lt_of_lt_of_le hb hk.alloc, (hk.data node hb).1⟩
    obtain ⟨hj, hne⟩ | ⟨t, ht, hr, hp, rfl⟩ | ⟨cbid, rfl, hc, hg⟩ := ha.deleting_cases hj hp
    · have ⟨hm, hb, hc⟩ := h.waiting j s info node hj hp
      refine ⟨?_, (hkeep hb).1, (hkeep hb).2 ▸ hc⟩
      obtain he | ⟨ev, hev, hs⟩ := ha.cb_step
      · exact he ▸ hm
      · refine hs.mem_chQueueDel hm fun hr => ?_
        -- The node is handed over by the one handler that has found it.
        have ⟨k, u, info', hk, hu, hpu⟩ := ha.of_recvDel (hr ▸ hev)
        have hcu := (h.waiting k u info' node hu hpu).2.2
        have hl : (takers (g.cb.queue.heap node).cbid es).length ≤ 1 :=
          taken_cbEvent ▸ (hh.fate _).taken_length_le
        have hj := hw.taker j s _ hj hc (.inl (by simp [hp, Pc.info]))
        have hk' := hw.taker k u _ hu hcu (.inl (by simp [hpu, Pc.info]))
        have ⟨x, hx⟩ := List.length_eq_one_iff.mp (Nat.le_antisymm hl (List.length_pos_of_mem hj))
        rw [hx, List.mem_singleton] at hj hk'
        exact hne (hk.trans (by rw [hj, hk']))
    · have he : g'.cb = g.cb := ha.cb_idle rfl
      exact he ▸ hr ▸ h.waiting j t info node ht hp
    · have hr := ((hh.fate cbid).waiting_of_some hg).1
      have he : g'.cb = g.cb.getCallBack cbid := by cases ha; rfl
      refine ⟨?_, (hkeep hr.bound).1, ?_⟩
      · simp [he, CallbackMgr.getCallBack_of_some hg]
      · rw [(hkeep hr.bound).2, hr.id, hc]

-- A step under the assumptions on the connections and on the services.
structure Assumed (cfg : Config ρ) (g : Gate ρ) (e : Event ρ) (g' : Gate ρ) : Prop where
  step    : Step cfg g e g'
  noReuse : g.NoReuse
  honest  : g.Honest e

-- What is known whoever sends the responses.
structure Correlated (es : List (Event ρ)) (g : Gate ρ) : Prop where
  drawn   : Drawn es g
  carried : Carried g
  written : Written es g

structure Inv (cfg : Config ρ) (es : List (Event ρ)) (g : Gate ρ) : Prop extends Correlated es g where
  replied : Replied cfg g

theorem init_carried : Carried (init : Gate ρ) := by
  constructor <;> simp [init, CallbackMgr.init]

theorem correlated_of_exec (h : Exec (fun g e g' => Step cfg g e g' ∧ g.NoReuse) init es g)
    (hn : Gate.drawn es < 2 ^ 32) : Correlated es g := by
  refine h.invariant (I := fun es g => Gate.drawn es < 2 ^ 32 → Correlated es g)
    (fun _ => ⟨init_drawn, init_carried, init_written⟩) ?_ hn
  rintro es g e g' - hi ⟨hs, hu⟩ hn
  have h := hi (by rw [drawn_snoc] at hn; omega)
  exact ⟨hs.act.drawn hn h.drawn, hs.act.carried h.drawn hu h.carried,
    hs.act.written h.drawn h.carried h.written⟩

theorem inv_of_exec (h : Exec (Assumed cfg) init es g) (hn : Gate.drawn es < 2 ^ 32) : Inv cfg es g := by
  refine ⟨correlated_of_exec (h.mono fun _ _ _ h => ⟨h.step, h.noReuse⟩) hn, ?_⟩
  refine h.invariant (I := fun es g => Gate.drawn es < 2 ^ 32 → Replied cfg g) (fun _ => init_replied) ?_ hn
  intro es g e g' hx hi hs hn
  have hn : Gate.drawn es < 2 ^ 32 := by rw [drawn_snoc] at hn; omega
  have h := correlated_of_exec (hx.mono fun _ _ _ h => ⟨h.step, h.noReuse⟩) hn
  have hx := hx.mono fun _ _ _ h => h.step
  have ⟨xs, hq⟩ := CallbackMgr.queued_of_exec (cb_exec hx)
  exact hs.step.act.replied hq h.written (history_of_drawn hx h.drawn) hs.honest (hi hn)

-- An id belongs to one request only.
theorem Drawn.made_unique (h : Drawn es g) (hm : g.Made grid rid conn) (hm' : g.Made grid rid' conn') :
    rid = rid' ∧ conn = conn' := by
  obtain ⟨hne, i, t, req, hi, hg, hr, rfl, rfl⟩ := hm
  obtain ⟨_, j, s, req', hj, hg', hr', rfl, rfl⟩ := hm'
  obtain rfl := h.inj i j t s hi hj (hg.trans hg'.symm) (hg ▸ hne)
  obtain rfl := hi.unique hj
  cases hr.symm.trans hr'
  exact ⟨rfl, rfl⟩

-- The first response to an id finds the callback, as long as it is not expired.
theorem Inv.get_some (h : Inv cfg es g) (hx : Exec (Step cfg) init es g) (hj : g.At j s)
    (hrpc : s.rpc = .rsp grid error reply) (hne : grid ≠ 0) (hf : ∀ k r, .get k grid r ∉ es)
    (he : ∀ now, .mgr (.expire grid now) ∉ es) :
    ∃ info node, g.cb.gCbMap grid = some (info, node) ∧ g.Fits grid info := by
  obtain ⟨i, t, hi, hg, hp⟩ := h.replied.sent j s grid error reply hj hrpc
  have hreg : grid ∈ registered es := by
    have hph := h.drawn.phase i t hi
    simp only [Phase, hp, hg] at hph
    exact hph hne
  have ht : taken grid (es.filterMap cbEvent) = [] := by
    refine List.filterMap_eq_nil_iff.mpr fun ev hev => ?_
    obtain ⟨e, hm, hce⟩ := List.mem_filterMap.mp hev
    cases e <;> simp only [cbEvent, Option.some.injEq, reduceCtorEq] at hce <;> subst hce <;> try rfl
    case get k c r =>
      refine if_neg fun hc => ?_
      exact hf k r (hc ▸ hm)
  have hex : expired grid (es.filterMap cbEvent) = [] := by
    refine List.filterMap_eq_nil_iff.mpr fun ev hev => ?_
    obtain ⟨e, hm, hce⟩ := List.mem_filterMap.mp hev
    cases e <;> simp only [cbEvent, Option.some.injEq, reduceCtorEq] at hce <;> subst hce <;> try rfl
    case mgr e =>
      cases e <;> try rfl
      case expire c now =>
        refine if_neg fun hc => ?_
        exact he now (hc ▸ hm)
  obtain ⟨info, node, hs⟩ :=
    ((history_of_drawn hx h.drawn).fate grid).some_of_added (added_cbEvent ▸ hreg) ht hex
  exact ⟨info, node, hs, h.carried.entry grid info node hs⟩

-- The connection of a request is still there.
def Registered (g : Gate ρ) : Source → Prop
  | .tcpClient conn => g.clients (getConnID conn) = some conn
  | .remote r       => ∃ r', g.rmgr.remotes (getConnID r.conn) = some r' ∧ r'.conn = r.conn

-- How far the handler `j` has come with the response to a request of `src`, if it has found the
-- callback.
inductive Answers (src : Source) (rid : UInt32) (msg : Msg ρ) (j : Nat) (es : List (Event ρ)) : Pc → Prop
  | deleting : Answers src rid msg j es (.deleting ⟨rid, getConnID src.conn⟩ node)
  | client : Answers src rid msg j es (.client ⟨rid, getConnID src.conn⟩)
  | remote : src = .remote r → Answers src rid msg j es (.remote ⟨rid, getConnID src.conn⟩)
  | responding : Answers src rid msg j es (.responding rid src.conn)
  | finished : .send j src.conn msg ∈ es → Answers src rid msg j es .finished

structure Answering (g : Gate ρ) (src : Source) (rid : UInt32) (j : Nat) (grid : UInt32)
    (error : String) (reply : Option ρ) (es : List (Event ρ)) (s : Task ρ) : Prop where
  at_   : g.At j s
  rpc   : s.rpc = .rsp grid error reply
  taken : s.taken = true
  pc    : Answers src rid (.g2cRpcRsp rid error reply) j es s.pc

theorem Answers.snoc (h : Answers src rid msg j es pc) : Answers src rid msg j (es ++ [e]) pc := by
  cases h
  case finished hm => exact .finished (List.mem_append_left _ hm)
  case remote hr   => exact .remote hr
  all_goals constructor

theorem Act.answering (ha : Act cfg g e g') (hr : e = .lookup j → g.Registered src) (hc : Carried g')
    (hd : Drawn es' g') (hm : g'.Made grid rid src.conn)
    (hsize : cfg.size (.g2cRpcRsp rid error reply) ≤ maxSize)
    (h : Answering g src rid j grid error reply es s) :
    ∃ s', Answering g' src rid j grid error reply (es ++ [e]) s' := by
  obtain ⟨hj, hrpc, ht, hp⟩ := h
  obtain ⟨s', hj', hs'⟩ := ha.taskStep.forth hj
  obtain rfl | hmv := hs'
  · exact ⟨s', hj', hrpc, ht, hp.snoc⟩
  refine ⟨s', hj', hmv.rpc.trans hrpc, hmv.taken, ?_⟩
  -- A connection that is found is the one of the request.
  have hfound : ∀ rid' conn, s'.pc = .responding rid' conn → rid' = rid ∧ conn = src.conn :=
    fun rid' conn hpc => hd.made_unique
      (hc.found j s' grid error reply rid' conn hj' (hmv.rpc.trans hrpc) hpc) hm
  have hact := hmv.actor
  cases ha <;> simp only [Event.actor, Option.some.injEq, reduceCtorEq] at hact <;> subst hact
  case take htk hi _ =>
    obtain rfl := At.unique hi hj
    simp [ht] at htk
  all_goals
    rename g.Runs _ _ => hi
    obtain rfl := At.unique hi.1 hj
    obtain rfl := At.moved hj' hi.1 rfl
  case send ho _ =>
    obtain ⟨_, _, hr', _⟩ | ⟨_, _, hr', _⟩ | ⟨_, _, _, _, hr', hpc, rfl⟩ | ⟨_, _, _, _, hr', _⟩ :=
      Task.outgoing_cases ho <;> cases hr'.symm.trans hrpc
    rw [hpc] at hp
    cases hp
    exact .finished (by simp)
  case tooLong ho hl =>
    obtain ⟨_, _, hr', _⟩ | ⟨_, _, hr', _⟩ | ⟨_, _, _, _, hr', hpc, rfl⟩ | ⟨_, _, _, _, hr', _⟩ :=
      Task.outgoing_cases ho <;> cases hr'.symm.trans hrpc
    rw [hpc] at hp
    cases hp
    exact absurd hsize (Nat.not_le.mpr hl)
  all_goals
    rename Task.pc _ = _ => hpc
    rw [hpc] at hp
    cases hp
  case deleted.deleting => exact .client
  case wrongType.deleting hr' _ => cases hr'.symm.trans hrpc
  case client.client =>
    obtain ⟨_, rfl⟩ := hfound _ _ rfl
    exact .responding
  case noClient.client hn =>
    cases src
    case tcpClient conn => exact absurd ((hr rfl).symm.trans hn) (by simp)
    case remote r       => exact .remote rfl
  case remote.remote =>
    obtain ⟨_, he⟩ := hfound _ _ rfl
    simp only [he]
    exact .responding
  case noRemote.remote r hs hn =>
    subst hs
    obtain ⟨r', hr, _⟩ := hr rfl
    exact absurd (hr.symm.trans hn) (by simp)

theorem alive_set (h : g.alive = true) (hc : t.crashed = false) (ht : g'.tasks = g.tasks.set i t) :
    g'.alive = true := by
  refine List.all_eq_true.mpr fun s hs => ?_
  obtain hs | rfl := List.mem_or_eq_of_mem_set (ht ▸ hs)
  · exact List.all_eq_true.mp h s hs
  · simp [hc]

theorem setTask_at (hi : g.At i t) : (g.setTask i t').At i t' :=
  (at_set hi rfl).mpr (.inl ⟨rfl, rfl⟩)

theorem setTask_alive (h : g.alive = true) (hc : t.crashed = false) : (g.setTask i t).alive = true :=
  alive_set h hc rfl

-- The callback manager is at most `n` steps away from its `select`, and all the rest is as in `g`.
structure Settling (g : Gate ρ) (n : Nat) (g' : Gate ρ) : Prop where
  alive      : g'.alive = true
  left       : ∃ xs, g'.cb.Queued xs ∧ g'.cb.mgr.Left xs n
  tasks      : g'.tasks = g.tasks
  clients    : g'.clients = g.clients
  rmgr       : g'.rmgr = g.rmgr
  chQueueDel : g'.cb.chQueueDel = g.cb.chQueueDel

theorem Settling.closer {n : Nat} (h : Settling g n g') (hm : g'.cb.mgr ≠ .select) :
    ∃ es g₁ n', Exec (Step cfg) g' es g₁ ∧ (∀ e ∈ es, True) ∧ Settling g n' g₁ ∧ n' < n := by
  obtain ⟨xs, hq, hl⟩ := h.left
  obtain ⟨e, cb', xs', n', hs, hq', hl', hn, hna, hnd⟩ := hq.progress hl hm
  have hstep : Step cfg g' (.mgr e) { g' with cb := cb' } := ⟨h.alive, .mgr hs hna hnd⟩
  refine ⟨_, _, n', .single hstep, by simp, ?_, hn⟩
  exact ⟨h.alive, ⟨xs', hq', hl'⟩, h.tasks, h.clients, h.rmgr, (hs.chQueueDel hnd).trans h.chQueueDel⟩

-- The callback manager gets back to its `select` by itself.
theorem select_reachable (cfg : Config ρ) (hal : g.alive = true) (hq : g.cb.Queued xs) :
    ∃ es g' n, Exec (Step cfg) g es g' ∧ g'.cb.mgr = .select ∧ Settling g n g' := by
  obtain ⟨n, hl⟩ := hq.tick.left
  have hsettling : Settling g n g := ⟨hal, ⟨xs, hq, hl⟩, rfl, rfl, rfl, rfl⟩
  obtain ⟨es, g', hx, _, ⟨n', h⟩, hm⟩ := Exec.reach (fun _ _ => Settling.closer) hsettling
  exact ⟨es, g', n', hx, hm, h⟩

section

variable {src : Source} {rid grid : UInt32} {error : String} {reply : Option ρ}

-- The stages of a handler that has found the callback, from the last to the first.
theorem forwards_of_responding (hj : g.At j s) (hrpc : s.rpc = .rsp grid error reply)
    (ht : s.taken = true) (hp : s.pc = .responding rid conn) (hal : g.alive = true)
    (hsize : cfg.size (.g2cRpcRsp rid error reply) ≤ maxSize) :
    ∃ es g', Exec (Step cfg) g es g' ∧ .send j conn (.g2cRpcRsp rid error reply) ∈ es := by
  have ho : s.outgoing = some (conn, .g2cRpcRsp rid error reply) := by simp [Task.outgoing, hrpc, hp]
  exact ⟨_, _, .single ⟨hal, .send ⟨hj, ht⟩ ho hsize⟩, List.mem_singleton.mpr rfl⟩

theorem forwards_of_remote {r : Remote} (hj : g.At j s) (hrpc : s.rpc = .rsp grid error reply)
    (ht : s.taken = true) (hp : s.pc = .remote ⟨rid, getConnID r.conn⟩) (hal : g.alive = true)
    (hr : g.Registered (.remote r)) (hsize : cfg.size (.g2cRpcRsp rid error reply) ≤ maxSize) :
    ∃ es g', Exec (Step cfg) g es g' ∧ .send j r.conn (.g2cRpcRsp rid error reply) ∈ es := by
  obtain ⟨r', hr, hc⟩ := hr
  have hstep : Step cfg g (.lookup j) (g.setTask j { s with pc := .responding rid r'.conn }) :=
    ⟨hal, .remote ⟨hj, ht⟩ hp hr⟩
  have ⟨es, g', hx, hm⟩ := forwards_of_responding (s := { s with pc := .responding rid r'.conn })
    (setTask_at hj) hrpc ht rfl (setTask_alive hal rfl) hsize
  exact ⟨_, g', hx.cons hstep, List.mem_cons_of_mem _ (hc ▸ hm)⟩

theorem forwards_of_client (hj : g.At j s) (hrpc : s.rpc = .rsp grid error reply)
    (ht : s.taken = true) (hp : s.pc = .client ⟨rid, getConnID src.conn⟩) (hal : g.alive = true)
    (hr : g.Registered src) (hu : ∀ conn ∈ g.clients (getConnID src.conn), conn = src.conn)
    (hsize : cfg.size (.g2cRpcRsp rid error reply) ≤ maxSize) :
    ∃ es g', Exec (Step cfg) g es g' ∧ .send j src.conn (.g2cRpcRsp rid error reply) ∈ es := by
  cases hc : g.clients (getConnID src.conn)
  case some conn =>
    have hstep : Step cfg g (.lookup j) (g.setTask j { s with pc := .responding rid conn }) :=
      ⟨hal, .client ⟨hj, ht⟩ hp hc⟩
    have ⟨es, g', hx, hm⟩ := forwards_of_responding (s := { s with pc := .responding rid conn })
      (setTask_at hj) hrpc ht rfl (setTask_alive hal rfl) hsize
    exact ⟨_, g', hx.cons hstep, List.mem_cons_of_mem _ (hu conn hc ▸ hm)⟩
  case none =>
    have hstep : Step cfg g (.lookup j) (g.setTask j { s with pc := .remote ⟨rid, getConnID src.conn⟩ }) :=
      ⟨hal, .noClient ⟨hj, ht⟩ hp hc⟩
    cases src
    case tcpClient conn => exact absurd (hr.symm.trans hc) (by simp)
    case remote r       =>
      have ⟨es, g', hx, hm⟩ := forwards_of_remote
        (s := { s with pc := .remote ⟨rid, getConnID r.conn⟩ })
        (setTask_at hj) hrpc ht rfl (setTask_alive hal rfl) hr hsize
      exact ⟨_, g', hx.cons hstep, List.mem_cons_of_mem _ hm⟩

theorem Answering.forwards (h : Answering g src rid j grid error reply es s) (hal : g.alive = true)
    (hr : g.Registered src)
    (hu : s.pc.info.isSome → ∀ conn ∈ g.clients (getConnID src.conn), conn = src.conn)
    (hq : g.cb.Queued xs) (hw : ∀ info node, s.pc = .deleting info node → node ∈ g.cb.chQueueDel)
    (hsize : cfg.size (.g2cRpcRsp rid error reply) ≤ maxSize) :
    ∃ es' g', Exec (Step cfg) g es' g' ∧
      .send j src.conn (.g2cRpcRsp rid error reply) ∈ es ++ es' := by
  obtain ⟨hj, hrpc, ht, hp⟩ := h
  generalize hpc : s.pc = pc at hp
  cases hp
  case finished hm => exact ⟨[], g, .refl, List.mem_append_left _ hm⟩
  case responding =>
    obtain ⟨es', g', hx, hm⟩ := forwards_of_responding hj hrpc ht hpc hal hsize
    exact ⟨es', g', hx, List.mem_append_right _ hm⟩
  case remote r hs =>
    subst hs
    obtain ⟨es', g', hx, hm⟩ := forwards_of_remote hj hrpc ht hpc hal hr hsize
    exact ⟨es', g', hx, List.mem_append_right _ hm⟩
  case client =>
    obtain ⟨es', g', hx, hm⟩ :=
      forwards_of_client hj hrpc ht hpc hal hr (hu (by simp [hpc, Pc.info])) hsize
    exact ⟨es', g', hx, List.mem_append_right _ hm⟩
  case deleting node =>
    -- The node is handed over as soon as the callback manager is back in its `select`.
    obtain ⟨es₁, g₁, _, hx₁, hm₁, h₁⟩ := select_reachable cfg hal hq
    have hn : node ∈ g₁.cb.chQueueDel := h₁.chQueueDel ▸ hw _ node hpc
    have hj₁ : g₁.At j s := by rw [At, h₁.tasks]; exact hj
    have hr₁ : g₁.Registered src := by cases src <;> simpa [Registered, h₁.clients, h₁.rmgr] using hr
    have hstep : Step cfg g₁ (.deleted j node) _ :=
      ⟨h₁.alive, .deleted ⟨hj₁, ht⟩ hrpc hpc (.recvDel hm₁ hn)⟩
    obtain ⟨es₂, g₂, hx₂, hm₂⟩ := forwards_of_client
      (g := { g₁.setTask j { s with pc := .client ⟨rid, getConnID src.conn⟩ } with
        cb := { g₁.cb with chQueueDel := g₁.cb.chQueueDel.erase node, mgr := .del node } })
      (setTask_at hj₁) hrpc ht rfl (alive_set h₁.alive rfl rfl) (by cases src <;> exact hr₁)
      (by simpa [setTask, h₁.clients] using hu (by simp [hpc, Pc.info])) hsize
    exact ⟨_, g₂, hx₁.trans (hx₂.cons hstep),
      List.mem_append_right _ (List.mem_append_right _ (List.mem_cons_of_mem _ hm₂))⟩

end

-- A step in which the handler `j` finds the connection of a request, if it looks for it.
def Keeping (cfg : Config ρ) (src : Source) (j : Nat) (g : Gate ρ) (e : Event ρ) (g' : Gate ρ) : Prop :=
  Assumed cfg g e g' ∧ (e = .lookup j → g.Registered src)

theorem Act.answering_of_get (ha : Act cfg g (.get j grid r) g') (hj : g.At j s)
    (hrpc : s.rpc = .rsp grid error reply)
    (hg : g.cb.gCbMap grid = some (⟨rid, getConnID src.conn⟩, node)) :
    ∃ s', Answering g' src rid j grid error reply [] s' := by
  cases ha
  case getNil hn => simp [hg] at hn
  case get hr _ hg' =>
    obtain rfl := At.unique hr.1 hj
    obtain ⟨rfl, rfl⟩ := by simpa [hg] using hg'
    refine ⟨_, (at_set hj rfl).mpr (.inl ⟨rfl, rfl⟩), ?_, ?_, ?_⟩
    · exact hrpc
    · exact hr.2
    · exact .deleting

theorem answering_of_exec (h₁ : Exec (Assumed cfg) init pre g₁)
    (h : Exec (Keeping cfg src j) g₁ es g) (hn : drawn (pre ++ es) < 2 ^ 32)
    (hsize : cfg.size (.g2cRpcRsp rid error reply) ≤ maxSize)
    (hm : g₁.Made grid rid src.conn) (ha : ∃ s, Answering g₁ src rid j grid error reply [] s) :
    g.Made grid rid src.conn ∧ ∃ s, Answering g src rid j grid error reply es s := by
  refine h.invariant (I := fun es g => drawn (pre ++ es) < 2 ^ 32 → g.Made grid rid src.conn ∧
    ∃ s, Answering g src rid j grid error reply es s) (fun _ => ⟨hm, ha⟩) ?_ hn
  intro es g e g' hx hi hs hn
  have hx := h₁.trans (hx.mono fun _ _ _ h => h.1)
  have hn' : drawn (pre ++ es) < 2 ^ 32 := by
    rw [← List.append_assoc, drawn_snoc] at hn
    omega
  have ⟨hm, s, ha⟩ := hi hn'
  have hinv := inv_of_exec (hx.snoc hs.1) (by rwa [List.append_assoc])
  have hm' := hs.1.step.act.made (inv_of_exec hx hn').drawn hm
  exact ⟨hm', hs.1.step.act.answering hs.2 hinv.carried hinv.drawn hm' hsize ha⟩

-- While a response is being handled, no other connection has the id of the one it is for.
theorem NoReuse.client_unique (hu : g.NoReuse) (hm : g.Made grid rid c) (hj : g.At j s)
    (hrpc : s.rpc = .rsp grid error reply) (hp : s.pc.info.isSome) :
    ∀ conn ∈ g.clients (getConnID c), conn = c := by
  obtain ⟨hne, i, t, req, hi, rfl, _, _, rfl⟩ := hm
  have hl : g.Live t.grid := .inr ⟨s, List.mem_of_getElem? hj, by rw [hrpc]; rfl, hp⟩
  exact (hu t (List.mem_of_getElem? hi) hne hl).1

-- A response that has found its callback is forwarded once its handler has ended, and until then
-- nothing but a crash or the loss of the connection can prevent it.
theorem forwarded_of_answering (hx : Exec (Assumed cfg) init es g) (h : Inv cfg es g)
    (hm : g.Made grid rid src.conn) (ha : Answering g src rid j grid error reply post s)
    (hsize : cfg.size (.g2cRpcRsp rid error reply) ≤ maxSize) :
    (∀ s', g.At j s' → s'.pc.Ended → .send j src.conn (.g2cRpcRsp rid error reply) ∈ post) ∧
    (g.alive = true → g.NoReuse → g.Registered src → ∃ post' g', Exec (Step cfg) g post' g' ∧
      .send j src.conn (.g2cRpcRsp rid error reply) ∈ post ++ post') := by
  constructor
  case left =>
    intro s' hj he
    obtain rfl := ha.at_.unique hj
    have hp := ha.pc
    generalize s.pc = pc at hp he
    cases hp <;> first | assumption | exact he.elim
  case right =>
    intro hal hu hr
    have ⟨xs, hq⟩ := CallbackMgr.queued_of_exec (cb_exec (hx.mono fun _ _ _ h => h.step))
    exact ha.forwards hal hr (hu.client_unique hm ha.at_ ha.rpc) hq
      (fun info node hp => (h.replied.waiting j s info node ha.at_ hp).1) hsize

-- All ids in use are of requests over `c`, which is registered, and no other connection has its id. A
-- response is to one of these ids.
def assumedFor (c : Conn) (g : Gate ρ) (e : Event ρ) : Bool :=
  (g.tasks.all fun t => t.grid = 0 || t.src.conn = c) &&
  g.clients (getConnID c) = some c && (g.rmgr.remotes (getConnID c)).isNone &&
  match e with
  | .frame _ rpc => rpc.body.responded.all fun grid => g.tasks.any fun t =>
    t.grid = grid && match t.pc with
      | .finished => true
      | _         => false
  | _ => true

theorem keeping_of_assumedFor (h : Step cfg g e g' ∧ g.assumedFor c e = true) :
    Keeping cfg (.tcpClient c) j g e g' := by
  obtain ⟨hs, h⟩ := h
  simp only [assumedFor, Bool.and_eq_true, List.all_eq_true, Bool.or_eq_true, decide_eq_true_eq,
    Option.isNone_iff_eq_none] at h
  obtain ⟨⟨⟨ht, hc⟩, hr⟩, hf⟩ := h
  refine ⟨⟨hs, fun t hm hne _ => ?_, ?_⟩, fun _ => hc⟩
  case refine_1 =>
    obtain rfl := (ht t hm).resolve_left hne
    simp [Task.clientID, hc, hr]
  case refine_2 =>
    rintro src rpc grid error reply rfl hb
    simp only [hb, Rpc.responded, Option.all_some, List.any_eq_true, Bool.and_eq_true,
      decide_eq_true_eq] at hf
    obtain ⟨t, hm, hg, hp⟩ := hf
    obtain ⟨i, hi⟩ := List.getElem?_of_mem hm
    refine ⟨i, t, hi, hg, ?_⟩
    cases hpc : t.pc <;> simp_all

-- The handler and the id of a call of `GetCallBack`.
def Event.gets : Event ρ → Option (Nat × UInt32)
  | .get i cbid _ => some (i, cbid)
  | _             => none

theorem Event.eq_get_of_gets (h : e.gets = some (i, cbid)) : ∃ r, e = .get i cbid r := by
  cases e <;> simp_all [Event.gets]

def Event.expires : Event ρ → Bool
  | .mgr (.expire ..) => true
  | _                 => false

-- The names of the messages take one byte each, and the ids of a request and of its response five bytes.
theorem Msg.length_encode_g2cRpcRsp {ρ : Type} {w : Wire ρ} (hw : w.Standard) (grid rid : UInt32)
    (error : String) (reply : Option ρ) :
    (Msg.encode w (.g2cRpcRsp rid error reply)).length = (Msg.encode w (.s2gRpcRsp grid error reply)).length := by
  have hc : (Bytes.ascii SimpleRpc.msgG2CRpcRsp).length = 1 := by decide
  have hs : (Bytes.ascii SimpleRpc.msgS2GRpcRsp).length = 1 := by decide
  simp only [encode, hw.length_rpcEncode hc, hw.length_rpcEncode hs, List.length_append, hw.uint32]

theorem responses_correlated
    (hsize : ∀ grid rid error reply,
      cfg.size (.g2cRpcRsp rid error reply) ≤ cfg.size (.s2gRpcRsp grid error reply))
    (h : Exec (Assumed cfg) init es g) (hn : drawn es < 2 ^ 32 - 1) :
    -- A response that is forwarded belongs to a request of its connection, under the id of the request.
    (∀ j s grid error reply, g.At j s → s.rpc = .rsp grid error reply → ∀ conn rid error' reply',
      .send j conn (.g2cRpcRsp rid error' reply') ∈ es →
      error' = error ∧ reply' = reply ∧ g.Made grid rid conn) ∧
    -- There is at most one response to a request, and none if it wants none.
    (∀ i t req, g.At i t → t.rpc = .route req →
      es.countP (Event.responds g.tasks i) ≤ 1 ∧
      (req.rid = 0 → es.countP (Event.responds g.tasks i) = 0)) ∧
    -- The first response that is handled before its callback expires is forwarded, as long as the
    -- connection of the request is registered.
    (∀ pre j grid r post g₁ g₂ s error reply, es = pre ++ .get j grid r :: post →
      Exec (Assumed cfg) init pre g₁ → Assumed cfg g₁ (.get j grid r) g₂ → g₁.At j s →
      s.rpc = .rsp grid error reply → grid ≠ 0 → (∀ k r', .get k grid r' ∉ pre) →
      (∀ now, .mgr (.expire grid now) ∉ pre) →
      ∃ i t req, g₁.At i t ∧ t.grid = grid ∧ t.rpc = .route req ∧
        (Exec (Keeping cfg t.src j) g₂ post g →
          (∀ s', g.At j s' → s'.pc.Ended →
            .send j t.src.conn (.g2cRpcRsp req.rid error reply) ∈ post) ∧
          (g.alive = true → g.NoReuse → g.Registered t.src →
            ∃ post' g', Exec (Step cfg) g post' g' ∧
              .send j t.src.conn (.g2cRpcRsp req.rid error reply) ∈ post ++ post'))) := by
  have hinv := inv_of_exec h (by omega)
  have hx := h.mono fun _ _ _ h => h.step
  refine ⟨?_, fun i t req => responses_le hx hinv.drawn hinv.written, ?_⟩
  · intro j s grid error reply hj hrpc conn rid error' reply' hm
    obtain ⟨h₁, h₂, h₃, _⟩ := hinv.written.rsp j conn rid error' reply' hm s grid error reply hj hrpc
    exact ⟨h₁.symm, h₂.symm, h₃⟩
  · intro pre j grid r post g₁ g₂ s error reply hes h₁ hget hj hrpc hne hf he
    have hes : es = (pre ++ [.get j grid r]) ++ post := by simp [hes]
    have hpre : drawn pre < 2 ^ 32 := by
      simp only [hes, drawn, List.countP_append] at hn ⊢
      omega
    have hinv₁ := inv_of_exec h₁ hpre
    obtain ⟨⟨rid, connID⟩, node, hg, conn, hm, hc⟩ :=
      hinv₁.get_some (h₁.mono fun _ _ _ h => h.step) hj hrpc hne hf he
    obtain ⟨_, i, t, req, hi, hgt, hrt, hrid, rfl⟩ := id hm
    obtain rfl : connID = getConnID t.src.conn := hc
    obtain rfl : req.rid = rid := hrid
    refine ⟨i, t, req, hi, hgt, hrt, fun hx₂ => ?_⟩
    have hs : cfg.size (.g2cRpcRsp req.rid error reply) ≤ maxSize := by
      have ha := hinv₁.replied.accepted j s hj
      rw [hrpc] at ha
      exact (hsize grid req.rid error reply).trans ha
    obtain ⟨hm, s', ha⟩ := answering_of_exec (h₁.snoc hget) hx₂ (by rw [← hes]; omega) hs
      (hget.step.act.made hinv₁.drawn hm) (hget.step.act.answering_of_get hj hrpc hg)
    exact forwarded_of_answering h hinv hm ha hs

theorem responses_correlated_forwarded :
    ∃ (cfg : Config Unit) (c : Conn) (pre post : List (Event Unit)) (r : Option RouteCbInfo)
      (g₁ g₂ g : Gate Unit),
      Exec (Assumed cfg) init pre g₁ ∧ Assumed cfg g₁ (.get 1 1 r) g₂ ∧
      Exec (Keeping cfg (.tcpClient c) 1) g₂ post g ∧
      ∃ rid error reply, .send 1 c (.g2cRpcRsp rid error reply) ∈ post ∧ g.Made 1 rid c := by
  let cfg := Config.msgpack .serviceGate
  let c : Conn := ⟨0, "c"⟩
  let d : Conn := ⟨1, "i:1"⟩
  let g₀ : Gate Unit := { init with clients := Partial.insert (fun _ => none) "c" c }
  let xs : List (Turn Unit) :=
    [.rmgr (.connectRemote "n" "s" "i" 1 d),
      .frame (.tcpClient c) (.route ⟨"n", "s", 7, false, Config.innerRpc "f"⟩)] ++
    List.replicate 11 (.task 0) ++
    [.mgr, .task 0, .frame (.remote ⟨"n:s", d⟩) (.rsp 1 "" none), .task 1]
  have h₀ : Assumed cfg init (.accept c) g₀ :=
    ⟨⟨rfl, .accept⟩, by simp [NoReuse, init], by rintro _ _ _ _ _ ⟨⟩⟩
  -- The request is sent on and responded to, then its callback is found, then the response is sent.
  have hr : ((replay cfg (assumedFor c) 0 xs g₀).any fun r₁ =>
      (r₁.1.all fun e => e.gets.isNone && !e.expires) && r₁.1.countP Event.draws = 1 && r₁.2.alive &&
      (r₁.2.tasks[1]?.any fun s => s.rpc.responded = some 1) &&
      (r₁.2.tasks.all fun t => t.grid = 0 || t.src = .tcpClient c) &&
      (r₁.2.turn cfg 0 (.task 1)).any fun r₂ =>
        r₂.1.gets = some (1, 1) && r₁.2.assumedFor c r₂.1 &&
        (replay cfg (assumedFor c) 0 [.task 1, .task 1, .task 1] r₂.2).any fun r₃ =>
          r₃.1.countP Event.draws = 0 &&
          r₃.2.tasks[1]?.any fun s => s.pc.Ended && s.rpc.responded = some 1) = true := by
    decide +kernel
  simp only [Option.any_eq_true, Bool.and_eq_true, decide_eq_true_eq, List.all_eq_true, Prod.exists,
    Bool.or_eq_true, Bool.not_eq_true', Option.isNone_iff_eq_none] at hr
  obtain ⟨pre, g₁, hpre, ⟨⟨⟨⟨hev, hn₁⟩, hal⟩, s, hj, hs⟩, hsrc⟩, e, g₂, ht, ⟨hg, hok⟩, post, g, hpost,
    hn₂, s', hj', hend, hs'⟩ := hr
  obtain ⟨r, rfl⟩ := Event.eq_get_of_gets hg
  obtain ⟨error, reply, hrpc⟩ := Rpc.eq_rsp_of_responded hs
  have h₁ : Exec (Assumed cfg) init _ g₁ :=
    ((exec_of_replay xs hpre).mono fun _ _ _ h => (keeping_of_assumedFor (j := 1) h).1).cons h₀
  have hget : Assumed cfg g₁ (.get 1 1 r) g₂ :=
    (keeping_of_assumedFor (j := 1) ⟨⟨hal, .of_turn ht⟩, hok⟩).1
  have h₂ : Exec (Keeping cfg (.tcpClient c) 1) g₂ post g :=
    (exec_of_replay _ hpost).mono fun _ _ _ h => keeping_of_assumedFor h
  have hx := h₁.snoc hget |>.trans (h₂.mono fun _ _ _ h => h.1)
  obtain ⟨ha, _, hc⟩ := responses_correlated
    (fun _ _ _ _ => (Msg.length_encode_g2cRpcRsp Wire.msgpack_standard ..).le) hx
    (by simp [drawn, hn₁, hn₂, Event.draws])
  obtain ⟨i, t, req, hi, hgt, hrt, hfw⟩ := hc _ 1 1 r post g₁ g₂ s error reply (by simp) h₁ hget hj hrpc
    (by decide)
    (fun k r' hm => by
      obtain hm | hm := List.mem_cons.mp hm
      · cases hm
      · simpa [Event.gets] using (hev _ hm).1)
    (fun now hm => by
      obtain hm | hm := List.mem_cons.mp hm
      · cases hm
      · simpa [Event.expires] using (hev _ hm).2)
  have hts : t.src = .tcpClient c := (hsrc t (List.mem_of_getElem? hi)).resolve_left (by simp [hgt])
  have hsend := (hfw (hts ▸ h₂)).1 s' hj' hend
  rw [hts] at hsend
  obtain ⟨error', reply', hrpc'⟩ := Rpc.eq_rsp_of_responded hs'
  obtain ⟨_, _, hm⟩ := ha 1 s' 1 error' reply' hj' hrpc' c req.rid error reply
    (List.mem_append_right _ hsend)
  exact ⟨cfg, c, _, post, r, g₁, g₂, g, h₁, hget, h₂, req.rid, error, reply, hsend, hm⟩

end Gate
