import Microservice.PushService.Theorems.SafePush

-- The kind of gate as the pushes name it.
def GateService.typ : GateService → String
  | .serviceGate => "server"
  | .clientGate  => "client"

namespace GateConn

variable {conn : GateConn} {gGateAddrMap : Partial String ConnId} {G : ConnId}

theorem split_location :
    Strings.split conn.location '/' = [conn.listerAddr.str, conn.connID.str] := by
  have h : conn.location = conn.listerAddr.str ++ String.singleton '/' ++ conn.connID.str := rfl
  rw [h, Strings.split_append conn.listerAddr.no_slash, Strings.split_of_not_mem conn.connID.no_slash]

theorem find_location (h : gGateAddrMap conn.listerAddr.str = some G) :
    ToGate.find gGateAddrMap conn.location = some (.send conn.connID.str G) := by
  simp [ToGate.find, split_location, h]

end GateConn

-- What `PushToGate` goes through when it finds the client at the connection.
inductive ToGate.Aimed (conn : GateConn) (X : String) (G : ConnId) : ToGate → Prop
  | get : Aimed conn X G (.get (conn.service.key X))
  | lookup : Aimed conn X G (.lookup conn.location)
  | send : Aimed conn X G (.send conn.connID.str G)

theorem ToGate.start_eq {conn : GateConn} {p : Push} (h : p.typ = conn.service.typ) :
    ToGate.start p = .get (conn.service.key p.clientID) := by
  cases hc : conn.service <;> rw [hc] at h <;> simp [ToGate.start, h, GateService.typ]

theorem ToGate.aimed_start {conn : GateConn} {G : ConnId} {p : Push} (h : p.typ = conn.service.typ) :
    (ToGate.start p).Aimed conn p.clientID G :=
  ToGate.start_eq h ▸ .get

namespace GateClient

variable {redis redis' : Redis} {c c' : GateClient} {e : Event} {n : Nat} {X : String} {f : Frame}

-- The numbers of the frames: the login that the reader runs is the last one read.
structure Numbered (c : GateClient) : Prop where
  reader : ∀ n X, c.reader = some (n, X) → c.count = n + 1
  tasks  : ∀ n f, (n, f) ∈ c.tasks → n < c.count

theorem accepted_numbered {conn : GateConn} : (accepted conn).Numbered := by
  constructor <;> simp [accepted]

theorem Change.conn_eq (h : Change redis c e redis' c') : c'.conn = c.conn := by
  cases h <;> rfl

theorem Change.count_le (h : Change redis c e redis' c') : c.count ≤ c'.count := by
  cases h
  case login | task => exact Nat.le_succ _
  all_goals exact Nat.le_refl _

theorem Numbered.step (h : c.Numbered) (hc : Change redis c e redis' c') : c'.Numbered := by
  cases hc
  case send          => exact ⟨h.reader, h.tasks⟩
  case login         => exact ⟨by rintro _ _ ⟨⟩; rfl, fun n f ht => Nat.lt_succ_of_lt (h.tasks n f ht)⟩
  case task hr _ _   =>
    refine ⟨by simp [hr], fun n f ht => ?_⟩
    obtain ht | ht := List.mem_append.mp ht
    · exact Nat.lt_succ_of_lt (h.tasks n f ht)
    · cases List.mem_singleton.mp ht
      exact Nat.lt_succ_self _
  case set | setFailed => exact ⟨nofun, h.tasks⟩
  case del | delFailed | restore => exact ⟨h.reader, fun n f ht => h.tasks n f (List.mem_of_mem_erase ht)⟩

-- A client id stays at its connection, unless it logs in at another one or logs off on a gate of the kind.
theorem Change.redis_key {conn : GateConn} (h : Change redis c e redis' c')
    (hset : ∀ n, e = .set n X → c.conn.service = conn.service → c.conn = conn)
    (hdel : ∀ n, e = .del n X → c.conn.service ≠ conn.service)
    (hr : redis (conn.service.key X) = some conn.location) :
    redis' (conn.service.key X) = some conn.location := by
  cases h
  case set n Y _ =>
    by_cases hk : conn.service.key X = c.conn.service.key Y
    case neg => exact (Partial.insert_of_ne hk).trans hr
    case pos =>
      cases GateService.eq_of_key hk
      exact hset n rfl (GateService.service_eq_of_key hk).symm ▸ Partial.insert_self
  case del n Y _ =>
    refine (Partial.erase_of_ne fun hk => ?_).trans hr
    cases GateService.eq_of_key hk
    exact hdel n rfl (GateService.service_eq_of_key hk).symm
  all_goals exact hr

end GateClient

namespace Handler

-- The frame that a restore goes back to.
def origin : Handler → Option Origin
  | .find o | .restoring o _ _ _ | .restored o => some o
  | _                                          => none

-- The restore has got its documents.
def Found (o : Origin) : Handler → Prop
  | .restoring o' _ _ _ | .restored o' => o' = o
  | _                                  => False

-- The documents that come after the current one.
def rest : Handler → List Push
  | .restoring _ _ ps _ => ps
  | _                   => []

-- The handler is about to send the push to the connection.
def Due (conn : GateConn) (G : ConnId) (p : Push) (h : Handler) : Prop :=
  (∃ pc, h.toGate = some (p, pc) ∧ pc.Aimed conn p.clientID G) ∨ p ∈ h.rest

variable {h : Handler} {conn : GateConn} {G : ConnId} {p : Push} {ps : List Push} {pc pc' : ToGate}
variable {o : Origin}

theorem toGate_goto (hp : h.toGate = some (p, pc)) : (h.goto pc').toGate = some (p, pc') := by
  cases h <;> cases hp <;> rfl

theorem rest_goto : (h.goto pc).rest = h.rest := by
  cases h <;> rfl

theorem origin_of_found (hf : h.Found o) : o ∈ h.origin := by
  cases h <;> first | exact hf.elim | exact hf ▸ rfl

theorem origin_each : (each o ps).origin = some o := by
  cases ps <;> rfl

theorem found_each {o' : Origin} : (each o ps).Found o' ↔ o = o' := by
  cases ps <;> exact Iff.rfl

theorem found_goto : (h.goto pc).Found o ↔ h.Found o := by
  cases h <;> exact Iff.rfl

theorem due_each (ht : p.typ = conn.service.typ) (hp : p ∈ ps) : (each o ps).Due conn G p := by
  cases ps
  case nil       => cases hp
  case cons q ps =>
    obtain rfl | hp := List.mem_cons.mp hp
    · exact .inl ⟨_, rfl, ToGate.aimed_start ht⟩
    · exact .inr hp

end Handler

namespace Cluster

variable {k : ClientSdk.Codec} {s s' : Cluster} {e : Event} {es : List Event} {i : Nat} {h h' : Handler}
variable {conn : GateConn} {G : ConnId} {p : Push} {X : String} {o : Origin}

-- The redis key of the client and the address of its gate.
structure Located (s : Cluster) (conn : GateConn) (X : String) (G : ConnId) : Prop where
  redis : s.redis (conn.service.key X) = some conn.location
  gate  : s.gGateAddrMap conn.listerAddr.str = some G

-- The message that a push is sent to the gate as.
def p2gPush (s : Cluster) (conn : GateConn) (G : ConnId) (p : Push) : ConnId × P2GPush :=
  (G, ⟨conn.connID.str, p.pid, s.nameSpace, p.pushMsg⟩)

-- A handler that is about to send the push stays so until it sends it.
theorem Move.due (hm : Move s i e h h') (hl : s.Located conn p.clientID G) (hd : h.Due conn G p)
    (ht : p.typ = conn.service.typ) (he : e ≠ .getFailed i ∧ e ≠ .sendFailed i) :
    h'.Due conn G p ∨ e = .send i ∧ h.toGate = some (p, .send conn.connID.str G) := by
  obtain ⟨pc, hpc, ha⟩ | hp := hd
  case inr =>
    cases hm
    case get | lookup | send | toGateFailed => exact .inl <| .inr (by rwa [Handler.rest_goto])
    case next                               => exact .inl (Handler.due_each ht hp)
    all_goals cases hp
  case inl =>
    cases hm
    case insert | unsafePush | insertFailed | find | findFailed => cases hpc
    case toGateFailed hf => exact (hf.elim he.1 he.2).elim
    case next            => cases hpc; cases ha
    case get hq          =>
      cases hpc.symm.trans hq
      cases ha
      exact .inl <| .inl ⟨_, Handler.toGate_goto hq, hl.redis ▸ .lookup⟩
    case lookup hf hq    =>
      cases hpc.symm.trans hq
      cases ha
      cases (GateConn.find_location hl.gate).symm.trans hf
      exact .inl <| .inl ⟨_, Handler.toGate_goto hq, .send⟩
    case send hq         =>
      cases hpc.symm.trans hq
      cases ha
      exact .inr ⟨rfl, hq⟩

-- What a step does to the handler with the number `i`.
theorem Step.handler_cases (hs : Step k s e s') (hi : s.handlers[i]? = some h) :
    s'.handlers[i]? = some h ∨ ∃ h', Move s i e h h' ∧ s'.handlers[i]? = some h' := by
  obtain he | ⟨_, _, he⟩ | ⟨j, h₁, h₂, hj, hm, he⟩ := hs.handlers_cases <;> rw [he]
  · exact .inl hi
  · exact .inl (List.getElem?_append_of_eq_some hi)
  · by_cases hij : j = i
    case neg => exact .inl (by rwa [List.getElem?_set_ne hij])
    case pos =>
      subst hij
      cases hj.symm.trans hi
      exact .inr ⟨h₂, hm, List.getElem?_set_self (List.getElem?_eq_some_iff.mp hj).1⟩

-- Where the handler with the number `i` comes from.
theorem Step.handler_origin (hs : Step k s e s') (hi : s'.handlers[i]? = some h') :
    s.handlers[i]? = some h' ∨ Arrival e h' ∨ ∃ h, s.handlers[i]? = some h ∧ Move s i e h h' := by
  obtain he | ⟨_, ha, he⟩ | ⟨j, h₁, h₂, hj, hm, he⟩ := hs.handlers_cases <;> rw [he] at hi
  · exact .inl hi
  · obtain hi | ⟨_, rfl⟩ := List.getElem?_concat_cases hi
    · exact .inl hi
    · exact .inr <| .inl ha
  · obtain ⟨rfl, rfl⟩ | ⟨_, hi⟩ := List.getElem?_set_cases hi
    · exact .inr <| .inr ⟨h₁, hj, hm⟩
    · exact .inl hi

theorem Step.p2g_subset (hs : Step k s e s') : s.p2g ⊆ s'.p2g := by
  cases hs
  case send => exact List.subset_append_left _ _
  all_goals exact List.Subset.refl _

theorem Step.nameSpace_eq (hs : Step k s e s') : s'.nameSpace = s.nameSpace := by
  cases hs <;> rfl

theorem Step.sent (hs : Step k s (.send i) s') (hi : s.handlers[i]? = some h)
    (ht : h.toGate = some (p, .send conn.connID.str G)) : s'.p2gPush conn G p ∈ s'.p2g := by
  cases hs
  case send ht' _ hi' =>
    cases hi.symm.trans hi'
    cases ht.symm.trans ht'
    exact List.mem_append_right _ (List.mem_singleton_self _)

-- The restores go back to frames that have been read.
structure Numbered (s : Cluster) : Prop where
  clients : ∀ c ∈ s.gateClients, c.Numbered
  origins : ∀ h ∈ s.handlers, ∀ o ∈ h.origin, ∃ c, s.gateClients[o.conn]? = some c ∧ o.frame < c.count

theorem start_numbered {nameSpace : String} : (start nameSpace).Numbered := by
  constructor <;> simp [start]

theorem Move.origin (hm : Move s i e h h') (ho : o ∈ h'.origin) : o ∈ h.origin := by
  cases hm
  case get | lookup | send | toGateFailed => cases h <;> exact ho
  case find | next =>
    rw [Handler.origin_each] at ho
    exact ho
  all_goals cases ho

-- A connection to a gate keeps its place, and the number of frames read there only grows.
theorem Step.gateClient (hs : Step k s e s') {c : GateClient} {j : Nat} (hj : s.gateClients[j]? = some c) :
    ∃ c', s'.gateClients[j]? = some c' ∧ c'.conn = c.conn ∧ c.count ≤ c'.count := by
  cases hs
  case gateAccept => exact ⟨c, List.getElem?_append_of_eq_some hj, rfl, Nat.le_refl _⟩
  case gate i c₁ e redis c₂ hi hc =>
    have hc : GateClient.Change s.redis c₁ e redis c₂ := GateClient.Step.change hc
    by_cases hij : i = j
    case neg => exact ⟨c, by rwa [List.getElem?_set_ne hij], rfl, Nat.le_refl _⟩
    case pos =>
      subst hij
      cases hi.symm.trans hj
      exact ⟨c₂, List.getElem?_set_self (List.getElem?_eq_some_iff.mp hi).1, hc.conn_eq, hc.count_le⟩
  all_goals exact ⟨c, hj, rfl, Nat.le_refl _⟩

theorem Numbered.clients_step (hn : s.Numbered) (hs : Step k s e s') :
    ∀ c ∈ s'.gateClients, c.Numbered := by
  have keep := hn.clients
  cases hs
  case gateAccept =>
    intro c hc
    obtain hc | hc := List.mem_append.mp hc
    · exact keep c hc
    · cases List.mem_singleton.mp hc
      exact GateClient.accepted_numbered
  case gate i c₁ e redis c₂ hi hc =>
    intro c hm
    obtain hm | rfl := List.mem_or_eq_of_mem_set hm
    · exact keep c hm
    · exact (keep c₁ (List.mem_of_getElem? hi)).step (GateClient.Step.change hc)
  all_goals exact keep

-- A restore leaves the gate as a task of its connection.
theorem Numbered.forward (hn : s.Numbered) {j n : Nat} (hs : Step k s (.gate j (.forward n X)) s') :
    ∃ c, s.gateClients[j]? = some c ∧ n < c.count := by
  cases hs
  case gate c redis c' hj hc =>
    have hc : GateClient.Change s.redis c (.forward n X) redis c' := GateClient.Step.change hc
    refine ⟨c, hj, ?_⟩
    cases hc
    case restore ht he =>
      obtain he | he := he <;> cases he
      exact (hn.clients c (List.mem_of_getElem? hj)).tasks _ _ ht

theorem Numbered.step (hn : s.Numbered) (hs : Step k s e s') : s'.Numbered where
  clients := hn.clients_step hs
  origins := by
    intro h hh o ho
    have ⟨i, hi⟩ := List.mem_iff_getElem?.mp hh
    have ⟨c, hc, hlt⟩ : ∃ c, s.gateClients[o.conn]? = some c ∧ o.frame < c.count := by
      obtain hi | ha | ⟨h₁, hi, hm⟩ := hs.handler_origin hi
      · exact hn.origins h (List.mem_of_getElem? hi) o ho
      · cases ha <;> cases ho
        exact hn.forward hs
      · exact hn.origins h₁ (List.mem_of_getElem? hi) o (hm.origin ho)
    have ⟨c', hc', _, hle⟩ := hs.gateClient hc
    exact ⟨c', hc', Nat.lt_of_lt_of_le hlt hle⟩

-- What the assumptions on the run are about: the push with the number `a`, and the restore with the number
-- `b`. The client does not log off or log in elsewhere, the push service keeps the address of the gate, the
-- two handlers do not fail, and the push is answered only by who is at the connection.
def Quiet (conn : GateConn) (G : ConnId) (p : Push) (a b : Nat) (s : Cluster) : Event → Prop
  | .gate j (.set _ Y)           => Y = p.clientID → ∀ c ∈ s.gateClients[j]?, c.conn = conn
  | .gate _ (.del _ Y)           => Y ≠ p.clientID
  | .rspListenAddr addr connID   => addr = conn.listerAddr.str → connID = G
  | .getFailed i | .sendFailed i => i ≠ a ∧ i ≠ b
  | .reply pid => ObjectID.ofPid pid = .ofPid p.pid → s.p2gPush conn G p ∈ s.p2g
  | _          => True

variable {a b : Nat}

theorem Located.step (hl : s.Located conn p.clientID G) (hs : Step k s e s')
    (hq : s.Quiet conn G p a b e) : s'.Located conn p.clientID G := by
  have ⟨hr, hg⟩ := hl
  cases hs
  case rspListenAddr addr connID =>
    refine ⟨hr, ?_⟩
    by_cases ha : conn.listerAddr.str = addr
    case pos =>
      subst ha
      exact Partial.insert_self.trans (congrArg some (hq rfl))
    case neg => exact (Partial.insert_of_ne ha).trans hg
  case gate j c e redis c' hj hc =>
    have hc : GateClient.Change s.redis c e redis c' := GateClient.Step.change hc
    refine ⟨hc.redis_key ?_ ?_ hr, hg⟩
    · rintro n rfl _; exact hq rfl c hj
    · rintro n rfl; exact (hq rfl).elim
  all_goals exact ⟨hr, hg⟩

-- The push has been sent to the connection, or one of the two handlers is about to, or the first one has
-- not yet looked the client up and the second one not yet the records.
inductive Pending (conn : GateConn) (G : ConnId) (p : Push) (o : Origin) (a b : Nat) (s : Cluster) : Prop
  | sent : s.p2gPush conn G p ∈ s.p2g → Pending conn G p o a b s
  | due {i : Nat} {h : Handler} :
    i = a ∨ i = b → s.handlers[i]? = some h → h.Due conn G p → Pending conn G p o a b s
  | pushed : (∀ pc, s.handlers[a]? ≠ some (.pushing p pc)) → Pending conn G p o a b s
  | stored {r : Record} :
    r ∈ s.mongo → r.push = p → r.state = .unarrive →
    (∀ h, s.handlers[b]? = some h → ¬h.Found o) → Pending conn G p o a b s

-- The record of the push stays as it is, unless an answer marks it.
theorem Step.unarrive (hs : Step k s e s') (hq : s.Quiet conn G p a b e) {r : Record} (hr : r ∈ s.mongo)
    (hp : r.push = p) (hst : r.state = .unarrive) :
    s.p2gPush conn G p ∈ s.p2g ∨ ∃ r ∈ s'.mongo, r.push = p ∧ r.state = .unarrive := by
  obtain hm | ⟨_, _, _, _, _, _, hm⟩ | ⟨pid, _, rfl, hm⟩ := hs.mongo_cases <;> rw [hm]
  · exact .inr ⟨r, hr, hp, hst⟩
  · exact .inr ⟨r, List.mem_append_left _ hr, hp, hst⟩
  · obtain ⟨r', hr', hp', rfl | hid⟩ := Mongo.exists_mem_updateOne (.ofPid pid) hr
    · exact .inr ⟨r', hr', hp, hst⟩
    · have hpid : p.pid = r.id.bytes := congrArg Push.pid hp.symm
      exact .inl (hq (by rw [←hid, hpid, ObjectID.ofPid_bytes]))

-- The push has been inserted with its id and is going to look the client up.
theorem Move.pushing (hm : Move s i e h h') (hne : p.pid ≠ []) (ht : p.typ = conn.service.typ)
    {pc : ToGate} (hp : h' = .pushing p pc) : h'.Due conn G p ∨ ∃ pc, h = .pushing p pc := by
  cases hm
  case insert =>
    cases hp
    exact .inl <| .inl ⟨_, rfl, ToGate.aimed_start ht⟩
  case unsafePush => cases hp; exact (hne rfl).elim
  case get | lookup | send | toGateFailed =>
    cases h <;> cases hp
    exact .inr ⟨_, rfl⟩
  case find origin => cases hps : (s.mongo.find origin.clientID).map Record.push <;> cases hps ▸ hp
  case next ps     => cases ps <;> cases hp
  case insertFailed | findFailed => cases hp

-- The restore finds the record of the push.
theorem Move.found (hm : Move s i e h h') (hf : h'.Found o) (ht : p.typ = conn.service.typ)
    (ho : o.clientID = p.clientID) {r : Record} (hr : r ∈ s.mongo) (hp : r.push = p)
    (hst : r.state = .unarrive) : h.Found o ∨ h'.Due conn G p := by
  cases hm
  case find origin =>
    cases Handler.found_each.mp hf
    have hc : r.clientID = o.clientID := (congrArg Push.clientID hp).trans ho.symm
    exact .inr <| Handler.due_each ht <| List.mem_map.mpr ⟨r, Mongo.mem_find.mpr ⟨hr, hc, hst⟩, hp⟩
  case next => exact .inl (Handler.found_each.mp hf)
  case get | lookup | send | toGateFailed => exact .inl (Handler.found_goto.mp hf)
  all_goals exact hf.elim

theorem Pending.step (h : Pending conn G p o a b s) (hs : Step k s e s') (hq : s.Quiet conn G p a b e)
    (hl : s.Located conn p.clientID G) (hne : p.pid ≠ []) (ht : p.typ = conn.service.typ)
    (ho : o.clientID = p.clientID) : Pending conn G p o a b s' := by
  have hsent (h : s.p2gPush conn G p ∈ s.p2g) : Pending conn G p o a b s' := by
    refine .sent (hs.p2g_subset ?_)
    rwa [p2gPush, hs.nameSpace_eq]
  cases h
  case sent h => exact hsent h
  case due i h hab hi hd =>
    obtain hi' | ⟨h', hm, hi'⟩ := hs.handler_cases hi
    · exact .due hab hi' hd
    · have he : e ≠ .getFailed i ∧ e ≠ .sendFailed i := by
        constructor <;> rintro rfl <;> exact hab.elim hq.1 hq.2
      obtain hd | ⟨rfl, hg⟩ := hm.due hl hd ht he
      · exact .due hab hi' hd
      · exact .sent (hs.sent hi hg)
  case pushed h =>
    by_cases hp : ∃ pc, s'.handlers[a]? = some (.pushing p pc)
    case neg => exact .pushed (not_exists.mp hp)
    case pos =>
      have ⟨pc, hp⟩ := hp
      obtain hi | ha | ⟨h₁, hi, hm⟩ := hs.handler_origin hp
      · exact (h pc hi).elim
      · cases ha
      · obtain hd | ⟨pc', rfl⟩ := hm.pushing hne ht rfl
        · exact .due (.inl rfl) hp hd
        · exact (h pc' hi).elim
  case stored r hr hp hst h =>
    obtain hsent' | ⟨r', hr', hp', hst'⟩ := hs.unarrive hq hr hp hst
    · exact hsent hsent'
    by_cases hb : ∃ h', s'.handlers[b]? = some h' ∧ h'.Found o
    case neg => exact .stored hr' hp' hst' fun h' hb' hf => hb ⟨h', hb', hf⟩
    case pos =>
      have ⟨h', hb, hf⟩ := hb
      obtain hi | ha | ⟨h₁, hi, hm⟩ := hs.handler_origin hb
      · exact (h h' hi hf).elim
      · cases ha <;> exact hf.elim
      · obtain hf | hd := hm.found hf ht ho hr hp hst
        · exact (h h₁ hi hf).elim
        · exact .due (.inr rfl) hb hd

-- The reader of a connection runs a login.
theorem Step.set_eq {c : GateClient} {j n : Nat} (hs : Step k s (.gate j (.set n X)) s')
    (hj : s.gateClients[j]? = some c) : c.reader = some (n, X) ∧ s'.handlers = s.handlers ∧
      s'.redis (c.conn.service.key X) = some c.conn.location := by
  cases hs
  case gate c₁ redis c₂ hj' hc =>
    cases hj.symm.trans hj'
    have hc : GateClient.Change s.redis c (.set n X) redis c₂ := GateClient.Step.change hc
    cases hc
    case restore he => obtain he | he := he <;> cases he
    case set hr     => exact ⟨hr, rfl, Partial.insert_self⟩

-- What the login of the client leaves behind.
theorem Pending.login {c : GateClient} {j n n' : Nat} (hn : s.Numbered) (hst : s'.AllStored)
    (hj : s.gateClients[j]? = some c) (hs : Step k s (.gate j (.set n X)) s')
    (hu : ∀ r ∈ s'.mongo, r.push = p → r.state = .unarrive) (hne : p.pid ≠ []) (hlt : n < n') :
    Pending c.conn G p ⟨j, n', X⟩ a b s' := by
  have ⟨hr, hh, _⟩ := hs.set_eq hj
  by_cases ha : ∃ pc, s'.handlers[a]? = some (.pushing p pc)
  case neg => exact .pushed (not_exists.mp ha)
  case pos =>
    have ⟨pc, ha⟩ := ha
    have hst := hst _ (List.mem_of_getElem? ha) p (List.mem_singleton_self p)
    have ⟨r, hr', hp⟩ := hst.resolve_left hne
    refine .stored hr' hp (hu r hr' hp) fun h hb hf => ?_
    -- the reader runs the login, so it has not read the frame of the restore yet
    rw [hh] at hb
    have ⟨c', hc', hlt'⟩ := hn.origins h (List.mem_of_getElem? hb) _ (Handler.origin_of_found hf)
    cases hj.symm.trans hc'
    have hcount := (hn.clients c (List.mem_of_getElem? hj)).reader n X hr
    simp only at hlt'
    omega

theorem start_allStored {nameSpace : String} : (start nameSpace).AllStored :=
  List.forall_mem_nil _

-- A client logs in at the connection with the number `j`, and asks there for a restore. Every push to it,
-- whenever it comes, is sent to the connection.
theorem no_gap_between_push_and_login {nameSpace : String} {es₁ es₂ : List Event} {s₁ s₂ : Cluster}
    {j n n' : Nat} {c : GateClient} (h₁ : Exec (Step k) (start nameSpace) es₁ s₁)
    (hj : s₁.gateClients[j]? = some c) (hset : Step k s₁ (.gate j (.set n X)) s₂)
    (hg : s₂.gGateAddrMap c.conn.listerAddr.str = some G)
    (hu : ∀ r ∈ s₂.mongo, r.push = p → r.state = .unarrive)
    (h₂ : Exec (fun s e s' => Step k s e s' ∧ s.Quiet c.conn G p a b e) s₂ es₂ s)
    (ha : s.handlers[a]? = some (.pushing p .done)) (hX : p.clientID = X)
    (ht : p.typ = c.conn.service.typ) (hne : p.pid ≠ [])
    (hb : s.handlers[b]? = some (.restored ⟨j, n', X⟩)) (hlt : n < n') :
    s.p2gPush c.conn G p ∈ s.p2g := by
  subst hX
  have hn : s₁.Numbered := h₁.preserves start_numbered fun _ _ _ => Numbered.step
  have hst : s₂.AllStored := (h₁.snoc hset).preserves start_allStored fun _ _ _ => AllStored.step
  let I (s : Cluster) := s.Located c.conn p.clientID G ∧ Pending c.conn G p ⟨j, n', p.clientID⟩ a b s
  have hI₂ : I s₂ := ⟨⟨(hset.set_eq hj).2.2, hg⟩, Pending.login hn hst hj hset hu hne hlt⟩
  have ⟨_, hp⟩ : I s := h₂.preserves hI₂ fun _ _ _ h hs =>
    ⟨h.1.step hs.1 hs.2, h.2.step hs.1 hs.2 h.1 hne ht rfl⟩
  -- both handlers are at their ends
  cases hp
  case sent h           => exact h
  case pushed h         => exact (h _ ha).elim
  case stored _ _ _ _ h => exact (h _ hb rfl).elim
  case due i h hab hi hd =>
    obtain rfl | rfl := hab
    · cases ha.symm.trans hi
      obtain ⟨_, ⟨⟩, ⟨⟩⟩ | ⟨⟨⟩⟩ := hd
    · cases hb.symm.trans hi
      obtain ⟨_, ⟨⟩, _⟩ | ⟨⟨⟩⟩ := hd

-- The push is inserted and does not find the client, then the client logs in and asks for a restore.
def lateLogin : Cluster :=
  { start "ns" with
    mongo        := [⟨demoId, "x", "client", demoRpc 'x', .unarrive⟩]
    gGateAddrMap := Partial.insert (fun _ => none) "[::]:9000" "10.0.0.9:40000"
    clients      := ["10.0.0.9:40000"]
    handlers     := [.pushing ⟨"x", "client", demoRpc 'x', demoId.bytes⟩ .done]
    gateClients  := [⟨GateClient.demoConn, [.restore "x"], 1, some (0, "x"), []⟩] }

theorem exec_lateLogin : ∃ es, Exec (Step demoCodec) (start "ns") es lateLogin :=
  ⟨_, .cons (.gateAccept GateClient.demoConn) <|
    .cons (.s2pPush ⟨"x", "client", true, demoRpc 'x'⟩) <|
    .cons (e := .insert 0 demoId) (.insert rfl rfl (List.forall_mem_nil _)) <|
    .cons (.get (i := 0) rfl rfl) <|
    .cons (.gate (j := 0) (e := .send (.login "x")) rfl rfl) <|
    .cons (.gate (j := 0) (e := .send (.restore "x")) rfl rfl) <|
    .cons (.gate (j := 0) (e := .read) rfl rfl) <|
    .cons (.accept "10.0.0.9:40000") <|
    .single (.rspListenAddr "[::]:9000" "10.0.0.9:40000")⟩

def loggedIn : Cluster :=
  { lateLogin with
    redis       := Partial.insert (fun _ => none) "c_x" GateClient.demoConn.location
    gateClients := [⟨GateClient.demoConn, [.restore "x"], 1, none, []⟩] }

theorem push_sent_by_restore : ∃ es₁ es₂ s, Exec (Step demoCodec) (start "ns") es₁ lateLogin ∧
    Step demoCodec lateLogin (.gate 0 (.set 0 "x")) loggedIn ∧
    Exec (Step demoCodec) loggedIn es₂ s ∧
    ("10.0.0.9:40000", ⟨GateClient.demoConn.connID.str, demoId.bytes, "ns", demoRpc 'x'⟩) ∈ s.p2g := by
  have ⟨es₁, h₁⟩ := exec_lateLogin
  have hset : Step demoCodec lateLogin (.gate 0 (.set 0 "x")) loggedIn := .gate rfl rfl
  have ⟨es₂, s, h₂, ha, hb, hns⟩ : ∃ es₂ s, Exec (fun s e s' => Step demoCodec s e s' ∧
        s.Quiet GateClient.demoConn "10.0.0.9:40000" ⟨"x", "client", demoRpc 'x', demoId.bytes⟩ 0 1 e)
        loggedIn es₂ s ∧
      s.handlers[0]? = some (.pushing ⟨"x", "client", demoRpc 'x', demoId.bytes⟩ .done) ∧
      s.handlers[1]? = some (.restored ⟨0, 1, "x"⟩) ∧ s.nameSpace = "ns" :=
    ⟨_, _, .cons ⟨.gate (j := 0) (e := .read) rfl rfl, trivial⟩ <|
      .cons ⟨.gate (j := 0) (e := .forward 1 "x") rfl rfl, trivial⟩ <|
      .cons ⟨.find (i := 1) rfl, trivial⟩ <|
      .cons ⟨.get (i := 1) rfl rfl, trivial⟩ <|
      .cons ⟨.lookup (i := 1) rfl rfl rfl, trivial⟩ <|
      .cons ⟨.send (i := 1) rfl rfl (by decide), trivial⟩ <|
      .single ⟨.next (i := 1) rfl, trivial⟩, rfl, rfl, rfl⟩
  have hu : ∀ r ∈ loggedIn.mongo, r.push = ⟨"x", "client", demoRpc 'x', demoId.bytes⟩ →
      r.state = .unarrive := by
    intro r hr _
    cases List.mem_singleton.mp hr
    rfl
  have hp := no_gap_between_push_and_login h₁ rfl hset rfl hu h₂ ha rfl rfl (by decide) hb (by decide)
  rw [p2gPush, hns] at hp
  exact ⟨es₁, es₂, s, h₁, hset, h₂.mono fun _ _ _ => And.left, hp⟩

end Cluster
