import Microservice.PushService.Deployment
import Microservice.PushService.Theorems.Restore

namespace Cluster

variable {k : ClientSdk.Codec} {s s' s₁ : Cluster} {e : Event} {es : List Event} {i : Nat} {h : Handler}
variable {conn : GateConn} {G : ConnId} {p : Push} {addr : String}

-- The connection of the last gate to answer with the address.
def answered (addr : String) (es : List Event) : Option ConnId :=
  (es.filterMap fun
    | .rspListenAddr addr' connID => if addr' = addr then some connID else none
    | _                           => none).getLast?

theorem answered_concat : answered addr (es ++ [.rspListenAddr addr G]) = some G := by
  simp [answered]

theorem answered_of_ne (h : ∀ connID, e ≠ .rspListenAddr addr connID) :
    answered addr (es ++ [e]) = answered addr es := by
  unfold answered
  rw [List.filterMap_append]
  cases e
  case rspListenAddr addr' connID =>
    have hne : addr' ≠ addr := by
      rintro rfl
      exact h connID rfl
    simp [hne]
  all_goals simp

theorem Step.gGateAddrMap_eq (hs : Step k s e s') (h : ∀ connID, e ≠ .rspListenAddr addr connID) :
    s'.gGateAddrMap addr = s.gGateAddrMap addr := by
  cases hs
  case rspListenAddr addr' connID =>
    refine Partial.insert_of_ne ?_
    rintro rfl
    exact h connID rfl
  all_goals rfl

-- The push service has the last answer for each address.
theorem gGateAddrMap_of_exec {nameSpace : String} (h : Exec (Step k) (start nameSpace) es s) :
    s.gGateAddrMap addr = answered addr es := by
  refine h.invariant (I := fun es s => s.gGateAddrMap addr = answered addr es) rfl ?_
  intro es s e s' _ hi hs
  by_cases he : ∃ connID, e = .rspListenAddr addr connID
  case neg =>
    have he := not_exists.mp he
    rw [hs.gGateAddrMap_eq he, answered_of_ne he, hi]
  case pos =>
    have ⟨connID, he⟩ := he
    subst he
    rw [answered_concat]
    cases hs
    exact Partial.insert_self

-- A connection to a gate has been there before, or comes in.
theorem Step.gateClient_origin (hs : Step k s e s') {j : Nat} {c' : GateClient}
    (hj : s'.gateClients[j]? = some c') :
    (∃ c, s.gateClients[j]? = some c ∧ c'.conn = c.conn) ∨
    e = .gateAccept c'.conn ∧ j = s.gateClients.length := by
  cases hs
  case gateAccept conn =>
    obtain hj | ⟨rfl, rfl⟩ := List.getElem?_concat_cases hj
    · exact .inl ⟨c', hj, rfl⟩
    · exact .inr ⟨rfl, rfl⟩
  case gate i c₁ e redis c₂ hi hc =>
    obtain ⟨rfl, rfl⟩ | ⟨_, hj⟩ := List.getElem?_set_cases hj
    · have hc : GateClient.Change s.redis c₁ e redis c' := GateClient.Step.change hc
      exact .inl ⟨c₁, hi, hc.conn_eq⟩
    · exact .inl ⟨c', hj, rfl⟩
  all_goals exact .inl ⟨c', hj, rfl⟩

theorem handlers_setHandler (hi : s.handlers[i]? = some h) (h' : Handler) :
    (s.setHandler i h').handlers[i]? = some h' :=
  List.getElem?_set_self (List.getElem?_eq_some_iff.mp hi).1

-- What the steps of `PushToGate` do is determined by the handler.
theorem Step.get_eq {key : String} (hs : Step k s (.get i) s') (hi : s.handlers[i]? = some h)
    (hp : h.toGate = some (p, .get key)) : s' = s.setHandler i (h.goto (.got (s.redis key))) := by
  cases hs
  case get hp' hi' =>
    cases hi.symm.trans hi'
    cases hp.symm.trans hp'
    rfl

theorem Step.lookup_eq {target : String} (hs : Step k s (.lookup i) s') (hi : s.handlers[i]? = some h)
    (hp : h.toGate = some (p, .lookup target)) :
    ∃ pc, ToGate.find s.gGateAddrMap target = some pc ∧ s' = s.setHandler i (h.goto pc) := by
  cases hs
  case lookup hp' hf hi' =>
    cases hi.symm.trans hi'
    cases hp.symm.trans hp'
    exact ⟨_, hf, rfl⟩

theorem Step.send_eq {pc : ToGate} (hs : Step k s (.send i) s') (hi : s.handlers[i]? = some h)
    (hp : h.toGate = some (p, pc)) : ∃ clientConnID connID, pc = .send clientConnID connID ∧
      s'.p2g = s.p2g ++ [(connID, ⟨clientConnID, p.pid, s.nameSpace, p.pushMsg⟩)] := by
  cases hs
  case send hp' _ hi' =>
    cases hi.symm.trans hi'
    cases hp.symm.trans hp'
    exact ⟨_, _, rfl, rfl⟩

-- The run of `PushToGate` by a handler that nothing comes between.
def toGateEvents (i : Nat) : List Event :=
  [.get i, .lookup i, .send i]

section

variable (hi : s.handlers[i]? = some h) (hp : h.toGate = some (p, .start p))
variable (ht : p.typ = conn.service.typ)

include hi hp ht

-- Who is found in redis gets the push over the connection that the push service has for the gate.
theorem exec_toGateEvents (hl : s.Located conn p.clientID G) (hG : G ∈ s.clients) :
    ∃ s', Exec (Step k) s (toGateEvents i) s' ∧ s'.p2g = s.p2g ++ [s.p2gPush conn G p] := by
  rw [ToGate.start_eq ht] at hp
  have hget : Step k s (.get i) (s.setHandler i (h.goto (.lookup conn.location))) := by
    have hs := Step.get (k := k) hi hp
    rwa [hl.redis] at hs
  have hi₁ := handlers_setHandler hi (h.goto (.lookup conn.location))
  have hi₂ := handlers_setHandler hi₁ ((h.goto (.lookup conn.location)).goto (.send conn.connID.str G))
  have hp₁ : (h.goto (.lookup conn.location)).toGate = some (p, .lookup conn.location) :=
    Handler.toGate_goto hp
  have hlookup := Step.lookup (k := k) hi₁ hp₁ (GateConn.find_location hl.gate)
  exact ⟨_, .cons hget <| .cons hlookup <| .single (.send hi₂ (Handler.toGate_goto hp₁) hG), rfl⟩

theorem p2g_of_toGateEvents (hr : s.redis (conn.service.key p.clientID) = some conn.location)
    (hs : Exec (Step k) s (toGateEvents i) s') :
    ∃ G, s.gGateAddrMap conn.listerAddr.str = some G ∧ s'.p2g = s.p2g ++ [s.p2gPush conn G p] := by
  rw [ToGate.start_eq ht] at hp
  have ⟨s₁, hget, hs⟩ := Exec.cons_iff.mp hs
  have ⟨s₂, hlookup, hs⟩ := Exec.cons_iff.mp hs
  have ⟨s₃, hsend, hs⟩ := Exec.cons_iff.mp hs
  cases Exec.nil_iff.mp hs
  cases hget.get_eq hi hp
  rw [hr] at hlookup
  have ⟨pc, hf, he⟩ := hlookup.lookup_eq (handlers_setHandler hi _) (Handler.toGate_goto hp)
  subst he
  have ⟨clientConnID, connID, hpc, hp2g⟩ := hsend.send_eq
    (handlers_setHandler (handlers_setHandler hi _) _) (Handler.toGate_goto (Handler.toGate_goto hp))
  subst hpc
  cases hg : s.gGateAddrMap conn.listerAddr.str
  case none   => simp [ToGate.find, GateConn.split_location, setHandler, hg] at hf
  case some G =>
    cases (GateConn.find_location hg).symm.trans hf
    exact ⟨_, rfl, hp2g⟩

end

end Cluster

namespace Deployment

variable {D : Deployment} {k : ClientSdk.Codec} {s s' s₁ s₂ : Cluster} {e : Cluster.Event}
variable {es es₁ es₂ : List Cluster.Event} {c : GateClient} {i j n : Nat} {h : Handler} {p : Push}
variable {X nameSpace : String}

-- The connections to the gates have what their gates have given them.
def Owned (D : Deployment) (s : Cluster) : Prop :=
  ∀ j c, s.gateClients[j]? = some c →
    c.conn.service = (D.owner j).service ∧ c.conn.listerAddr = D.getListerAddr (D.owner j)

theorem start_owned : D.Owned (.start nameSpace) := by
  simp [Owned, Cluster.start]

theorem Owned.step (ho : D.Owned s) (hs : D.Step k s e s') : D.Owned s' := by
  intro j c' hj
  obtain ⟨c, hj, he⟩ | ⟨rfl, rfl⟩ := hs.1.gateClient_origin hj
  · rw [he]
    exact ho j c hj
  · exact hs.2

-- The login of another client, or on a gate of the other kind.
def Aside (D : Deployment) (service : GateService) (X : String) : Cluster.Event → Prop
  | .gate j (.set _ Y) | .gate j (.del _ Y) => Y = X → (D.owner j).service ≠ service
  | _                                       => True

theorem Owned.redis_step {conn : GateConn} (ho : D.Owned s) (hs : Cluster.Step k s e s')
    (ha : D.Aside conn.service X e) (hr : s.redis (conn.service.key X) = some conn.location) :
    s'.redis (conn.service.key X) = some conn.location := by
  cases hs
  case gate j c e redis c' hj hc =>
    have hc : GateClient.Change s.redis c e redis c' := GateClient.Step.change hc
    have hown := (ho j c hj).1
    refine hc.redis_key ?_ ?_ hr
    · rintro n rfl hservice
      exact (ha rfl (hown.symm.trans hservice)).elim
    · rintro n rfl hservice
      exact ha rfl (hown.symm.trans hservice)
  all_goals exact hr

theorem Owned.redis_of_exec {conn : GateConn} (ho : D.Owned s) (hs : Exec (D.Step k) s es s')
    (ha : ∀ e ∈ es, D.Aside conn.service X e)
    (hr : s.redis (conn.service.key X) = some conn.location) :
    s'.redis (conn.service.key X) = some conn.location := by
  induction hs
  case refl => exact hr
  case snoc es s₁ s₂ e hs hstep hi =>
    have ho₁ : D.Owned s₁ := hs.preserves ho fun _ _ _ => Owned.step
    apply ho₁.redis_step hstep.1 (ha e (List.mem_append_right _ (List.mem_singleton_self e)))
    exact hi fun e he => ha e (List.mem_append_left _ he)

-- A client logs in at a gate, and then nowhere else on a gate of the kind. A push to it goes over the
-- connection of that gate if and only if no gate with the same listen address has answered the push service
-- after it.
theorem push_to_gate_of_login_iff (h₁ : Exec (D.Step k) (.start nameSpace) es₁ s₁)
    (hj : s₁.gateClients[j]? = some c) (hset : D.Step k s₁ (.gate j (.set n X)) s₂)
    (h₂ : Exec (D.Step k) s₂ es₂ s) (ha : ∀ e ∈ es₂, D.Aside (D.owner j).service X e)
    (hi : s.handlers[i]? = some h) (hp : h.toGate = some (p, .start p)) (hX : p.clientID = X)
    (ht : p.typ = (D.owner j).service.typ) (hG : (D.owner j).connID ∈ s.clients) :
    (∃ s', Exec (Cluster.Step k) s (Cluster.toGateEvents i) s' ∧
      s'.p2g = s.p2g ++ [((D.owner j).connID, ⟨c.conn.connID.str, p.pid, s.nameSpace, p.pushMsg⟩)]) ↔
    Cluster.answered (D.getListerAddr (D.owner j)).str (es₁ ++ .gate j (.set n X) :: es₂) =
      some (D.owner j).connID := by
  subst hX
  have ho₁ : D.Owned s₁ := h₁.preserves start_owned fun _ _ _ => Owned.step
  have ⟨hservice, haddr⟩ := ho₁ j c hj
  rw [←hservice] at ha ht
  have hr : s.redis (c.conn.service.key p.clientID) = some c.conn.location :=
    (ho₁.step hset).redis_of_exec h₂ ha (hset.1.set_eq hj).2.2
  have hm : s.gGateAddrMap c.conn.listerAddr.str =
      Cluster.answered (D.getListerAddr (D.owner j)).str (es₁ ++ .gate j (.set n p.clientID) :: es₂) := by
    rw [haddr]
    exact Cluster.gGateAddrMap_of_exec ((h₁.trans (.cons hset h₂)).mono fun _ _ _ => And.left)
  rw [←hm]
  constructor
  case mp =>
    intro ⟨s', hs, hp2g⟩
    have ⟨G, hg, hp2g'⟩ := Cluster.p2g_of_toGateEvents hi hp ht hr hs
    have he := List.append_cancel_left (hp2g.symm.trans hp2g')
    cases he
    exact hg
  case mpr =>
    intro hg
    exact Cluster.exec_toGateEvents hi hp ht ⟨hr, hg⟩ hG

-- Two client gates on different hosts, with the same port. All clients are at the first one.
def demoGate₁ : GateServer := ⟨.clientGate, "10.0.0.1", 9000, "10.0.0.1:40000"⟩

def demoGate₂ : GateServer := ⟨.clientGate, "10.0.0.2", 9000, "10.0.0.2:40000"⟩

theorem slash_not_mem_any : '/' ∉ "[::]:9000".toList := by
  decide

theorem slash_not_mem_host : '/' ∉ "10.0.0.9:9000".toList := by
  decide

def demo : Deployment where
  listen ip _ :=
    if ip = "0.0.0.0" then ⟨"[::]:9000", slash_not_mem_any⟩ else ⟨"10.0.0.9:9000", slash_not_mem_host⟩
  gates       := {demoGate₁, demoGate₂}
  owner _     := demoGate₁

def demoAnswer (g : GateServer) : Cluster.Event :=
  .rspListenAddr "[::]:9000" g.connID

-- The gates connect and a client logs in, before the gates answer.
def demoConnected : Cluster :=
  { Cluster.start "ns" with
    redis       := Partial.insert (fun _ => none) "c_x" GateClient.demoConn.location
    clients     := [demoGate₂.connID, demoGate₁.connID]
    gateClients := [⟨GateClient.demoConn, [], 1, none, []⟩] }

theorem exec_demoConnected : ∃ s₁ es₁, Exec (demo.Step Cluster.demoCodec) (.start "ns") es₁ s₁ ∧
    s₁.gateClients[0]? = some ⟨GateClient.demoConn, [], 1, some (0, "x"), []⟩ ∧
    demo.Step Cluster.demoCodec s₁ (.gate 0 (.set 0 "x")) demoConnected :=
  ⟨_, _, .cons ⟨.accept demoGate₁.connID, trivial⟩ <|
    .cons ⟨.accept demoGate₂.connID, trivial⟩ <|
    .cons ⟨.gateAccept GateClient.demoConn, rfl, rfl⟩ <|
    .cons ⟨.gate (j := 0) (e := .send (.login "x")) rfl rfl, trivial⟩ <|
    .single ⟨.gate (j := 0) (e := .read) rfl rfl, trivial⟩, rfl, ⟨.gate rfl rfl, trivial⟩⟩

def demoReq : PushReq := ⟨"x", "client", false, Cluster.demoRpc 'x'⟩

-- The two gates answer, and a service pushes to the client.
def demoEvents (g g' : GateServer) : List Cluster.Event :=
  [demoAnswer g, demoAnswer g', .s2pPush demoReq, .unsafePush 0]

def demoPushing (g g' : GateServer) : Cluster :=
  { demoConnected with
    gGateAddrMap :=
      Partial.insert (Partial.insert (fun _ => none) "[::]:9000" g.connID) "[::]:9000" g'.connID
    handlers     := [.pushing (demoReq.push []) (.start (demoReq.push []))] }

theorem exec_demoPushing {g g' : GateServer} (hg : demo.Answer "[::]:9000" g.connID)
    (hg' : demo.Answer "[::]:9000" g'.connID) :
    Exec (demo.Step Cluster.demoCodec) demoConnected (demoEvents g g') (demoPushing g g') :=
  .cons ⟨.rspListenAddr .., hg⟩ <| .cons ⟨.rspListenAddr .., hg'⟩ <|
    .cons ⟨.s2pPush demoReq, trivial⟩ <| .single ⟨.unsafePush (i := 0) rfl rfl, trivial⟩

theorem push_to_last_answer : ∃ s', Exec (Cluster.Step Cluster.demoCodec) (demoPushing demoGate₂ demoGate₁)
    (Cluster.toGateEvents 0) s' ∧
    s'.p2g = [(demoGate₁.connID, ⟨"10.0.0.7:51000", [], "ns", Cluster.demoRpc 'x'⟩)] := by
  have ⟨s₁, es₁, h₁, hj, hset⟩ := exec_demoConnected
  have h₂ := exec_demoPushing ⟨demoGate₂, .inr rfl, rfl, rfl⟩ ⟨demoGate₁, .inl rfl, rfl, rfl⟩
  refine (push_to_gate_of_login_iff (i := 0) h₁ hj hset h₂ ?_ rfl rfl rfl rfl (by decide)).mpr ?_
  · simp [demoEvents, demoAnswer, Aside]
  · rw [←Cluster.gGateAddrMap_of_exec ((h₁.trans (.cons hset h₂)).mono fun _ _ _ => And.left)]
    rfl

-- The second gate answers after the first one: the push goes to it, though the client is at the first one.
theorem push_to_other_gate : ∃ s₁ es₁ s', Exec (demo.Step Cluster.demoCodec) (.start "ns") es₁ s₁ ∧
    demo.Step Cluster.demoCodec s₁ (.gate 0 (.set 0 "x")) demoConnected ∧
    Exec (demo.Step Cluster.demoCodec) demoConnected (demoEvents demoGate₁ demoGate₂)
      (demoPushing demoGate₁ demoGate₂) ∧
    Exec (Cluster.Step Cluster.demoCodec) (demoPushing demoGate₁ demoGate₂) (Cluster.toGateEvents 0) s' ∧
    demo.owner 0 = demoGate₁ ∧
    s'.p2g = [(demoGate₂.connID, ⟨"10.0.0.7:51000", [], "ns", Cluster.demoRpc 'x'⟩)] := by
  have ⟨s₁, es₁, h₁, _, hset⟩ := exec_demoConnected
  have h₂ := exec_demoPushing ⟨demoGate₁, .inl rfl, rfl, rfl⟩ ⟨demoGate₂, .inr rfl, rfl, rfl⟩
  let s := demoPushing demoGate₁ demoGate₂
  have hl : s.Located GateClient.demoConn (demoReq.push []).clientID demoGate₂.connID := ⟨rfl, rfl⟩
  have ⟨s', h₃, hp⟩ := Cluster.exec_toGateEvents (k := Cluster.demoCodec) (s := s) (i := 0)
    (p := demoReq.push []) rfl rfl rfl hl (by decide)
  exact ⟨s₁, es₁, s', h₁, hset, h₂, h₃, rfl, hp⟩

end Deployment
