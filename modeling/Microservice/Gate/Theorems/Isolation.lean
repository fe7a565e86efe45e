import Microservice.Gate.Replay
import Microservice.Gate.Theorems.Basic

namespace Gate

section

variable {ρ : Type*}

-- The rpcs that services and push services send to a gate, and gates to clients. Their handlers take a
-- callback by its id or look a client up.
def Rpc.FromServer : Rpc ρ → Prop
  | .rsp .. | .clientRsp _ | .push .. => True
  | .route _ | .accessReport .. | .call .. | .other => False

instance : DecidablePred (Rpc.FromServer : Rpc ρ → Prop)
  | .rsp .. | .clientRsp _ | .push .. => .isTrue trivial
  | .route _ | .accessReport .. | .call .. | .other => .isFalse id

-- The messages for clients.
def Msg.ToClient : Msg ρ → Prop
  | .g2cRpcRsp .. | .g2cPush .. => True
  | .g2sRpcCall .. | .s2gRpcRsp .. => False

-- No client sends such an rpc, as it is or inside of calls, and no callback is overwritten by one of
-- another connection.
def Modest (g : Gate ρ) : Event ρ → Prop
  | .frame src rpc          => src.IsTcpClient → ¬rpc.body.FromServer
  | .register _ grid info _ => ∀ x ∈ g.cb.gCbMap grid, x.1.connID = info.connID
  | _                       => True

instance (g : Gate ρ) : DecidablePred g.Modest
  | .frame src rpc          => inferInstanceAs (Decidable (src.IsTcpClient → ¬rpc.body.FromServer))
  | .register _ grid info _ =>
    inferInstanceAs (Decidable (∀ x ∈ g.cb.gCbMap grid, x.1.connID = info.connID))
  | .accept _ | .close _ | .rmgr _ | .take _ | .check _ | .reject .. | .choose _ | .noReply _ | .genGid ..
  | .added .. | .get .. | .deleted .. | .lookup _ | .report .. | .send .. | .done _ | .panic _ | .mgr _ =>
    .isTrue trivial

-- A step of the task `i`, whose frame came over `conn`, sends messages for clients over `conn` only, and
-- leaves the callbacks alone that belong to other connections.
structure Isolated (g : Gate ρ) (e : Event ρ) (g' : Gate ρ) (i : Nat) (conn : Conn) : Prop where
  sent : ∀ conn' msg, e = .send i conn' msg → msg.ToClient → conn' = conn
  kept : ∀ cbid info node, g.cb.gCbMap cbid = some (info, node) → info.connID ≠ getConnID conn →
    g'.cb.gCbMap cbid = some (info, node)

end

variable {ρ : Type*} {cfg : Config ρ} {g g' : Gate ρ} {e : Event ρ} {es : List (Event ρ)}
variable {i : Nat} {t : Task ρ} {conn conn' : Conn} {msg : Msg ρ} {cbid : UInt32}

-- No task of a client runs a handler for rpcs from servers.
def Innocent (g : Gate ρ) : Prop :=
  ∀ i t, g.At i t → t.src.IsTcpClient → ¬t.rpc.FromServer

theorem Innocent.step (h : g.Innocent) (ha : Act cfg g e g') (hm : g.Modest e) : g'.Innocent := by
  intro i s hi hc
  obtain ⟨hi, _⟩ | ⟨src, rpc, rfl, _, rfl⟩ | ⟨t, ht, hmv⟩ := ha.taskStep.back hi
  · exact h i s hi hc
  · exact hm hc
  · exact hmv.rpc ▸ h i t ht (hmv.src ▸ hc)

theorem Task.outgoing_to_client (h : t.outgoing = some (conn', msg)) (hm : msg.ToClient)
    (hr : ¬t.rpc.FromServer) : conn' = t.src.conn := by
  obtain ⟨_, _, _, _, hc, _⟩ | ⟨_, _, _, _, _, rfl⟩ | ⟨_, _, _, _, hrpc, _⟩ | ⟨_, _, _, _, hrpc, _⟩ :=
    Task.outgoing_cases h
  · exact hc
  · exact hm.elim
  · simp [hrpc, Rpc.FromServer] at hr
  · simp [hrpc, Rpc.FromServer] at hr

theorem Rpc.fromServer_of_cbid {rpc : Rpc ρ} (h : rpc.cbid = some cbid) : rpc.FromServer := by
  cases rpc <;> simp_all [Rpc.cbid, Rpc.FromServer]

-- The handler of any other rpc changes the callbacks by `AddCallBack` only.
theorem Act.gCbMap_cases (ha : Act cfg g e g') (he : e.actor = some i) (hi : g.At i t)
    (hr : ¬t.rpc.FromServer) :
    g'.cb.gCbMap = g.cb.gCbMap ∨
    ∃ info node endTime, e = .register i t.grid info endTime ∧ info.connID = t.clientID ∧
      g'.cb.gCbMap = g.cb.gCbMap.insert t.grid (info, node) := by
  cases ha <;> try cases he
  case register hinfo hrun =>
    obtain rfl := hi.unique hrun.1
    exact .inr ⟨_, _, _, rfl, by rw [hinfo], rfl⟩
  case get hc _ _ hrun =>
    obtain rfl := hi.unique hrun.1
    exact absurd (Rpc.fromServer_of_cbid hc) hr
  all_goals
    first
    | exact .inl rfl
    | rename CallbackMgr.MgrStep _ _ _ => hs
      cases hs
      exact .inl rfl

theorem Innocent.isolated (h : g.Innocent) (ha : Act cfg g e g') (hm : g.Modest e)
    (he : e.actor = some i) (hi : g.At i t) (hsrc : t.src = .tcpClient conn) :
    Isolated g e g' i conn where
  sent := by
    rintro conn' msg rfl hc
    obtain ⟨u, hrun, hout, _⟩ := ha.of_send rfl
    obtain rfl := hi.unique hrun.1
    rw [Task.outgoing_to_client hout hc (h i t hi (by simp [hsrc, Source.IsTcpClient])), hsrc, Source.conn]
  kept := by
    intro cbid info node hx hne
    obtain hg | ⟨info', node', endTime, rfl, hinfo, hg⟩ :=
      ha.gCbMap_cases he hi (h i t hi (by simp [hsrc, Source.IsTcpClient]))
    · rwa [hg]
    · have hid : cbid ≠ t.grid := by
        rintro rfl
        have hown : info.connID = info'.connID := hm (info, node) hx
        exact hne (hown.trans (hinfo.trans (by rw [Task.clientID, hsrc, Source.conn])))
      rwa [hg, Partial.insert_of_ne hid]

-- A service has reported its rpcs, and the request of a client for one of them waits for its response.
def waitingRequest (conn : Conn) : List (Turn Unit) :=
  [.rmgr (.connectRemote "n" "s" "i" 1 ⟨1, "i:1"⟩),
    .frame (.remote ⟨"n:s", 1, "i:1"⟩) (.accessReport "n:s" (Partial.insert (fun _ => none) "f" true)),
    .task 0, .task 0,
    .accept conn, .frame (.tcpClient conn) (.route ⟨"n", "s", 7, false, Config.innerRpc "f"⟩)] ++
  List.replicate 11 (.task 1) ++ [.mgr, .task 1]

-- The task that sends a message for a client, and the connection it goes to.
def Event.sentToClient : Event ρ → Option (Nat × Conn)
  | .send i conn (.g2cRpcRsp ..) | .send i conn (.g2cPush ..) => some (i, conn)
  | _ => none

theorem Event.eq_send_of_sentToClient (h : e.sentToClient = some (i, conn)) :
    ∃ msg : Msg ρ, e = .send i conn msg ∧ msg.ToClient := by
  unfold Event.sentToClient at h
  split at h <;> cases h <;> exact ⟨_, rfl, trivial⟩

-- The task that takes a callback, the id, and the connection the callback belongs to.
def Event.tookCallBack : Event ρ → Option (Nat × UInt32 × ConnId)
  | .get i cbid (some info) => some (i, cbid, info.connID)
  | _                       => none

theorem Event.eq_get_of_tookCallBack {connID : ConnId} (h : e.tookCallBack = some (i, cbid, connID)) :
    ∃ info, e = .get i cbid (some info) ∧ info.connID = connID := by
  unfold Event.tookCallBack at h
  split at h <;> cases h
  exact ⟨_, rfl, rfl⟩

-- In a run without such frames and overwritten callbacks, whatever a client sends leaves the others
-- alone: every step of each of its tasks is isolated.
theorem clients_isolated_of_modest
    (h : Exec (fun g e g' => Step cfg g e g' ∧ g.Modest e) init es g) (hs : Step cfg g e g')
    (hm : g.Modest e) (he : e.actor = some i) (hi : g.At i t) (hsrc : t.src = .tcpClient conn) :
    Isolated g e g' i conn := by
  have hinnocent : g.Innocent :=
    h.preserves (I := Innocent) (by simp [Innocent, init]) fun _ _ _ hi hs => hi.step hs.1.act hs.2
  exact hinnocent.isolated hs.act hm he hi hsrc

-- Another client asks for a service that does not exist, and gets the error itself.
theorem clients_isolated_refused :
    ∃ (cfg : Config Unit) (es : List (Event Unit)) (g g' : Gate Unit) (msg : Msg Unit),
      cfg.identity = .clientGate ∧ Exec (fun g e g' => Step cfg g e g' ∧ g.Modest e) init es g ∧
      Step cfg g (.send 2 ⟨3, "d"⟩ msg) g' ∧
      (∃ x, g.cb.gCbMap 1 = some x ∧ x.1.connID = "c" ∧ g'.cb.gCbMap 1 = some x) ∧
      Isolated g (.send 2 ⟨3, "d"⟩ msg) g' 2 ⟨3, "d"⟩ := by
  let cfg := Config.msgpack .clientGate
  let xs : List (Turn Unit) := waitingRequest ⟨2, "c"⟩ ++
    [.frame (.tcpClient ⟨3, "d"⟩) (.route ⟨"n", "x", 8, false, Config.innerRpc "f"⟩), .task 2, .task 2]
  have hr : ((replay cfg (fun g e => g.Modest e) 0 xs init).any fun (_, g) =>
      g.alive && (g.tasks[2]?.any fun t => t.src = .tcpClient ⟨3, "d"⟩) &&
      (g.cb.gCbMap 1).any (·.1.connID = "c") &&
      (g.turn cfg 0 (.task 2)).any fun (e, _) => e.sentToClient = some (2, ⟨3, "d"⟩)) = true := by
    decide +kernel
  simp only [Option.any_eq_true, Bool.and_eq_true, decide_eq_true_eq, Prod.exists] at hr
  obtain ⟨es, g, hx, ⟨⟨hal, t, ht, hsrc⟩, info, node, hcb, hinfo⟩, e, g', hturn, hsent⟩ := hr
  obtain ⟨msg, rfl, _⟩ := Event.eq_send_of_sentToClient hsent
  have hx := (exec_of_replay xs hx).mono fun _ _ _ h => And.imp_right of_decide_eq_true h
  have hs : Step cfg g (.send 2 ⟨3, "d"⟩ msg) g' := ⟨hal, .of_turn hturn⟩
  have hi := clients_isolated_of_modest hx hs trivial rfl ht hsrc
  exact ⟨cfg, es, g, g', msg, rfl, hx, hs, ⟨_, hcb, hinfo, hi.kept _ _ _ hcb (by rw [hinfo]; decide)⟩, hi⟩

-- Another client sends the response of the service. The request is answered with it, and its callback is
-- gone.
theorem client_answers_for_service :
    ∃ (cfg : Config Unit) (es es' : List (Event Unit)) (g g₁ g' : Gate Unit) (t : Task Unit)
      (info : RouteCbInfo) (msg : Msg Unit),
      cfg.identity = .clientGate ∧ Exec (Step cfg) init es g ∧
      g.At 2 t ∧ t.src = .tcpClient ⟨3, "d"⟩ ∧ Step cfg g (.get 2 1 (some info)) g₁ ∧
      info.connID = "c" ∧ g₁.cb.gCbMap 1 = none ∧
      Exec (Step cfg) g₁ es' g' ∧ .send 2 ⟨2, "c"⟩ msg ∈ es' ∧ msg.ToClient := by
  let cfg := Config.msgpack .clientGate
  let xs : List (Turn Unit) := waitingRequest ⟨2, "c"⟩ ++
    [.frame (.tcpClient ⟨3, "d"⟩) (.rsp 1 "" none), .task 2]
  have hr : ((replay cfg (fun _ _ => true) 0 xs init).any fun (_, g) =>
      g.alive && (g.tasks[2]?.any fun t => t.src = .tcpClient ⟨3, "d"⟩) &&
      (g.turn cfg 0 (.task 2)).any fun (e, g₁) =>
        e.tookCallBack = some (2, 1, "c") && (g₁.cb.gCbMap 1).isNone &&
        (replay cfg (fun _ _ => true) 0 [.task 2, .task 2, .task 2] g₁).any fun (es', _) =>
          es'.any fun e => e.sentToClient = some (2, ⟨2, "c"⟩)) = true := by
    decide +kernel
  simp only [Option.any_eq_true, Bool.and_eq_true, decide_eq_true_eq, Prod.exists, List.any_eq_true,
    Option.isNone_iff_eq_none] at hr
  obtain ⟨es, g, hx, ⟨hal, t, ht, hsrc⟩, e, g₁, hturn, ⟨he, hnone⟩, es', g', hx', e', hm, hsent⟩ := hr
  obtain ⟨msg, rfl, hc⟩ := Event.eq_send_of_sentToClient hsent
  obtain ⟨info, rfl, hinfo⟩ := Event.eq_get_of_tookCallBack he
  exact ⟨cfg, es, es', g, g₁, g', t, info, msg, rfl,
    (exec_of_replay xs hx).mono fun _ _ _ h => h.1, ht, hsrc, ⟨hal, .of_turn hturn⟩, hinfo, hnone,
    (exec_of_replay _ hx').mono fun _ _ _ h => h.1, hm, hc⟩

end Gate
