import Microservice.Framework.Theorems.RpcEncode
import Microservice.Gate.RpcHandler

namespace CallbackMgr

variable {β τ : Type*} {m m' : CallbackMgr β τ} {now : Int} {e : MgrEvent τ}

-- What the goroutine of `StartCallbackMgr` does next by itself, where a tick is due in the `select`.
def turn (m : CallbackMgr β τ) (now : Int) : Option (MgrEvent τ × CallbackMgr β τ) :=
  match m.mgr with
  | .select             => some (.tick now, { m with mgr := .walk now m.queue.lastNode })
  | .add node           =>
    (m.queue.queueAdd node).map fun q => (.queueAdd node, { m with queue := q, mgr := .select })
  | .del node           =>
    some (.queueDel node, { m with queue := m.queue.queueDel node, mgr := .select })
  | .walk _ none        => some (.done, { m with mgr := .select })
  | .walk now (some cur) =>
    if (m.queue.heap cur).endTime ≤ now then
      match m.gCbMap (m.queue.heap cur).cbid with
      | none   =>
        some (.stale (m.queue.heap cur).cbid, { m with mgr := .unlink now cur (m.queue.heap cur).prev })
      | some _ =>
        some (.expire (m.queue.heap cur).cbid now,
          { m with
            gCbMap := m.gCbMap.erase (m.queue.heap cur).cbid
            mgr    := match (m.queue.heap cur).timeOutCb with
              | none   => .unlink now cur (m.queue.heap cur).prev
              | some _ => .call now cur (m.queue.heap cur).prev })
    else
      some (.done, { m with mgr := .select })
  | .call now cur prev  =>
    (m.queue.heap cur).timeOutCb.map fun cb =>
      (.call (m.queue.heap cur).cbid now cb, { m with mgr := .unlink now cur prev })
  | .unlink now cur prev =>
    some (.unlink cur, { m with queue := m.queue.queueDel cur, mgr := .walk now prev })

-- The hand-over of a node by a goroutine that waits for it.
def recvAdd (m : CallbackMgr β τ) (node : Ptr) : Option (CallbackMgr β τ) :=
  match m.mgr with
  | .select =>
    if node ∈ m.chQueueAdd then
      some { m with chQueueAdd := m.chQueueAdd.erase node, mgr := .add node }
    else
      none
  | _ => none

def recvDel (m : CallbackMgr β τ) (node : Ptr) : Option (CallbackMgr β τ) :=
  match m.mgr with
  | .select =>
    if node ∈ m.chQueueDel then
      some { m with chQueueDel := m.chQueueDel.erase node, mgr := .del node }
    else
      none
  | _ => none

theorem MgrStep.of_recvAdd (h : m.recvAdd node = some m') : MgrStep m (.recvAdd node) m' := by
  unfold CallbackMgr.recvAdd at h
  split at h <;> try cases h
  case h_1 hm =>
    split at h <;> cases h
    case isTrue hn => exact .recvAdd hm hn

theorem MgrStep.of_recvDel (h : m.recvDel node = some m') : MgrStep m (.recvDel node) m' := by
  unfold CallbackMgr.recvDel at h
  split at h <;> try cases h
  case h_1 hm =>
    split at h <;> cases h
    case isTrue hn => exact .recvDel hm hn

theorem MgrStep.of_turn (h : m.turn now = some (e, m')) :
    MgrStep m e m' ∧ (∀ node, e ≠ .recvAdd node) ∧ ∀ node, e ≠ .recvDel node := by
  unfold turn at h
  split at h
  case h_1 hm => cases h; exact ⟨.tick hm, by simp, by simp⟩
  case h_2 node hm =>
    obtain ⟨q, hq, hs⟩ := Option.map_eq_some_iff.mp h
    cases hs
    exact ⟨.queueAdd hm hq, by simp, by simp⟩
  case h_3 hm => cases h; exact ⟨.queueDel hm, by simp, by simp⟩
  case h_4 hm => cases h; exact ⟨.finish hm, by simp, by simp⟩
  case h_5 hm =>
    split at h
    case isFalse he => cases h; exact ⟨.break hm (Int.not_le.mp he), by simp, by simp⟩
    case isTrue he =>
      split at h
      case h_1 hn => cases h; exact ⟨.stale hm he hn, by simp, by simp⟩
      case h_2 hn => cases h; exact ⟨.expire hm he hn, by simp, by simp⟩
  case h_6 hm =>
    obtain ⟨cb, hc, hs⟩ := Option.map_eq_some_iff.mp h
    cases hs
    exact ⟨.call hm hc, by simp, by simp⟩
  case h_7 hm => cases h; exact ⟨.unlink hm, by simp, by simp⟩

end CallbackMgr

namespace Gate

variable {ρ : Type*} {cfg : Config ρ} {g g' : Gate ρ} {i : Nat} {t : Task ρ} {now : Int} {e : Event ρ}

instance : DecidablePred (Accepted cfg)
  | .rsp grid error reply => inferInstanceAs (Decidable (cfg.size (.s2gRpcRsp grid error reply) ≤ maxSize))
  | .route _ | .push .. | .accessReport .. | .clientRsp _ | .call .. | .other => .isTrue trivial

-- What the handlers do next, each in a function of its own. The result is `none` if a handler waits for
-- the callback manager.
def routeTurn (cfg : Config ρ) (g : Gate ρ) (i : Nat) (t : Task ρ) (req : RouteReq) (now : Int) :
    Option (Event ρ × Gate ρ) :=
  match t.pc with
  | .start =>
    match g.permission cfg t.src req with
    | none     => some (.check i, g.setTask i { t with pc := .choosing .start })
    | some err => some (.reject i err, g.setTask i { t with pc := rejected req err })
  | .choosing (.returned none) =>
    let err := "service " ++ req.nameSpace ++ ":" ++ req.service ++ " not exist"
    some (.reject i err, g.setTask i { t with pc := rejected req err })
  | .choosing (.returned (some remote)) =>
    if req.rid = 0 then
      some (.noReply i, g.setTask i { t with pc := .sending remote })
    else
      some (.genGid i (g.globalGID + 1),
        { g.setTask i { t with grid := g.globalGID + 1, pc := .drawn remote } with
          globalGID := g.globalGID + 1 })
  | .choosing .panicked => some (.panic i, g.setTask i { t with pc := .panicked })
  | .choosing choice =>
    let next := g.rmgr.choiceRemote req.remoteID req.isOrdered t.clientID choice
    some (.choose i, { g.setTask i { t with pc := .choosing next.snd } with rmgr := next.fst })
  | .drawn remote =>
    some (.register i t.grid ⟨req.rid, t.clientID⟩ (Int8.toInt 101 + now),
      { g.setTask i { t with pc := .adding remote g.cb.queue.alloc } with
        cb := g.cb.addCallBack t.grid ⟨req.rid, t.clientID⟩ 101 now none })
  | .adding remote node =>
    (g.cb.recvAdd node).map fun cb =>
      (.added i node, { g.setTask i { t with pc := .sending remote } with cb := cb })
  | _ => none

def getTurn (g : Gate ρ) (i : Nat) (t : Task ρ) (cbid : UInt32) : Event ρ × Gate ρ :=
  match g.cb.gCbMap cbid with
  | none              => (.get i cbid none, g.setTask i { t with pc := .finished })
  | some (info, node) =>
    (.get i cbid (some info),
      { g.setTask i { t with pc := .deleting info node } with cb := g.cb.getCallBack cbid })

def rspTurn (g : Gate ρ) (i : Nat) (t : Task ρ) (grid : UInt32) : Option (Event ρ × Gate ρ) :=
  match t.pc with
  | .start => some (g.getTurn i t grid)
  | .deleting info node =>
    (g.cb.recvDel node).map fun cb =>
      (.deleted i node, { g.setTask i { t with pc := .client info } with cb := cb })
  | .client info =>
    match g.clients info.connID with
    | some conn => some (.lookup i, g.setTask i { t with pc := .responding info.rid conn })
    | none      => some (.lookup i, g.setTask i { t with pc := .remote info })
  | .remote info =>
    match g.rmgr.getRemote info.connID with
    | some remote => some (.lookup i, g.setTask i { t with pc := .responding info.rid remote.conn })
    | none        => some (.lookup i, g.setTask i { t with pc := .finished })
  | _ => none

def clientRspTurn (g : Gate ρ) (i : Nat) (t : Task ρ) (rid : UInt32) : Option (Event ρ × Gate ρ) :=
  match t.pc with
  | .start => some (g.getTurn i t rid)
  | .deleting _ node =>
    (g.cb.recvDel node).map fun cb =>
      (.deleted i node, { g.setTask i { t with pc := .panicked } with cb := cb })
  | _ => none

def pushTurn (g : Gate ρ) (i : Nat) (t : Task ρ) (connID : ConnId) : Event ρ × Gate ρ :=
  match g.clients connID with
  | some conn => (.lookup i, g.setTask i { t with pc := .pushing conn })
  | none      => (.lookup i, g.setTask i { t with pc := .finished })

def reportTurn (g : Gate ρ) (i : Nat) (t : Task ρ) (serviceKey : RemoteId) (access : Partial String Bool) :
    Event ρ × Gate ρ :=
  (.report i t.src serviceKey access,
    { g.setTask i { t with pc := .finished } with
      gClientAccess := g.gClientAccess.insert serviceKey access })

def handlerTurn (cfg : Config ρ) (g : Gate ρ) (i : Nat) (t : Task ρ) (now : Int) :
    Option (Event ρ × Gate ρ) :=
  match t.outgoing with
  | some (conn, msg) =>
    if cfg.size msg ≤ maxSize then
      some (.send i conn msg, g.setTask i { t with pc := .finished })
    else
      some (.panic i, g.setTask i { t with pc := .panicked })
  | none =>
    match t.rpc, t.pc with
    | .route req, _                          => g.routeTurn cfg i t req now
    | .rsp grid _ _, _                       => g.rspTurn i t grid
    | .clientRsp rid, _                      => g.clientRspTurn i t rid
    | .push connID _ _ _, .start             => some (g.pushTurn i t connID)
    | .accessReport serviceKey access, .start => some (g.reportTurn i t serviceKey access)
    | .other, .start                         => some (.done i, g.setTask i { t with pc := .finished })
    | _, _                                   => none

theorem Act.of_routeTurn (hi : g.Runs i t) (hr : t.rpc = .route req)
    (h : g.routeTurn cfg i t req now = some (e, g')) : Act cfg g e g' := by
  unfold routeTurn at h
  split at h
  case h_1 hp =>
    split at h <;> cases h
    case h_1 hn => exact .check hi hr hp hn
    case h_2 hn => exact .refuse hi hr hp hn
  case h_2 hp => cases h; exact .notExist hi hr hp rfl
  case h_3 hp =>
    split at h <;> cases h
    case isTrue hz  => exact .noReply hi hr hp hz
    case isFalse hz => exact .genGid hi hr hp hz
  case h_4 hp => cases h; exact .outOfRange hi hp
  case h_5 choice h₁ h₂ h₃ hp =>
    have hc : choice.Running := by
      cases choice <;> try trivial
      case returned r => cases r <;> simp_all
    cases h
    exact .choose hi hr hp hc rfl
  case h_6 hp => cases h; exact .register now hi hr hp rfl
  case h_7 hp =>
    obtain ⟨cb, hc, hs⟩ := Option.map_eq_some_iff.mp h
    cases hs
    exact .added hi hp (.of_recvAdd hc)
  case h_8 => cases h

theorem Act.of_getTurn (hi : g.Runs i t) (hc : t.rpc.cbid = some cbid) (hp : t.pc = .start)
    (h : g.getTurn i t cbid = (e, g')) : Act cfg g e g' := by
  unfold getTurn at h
  split at h <;> cases h
  case h_1 hn => exact .getNil hi hc hp hn
  case h_2 hn => exact .get hi hc hp hn

theorem Act.of_rspTurn (hi : g.Runs i t) (hr : t.rpc = .rsp grid error reply)
    (h : g.rspTurn i t grid = some (e, g')) : Act cfg g e g' := by
  unfold rspTurn at h
  split at h
  case h_1 hp => exact .of_getTurn hi (by rw [hr]; rfl) hp (Option.some.inj h)
  case h_2 hp =>
    obtain ⟨cb, hc, hs⟩ := Option.map_eq_some_iff.mp h
    cases hs
    exact .deleted hi hr hp (.of_recvDel hc)
  case h_3 hp =>
    split at h <;> cases h
    case h_1 hc => exact .client hi hp hc
    case h_2 hc => exact .noClient hi hp hc
  case h_4 hp =>
    split at h <;> cases h
    case h_1 hc => exact .remote hi hp hc
    case h_2 hc => exact .noRemote hi hp hc
  case h_5 => cases h

theorem Act.of_clientRspTurn (hi : g.Runs i t) (hr : t.rpc = .clientRsp rid)
    (h : g.clientRspTurn i t rid = some (e, g')) : Act cfg g e g' := by
  unfold clientRspTurn at h
  split at h
  case h_1 hp => exact .of_getTurn hi (by rw [hr]; rfl) hp (Option.some.inj h)
  case h_2 hp =>
    obtain ⟨cb, hc, hs⟩ := Option.map_eq_some_iff.mp h
    cases hs
    exact .wrongType hi hr hp (.of_recvDel hc)
  case h_3 => cases h

theorem Act.of_handlerTurn (hi : g.Runs i t) (h : g.handlerTurn cfg i t now = some (e, g')) :
    Act cfg g e g' := by
  unfold handlerTurn at h
  split at h
  case h_1 ho =>
    split at h <;> cases h
    case isTrue hs  => exact .send hi ho hs
    case isFalse hs => exact .tooLong hi ho (Nat.not_le.mp hs)
  case h_2 =>
    split at h
    case h_1 hr => exact .of_routeTurn hi hr h
    case h_2 hr => exact .of_rspTurn hi hr h
    case h_3 hr => exact .of_clientRspTurn hi hr h
    case h_4 hr hp =>
      have h := Option.some.inj h
      unfold pushTurn at h
      split at h <;> cases h
      case h_1 hc => exact .push hi hr hp hc
      case h_2 hc => exact .noPush hi hr hp hc
    case h_5 hr hp => cases h; exact .report hi hr hp
    case h_6 hr hp => cases h; exact .other hi hr hp
    case h_7 => cases h

-- Whose turn it is. Either something comes from outside, a worker goes on with a task, which may be to
-- take it, or the callback manager goes on.
inductive Turn (ρ : Type*)
  | accept (conn : Conn)
  | close (connID : ConnId)
  | rmgr (e : RemoteMgr.Event)
  | frame (src : Source) (rpc : Rpc ρ)
  | task (i : Nat)
  | mgr

def turn (cfg : Config ρ) (g : Gate ρ) (now : Int) : Turn ρ → Option (Event ρ × Gate ρ)
  | .accept conn    => some (.accept conn, { g with clients := g.clients.insert (getConnID conn) conn })
  | .close connID   =>
    some (.close connID,
      { g with clients := g.clients.erase connID, rmgr := g.rmgr.delRemoteOrderCache connID })
  | .rmgr e         => (g.rmgr.step e).map fun m => (.rmgr e, { g with rmgr := m })
  | .frame src rpc  =>
    if Accepted cfg rpc.body then
      some (.frame src rpc, { g with tasks := g.tasks ++ [.new src rpc] })
    else
      none
  | .task i         =>
    match g.tasks[i]? with
    | none   => none
    | some t =>
      if t.taken = true then
        g.handlerTurn cfg i t now
      else if g.Next i t.lane then
        some (.take i, g.setTask i { t with taken := true })
      else
        none
  | .mgr            => (g.cb.turn now).map fun (e, cb) => (.mgr e, { g with cb := cb })

theorem Act.of_turn (h : g.turn cfg now x = some (e, g')) : Act cfg g e g' := by
  unfold turn at h
  split at h
  case h_1 => cases h; exact .accept
  case h_2 => cases h; exact .close
  case h_3 =>
    obtain ⟨m, hm, hs⟩ := Option.map_eq_some_iff.mp h
    cases hs
    exact .rmgr hm
  case h_4 =>
    split at h <;> cases h
    case isTrue ha => exact .frame ha
  case h_5 =>
    split at h
    case h_1 => cases h
    case h_2 t hi =>
      split at h
      case isTrue ht => exact .of_handlerTurn ⟨hi, ht⟩ h
      case isFalse ht =>
        split at h <;> cases h
        case isTrue hn => exact .take hi (by simpa using ht) hn
  case h_6 =>
    obtain ⟨⟨e, cb⟩, hm, hs⟩ := Option.map_eq_some_iff.mp h
    cases hs
    have ⟨hm, hna, hnd⟩ := CallbackMgr.MgrStep.of_turn hm
    exact .mgr hm hna hnd

-- A gate that speaks msgpack, with rpc names in ASCII.
def Config.msgpack (identity : ServerIdentity) : Config Unit :=
  .onWire identity .msgpack fun bs => String.ofList (bs.map fun b => Char.ofNat b.toNat)

-- An rpc without arguments, as a request has it.
def Config.innerRpc (name : String) : Bytes :=
  Wire.msgpack.rpcEncode (.ascii name) []

-- A run in which the turns are taken in a given order, at one time. Each step must meet a condition.
def replay (cfg : Config ρ) (ok : Gate ρ → Event ρ → Bool) (now : Int) :
    List (Turn ρ) → Gate ρ → Option (List (Event ρ) × Gate ρ)
  | [], g      => some ([], g)
  | x :: xs, g =>
    if g.alive = true then
      match g.turn cfg now x with
      | none         => none
      | some (e, g') =>
        if ok g e = true then
          (replay cfg ok now xs g').map fun (es, g') => (e :: es, g')
        else
          none
    else
      none

theorem exec_of_replay (xs : List (Turn ρ)) (h : replay cfg ok now xs g = some (es, g')) :
    Exec (fun g e g' => Step cfg g e g' ∧ ok g e = true) g es g' := by
  induction xs generalizing g es
  case nil => cases h; exact .refl
  case cons x xs hi =>
    unfold replay at h
    split at h
    case isFalse => cases h
    case isTrue hal =>
      split at h
      case h_1 => cases h
      case h_2 e g₁ ht =>
        split at h
        case isFalse => cases h
        case isTrue hok =>
          obtain ⟨⟨es', g''⟩, hr, hs⟩ := Option.map_eq_some_iff.mp h
          cases hs
          exact (hi hr).cons ⟨⟨hal, .of_turn ht⟩, hok⟩

end Gate
