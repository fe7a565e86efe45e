import Microservice.Framework.CallbackMgr
import Microservice.Framework.RemoteMgr
import Microservice.Framework.RpcEncode

namespace Gate

inductive ServerIdentity
  | service
  | serviceGate
  | clientGate
  deriving DecidableEq

-- Where a frame comes from. Its session has the type and the connection of its source.
inductive Source
  | tcpClient (conn : Conn)
  | remote (remote : Remote)
  deriving DecidableEq

namespace Source

def conn : Source → Conn
  | .tcpClient c => c
  | .remote r    => r.conn

def IsTcpClient : Source → Prop
  | .tcpClient _ => True
  | .remote _    => False

instance : DecidablePred IsTcpClient
  | .tcpClient _ => .isTrue trivial
  | .remote _    => .isFalse id

end Source

structure RouteReq where
  nameSpace : String
  service   : String
  rid       : UInt32
  isOrdered : Bool
  innerRpc  : Bytes

def RouteReq.remoteID (req : RouteReq) : RemoteId :=
  getRemoteID req.nameSpace req.service

-- `C2GRouteCbInfo` without what is only logged.
structure RouteCbInfo where
  rid    : UInt32
  connID : ConnId

-- The frames that the handlers of a gate receive. A handler can also be reached by a call, whose inner
-- rpc runs in the session of the call. `other` are the frames whose handlers change nothing that is
-- part of the model: logins, verifications, heart beats, requests for the listen address and frames
-- that do not decode.
inductive Rpc (ρ : Type*)
  | route (req : RouteReq)
  | rsp (grid : UInt32) (error : String) (reply : Option ρ)
  | push (connID : ConnId) (pid : Bytes) (nameSpace : String) (innerRpc : Bytes)
  | accessReport (serviceKey : RemoteId) (access : Partial String Bool)
  | clientRsp (rid : UInt32)
  | call (isOrdered : Bool) (inner : Rpc ρ)
  | other

-- The frames that the handlers of a gate send. `s2gRpcRsp` is the one that `RpcS2GRpcRspHandler`
-- receives.
inductive Msg (ρ : Type*)
  | g2sRpcCall (isOrdered : Bool) (grid : UInt32) (innerRpc : Bytes)
  | s2gRpcRsp (grid : UInt32) (error : String) (reply : Option ρ)
  | g2cRpcRsp (rid : UInt32) (error : String) (reply : Option ρ)
  | g2cPush (pid : Bytes) (nameSpace : String) (innerRpc : Bytes)

-- The task pool has two channels. The second one is for ordered calls and has a single worker.
inductive Lane
  | pool
  | separate
  deriving DecidableEq

def Lane.workers : Lane → Nat
  | .pool     => 500
  | .separate => 1

namespace Rpc

variable {ρ : Type*}

def lane : Rpc ρ → Lane
  | .call true _ => .separate
  | _            => .pool

-- The rpc whose handler runs in the end.
def body : Rpc ρ → Rpc ρ
  | .call _ inner => inner.body
  | rpc           => rpc

def IsCall : Rpc ρ → Prop
  | .call .. => True
  | _        => False

instance : DecidablePred (IsCall : Rpc ρ → Prop)
  | .call .. => .isTrue trivial
  | .route _ | .rsp .. | .push .. | .accessReport .. | .clientRsp _ | .other => .isFalse id

-- The id that a response handler passes to `GetCallBack`.
def cbid : Rpc ρ → Option UInt32
  | .rsp grid _ _  => some grid
  | .clientRsp rid => some rid
  | _              => none

end Rpc

-- Where a handler is. `deleting`, `client`, `remote` and `responding` belong to `RpcS2GRpcRspHandler`,
-- and so does the first of them to `RpcG2CRpcRspHandler`.
inductive Pc
  | start
  | refused (err : String)
  | choosing (choice : RemoteMgr.Choice)
  | drawn (remote : Remote)
  | adding (remote : Remote) (node : Ptr)
  | sending (remote : Remote)
  | deleting (info : RouteCbInfo) (node : Ptr)
  | client (info : RouteCbInfo)
  | remote (info : RouteCbInfo)
  | responding (rid : UInt32) (conn : Conn)
  | pushing (conn : Conn)
  | finished
  | panicked

def Pc.Ended : Pc → Prop
  | .finished | .panicked => True
  | _                     => False

instance : DecidablePred Pc.Ended
  | .finished | .panicked => .isTrue trivial
  | .start | .refused _ | .choosing _ | .drawn _ | .adding .. | .sending _ | .deleting .. | .client _
  | .remote _ | .responding .. | .pushing _ => .isFalse id

-- A task of the pool. `grid` is the variable of that name in the route handler. A panic inside of a
-- call is recovered, any other ends the process.
structure Task (ρ : Type*) where
  src    : Source
  rpc    : Rpc ρ
  lane   : Lane
  inCall : Bool
  taken  : Bool
  grid   : UInt32
  pc     : Pc

namespace Task

variable {ρ : Type*}

def new (src : Source) (rpc : Rpc ρ) : Task ρ where
  src    := src
  rpc    := rpc.body
  lane   := rpc.lane
  inCall := decide rpc.IsCall
  taken  := false
  grid   := 0
  pc     := .start

def clientID (t : Task ρ) : ConnId :=
  getConnID t.src.conn

def crashed (t : Task ρ) : Bool :=
  match t.pc with
  | .panicked => !t.inCall
  | _         => false

-- The message that the handler is about to encode and to send.
def outgoing (t : Task ρ) : Option (Conn × Msg ρ) :=
  match t.rpc, t.pc with
  | .route req, .refused err                     => some (t.src.conn, .g2cRpcRsp req.rid err none)
  | .route req, .sending remote                  =>
    some (remote.conn, .g2sRpcCall req.isOrdered t.grid req.innerRpc)
  | .rsp _ error reply, .responding rid conn     => some (conn, .g2cRpcRsp rid error reply)
  | .push _ pid nameSpace innerRpc, .pushing conn => some (conn, .g2cPush pid nameSpace innerRpc)
  | _, _                                         => none

end Task

-- What is fixed for a gate: its identity, and what its handlers need of msgpack. That is the name at
-- the start of an inner rpc, which is empty if it does not decode, and the size of a message.
structure Config (ρ : Type*) where
  identity : ServerIdentity
  rpcName  : Bytes → String
  size     : Msg ρ → Nat

open SimpleRpc in
-- The messages as they are on the wire.
def Msg.encode {ρ : Type} (w : Wire ρ) : Msg ρ → Bytes
  | .g2sRpcCall isOrdered grid innerRpc =>
    w.rpcEncode (.ascii (if isOrdered then msgG2SRpcCallOrdered else msgG2SRpcCall)) <|
      w.uint32.encode grid ++ w.bin.encode innerRpc
  | .s2gRpcRsp grid error reply =>
    w.rpcEncode (.ascii msgS2GRpcRsp) <|
      w.uint32.encode grid ++ w.str.encode (.utf8 error) ++ w.reply.encode reply
  | .g2cRpcRsp rid error reply =>
    w.rpcEncode (.ascii msgG2CRpcRsp) <|
      w.uint32.encode rid ++ w.str.encode (.utf8 error) ++ w.reply.encode reply
  | .g2cPush pid nameSpace innerRpc =>
    w.rpcEncode (.ascii msgG2CPush) <|
      w.bin.encode pid ++ w.str.encode (.utf8 nameSpace) ++ w.bin.encode innerRpc

-- A gate with a wire format. A Go string is a byte slice there, `text` is what its handlers have of it.
def Config.onWire {ρ : Type} (identity : ServerIdentity) (w : Wire ρ) (text : Bytes → String) : Config ρ where
  identity         := identity
  rpcName innerRpc := text (w.rpcName innerRpc).1
  size msg         := (msg.encode w).length

def maxSize : Nat :=
  SimpleRpc.maxPacketSize.toNat

end Gate

-- The callbacks of a gate have no timeout callback. The tasks are in the order in which their frames
-- were read.
structure Gate (ρ : Type*) where
  gClientAccess : Partial RemoteId (Partial String Bool)
  rmgr          : RemoteMgr
  clients       : Partial ConnId Conn
  globalGID     : UInt32
  cb            : CallbackMgr Gate.RouteCbInfo Empty
  tasks         : List (Gate.Task ρ)

namespace Gate

variable {ρ : Type*}

def init : Gate ρ where
  gClientAccess := fun _ => none
  rmgr          := .createRemoteMgr
  clients       := fun _ => none
  globalGID     := 0
  cb            := .init
  tasks         := []

def setTask (g : Gate ρ) (i : Nat) (t : Task ρ) : Gate ρ :=
  { g with tasks := g.tasks.set i t }

def alive (g : Gate ρ) : Bool :=
  g.tasks.all (!·.crashed)

-- The handler of a task is running.
def Runs (g : Gate ρ) (i : Nat) (t : Task ρ) : Prop :=
  g.tasks[i]? = some t ∧ t.taken = true

-- The tasks of a lane are taken from the channel in the order in which they were put into it, each by
-- a worker that has no other task.
def Next (g : Gate ρ) (i : Nat) (lane : Lane) : Prop :=
  (∀ t ∈ g.tasks.take i, t.lane = lane → t.taken = true) ∧
  (g.tasks.countP fun t => t.lane = lane ∧ t.taken = true ∧ ¬t.pc.Ended) < lane.workers

instance (g : Gate ρ) (i : Nat) (lane : Lane) : Decidable (g.Next i lane) :=
  inferInstanceAs (Decidable ((∀ t ∈ g.tasks.take i, t.lane = lane → t.taken = true) ∧ _ < _))

-- The check of the permission in the route handler, with the error it finds.
def permission (g : Gate ρ) (cfg : Config ρ) (src : Source) (req : RouteReq) : Option String :=
  if cfg.identity = .clientGate ∧ src.IsTcpClient then
    match g.gClientAccess req.remoteID with
    | none                => some ("service " ++ req.nameSpace ++ ":" ++ req.service ++ " not exist")
    | some rpcPermissions =>
      match rpcPermissions (cfg.rpcName req.innerRpc) with
      | some true => none
      | _         =>
        some ("rpc " ++ req.nameSpace ++ ":" ++ req.service ++ ":" ++ cfg.rpcName req.innerRpc ++
          " not allow")
  else
    none

-- A request without an id gets no response, also not in the case of an error.
def rejected (req : RouteReq) (err : String) : Pc :=
  if req.rid = 0 then .finished else .refused err

inductive Event (ρ : Type*)
  | accept (conn : Conn)
  | close (connID : ConnId)
  | rmgr (e : RemoteMgr.Event)
  | frame (src : Source) (rpc : Rpc ρ)
  | take (i : Nat)
  | check (i : Nat)
  | reject (i : Nat) (err : String)
  | choose (i : Nat)
  | noReply (i : Nat)
  | genGid (i : Nat) (grid : UInt32)
  | register (i : Nat) (grid : UInt32) (info : RouteCbInfo) (endTime : Int)
  | added (i : Nat) (node : Ptr)
  | get (i : Nat) (cbid : UInt32) (info : Option RouteCbInfo)
  | deleted (i : Nat) (node : Ptr)
  | lookup (i : Nat)
  | report (i : Nat) (src : Source) (serviceKey : RemoteId) (access : Partial String Bool)
  | send (i : Nat) (conn : Conn) (msg : Msg ρ)
  | done (i : Nat)
  | panic (i : Nat)
  | mgr (e : CallbackMgr.MgrEvent Empty)

-- `MessageDecode` hands over no frame that is longer than the limit.
def Accepted (cfg : Config ρ) : Rpc ρ → Prop
  | .rsp grid error reply => cfg.size (.s2gRpcRsp grid error reply) ≤ maxSize
  | _                     => True

inductive Act (cfg : Config ρ) : Gate ρ → Event ρ → Gate ρ → Prop
  | accept :
    Act cfg g (.accept conn) { g with clients := g.clients.insert (getConnID conn) conn }
  -- `onClientClose`
  | close :
    Act cfg g (.close connID)
      { g with clients := g.clients.erase connID, rmgr := g.rmgr.delRemoteOrderCache connID }
  | rmgr :
    g.rmgr.step e = some m → Act cfg g (.rmgr e) { g with rmgr := m }
  | frame :
    Accepted cfg rpc.body → Act cfg g (.frame src rpc) { g with tasks := g.tasks ++ [.new src rpc] }
  | take :
    g.tasks[i]? = some t → t.taken = false → g.Next i t.lane →
    Act cfg g (.take i) (g.setTask i { t with taken := true })
  -- `RpcC2GRpcRouteHandler`
  | check :
    g.Runs i t → t.rpc = .route req → t.pc = .start → g.permission cfg t.src req = none →
    Act cfg g (.check i) (g.setTask i { t with pc := .choosing .start })
  | refuse :
    g.Runs i t → t.rpc = .route req → t.pc = .start → g.permission cfg t.src req = some err →
    Act cfg g (.reject i err) (g.setTask i { t with pc := rejected req err })
  | choose :
    g.Runs i t → t.rpc = .route req → t.pc = .choosing choice → choice.Running →
    g.rmgr.choiceRemote req.remoteID req.isOrdered t.clientID choice = (m, choice') →
    Act cfg g (.choose i) { g.setTask i { t with pc := .choosing choice' } with rmgr := m }
  | notExist :
    g.Runs i t → t.rpc = .route req → t.pc = .choosing (.returned none) →
    err = "service " ++ req.nameSpace ++ ":" ++ req.service ++ " not exist" →
    Act cfg g (.reject i err) (g.setTask i { t with pc := rejected req err })
  | noReply :
    g.Runs i t → t.rpc = .route req → t.pc = .choosing (.returned (some remote)) → req.rid = 0 →
    Act cfg g (.noReply i) (g.setTask i { t with pc := .sending remote })
  | genGid :
    g.Runs i t → t.rpc = .route req → t.pc = .choosing (.returned (some remote)) → req.rid ≠ 0 →
    Act cfg g (.genGid i (g.globalGID + 1))
      { g.setTask i { t with grid := g.globalGID + 1, pc := .drawn remote } with
        globalGID := g.globalGID + 1 }
  | register (now : Int) :
    g.Runs i t → t.rpc = .route req → t.pc = .drawn remote → info = ⟨req.rid, t.clientID⟩ →
    Act cfg g (.register i t.grid info (Int8.toInt 101 + now))
      { g.setTask i { t with pc := .adding remote g.cb.queue.alloc } with
        cb := g.cb.addCallBack t.grid info 101 now none }
  | added :
    g.Runs i t → t.pc = .adding remote node → CallbackMgr.MgrStep g.cb (.recvAdd node) cb' →
    Act cfg g (.added i node) { g.setTask i { t with pc := .sending remote } with cb := cb' }
  -- `RpcS2GRpcRspHandler` and `RpcG2CRpcRspHandler`
  | getNil :
    g.Runs i t → t.rpc.cbid = some cbid → t.pc = .start → g.cb.gCbMap cbid = none →
    Act cfg g (.get i cbid none) (g.setTask i { t with pc := .finished })
  | get :
    g.Runs i t → t.rpc.cbid = some cbid → t.pc = .start → g.cb.gCbMap cbid = some (info, node) →
    Act cfg g (.get i cbid (some info))
      { g.setTask i { t with pc := .deleting info node } with cb := g.cb.getCallBack cbid }
  | deleted :
    g.Runs i t → t.rpc = .rsp grid error reply → t.pc = .deleting info node →
    CallbackMgr.MgrStep g.cb (.recvDel node) cb' →
    Act cfg g (.deleted i node) { g.setTask i { t with pc := .client info } with cb := cb' }
  -- A callback of the gate is not the channel that `RpcG2CRpcRspHandler` takes it for.
  | wrongType :
    g.Runs i t → t.rpc = .clientRsp rid → t.pc = .deleting info node →
    CallbackMgr.MgrStep g.cb (.recvDel node) cb' →
    Act cfg g (.deleted i node) { g.setTask i { t with pc := .panicked } with cb := cb' }
  | client :
    g.Runs i t → t.pc = .client info → g.clients info.connID = some conn →
    Act cfg g (.lookup i) (g.setTask i { t with pc := .responding info.rid conn })
  | noClient :
    g.Runs i t → t.pc = .client info → g.clients info.connID = none →
    Act cfg g (.lookup i) (g.setTask i { t with pc := .remote info })
  | remote :
    g.Runs i t → t.pc = .remote info → g.rmgr.getRemote info.connID = some remote →
    Act cfg g (.lookup i) (g.setTask i { t with pc := .responding info.rid remote.conn })
  | noRemote :
    g.Runs i t → t.pc = .remote info → g.rmgr.getRemote info.connID = none →
    Act cfg g (.lookup i) (g.setTask i { t with pc := .finished })
  -- `RpcP2GPushHandler`
  | push :
    g.Runs i t → t.rpc = .push connID pid nameSpace innerRpc → t.pc = .start →
    g.clients connID = some conn → Act cfg g (.lookup i) (g.setTask i { t with pc := .pushing conn })
  | noPush :
    g.Runs i t → t.rpc = .push connID pid nameSpace innerRpc → t.pc = .start →
    g.clients connID = none → Act cfg g (.lookup i) (g.setTask i { t with pc := .finished })
  -- `RpcS2GRpcAccessReportHandler`
  | report :
    g.Runs i t → t.rpc = .accessReport serviceKey access → t.pc = .start →
    Act cfg g (.report i t.src serviceKey access)
      { g.setTask i { t with pc := .finished } with
        gClientAccess := g.gClientAccess.insert serviceKey access }
  | other :
    g.Runs i t → t.rpc = .other → t.pc = .start →
    Act cfg g (.done i) (g.setTask i { t with pc := .finished })
  -- `MessageEncode` panics if the message is too long.
  | send :
    g.Runs i t → t.outgoing = some (conn, msg) → cfg.size msg ≤ maxSize →
    Act cfg g (.send i conn msg) (g.setTask i { t with pc := .finished })
  | tooLong :
    g.Runs i t → t.outgoing = some (conn, msg) → maxSize < cfg.size msg →
    Act cfg g (.panic i) (g.setTask i { t with pc := .panicked })
  | outOfRange :
    g.Runs i t → t.pc = .choosing .panicked →
    Act cfg g (.panic i) (g.setTask i { t with pc := .panicked })
  -- The steps of the callback manager that no handler takes part in.
  | mgr :
    CallbackMgr.MgrStep g.cb e cb' → (∀ node, e ≠ .recvAdd node) → (∀ node, e ≠ .recvDel node) →
    Act cfg g (.mgr e) { g with cb := cb' }

-- A process that has panicked does nothing anymore.
structure Step (cfg : Config ρ) (g : Gate ρ) (e : Event ρ) (g' : Gate ρ) : Prop where
  alive : g.alive = true
  act   : Act cfg g e g'

end Gate
