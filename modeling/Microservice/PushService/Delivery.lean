import Microservice.ClientSdk.GateProxy
import Microservice.Gate.Route
import Microservice.PushService.PushToGate

def SimpleRpc.msgPushReply : String := "o"

-- The string with some bytes. Strings that are no texts are left out.
def Bytes.text (bs : Bytes) : Option String :=
  String.fromUTF8? ⟨bs.toArray⟩

-- The way of a push over the wire: from a service over a gate to the push service, from there over the gate of
-- the client to the client, and back with the reply.
namespace Delivery

open SimpleRpc

variable {ρ : Type}

def pushService : Bytes :=
  .utf8 "PushService"

-- The request that `RpcCallAsync` makes for a push.
def pushRoute (w : Wire ρ) (nameSpace : String) (req : PushReq) : Route.Req :=
  ⟨.utf8 nameSpace, pushService, 0, false, PushToGate.s2pPush w req⟩

-- `PushSafe` and `PushUnsafe`, with the message that is sent. `none` is the panic of `MessageEncode`.
def push (w : Wire ρ) (nameSpace clientID tpe : String) (isSafe : Bool) (rpcName args : Bytes) : Option Bytes :=
  messageEncode ((pushRoute w nameSpace ⟨clientID, tpe, isSafe, w.rpcEncode rpcName args⟩).encode w)

-- The handlers of the push service.
inductive Rpc
  | s2pPush (req : PushReq)
  | pushReply (pid : Bytes)

def s2pFields (w : Wire ρ) : List (Codec.Field RpcHandle.FieldName) :=
  [⟨⟨.ascii "ClientID", .ascii "*string"⟩, Bytes, w.str⟩,
    ⟨⟨.ascii "Typ", .ascii "*string"⟩, Bytes, w.str⟩,
    ⟨⟨.ascii "IsSafe", .ascii "*bool"⟩, Bool, w.bool⟩,
    ⟨⟨.ascii "PushMsg", .ascii "*[]uint8"⟩, Bytes, w.bin⟩]

def replyFields (w : Wire ρ) : List (Codec.Field RpcHandle.FieldName) :=
  [⟨⟨.ascii "Pid", .ascii "*[]uint8"⟩, Bytes, w.bin⟩]

-- The table of the push service. `others` are its other handlers.
def rpcs (w : Wire ρ) (others : Bytes → Option (Generator (Option Rpc))) (rpcName : Bytes) :
    Option (Generator (Option Rpc)) :=
  if rpcName = .ascii msgS2PPush then
    some ⟨s2pFields w, fun (clientID, typ, isSafe, pushMsg, _) => do
      return .s2pPush ⟨← clientID.text, ← typ.text, isSafe, pushMsg⟩⟩
  else if rpcName = .ascii msgPushReply then
    some ⟨replyFields w, fun (pid, _) => some (.pushReply pid)⟩
  else
    others rpcName

-- `RpcS2PPushHandler.Process`. `insert` is the id that `InsertOne` returns, and `none` if it fails.
def s2pProcess (w : Wire ρ) (nameSpace : String) (found : PushToGate.Found) (insert : Option ObjectID)
    (mongo : Mongo) (req : PushReq) : Mongo × PushToGate.Attempt :=
  if req.isSafe then
    match insert with
    | none    => (mongo, .returned)
    | some id =>
      (mongo ++ [⟨id, req.clientID, req.typ, req.pushMsg, .unarrive⟩],
        PushToGate.pushToGate w nameSpace found (req.push id.bytes))
  else
    (mongo, PushToGate.pushToGate w nameSpace found (req.push []))

-- `RpcPushReplyHandler.Process`, when the update does not fail.
def replyProcess (mongo : Mongo) (pid : Bytes) : Mongo :=
  mongo.updateOne (.ofPid pid)

-- The handler of a gate for pushes, with the rest of its table.
def p2gFields (w : Wire ρ) : List (Codec.Field RpcHandle.FieldName) :=
  [⟨⟨.ascii "ConnID", .ascii "*string"⟩, Bytes, w.str⟩,
    ⟨⟨.ascii "Pid", .ascii "*[]uint8"⟩, Bytes, w.bin⟩,
    ⟨⟨.ascii "Namespace", .ascii "*string"⟩, Bytes, w.str⟩,
    ⟨⟨.ascii "InnerRpc", .ascii "*[]uint8"⟩, Bytes, w.bin⟩]

def gateRpcs (w : Wire ρ) (others : Bytes → Option (Generator (Option P2GPush))) (rpcName : Bytes) :
    Option (Generator (Option P2GPush)) :=
  if rpcName = .ascii msgP2GPush then
    some ⟨p2gFields w, fun (connID, pid, nameSpace, innerRpc, _) => do
      return ⟨← connID.text, pid, ← nameSpace.text, innerRpc⟩⟩
  else
    others rpcName

-- `MSG_G2C_PUSH`
def g2cPush (w : Wire ρ) (msg : G2CPush) : Bytes :=
  w.rpcEncode (.ascii msgG2CPush) <|
    w.bin.encode msg.pid ++ w.str.encode (.utf8 msg.nameSpace) ++ w.bin.encode msg.innerRpc

-- `RpcP2GPushHandler.Process`: what it passes to `MessageEncode`, and the connection for it.
def p2gProcess (w : Wire ρ) (clients : Partial ConnId Conn) (req : P2GPush) : Option (Conn × Bytes) :=
  (clients req.connID).map (·, g2cPush w ⟨req.pid, req.nameSpace, req.innerRpc⟩)

-- The handler of a client for pushes, with the rest of its table.
def g2cFields (w : Wire ρ) : List (Codec.Field RpcHandle.FieldName) :=
  [⟨⟨.ascii "Pid", .ascii "*[]uint8"⟩, Bytes, w.bin⟩,
    ⟨⟨.ascii "Namespace", .ascii "*string"⟩, Bytes, w.str⟩,
    ⟨⟨.ascii "InnerRpc", .ascii "*[]uint8"⟩, Bytes, w.bin⟩]

def clientRpcs (w : Wire ρ) (others : Bytes → Option (Generator (Option G2CPush))) (rpcName : Bytes) :
    Option (Generator (Option G2CPush)) :=
  if rpcName = .ascii msgG2CPush then
    some ⟨g2cFields w, fun (pid, nameSpace, innerRpc, _) => do return ⟨pid, ← nameSpace.text, innerRpc⟩⟩
  else
    others rpcName

-- What the encoder writes for the `int` 0 that a client passes as `Rid`. The field is a `uint32`.
structure IntZero (w : Wire ρ) where
  bytes  : Bytes
  decode : ∀ rest, w.uint32.decode (bytes ++ rest) = (.ok 0, rest)

-- The `MSG_C2G_RPC_ROUTE` with a `MSG_PUSH_REPLY` in it.
def pushReply (w : Wire ρ) (zero : IntZero w) (nameSpace : String) (pid : Bytes) : Bytes :=
  w.rpcEncode (.ascii msgC2GRpcRoute) <|
    w.str.encode (.utf8 nameSpace) ++ w.str.encode pushService ++ zero.bytes ++ w.bool.encode false ++
      w.bin.encode (w.rpcEncode (.ascii msgPushReply) (w.bin.encode pid))

-- `RpcG2CPushHandler.Process`, up to a handler that returns: the handler with its request, and what is passed to
-- `MessageEncode` for the reply. The inner rpc is dispatched as `RpcDecode` does it.
def g2cProcess {β : Type*} (w : Wire ρ) (zero : IntZero w) (rpcs : Bytes → Option (Generator β)) (req : G2CPush) :
    Option (β × Option Bytes) :=
  (rpcDecode w rpcs none req.innerRpc).map
    (·, if req.pid.length ≠ 0 then some (pushReply w zero req.nameSpace req.pid) else none)

-- The handler for a message with one rpc in it.
def received {β : Type*} (w : Wire ρ) (rpcs : Bytes → Option (Generator β)) (session : SessionState)
    (msg : Bytes) : Option β :=
  match handlers w rpcs session msg with
  | some [h] => some h
  | _        => none

-- The user handlers that the table of the push service stands for. `outcome` is what they do to their session.
def own (w : Wire ρ) (others : Bytes → Option (Generator (Option Rpc)))
    (outcome : Option Rpc → Bytes → RpcHandle.Outcome ρ) (rpcName : Bytes) : Option (RpcHandle.UserHandler ρ) :=
  (rpcs w others rpcName).map fun gen => ⟨gen.fields, fun values => outcome (gen.handler values)⟩

-- What a push and its reply find on their way.
structure Env (w : Wire ρ) (β : Type) where
  nameSpace   : String
  -- the gate of the service, and its connection at the push service
  gate        : Route.State
  gateState   : TcpClientState
  gateOthers  : Bytes → Option (Generator (Route.Handler ρ))
  -- the push service
  pushOthers  : Bytes → Option (Generator (Option Rpc))
  outcome     : Option Rpc → Bytes → RpcHandle.Outcome ρ
  found       : PushToGate.Found
  insert      : Option ObjectID
  -- the gate of the client, and the connection of the client there
  clients     : Partial ConnId Conn
  clientGate  : Route.State
  clientState : TcpClientState
  p2gOthers   : Bytes → Option (Generator (Option P2GPush))
  -- the client
  rpcs        : Bytes → Option (Generator β)
  g2cOthers   : Bytes → Option (Generator (Option G2CPush))
  zero        : IntZero w

variable {β : Type} {w : Wire ρ}

namespace Env

-- A route request at a gate, with the message that is sent on.
def routed (env : Env w β) (s : Route.State) (session : SessionState) (msg : Bytes) : Option (Conn × Bytes) :=
  match received w (Route.rpcs w env.gateOthers) session msg with
  | some (.route req) =>
    match Route.process w s req with
    | some (.remote conn, buf) => (messageEncode buf).map (conn, ·)
    | _                        => none
  | _ => none

-- A call at the push service, up to the `Process` of the inner rpc. `rpcHandle` decodes it as `RpcDecode` does.
def called (env : Env w β) (msg : Bytes) : Option Rpc :=
  match received w (RpcHandle.generators w (RpcHandle.registered (own w env.pushOthers env.outcome)))
      (some env.gateState) msg with
  | some ⟨.call, _, innerRpc, _⟩ => (rpcDecode w (Delivery.rpcs w env.pushOthers) none innerRpc).join
  | _                            => none

-- A push at the gate of the client.
def forwarded (env : Env w β) (msg : Bytes) : Option (Conn × Bytes) :=
  match received w (gateRpcs w env.p2gOthers) none msg with
  | some (some req) =>
    match p2gProcess w env.clients req with
    | some (conn, buf) => (messageEncode buf).map (conn, ·)
    | none             => none
  | _ => none

-- A push at the client.
def handled (env : Env w β) (msg : Bytes) : Option (β × Option Bytes) :=
  match received w (clientRpcs w env.g2cOthers) none msg with
  | some (some req) => g2cProcess w env.zero env.rpcs req
  | _               => none

end Env

-- A push that a client has handled: the gate that it was sent to, the connection of the client, the handler with
-- its request, the records, and what the client passes to `MessageEncode` for the reply.
structure Delivered (β : Type) where
  gate    : ConnId
  client  : Conn
  handler : β
  mongo   : Mongo
  reply   : Option Bytes

def deliver (env : Env w β) (mongo : Mongo) (clientID tpe : String) (isSafe : Bool) (rpcName args : Bytes) :
    Option (Delivered β) := do
  let msg ← push w env.nameSpace clientID tpe isSafe rpcName args
  let (_, msg) ← env.routed env.gate none msg
  match ← env.called msg with
  | .s2pPush req =>
    match s2pProcess w env.nameSpace env.found env.insert mongo req with
    | (mongo, .sent gate msg) =>
      let (client, msg) ← env.forwarded msg
      let (handler, reply) ← env.handled msg
      return ⟨gate, client, handler, mongo, reply⟩
    | _ => none
  | _ => none

-- The way of a reply back to the push service.
def replied (env : Env w β) (reply : Bytes) : Option Rpc := do
  let msg ← messageEncode reply
  let (_, msg) ← env.routed env.clientGate (some env.clientState) msg
  env.called msg

end Delivery
