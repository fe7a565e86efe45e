import Microservice.ClientSdk.GateProxy
import Microservice.PushService.RpcHandler

-- The push service with its databases, the gates' connections to their clients, and the clients.
--
-- Messages are never taken from `p2g`, `g2c` and `replies`: each of them may arrive any number of times,
-- or never. `handled` are the inner rpcs on which the handler of some client has run to its end.
structure Cluster where
  nameSpace    : String
  redis        : Redis
  mongo        : Mongo
  gGateAddrMap : Partial String ConnId
  clients      : List ConnId
  handlers     : List Handler
  gateClients  : List GateClient
  p2g          : List (ConnId × P2GPush)
  g2c          : List G2CPush
  tasks        : List ClientSdk.Stack
  replies      : List Bytes
  handled      : List Bytes

namespace Cluster

def start (nameSpace : String) : Cluster where
  nameSpace    := nameSpace
  redis        := fun _ => none
  mongo        := []
  gGateAddrMap := fun _ => none
  clients      := []
  handlers     := []
  gateClients  := []
  p2g          := []
  g2c          := []
  tasks        := []
  replies      := []
  handled      := []

inductive Event
  -- the push service
  | accept (connID : ConnId)
  | close (connID : ConnId)
  | rspListenAddr (addr : String) (connID : ConnId)
  | s2pPush (req : PushReq)
  | insert (i : Nat) (id : ObjectID)
  | insertFailed (i : Nat)
  | unsafePush (i : Nat)
  | get (i : Nat)
  | getFailed (i : Nat)
  | lookup (i : Nat)
  | send (i : Nat)
  | sendFailed (i : Nat)
  | find (i : Nat)
  | findFailed (i : Nat)
  | next (i : Nat)
  | reply (pid : Bytes)
  -- the gates
  | gateAccept (conn : GateConn)
  | gate (j : Nat) (e : GateClient.Event)
  | p2gPush (connID : ConnId) (msg : P2GPush)
  -- the clients
  | g2cPush (msg : G2CPush)
  | client (i : Nat) (e : ClientSdk.Event)

def setHandler (s : Cluster) (i : Nat) (h : Handler) : Cluster :=
  { s with handlers := s.handlers.set i h }

-- A request for a restore that a gate sends on comes to the push service.
def received (s : Cluster) (j : Nat) : GateClient.Event → List Handler
  | .forward n clientID => s.handlers ++ [.find ⟨j, n, clientID⟩]
  | _                   => s.handlers

inductive Step (k : ClientSdk.Codec) (s : Cluster) : Event → Cluster → Prop
  | accept (connID) : Step k s (.accept connID) { s with clients := connID :: s.clients }
  | close (connID) : Step k s (.close connID) { s with clients := s.clients.filter (· ≠ connID) }
  | rspListenAddr (addr connID) :
    Step k s (.rspListenAddr addr connID) { s with gGateAddrMap := s.gGateAddrMap.insert addr connID }
  | s2pPush (req) : Step k s (.s2pPush req) { s with handlers := s.handlers ++ [.push req] }
  -- `RpcS2PPushHandler.Process`
  | insert {i req id} :
    s.handlers[i]? = some (.push req) → req.isSafe = true → (∀ r ∈ s.mongo, r.id ≠ id) →
    Step k s (.insert i id)
      { s.setHandler i (.pushing (req.push id.bytes) (.start (req.push id.bytes))) with
        mongo := s.mongo ++ [⟨id, req.clientID, req.typ, req.pushMsg, .unarrive⟩] }
  | insertFailed {i req} :
    s.handlers[i]? = some (.push req) → req.isSafe = true →
    Step k s (.insertFailed i) (s.setHandler i .failed)
  | unsafePush {i req} :
    s.handlers[i]? = some (.push req) → req.isSafe = false →
    Step k s (.unsafePush i) (s.setHandler i (.pushing (req.push []) (.start (req.push []))))
  -- `PushToGate`
  | get {i h p key} :
    s.handlers[i]? = some h → h.toGate = some (p, .get key) →
    Step k s (.get i) (s.setHandler i (h.goto (.got (s.redis key))))
  | getFailed {i h p key} :
    s.handlers[i]? = some h → h.toGate = some (p, .get key) →
    Step k s (.getFailed i) (s.setHandler i (h.goto .done))
  | lookup {i h p target pc} :
    s.handlers[i]? = some h → h.toGate = some (p, .lookup target) →
    ToGate.find s.gGateAddrMap target = some pc → Step k s (.lookup i) (s.setHandler i (h.goto pc))
  | send {i h p clientConnID connID} :
    s.handlers[i]? = some h → h.toGate = some (p, .send clientConnID connID) → connID ∈ s.clients →
    Step k s (.send i)
      { s.setHandler i (h.goto .done) with
        p2g := s.p2g ++ [(connID, ⟨clientConnID, p.pid, s.nameSpace, p.pushMsg⟩)] }
  | sendFailed {i h p clientConnID connID} :
    s.handlers[i]? = some h → h.toGate = some (p, .send clientConnID connID) →
    Step k s (.sendFailed i) (s.setHandler i (h.goto .done))
  -- `RpcPushRestoreHandler.Process`
  | find {i origin} :
    s.handlers[i]? = some (.find origin) →
    Step k s (.find i) (s.setHandler i (.each origin ((s.mongo.find origin.clientID).map Record.push)))
  | findFailed {i origin} :
    s.handlers[i]? = some (.find origin) → Step k s (.findFailed i) (s.setHandler i .failed)
  | next {i origin p ps} :
    s.handlers[i]? = some (.restoring origin p ps .done) →
    Step k s (.next i) (s.setHandler i (.each origin ps))
  -- `RpcPushReplyHandler.Process`
  | reply {pid} :
    pid ∈ s.replies → Step k s (.reply pid) { s with mongo := s.mongo.updateOne (.ofPid pid) }
  | gateAccept (conn) :
    Step k s (.gateAccept conn) { s with gateClients := s.gateClients ++ [.accepted conn] }
  | gate {j c e redis c'} :
    s.gateClients[j]? = some c → GateClient.step s.redis c e = some (redis, c') →
    Step k s (.gate j e)
      { s with
        redis       := redis
        gateClients := s.gateClients.set j c'
        handlers    := s.received j e }
  -- `RpcP2GPushHandler.Process`. Only the push service sends a gate a `MSG_P2G_PUSH` here, though a gate takes
  -- one from everybody.
  | p2gPush {connID msg} :
    (connID, msg) ∈ s.p2g →
    Step k s (.p2gPush connID msg) { s with g2c := s.g2c ++ [⟨msg.pid, msg.nameSpace, msg.innerRpc⟩] }
  -- `RpcG2CPushHandler.Process`
  | g2cPush {msg} :
    msg ∈ s.g2c → Step k s (.g2cPush msg) { s with tasks := s.tasks ++ [[.g2cPush msg .dispatch]] }
  | client {i e stack stack' out} :
    s.tasks[i]? = some stack → k.step e stack = some (stack', out) →
    Step k s (.client i e)
      { s with
        tasks   := s.tasks.set i stack'
        replies := s.replies ++ out.replies
        handled := s.handled ++ out.handled }

end Cluster
