import Microservice.Framework.RpcEncode
import Microservice.PushService.RpcHandler

def SimpleRpc.msgS2PPush : String := "l"

-- `PushToGate` with its messages as they are on the wire.
namespace PushToGate

open SimpleRpc

variable {ρ : Type}

-- `MSG_S2P_PUSH`, as a service encodes it.
def s2pPush (w : Wire ρ) (req : PushReq) : Bytes :=
  w.rpcEncode (.ascii msgS2PPush) <|
    w.str.encode (.utf8 req.clientID) ++ w.str.encode (.utf8 req.typ) ++ w.bool.encode req.isSafe ++
      w.bin.encode req.pushMsg

-- `MSG_P2G_PUSH`, as it is encoded for a gate.
def p2gPush (w : Wire ρ) (msg : P2GPush) : Bytes :=
  w.rpcEncode (.ascii msgP2GPush) <|
    w.str.encode (.utf8 msg.connID) ++ w.bin.encode msg.pid ++ w.str.encode (.utf8 msg.nameSpace) ++
      w.bin.encode msg.innerRpc

-- What `PushToGate` finds when it looks. A redis that does not answer has no key.
structure Found where
  redis        : Redis
  gGateAddrMap : Partial String ConnId
  clients      : List ConnId

-- A document of `safe_push_records`, as `Find` returns it. `InsertOne` has put its id in front of the fields. A
-- push message that is nil is stored as null.
structure Doc where
  id       : ObjectID
  clientID : String
  typ      : String
  pushMsg  : Option Bytes
  state    : RecordState

def Doc.find (docs : List Doc) (clientID : String) : List Doc :=
  docs.filter fun d => d.clientID = clientID ∧ d.state = .unarrive

-- How the push of a document ends: with a log and a `return` of `PushToGate`, with what it passes to
-- `MessageSend` for the connection of the gate, or with a panic that leaves the handler too. That is one of
-- `PushToGate`, or that of the type assertion before it, for a push message that is not binary.
inductive Attempt
  | notBinary
  | returned
  | sent (connID : ConnId) (msg : Bytes)
  | panicked

def send (w : Wire ρ) (nameSpace : String) (found : Found) (p : Push) : ToGate → Attempt
  | .send clientConnID connID =>
    if connID ∈ found.clients then
      match messageEncode (p2gPush w ⟨clientConnID, p.pid, nameSpace, p.pushMsg⟩) with
      | some msg => .sent connID msg
      | none     => .panicked
    else
      .returned
  | _ => .returned

def lookup (w : Wire ρ) (nameSpace : String) (found : Found) (p : Push) : ToGate → Attempt
  | .lookup target =>
    match ToGate.find found.gGateAddrMap target with
    | some pc => send w nameSpace found p pc
    | none    => .panicked
  | _ => .returned

def pushToGate (w : Wire ρ) (nameSpace : String) (found : Found) (p : Push) : Attempt :=
  match ToGate.start p with
  | .get key => lookup w nameSpace found p (.got (found.redis key))
  | _        => .returned

-- What the loop of `RpcPushRestoreHandler.Process` does with a document. The other type assertions are about
-- fields that are always written with their types.
def each (w : Wire ρ) (nameSpace : String) (found : Found) (d : Doc) : Attempt :=
  match d.pushMsg with
  | some pushMsg => pushToGate w nameSpace found ⟨d.clientID, d.typ, pushMsg, d.id.bytes⟩
  | none         => .notBinary

-- The loop, where `found n` is what is found for the `n`th document.
def restore (w : Wire ρ) (nameSpace : String) (found : Nat → Found) : List Doc → List Attempt
  | []      => []
  | d :: ds =>
    match each w nameSpace (found 0) d with
    | .notBinary => [.notBinary]
    | .panicked  => [.panicked]
    | a          => a :: restore w nameSpace (fun n => found (n + 1)) ds

-- `RpcPushRestoreHandler.Process`
def process (w : Wire ρ) (nameSpace : String) (found : Nat → Found) (docs : List Doc) (clientID : String) :
    List Attempt :=
  restore w nameSpace found (Doc.find docs clientID)

end PushToGate
