import Microservice.Framework.Utils
import Microservice.Gate.Login

-- The id of a mongo document.
structure ObjectID where
  bytes  : Bytes
  length : bytes.length = 12
  deriving DecidableEq

-- `copy(objectID[0:], pid)` into an id of zeros.
def ObjectID.ofPid (pid : Bytes) : ObjectID where
  bytes  := Bytes.copy (List.replicate 12 0) pid
  length := by simp [Bytes.copy]; omega

-- `MSG_S2P_PUSH`
structure PushReq where
  clientID : String
  typ      : String
  isSafe   : Bool
  pushMsg  : Bytes

inductive RecordState
  | unarrive
  | arrived
  deriving DecidableEq

-- A document of `safe_push_records` whose push message is binary. One that is nil is stored as null, and ends
-- the handler that restores it.
structure Record where
  id       : ObjectID
  clientID : String
  typ      : String
  pushMsg  : Bytes
  state    : RecordState

abbrev Mongo := List Record

namespace Mongo

def find (mongo : Mongo) (clientID : String) : List Record :=
  mongo.filter fun r => r.clientID = clientID ∧ r.state = .unarrive

def updateOne (mongo : Mongo) (id : ObjectID) : Mongo :=
  mongo.map fun r => if r.id = id then { r with state := .arrived } else r

end Mongo

-- The arguments of `PushToGate`.
structure Push where
  clientID : String
  typ      : String
  pushMsg  : Bytes
  pid      : Bytes

def PushReq.push (req : PushReq) (pid : Bytes) : Push :=
  ⟨req.clientID, req.typ, req.pushMsg, pid⟩

def Record.push (r : Record) : Push :=
  ⟨r.clientID, r.typ, r.pushMsg, r.id.bytes⟩

-- `MSG_P2G_PUSH`
structure P2GPush where
  connID    : String
  pid       : Bytes
  nameSpace : String
  innerRpc  : Bytes

-- The points between the accesses that `PushToGate` makes to what is shared.
inductive ToGate
  | get (key : String)
  | lookup (target : String)
  | send (clientConnID : String) (connID : ConnId)
  | done

namespace ToGate

def start (p : Push) : ToGate :=
  if p.typ = "server" then
    .get (GateService.serviceGate.key p.clientID)
  else if p.typ = "client" then
    .get (GateService.clientGate.key p.clientID)
  else
    .done

-- The answer of redis. A key that is not there is an error.
def got : Option String → ToGate
  | some target => .lookup target
  | none        => .done

-- `none` is the index out of range that ends the process.
def find (gGateAddrMap : Partial String ConnId) (target : String) : Option ToGate :=
  match Strings.split target '/' with
  | gateAddr :: clientConnID :: _ =>
    match gGateAddrMap gateAddr with
    | some connID => some (.send clientConnID connID)
    | none        => some .done
  | _ => none

end ToGate

-- The frame that a restore goes back to: the number of its connection, its number there, and the client id.
structure Origin where
  conn     : Nat
  frame    : Nat
  clientID : String

-- The handlers of the push service, by where they are.
inductive Handler
  | push (req : PushReq)
  | pushing (p : Push) (pc : ToGate)
  | find (origin : Origin)
  | restoring (origin : Origin) (p : Push) (ps : List Push) (pc : ToGate)
  | restored (origin : Origin)
  | failed

namespace Handler

-- The call of `PushToGate` that a handler is in.
def toGate : Handler → Option (Push × ToGate)
  | .pushing p pc | .restoring _ p _ pc => some (p, pc)
  | _                                   => none

def goto : Handler → ToGate → Handler
  | .pushing p _, pc             => .pushing p pc
  | .restoring origin p ps _, pc => .restoring origin p ps pc
  | h, _                         => h

-- The loop over the documents that `Find` has returned.
def each (origin : Origin) : List Push → Handler
  | []      => .restored origin
  | p :: ps => .restoring origin p ps (.start p)

end Handler
