import Mathlib.Data.Set.Defs
import Microservice.Gate.RpcHandler
import Microservice.PushService.Cluster

def getTcpListenIP (identity : Gate.ServerIdentity) (localIP : String) : String :=
  if identity = .clientGate then
    "0.0.0.0"
  else if localIP.length = 0 then
    "0.0.0.0"
  else
    localIP

def GateService.identity : GateService → Gate.ServerIdentity
  | .serviceGate => .serviceGate
  | .clientGate  => .clientGate

-- The process of a gate. `connID` is its connection as the push service sees it.
structure GateServer where
  service : GateService
  localIP : String
  port    : Nat
  connID  : ConnId

-- The gates of a push service. `listen` gives the string of a listener's address, `owner j` is the gate that
-- has accepted the connection with the number `j`.
structure Deployment where
  listen : String → Nat → Addr
  gates  : Set GateServer
  owner  : Nat → GateServer

namespace Deployment

def getListerAddr (D : Deployment) (g : GateServer) : Addr :=
  D.listen (getTcpListenIP g.service.identity g.localIP) g.port

-- `RpcReqListenAddrHandler.Process`: a gate answers with the address of its listener, over its connection to
-- the push service.
def Answer (D : Deployment) (addr : String) (connID : ConnId) : Prop :=
  ∃ g ∈ D.gates, addr = (D.getListerAddr g).str ∧ connID = g.connID

-- The gates accept connections, and answer the push service.
def Allows (D : Deployment) (s : Cluster) : Cluster.Event → Prop
  | .gateAccept conn =>
    conn.service = (D.owner s.gateClients.length).service ∧
    conn.listerAddr = D.getListerAddr (D.owner s.gateClients.length)
  | .rspListenAddr addr connID => D.Answer addr connID
  | _                          => True

-- A step of the cluster with these gates.
def Step (D : Deployment) (k : ClientSdk.Codec) (s : Cluster) (e : Cluster.Event) (s' : Cluster) : Prop :=
  Cluster.Step k s e s' ∧ D.Allows s e

end Deployment
