import Microservice.ClientSdk.Results
import Microservice.Network.Calls

def SdkReq.route (req : SdkReq) (rid : UInt32) : Gate.RouteReq :=
  ⟨req.nameSpace, req.service, rid, req.isOrdered, req.innerRpc⟩

-- A network with one of the clients of its gate. `up` and `down` are on their way between the client and the
-- gate, the requests with the numbers of their calls. `origins` are the calls that the tasks of the gate are
-- for, if it is one of this client.
structure ClientNetwork (ρ : Type) where
  net     : Network ρ
  client  : SdkResults ρ
  up      : List (Nat × Gate.RouteReq)
  down    : List (RpcG2CRpcRspReq ρ)
  origins : List (Option Nat)

namespace ClientNetwork

variable {ρ : Type}

def init : ClientNetwork ρ where
  net     := .init
  client  := .init
  up      := []
  down    := []
  origins := []

inductive Event (ρ : Type)
  | net (e : Network.Event ρ)
  | client (e : SdkResults.Event ρ)

-- The source of the frame that a step of the network reads at the gate.
def frameSrc : Network.Event ρ → Option Gate.Source
  | .gate (.frame src _) => some src
  | _                    => none

-- What a client sends by itself: logins, heart beats and so on, and the requests without an id of `Login` and
-- of the handler of pushes.
def Own : Gate.Rpc ρ → Prop
  | .other     => True
  | .route req => req.rid = 0
  | _          => False

-- The steps of the client that the network takes part in.
def Linked : SdkResults.Event ρ → Prop
  | .get .. | .step (.sent ..) => True
  | _                          => False

inductive Step (cfg : Network.Config ρ) (conn : Conn) (s : ClientNetwork ρ) :
    Event ρ → ClientNetwork ρ → Prop
  | net :
    Network.Step cfg s.net e net' → frameSrc e = none → Network.rspTo conn e = none →
    Step cfg conn s (.net e) { s with net := net' }
  | other :
    Network.Step cfg s.net e net' → frameSrc e = some src → src.conn ≠ conn →
    Step cfg conn s (.net e) { s with net := net', origins := s.origins ++ [none] }
  | own :
    Network.Step cfg s.net (.gate (.frame (.tcpClient conn) rpc)) net' → Own rpc →
    Step cfg conn s (.net (.gate (.frame (.tcpClient conn) rpc)))
      { s with net := net', origins := s.origins ++ [none] }
  | request :
    s.up = us ++ (i, req) :: us' → Network.Step cfg s.net (.gate (.frame (.tcpClient conn) (.route req))) net' →
    Step cfg conn s (.net (.gate (.frame (.tcpClient conn) (.route req))))
      { s with net := net', up := us ++ us', origins := s.origins ++ [some i] }
  | response :
    Network.Step cfg s.net e net' → Network.rspTo conn e = some (rsp.rid, rsp.error, rsp.reply) →
    Step cfg conn s (.net e) { s with net := net', down := s.down ++ [rsp] }
  | client :
    SdkResults.Step s.client e client' → ¬Linked e → Step cfg conn s (.client e) { s with client := client' }
  | send :
    SdkResults.Step s.client (.step (.sent i rid)) client' → s.client.reqs[i]? = some req →
    Step cfg conn s (.client (.step (.sent i rid)))
      { s with client := client', up := s.up ++ [(i, req.route rid)] }
  | get :
    s.down = ds ++ rsp :: ds' → SdkResults.Step s.client (.get h rsp call) client' →
    Step cfg conn s (.client (.get h rsp call)) { s with client := client', down := ds ++ ds' }

end ClientNetwork
