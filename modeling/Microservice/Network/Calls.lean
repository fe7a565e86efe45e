import Microservice.Framework.RpcDecode
import Microservice.Gate.RpcHandler

namespace Network

-- What is fixed for a gate and the services behind it. A Go string is a byte slice on the wire, `text` is what
-- the handlers of the gate have of it.
structure Config (ρ : Type) where
  identity : Gate.ServerIdentity
  wire     : Wire ρ
  text     : Bytes → String

def Config.gate {ρ : Type} (cfg : Config ρ) : Gate.Config ρ :=
  .onWire cfg.identity cfg.wire cfg.text

-- A `MSG_G2S_RPC_CALL` or `MSG_G2S_RPC_CALL_ORDERED`, with the task of the gate that has sent it.
structure Call where
  task     : Nat
  conn     : Conn
  grid     : UInt32
  innerRpc : Bytes

-- A call that was handled, with the handlers of the service as they were then and the error that was in the
-- session.
structure Run (ρ : Type) where
  call : Call
  own  : Bytes → Option (RpcHandle.UserHandler ρ)
  err  : Bytes

variable {ρ : Type}

-- The call that a step of the gate sends.
def forwarded : Gate.Event ρ → Option Call
  | .send i conn (.g2sRpcCall _ grid innerRpc) => some ⟨i, conn, grid, innerRpc⟩
  | _                                          => none

-- The step of the gate reads a response from a service.
def Responded : Gate.Event ρ → Prop
  | .frame (.remote _) rpc =>
    match rpc.body with
    | .rsp .. => True
    | _       => False
  | _ => False

inductive Event (ρ : Type)
  | gate (e : Gate.Event ρ)
  | handle (run : Run ρ)

-- The response that a step sends over a connection.
def rspTo (conn : Conn) : Event ρ → Option (UInt32 × String × Option ρ)
  | .gate (.send _ c (.g2cRpcRsp rid err reply)) => if c = conn then some (rid, err, reply) else none
  | _                                            => none

end Network

-- A gate with the services behind it. `calls` and `rsps` are on their way between them, and `runs` are the
-- calls that were handled.
structure Network (ρ : Type) where
  gate  : Gate ρ
  calls : List Network.Call
  runs  : List (Network.Run ρ)
  rsps  : List (Conn × RpcHandle.Rsp ρ)

namespace Network

variable {ρ : Type}

def init : Network ρ where
  gate  := .init
  calls := []
  runs  := []
  rsps  := []

-- A message is read once, and messages on different connections overtake each other. What the handlers of a
-- service do depends on its state and on the session, so they may be others for each call. The services respond
-- to calls only, whereas a client may send whatever it wants, also a response.
inductive Step (cfg : Config ρ) (s : Network ρ) : Event ρ → Network ρ → Prop
  | gate :
    Gate.Step cfg.gate s.gate e g → forwarded e = none → ¬Responded e →
    Step cfg s (.gate e) { s with gate := g }
  | forward :
    Gate.Step cfg.gate s.gate e g → forwarded e = some call →
    Step cfg s (.gate e) { s with gate := g, calls := s.calls ++ [call] }
  | handle (fuel : Nat) :
    s.calls = cs ++ call :: cs' →
    RpcHandle.process cfg.wire (RpcHandle.registered own) fuel call.grid call.innerRpc err = some eff →
    Step cfg s (.handle ⟨call, own, err⟩)
      { s with
        calls := cs ++ cs'
        runs  := s.runs ++ [⟨call, own, err⟩]
        rsps  := s.rsps ++ eff.sent.map (call.conn, ·) }
  | respond :
    s.rsps = rs ++ (r.conn, rsp) :: rs' →
    Gate.Step cfg.gate s.gate (.frame (.remote r) (.rsp rsp.grid (cfg.text rsp.error) rsp.reply)) g →
    Step cfg s (.gate (.frame (.remote r) (.rsp rsp.grid (cfg.text rsp.error) rsp.reply)))
      { s with gate := g, rsps := rs ++ rs' }

end Network
