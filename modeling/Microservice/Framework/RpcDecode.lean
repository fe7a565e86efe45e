import Microservice.Framework.HandleRead
import Microservice.Framework.RpcHandle

namespace SimpleRpc

variable {ρ : Type} {β : Type*}

-- A registered handler: the fields of its request struct, and the handler with a request in it.
structure Generator (β : Type*) where
  fields  : List (Codec.Field RpcHandle.FieldName)
  handler : Codec.Values fields → β

-- A session is the one of a `TcpClient`, of which there is the state, or the one of a remote.
abbrev SessionState := Option TcpClientState

def preCheck (session : SessionState) (rpcName : Bytes) : Bool :=
  if rpcName = .ascii msgC2GVertify then
    true
  else
    match session with
    | none       => true
    | some state => state = .ok

-- `RpcDecode` up to the call of `Process`. An rpc without a handler, and one with an argument that does not
-- decode, are only logged.
def rpcDecode (w : Wire ρ) (rpcs : Bytes → Option (Generator β)) (session : SessionState) (buf : Bytes) :
    Option β :=
  let (rpcName, rest) := w.rpcName buf
  if preCheck session rpcName then
    match rpcs rpcName with
    | none     => none
    | some gen =>
      match (Codec.decodeAll gen.fields rest).1 with
      | .error _   => none
      | .ok values => some (gen.handler values)
  else
    none

-- The handlers, with their requests, that `MessageDecode` has work for in a message.
def handlers (w : Wire ρ) (rpcs : Bytes → Option (Generator β)) (session : SessionState) (msg : Bytes) :
    Option (List β) :=
  (messageDecode (fun hs buf => hs ++ (rpcDecode w rpcs session buf).toList) msg []).map Prod.snd

end SimpleRpc

namespace RpcHandle

variable {ρ : Type}

-- The table of a service, with the handlers of `CreateSimpleRpcMgr` and its own ones.
def registered (own : Bytes → Option (UserHandler ρ)) (rpcName : Bytes) : Option (Handler ρ) :=
  if rpcName = .ascii SimpleRpc.msgG2SRpcCall ∨ rpcName = .ascii SimpleRpc.msgG2SRpcCallOrdered then
    some .call
  else
    (own rpcName).map .user

def generators (w : Wire ρ) (rpcs : Bytes → Option (Handler ρ)) (rpcName : Bytes) :
    Option (SimpleRpc.Generator (Σ h : Handler ρ, Codec.Values (h.fields w))) :=
  (rpcs rpcName).map fun h => ⟨h.fields w, fun values => ⟨h, values⟩⟩

end RpcHandle
