import Microservice.Framework.RpcDecode
import Microservice.Gate.Route

-- A client's view of a service behind a gate.
structure ServiceProxy where
  nameSpace   : Bytes
  serviceName : Bytes

namespace ServiceProxy

open SimpleRpc

variable {ρ : Type}

-- An argument of a call: a value, as the encoder writes it, or a `CallBack`, which can be nil.
inductive Arg
  | value (encoded : Bytes)
  | callBack (isNil : Bool)

-- The encoder refuses functions.
def Arg.encode : Arg → Bytes
  | .value encoded => encoded
  | .callBack _    => []

-- The last argument may be a `CallBack`. Only then there is an id, which `GenGid` draws.
def callBack (gid : UInt32) (args : List Arg) : UInt32 × List Arg :=
  match args.getLast? with
  | some (.callBack isNil) => (if isNil then 0 else gid, args.dropLast)
  | _                      => (0, args)

-- The request that `_rpcCall` sends.
def req (w : Wire ρ) (sp : ServiceProxy) (gid : UInt32) (ordered : Bool) (rpcName : Bytes) (args : List Arg) :
    Route.Req :=
  let (rid, args) := callBack gid args
  ⟨sp.nameSpace, sp.serviceName, rid, ordered, w.rpcEncode rpcName (args.flatMap Arg.encode)⟩

-- `_rpcCall`, with the message that is sent. `none` is the panic of `MessageEncode`.
def rpcCall (w : Wire ρ) (sp : ServiceProxy) (gid : UInt32) (ordered : Bool) (rpcName : Bytes)
    (args : List Arg) : Option Bytes :=
  messageEncode ((req w sp gid ordered rpcName args).encode w)

-- `RpcG2CRpcRspReq`
structure Rsp (ρ : Type) where
  rid   : UInt32
  error : Bytes
  reply : Option ρ

-- The handlers of a client. The requests of the others are left out.
inductive Handler (ρ : Type)
  | rpcRsp (req : Rsp ρ)
  | other (rpcName : Bytes)

def rspFields (w : Wire ρ) : List (Codec.Field RpcHandle.FieldName) :=
  [⟨⟨.ascii "Rid", .ascii "*uint32"⟩, UInt32, w.uint32⟩,
    ⟨⟨.ascii "Error", .ascii "*string"⟩, Bytes, w.str⟩,
    ⟨⟨.ascii "Reply", .ascii "*map[string]interface {}"⟩, Option ρ, w.reply⟩]

def rpcs (w : Wire ρ) (others : Bytes → Option (Generator (Handler ρ))) (rpcName : Bytes) :
    Option (Generator (Handler ρ)) :=
  if rpcName = .ascii msgG2CRpcRsp then
    some ⟨rspFields w, fun (rid, error, reply, _) => .rpcRsp ⟨rid, error, reply⟩⟩
  else
    others rpcName

end ServiceProxy
