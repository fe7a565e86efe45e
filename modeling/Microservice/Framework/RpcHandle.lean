import Microservice.Framework.RpcEncode

-- `RpcG2SRpcCallHandler`, by which a service handles the calls that a gate forwards to it.
namespace RpcHandle

open SimpleRpc

variable {ρ : Type}

-- A field of a request struct, as an error about it says.
structure FieldName where
  name : Bytes
  typ  : Bytes

-- What the handler of an rpc leaves behind: the error of its session, the response struct as a map, if there
-- is one, and a panic.
structure Outcome (ρ : Type) where
  err    : Bytes
  rsp    : Option ρ
  panics : Bool

-- A handler of the service. It gets its request and the error that its session has.
structure UserHandler (ρ : Type) where
  fields  : List (Codec.Field FieldName)
  process : Codec.Values fields → Bytes → Outcome ρ

-- What an rpc name stands for. The handler of the calls is registered like the others.
inductive Handler (ρ : Type)
  | call
  | user (h : UserHandler ρ)

-- `RpcG2SRpcCallReq`
def callFields (w : Wire ρ) : List (Codec.Field FieldName) :=
  [⟨⟨.ascii "GRid", .ascii "*uint32"⟩, UInt32, w.uint32⟩,
    ⟨⟨.ascii "InnerRpc", .ascii "*[]uint8"⟩, Bytes, w.bin⟩]

def Handler.fields (w : Wire ρ) : Handler ρ → List (Codec.Field FieldName)
  | .call   => callFields w
  | .user h => h.fields

-- `MSG_S2G_RPC_RSP`
structure Rsp (ρ : Type) where
  grid  : UInt32
  error : Bytes
  reply : Option ρ

def Rsp.encode (w : Wire ρ) (rsp : Rsp ρ) : Bytes :=
  w.rpcEncode (.ascii msgS2GRpcRsp) <|
    w.uint32.encode rsp.grid ++ w.str.encode rsp.error ++ w.reply.encode rsp.reply

-- What has happened when `Process` returns or panics.
structure Effect (ρ : Type) where
  sent     : List (Rsp ρ)
  err      : Bytes
  panicked : Bool

def notExist (rpcName : Bytes) : Bytes :=
  .ascii "rpc " ++ rpcName ++ .ascii " not exist"

def decodeError (rpcName : Bytes) (field : FieldName) (err : Bytes) : Bytes :=
  .ascii "rpc " ++ rpcName ++ .ascii " arg " ++ field.name ++ .ascii "(" ++ field.typ ++
    .ascii ") decode error: " ++ err

def needResponse (rpcName : Bytes) : Bytes :=
  .ascii "rpc " ++ rpcName ++ .ascii " need response but get nil"

-- `handler.Process(session)` with what `handler.GetRspPtr()` is then. `call` is `Process` of this handler.
def Handler.process (w : Wire ρ) (call : UInt32 → Bytes → Bytes → Option (Effect ρ)) :
    (h : Handler ρ) → Codec.Values (h.fields w) → Bytes → Option (Effect ρ × Option ρ)
  | .call, (grid, innerRpc, _), err => (call grid innerRpc err).map (·, none)
  | .user h, values, err            =>
    let outcome := h.process values err
    some (⟨[], outcome.err, outcome.panics⟩, outcome.rsp)

-- The panic of a handler is recovered from.
def doProcessWithPanicProtect (eff : Effect ρ) : Effect ρ :=
  { eff with panicked := false }

def rpcHandle (w : Wire ρ) (rpcs : Bytes → Option (Handler ρ))
    (call : UInt32 → Bytes → Bytes → Option (Effect ρ)) (grid : UInt32) (innerRpc err : Bytes) :
    Option ((Bytes × Option ρ) × Effect ρ) :=
  let (rpcName, rest) := w.rpcName innerRpc
  match rpcs rpcName with
  | none   => some ((notExist rpcName, none), ⟨[], err, false⟩)
  | some h =>
    match (Codec.decodeAll (h.fields w) rest).1 with
    | .error (field, e) => some ((decodeError rpcName field e, none), ⟨[], err, false⟩)
    | .ok values        =>
      match h.process w call values err with
      | none            => none
      | some (eff, rsp) =>
        let eff := doProcessWithPanicProtect eff
        if grid = 0 then
          some (([], none), eff)
        else
          match rsp with
          | none       => some ((needResponse rpcName, none), eff)
          | some reply => some ((eff.err, some reply), eff)

-- The recursion is that of calls inside of calls. `none` means that the fuel is used up.
def process (w : Wire ρ) (rpcs : Bytes → Option (Handler ρ)) :
    Nat → UInt32 → Bytes → Bytes → Option (Effect ρ)
  | 0, _, _, _                     => none
  | fuel + 1, grid, innerRpc, err =>
    match rpcHandle w rpcs (process w rpcs fuel) grid innerRpc err with
    | none                       => none
    | some ((error, reply), eff) =>
      if grid = 0 then
        some eff
      else
        match messageEncode (Rsp.encode w ⟨grid, error, reply⟩) with
        | none   => some { eff with panicked := true }
        | some _ => some { eff with sent := eff.sent ++ [⟨grid, error, reply⟩] }

end RpcHandle
