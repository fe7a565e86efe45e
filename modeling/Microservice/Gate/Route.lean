import Microservice.Framework.RpcDecode
import Microservice.Gate.RpcHandler

-- The route handler of a gate with its messages as they are on the wire.
namespace Route

open SimpleRpc

variable {ρ τ : Type}

-- `RpcC2GRpcRouteReq`
structure Req where
  nameSpace : Bytes
  service   : Bytes
  rid       : UInt32
  isOrdered : Bool
  innerRpc  : Bytes

-- The frame of a request.
def Req.encode (w : Wire ρ) (req : Req) : Bytes :=
  w.rpcEncode (.ascii msgC2GRpcRoute) <|
    w.str.encode req.nameSpace ++ w.str.encode req.service ++ w.uint32.encode req.rid ++
      w.bool.encode req.isOrdered ++ w.bin.encode req.innerRpc

-- What the handler finds: its gate and session, the permission table, the remote that `ChoiceRemote` returns
-- and the id that `GenGid` draws.
structure State where
  identity      : Gate.ServerIdentity
  isTcpClient   : Bool
  gClientAccess : Partial Bytes (Partial Bytes Bool)
  remote        : Option Conn
  gid           : UInt32

inductive Target
  | session
  | remote (conn : Conn)

def notExist (req : Req) : Bytes :=
  .ascii "service " ++ req.nameSpace ++ .ascii ":" ++ req.service ++ .ascii " not exist"

def notAllow (req : Req) (rpcName : Bytes) : Bytes :=
  .ascii "rpc " ++ req.nameSpace ++ .ascii ":" ++ req.service ++ .ascii ":" ++ rpcName ++ .ascii " not allow"

-- The check of the permission, with the error it finds.
def permission (w : Wire ρ) (s : State) (req : Req) : Option Bytes :=
  if s.identity = .clientGate ∧ s.isTcpClient = true then
    match s.gClientAccess (req.nameSpace ++ .ascii ":" ++ req.service) with
    | none                => some (notExist req)
    | some rpcPermissions =>
      let rpcName := (w.rpcName req.innerRpc).1
      match rpcPermissions rpcName with
      | some true => none
      | _         => some (notAllow req rpcName)
  else
    none

-- A request without an id gets no response, also not in the case of an error.
def errorRsp (w : Wire ρ) (req : Req) (err : Bytes) : Option (Target × Bytes) :=
  if req.rid = 0 then
    none
  else
    some (.session, w.rpcEncode (.ascii msgG2CRpcRsp) <|
      w.uint32.encode req.rid ++ w.str.encode err ++ w.reply.encode none)

def grid (s : State) (req : Req) : UInt32 :=
  if req.rid = 0 then 0 else s.gid

def call (w : Wire ρ) (s : State) (req : Req) : Bytes :=
  let args := w.uint32.encode (grid s req) ++ w.bin.encode req.innerRpc
  if req.isOrdered then
    w.rpcEncode (.ascii msgG2SRpcCallOrdered) args
  else
    w.rpcEncode (.ascii msgG2SRpcCall) args

-- `RpcC2GRpcRouteHandler.Process`: what it passes to `MessageEncode`, and where that is to be sent.
def process (w : Wire ρ) (s : State) (req : Req) : Option (Target × Bytes) :=
  match permission w s req with
  | some err => errorRsp w req err
  | none     =>
    match s.remote with
    | some conn => some (.remote conn, call w s req)
    | none      => errorRsp w req (notExist req)

-- What `Process` does to the callbacks, in the session of a connection.
def addCallBack (w : Wire ρ) (s : State) (session : Conn) (now : Int) (req : Req)
    (cb : CallbackMgr Gate.RouteCbInfo τ) : CallbackMgr Gate.RouteCbInfo τ :=
  match process w s req with
  | some (.remote _, _) =>
    if req.rid = 0 then cb else cb.addCallBack (grid s req) ⟨req.rid, getConnID session⟩ 101 now none
  | _ => cb

-- The connection for a response: that of a client, or else that of a remote.
def connOf (clients : Partial ConnId Conn) (remotes : Partial ConnId Remote) (connID : ConnId) : Option Conn :=
  match clients connID with
  | some conn => some conn
  | none      => (remotes connID).map Remote.conn

-- `MSG_G2C_RPC_RSP`
def rspEncode (w : Wire ρ) (rid : UInt32) (error : Bytes) (reply : Option ρ) : Bytes :=
  w.rpcEncode (.ascii msgG2CRpcRsp) <|
    w.uint32.encode rid ++ w.str.encode error ++ w.reply.encode reply

-- `RpcS2GRpcRspHandler.Process`: what it passes to `MessageEncode`, and the connection for it.
def rspProcess (w : Wire ρ) (clients : Partial ConnId Conn) (remotes : Partial ConnId Remote)
    (cb : CallbackMgr Gate.RouteCbInfo τ) (rsp : RpcHandle.Rsp ρ) : Option (Conn × Bytes) :=
  match cb.gCbMap rsp.grid with
  | none           => none
  | some (info, _) =>
    (connOf clients remotes info.connID).map (·, rspEncode w info.rid rsp.error rsp.reply)

-- The handlers of a gate for calls and their responses.
inductive Handler (ρ : Type)
  | route (req : Req)
  | rsp (rsp : RpcHandle.Rsp ρ)
  | other (rpcName : Bytes)

def reqFields (w : Wire ρ) : List (Codec.Field RpcHandle.FieldName) :=
  [⟨⟨.ascii "NameSpace", .ascii "*string"⟩, Bytes, w.str⟩,
    ⟨⟨.ascii "Service", .ascii "*string"⟩, Bytes, w.str⟩,
    ⟨⟨.ascii "Rid", .ascii "*uint32"⟩, UInt32, w.uint32⟩,
    ⟨⟨.ascii "IsOrdered", .ascii "*bool"⟩, Bool, w.bool⟩,
    ⟨⟨.ascii "InnerRpc", .ascii "*[]uint8"⟩, Bytes, w.bin⟩]

def rspFields (w : Wire ρ) : List (Codec.Field RpcHandle.FieldName) :=
  [⟨⟨.ascii "GRid", .ascii "*uint32"⟩, UInt32, w.uint32⟩,
    ⟨⟨.ascii "Error", .ascii "*string"⟩, Bytes, w.str⟩,
    ⟨⟨.ascii "Reply", .ascii "*map[string]interface {}"⟩, Option ρ, w.reply⟩]

-- The table of a gate. `others` are the handlers of other messages.
def rpcs (w : Wire ρ) (others : Bytes → Option (Generator (Handler ρ))) (rpcName : Bytes) :
    Option (Generator (Handler ρ)) :=
  if rpcName = .ascii msgC2GRpcRoute then
    some ⟨reqFields w, fun (nameSpace, service, rid, isOrdered, innerRpc, _) =>
      .route ⟨nameSpace, service, rid, isOrdered, innerRpc⟩⟩
  else if rpcName = .ascii msgS2GRpcRsp then
    some ⟨rspFields w, fun (grid, error, reply, _) => .rsp ⟨grid, error, reply⟩⟩
  else
    others rpcName

end Route
