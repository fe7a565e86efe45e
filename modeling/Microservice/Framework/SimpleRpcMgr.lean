import Microservice.Framework.RpcDecode
import Microservice.Lib.Partial

-- What a generator makes. The method `ClientAccess` is one of the type of the handler, there is a result of it
-- if the type is a `RpcClientPermission`.
inductive RpcHanderGenerator (ρ : Type)
  | g2sRpcCall
  | user (h : RpcHandle.UserHandler ρ) (clientAccess : Option Bool)

namespace RpcHanderGenerator

variable {ρ : Type}

def handler : RpcHanderGenerator ρ → RpcHandle.Handler ρ
  | .g2sRpcCall => .call
  | .user h _   => .user h

def clientAccess : RpcHanderGenerator ρ → Option Bool
  | .g2sRpcCall          => none
  | .user _ clientAccess => clientAccess

end RpcHanderGenerator

structure SimpleRpcMgr (ρ : Type) where
  rpcs         : Partial Bytes (RpcHanderGenerator ρ)
  clientAccess : Partial Bytes Bool
  stopRegist   : Bool

namespace SimpleRpcMgr

open SimpleRpc

variable {ρ : Type}

-- The panics of a registration.
inductive Panic
  | stopped
  | repeated (name : Bytes)
  deriving DecidableEq

def Panic.text : Panic → Bytes
  | .stopped       => .ascii "can not retist rpc handler now"
  | .repeated name => .ascii "RegistRpcHandler " ++ name ++ .ascii " repeat !!!"

def genClientAccess (rmgr : SimpleRpcMgr ρ) (name : Bytes) (gen : RpcHanderGenerator ρ) : SimpleRpcMgr ρ :=
  match gen.clientAccess with
  | some true => { rmgr with clientAccess := rmgr.clientAccess.insert name true }
  | _         => { rmgr with clientAccess := rmgr.clientAccess.insert name false }

def registRpcHandler (rmgr : SimpleRpcMgr ρ) (name : Bytes) (gen : RpcHanderGenerator ρ) :
    Except Panic (SimpleRpcMgr ρ) :=
  if rmgr.stopRegist then
    .error .stopped
  else if (rmgr.rpcs name).isSome then
    .error (.repeated name)
  else
    .ok (genClientAccess { rmgr with rpcs := rmgr.rpcs.insert name gen } name gen)

def registRpcHandlerForce (rmgr : SimpleRpcMgr ρ) (name : Bytes) (gen : RpcHanderGenerator ρ) :
    Except Panic (SimpleRpcMgr ρ) :=
  if rmgr.stopRegist then
    .error .stopped
  else
    .ok (genClientAccess { rmgr with rpcs := rmgr.rpcs.insert name gen } name gen)

def stopRcpHandlerRegist (rmgr : SimpleRpcMgr ρ) : SimpleRpcMgr ρ :=
  { rmgr with stopRegist := true }

-- The handlers of the framework other than that of the calls.
structure Defaults (ρ : Type) where
  g2cRpcRsp    : RpcHandle.UserHandler ρ
  heartBeatReq : RpcHandle.UserHandler ρ
  heartBeatRsp : RpcHandle.UserHandler ρ

-- What `CreateSimpleRpcMgr` registers, in order. None of these handlers is a `RpcClientPermission`.
def Defaults.generators (d : Defaults ρ) : List (Bytes × RpcHanderGenerator ρ) :=
  [(.ascii msgG2SRpcCall, .g2sRpcCall),
    (.ascii msgG2SRpcCallOrdered, .g2sRpcCall),
    (.ascii msgG2CRpcRsp, .user d.g2cRpcRsp none),
    (.ascii msgHeartBeatReq, .user d.heartBeatReq none),
    (.ascii msgHeartBeatRsp, .user d.heartBeatRsp none)]

-- What is done to the manager, in `CreateSimpleRpcMgr` or later. `Start` stops the registration.
inductive Op (ρ : Type)
  | registRpcHandler (name : Bytes) (gen : RpcHanderGenerator ρ)
  | registRpcHandlerForce (name : Bytes) (gen : RpcHanderGenerator ρ)
  | stopRcpHandlerRegist

def apply (rmgr : SimpleRpcMgr ρ) : Op ρ → Except Panic (SimpleRpcMgr ρ)
  | .registRpcHandler name gen      => rmgr.registRpcHandler name gen
  | .registRpcHandlerForce name gen => rmgr.registRpcHandlerForce name gen
  | .stopRcpHandlerRegist           => .ok rmgr.stopRcpHandlerRegist

def empty : SimpleRpcMgr ρ where
  rpcs         := fun _ => none
  clientAccess := fun _ => none
  stopRegist   := false

def createSimpleRpcMgr (d : Defaults ρ) : Except Panic (SimpleRpcMgr ρ) :=
  (d.generators.map fun e => Op.registRpcHandler e.1 e.2).foldlM apply empty

-- The manager of a process after `ops`. A panic is not recovered from.
def setUp (d : Defaults ρ) (ops : List (Op ρ)) : Except Panic (SimpleRpcMgr ρ) :=
  (createSimpleRpcMgr d).bind fun rmgr => ops.foldlM apply rmgr

-- What the names stand for when a message is decoded.
def table (rmgr : SimpleRpcMgr ρ) (rpcName : Bytes) : Option (RpcHandle.Handler ρ) :=
  (rmgr.rpcs rpcName).map RpcHanderGenerator.handler

-- The frame of `RpcPermissionReport`. `entries` is the map `clientAccess` in the order in which the encoder
-- finds its entries.
def rpcPermissionReport (w : Wire ρ) (nameSpace service : Bytes) (entries : List (Bytes × Bool)) : Bytes :=
  w.rpcEncode (.ascii msgS2GRpcAccessReport) <|
    w.str.encode (nameSpace ++ .ascii ":" ++ service) ++ w.access.encode entries

end SimpleRpcMgr
