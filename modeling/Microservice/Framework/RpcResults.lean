import Microservice.Framework.TaskPool

-- `MSG_G2C_RPC_RSP`
structure RpcG2CRpcRspReq (ρ : Type) where
  rid   : UInt32
  error : String
  reply : Option ρ

namespace RpcCall

-- How an invocation of `RpcCall` ends, by its `return` statements. The last one is the call of itself, with
-- the number of the inner invocation.
inductive Outcome (ρ : Type)
  | noClient
  | sendFailed
  | async
  | timedOut
  | answered (rsp : RpcG2CRpcRspReq ρ)
  | resent (inner : Nat)

-- An invocation with its arguments, how it ends, and the named results `err` and `reply` when it returns.
-- If its id is one that was drawn for it, `drawn` says how many ids had been drawn before.
structure Invocation (ρ : Type) where
  serviceName : String
  rpcName     : String
  rid         : UInt32
  reSendCnt   : Int8
  drawn       : Option Nat
  outcome     : Option (Outcome ρ)
  result      : Option (String × Option ρ)

variable {ρ : Type}

namespace Invocation

def start (serviceName rpcName : String) (rid : UInt32) (reSendCnt : Int8) (drawn : Option Nat) :
    Invocation ρ :=
  ⟨serviceName, rpcName, rid, reSendCnt, drawn, none, none⟩

-- The error that the timeout callback sends.
def timeout (nameSpace : String) (a : Invocation ρ) : String :=
  "s2s rpc call [" ++ nameSpace ++ ":" ++ a.serviceName ++ ":" ++ a.rpcName ++ "] time out"

-- The results of an invocation that does not call itself. Both are zero values until they are set.
def results (nameSpace : String) (a : Invocation ρ) : Outcome ρ → Option (String × Option ρ)
  | .noClient | .sendFailed | .async => some ("", none)
  | .timedOut                        => some (a.timeout nameSpace, none)
  | .answered rsp                    => some (rsp.error, rsp.reply)
  | .resent _                        => none

def ended (nameSpace : String) (a : Invocation ρ) (o : Outcome ρ) : Invocation ρ :=
  { a with outcome := some o, result := a.results nameSpace o }

end Invocation

end RpcCall

open RpcCall

-- The synchronous calls of a process with what they return. `rsps` are the responses that the response
-- handlers work on, and `draws` is how often `GenGid` was called.
structure RpcResults (ρ : Type) where
  rpc         : RpcCalls
  invocations : List (Invocation ρ)
  rsps        : Nat → RpcG2CRpcRspReq ρ
  draws       : Nat

namespace RpcResults

variable {ρ : Type}

def init : RpcResults ρ where
  rpc         := .init
  invocations := []
  rsps _      := ⟨0, "", none⟩
  draws       := 0

inductive Event (ρ : Type)
  | rpcCall (serviceName rpcName : String) (rid : UInt32) (reSendCnt : Int8)
  | rpcCallSync (serviceName rpcName : String)
  | genGid
  | get (h : Nat) (rsp : RpcG2CRpcRspReq ρ) (ch : Option Nat)
  | step (e : RpcCalls.Event)

-- The invocation that a step ends, unless by a resend.
def ending (s : RpcResults ρ) : RpcCalls.Event → Option (Nat × Outcome ρ)
  | .noClient i     => some (i, .noClient)
  | .sendFailed i _ => some (i, .sendFailed)
  | .sent i         =>
    match s.rpc.calls[i]? with
    | some (.sending rid _) => if rid = 0 then some (i, .async) else none
    | _                     => none
  | .timeOut i _ _  => some (i, .timedOut)
  | .reply h ch     => some (ch, .answered (s.rsps h))
  | _               => none

-- The steps of an invocation that calls itself.
def Recursive : RpcCalls.Event → Prop
  | .resend .. | .innerReturned _ => True
  | _                             => False

def rpcCallSync (s : RpcResults ρ) (serviceName rpcName : String) : RpcResults ρ :=
  { s with
    rpc         := s.rpc.rpcCallSync
    draws       := s.draws + 1
    invocations := s.invocations ++
      [.start serviceName rpcName (s.rpc.globalGID + 1) 3 (some s.draws)] }

-- The steps of the calls, in a process with the namespace of `GlobalCfg`.
inductive Step (nameSpace : String) (s : RpcResults ρ) : Event ρ → RpcResults ρ → Prop
  | rpcCall :
    Step nameSpace s (.rpcCall serviceName rpcName rid reSendCnt)
      { s with
        rpc         := { s.rpc with calls := s.rpc.calls ++ [.started rid reSendCnt] }
        invocations := s.invocations ++ [.start serviceName rpcName rid reSendCnt none] }
  | rpcCallSync :
    Step nameSpace s (.rpcCallSync serviceName rpcName) (s.rpcCallSync serviceName rpcName)
  | genGid :
    Step nameSpace s .genGid
      { s with rpc := { s.rpc with globalGID := s.rpc.globalGID + 1 }, draws := s.draws + 1 }
  | get :
    RpcCalls.Step s.rpc (.get h rsp.rid ch) rpc' →
    Step nameSpace s (.get h rsp ch) { s with rpc := rpc', rsps := Function.update s.rsps h rsp }
  | ended :
    RpcCalls.Step s.rpc e rpc' → s.ending e = some (i, o) → s.invocations[i]? = some a →
    Step nameSpace s (.step e)
      { s with rpc := rpc', invocations := s.invocations.set i (a.ended nameSpace o) }
  | resend :
    RpcCalls.Step s.rpc (.resend i cbid now) rpc' → s.invocations[i]? = some a →
    Step nameSpace s (.step (.resend i cbid now))
      { s with
        rpc         := rpc'
        draws       := s.draws + 1
        invocations := s.invocations.set i (a.ended nameSpace (.resent s.invocations.length)) ++
          [.start a.serviceName a.rpcName (s.rpc.globalGID + 1) (a.reSendCnt - 1) (some s.draws)] }
  | innerReturned :
    RpcCalls.Step s.rpc (.innerReturned i) rpc' → s.rpc.calls[i]? = some (.resending j) →
    s.invocations[i]? = some a → s.invocations[j]? = some b →
    Step nameSpace s (.step (.innerReturned i))
      { s with rpc := rpc', invocations := s.invocations.set i { a with result := b.result } }
  | step :
    RpcCalls.Step s.rpc e rpc' → e.Continues → s.ending e = none → ¬Recursive e →
    Step nameSpace s (.step e) { s with rpc := rpc' }

def outcome (s : RpcResults ρ) (i : Nat) : Option (Outcome ρ) :=
  s.invocations[i]?.bind Invocation.outcome

-- The invocations that a call consists of, the first one first.
inductive Attempts (s : RpcResults ρ) : Nat → List Nat → Prop
  | last :
    s.invocations[i]? = some a → (∀ j, a.outcome ≠ some (.resent j)) → Attempts s i [i]
  | resent :
    s.invocations[i]? = some a → a.outcome = some (.resent j) → Attempts s j is → Attempts s i (i :: is)

end RpcResults
