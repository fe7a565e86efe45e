import Microservice.ClientSdk.Calls
import Microservice.Framework.RpcResults

-- What a `ServiceProxy` is asked to call. `innerRpc` is what `RpcEncode` makes of the name and the arguments.
structure SdkReq where
  nameSpace : String
  service   : String
  isOrdered : Bool
  rpcName   : String
  innerRpc  : Bytes

-- The error that the timeout callback passes to the `CallBack`.
def SdkReq.timeout (req : SdkReq) : String :=
  "rpc call " ++ req.nameSpace ++ ":" ++ req.service ++ ":" ++ req.rpcName ++ " time out"

-- The calls of a client with what their callbacks are called with. `rsps` are the responses that the response
-- handlers work on, and `invoked` are the calls of the callbacks with the numbers of their rpc calls.
structure SdkResults (ρ : Type) where
  sdk     : SdkCalls
  reqs    : List SdkReq
  rsps    : Nat → RpcG2CRpcRspReq ρ
  invoked : List (Nat × String × Option ρ)

namespace SdkResults

variable {ρ : Type}

def init : SdkResults ρ where
  sdk     := .init
  reqs    := []
  rsps _  := ⟨0, "", none⟩
  invoked := []

inductive Event (ρ : Type)
  | rpcCall (req : SdkReq) (callBack : Bool)
  | get (h : Nat) (rsp : RpcG2CRpcRspReq ρ) (call : Option Nat)
  | step (e : SdkCalls.Event)

-- The steps that are not more than steps of the calls.
def Plain : SdkCalls.Event → Prop
  | .rpcCall _ | .get .. | .callBack .. | .mgr (.call ..) => False
  | _                                                     => True

inductive Step (s : SdkResults ρ) : Event ρ → SdkResults ρ → Prop
  | rpcCall :
    SdkCalls.Step s.sdk (.rpcCall callBack) sdk' →
    Step s (.rpcCall req callBack) { s with sdk := sdk', reqs := s.reqs ++ [req] }
  | get :
    SdkCalls.Step s.sdk (.get h rsp.rid call) sdk' →
    Step s (.get h rsp call) { s with sdk := sdk', rsps := Function.update s.rsps h rsp }
  | callBack :
    SdkCalls.Step s.sdk (.callBack h i) sdk' →
    Step s (.step (.callBack h i))
      { s with sdk := sdk', invoked := s.invoked ++ [(i, (s.rsps h).error, (s.rsps h).reply)] }
  | timeOut :
    SdkCalls.Step s.sdk (.mgr (.call cbid now i)) sdk' → s.reqs[i]? = some req →
    Step s (.step (.mgr (.call cbid now i)))
      { s with sdk := sdk', invoked := s.invoked ++ [(i, req.timeout, none)] }
  | step :
    SdkCalls.Step s.sdk e sdk' → Plain e → Step s (.step e) { s with sdk := sdk' }

end SdkResults
