import Microservice.Framework.CallbackMgr

-- Where a call of `_rpcCall` is. `started` knows if the last argument is a `CallBack` that is not nil.
inductive SdkCall
  | started (callBack : Bool)
  | drawn (rid : UInt32)
  | adding (rid : UInt32) (node : Ptr)
  | sending (rid : UInt32)
  | returned

-- Where a run of the client's `RpcG2CRpcRspHandler` is: it waits to hand over the node that `GetCallBack`
-- found, or it is about to call the `CallBack` of a call.
inductive SdkRsp
  | idle
  | deleting (call : Nat) (node : Ptr)
  | calling (call : Nat)

-- The calls of a client process to services. A callback and its timeout callback are known by the number of
-- their call.
structure SdkCalls where
  cb        : CallbackMgr Nat Nat
  globalGID : UInt32
  calls     : List SdkCall
  handlers  : Nat → SdkRsp

namespace SdkCalls

def init : SdkCalls where
  cb         := .init
  globalGID  := 0
  calls      := []
  handlers _ := .idle

def setCall (s : SdkCalls) (i : Nat) (c : SdkCall) : SdkCalls :=
  { s with calls := s.calls.set i c }

def setHandler (s : SdkCalls) (h : Nat) (r : SdkRsp) : SdkCalls :=
  { s with handlers := Function.update s.handlers h r }

inductive Event
  | rpcCall (callBack : Bool)
  | noCallBack (i : Nat)
  | genGid (i : Nat) (rid : UInt32)
  | register (i : Nat) (rid : UInt32) (endTime : Int)
  | added (i : Nat) (node : Ptr)
  | sent (i : Nat) (rid : UInt32)
  | get (h : Nat) (rid : UInt32) (call : Option Nat)
  | deleted (h : Nat) (node : Ptr)
  | callBack (h : Nat) (call : Nat)
  | mgr (e : CallbackMgr.MgrEvent Nat)

inductive Step : SdkCalls → Event → SdkCalls → Prop
  | rpcCall :
    Step s (.rpcCall callBack) { s with calls := s.calls ++ [.started callBack] }
  | noCallBack :
    s.calls[i]? = some (.started false) → Step s (.noCallBack i) (s.setCall i (.sending 0))
  | genGid :
    s.calls[i]? = some (.started true) →
    Step s (.genGid i (s.globalGID + 1))
      { s.setCall i (.drawn (s.globalGID + 1)) with globalGID := s.globalGID + 1 }
  | register (now : Int) :
    s.calls[i]? = some (.drawn rid) →
    Step s (.register i rid (Int8.toInt 100 + now))
      { s.setCall i (.adding rid s.cb.queue.alloc) with
        cb := s.cb.addCallBack rid i 100 now (some i) }
  | added :
    s.calls[i]? = some (.adding rid node) → CallbackMgr.MgrStep s.cb (.recvAdd node) cb' →
    Step s (.added i node) { s.setCall i (.sending rid) with cb := cb' }
  | sent :
    s.calls[i]? = some (.sending rid) → Step s (.sent i rid) (s.setCall i .returned)
  | getNil :
    s.handlers h = .idle → s.cb.gCbMap rid = none → Step s (.get h rid none) s
  | get :
    s.handlers h = .idle → s.cb.gCbMap rid = some (call, node) →
    Step s (.get h rid (some call))
      { s.setHandler h (.deleting call node) with cb := s.cb.getCallBack rid }
  | deleted :
    s.handlers h = .deleting call node → CallbackMgr.MgrStep s.cb (.recvDel node) cb' →
    Step s (.deleted h node) { s.setHandler h (.calling call) with cb := cb' }
  | callBack :
    s.handlers h = .calling call → Step s (.callBack h call) (s.setHandler h .idle)
  -- The steps of the callback manager that no other goroutine takes part in. A timeout callback is called
  -- by the manager itself.
  | mgr :
    CallbackMgr.MgrStep s.cb e cb' → (∀ node, e ≠ .recvAdd node) → (∀ node, e ≠ .recvDel node) →
    Step s (.mgr e) { s with cb := cb' }

end SdkCalls
