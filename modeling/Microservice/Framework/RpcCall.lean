import Microservice.Framework.CallbackMgr

-- Where an invocation of `RpcCall` is. Its channel is known by the number of the invocation.
inductive RpcCall
  | started (rid : UInt32) (reSendCnt : Int8)
  | adding (rid : UInt32) (reSendCnt : Int8) (node : Ptr)
  | sending (rid : UInt32) (reSendCnt : Int8)
  | receiving (reSendCnt : Int8)
  | resending (inner : Nat)
  | returned

-- Where a run of `RpcG2CRpcRspHandler` is: it waits to hand over the node that `GetCallBack` found,
-- or to send on the channel.
inductive RspHandler
  | idle
  | deleting (ch : Nat) (node : Ptr)
  | replying (ch : Nat)

-- The synchronous calls of a process. A callback consists of the channel of its call, and so does a
-- timeout callback, which sends on it.
structure RpcCalls where
  cb        : CallbackMgr Nat Nat
  globalGID : UInt32
  calls     : List RpcCall
  handlers  : Nat → RspHandler

namespace RpcCalls

def init : RpcCalls where
  cb         := .init
  globalGID  := 0
  calls      := []
  handlers _ := .idle

def setCall (s : RpcCalls) (i : Nat) (c : RpcCall) : RpcCalls :=
  { s with calls := s.calls.set i c }

def setHandler (s : RpcCalls) (h : Nat) (r : RspHandler) : RpcCalls :=
  { s with handlers := Function.update s.handlers h r }

inductive Event
  | call (rid : UInt32) (reSendCnt : Int8)
  | genGid
  | noClient (i : Nat)
  | async (i : Nat)
  | register (i : Nat) (rid : UInt32) (endTime : Int)
  | added (i : Nat) (node : Ptr)
  | sent (i : Nat)
  | sendFailed (i : Nat) (rid : UInt32)
  | timeOut (i : Nat) (cbid : UInt32) (now : Int)
  | resend (i : Nat) (cbid : UInt32) (now : Int)
  | innerReturned (i : Nat)
  | get (h : Nat) (rid : UInt32) (ch : Option Nat)
  | deleted (h : Nat) (node : Ptr)
  | reply (h : Nat) (ch : Nat)
  | mgr (e : CallbackMgr.MgrEvent Nat)

-- The steps of the goroutine of the callback manager that no other goroutine takes part in.
def Internal : CallbackMgr.MgrEvent Nat → Prop
  | .recvAdd _ | .recvDel _ | .call .. => False
  | _                                  => True

inductive Step : RpcCalls → Event → RpcCalls → Prop
  | call :
    Step s (.call rid reSendCnt) { s with calls := s.calls ++ [.started rid reSendCnt] }
  | genGid :
    Step s .genGid { s with globalGID := s.globalGID + 1 }
  | noClient :
    s.calls[i]? = some (.started rid reSendCnt) →
    Step s (.noClient i) (s.setCall i .returned)
  | async :
    s.calls[i]? = some (.started 0 reSendCnt) →
    Step s (.async i) (s.setCall i (.sending 0 reSendCnt))
  | register (now : Int) :
    s.calls[i]? = some (.started rid reSendCnt) → rid ≠ 0 →
    Step s (.register i rid (Int8.toInt 33 + now))
      { s.setCall i (.adding rid reSendCnt s.cb.queue.alloc) with
        cb := s.cb.addCallBack rid i 33 now (some i) }
  | added :
    s.calls[i]? = some (.adding rid reSendCnt node) → CallbackMgr.MgrStep s.cb (.recvAdd node) cb' →
    Step s (.added i node) { s.setCall i (.sending rid reSendCnt) with cb := cb' }
  | sent :
    s.calls[i]? = some (.sending rid reSendCnt) →
    Step s (.sent i) (s.setCall i (if rid = 0 then .returned else .receiving reSendCnt))
  -- `MessageSend` fails. The callback stays registered.
  | sendFailed :
    s.calls[i]? = some (.sending rid reSendCnt) →
    Step s (.sendFailed i rid) (s.setCall i .returned)
  -- The timeout callback sends on the channel, which takes a receiver. So does the response handler.
  | timeOut :
    CallbackMgr.MgrStep s.cb (.call cbid now i) cb' → s.calls[i]? = some (.receiving reSendCnt) →
    ¬0 < reSendCnt →
    Step s (.timeOut i cbid now) { s.setCall i .returned with cb := cb' }
  | resend :
    CallbackMgr.MgrStep s.cb (.call cbid now i) cb' → s.calls[i]? = some (.receiving reSendCnt) →
    0 < reSendCnt →
    Step s (.resend i cbid now)
      { s with
        cb        := cb'
        globalGID := s.globalGID + 1
        calls     := s.calls.set i (.resending s.calls.length) ++
          [.started (s.globalGID + 1) (reSendCnt - 1)] }
  | innerReturned :
    s.calls[i]? = some (.resending j) → s.calls[j]? = some .returned →
    Step s (.innerReturned i) (s.setCall i .returned)
  | getNil :
    s.handlers h = .idle → s.cb.gCbMap rid = none → Step s (.get h rid none) s
  | get :
    s.handlers h = .idle → s.cb.gCbMap rid = some (ch, node) →
    Step s (.get h rid (some ch))
      { s.setHandler h (.deleting ch node) with cb := s.cb.getCallBack rid }
  | deleted :
    s.handlers h = .deleting ch node → CallbackMgr.MgrStep s.cb (.recvDel node) cb' →
    Step s (.deleted h node) { s.setHandler h (.replying ch) with cb := cb' }
  | reply :
    s.handlers h = .replying ch → s.calls[ch]? = some (.receiving reSendCnt) →
    Step s (.reply h ch) ((s.setHandler h .idle).setCall ch .returned)
  | mgr :
    CallbackMgr.MgrStep s.cb e cb' → Internal e → Step s (.mgr e) { s with cb := cb' }

end RpcCalls
