import Microservice.Framework.RpcCall
import Microservice.Framework.Session

namespace RpcCalls

-- `RpcCallSync` draws an id and is then in an invocation of `RpcCall`.
def rpcCallSync (s : RpcCalls) : RpcCalls :=
  { s with globalGID := s.globalGID + 1, calls := s.calls ++ [.started (s.globalGID + 1) 3] }

-- The steps that an invocation, a response handler or the callback manager goes on with.
def Event.Continues : Event → Prop
  | .call .. | .genGid | .get .. => False
  | _                            => True

-- `RpcCallAsync` wants no reply.
def rpcCallAsync (s : RpcCalls) : RpcCalls :=
  { s with calls := s.calls ++ [.started 0 0] }

-- The steps of a process that makes its calls by `RpcCallSync` and `RpcCallAsync`, in any goroutine.
inductive ProcessEvent
  | rpcCallSync
  | rpcCallAsync
  | step (e : Event)

inductive ProcessStep : RpcCalls → ProcessEvent → RpcCalls → Prop
  | rpcCallSync  : ProcessStep s .rpcCallSync s.rpcCallSync
  | rpcCallAsync : ProcessStep s .rpcCallAsync s.rpcCallAsync
  | step :
    Step s e s' → (∀ rid reSendCnt, e ≠ .call rid reSendCnt) → e ≠ .genGid →
    ProcessStep s (.step e) s'

-- What the callback manager does in a tick.
def Event.Timeout : Event → Prop
  | .mgr (.queueAdd _) | .mgr (.queueDel _) => False
  | .mgr _ | .timeOut .. | .resend ..       => True
  | _                                       => False

end RpcCalls

-- A process of a service: the readers of its connections, the workers of its task pool, and its synchronous
-- calls to other services.
namespace TaskPool

-- The frames that a gate sends to a service: a call, the response to a call of the service, or something
-- else that is handled without waiting.
inductive Frame
  | call (ordered : Bool)
  | rsp (rid : UInt32)
  | other
  deriving DecidableEq

-- What a worker is at: in the handler of a call, in the invocation of `RpcCall` with the number `i` that
-- this handler has made, in `RpcG2CRpcRspHandler` before `GetCallBack` or after it, or in another handler.
inductive Work
  | handler
  | calling (i : Nat)
  | response (rid : UInt32)
  | responding (h : Nat)
  | other

def Frame.work : Frame → Work
  | .call _  => .handler
  | .rsp rid => .response rid
  | .other   => .other

-- One of the workers behind `taskCh`, or the one behind `separateCh`.
inductive Lane
  | pool (i : Nat)
  | separate

-- `conns` are the connections, each with the frames that have arrived and that its reader has not handed
-- over. `workers` and `separate` are the workers that have a task.
structure Service where
  rpc      : RpcCalls
  conns    : List (List Frame)
  taskCh   : List Frame
  workers  : List Work
  separate : Option Work

namespace Service

def start : Service where
  rpc      := .init
  conns    := []
  taskCh   := []
  workers  := []
  separate := none

def work (s : Service) : Lane → Option Work
  | .pool i   => s.workers[i]?
  | .separate => s.separate

def setWork (s : Service) (w : Work) : Lane → Service
  | .pool i   => { s with workers := s.workers.set i w }
  | .separate => { s with separate := w }

-- The worker is at the end of its task.
def done (s : Service) : Lane → Service
  | .pool i   => { s with workers := s.workers.eraseIdx i }
  | .separate => { s with separate := none }

inductive Event
  | accept
  | arrive (c : Nat) (f : Frame)
  | produceTask (c : Nat)
  | produceTaskSeparate (c : Nat)
  | take
  | rpcCallSync (l : Lane)
  | returned (l : Lane)
  | getCallBack (l : Lane) (rid : UInt32) (ch : Option Nat)
  | finish (l : Lane)
  | rpc (e : RpcCalls.Event)

inductive Step (s : Service) : Event → Service → Prop
  | accept : Step s .accept { s with conns := s.conns ++ [[]] }
  | arrive {c : Nat} {fs : List Frame} (f : Frame) :
    s.conns[c]? = some fs → Step s (.arrive c f) { s with conns := s.conns.set c (fs ++ [f]) }
  -- `RpcDecode`: the reader waits until there is room in `taskCh`, or until the worker behind `separateCh`,
  -- which is not buffered, takes the task.
  | produceTask {c : Nat} {f : Frame} {fs : List Frame} :
    s.conns[c]? = some (f :: fs) → f ≠ .call true → s.taskCh.length < Session.taskChSize →
    Step s (.produceTask c) { s with conns := s.conns.set c fs, taskCh := s.taskCh ++ [f] }
  | produceTaskSeparate {c : Nat} {fs : List Frame} :
    s.conns[c]? = some (.call true :: fs) → s.separate = none →
    Step s (.produceTaskSeparate c) { s with conns := s.conns.set c fs, separate := some .handler }
  | take {f : Frame} {fs : List Frame} :
    s.taskCh = f :: fs → s.workers.length < Session.coroutinesSize →
    Step s .take { s with taskCh := fs, workers := s.workers ++ [f.work] }
  -- A handler makes any number of calls.
  | rpcCallSync {l : Lane} :
    s.work l = some .handler →
    Step s (.rpcCallSync l) { s.setWork (.calling s.rpc.calls.length) l with rpc := s.rpc.rpcCallSync }
  | returned {l : Lane} {i : Nat} :
    s.work l = some (.calling i) → s.rpc.calls[i]? = some .returned →
    Step s (.returned l) (s.setWork .handler l)
  | getCallBack {l : Lane} {rid : UInt32} {h ch : Nat} {rpc : RpcCalls} :
    s.work l = some (.response rid) → RpcCalls.Step s.rpc (.get h rid (some ch)) rpc →
    .responding h ∉ s.workers →
    Step s (.getCallBack l rid (some ch)) { s.setWork (.responding h) l with rpc := rpc }
  | getCallBackNil {l : Lane} {rid : UInt32} {h : Nat} {rpc : RpcCalls} :
    s.work l = some (.response rid) → RpcCalls.Step s.rpc (.get h rid none) rpc →
    Step s (.getCallBack l rid none) { s.done l with rpc := rpc }
  | finish {l : Lane} {w : Work} :
    s.work l = some w → w = .handler ∨ w = .other → Step s (.finish l) (s.done l)
  | responded {l : Lane} {h : Nat} :
    s.work l = some (.responding h) → s.rpc.handlers h = .idle → Step s (.finish l) (s.done l)
  | rpc {e : RpcCalls.Event} {rpc : RpcCalls} :
    RpcCalls.Step s.rpc e rpc → e.Continues → Step s (.rpc e) { s with rpc := rpc }

end Service

end TaskPool
