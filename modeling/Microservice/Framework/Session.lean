import Microservice.Framework.DefaultRpcHandler
import Microservice.Framework.HandleRead

-- The calls that reach a service over one connection. The frames of one read share a `Session`, in which
-- their handlers leave the error for the response.
namespace Session

-- The channel of the task pool and the number of its workers.
def taskChSize : Nat := 10000000

def coroutinesSize : Nat := 500

-- What a handler does to its session: the strings that it passes to `SetResponseErr`, in order, up to its
-- end or to the panic that `doProcessWithPanicProtect` recovers from. `rsp` tells whether there is a
-- response struct.
structure Handler where
  rpcName : String
  errs    : List String
  rsp     : Bool

inductive Dispatch
  | refused (r : Refusal)
  | handler (h : Handler)

-- A `MSG_G2S_RPC_CALL` whose request has been decoded.
structure Call where
  grid     : UInt32
  dispatch : Dispatch

-- The task of the frame with the number `idx`. Sessions are numbered like the reads they are made for.
structure Task where
  idx     : Nat
  session : Nat
  body    : Bytes

inductive Pc
  | start
  | handling (grid : UInt32) (h : Handler) (errs : List String)

structure Worker where
  task : Task
  pc   : Pc

-- `sessions` are the fields `err` of the sessions, `bodies` is what `MessageDecode` has still to hand over.
structure Conn where
  tcp      : TcpClient
  bodies   : List Bytes
  sessions : List String
  count    : Nat
  taskCh   : List Task
  workers  : List Worker

def accepted (now : Int) : Conn where
  tcp      := ⟨.make, now⟩
  bodies   := []
  sessions := []
  count    := 0
  taskCh   := []
  workers  := []

inductive Event
  | read (chunk : Bytes)
  | setResponseErr (idx session : Nat) (err : String)
  | rsp (idx : Nat) (grid : UInt32) (error : String)
  | internal

-- The end of `Process`. There is no response to a call without an id.
def reply (idx : Nat) (grid : UInt32) (error : String) : Event :=
  if grid = 0 then .internal else .rsp idx grid error

-- The steps of a worker. `call` tells what the frames decode to and what their handlers do. A worker that
-- has finished its task is gone.
inductive WorkerStep (call : Nat → Bytes → Option Call) (sessions : List String) (w : Worker) :
    Event → List String → Option Worker → Prop
  | undecoded :
    w.pc = .start → call w.task.idx w.task.body = none →
    WorkerStep call sessions w .internal sessions none
  | refuse :
    w.pc = .start → call w.task.idx w.task.body = some ⟨grid, .refused r⟩ →
    WorkerStep call sessions w (reply w.task.idx grid r.text) sessions none
  | process :
    w.pc = .start → call w.task.idx w.task.body = some ⟨grid, .handler h⟩ →
    WorkerStep call sessions w .internal sessions (some { w with pc := .handling grid h h.errs })
  | setResponseErr :
    w.pc = .handling grid h (err :: errs) →
    WorkerStep call sessions w (.setResponseErr w.task.idx w.task.session err)
      (sessions.set w.task.session err) (some { w with pc := .handling grid h errs })
  | needResponse :
    w.pc = .handling grid h [] → h.rsp = false →
    WorkerStep call sessions w (reply w.task.idx grid (Refusal.needResponse h.rpcName).text) sessions none
  | getResponseErr :
    w.pc = .handling grid h [] → h.rsp = true → sessions[w.task.session]? = some err →
    WorkerStep call sessions w (reply w.task.idx grid err) sessions none

inductive Step (call : Nat → Bytes → Option Call) (s : Conn) : Event → Conn → Prop
  | read {tcp : TcpClient} :
    s.bodies = [] → o.state = .ok → ReadLoop.Readable s.tcp.toRecvBuf o → o.result.bytes ≠ [] →
    TcpClient.turn ReadLoop.collect o s.tcp [] = .next (tcp, bodies) →
    Step call s (.read o.result.bytes)
      { s with tcp := tcp, bodies := bodies, sessions := s.sessions ++ [""] }
  | timeout {tcp : TcpClient} :
    s.bodies = [] → o.state = .ok → o.result.bytes = [] →
    TcpClient.turn ReadLoop.collect o s.tcp [] = .next (tcp, bodies) →
    Step call s .internal { s with tcp := tcp }
  | produce :
    s.bodies = body :: bodies → s.taskCh.length < taskChSize →
    Step call s .internal
      { s with
        bodies := bodies
        count  := s.count + 1
        taskCh := s.taskCh ++ [⟨s.count, s.sessions.length - 1, body⟩] }
  | take :
    s.taskCh = task :: tasks → s.workers.length < coroutinesSize →
    Step call s .internal { s with taskCh := tasks, workers := s.workers ++ [⟨task, .start⟩] }
  | work :
    s.workers[i]? = some w → WorkerStep call s.sessions w e sessions (some w') →
    Step call s e { s with sessions := sessions, workers := s.workers.set i w' }
  | done :
    s.workers[i]? = some w → WorkerStep call s.sessions w e sessions none →
    Step call s e { s with sessions := sessions, workers := s.workers.eraseIdx i }

end Session
