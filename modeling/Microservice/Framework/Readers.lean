import Microservice.Framework.Pool

-- The connections of a service, with their readers, in front of the task pool.
namespace Readers

open SimpleRpc (msgC2GVertify msgGateLogin msgG2SRpcCallOrdered)

-- A frame goes by its connection and its position in the stream of the connection.
abbrev Frame := Nat × Nat

-- Where a reader is: between two frames, in `ProduceTask` or `ProduceTaskSeparate` with a task that is
-- counted, or in a task that it runs itself.
inductive Pc
  | read
  | send (i : Nat)
  | sync

-- `frames` are the names of the rpcs that have arrived. `RpcDecode` was called for the first `decoded`.
structure Conn where
  frames  : List String
  decoded : Nat
  pc      : Pc

-- The rpcs that `RpcDecode` does not leave to the task pool.
def isSync (rpcName : String) : Bool :=
  rpcName = msgC2GVertify ∨ rpcName = msgGateLogin

-- The channel for the others.
def channel (rpcName : String) : TaskPool.Ch :=
  if rpcName = msgG2SRpcCallOrdered then .separateCh else .taskCh

end Readers

structure Readers where
  pool  : TaskPool Readers.Frame
  conns : List Readers.Conn

namespace Readers

def init : Readers where
  pool  := .init
  conns := []

def setConn (s : Readers) (c : Nat) (conn : Conn) : Readers :=
  { s with conns := s.conns.set c conn }

inductive Event
  | accept
  | arrive (c : Nat) (rpcName : String)
  | sync (c : Nat)
  | synced (c : Nat)
  | produce (c : Nat)
  | sent (c : Nat)
  | pool (e : TaskPool.Event Frame)

-- Any schedule of the readers and the workers. A client of a service is in the state OK from the start,
-- and so `PreCheck` lets every frame pass.
inductive Step (s : Readers) : Event → Readers → Prop
  | accept : Step s .accept { s with conns := s.conns ++ [⟨[], 0, .read⟩] }
  | arrive {c : Nat} {conn : Conn} (rpcName : String) :
    s.conns[c]? = some conn →
    Step s (.arrive c rpcName) (s.setConn c { conn with frames := conn.frames ++ [rpcName] })
  | sync {c : Nat} {conn : Conn} {rpcName : String} :
    s.conns[c]? = some conn → conn.pc = .read → conn.frames[conn.decoded]? = some rpcName →
    isSync rpcName →
    Step s (.sync c) (s.setConn c { conn with decoded := conn.decoded + 1, pc := .sync })
  | synced {c : Nat} {conn : Conn} :
    s.conns[c]? = some conn → conn.pc = .sync →
    Step s (.synced c) (s.setConn c { conn with pc := .read })
  | produce {c : Nat} {conn : Conn} {rpcName : String} {pool : TaskPool Frame} :
    s.conns[c]? = some conn → conn.pc = .read → conn.frames[conn.decoded]? = some rpcName →
    ¬isSync rpcName → TaskPool.Step s.pool (.produce (c, conn.decoded) (channel rpcName)) pool →
    Step s (.produce c)
      { s.setConn c { conn with decoded := conn.decoded + 1, pc := .send s.pool.tasks.length } with
        pool := pool }
  -- The task is in the buffer of its channel, or its worker has received it.
  | sent {c i : Nat} {conn : Conn} {task : TaskPool.Task Frame} :
    s.conns[c]? = some conn → conn.pc = .send i → s.pool.tasks[i]? = some task →
    task.stage ≠ .produced → Step s (.sent c) (s.setConn c { conn with pc := .read })
  | pool {e : TaskPool.Event Frame} {pool : TaskPool Frame} :
    TaskPool.Step s.pool e pool → (∀ func ch, e ≠ .produce func ch) →
    Step s (.pool e) { s with pool := pool }

end Readers
