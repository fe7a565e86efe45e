import Microservice.Framework.RemoteMgr
import Microservice.Lib.Strings

-- `GlobalCfg.Service` of a gate. With any other one, the process does not start.
inductive GateService
  | serviceGate
  | clientGate
  deriving DecidableEq

-- The redis key of a client id that logs in on a gate.
def GateService.key : GateService → String → String
  | .serviceGate, clientID => "s_" ++ clientID
  | .clientGate, clientID  => "c_" ++ clientID

-- The string of a network address. There is no slash in it.
structure Addr where
  str      : String
  no_slash : '/' ∉ str.toList

abbrev Redis := Partial String String

-- A connection to a gate: the gate's `GetListerAddr` and the connection's `GetConnID`.
structure GateConn where
  service    : GateService
  listerAddr : Addr
  connID     : Addr

-- What a login writes to redis.
def GateConn.location (conn : GateConn) : String :=
  conn.listerAddr.str ++ "/" ++ conn.connID.str

-- The frames of a verified client that concern its logins. `restore` is the `MSG_C2G_RPC_ROUTE` that
-- carries `MSG_PUSH_RESTORE` to the push service.
inductive Frame
  | login (clientID : String)
  | logoff (clientID : String)
  | restore (clientID : String)
  deriving DecidableEq

-- `frames` is what the client has written and the reader has not read. The frames are numbered in the
-- order in which they are read, `count` is the next number. While `reader` is not `none`, the reader runs
-- the handler of a login. `tasks` are in the task pool.
structure GateClient where
  conn   : GateConn
  frames : List Frame
  count  : Nat
  reader : Option (Nat × String)
  tasks  : List (Nat × Frame)

namespace GateClient

def accepted (conn : GateConn) : GateClient where
  conn   := conn
  frames := []
  count  := 0
  reader := none
  tasks  := []

inductive Event
  | send (f : Frame)
  | read
  | set (n : Nat) (clientID : String)
  | setFailed (n : Nat) (clientID : String)
  | del (n : Nat) (clientID : String)
  | delFailed (n : Nat) (clientID : String)
  | forward (n : Nat) (clientID : String)
  | lost (n : Nat) (clientID : String)
  deriving DecidableEq

-- `RpcDecode`: the reader runs the task of a login itself, all others go into the task pool.
def rpcDecode (c : GateClient) : Frame → GateClient
  | .login clientID => { c with count := c.count + 1, reader := some (c.count, clientID) }
  | f               => { c with count := c.count + 1, tasks := c.tasks ++ [(c.count, f)] }

-- A worker of the pool takes a task.
def take (c : GateClient) (n : Nat) (f : Frame) : Option GateClient :=
  if (n, f) ∈ c.tasks then some { c with tasks := c.tasks.erase (n, f) } else none

-- The reader gets to the end of a login.
def finish (c : GateClient) (n : Nat) (clientID : String) : Option GateClient :=
  if c.reader = some (n, clientID) then some { c with reader := none } else none

-- `forward` is where the restore request leaves for the push service.
def step (redis : Redis) (c : GateClient) : Event → Option (Redis × GateClient)
  | .send f => some (redis, { c with frames := c.frames ++ [f] })
  | .read   =>
    match c.reader, c.frames with
    | none, f :: frames => some (redis, { c with frames := frames }.rpcDecode f)
    | _, _              => none
  | .set n clientID       =>
    (c.finish n clientID).map (redis.insert (c.conn.service.key clientID) c.conn.location, ·)
  | .setFailed n clientID => (c.finish n clientID).map (redis, ·)
  | .del n clientID       =>
    (c.take n (.logoff clientID)).map (redis.erase (c.conn.service.key clientID), ·)
  | .delFailed n clientID => (c.take n (.logoff clientID)).map (redis, ·)
  | .forward n clientID   => (c.take n (.restore clientID)).map (redis, ·)
  | .lost n clientID      => (c.take n (.restore clientID)).map (redis, ·)

-- A gate connection by itself.
def Step (s : Redis × GateClient) (e : Event) (s' : Redis × GateClient) : Prop :=
  step s.fst s.snd e = some s'

-- All that the client has written is processed.
def Processed (c : GateClient) : Prop :=
  c.frames = [] ∧ c.reader = none ∧ c.tasks = []

end GateClient
