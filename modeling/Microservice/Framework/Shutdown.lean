import Microservice.Framework.Pool
import Microservice.Lib.Partial

-- A process from its start to the end of `Stop`: the readers of its clients, its task pool and its databases.
namespace Shutdown

inductive DbType
  | redisSingle
  | redisCluster
  | mongo
  deriving DecidableEq

def DbType.ofString? : String → Option DbType
  | "redisSingle"  => some .redisSingle
  | "redisCluster" => some .redisCluster
  | "mongo"        => some .mongo
  | _              => none

structure DbCfg where
  name : String
  type : String

structure Db where
  type   : DbType
  closed : Bool

-- `gDBResource`. It makes no difference to its readers whether it is empty or nil.
abbrev DBResource := Partial String Db

def createDBResource (dbCfg : List DbCfg) : DBResource :=
  dbCfg.foldl (fun r cfg => (DbType.ofString? cfg.type).elim r fun type => r.insert cfg.name ⟨type, false⟩)
    fun _ => none

-- What `ReleaseDBResource` does for one entry of the configuration. The type assertion panics if a later
-- entry has the same name and another type.
def closeDb (r : DBResource) (cfg : DbCfg) : Option DBResource :=
  match DbType.ofString? cfg.type, r cfg.name with
  | some type, some db => if db.type = type then some (r.insert cfg.name { db with closed := true }) else none
  | _, _               => some r

-- What `GetRedisSingle`, `GetRedisCluster` and `GetMongo` return, other than by a panic of the type
-- assertion.
inductive Got
  | nil
  | client (closed : Bool)
  deriving DecidableEq

def getDb (r : DBResource) (type : DbType) (name : String) : Option Got :=
  match r name with
  | none    => some .nil
  | some db => if db.type = type then some (.client db.closed) else none

-- How far the goroutine of `Stop` is: not yet called, in `StopTcpServer`, which waits for the clients to be
-- closed, in `StopEtcdDriver`, in `ReleaseDBResource` with the entries that are left, in `StopTaskPool`, or
-- at the end. After a panic there is no process any more.
inductive Main
  | serving
  | stopTcpServer
  | stopEtcdDriver
  | releaseDBResource (dbCfg : List DbCfg)
  | stopTaskPool
  | stopped
  | panicked

-- The reader of a client is between two frames, or in `ProduceTask` with a task that is counted.
inductive Reader
  | read
  | send (i : Nat)

end Shutdown

structure Shutdown (α : Type*) where
  pool        : TaskPool α
  clients     : List Shutdown.Reader
  gDBResource : Shutdown.DBResource
  main        : Shutdown.Main

namespace Shutdown

variable {α : Type*}

def start (dbCfg : List DbCfg) : Shutdown α where
  pool        := .init
  clients     := []
  gDBResource := createDBResource dbCfg
  main        := .serving

inductive Event (α : Type*)
  | accept
  | produce (c : Nat)
  | sent (c : Nat)
  | close (c : Nat)
  | pool (e : TaskPool.Event α)
  | get (i : Nat) (type : DbType) (name : String) (got : Option Got)
  | stopTcpServer
  | tcpServerStopped
  | releaseDBResource
  | closeDb
  | cleared
  | taskPoolStopped

inductive Act (dbCfg : List DbCfg) (s : Shutdown α) : Event α → Shutdown α → Prop
  | accept : s.main = .serving → Act dbCfg s .accept { s with clients := s.clients ++ [.read] }
  | produce {c : Nat} {func : α} {ch : TaskPool.Ch} {pool : TaskPool α} :
    s.clients[c]? = some .read → TaskPool.Step s.pool (.produce func ch) pool →
    Act dbCfg s (.produce c)
      { s with pool := pool, clients := s.clients.set c (.send s.pool.tasks.length) }
  | sent {c i : Nat} {task : TaskPool.Task α} :
    s.clients[c]? = some (.send i) → s.pool.tasks[i]? = some task → task.stage ≠ .produced →
    Act dbCfg s (.sent c) { s with clients := s.clients.set c .read }
  -- The reader ends, for whatever reason, and `onClientClose` removes the client.
  | close {c : Nat} :
    s.clients[c]? = some .read → Act dbCfg s (.close c) { s with clients := s.clients.eraseIdx c }
  -- The workers. The readers of remotes and the tasks may produce tasks as well, at any time.
  | pool {e : TaskPool.Event α} {pool : TaskPool α} :
    TaskPool.Step s.pool e pool → e ≠ .stop → Act dbCfg s (.pool e) { s with pool := pool }
  -- A handler calls `GetRedisSingle`, `GetRedisCluster` or `GetMongo`.
  | get {i : Nat} {task : TaskPool.Task α} {got : Got} (type : DbType) (name : String) :
    s.pool.tasks[i]? = some task → task.stage = .running → getDb s.gDBResource type name = some got →
    Act dbCfg s (.get i type name (some got)) s
  | getPanic {i : Nat} {task : TaskPool.Task α} (type : DbType) (name : String) :
    s.pool.tasks[i]? = some task → task.stage = .running → getDb s.gDBResource type name = none →
    Act dbCfg s (.get i type name none) { s with main := .panicked }
  -- `Stop`: `StopBusi` has returned.
  | stopTcpServer : s.main = .serving → Act dbCfg s .stopTcpServer { s with main := .stopTcpServer }
  | tcpServerStopped :
    s.main = .stopTcpServer → s.clients = [] →
    Act dbCfg s .tcpServerStopped { s with main := .stopEtcdDriver }
  | releaseDBResource :
    s.main = .stopEtcdDriver →
    Act dbCfg s .releaseDBResource { s with main := .releaseDBResource dbCfg }
  | closeDb {cfg : DbCfg} {cfgs : List DbCfg} {r : DBResource} :
    s.main = .releaseDBResource (cfg :: cfgs) → closeDb s.gDBResource cfg = some r →
    Act dbCfg s .closeDb { s with gDBResource := r, main := .releaseDBResource cfgs }
  | closeDbPanic {cfg : DbCfg} {cfgs : List DbCfg} :
    s.main = .releaseDBResource (cfg :: cfgs) → closeDb s.gDBResource cfg = none →
    Act dbCfg s .closeDb { s with main := .panicked }
  | cleared :
    s.main = .releaseDBResource [] →
    Act dbCfg s .cleared { s with gDBResource := fun _ => none, main := .stopTaskPool }
  | taskPoolStopped {pool : TaskPool α} :
    s.main = .stopTaskPool → TaskPool.Step s.pool .stop pool →
    Act dbCfg s .taskPoolStopped { s with pool := pool, main := .stopped }

structure Step (dbCfg : List DbCfg) (s : Shutdown α) (e : Event α) (s' : Shutdown α) : Prop where
  alive : s.main ≠ .panicked
  act   : Act dbCfg s e s'

end Shutdown
