import Microservice.Framework.DefaultRpcHandler
import Microservice.Framework.HandleRead
import Microservice.Gate.RpcHandler

-- The `TcpServer` of a gate: the connections it accepts, with their read loops, the states that
-- `PreCheck` tests and the tasks of their frames.
namespace TcpServer

open SimpleRpc
open Gate (ServerIdentity)

def vertifySecretKey : String := "a58a8b450770a3f42515e08d7125d76b"

-- The names with a handler on a gate, from `CreateSimpleRpcMgr` and `main`.
def rpcs : List String :=
  [msgG2SRpcCall, msgG2SRpcCallOrdered, msgG2CRpcRsp, msgHeartBeatReq, msgHeartBeatRsp, msgC2GRpcRoute,
    msgS2GRpcRsp, msgGateLogin, msgGateLogoff, msgP2GReqListenAddr, msgP2GPush, msgC2GVertify,
    msgS2GRpcAccessReport]

-- The handlers whose `GetReqPtr` returns nil.
def requestless : List String :=
  [msgHeartBeatReq, msgHeartBeatRsp, msgP2GReqListenAddr]

-- What msgpack finds in a body: the name at its start, and behind it the key of a `MSG_C2G_VERTIFY`,
-- the inner rpc of a call, or the arguments of any other rpc. Each may fail to decode.
structure Codec where
  rpcName   : Bytes → Option String
  secretKey : Bytes → Option String
  innerRpc  : Bytes → Option Bytes
  args      : Bytes → Bool

namespace Codec

-- The variable `rpcName`. It stays empty if the name does not decode.
def name (c : Codec) (body : Bytes) : String :=
  (c.rpcName body).getD ""

def isCall (c : Codec) (body : Bytes) : Bool :=
  c.name body = msgG2SRpcCall || c.name body = msgG2SRpcCallOrdered

-- There is a handler for the rpc, and its request decodes.
def dispatches (c : Codec) (body : Bytes) : Bool :=
  rpcs.contains (c.name body) &&
    if c.name body = msgC2GVertify then
      (c.secretKey body).isSome
    else if c.isCall body then
      (c.innerRpc body).isSome
    else if requestless.contains (c.name body) then
      true
    else
      c.args body

end Codec

-- What the goroutines of the connections share: the field `state` of each `TcpClient`, by its handle,
-- and `tcpServer.clients`.
structure Shared where
  state   : Nat → TcpClientState
  clients : Partial ConnId Nat

namespace Shared

def setState (m : Shared) (client : Nat) (state : TcpClientState) : Shared :=
  { m with state := Function.update m.state client state }

-- `onClientClose`
def delete (m : Shared) (connID : ConnId) : Shared :=
  { m with clients := m.clients.erase connID }

end Shared

-- Where a task is: not begun, inside of the handler for a body, which is the one of the frame or, in a
-- call, an inner one, before the `SetState` of `RpcC2GVertifyHandler`, or finished.
inductive JobPc
  | queued
  | running (body : Bytes)
  | setting (client : Nat)
  | done

-- The task of the frame with the number `idx`.
structure Job where
  idx  : Nat
  body : Bytes
  pc   : JobPc

-- What can be seen of a connection: its reads, the results of `PreCheck` and the handlers that are
-- called for its frames.
inductive ClientEvent
  | turn (o : Observed)
  | preCheck (body : Bytes) (pass : Bool)
  | handle (idx : Nat)
  | internal

-- The steps of a task, in the session of a connection with the id `connID`.
inductive JobStep (c : Codec) (connID : ConnId) (m : Shared) (job : Job) :
    ClientEvent → Shared → Job → Prop
  | skip :
    job.pc = .queued → c.dispatches job.body = false →
    JobStep c connID m job .internal m { job with pc := .done }
  | process :
    job.pc = .queued → c.dispatches job.body = true →
    JobStep c connID m job (.handle job.idx) m { job with pc := .running job.body }
  -- `rpcHandle`
  | noCall :
    job.pc = .running body → c.isCall body = true → c.innerRpc body = some rpc →
    c.dispatches rpc = false → JobStep c connID m job .internal m { job with pc := .done }
  | call :
    job.pc = .running body → c.isCall body = true → c.innerRpc body = some rpc →
    c.dispatches rpc = true → JobStep c connID m job .internal m { job with pc := .running rpc }
  -- `RpcC2GVertifyHandler`
  | keyError :
    job.pc = .running body → c.name body = msgC2GVertify → c.secretKey body ≠ some vertifySecretKey →
    JobStep c connID m job .internal m { job with pc := .done }
  | notExist :
    job.pc = .running body → c.name body = msgC2GVertify → m.clients connID = none →
    JobStep c connID m job .internal m { job with pc := .done }
  | vertify :
    job.pc = .running body → c.name body = msgC2GVertify → c.secretKey body = some vertifySecretKey →
    m.clients connID = some client →
    JobStep c connID m job .internal m { job with pc := .setting client }
  | setState :
    job.pc = .setting client →
    JobStep c connID m job .internal (m.setState client .ok) { job with pc := .done }
  -- No other handler sets the state of a client.
  | other :
    job.pc = .running body → c.name body ≠ msgC2GVertify → c.isCall body = false →
    JobStep c connID m job .internal m { job with pc := .done }

-- Where a read loop is: not started yet, at its head, in `Read` after it has seen `state`, in
-- `MessageDecode` with the bodies that are left, in `PreCheck` with the client it found, before or after
-- the test of its state, in a task that it runs itself, waiting for the worker of the ordered calls to
-- take a task, in `Close`, or gone.
inductive Reader
  | accepted
  | head
  | reading (state : TcpClientState)
  | decoding (bodies : List Bytes)
  | checking (client : Nat) (body : Bytes) (bodies : List Bytes)
  | refusing (client : Nat) (bodies : List Bytes)
  | handling (job : Job) (bodies : List Bytes)
  | waiting (idx : Nat) (bodies : List Bytes)
  | closing
  | closed

-- A `TcpClient` with its read loop, the number of frames it has checked, and the tasks it has handed
-- over.
structure Client extends TcpClient where
  connID : ConnId
  reader : Reader
  count  : Nat
  jobs   : List Job

-- What `RpcDecode` does after `PreCheck`. Two kinds of frames are handled by the read loop itself.
def Client.produce (c : Codec) (client : Client) (body : Bytes) (bodies : List Bytes) : Client :=
  let job : Job := ⟨client.count, body, .queued⟩
  if c.name body = msgC2GVertify ∨ c.name body = msgGateLogin then
    { client with count := client.count + 1, reader := .handling job bodies }
  else if c.name body = msgG2SRpcCallOrdered then
    { client with
      count  := client.count + 1
      reader := .waiting client.count bodies
      jobs   := client.jobs ++ [job] }
  else
    { client with
      count  := client.count + 1
      reader := .decoding bodies
      jobs   := client.jobs ++ [job] }

-- The steps of the connection with the handle `self`. There is none where the source dereferences nil
-- and ends the process.
inductive ClientStep (c : Codec) (self : Nat) (m : Shared) (client : Client) :
    ClientEvent → Shared → Client → Prop
  | start :
    client.reader = .accepted → m.clients client.connID = some self →
    ClientStep c self m client .internal m { client with reader := .head }
  -- `HandleRead`
  | head :
    client.reader = .head → m.state self ≠ .exit →
    ClientStep c self m client .internal m { client with reader := .reading (m.state self) }
  | exit :
    client.reader = .head → m.state self = .exit →
    ClientStep c self m client .internal m { client with reader := .closing }
  | turn {tcp : TcpClient} :
    client.reader = .reading o.state → ReadLoop.Readable client.toRecvBuf o →
    TcpClient.turn ReadLoop.collect o client.toTcpClient [] = .next (tcp, bodies) →
    ClientStep c self m client (.turn o) m
      { client with toTcpClient := tcp, reader := .decoding bodies }
  | leave :
    client.reader = .reading o.state → ReadLoop.Readable client.toRecvBuf o →
    TcpClient.turn ReadLoop.collect o client.toTcpClient [] = .exit →
    ClientStep c self m client (.turn o) m { client with reader := .closing }
  | decoded :
    client.reader = .decoding [] →
    ClientStep c self m client .internal m { client with reader := .head }
  | close :
    client.reader = .closing →
    ClientStep c self m client .internal (m.delete client.connID) { client with reader := .closed }
  -- `PreCheck`
  | vertify :
    client.reader = .decoding (body :: bodies) → c.name body = msgC2GVertify →
    ClientStep c self m client (.preCheck body true) m (client.produce c body bodies)
  | getTcpClient :
    client.reader = .decoding (body :: bodies) → c.name body ≠ msgC2GVertify →
    m.clients client.connID = some found →
    ClientStep c self m client .internal m { client with reader := .checking found body bodies }
  | pass :
    client.reader = .checking found body bodies → m.state found = .ok →
    ClientStep c self m client (.preCheck body true) m (client.produce c body bodies)
  | fail :
    client.reader = .checking found body bodies → m.state found ≠ .ok →
    ClientStep c self m client (.preCheck body false) m
      { client with count := client.count + 1, reader := .refusing found bodies }
  | refuse :
    client.reader = .refusing found bodies →
    ClientStep c self m client .internal (m.setState found .exit)
      { client with reader := .decoding bodies }
  -- The tasks of the connection
  | sync :
    client.reader = .handling job bodies → JobStep c client.connID m job e m' job' →
    ClientStep c self m client e m' { client with reader := .handling job' bodies }
  | synced :
    client.reader = .handling job bodies → job.pc = .done →
    ClientStep c self m client .internal m { client with reader := .decoding bodies }
  | taken :
    client.reader = .waiting idx bodies → (∃ job ∈ client.jobs, job.idx = idx ∧ job.pc ≠ .queued) →
    ClientStep c self m client .internal m { client with reader := .decoding bodies }
  | pool :
    client.jobs[i]? = some job → JobStep c client.connID m job e m' job' →
    ClientStep c self m client e m' { client with jobs := client.jobs.set i job' }

end TcpServer

-- All connections that were accepted so far stay in `conns`. The handle of a connection is its position.
-- `remoteJobs` are the tasks of the frames that came over connections to services, which are made by the
-- gate itself, with the addresses of these connections.
structure TcpServer extends TcpServer.Shared where
  conns      : List TcpServer.Client
  remoteJobs : List (ConnId × TcpServer.Job)
  stop       : Bool

namespace TcpServer

open Gate (ServerIdentity)

def createTcpServer : TcpServer where
  state _    := .init
  clients _  := none
  conns      := []
  remoteJobs := []
  stop       := false

-- A connection is registered under the address of its peer.
def accept (s : TcpServer) (identity : ServerIdentity) (connID : ConnId) (now : Int) : TcpServer :=
  { s with
    state   := Function.update s.state s.conns.length (if identity = .clientGate then .init else .ok)
    clients := s.clients.insert connID s.conns.length
    conns   := s.conns ++ [
      { toRecvBuf := .make, lastActiveTime := now, connID := connID, reader := .accepted, count := 0,
        jobs := [] }] }

-- The critical section of `Stop`.
def stopClients (s : TcpServer) : TcpServer :=
  { s with
    state := fun client =>
      if s.conns[client]?.any (s.clients ·.connID = some client) then .exit else s.state client
    stop  := true }

inductive Event
  | accept (connID : ConnId)
  | client (self : Nat) (e : ClientEvent)
  | remote (connID : ConnId)
  | remoteJob
  | stop

-- The accept loop starts the read loop of a connection before it accepts the next one. A peer may
-- come back from the port of a connection it has closed or reset.
inductive Step (c : Codec) (identity : ServerIdentity) (s : TcpServer) : Event → TcpServer → Prop
  | accept (now : Int) :
    s.stop = false → (∀ client ∈ s.conns, client.reader ≠ .accepted) →
    Step c identity s (.accept connID) (s.accept identity connID now)
  | client :
    s.conns[self]? = some client → ClientStep c self s.toShared client e m client' →
    Step c identity s (.client self e) { s with toShared := m, conns := s.conns.set self client' }
  -- `PreCheck` lets every frame of a `SessionRemote` pass.
  | remote (body : Bytes) :
    Step c identity s (.remote connID)
      { s with remoteJobs := s.remoteJobs ++ [(connID, ⟨0, body, .queued⟩)] }
  | remoteJob :
    s.remoteJobs[i]? = some (connID, job) → JobStep c connID s.toShared job e m job' →
    Step c identity s .remoteJob
      { s with toShared := m, remoteJobs := s.remoteJobs.set i (connID, job') }
  | stop :
    s.stop = false → Step c identity s .stop s.stopClients

end TcpServer
