import Mathlib.Logic.Function.Basic
import Microservice.Framework.RpcDecode

-- A TCP connection of the system: the read loops at its two ends, the bytes on the way between them, and the
-- heart beats with which the ends find out about each other.
namespace Link

open SimpleRpc (msgHeartBeatReq msgHeartBeatRsp)

-- The handlers of the heart beats. Their `GetReqPtr` is nil, there is nothing to decode.
inductive Beat
  | req
  | rsp
  deriving DecidableEq

-- What `CreateSimpleRpcMgr` registers for them.
def rpcs (rpcName : Bytes) : Option (SimpleRpc.Generator Beat) :=
  if rpcName = .ascii msgHeartBeatReq then
    some ⟨[], fun _ => .req⟩
  else if rpcName = .ascii msgHeartBeatRsp then
    some ⟨[], fun _ => .rsp⟩
  else
    none

abbrev Side := Bool

-- The three read loops. Of the `GateProxy` of a client there is only the buffer: it sets no deadline, and does
-- not look at the time.
inductive Loop
  | tcpClient (c : TcpClient)
  | remote (r : Remote.Conn)
  | gateProxy (b : RecvBuf)

namespace Loop

def buf : Loop → RecvBuf
  | tcpClient c => c.toRecvBuf
  | remote r    => r.toRecvBuf
  | gateProxy b => b

def lastActiveTime : Loop → Option Int
  | tcpClient c => c.lastActiveTime
  | remote r    => r.lastActiveTime
  | gateProxy _ => none

-- `Turn2Session`
def session (state : TcpClientState) : Loop → SimpleRpc.SessionState
  | tcpClient _            => some state
  | remote _ | gateProxy _ => none

-- One turn of `HandleRead`, with the bodies that it hands over.
def turn (o : Observed) : Loop → Turn (Loop × List Bytes)
  | tcpClient c => (TcpClient.turn ReadLoop.collect o c []).map fun (c, bodies) => (tcpClient c, bodies)
  | remote r    => (Remote.turn ReadLoop.collect o r []).map fun (r, bodies) => (remote r, bodies)
  | gateProxy b => (GateProxy.turn ReadLoop.collect o b []).map fun (b, bodies) => (gateProxy b, bodies)

-- The condition of the loop.
def goesOn (o : Observed) : Loop → Bool
  | tcpClient _            => o.state ≠ .exit
  | remote _ | gateProxy _ => true

-- Whether a turn gets to the call of `HeartBeat`.
def heartBeat (o : Observed) (l : Loop) : Bool :=
  match o.result, l.lastActiveTime with
  | .timeout, some lastActiveTime =>
    l.goesOn o ∧ o.now - lastActiveTime > 10 * 1000 ∧ ¬o.now - lastActiveTime > 20 * 1000
  | _, _                          => false

end Loop

-- One end. Without a loop the connection is closed there. `turned` is when the read of the last turn returned,
-- and `tasks` are the requests that are not answered yet, by the time of their reading. Until then they are decoded
-- and handled at some time.
structure Peer where
  loop   : Option Loop
  turned : Int
  tasks  : List Int

end Link

-- `wire p` is on the way to the side `p`, each byte with the time of its sending. When the network is cut, it
-- takes messages without an error and delivers none of them.
structure Link where
  now  : Int
  peer : Link.Side → Link.Peer
  wire : Link.Side → List (Int × UInt8)
  cut  : Bool

namespace Link

open SimpleRpc (msgHeartBeatReq msgHeartBeatRsp)

variable {ρ : Type}

-- What the processes and the network do in time, in milliseconds: from the sending of a byte until it is read,
-- from the reading of a request until its task has sent the answer, and from one read of a loop to the next. The
-- clock of a side may go before or after.
structure Timing where
  delivery : Nat
  answer   : Nat
  period   : Nat
  clock    : Side → Int

structure InTime (cfg : Timing) (s : Link) : Prop where
  turns   : (s.peer p).loop = some l → l.lastActiveTime.isSome → s.now ≤ (s.peer p).turned + cfg.period
  reads   : (s.peer p).loop.isSome → e ∈ s.wire p → s.now ≤ e.1 + cfg.delivery
  answers : (s.peer p).loop.isSome → t ∈ (s.peer p).tasks → s.now ≤ t + cfg.answer

def setPeer (s : Link) (p : Side) (peer : Peer) : Link :=
  { s with peer := Function.update s.peer p peer }

def setWire (s : Link) (p : Side) (wire : List (Int × UInt8)) : Link :=
  { s with wire := Function.update s.wire p wire }

-- `MessageSend` of a message to the side `p`.
def send (s : Link) (p : Side) (msg : Bytes) : Link :=
  if s.cut then s else s.setWire p (s.wire p ++ msg.map (s.now, ·))

-- The requests among the bodies go to the task pool.
def requests (w : Wire ρ) (session : SimpleRpc.SessionState) (bodies : List Bytes) : List Beat :=
  (bodies.filterMap (SimpleRpc.rpcDecode w rpcs session)).filter (· = .req)

-- The side `p` has taken a turn, after which `rest` is still on the way to it. The time of a turn is when its read
-- returns.
def turned (w : Wire ρ) (s : Link) (p : Side) (l : Loop) (o : Observed) (rest : List (Int × UInt8)) : Link :=
  match l.turn o with
  | .next (l', bodies) =>
    (s.setWire p rest).setPeer p
      { loop   := some l'
        turned := s.now
        tasks  := (s.peer p).tasks ++ (requests w (l.session o.state) bodies).map fun _ => s.now }
  | .exit | .panic => (s.setWire p rest).setPeer p { s.peer p with loop := none }

-- The other side is gone, or cannot be reached.
def Broken (s : Link) (p : Side) : Prop :=
  s.cut ∨ (s.peer !p).loop = none

-- What a read of the side `p` may find, and what it leaves on the way. A deadline may pass with bytes on the
-- way, or even with bytes at hand.
inductive Reads (s : Link) (p : Side) (l : Loop) (o : Observed) : List (Int × UInt8) → Prop
  | data {taken rest : List (Int × UInt8)} :
    s.wire p = taken ++ rest → taken ≠ [] → taken.length ≤ l.buf.free → o.result = .data (taken.map Prod.snd) →
    Reads s p l o rest
  | timeout :
    l.lastActiveTime.isSome → o.result = .timeout → o.heartBeat ∨ s.Broken p → Reads s p l o (s.wire p)
  | eof {taken rest : List (Int × UInt8)} :
    s.Broken p → s.wire p = taken ++ rest → taken.length ≤ l.buf.free → o.result = .eof (taken.map Prod.snd) →
    Reads s p l o rest
  | failure : s.Broken p → o.result = .failure → Reads s p l o (s.wire p)

inductive Event
  | tick (d : Nat)
  | turn (p : Side) (o : Observed)
  | answer (p : Side)
  | post (p : Side) (body : Bytes)
  | close (p : Side)
  | cut

-- Any run of a connection.
inductive Step (cfg : Timing) (w : Wire ρ) (s : Link) : Event → Link → Prop
  | tick {d : Nat} : InTime cfg { s with now := s.now + d } → Step cfg w s (.tick d) { s with now := s.now + d }
  | turn {p : Side} {l : Loop} {o : Observed} {rest : List (Int × UInt8)} :
    (s.peer p).loop = some l → s.Reads p l o rest → o.now = s.now + cfg.clock p →
    l.heartBeat o = false →
    Step cfg w s (.turn p o) (s.turned w p l o rest)
  | beat {p : Side} {l : Loop} {o : Observed} {rest : List (Int × UInt8)} {msg : Bytes} :
    (s.peer p).loop = some l → s.Reads p l o rest → o.now = s.now + cfg.clock p →
    l.heartBeat o = true → SimpleRpc.messageEncode (w.rpcEncode (.ascii msgHeartBeatReq) []) = some msg →
    Step cfg w s (.turn p o) ((if o.heartBeat then s.send (!p) msg else s).turned w p l o rest)
  -- A task of `RpcHeartBeatReqHandler`.
  | answer {p : Side} {before after : List Int} {t : Int} {msg : Bytes} :
    (s.peer p).loop.isSome → (s.peer p).tasks = before ++ t :: after →
    SimpleRpc.messageEncode (w.rpcEncode (.ascii msgHeartBeatRsp) []) = some msg →
    Step cfg w s (.answer p) ((s.setPeer p { s.peer p with tasks := before ++ after }).send (!p) msg)
  -- Any other message: of calls, responses, pushes and so on.
  | post {p : Side} {body msg : Bytes} :
    (s.peer p).loop.isSome → body.length ≤ SimpleRpc.maxSize → SimpleRpc.messageEncode body = some msg →
    Step cfg w s (.post p body) (s.send (!p) msg)
  -- The process ends, by a panic of some handler or otherwise, or it closes the connection.
  | close {p : Side} : Step cfg w s (.close p) (s.setPeer p { s.peer p with loop := none })
  -- What has got to the other side by then can still be read.
  | cut {arrived : Side → List (Int × UInt8)} :
    (∀ p, arrived p <+: s.wire p) → Step cfg w s .cut { s with wire := arrived, cut := true }

inductive Kind
  | tcpClient
  | remote
  | gateProxy
  deriving DecidableEq

-- `lastActiveTime` is the time of the connection.
def Kind.loop (lastActiveTime : Int) : Kind → Loop
  | tcpClient => .tcpClient ⟨.make, lastActiveTime⟩
  | remote    => .remote ⟨.make, lastActiveTime⟩
  | gateProxy => .gateProxy .make

def connected (cfg : Timing) (kind : Side → Kind) (now : Int) : Link where
  now    := now
  peer p := ⟨(kind p).loop (now + cfg.clock p), now, []⟩
  wire _ := []
  cut    := false

end Link
