import Microservice.Lib.Exec
import Microservice.Framework.SimpleRpc

def recvBufMaxLen : UInt32 := 10 * 1024 * 1024

theorem Bytes.length_copy (dst src : Bytes) : (dst.copy src).length = dst.length := by
  simp [copy]
  omega

-- The receive buffer of a connection: the first `remainLen` bytes are received and not yet decoded.
-- The buffer is allocated once, in `CreateTcpServer`, `ConnectRemote` and `CreateGateProxy`, and
-- never resized.
structure RecvBuf where
  recvBuf   : Bytes
  remainLen : UInt32
  size_eq   : recvBuf.length = recvBufMaxLen.toNat

namespace RecvBuf

variable {σ : Type*}

def make : RecvBuf where
  recvBuf   := List.replicate recvBufMaxLen.toNat 0
  remainLen := 0
  size_eq   := List.length_replicate

-- The length of `recvBuf[remainLen:]`, the part that the next read may fill.
def free (b : RecvBuf) : Nat :=
  b.recvBuf.length - b.remainLen.toNat

-- `conn.Read(recvBuf[remainLen:])` when the connection delivers `chunk`, and `remainLen += len`.
def read (b : RecvBuf) (chunk : Bytes) : RecvBuf where
  recvBuf   := b.recvBuf.take b.remainLen.toNat ++ Bytes.copy (b.recvBuf.drop b.remainLen.toNat) chunk
  remainLen := b.remainLen + UInt32.ofNat chunk.length
  size_eq   := by simp [Bytes.length_copy, ←b.size_eq]; omega

-- `MessageDecode` on the received part, and the move of the undecoded part to the front.
def decode (rpcDecode : σ → Bytes → σ) (b : RecvBuf) (s : σ) : Option (RecvBuf × σ) :=
  (b.recvBuf.slice 0 b.remainLen.toNat).bind fun msg =>
  (SimpleRpc.messageDecode rpcDecode msg s).bind fun (procLen, s) =>
    let remainLen := b.remainLen - procLen
    if remainLen < 0 then
      some ({ b with remainLen := 0 }, s)
    else
      (b.recvBuf.slice procLen.toNat (procLen + remainLen).toNat).map fun rest =>
        ({ recvBuf   := b.recvBuf.copy rest
           remainLen := remainLen
           size_eq   := (Bytes.length_copy ..).trans b.size_eq }, s)

end RecvBuf

-- How one turn of a read loop ends: it goes on to the next one, it leaves the loop, or it panics.
inductive Turn (γ : Type*)
  | next (c : γ)
  | exit
  | panic

def Turn.map {γ δ : Type*} (f : γ → δ) : Turn γ → Turn δ
  | next c => next (f c)
  | exit   => exit
  | panic  => panic

-- What `conn.Read` returns. A timeout comes with no bytes, the end of the stream may come with some.
inductive ReadResult
  | data (chunk : Bytes)
  | eof (chunk : Bytes)
  | timeout
  | failure

def ReadResult.bytes : ReadResult → Bytes
  | data chunk | eof chunk => chunk
  | timeout | failure      => []

-- The three loops share what follows a read. They differ in the test for an overflow, which leaves
-- the loop when it succeeds.
def RecvBuf.receive {σ : Type*} (overflow : UInt32 → Bool) (rpcDecode : σ → Bytes → σ) (b : RecvBuf)
    (chunk : Bytes) (s : σ) : Turn (RecvBuf × σ) :=
  if overflow (b.read chunk).remainLen then
    .exit
  else
    match (b.read chunk).decode rpcDecode s with
    | none   => .panic
    | some r => .next r

inductive TcpClientState
  | init
  | ok
  | exit
  deriving DecidableEq

-- What a turn of a read loop observes: the result of the read, the clock, whether a heart beat
-- could be sent and, in a `TcpClient`, its state, which other goroutines write to.
structure Observed where
  result    : ReadResult
  now       : Int
  heartBeat : Bool
  state     : TcpClientState

-- A read delivers at least one byte and at most as many as fit. Timeouts and errors deliver none.
def ReadLoop.Readable (b : RecvBuf) (o : Observed) : Prop :=
  ∀ chunk, o.result = .data chunk ∨ o.result = .eof chunk → 0 < chunk.length ∧ chunk.length ≤ b.free

-- The bodies of a read, in order. Nothing that `RpcDecode` does has an effect on the buffer, so a read
-- may be decoded as a whole before its first body is handed over.
def ReadLoop.collect (bodies : List Bytes) (body : Bytes) : List Bytes :=
  bodies ++ [body]

-- The connection is silent for more than 10 seconds: a heart beat is sent. It is given up when it
-- stays silent for more than 20 seconds, or when the heart beat cannot be sent.
def keepAlive (o : Observed) (lastActiveTime : Int) : Bool :=
  if o.now - lastActiveTime > 10 * 1000 then
    if o.now - lastActiveTime > 20 * 1000 then false else o.heartBeat
  else
    true

structure TcpClient extends RecvBuf where
  lastActiveTime : Int

namespace TcpClient

variable {σ : Type*}

def overflow (remainLen : UInt32) : Bool :=
  if remainLen > recvBufMaxLen then
    true
  else if remainLen > recvBufMaxLen / 2 then
    false -- a warning is logged
  else
    false

-- One turn of `TcpClient.HandleRead`.
def turn (rpcDecode : σ → Bytes → σ) (o : Observed) (c : TcpClient) (s : σ) : Turn (TcpClient × σ) :=
  if o.state = .exit then
    .exit
  else
    match o.result with
    | .timeout => if keepAlive o c.lastActiveTime then .next (c, s) else .exit
    | .failure => .exit
    | .data chunk | .eof chunk =>
      if chunk.length = 0 then
        .exit
      else
        (c.receive overflow rpcDecode chunk s).map fun (b, s) => (⟨b, o.now⟩, s)

end TcpClient

namespace Remote

variable {σ : Type*}

-- The tests stand in the other order here, the second one is never reached with success.
def overflow (remainLen : UInt32) : Bool :=
  if remainLen > recvBufMaxLen / 2 then
    false -- a warning is logged
  else if remainLen > recvBufMaxLen then
    true
  else
    false

structure Conn extends RecvBuf where
  lastActiveTime : Int

-- One turn of `Remote.HandleRead`.
def turn (rpcDecode : σ → Bytes → σ) (o : Observed) (r : Conn) (s : σ) : Turn (Conn × σ) :=
  match o.result with
  | .timeout => if keepAlive o r.lastActiveTime then .next (r, s) else .exit
  | .failure => .exit
  | .data chunk | .eof chunk =>
    if chunk.length = 0 then
      .exit
    else
      (r.receive overflow rpcDecode chunk s).map fun (b, s) => (⟨b, o.now⟩, s)

end Remote

namespace GateProxy

variable {σ : Type*}

def overflow (remainLen : UInt32) : Bool :=
  Remote.overflow remainLen

-- One turn of `GateProxy.HandleRead`. It sets no deadline, so a timeout is an error like any other.
def turn (rpcDecode : σ → Bytes → σ) (o : Observed) (b : RecvBuf) (s : σ) : Turn (RecvBuf × σ) :=
  match o.result with
  | .timeout | .failure => .exit
  | .data chunk | .eof chunk =>
    if chunk.length = 0 then .exit else b.receive overflow rpcDecode chunk s

end GateProxy
