import Microservice.Framework.DefaultRpcHandler
import Microservice.Framework.Utils

-- `MSG_G2C_PUSH`
structure G2CPush where
  pid       : Bytes
  nameSpace : String
  innerRpc  : Bytes

namespace ClientSdk

-- What the msgpack decoder makes of an inner rpc: its name, and the arguments after it for each type of
-- request. `own` are the handlers that are neither of the push nor of a call.
structure Codec where
  rpcName : Bytes → String
  pushReq : Bytes → Option G2CPush
  callReq : Bytes → Option Bytes
  own     : String → Bool
  decodes : Bytes → Bool

-- What the handler table has for an inner rpc.
inductive Dispatch
  | refused
  | g2cPush (req : G2CPush)
  | g2sRpcCall (innerRpc : Bytes)
  | own

def Codec.dispatch (k : Codec) (innerRpc : Bytes) : Dispatch :=
  let rpcName := k.rpcName innerRpc
  if rpcName = SimpleRpc.msgG2CPush then
    match k.pushReq innerRpc with
    | some req => .g2cPush req
    | none     => .refused
  else if rpcName = SimpleRpc.msgG2SRpcCall ∨ rpcName = SimpleRpc.msgG2SRpcCallOrdered then
    match k.callReq innerRpc with
    | some innerRpc => .g2sRpcCall innerRpc
    | none          => .refused
  else if k.own rpcName ∧ k.decodes innerRpc then
    .own
  else
    .refused

-- Where a `Process` that runs the handler of another rpc is: before it has looked the handler up, while
-- the handler runs, or after that.
inductive Phase
  | dispatch
  | running
  | returned

-- `RpcG2CPushHandler.Process` and `RpcG2SRpcCallHandler.Process`. Only the second one recovers from a
-- panic of the handler that it runs.
inductive Process
  | g2cPush (req : G2CPush) (phase : Phase)
  | g2sRpcCall (innerRpc : Bytes) (phase : Phase)

namespace Process

def phase : Process → Phase
  | .g2cPush _ phase | .g2sRpcCall _ phase => phase

def innerRpc : Process → Bytes
  | .g2cPush req _         => req.innerRpc
  | .g2sRpcCall innerRpc _ => innerRpc

def setPhase : Process → Phase → Process
  | .g2cPush req _, phase         => .g2cPush req phase
  | .g2sRpcCall innerRpc _, phase => .g2sRpcCall innerRpc phase

end Process

-- The nested calls of one task, the innermost first.
abbrev Stack := List Process

-- The innermost call has returned to the one that runs it.
def Stack.return : Stack → Stack
  | p :: ps => p.setPhase .returned :: ps
  | []      => []

-- A panic goes up to the next call that recovers from it.
def Stack.unwind : Stack → Option Stack
  | .g2cPush .. :: ps           => Stack.unwind ps
  | .g2sRpcCall innerRpc _ :: ps => some (.g2sRpcCall innerRpc .returned :: ps)
  | []                          => none

-- What a task does to the outside: a handler has run to its end on an inner rpc of a push, and the
-- `MSG_PUSH_REPLY` for its record.
structure Output where
  handled : List Bytes
  replies : List Bytes

def Output.none : Output := ⟨[], []⟩

inductive Event
  | enter
  | finish
  | panic
  | complete

def reply (pid : Bytes) : List Bytes :=
  if pid.length ≠ 0 then [pid] else []

-- A push whose handler is refused returns at once. A call whose handler is refused, or recovered from,
-- returns the error to its caller.
def Codec.step (k : Codec) : Event → Stack → Option (Stack × Output)
  | .enter, p :: ps =>
    match p.phase with
    | .dispatch =>
      match k.dispatch p.innerRpc, p with
      | .g2cPush req, _          => some (.g2cPush req .dispatch :: p.setPhase .running :: ps, .none)
      | .g2sRpcCall innerRpc, _  =>
        some (.g2sRpcCall innerRpc .dispatch :: p.setPhase .running :: ps, .none)
      | .own, _                  => some (p.setPhase .running :: ps, .none)
      | .refused, .g2cPush ..    => some (Stack.return ps, .none)
      | .refused, .g2sRpcCall .. => some (Stack.return (p :: ps), .none)
    | _ => none
  | .finish, p :: ps =>
    match p.phase with
    | .running => some (p.setPhase .returned :: ps, .none)
    | _        => none
  | .panic, p :: ps =>
    match p.phase with
    | .running => (Stack.unwind (p :: ps)).map (·, .none)
    | _        => none
  | .complete, p :: ps =>
    match p with
    | .g2cPush req .returned  => some (Stack.return ps, ⟨[req.innerRpc], reply req.pid⟩)
    | .g2sRpcCall _ .returned => some (Stack.return ps, .none)
    | _                       => none
  | _, [] => none

end ClientSdk
