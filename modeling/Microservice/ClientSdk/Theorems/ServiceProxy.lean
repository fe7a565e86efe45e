import Microservice.ClientSdk.ServiceProxy
import Microservice.Framework.Theorems.RpcDecode

namespace Route

open SimpleRpc

variable {ρ : Type} {w : Wire ρ} {s : State} {req : Req}

def callName (req : Req) : Bytes :=
  .ascii (if req.isOrdered then msgG2SRpcCallOrdered else msgG2SRpcCall)

theorem callName_cases (req : Req) :
    callName req = .ascii msgG2SRpcCall ∨ callName req = .ascii msgG2SRpcCallOrdered := by
  cases h : req.isOrdered <;> simp [callName, h]

def rspGenerator (w : Wire ρ) : Generator (Handler ρ) :=
  ⟨rspFields w, fun values => .rsp ⟨values.1, values.2.1, values.2.2.1⟩⟩

theorem rpcs_rsp (w : Wire ρ) (others : Bytes → Option (Generator (Handler ρ))) :
    rpcs w others (.ascii msgS2GRpcRsp) = some (rspGenerator w) :=
  rfl

theorem call_eq :
    call w s req = w.rpcEncode (callName req) (w.uint32.encode (grid s req) ++ w.bin.encode req.innerRpc) := by
  cases h : req.isOrdered <;> simp [call, callName, h]

end Route

namespace ServiceProxy

open SimpleRpc

variable {ρ τ : Type} {w : Wire ρ} {own : Bytes → Option (RpcHandle.UserHandler ρ)}

-- The arguments of a call that are the values of a request.
def args : (fs : List (Codec.Field RpcHandle.FieldName)) → Codec.Values fs → List Arg
  | [], _            => []
  | f :: fs, (v, vs) => .value (f.codec.encode v) :: args fs vs

theorem flatMap_args {fs : List (Codec.Field RpcHandle.FieldName)} (vs : Codec.Values fs) :
    (args fs vs).flatMap Arg.encode = Codec.encodeAll fs vs := by
  induction fs
  case nil => rfl
  case cons f fs hi =>
    have ⟨v, vs⟩ := vs
    simp only [args, List.flatMap_cons, hi, Codec.encodeAll, Arg.encode]

theorem value_of_mem_args {fs : List (Codec.Field RpcHandle.FieldName)} {vs : Codec.Values fs} {arg : Arg}
    (h : arg ∈ args fs vs) : ∃ encoded, arg = .value encoded := by
  induction fs
  case nil => cases h
  case cons f fs hi =>
    have ⟨v, vs⟩ := vs
    cases List.mem_cons.mp h
    case inl h => exact ⟨_, h⟩
    case inr h => exact hi h

-- A call of an rpc that the service has a handler for, with a value for each field of its request, and maybe
-- with a `CallBack`, of which there is whether it is nil.
structure Call (w : Wire ρ) (own : Bytes → Option (RpcHandle.UserHandler ρ)) where
  sp         : ServiceProxy
  gid        : UInt32
  ordered    : Bool
  rpcName    : Bytes
  handler    : RpcHandle.Handler ρ
  registered : RpcHandle.registered own rpcName = some handler
  values     : Codec.Values (handler.fields w)
  callBack   : Option Bool

namespace Call

def args (c : Call w own) : List Arg :=
  ServiceProxy.args (c.handler.fields w) c.values ++ (c.callBack.map Arg.callBack).toList

def rid (c : Call w own) : UInt32 :=
  if c.callBack = some false then c.gid else 0

def innerRpc (c : Call w own) : Bytes :=
  w.rpcEncode c.rpcName (Codec.encodeAll (c.handler.fields w) c.values)

def req (c : Call w own) : Route.Req :=
  ⟨c.sp.nameSpace, c.sp.serviceName, c.rid, c.ordered, c.innerRpc⟩

theorem callBack_args (c : Call w own) :
    ServiceProxy.callBack c.gid c.args = (c.rid, ServiceProxy.args (c.handler.fields w) c.values) := by
  unfold ServiceProxy.callBack args rid
  cases c.callBack
  case some isNil => cases isNil <;> simp
  case none =>
    simp only [Option.map_none, Option.toList_none, List.append_nil]
    split
    case h_1 isNil h =>
      have ⟨_, he⟩ := value_of_mem_args (List.mem_of_getLast? h)
      cases he
    case h_2 => rfl

theorem req_eq (c : Call w own) : ServiceProxy.req w c.sp c.gid c.ordered c.rpcName c.args = c.req := by
  simp only [ServiceProxy.req, callBack_args, flatMap_args]
  rfl

-- The way of the call. Its request gets to the route handler of the gate, which sends a call to the service.
-- There the handler of the rpc runs, on the values.
def Arrives (c : Call w own) (others : Bytes → Option (Generator (Route.Handler ρ))) (s : Route.State)
    (conn : Conn) (client gate : SessionState) : Prop :=
  ∃ msg msg', rpcCall w c.sp c.gid c.ordered c.rpcName c.args = some msg ∧
    handlers w (Route.rpcs w others) client msg = some [.route c.req] ∧
    Route.process w s c.req = some (.remote conn, Route.call w s c.req) ∧
    messageEncode (Route.call w s c.req) = some msg' ∧
    handlers w (RpcHandle.generators w (RpcHandle.registered own)) gate msg' =
      some [⟨.call, Route.grid s c.req, c.innerRpc, ()⟩] ∧
    ∀ call err, RpcHandle.rpcHandle w (RpcHandle.registered own) call (Route.grid s c.req) c.innerRpc err =
      (c.handler.process w call c.values err).map fun (eff, rsp) =>
        RpcHandle.finish (Route.grid s c.req) c.rpcName eff rsp

-- The way of a response. It gets to the response handler of the gate, which sends it to the client with the
-- id that the request had.
def Answered (c : Call w own) (others : Bytes → Option (Generator (Route.Handler ρ)))
    (others' : Bytes → Option (Generator (Handler ρ))) (clients : Partial ConnId Conn)
    (remotes : Partial ConnId Remote) (cb : CallbackMgr Gate.RouteCbInfo τ) (session : Conn)
    (service gate : SessionState) (rsp : RpcHandle.Rsp ρ) : Prop :=
  ∃ msg msg', messageEncode (rsp.encode w) = some msg ∧
    handlers w (Route.rpcs w others) service msg = some [.rsp rsp] ∧
    Route.rspProcess w clients remotes cb rsp =
      some (session, Route.rspEncode w c.rid rsp.error rsp.reply) ∧
    messageEncode (Route.rspEncode w c.rid rsp.error rsp.reply) = some msg' ∧
    handlers w (rpcs w others') gate msg' = some [.rpcRsp ⟨c.rid, rsp.error, rsp.reply⟩]

section

variable {c : Call w own} {others : Bytes → Option (Generator (Route.Handler ρ))}
variable {others' : Bytes → Option (Generator (Handler ρ))} {s : Route.State} {conn session : Conn}
variable {client gate service : SessionState} {clients : Partial ConnId Conn} {remotes : Partial ConnId Remote}
variable {cb : CallbackMgr Gate.RouteCbInfo τ} {rsp : RpcHandle.Rsp ρ} {node : Ptr}

variable (others) in
theorem request_received (hw : w.Inverts maxSize) (hc : Admitted client)
    (hle : (c.req.encode w).length ≤ maxSize) :
    ∃ msg, rpcCall w c.sp c.gid c.ordered c.rpcName c.args = some msg ∧
      handlers w (Route.rpcs w others) client msg = some [.route c.req] := by
  have hfs : ∀ f ∈ Route.reqFields w, f.codec.Inverts maxSize := by
    simp [Route.reqFields, hw.str, hw.uint32, hw.bool, hw.bin]
  rw [rpcCall, req_eq]
  refine handlers_of_rpcEncode (Route.rpcs w others) hw hc (if_pos rfl) hfs
    (c.sp.nameSpace, c.sp.serviceName, c.rid, c.ordered, c.innerRpc, ()) ?_ hle
  simp [Route.Req.encode, Route.reqFields, Codec.encodeAll, req]

theorem length_innerRpc (hw : w.Inverts maxSize) (hle : (c.req.encode w).length ≤ maxSize) :
    c.innerRpc.length ≤ maxSize := by
  have hb := hw.slice c.innerRpc
  simp only [Route.Req.encode, Wire.rpcEncode, req, List.length_append] at hle
  omega

theorem registered_msg {rpcName : Bytes}
    (h : rpcName = .ascii msgG2SRpcCall ∨ rpcName = .ascii msgG2SRpcCallOrdered) :
    RpcHandle.generators w (RpcHandle.registered own) rpcName =
      some ⟨RpcHandle.callFields w, fun values => ⟨.call, values⟩⟩ := by
  simp only [RpcHandle.generators, RpcHandle.registered, if_pos h]
  rfl

theorem call_received (hw : w.Inverts maxSize) (hg : Admitted gate)
    (hle : (Route.call w s c.req).length ≤ maxSize) :
    ∃ msg, messageEncode (Route.call w s c.req) = some msg ∧
      handlers w (RpcHandle.generators w (RpcHandle.registered own)) gate msg =
        some [⟨.call, Route.grid s c.req, c.innerRpc, ()⟩] := by
  have hfs : ∀ f ∈ RpcHandle.callFields w, f.codec.Inverts maxSize := by
    simp [RpcHandle.callFields, hw.uint32, hw.bin]
  refine handlers_of_rpcEncode _ hw hg (registered_msg (Route.callName_cases c.req)) hfs
    (Route.grid s c.req, c.innerRpc, ()) ?_ hle
  rw [Route.call_eq]
  simp [RpcHandle.callFields, Codec.encodeAll, req]

variable (others) in
theorem rsp_received (hw : w.Inverts maxSize) (hs : Admitted service)
    (hle : (rsp.encode w).length ≤ maxSize) :
    ∃ msg, messageEncode (rsp.encode w) = some msg ∧
      handlers w (Route.rpcs w others) service msg = some [.rsp rsp] := by
  have hfs : ∀ f ∈ Route.rspFields w, f.codec.Inverts maxSize := by
    simp [Route.rspFields, hw.str, hw.uint32, hw.reply]
  refine handlers_of_rpcEncode _ hw hs (Route.rpcs_rsp w others) hfs (rsp.grid, rsp.error, rsp.reply, ()) ?_ hle
  simp [RpcHandle.Rsp.encode, Route.rspGenerator, Route.rspFields, Codec.encodeAll]

variable (others') in
theorem clientRsp_received {rid : UInt32} {error : Bytes} {reply : Option ρ} (hw : w.Inverts maxSize)
    (hg : Admitted gate) (hle : (Route.rspEncode w rid error reply).length ≤ maxSize) :
    ∃ msg, messageEncode (Route.rspEncode w rid error reply) = some msg ∧
      handlers w (rpcs w others') gate msg = some [.rpcRsp ⟨rid, error, reply⟩] := by
  have hfs : ∀ f ∈ rspFields w, f.codec.Inverts maxSize := by
    simp [rspFields, hw.str, hw.uint32, hw.reply]
  refine handlers_of_rpcEncode (rpcs w others') hw hg (if_pos rfl) hfs (rid, error, reply, ()) ?_ hle
  simp [Route.rspEncode, rspFields, Codec.encodeAll]

-- The request is handled like any other request, up to the handler of the rpc.
theorem arrives (hw : w.Inverts maxSize) (hfs : ∀ f ∈ c.handler.fields w, f.codec.Inverts maxSize)
    (hc : Admitted client) (hg : Admitted gate) (hp : Route.permission w s c.req = none)
    (hr : s.remote = some conn) (hreq : (c.req.encode w).length ≤ maxSize)
    (hcall : (Route.call w s c.req).length ≤ maxSize) : c.Arrives others s conn client gate := by
  have ⟨msg, hm, hh⟩ := request_received others hw hc hreq
  have ⟨msg', hm', hh'⟩ := call_received hw hg hcall
  have hproc : Route.process w s c.req = some (.remote conn, Route.call w s c.req) := by
    simp only [Route.process, hp, hr]
  refine ⟨msg, msg', hm, hh, hproc, hm', hh', fun call err => ?_⟩
  exact RpcHandle.rpcHandle_rpcEncode hw c.registered hfs c.values (length_innerRpc hw hreq) call _ err

variable (session cb) in
-- What the gate remembers of the call.
theorem addCallBack_gCbMap (now : Int) (hp : Route.permission w s c.req = none) (hr : s.remote = some conn)
    (hrid : c.rid ≠ 0) :
    (Route.addCallBack w s session now c.req cb).gCbMap (Route.grid s c.req) =
      some (⟨c.rid, getConnID session⟩, cb.queue.alloc) := by
  have hrid : ¬c.req.rid = 0 := hrid
  simp only [Route.addCallBack, Route.process, hp, hr, if_neg hrid, CallbackMgr.addCallBack,
    Partial.insert_self]
  rfl

theorem answered (hw : w.Inverts maxSize) (hs : Admitted service) (hg : Admitted gate)
    (hcb : cb.gCbMap rsp.grid = some (⟨c.rid, getConnID session⟩, node))
    (hconn : Route.connOf clients remotes (getConnID session) = some session)
    (hrsp : (rsp.encode w).length ≤ maxSize)
    (hrsp' : (Route.rspEncode w c.rid rsp.error rsp.reply).length ≤ maxSize) :
    c.Answered others others' clients remotes cb session service gate rsp := by
  have ⟨msg, hm, hh⟩ := rsp_received others hw hs hrsp
  have ⟨msg', hm', hh'⟩ := clientRsp_received others' hw hg hrsp'
  refine ⟨msg, msg', hm, hh, ?_, hm', hh'⟩
  simp only [Route.rspProcess, hcb, hconn, Option.map_some]

variable (τ c others others' s conn client gate) in
-- A call that the gate forwards runs the handler of its name on its arguments. As long as the gate remembers
-- the call and the connection of the client is there, the error and the reply of the response get to the
-- client as they are, with the id of the client.
theorem transparent (hw : w.Inverts maxSize) (hfs : ∀ f ∈ c.handler.fields w, f.codec.Inverts maxSize)
    (hc : Admitted client) (hg : Admitted gate) (hp : Route.permission w s c.req = none)
    (hr : s.remote = some conn) (hreq : (c.req.encode w).length ≤ maxSize)
    (hcall : (Route.call w s c.req).length ≤ maxSize) :
    c.Arrives others s conn client gate ∧
    ∀ (session : Conn) (now : Int) (cb cb' : CallbackMgr Gate.RouteCbInfo τ) (clients : Partial ConnId Conn)
      (remotes : Partial ConnId Remote) (service gate' : SessionState) (rsp : RpcHandle.Rsp ρ),
      c.rid ≠ 0 → rsp.grid = Route.grid s c.req →
      cb'.gCbMap rsp.grid = (Route.addCallBack w s session now c.req cb).gCbMap rsp.grid →
      Route.connOf clients remotes (getConnID session) = some session → Admitted service → Admitted gate' →
      (rsp.encode w).length ≤ maxSize → (Route.rspEncode w c.rid rsp.error rsp.reply).length ≤ maxSize →
      c.Answered others others' clients remotes cb' session service gate' rsp := by
  refine ⟨arrives hw hfs hc hg hp hr hreq hcall, ?_⟩
  intro session now cb cb' clients remotes service gate' rsp hrid hgrid hcb hconn hs hg' hrsp hrsp'
  have hadd := addCallBack_gCbMap session cb now hp hr hrid
  exact answered hw hs hg' (hcb.trans (hgrid ▸ hadd)) hconn hrsp hrsp'

end

-- A service with an rpc of a string.
def demoHandler : RpcHandle.UserHandler Unit where
  fields        := [⟨⟨.ascii "S", .ascii "*string"⟩, Bytes, Msgpack.str⟩]
  process _ err := ⟨err, some (), false⟩

def demoOwn (rpcName : Bytes) : Option (RpcHandle.UserHandler Unit) :=
  if rpcName = .ascii "x" then some demoHandler else none

def demoCall : Call Wire.msgpack demoOwn where
  sp         := ⟨.ascii "n", .ascii "s"⟩
  gid        := 1
  ordered    := false
  rpcName    := .ascii "x"
  handler    := .user demoHandler
  registered := rfl
  values     := (Bytes.ascii "y", ())
  callBack   := some false

def demoGate (conn : Conn) : Route.State :=
  ⟨.serviceGate, true, fun _ => none, some conn, 5⟩

theorem demoCall_transparent :
    demoCall.Arrives (fun _ => none) (demoGate ⟨0, "s"⟩) ⟨0, "s"⟩ (some .ok) (some .ok) ∧
    demoCall.Answered (fun _ => none) (fun _ => none) (fun _ => some ⟨1, "c"⟩) (fun _ => none)
      (Route.addCallBack Wire.msgpack (demoGate ⟨0, "s"⟩) ⟨1, "c"⟩ 0 demoCall.req
        (.init : CallbackMgr Gate.RouteCbInfo Unit)) ⟨1, "c"⟩ none none ⟨5, [], some ()⟩ := by
  have hok : Admitted (some .ok) := fun _ h => (Option.some.inj h).symm
  have hnone : Admitted none := nofun
  have hfs : ∀ f ∈ demoCall.handler.fields Wire.msgpack, f.codec.Inverts maxSize := by
    intro f hf
    cases List.mem_singleton.mp hf
    exact Msgpack.str_inverts (by decide)
  have ⟨ha, hr⟩ := transparent Unit demoCall (fun _ => none) (fun _ => none) (demoGate ⟨0, "s"⟩) ⟨0, "s"⟩
    (some .ok) (some .ok) (Wire.msgpack_inverts (by decide)) hfs hok hok rfl rfl (by decide) (by decide)
  exact ⟨ha, hr ⟨1, "c"⟩ 0 .init _ _ _ _ _ _ (by decide) rfl rfl rfl hnone hnone (by decide) (by decide)⟩

end Call

end ServiceProxy
