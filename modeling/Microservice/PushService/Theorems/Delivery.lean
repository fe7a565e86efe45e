import Microservice.Framework.Theorems.RpcDecode
import Microservice.Gate.Theorems.Route
import Microservice.PushService.Delivery
import Microservice.PushService.Theorems.PushToGate

theorem Bytes.text_utf8 (s : String) : (Bytes.utf8 s).text = some s := by
  have h : String.fromUTF8? s.toByteArray = some s := by
    simp only [String.fromUTF8?, s.isValidUTF8, dite_true]
    rfl
  simpa [Bytes.text, Bytes.utf8] using h

namespace Delivery

open SimpleRpc

section

variable {ρ : Type} {w : Wire ρ} {β : Type*} {rpcs : Bytes → Option (Generator β)} {session : SessionState}
variable {name args msg : Bytes} {gen : Generator β} {values : Codec.Values gen.fields}

theorem rpcDecode_of_decodeAll (hw : w.Inverts maxSize) (hs : Admitted session) (hr : rpcs name = some gen)
    (hd : Codec.decodeAll gen.fields args = (.ok values, [])) (hle : (w.rpcEncode name args).length ≤ maxSize) :
    rpcDecode w rpcs session (w.rpcEncode name args) = some (gen.handler values) := by
  simp only [rpcDecode, hw.rpcName hle, hs.preCheck, if_true, hr, hd]

variable (rpcs) in
-- The way of an rpc from one process to another, however its arguments are written.
theorem received_of_decodeAll (hw : w.Inverts maxSize) (hs : Admitted session) (hr : rpcs name = some gen)
    (hd : Codec.decodeAll gen.fields args = (.ok values, [])) (hle : (w.rpcEncode name args).length ≤ maxSize)
    (hm : messageEncode (w.rpcEncode name args) = some msg) :
    received w rpcs session msg = some (gen.handler values) := by
  simp only [received, handlers_messageEncode hle hm, rpcDecode_of_decodeAll hw hs hr hd hle, Option.toList]

theorem decodeAll_of_eq (fs : List (Codec.Field RpcHandle.FieldName)) (vs : Codec.Values fs)
    (hfs : ∀ f ∈ fs, f.codec.Inverts maxSize) (hargs : args = Codec.encodeAll fs vs)
    (hle : (w.rpcEncode name args).length ≤ maxSize) : Codec.decodeAll fs args = (.ok vs, []) := by
  subst hargs
  exact Wire.decodeAll_args hfs vs hle

end

section

variable {ρ : Type} {w : Wire ρ} {β : Type} {env : Env w β} {s : Route.State} {session : SessionState}
variable {req : Route.Req} {num name args msg : Bytes} {conn : Conn}

theorem admitted_none : Admitted none := by
  simp [Admitted]

theorem admitted_ok : Admitted (some .ok) := by
  simp [Admitted]

-- A route request with its id written in some form.
def routeArgs (w : Wire ρ) (num : Bytes) (req : Route.Req) : Bytes :=
  w.str.encode req.nameSpace ++ w.str.encode req.service ++ num ++ w.bool.encode req.isOrdered ++
    w.bin.encode req.innerRpc

def routeWith (w : Wire ρ) (num : Bytes) (req : Route.Req) : Bytes :=
  w.rpcEncode (.ascii msgC2GRpcRoute) (routeArgs w num req)

theorem decodeAll_routeArgs (hw : w.Inverts maxSize)
    (hnum : ∀ rest, w.uint32.decode (num ++ rest) = (.ok req.rid, rest))
    (hle : (routeWith w num req).length ≤ maxSize) :
    Codec.decodeAll (Route.reqFields w) (routeArgs w num req) =
      (.ok (req.nameSpace, req.service, req.rid, req.isOrdered, req.innerRpc, ()), []) := by
  simp only [routeWith, routeArgs, Wire.rpcEncode, List.length_append] at hle
  have hbin := hw.bin req.innerRpc [] (by omega)
  rw [List.append_nil] at hbin
  simp only [Route.reqFields, routeArgs, Codec.decodeAll, List.append_assoc, hw.str req.nameSpace _ (by omega),
    hw.str req.service _ (by omega), hnum, hw.bool req.isOrdered _ (by omega), hbin]

-- A gate sends a request on as a call.
theorem routed_eq (hw : w.Inverts maxSize) (hs : Admitted session)
    (hnum : ∀ rest, w.uint32.decode (num ++ rest) = (.ok req.rid, rest))
    (hle : (routeWith w num req).length ≤ maxSize) (hm : messageEncode (routeWith w num req) = some msg)
    (hp : Route.permission w s req = none) (hc : s.remote = some conn) :
    env.routed s session msg = (messageEncode (Route.call w s req)).map (conn, ·) := by
  have hd := decodeAll_routeArgs hw hnum hle
  have hr := received_of_decodeAll (Route.rpcs w env.gateOthers) hw hs rfl hd hle hm
  simp only [Env.routed, hr, Route.process, hp, hc]

theorem call_eq (hr : req.rid = 0) (ho : req.isOrdered = false) : Route.call w s req =
    w.rpcEncode (.ascii msgG2SRpcCall) (w.uint32.encode 0 ++ w.bin.encode req.innerRpc) := by
  simp [Route.call, Route.grid, hr, ho]

theorem length_call_le (hstd : w.Standard) (hr : req.rid = 0) (ho : req.isOrdered = false)
    (hs : req.service = pushService) : (Route.call w s req).length ≤ (routeWith w num req).length := by
  have hservice : (w.str.encode req.service).length = 12 := by
    rw [hs, hstd.str]
    decide
  rw [call_eq hr ho, routeWith, routeArgs, hstd.length_rpcEncode rfl, hstd.length_rpcEncode rfl]
  simp only [List.length_append, hstd.uint32, hservice]
  omega

-- The push service gets the inner rpc of a call to the handler of its name.
theorem called_eq (hw : w.Inverts maxSize) (hg : env.gateState = .ok) {gen : Generator (Option Rpc)}
    {values : Codec.Values gen.fields} (hr : rpcs w env.pushOthers name = some gen)
    (hd : Codec.decodeAll gen.fields args = (.ok values, []))
    (hle : (w.rpcEncode (.ascii msgG2SRpcCall)
      (w.uint32.encode 0 ++ w.bin.encode (w.rpcEncode name args))).length ≤ maxSize)
    (hm : messageEncode (w.rpcEncode (.ascii msgG2SRpcCall)
      (w.uint32.encode 0 ++ w.bin.encode (w.rpcEncode name args))) = some msg) :
    env.called msg = gen.handler values := by
  have hcall : Codec.decodeAll (RpcHandle.callFields w)
      (w.uint32.encode 0 ++ w.bin.encode (w.rpcEncode name args)) = (.ok (0, w.rpcEncode name args, ()), []) :=
    decodeAll_of_eq (RpcHandle.callFields w) (0, w.rpcEncode name args, ())
      (by simp [RpcHandle.callFields, hw.uint32, hw.bin]) (by simp [RpcHandle.callFields, Codec.encodeAll]) hle
  have hrec := received_of_decodeAll
    (RpcHandle.generators w (RpcHandle.registered (own w env.pushOthers env.outcome)))
    hw (hg ▸ admitted_ok) rfl hcall hle hm
  have hinner : (w.rpcEncode name args).length ≤ maxSize := by
    have hslice := hw.slice (w.rpcEncode name args)
    simp only [Wire.rpcEncode, List.length_append] at hle hslice ⊢
    omega
  simp only [Env.called, hrec, rpcDecode_of_decodeAll hw admitted_none hr hd hinner, Option.join_some]

variable (env session) in
-- An rpc without a response, from a gate to the push service.
theorem routed_called (hw : w.Inverts maxSize) (hstd : w.Standard) (hs : Admitted session)
    (hg : env.gateState = .ok) {gen : Generator (Option Rpc)} {values : Codec.Values gen.fields}
    (hr : rpcs w env.pushOthers name = some gen) (hd : Codec.decodeAll gen.fields args = (.ok values, []))
    {nameSpace : Bytes} (hreq : req = ⟨nameSpace, pushService, 0, false, w.rpcEncode name args⟩)
    (hnum : ∀ rest, w.uint32.decode (num ++ rest) = (.ok 0, rest))
    (hle : (routeWith w num req).length ≤ maxSize) (hm : messageEncode (routeWith w num req) = some msg)
    (hp : Route.permission w s req = none) (hc : s.remote = some conn) :
    ∃ msg', env.routed s session msg = some (conn, msg') ∧ env.called msg' = gen.handler values := by
  subst hreq
  have hcall := Nat.le_trans (length_call_le (s := s) hstd rfl rfl rfl) hle
  have hm' := messageEncode_eq_some hcall
  refine ⟨_, (routed_eq hw hs hnum hle hm hp hc).trans (congrArg (Option.map _) hm'), ?_⟩
  rw [call_eq rfl rfl] at hcall hm'
  exact called_eq hw hg hr hd hcall hm'

-- The gate of the client sends a push on to the connection that it names.
theorem forwarded_eq (hw : w.Inverts maxSize) {p : P2GPush} (hc : env.clients p.connID = some conn)
    (hle : (PushToGate.p2gPush w p).length ≤ maxSize) (hm : messageEncode (PushToGate.p2gPush w p) = some msg) :
    env.forwarded msg = (messageEncode (g2cPush w ⟨p.pid, p.nameSpace, p.innerRpc⟩)).map (conn, ·) := by
  have hd := decodeAll_of_eq (p2gFields w) (.utf8 p.connID, p.pid, .utf8 p.nameSpace, p.innerRpc, ())
    (by simp [p2gFields, hw.str, hw.bin]) (by simp [p2gFields, Codec.encodeAll]) hle
  have hr : received w (gateRpcs w env.p2gOthers) none msg = some (some p) :=
    (received_of_decodeAll _ hw admitted_none rfl hd hle hm).trans (by simp [Bytes.text_utf8])
  simp only [Env.forwarded, hr, p2gProcess, hc, Option.map_some]

theorem length_g2cPush (hstd : w.Standard) {p : P2GPush} :
    (g2cPush w ⟨p.pid, p.nameSpace, p.innerRpc⟩).length ≤ (PushToGate.p2gPush w p).length := by
  rw [g2cPush, PushToGate.p2gPush, hstd.length_rpcEncode rfl, hstd.length_rpcEncode rfl]
  simp only [List.length_append]
  omega

-- The client gets the inner rpc of a push to the handler of its name, and replies to a push with an id.
theorem handled_eq (hw : w.Inverts maxSize) {p : G2CPush} {gen : Generator β} {values : Codec.Values gen.fields}
    (hr : env.rpcs name = some gen) (hd : Codec.decodeAll gen.fields args = (.ok values, []))
    (hp : p.innerRpc = w.rpcEncode name args) (hle : (g2cPush w p).length ≤ maxSize)
    (hm : messageEncode (g2cPush w p) = some msg) :
    env.handled msg = some (gen.handler values,
      if p.pid.length ≠ 0 then some (pushReply w env.zero p.nameSpace p.pid) else none) := by
  have hd' := decodeAll_of_eq (g2cFields w) (p.pid, .utf8 p.nameSpace, p.innerRpc, ())
    (by simp [g2cFields, hw.str, hw.bin]) (by simp [g2cFields, Codec.encodeAll]) hle
  have hrec : received w (clientRpcs w env.g2cOthers) none msg = some (some p) :=
    (received_of_decodeAll _ hw admitted_none rfl hd' hle hm).trans (by simp [Bytes.text_utf8])
  have hinner : (w.rpcEncode name args).length ≤ maxSize := by
    have hslice := hw.slice p.innerRpc
    simp only [g2cPush, Wire.rpcEncode, List.length_append] at hle
    rw [← hp]
    omega
  simp only [Env.handled, hrec, g2cProcess, hp, rpcDecode_of_decodeAll hw admitted_none hr hd hinner,
    Option.map_some]

end

section

variable {ρ : Type} {w : Wire ρ} {β : Type} {env : Env w β} {conn : GateConn} {clientID : String} {G : ConnId}
variable {client : Conn} {name : Bytes} {gen : Generator β} {mongo : Mongo}

-- The gate of the service knows the push service, which knows the gate of the client, where the client has
-- logged in.
structure Env.Reaches (env : Env w β) (conn : GateConn) (clientID : String) (G : ConnId) (client : Conn) :
    Prop where
  service : env.gate.isTcpClient = false
  remote  : env.gate.remote.isSome
  state   : env.gateState = .ok
  redis   : env.found.redis (conn.service.key clientID) = some conn.location
  addr    : env.found.gGateAddrMap conn.listerAddr.str = some G
  mem     : G ∈ env.found.clients
  client  : env.clients conn.connID.str = some client

-- The gate of the client knows the push service too, and permits clients to reply.
structure Env.Answers (env : Env w β) : Prop where
  remote : env.clientGate.remote.isSome
  state  : env.clientState = .ok
  access : env.clientGate.identity = .clientGate → env.clientGate.isTcpClient = true → ∃ rpcPermissions,
    env.clientGate.gClientAccess (.utf8 env.nameSpace ++ .ascii ":" ++ pushService) = some rpcPermissions ∧
      rpcPermissions (.ascii msgPushReply) = some true

-- The id that a push has. `stored` is the record of a safe push, and `none` for an unsafe one.
def pidOf (stored : Option ObjectID) : Bytes :=
  stored.elim [] ObjectID.bytes

theorem s2pProcess_eq {ns typ : String} {pushMsg : Bytes} {found : PushToGate.Found} {insert stored : Option ObjectID}
    (hi : ∀ id ∈ stored, insert = some id) :
    s2pProcess w ns found insert mongo ⟨clientID, typ, stored.isSome, pushMsg⟩ =
      (mongo ++ (stored.map fun id => ⟨id, clientID, typ, pushMsg, .unarrive⟩).toList,
        PushToGate.pushToGate w ns found ⟨clientID, typ, pushMsg, pidOf stored⟩) := by
  cases stored
  case none    => simp [s2pProcess, pidOf, PushReq.push]
  case some id => simp [s2pProcess, pidOf, PushReq.push, hi id rfl]

theorem Env.Reaches.pushToGate_eq (he : env.Reaches conn clientID G client) {ns : String} {p : Push} {msg : Bytes}
    (hid : p.clientID = clientID) (ht : p.typ = conn.service.typ)
    (hm : messageEncode (PushToGate.p2gPush w ⟨conn.connID.str, p.pid, ns, p.pushMsg⟩) = some msg) :
    PushToGate.pushToGate w ns env.found p = .sent G msg := by
  simp only [PushToGate.pushToGate, ToGate.start_eq ht, hid, he.redis, ToGate.got, PushToGate.lookup,
    GateConn.find_location he.addr, PushToGate.send_of_fits he.mem hm]

theorem Env.Answers.permission (ha : env.Answers) {pid : Bytes} (hw : w.Inverts maxSize)
    (hle : (w.rpcEncode (.ascii msgPushReply) (w.bin.encode pid)).length ≤ maxSize) :
    Route.permission w env.clientGate ⟨.utf8 env.nameSpace, pushService, 0, false,
      w.rpcEncode (.ascii msgPushReply) (w.bin.encode pid)⟩ = none := by
  unfold Route.permission
  split
  case isFalse => rfl
  case isTrue h =>
    obtain ⟨rpcPermissions, haccess, hreply⟩ := ha.access h.1 h.2
    simp only [haccess, hw.rpcName hle, hreply]

-- The reply to a safe push gets back to the push service, with the id of its record.
theorem replied_eq (hw : w.Inverts maxSize) (hstd : w.Standard) (hg : env.gateState = .ok) (ha : env.Answers)
    {pid : Bytes} (hle : (pushReply w env.zero env.nameSpace pid).length ≤ maxSize) :
    replied env (pushReply w env.zero env.nameSpace pid) = some (.pushReply pid) := by
  have hinner : (w.rpcEncode (.ascii msgPushReply) (w.bin.encode pid)).length ≤ maxSize := by
    have hslice := hw.slice (w.rpcEncode (.ascii msgPushReply) (w.bin.encode pid))
    simp only [pushReply, Wire.rpcEncode, List.length_append] at hle hslice ⊢
    omega
  have hd := decodeAll_of_eq (replyFields w) (pid, ()) (by simp [replyFields, hw.bin])
    (by simp [replyFields, Codec.encodeAll]) hinner
  obtain ⟨c, hc⟩ := Option.isSome_iff_exists.mp ha.remote
  have hm := messageEncode_eq_some hle
  obtain ⟨msg, hrouted, hcalled⟩ := routed_called env (some env.clientState) hw hstd
    (ha.state ▸ admitted_ok) hg rfl hd rfl env.zero.decode hle hm (ha.permission hw hinner) hc
  simp only [replied, hm, Option.bind_eq_bind, Option.bind_some, hrouted, hcalled]

-- The push gets to the push service as the request that it was made from.
theorem push_called (hw : w.Inverts maxSize) (hstd : w.Standard) (he : env.Reaches conn clientID G client)
    {tpe : String} {isSafe : Bool} {args innerRpc : Bytes} (hinner : innerRpc = w.rpcEncode name args)
    (hle : ((pushRoute w env.nameSpace ⟨clientID, tpe, isSafe, innerRpc⟩).encode w).length ≤ maxSize) :
    ∃ msg c msg', push w env.nameSpace clientID tpe isSafe name args = some msg ∧
      env.routed env.gate none msg = some (c, msg') ∧
      env.called msg' = some (.s2pPush ⟨clientID, tpe, isSafe, innerRpc⟩) := by
  subst hinner
  have hinner : (PushToGate.s2pPush w ⟨clientID, tpe, isSafe, w.rpcEncode name args⟩).length ≤ maxSize := by
    have hslice := hw.slice (PushToGate.s2pPush w ⟨clientID, tpe, isSafe, w.rpcEncode name args⟩)
    simp only [pushRoute, Route.Req.encode, Wire.rpcEncode, List.length_append] at hle hslice ⊢
    omega
  have hd := decodeAll_of_eq (s2pFields w) (.utf8 clientID, .utf8 tpe, isSafe, w.rpcEncode name args, ())
    (by simp [s2pFields, hw.str, hw.bool, hw.bin]) (by simp [s2pFields, Codec.encodeAll]) hinner
  have hnum rest : w.uint32.decode (w.uint32.encode 0 ++ rest) = (.ok 0, rest) :=
    hw.uint32 0 rest (by rw [hstd.uint32]; decide)
  have hp req : Route.permission w env.gate req = none := by simp [Route.permission, he.service]
  obtain ⟨c, hc⟩ := Option.isSome_iff_exists.mp he.remote
  have hm := messageEncode_eq_some hle
  obtain ⟨msg', hrouted, hcalled⟩ := routed_called env none hw hstd admitted_none he.state rfl hd rfl hnum hle hm
    (hp _) hc
  exact ⟨_, c, msg', hm, hrouted, hcalled.trans (by simp [Bytes.text_utf8])⟩

-- The push gets from the push service to the handler of the client.
theorem p2gPush_handled (hw : w.Inverts maxSize) (hstd : w.Standard) {p : P2GPush}
    (hc : env.clients p.connID = some client) (hr : env.rpcs name = some gen)
    (hfs : ∀ f ∈ gen.fields, f.codec.Inverts maxSize) (values : Codec.Values gen.fields)
    (hp : p.innerRpc = w.rpcEncode name (Codec.encodeAll gen.fields values))
    (hle : (PushToGate.p2gPush w p).length ≤ maxSize) :
    ∃ msg msg', messageEncode (PushToGate.p2gPush w p) = some msg ∧ env.forwarded msg = some (client, msg') ∧
      env.handled msg' = some (gen.handler values,
        if p.pid.length ≠ 0 then some (pushReply w env.zero p.nameSpace p.pid) else none) := by
  have hinner : (w.rpcEncode name (Codec.encodeAll gen.fields values)).length ≤ maxSize := by
    have hslice := hw.slice p.innerRpc
    have hle := hle
    simp only [PushToGate.p2gPush, Wire.rpcEncode, List.length_append] at hle
    rw [← hp]
    omega
  have hd := Wire.decodeAll_args hfs values hinner
  have hm := messageEncode_eq_some hle
  have hle' := Nat.le_trans (length_g2cPush hstd) hle
  have hm' := messageEncode_eq_some hle'
  refine ⟨_, _, hm, (forwarded_eq hw hc hle hm).trans (congrArg (Option.map _) hm'), ?_⟩
  exact handled_eq hw hr hd hp hle' hm'

theorem reply_eq {ns : String} {zero : IntZero w} {stored : Option ObjectID} :
    (if (pidOf stored).length ≠ 0 then some (pushReply w zero ns (pidOf stored)) else none) =
      stored.map fun id => pushReply w zero ns id.bytes := by
  cases stored
  case none    => rfl
  case some id => simp [pidOf, id.length]

-- A push to a client that is logged in gets to the handler of its name there, with the arguments it was made
-- with, over the gate and the connection of the login. For a safe push, a record is stored before that, and a
-- reply gets back to the push service by which this record and no other one is marked. For an unsafe push there is
-- neither a record nor a reply.
theorem push_delivered (hw : w.Inverts maxSize) (hstd : w.Standard) (he : env.Reaches conn clientID G client)
    (stored : Option ObjectID) (hi : ∀ id ∈ stored, env.insert = some id) (ha : stored.isSome → env.Answers)
    (hr : env.rpcs name = some gen) (hfs : ∀ f ∈ gen.fields, f.codec.Inverts maxSize)
    (values : Codec.Values gen.fields) {innerRpc : Bytes}
    (hinner : innerRpc = w.rpcEncode name (Codec.encodeAll gen.fields values))
    (hroute : ((pushRoute w env.nameSpace
      ⟨clientID, conn.service.typ, stored.isSome, innerRpc⟩).encode w).length ≤ maxSize)
    (hp2g : (PushToGate.p2gPush w
      ⟨conn.connID.str, pidOf stored, env.nameSpace, innerRpc⟩).length ≤ maxSize)
    (hreply : ∀ id ∈ stored, (pushReply w env.zero env.nameSpace id.bytes).length ≤ maxSize) :
    deliver env mongo clientID conn.service.typ stored.isSome name (Codec.encodeAll gen.fields values) = some
      { gate    := G
        client  := client
        handler := gen.handler values
        mongo   := mongo ++
          (stored.map fun id => ⟨id, clientID, conn.service.typ, innerRpc, .unarrive⟩).toList
        reply   := stored.map fun id => pushReply w env.zero env.nameSpace id.bytes } ∧
    ∀ id ∈ stored, ∃ pid, replied env (pushReply w env.zero env.nameSpace id.bytes) = some (.pushReply pid) ∧
      ∀ mongo', replyProcess mongo' pid = Mongo.updateOne mongo' id := by
  constructor
  case left =>
    obtain ⟨m₁, c, m₂, hpush, hrouted, hcalled⟩ := push_called hw hstd he hinner hroute
    obtain ⟨m₃, m₄, hm, hforwarded, hhandled⟩ := p2gPush_handled hw hstd he.client hr hfs values hinner hp2g
    have hsent : PushToGate.pushToGate w env.nameSpace env.found
      ⟨clientID, conn.service.typ, innerRpc, pidOf stored⟩ = .sent G m₃ := he.pushToGate_eq rfl rfl hm
    rw [reply_eq] at hhandled
    simp only [deliver, hpush, hrouted, hcalled, s2pProcess_eq hi, hsent, hforwarded, hhandled,
      Option.bind_eq_bind, Option.bind_some]
    rfl
  case right =>
    rintro id rfl
    refine ⟨_, replied_eq hw hstd he.state (ha rfl) (hreply id rfl), fun mongo' => ?_⟩
    rw [replyProcess, ObjectID.ofPid_bytes]

end

-- The handler of the client takes a boolean.
def demoGen : Generator Bool where
  fields  := [⟨⟨.ascii "Flag", .ascii "*bool"⟩, Bool, Wire.msgpack.bool⟩]
  handler := Prod.fst

def demoId : ObjectID :=
  ⟨List.replicate 12 1, by simp⟩

def demoConn : Conn :=
  ⟨0, "192.168.100.100:50000"⟩

def demoEnv : Env Wire.msgpack Bool where
  nameSpace   := "ns"
  gate        := ⟨.serviceGate, false, fun _ => none, some demoConn, 0⟩
  gateState   := .ok
  gateOthers  := fun _ => none
  pushOthers  := fun _ => none
  outcome     := fun _ err => ⟨err, none, false⟩
  found       := PushToGate.located
  insert      := some demoId
  clients     := fun connID => if connID = "192.168.100.100:50000" then some demoConn else none
  clientGate  := ⟨.clientGate, true, fun _ => some fun _ => some true, some demoConn, 0⟩
  clientState := .ok
  p2gOthers   := fun _ => none
  rpcs        := fun rpcName => if rpcName = .ascii "flag" then some demoGen else none
  g2cOthers   := fun _ => none
  zero        := ⟨Msgpack.encodeInt 0, fun _ => Msgpack.uint32_encodeInt (by decide)⟩

theorem demoEnv_reaches : demoEnv.Reaches PushToGate.conn "x" "10.0.0.1:40000" demoConn where
  service := rfl
  remote  := rfl
  state   := rfl
  redis   := by simp [demoEnv, PushToGate.located, PushToGate.conn, GateService.key]
  addr    := by simp [demoEnv, PushToGate.located, PushToGate.conn]
  mem     := PushToGate.mem_clients
  client  := rfl

theorem demoEnv_answers : demoEnv.Answers where
  remote := rfl
  state  := rfl
  access := fun _ _ => ⟨_, rfl, rfl⟩

-- A safe push of a boolean.
theorem push_delivered_flag :
    (∃ d, deliver demoEnv [] "x" "client" true (.ascii "flag") (Wire.msgpack.bool.encode true) = some d ∧
      d.handler = true ∧ d.mongo.length = 1) ∧
    ∃ pid, replied demoEnv (pushReply Wire.msgpack demoEnv.zero "ns" demoId.bytes) = some (.pushReply pid) ∧
      ∀ mongo, replyProcess mongo pid = Mongo.updateOne mongo demoId := by
  have hw : Wire.msgpack.Inverts maxSize := Wire.msgpack_inverts (by decide)
  have hfs : ∀ f ∈ demoGen.fields, f.codec.Inverts maxSize := by
    simp [demoGen, hw.bool]
  have hr : demoEnv.rpcs (.ascii "flag") = some demoGen := rfl
  have h : deliver demoEnv [] _ _ _ _ _ = _ ∧ _ := push_delivered hw Wire.msgpack_standard
    demoEnv_reaches (some demoId) (by simp [demoEnv]) (fun _ => demoEnv_answers) hr hfs (true, ()) rfl
    (by decide) (by decide) (by decide)
  exact ⟨⟨_, h.1, rfl, rfl⟩, h.2 demoId rfl⟩

end Delivery
